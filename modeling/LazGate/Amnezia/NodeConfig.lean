import LazGate.Amnezia.Parameters
import LazGate.Net
import LazGate.Server.Model

/-!
# The configuration of an AmneziaWG node

Package `nativeawg`: the checks of a node's configuration and the file that a client gets.
-/

namespace LazGate.NativeAWG

open Awgconfig

/-! ## Checks -/

/-- The library functions that are not modelled. -/
structure Library where
  /-- `idna.Lookup.ToASCII`. -/
  toASCII : String → Option String
  /-- `json.Unmarshal` into a `map[string]string`. -/
  parseTimings : String → Option (List (String × String))

variable (L : Library)

def defaultDNS : String := "1.1.1.1, 1.0.0.1"

def defaultMTU : ℤ := 1376

def defaultClientRouteAllowedIPs : String := "0.0.0.0/0"

def defaultServerIPv4 : String := "10.8.1.1"

def defaultClientIPv4CIDR : String := "10.8.1.0/24"

def defaultFirstClientIPv4 : String := "10.8.1.2"

def defaultLastClientIPv4 : String := "10.8.1.254"

def maxParameterValue : ℤ := 65535

def defaultString (value fallback : String) : String :=
  if trimSpace value = "" then fallback else trimSpace value

def defaultInt (value fallback : ℤ) : ℤ := if value = 0 then fallback else value

/-- `unicode.IsControl`. -/
def isControl (c : Char) : Bool := c.val < 0x20 || (0x7f ≤ c.val && c.val ≤ 0x9f)

def validateConfigValue (label value : String) : Except String String :=
  if trimSpace value = "" then .error ("amneziawg config requires " ++ label)
  else if (trimSpace value).toList.any isControl then
    .error ("amneziawg " ++ label ++ " contains control characters")
  else .ok (trimSpace value)

def isAlphanumeric (c : Char) : Bool :=
  ('a' ≤ c && c ≤ 'z') || ('A' ≤ c && c ≤ 'Z') || ('0' ≤ c && c ≤ '9')

/-- `^[a-zA-Z0-9](?:[a-zA-Z0-9-]{0,61}[a-zA-Z0-9])?$`. -/
def labelPattern (label : List Char) : Bool :=
  label.length ≤ 63 && label.all (fun c => isAlphanumeric c || c == '-') &&
    label.head?.any isAlphanumeric && label.getLast?.any isAlphanumeric

def validateEndpointHost (value : String) : Except String String := do
  let host ← validateConfigValue "endpoint host" value
  match Net.parseIP host with
  | some ip => pure ip.format
  | none =>
    match L.toASCII (String.ofList (if host.toList.getLast? = some '.' then host.toList.dropLast
      else host.toList)) with
    | none => .error "invalid endpoint domain"
    | some name =>
      if 253 < name.utf8ByteSize ∨
          (name.toList ≠ [] ∧ name.toList.all fun c => c.isDigit || c == '.') then
        .error "invalid endpoint domain"
      else if (name.toList.splitOn '.').all labelPattern then pure name
      else .error "invalid endpoint domain"

def validatePort (label : String) (port : ℤ) : Except String Unit :=
  if port < 1 ∨ 65535 < port then
    .error ("amneziawg " ++ label ++ " must be between 1 and 65535")
  else .ok ()

def validateIPv4Address (label value : String) : Except String String := do
  let ipText ← validateConfigValue label value
  if ':' ∈ ipText.toList then .error ("amneziawg " ++ label ++ " must be dotted IPv4")
  else
    match (Net.parseIP ipText).bind Net.Addr.to4 with
    | some _ => pure ipText
    | none => .error ("amneziawg " ++ label ++ " must be IPv4")

def splitCSV (value : String) : List String :=
  ((value.toList.splitOn ',').map fun part => trimSpace (String.ofList part)).filter (· ≠ "")

/-- `strings.Join(entries, ", ")`. -/
def joinCSV (entries : List String) : String := ", ".intercalate entries

def validateDNSEntries : List String → Except String Unit
  | [] => .ok ()
  | entry :: rest => do
    let _ ← validateIPv4Address "DNS entry" entry
    validateDNSEntries rest

def validateDNS (value : String) : Except String String :=
  if splitCSV value = [] then .error "amneziawg DNS requires at least one IPv4 address"
  else do
    validateDNSEntries (splitCSV value)
    pure (joinCSV (splitCSV value))

def validateRoutes : List String → Except String Unit
  | [] => .ok ()
  | route :: rest =>
    match Net.parseCIDR route with
    | some _ => validateRoutes rest
    | none => .error ("amneziawg allowed route \"" ++ route ++ "\" must be a CIDR")

def validateAllowedRoutes (value : String) : Except String String :=
  if splitCSV value = [] then .error "amneziawg allowed routes require at least one IPv4 CIDR"
  else do
    validateRoutes (splitCSV value)
    pure (joinCSV (splitCSV value))

/-- `net.ParseIP(strings.TrimSpace(value)).To4()`. -/
def parseIPv4 (value : String) : Option IPv4 := (Net.parseIP (trimSpace value)).bind Net.Addr.to4

def validateIPv4Pool (config : AmneziaWGNodeConfig) : Except String Unit :=
  match Net.parseCIDR (trimSpace config.clientIPv4CIDR) with
  | none => .error "amneziawg client IPv4 CIDR must be an IPv4 network"
  | some network =>
    if network.to4 = none then .error "amneziawg client IPv4 CIDR must be an IPv4 network"
    else
      match parseIPv4 config.serverIPv4, parseIPv4 config.firstClientIPv4,
        parseIPv4 config.lastClientIPv4 with
      | some server, some first, some last =>
        if !network.contains4 server || !network.contains4 first || !network.contains4 last then
          .error "amneziawg server and client IPv4 addresses must belong to client IPv4 CIDR"
        else if last < first then
          .error "amneziawg first client IPv4 must not exceed last client IPv4"
        else .ok ()
      | _, _, _ => .error
          "amneziawg IPv4 pool requires valid server, first client and last client addresses"

def timingsOf (config : AmneziaWGNodeConfig) : Option (List (String × String)) :=
  if config.timingsJSON = "" then some [] else L.parseTimings config.timingsJSON

def headers (config : AmneziaWGNodeConfig) : List String :=
  [config.h1, config.h2, config.h3, config.h4]

def signatures (config : AmneziaWGNodeConfig) : List String :=
  [config.i1, config.i2, config.i3, config.i4, config.i5]

/-- The numbers with a bound, and their names. -/
def numbers (config : AmneziaWGNodeConfig) : List (String × ℤ) :=
  [("jc", config.jc), ("jmin", config.jmin), ("jmax", config.jmax), ("s1", config.s1),
    ("s2", config.s2), ("s3", config.s3), ("s4", config.s4)]

def validateNumbers : List (String × ℤ) → Except String Unit
  | [] => .ok ()
  | (name, value) :: rest =>
    if value < 0 ∨ maxParameterValue < value then
      .error ("amneziawg " ++ name ++ " must be between 1 and " ++ toString maxParameterValue)
    else validateNumbers rest

/-- The numbers `S1`–`S4` leave room for the header protection. -/
def roomForHeaders (config : AmneziaWGNodeConfig) : Bool :=
  12 ≤ config.s1 && 12 ≤ config.s2 && 12 ≤ config.s3 && 12 ≤ config.s4

def validateHeaderKey (config : AmneziaWGNodeConfig) : Except String Unit :=
  if config.headerProtectionKey = "" then .ok ()
  else if !isKey config.headerProtectionKey then
    .error "amneziawg header protection key must encode 32 bytes"
  else if !roomForHeaders config then .error "amneziawg 3.1 S1-S4 must be >= 12"
  else .ok ()

def validateAmneziaWGParameters (config : AmneziaWGNodeConfig) : Except String Unit :=
  match timingsOf L config with
  | none => .error "invalid timings"
  | some timings => do
    validate (headers config) (signatures config) config.contentPaddingAddition timings
    validateHeaderKey config
    validateNumbers (numbers config)
    if config.jmax < config.jmin then .error "amneziawg jmin must be <= jmax" else .ok ()

def validateMTU (mtu : ℤ) : Except String Unit :=
  if mtu < 1 ∨ maxParameterValue < mtu then
    .error ("amneziawg MTU must be between 1 and " ++ toString maxParameterValue)
  else .ok ()

def validateKeepalive (keepalive : ℤ) : Except String Unit :=
  if keepalive < 0 ∨ maxParameterValue < keepalive then
    .error ("amneziawg persistent keepalive must be between 0 and " ++ toString maxParameterValue)
  else .ok ()

/-- The configuration with the defaults of the address pool; the checks see them, the caller's
copy stays as it is. -/
def withPoolDefaults (config : AmneziaWGNodeConfig) : AmneziaWGNodeConfig :=
  { config with
    serverIPv4 := defaultString config.serverIPv4 defaultServerIPv4
    clientIPv4CIDR := defaultString config.clientIPv4CIDR defaultClientIPv4CIDR
    firstClientIPv4 := defaultString config.firstClientIPv4 defaultFirstClientIPv4
    lastClientIPv4 := defaultString config.lastClientIPv4 defaultLastClientIPv4 }

def validateNodeConfig (config : AmneziaWGNodeConfig) : Except String Unit := do
  let config := withPoolDefaults config
  let _ ← validateEndpointHost L config.endpointHost
  validatePort "endpoint port" config.endpointPort
  validatePort "listen port" (defaultInt config.listenPort config.endpointPort)
  let _ ← validateIPv4Address "server IPv4" config.serverIPv4
  validateIPv4Pool config
  let _ ← validateDNS (defaultString config.dns defaultDNS)
  validateMTU (defaultInt config.mtu defaultMTU)
  validateKeepalive config.persistentKeepalive
  let _ ← validateAllowedRoutes
    (defaultString config.clientRouteAllowedIPs defaultClientRouteAllowedIPs)
  let _ ← validateConfigValue "server private key" config.serverPrivateKey
  let _ ← validateConfigValue "server public key" config.serverPublicKey
  validateAmneziaWGParameters L config

/-- What `ValidateNodeConfig` finds in order, once the defaults of the pool are set. -/
structure Accepted (config : AmneziaWGNodeConfig) : Prop where
  endpointHost : ∃ host, validateEndpointHost L config.endpointHost = .ok host
  endpointPort : validatePort "endpoint port" config.endpointPort = .ok ()
  listenPort :
    validatePort "listen port" (defaultInt config.listenPort config.endpointPort) = .ok ()
  serverIPv4 : ∃ address, validateIPv4Address "server IPv4" config.serverIPv4 = .ok address
  pool : validateIPv4Pool config = .ok ()
  serverPrivateKey : ∃ key,
    validateConfigValue "server private key" config.serverPrivateKey = .ok key
  parameters : validateAmneziaWGParameters L config = .ok ()

variable {L} in
theorem accepted_of_validateNodeConfig {config : AmneziaWGNodeConfig}
    (h : validateNodeConfig L config = .ok ()) : Accepted L (withPoolDefaults config) := by
  obtain ⟨host, hhost, h⟩ := Except.bind_eq_ok.1 h
  obtain ⟨_, hendpoint, h⟩ := Except.bind_eq_ok.1 h
  obtain ⟨_, hlisten, h⟩ := Except.bind_eq_ok.1 h
  obtain ⟨address, haddress, h⟩ := Except.bind_eq_ok.1 h
  obtain ⟨_, hpool, h⟩ := Except.bind_eq_ok.1 h
  obtain ⟨_, -, h⟩ := Except.bind_eq_ok.1 h
  obtain ⟨_, -, h⟩ := Except.bind_eq_ok.1 h
  obtain ⟨_, -, h⟩ := Except.bind_eq_ok.1 h
  obtain ⟨_, -, h⟩ := Except.bind_eq_ok.1 h
  obtain ⟨key, hkey, h⟩ := Except.bind_eq_ok.1 h
  obtain ⟨_, -, hparameters⟩ := Except.bind_eq_ok.1 h
  exact ⟨⟨host, hhost⟩, hendpoint, hlisten, ⟨address, haddress⟩, hpool, ⟨key, hkey⟩, hparameters⟩

/-! ## The client's file -/

/-- A line `key = value`. -/
def assign (key value : String) : String := key ++ " = " ++ value

/-- A line that `renderProfile` leaves out: a signature packet that is empty. -/
def leftOut (line : String) : Bool :=
  line.toList.head? == some 'I' && decide (" = ".toList <:+ line.toList)

/-- The lines that `renderProfile` puts after `[Interface]`. -/
def interfaceLines (config : AmneziaWGNodeConfig) : List String :=
  (if config.headerProtectionKey ≠ "" then
    assign "HeaderProtectionKey" config.headerProtectionKey ::
      (if config.contentPaddingAddition ≠ "" then
        [assign "ContentPaddingAddition" config.contentPaddingAddition] else [])
   else []) ++
  (timingNames.filterMap fun key =>
    let value := (((timingsOf L config).getD []).lookup key).getD ""
    if value ≠ "" then some (assign key value) else none) ++
  [assign "RandomTrailers" (formatBool config.randomTrailers),
    assign "DisableCookies" (formatBool config.disableCookies)]

def renderProfile (config : AmneziaWGNodeConfig) (lines : List String) : String :=
  "\n".intercalate (lines.flatMap fun line =>
    if leftOut line then []
    else if line = "[Interface]" then line :: interfaceLines L config
    else [line])

/-- The lines of a client's file before `renderProfile`. -/
def clientLines (config : AmneziaWGNodeConfig)
    (clientPrivateKey assignedIPv4 dns serverPublicKey psk endpointHost allowedIPs : String) :
    List String :=
  ["[Interface]",
    assign "PrivateKey" clientPrivateKey,
    assign "Address" (assignedIPv4 ++ "/" ++ "32"),
    assign "DNS" dns,
    assign "MTU" (toString (defaultInt config.mtu defaultMTU)),
    assign "Jc" (toString config.jc),
    assign "Jmin" (toString config.jmin),
    assign "Jmax" (toString config.jmax),
    assign "S1" (toString config.s1),
    assign "S2" (toString config.s2),
    assign "S3" (toString config.s3),
    assign "S4" (toString config.s4),
    assign "H1" config.h1,
    assign "H2" config.h2,
    assign "H3" config.h3,
    assign "H4" config.h4,
    assign "I1" config.i1,
    assign "I2" config.i2,
    assign "I3" config.i3,
    assign "I4" config.i4,
    assign "I5" config.i5,
    "",
    "[Peer]",
    assign "PublicKey" serverPublicKey,
    assign "PresharedKey" psk,
    assign "Endpoint" (Net.joinHostPort endpointHost (toString config.endpointPort)),
    assign "AllowedIPs" allowedIPs,
    assign "PersistentKeepalive" (toString config.persistentKeepalive),
    ""]

def renderClientConf (config : AmneziaWGNodeConfig) (material : AmneziaWGMaterialRow) :
    Except String String := do
  validateNodeConfig L config
  let clientPrivateKey ← validateConfigValue "client private key" material.clientPrivateKey
  let psk ← validateConfigValue "preshared key" material.presharedKey
  let serverPublicKey ← validateConfigValue "server public key" config.serverPublicKey
  let endpointHost ← validateEndpointHost L config.endpointHost
  validatePort "endpoint port" config.endpointPort
  let assignedIPv4 ← validateIPv4Address "assigned IPv4" material.assignedIPv4
  let dns ← validateDNS (defaultString config.dns defaultDNS)
  let allowedIPs ← validateAllowedRoutes
    (defaultString config.clientRouteAllowedIPs defaultClientRouteAllowedIPs)
  pure (renderProfile L config (clientLines config clientPrivateKey assignedIPv4 dns
    serverPublicKey psk endpointHost allowedIPs))

end LazGate.NativeAWG
