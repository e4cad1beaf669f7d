import LazGate.Hysteria.Settings

/-!
# Decoding maps into settings

How `fmt` prints a value and how `encoding/json` reads a map into the structs of package
`hy2config`. A key stands for the field whose name it spells, in whatever case; the keys of a
map come in the order of their bytes, and a field keeps its value when no key stands for it.
-/

namespace LazGate.Hy2config

/-! ## Texts of values -/

mutual

/-- `fmt.Sprint`; a map is printed in the order of its keys. -/
def sprint : Value → String
  | .null => "<nil>"
  | .bool b => if b then "true" else "false"
  | .int n => toString n
  | .float text => text
  | .text s => s
  | .list l => "[" ++ " ".intercalate (sprintList l) ++ "]"
  | .object fields =>
    "map[" ++ " ".intercalate (((sprintFields fields).insertionSort fun a b => a.1 ≤ b.1).map
      fun field => field.1 ++ ":" ++ field.2) ++ "]"

def sprintList : List Value → List String
  | [] => []
  | v :: rest => sprint v :: sprintList rest

def sprintFields : List (String × Value) → List (String × String)
  | [] => []
  | (key, v) :: rest => (key, sprint v) :: sprintFields rest

end

mutual

/-- `json.Marshal` has a text for the value: not for a number that is none. -/
def marshals : Value → Bool
  | .float text => text != "NaN" && text != "+Inf" && text != "-Inf"
  | .list l => marshalsList l
  | .object fields => marshalsFields fields
  | _ => true

def marshalsList : List Value → Bool
  | [] => true
  | v :: rest => marshals v && marshalsList rest

def marshalsFields : List (String × Value) → Bool
  | [] => true
  | (_, v) :: rest => marshals v && marshalsFields rest

end

/-- `strconv.ParseUint` for 64 bits. -/
def parseUint (s : String) : Option ℕ := (atoi.digits s.toList).filter (· < 2 ^ 64)

/-- The integer that `json.Marshal` writes for a float that `fmt` prints as `text`: JSON writes
an integer below 10²¹ without an exponent. -/
def floatInt (text : String) : Option ℤ :=
  let negative := text.toList.head? == some '-'
  let cs := if negative then text.toList.tail else text.toList
  let mantissa := cs.takeWhile (· ≠ 'e')
  let exponent := (atoi (String.ofList ((cs.dropWhile (· ≠ 'e')).drop 1))).getD 0
  let fraction := (mantissa.dropWhile (· ≠ '.')).drop 1
  (atoi.digits (mantissa.takeWhile (· ≠ '.') ++ fraction)).bind fun n =>
    if fraction.length ≤ exponent ∧ exponent < 21 then
      let n : ℤ := n * 10 ^ (exponent.toNat - fraction.length)
      some (if negative then -n else n)
    else none

example : floatInt "1.5e+06" = some 1500000 ∧ floatInt "0.5" = none := by decide +kernel

/-! ## Keys and fields -/

/-- The keys of a map in the order of `json.Marshal`. -/
def Object.keys (o : Object) : List String :=
  (o.map Prod.fst).dedup.insertionSort (· ≤ ·)

/-- The entries of a map in the order of `json.Marshal`. -/
def Object.entries (o : Object) : List (String × Value) :=
  o.keys.filterMap fun key => (o.get key).map (Prod.mk key)

def foldName (s : String) : List Char := s.toList.map foldCase

/-- The value of a field after the object was read into the struct: every key that stands for it
is read, in turn. -/
def field {α : Type} (name : String) (read : Value → α → Except String α) (o : Object) (old : α) :
    Except String α :=
  (o.entries.filter fun e => foldName e.1 = foldName name).foldlM (fun old e => read e.2 old) old

theorem nodup_keys (o : Object) : o.keys.Nodup :=
  (List.perm_insertionSort _ _).nodup_iff.2 (List.nodup_dedup _)

theorem mem_keys {o : Object} {key : String} : key ∈ o.keys ↔ key ∈ o.map Prod.fst := by
  unfold Object.keys
  rw [(List.perm_insertionSort _ _).mem_iff, List.mem_dedup]

theorem get_eq_none {o : Object} {key : String} : o.get key = none ↔ key ∉ o.keys := by
  rw [mem_keys, Object.get, List.lookup_eq_none_iff]
  simp only [List.mem_map, bne_iff_ne, ne_eq, not_exists, not_and]
  exact ⟨fun h x hx heq => h x hx heq.symm, fun h x hx heq => h x hx heq.symm⟩

/-! ## Reading values -/

/-- The error of a value of another type. -/
def unmarshalError : String := "json: cannot unmarshal"

def asText : Value → String → Except String String
  | .text s, _ => .ok s
  | .null, old => .ok old
  | _, _ => .error unmarshalError

def asBool : Value → Bool → Except String Bool
  | .bool b, _ => .ok b
  | .null, old => .ok old
  | _, _ => .error unmarshalError

/-- An integer between `lo` and `hi`. -/
def asInteger (lo hi : ℤ) : Value → ℤ → Except String ℤ
  | .int n, _ => if lo ≤ n ∧ n < hi then .ok n else .error unmarshalError
  | .float text, _ =>
    match floatInt text with
    | some n => if lo ≤ n ∧ n < hi then .ok n else .error unmarshalError
    | none => .error unmarshalError
  | .null, old => .ok old
  | _, _ => .error unmarshalError

/-- An `int` or an `int64`. -/
def asInt : Value → ℤ → Except String ℤ := asInteger (-2 ^ 63) (2 ^ 63)

/-- A `uint64`. -/
def asUint (v : Value) (old : ℕ) : Except String ℕ := (asInteger 0 (2 ^ 64) v old).map Int.toNat

/-- A slice: its elements so far are read into, from the first on. -/
def decodeSlice {α : Type} (read : Value → α → Except String α) (zero : α) :
    List Value → List α → Except String (List α)
  | [], _ => .ok []
  | v :: rest, old => do
    let x ← read v (old.headD zero)
    let xs ← decodeSlice read zero rest old.tail
    pure (x :: xs)

def asSlice {α : Type} (read : Value → α → Except String α) (zero : α) :
    Value → List α → Except String (List α)
  | .null, _ => .ok []
  | .list l, old => decodeSlice read zero l old
  | _, _ => .error unmarshalError

/-- A `map[string]string`: the entries are put into the map that is there. -/
def asHeaders : Value → List (String × String) → Except String (List (String × String))
  | .null, _ => .ok []
  | .object o, old => do
    let read ← (Object.entries o).mapM fun e => (asText e.2 "").map (Prod.mk e.1)
    pure (read ++ old.filter fun e => e.1 ∉ Object.keys o)
  | _, _ => .error unmarshalError

def asStruct {σ : Type} (read : Object → σ → Except String σ) : Value → σ → Except String σ
  | .null, old => .ok old
  | .object o, old => read o old
  | _, _ => .error unmarshalError

def decodeObfs (o : Object) (old : Obfs) : Except String Obfs := do
  let type ← field "type" asText o old.type
  let password ← field "password" asText o old.password
  let minPacketSize ← field "minPacketSize" asInt o old.minPacketSize
  let maxPacketSize ← field "maxPacketSize" asInt o old.maxPacketSize
  pure { type, password, minPacketSize, maxPacketSize }

def decodeQUIC (o : Object) (old : QUIC) : Except String QUIC := do
  let initStreamReceiveWindow ←
    field "initStreamReceiveWindow" asUint o old.initStreamReceiveWindow
  let maxStreamReceiveWindow ← field "maxStreamReceiveWindow" asUint o old.maxStreamReceiveWindow
  let initConnReceiveWindow ← field "initConnReceiveWindow" asUint o old.initConnReceiveWindow
  let maxConnReceiveWindow ← field "maxConnReceiveWindow" asUint o old.maxConnReceiveWindow
  let maxIdleTimeout ← field "maxIdleTimeout" asText o old.maxIdleTimeout
  let maxIncomingStreams ← field "maxIncomingStreams" asInt o old.maxIncomingStreams
  let disablePathMTUDiscovery ←
    field "disablePathMTUDiscovery" asBool o old.disablePathMTUDiscovery
  let disableStatelessReset ← field "disableStatelessReset" asBool o old.disableStatelessReset
  pure { initStreamReceiveWindow, maxStreamReceiveWindow, initConnReceiveWindow,
         maxConnReceiveWindow, maxIdleTimeout, maxIncomingStreams, disablePathMTUDiscovery,
         disableStatelessReset }

def decodeBandwidth (o : Object) (old : Bandwidth) : Except String Bandwidth := do
  let up ← field "up" asText o old.up
  let down ← field "down" asText o old.down
  let disableLossCompensation ←
    field "disableLossCompensation" asBool o old.disableLossCompensation
  pure { up, down, disableLossCompensation }

def decodeCongestion (o : Object) (old : Congestion) : Except String Congestion := do
  let type ← field "type" asText o old.type
  let bbrProfile ← field "bbrProfile" asText o old.bbrProfile
  pure { type, bbrProfile }

def decodeResolver (o : Object) (old : Resolver) : Except String Resolver := do
  let type ← field "type" asText o old.type
  let addr ← field "addr" asText o old.addr
  let timeout ← field "timeout" asText o old.timeout
  let sni ← field "sni" asText o old.sni
  let insecure ← field "insecure" asBool o old.insecure
  pure { type, addr, timeout, sni, insecure }

def decodeSniff (o : Object) (old : Sniff) : Except String Sniff := do
  let enable ← field "enable" asBool o old.enable
  let timeout ← field "timeout" asText o old.timeout
  let rewriteDomain ← field "rewriteDomain" asBool o old.rewriteDomain
  let tcpPorts ← field "tcpPorts" asText o old.tcpPorts
  let udpPorts ← field "udpPorts" asText o old.udpPorts
  pure { enable, timeout, rewriteDomain, tcpPorts, udpPorts }

def decodeMasquerade (o : Object) (old : Masquerade) : Except String Masquerade := do
  let type ← field "type" asText o old.type
  let url ← field "url" asText o old.url
  let rewriteHost ← field "rewriteHost" asBool o old.rewriteHost
  let insecure ← field "insecure" asBool o old.insecure
  let xForwarded ← field "xForwarded" asBool o old.xForwarded
  let dir ← field "dir" asText o old.dir
  let content ← field "content" asText o old.content
  let headers ← field "headers" asHeaders o old.headers
  let statusCode ← field "statusCode" asInt o old.statusCode
  let listenHTTP ← field "listenHTTP" asText o old.listenHTTP
  let listenHTTPS ← field "listenHTTPS" asText o old.listenHTTPS
  let forceHTTPS ← field "forceHTTPS" asBool o old.forceHTTPS
  pure { type, url, rewriteHost, insecure, xForwarded, dir, content, headers, statusCode,
         listenHTTP, listenHTTPS, forceHTTPS }

def decodeOutbound (o : Object) (old : Outbound) : Except String Outbound := do
  let name ← field "name" asText o old.name
  let type ← field "type" asText o old.type
  let mode ← field "mode" asText o old.mode
  let bindIPv4 ← field "bindIPv4" asText o old.bindIPv4
  let bindIPv6 ← field "bindIPv6" asText o old.bindIPv6
  let bindDevice ← field "bindDevice" asText o old.bindDevice
  let fastOpen ← field "fastOpen" asBool o old.fastOpen
  let addr ← field "addr" asText o old.addr
  let username ← field "username" asText o old.username
  let password ← field "password" asText o old.password
  let url ← field "url" asText o old.url
  let insecure ← field "insecure" asBool o old.insecure
  pure { name, type, mode, bindIPv4, bindIPv6, bindDevice, fastOpen, addr, username, password,
         url, insecure }

/-- The zero `Outbound`. -/
def Outbound.zero : Outbound := ⟨"", "", "", "", "", "", false, "", "", "", "", false⟩

def decodeConfig (o : Object) (old : Config) : Except String Config := do
  let listenPort ← field "listen_port" asInt o old.listenPort
  let obfs ← field "obfs" (asStruct decodeObfs) o old.obfs
  let masquerade ← field "masquerade" (asStruct decodeMasquerade) o old.masquerade
  let quic ← field "quic" (asStruct decodeQUIC) o old.quic
  let bandwidth ← field "bandwidth" (asStruct decodeBandwidth) o old.bandwidth
  let ignoreClientBandwidth ← field "ignoreClientBandwidth" asBool o old.ignoreClientBandwidth
  let congestion ← field "congestion" (asStruct decodeCongestion) o old.congestion
  let disableUDP ← field "disableUDP" asBool o old.disableUDP
  let udpIdleTimeout ← field "udpIdleTimeout" asText o old.udpIdleTimeout
  let speedTest ← field "speedTest" asBool o old.speedTest
  let resolver ← field "resolver" (asStruct decodeResolver) o old.resolver
  let sniff ← field "sniff" (asStruct decodeSniff) o old.sniff
  let protectInternal ← field "protect_internal" asBool o old.protectInternal
  let blockedCountries ← field "blocked_countries" (asSlice asText "") o old.blockedCountries
  let aclRules ← field "acl_rules" (asSlice asText "") o old.aclRules
  let outbounds ←
    field "outbounds" (asSlice (asStruct decodeOutbound) Outbound.zero) o old.outbounds
  pure { listenPort, obfs, masquerade, quic, bandwidth, ignoreClientBandwidth, congestion,
         disableUDP, udpIdleTimeout, speedTest, resolver, sniff, protectInternal,
         blockedCountries, aclRules, outbounds }

end LazGate.Hy2config
