import LazGate.Filepath
import LazGate.Lib.Table
import LazGate.Net
import LazGate.Text

/-!
# Hysteria settings

Package `hy2config`: the settings an administrator edits, their validation, and `Runtime`, which
puts them over the configuration that the Hysteria server runs with. A configuration is a tree of
values, as YAML and JSON have it.
-/

namespace LazGate.Hy2config

/-! ## Configuration trees -/

/-- A decoded YAML or JSON value. -/
inductive Value where
  | null
  | bool (b : Bool)
  | int (n : ℤ)
  | float (text : String)
  | text (s : String)
  | list (l : List Value)
  | object (fields : List (String × Value))

/-- A `map[string]any`. -/
abbrev Object := List (String × Value)

variable (o : Object) (key : String)

namespace Object

def get (o : Object) (key : String) : Option Value := o.lookup key

def erase (o : Object) (key : String) : Object := o.filter fun field => field.1 != key

def set (o : Object) (key : String) (v : Value) : Object := (key, v) :: erase o key

/-- `o[key].(map[string]any)`. -/
def getObject (o : Object) (key : String) : Option Object :=
  match get o key with
  | some (.object fields) => some fields
  | _ => none

/-- `o[key].(string)`. -/
def getText (o : Object) (key : String) : Option String :=
  match get o key with
  | some (.text s) => some s
  | _ => none

theorem get_set_self (v : Value) : get (set o key v) key = some v := by
  simp [get, set]

theorem get_erase_self : get (erase o key) key = none := by
  rw [get, List.lookup_eq_none_iff]
  intro field hfield
  have hne := (List.mem_filter.1 hfield).2
  rw [bne_iff_ne] at hne ⊢
  exact hne.symm

theorem get_erase_of_ne {key key' : String} (h : key' ≠ key) :
    get (erase o key) key' = get o key' := by
  induction o with
  | nil => rfl
  | cons field o ih =>
    obtain ⟨k, v⟩ := field
    by_cases hk : k = key
    · subst hk
      have hne : (key' == k) = false := by simpa using h
      simpa [get, erase, List.lookup, hne] using ih
    · by_cases hk' : key' = k
      · subst hk'
        simp [get, erase, List.lookup, h]
      · have hne : (key' == k) = false := by simpa using hk'
        simpa [get, erase, List.lookup, hk, hne] using ih

theorem get_set_of_ne {key key' : String} (v : Value) (h : key' ≠ key) :
    get (set o key v) key' = get o key' := by
  have hne : (key' == key) = false := by simpa using h
  have := get_erase_of_ne o h
  simpa [get, set, List.lookup, hne] using this

theorem getObject_set_self (fields : Object) :
    getObject (set o key (.object fields)) key = some fields := by
  rw [getObject, get_set_self]

end Object

/-! ## The settings -/

structure Obfs where
  type : String
  password : String
  minPacketSize : ℤ
  maxPacketSize : ℤ

structure QUIC where
  initStreamReceiveWindow : ℕ
  maxStreamReceiveWindow : ℕ
  initConnReceiveWindow : ℕ
  maxConnReceiveWindow : ℕ
  maxIdleTimeout : String
  maxIncomingStreams : ℤ
  disablePathMTUDiscovery : Bool
  disableStatelessReset : Bool

structure Bandwidth where
  up : String
  down : String
  disableLossCompensation : Bool

structure Congestion where
  type : String
  bbrProfile : String

structure Resolver where
  type : String
  addr : String
  timeout : String
  sni : String
  insecure : Bool

structure Sniff where
  enable : Bool
  timeout : String
  rewriteDomain : Bool
  tcpPorts : String
  udpPorts : String

structure Masquerade where
  type : String
  url : String
  rewriteHost : Bool
  insecure : Bool
  xForwarded : Bool
  dir : String
  content : String
  headers : List (String × String)
  statusCode : ℤ
  listenHTTP : String
  listenHTTPS : String
  forceHTTPS : Bool

structure Outbound where
  name : String
  type : String
  mode : String
  bindIPv4 : String
  bindIPv6 : String
  bindDevice : String
  fastOpen : Bool
  addr : String
  username : String
  password : String
  url : String
  insecure : Bool

structure Config where
  listenPort : ℤ
  obfs : Obfs
  masquerade : Masquerade
  quic : QUIC
  bandwidth : Bandwidth
  ignoreClientBandwidth : Bool
  congestion : Congestion
  disableUDP : Bool
  udpIdleTimeout : String
  speedTest : Bool
  resolver : Resolver
  sniff : Sniff
  protectInternal : Bool
  blockedCountries : List String
  aclRules : List String
  outbounds : List Outbound

def defaults : Config where
  listenPort := 443
  obfs := ⟨"off", "", 512, 1200⟩
  masquerade := ⟨"off", "", true, false, false, "", "", [], 200, "", "", false⟩
  quic := ⟨8388608, 8388608, 20971520, 20971520, "30s", 1024, false, false⟩
  bandwidth := ⟨"0", "0", false⟩
  ignoreClientBandwidth := false
  congestion := ⟨"bbr", "standard"⟩
  disableUDP := false
  udpIdleTimeout := "60s"
  speedTest := false
  resolver := ⟨"system", "", "10s", "", false⟩
  sniff := ⟨false, "2s", false, "all", "all"⟩
  protectInternal := true
  blockedCountries := []
  aclRules := []
  outbounds := [⟨"direct", "direct", "auto", "", "", "", false, "", "", "", "", false⟩]

/-! ## Validation -/

/-- The library functions that the validation calls. -/
structure Library where
  /-- `time.ParseDuration`, in nanoseconds. -/
  parseDuration : String → Option ℤ
  /-- The scheme and the host name of `url.Parse`. -/
  parseURL : String → Option (String × String)
  /-- `language.ParseRegion` gives a region that `IsCountry`. -/
  isCountry : String → Bool

variable (L : Library)

/-- The units of `bandwidthPattern`. -/
def bandwidthUnits : List String :=
  ["bps", "b", "kbps", "kb", "k", "mbps", "mb", "m", "gbps", "gb", "g", "tbps", "tb", "t"]

/-- `bandwidthPattern.MatchString`. -/
def bandwidthPattern (s : String) : Bool :=
  let number := s.toList.takeWhile Char.isDigit
  let unit := (s.toList.dropWhile Char.isDigit).dropWhile (· ∈ ['\t', '\n', '\x0c', '\r', ' '])
  s == "0" || (number ≠ [] && bandwidthUnits.contains (String.ofList (unit.map foldCase)))

/-- A letter, a digit or a hyphen. -/
def isLabelChar (c : Char) : Bool :=
  ('a' ≤ c && c ≤ 'z') || ('A' ≤ c && c ≤ 'Z') || ('0' ≤ c && c ≤ '9') || c == '-'

def domain (value : String) : Bool :=
  value == "localhost" ||
    (!(253 < value.utf8ByteSize || (Net.parseIP value).isSome) &&
      (value.toList.splitOn '.').all (fun label =>
        !(label.isEmpty || 63 < (String.ofList label).utf8ByteSize || label.head? == some '-' ||
          label.getLast? == some '-') && label.all isLabelChar) &&
      value.toList.contains '.')

def hostPort (v : String) : Except String Unit :=
  match (Net.splitHostPort v).bind fun (_, p) => atoi p with
  | some n => if n < 1 ∨ 65535 < n then .error "Ожидается адрес:порт, порт 1–65535" else .ok ()
  | none => .error "Ожидается адрес:порт, порт 1–65535"

def httpURL (v : String) : Bool :=
  match L.parseURL v with
  | some (scheme, host) => (scheme == "http" || scheme == "https") && host != ""
  | none => false

/-- The ports of one range, each at least the one before it. -/
def portsAscend : ℤ → List (List Char) → Bool
  | _, [] => true
  | last, p :: rest =>
    match atoi (String.ofList p) with
    | some n => !(n < 1 || 65535 < n || n < last) && portsAscend n rest
    | none => false

def ports (v : String) : Except String Unit :=
  if v == "all" then .ok ()
  else if (v.toList.splitOn ',').all (fun s =>
      let a := (trimSpace (String.ofList s)).toList.splitOn '-'
      a.length ≤ 2 && portsAscend 0 a) then .ok ()
  else .error "Некорректные порты sniffing"

/-- A step of a validation. -/
def ensure (ok : Bool) (message : String) : Except String Unit :=
  if ok then .ok () else .error message

theorem ensure_eq_ok {ok : Bool} {message : String} {u : Unit} :
    ensure ok message = .ok u ↔ ok = true := by
  cases ok <;> simp [ensure]

def validateObfs (o : Obfs) : Except String Unit := do
  match o.type with
  | "off" => pure ()
  | "salamander" | "gecko" =>
    ensure (4 ≤ o.password.utf8ByteSize) "Пароль обфускации должен содержать минимум 4 байта"
  | _ => throw "Неизвестный тип обфускации"
  ensure (!(o.type == "gecko" && (o.minPacketSize < 1 || o.maxPacketSize < o.minPacketSize ||
    2048 < o.maxPacketSize))) "Размеры Gecko: 1 ≤ минимальный ≤ максимальный ≤ 2048"

def validateQUIC (q : QUIC) : Except String Unit :=
  ensure (!(q.initStreamReceiveWindow < 16384 || q.initConnReceiveWindow < 16384 ||
    q.maxStreamReceiveWindow < q.initStreamReceiveWindow ||
    q.maxConnReceiveWindow < q.initConnReceiveWindow || 2 ^ 60 < q.maxStreamReceiveWindow ||
    2 ^ 60 < q.maxConnReceiveWindow || q.maxIncomingStreams < 8 || 2 ^ 60 < q.maxIncomingStreams))
    "Некорректные окна QUIC или число потоков (минимум 8)"

/-- The timeouts; the source walks through a map, in no fixed order. -/
def validateTimeouts (c : Config) : Except String Unit := do
  for (name, value) in [("QUIC", c.quic.maxIdleTimeout), ("UDP", c.udpIdleTimeout),
      ("DNS", c.resolver.timeout), ("Sniffing", c.sniff.timeout)] do
    ensure ((L.parseDuration value).any (0 < ·)) ("Некорректный таймаут " ++ name)
  let idle := (L.parseDuration c.quic.maxIdleTimeout).getD 0
  ensure (!(idle < 4 * 10 ^ 9 || 120 * 10 ^ 9 < idle)) "Таймаут QUIC должен быть от 4 до 120 секунд"

def validateResolver (r : Resolver) : Except String Unit :=
  match r.type with
  | "system" => pure ()
  | "udp" | "tcp" | "tls" | "https" => (hostPort r.addr).mapError ("DNS: " ++ ·)
  | _ => throw "Неизвестный тип DNS"

def validateCountries (codes : List String) : Except String Unit := do
  for code in codes do
    ensure (L.isCountry code.toUpper && code.utf8ByteSize == 2) "Некорректный код страны ACL"

def validateMasquerade (m : Masquerade) : Except String Unit := do
  match m.type with
  | "off" => pure ()
  | "proxy" => ensure (httpURL L m.url) "Укажите HTTP/HTTPS URL маскировки"
  | "file" => ensure (Filepath.isAbs m.dir) "Каталог маскировки должен быть абсолютным"
  | "string" => ensure (!(m.statusCode < 200 || 599 < m.statusCode)) "HTTP-код должен быть 200–599"
  | _ => throw "Неизвестный режим маскировки"
  -- the canonical form of a header's name is empty only for the empty name
  for (k, v) in m.headers do
    ensure (!(k == "" || (k ++ v).toList.any (· ∈ ['\r', '\n']))) "Некорректный HTTP-заголовок"
  for v in [m.listenHTTP, m.listenHTTPS] do
    if v != "" then (hostPort v).mapError ("Адрес маскировки: " ++ ·)
  if m.type != "off" then
    ensure (!(m.listenHTTP != "" && m.listenHTTPS == ""))
      "Для HTTP-маскировки также нужен HTTPS адрес:порт"
    ensure (!(m.forceHTTPS && (m.listenHTTP == "" || m.listenHTTPS == "")))
      "Для перенаправления нужны HTTP и HTTPS адреса"

def validateOutbound (o : Outbound) : Except String Unit :=
  match o.type with
  | "direct" => do
    ensure (decide (("|" ++ o.mode ++ "|").toList <:+: "|auto|4|6|46|64|".toList))
      "Некорректный IP-режим"
    ensure (!(o.bindDevice != "" && (o.bindIPv4 != "" || o.bindIPv6 != "")))
      "Выберите IP или интерфейс для привязки"
    for v in [o.bindIPv4, o.bindIPv6] do
      ensure (!(v != "" && !(Net.parseIP v).isSome)) "Некорректный исходящий IP"
  | "socks5" => hostPort o.addr
  | "http" => ensure (httpURL L o.url) "Некорректный URL HTTP-прокси"
  | _ => throw "Неизвестный тип выхода"

/-- The outbounds after those with the names `names`. -/
def validateOutbounds : List String → List Outbound → Except String Unit
  | _, [] => pure ()
  | names, o :: rest => do
    ensure (!(o.name == "" || names.contains o.name))
      "Имена выходов должны быть непустыми и уникальными"
    validateOutbound L o
    validateOutbounds (o.name :: names) rest

def validate (c : Config) : Except String Unit := do
  ensure (!(c.listenPort < 1 || 65535 < c.listenPort)) "Порт должен быть от 1 до 65535"
  validateObfs c.obfs
  validateQUIC c.quic
  validateTimeouts L c
  ensure (bandwidthPattern c.bandwidth.up && bandwidthPattern c.bandwidth.down)
    "Скорость: неотрицательное число с единицей, например 200 mbps или 0"
  ensure (!(c.congestion.type != "bbr" && c.congestion.type != "reno"))
    "Алгоритм должен быть bbr или reno"
  ensure (["standard", "conservative", "aggressive"].contains c.congestion.bbrProfile)
    "Некорректный профиль BBR"
  validateResolver c.resolver
  ports c.sniff.tcpPorts
  ports c.sniff.udpPorts
  validateCountries L c.blockedCountries
  validateMasquerade L c.masquerade
  ensure (!c.outbounds.isEmpty) "Нужен хотя бы один исходящий маршрут"
  validateOutbounds L [] c.outbounds

section Accepted

variable {L} {c : Config} {names : List String} {l : List Outbound}

/-- What the parts of accepted settings satisfy. -/
structure ValidParts (L : Library) (c : Config) : Prop where
  resolver : validateResolver c.resolver = .ok ()
  tcpPorts : ports c.sniff.tcpPorts = .ok ()
  udpPorts : ports c.sniff.udpPorts = .ok ()
  masquerade : validateMasquerade L c.masquerade = .ok ()
  outbounds : validateOutbounds L [] c.outbounds = .ok ()

theorem valid_parts (h : validate L c = .ok ()) : ValidParts L c := by
  simp only [validate, Except.bind_eq_ok] at h
  obtain ⟨_, -, _, -, _, -, _, -, _, -, _, -, _, -, _, hresolver, _, htcp, _, hudp, _, -, _,
    hmasquerade, _, -, houtbounds⟩ := h
  exact ⟨hresolver, htcp, hudp, hmasquerade, houtbounds⟩

theorem validOutbound_of_mem (h : validateOutbounds L names l = .ok ()) :
    ∀ o ∈ l, validateOutbound L o = .ok () := by
  induction l generalizing names with
  | nil => intro o ho; cases ho
  | cons a l ih =>
    obtain ⟨_, -, h⟩ := Except.bind_eq_ok.1 h
    obtain ⟨_, ha, h⟩ := Except.bind_eq_ok.1 h
    intro o ho
    rcases List.mem_cons.1 ho with rfl | ho
    · exact ha
    · exact ih h o ho

theorem names_of_validateOutbounds (h : validateOutbounds L names l = .ok ()) :
    (l.map (·.name)).Nodup ∧ ∀ o ∈ l, o.name ≠ "" ∧ o.name ∉ names := by
  induction l generalizing names with
  | nil => exact ⟨List.nodup_nil, fun _ ho => absurd ho List.not_mem_nil⟩
  | cons o rest ih =>
    obtain ⟨_, hname, h⟩ := Except.bind_eq_ok.1 h
    obtain ⟨_, -, h⟩ := Except.bind_eq_ok.1 h
    obtain ⟨hnodup, hrest⟩ := ih h
    have hnew : o.name ≠ "" ∧ o.name ∉ names := by
      have hname := ensure_eq_ok.1 hname
      simp only [Bool.not_eq_true', Bool.or_eq_false_iff] at hname
      simpa using hname
    refine ⟨List.nodup_cons.2 ⟨fun hmem => ?_, hnodup⟩, fun p hp => ?_⟩
    · obtain ⟨p, hp, heq⟩ := List.mem_map.1 hmem
      exact (hrest p hp).2 (heq ▸ List.mem_cons_self)
    · rcases List.mem_cons.1 hp with rfl | hp
      · exact hnew
      · exact ⟨(hrest p hp).1, fun hmem => (hrest p hp).2 (List.mem_cons_of_mem _ hmem)⟩

end Accepted

/-- The library on the texts of a small configuration: durations in seconds, no address with a
scheme. -/
def smallLibrary : Library where
  parseDuration s :=
    match s.toList.reverse with
    | 's' :: ds => (atoi.digits ds.reverse).map fun n => n * 10 ^ 9
    | _ => none
  parseURL _ := none
  isCountry code := code == "RU"

/-! ## The configuration that runs -/

def QUIC.value (q : QUIC) : Value :=
  .object [("initStreamReceiveWindow", .int q.initStreamReceiveWindow),
    ("maxStreamReceiveWindow", .int q.maxStreamReceiveWindow),
    ("initConnReceiveWindow", .int q.initConnReceiveWindow),
    ("maxConnReceiveWindow", .int q.maxConnReceiveWindow),
    ("maxIdleTimeout", .text q.maxIdleTimeout),
    ("maxIncomingStreams", .int q.maxIncomingStreams),
    ("disablePathMTUDiscovery", .bool q.disablePathMTUDiscovery),
    ("disableStatelessReset", .bool q.disableStatelessReset)]

def Bandwidth.value (b : Bandwidth) : Value :=
  .object [("up", .text (if b.up = "0" then "0 bps" else b.up)),
    ("down", .text (if b.down = "0" then "0 bps" else b.down)),
    ("disableLossCompensation", .bool b.disableLossCompensation)]

def Congestion.value (c : Congestion) : Value :=
  .object [("type", .text c.type), ("bbrProfile", .text c.bbrProfile)]

def Obfs.value (o : Obfs) : Value :=
  .object [("type", .text o.type), (o.type, .object (("password", .text o.password) ::
    if o.type = "gecko" then
      [("minPacketSize", .int o.minPacketSize), ("maxPacketSize", .int o.maxPacketSize)]
    else []))]

def Resolver.value (r : Resolver) : Value :=
  .object [("type", .text r.type), (r.type, .object [("addr", .text r.addr),
    ("timeout", .text r.timeout), ("sni", .text r.sni), ("insecure", .bool r.insecure)])]

def Sniff.value (s : Sniff) : Value :=
  .object [("enable", .bool s.enable), ("timeout", .text s.timeout),
    ("rewriteDomain", .bool s.rewriteDomain), ("tcpPorts", .text s.tcpPorts),
    ("udpPorts", .text s.udpPorts)]

/-- The networks that `protect_internal` rejects. -/
def internalNetworks : List String :=
  ["0.0.0.0/8", "10.0.0.0/8", "100.64.0.0/10", "127.0.0.0/8", "169.254.0.0/16", "172.16.0.0/12",
    "192.168.0.0/16", "::/128", "::1/128", "fc00::/7", "fe80::/10", "::ffff:0:0/96"]

def Config.rules (c : Config) : List String :=
  (if c.protectInternal then internalNetworks.map fun p => "reject(" ++ p ++ ")" else []) ++
    c.blockedCountries.map (fun country => "reject(geoip:" ++ country.toLower ++ ")") ++ c.aclRules

def Outbound.value (o : Outbound) : Value :=
  let opts : Object :=
    match o.type with
    | "direct" => [("mode", .text o.mode), ("fastOpen", .bool o.fastOpen)] ++
      (if o.bindDevice ≠ "" then [("bindDevice", .text o.bindDevice)] else []) ++
      (if o.bindIPv4 ≠ "" then [("bindIPv4", .text o.bindIPv4)] else []) ++
      (if o.bindIPv6 ≠ "" then [("bindIPv6", .text o.bindIPv6)] else [])
    | "socks5" => [("addr", .text o.addr), ("username", .text o.username),
      ("password", .text o.password)]
    | "http" => [("url", .text o.url), ("insecure", .bool o.insecure)]
    | _ => []
  .object [("name", .text o.name), ("type", .text o.type), (o.type, .object opts)]

def Masquerade.value (m : Masquerade) : Value :=
  .object [("type", .text m.type),
    ("proxy", .object [("url", .text m.url), ("rewriteHost", .bool m.rewriteHost),
      ("insecure", .bool m.insecure), ("xForwarded", .bool m.xForwarded)]),
    ("file", .object [("dir", .text m.dir)]),
    ("string", .object [("content", .text m.content),
      ("headers", .object (m.headers.map fun (k, v) => (k, .text v))),
      ("statusCode", .int m.statusCode)]),
    ("listenHTTP", .text m.listenHTTP), ("listenHTTPS", .text m.listenHTTPS),
    ("forceHTTPS", .bool m.forceHTTPS)]

/-- The editable keys over the configuration that is there, without those of the masquerade and
the certificate. -/
def Config.overlay (c : Config) (current : Object) : Object :=
  let current := current.set "listen" (.text (":" ++ toString c.listenPort))
  let current := current.set "quic" c.quic.value
  let current := current.set "bandwidth" c.bandwidth.value
  let current := current.set "congestion" c.congestion.value
  let current := current.set "ignoreClientBandwidth" (.bool c.ignoreClientBandwidth)
  let current := current.set "disableUDP" (.bool c.disableUDP)
  let current := current.set "udpIdleTimeout" (.text c.udpIdleTimeout)
  let current := current.set "speedTest" (.bool c.speedTest)
  let current := current.erase "obfs"
  let current := if c.obfs.type ≠ "off" then current.set "obfs" c.obfs.value else current
  let current := current.erase "resolver"
  let current :=
    if c.resolver.type ≠ "system" then current.set "resolver" c.resolver.value else current
  let current := current.set "sniff" c.sniff.value
  let acl := ((current.getObject "acl").getD []).erase "file"
  let current := current.set "acl" (.object (acl.set "inline" (.list (c.rules.map .text))))
  current.set "outbounds" (.list (c.outbounds.map Outbound.value))

def Config.runtime (c : Config) (current : Object) (domain : String) : Except String Object := do
  validate L c
  let current := (c.overlay current).erase "masquerade"
  let current :=
    if c.masquerade.type ≠ "off" then current.set "masquerade" c.masquerade.value else current
  match current.getObject "acme" with
  | some acme => pure (current.set "acme" (.object (acme.set "domains" (.list [.text domain]))))
  | none => pure current

/-- The masquerade of the settings over the configuration that is there. -/
def Config.withMasquerade (c : Config) (current : Object) : Object :=
  if c.masquerade.type ≠ "off" then
    (current.erase "masquerade").set "masquerade" c.masquerade.value
  else current.erase "masquerade"

/-- The domain in the part about the certificate, where there is one. -/
def withDomain (current : Object) (domain : String) : Object :=
  match current.getObject "acme" with
  | some acme => current.set "acme" (.object (acme.set "domains" (.list [.text domain])))
  | none => current

variable {L : Library} {c : Config} {current result : Object}

theorem runtime_eq_ok {domain : String} :
    c.runtime L current domain = .ok result ↔
      validate L c = .ok () ∧
        result = withDomain (c.withMasquerade (c.overlay current)) domain := by
  have hdomain : ∀ o : Object, (match o.getObject "acme" with
      | some acme => pure (o.set "acme" (.object (acme.set "domains" (.list [.text domain]))))
      | none => pure o : Except String Object) = .ok (withDomain o domain) := by
    intro o
    unfold withDomain
    cases o.getObject "acme" with
    | none | some => rfl
  have hrun : c.runtime L current domain =
      validate L c >>= fun _ => .ok (withDomain (c.withMasquerade (c.overlay current)) domain) := by
    rw [← hdomain]
    rfl
  rw [hrun]
  cases hv : validate L c with
  | error e => exact iff_of_false (fun h => nomatch h) fun h => nomatch h.1
  | ok _ =>
    refine ⟨fun h => ⟨rfl, (Except.ok.inj h).symm⟩, fun h => ?_⟩
    rw [h.2]
    rfl

variable {key : String}

theorem get_withDomain_of_ne (current : Object) (domain : String) (h : key ≠ "acme") :
    (withDomain current domain).get key = current.get key := by
  unfold withDomain
  cases current.getObject "acme" with
  | none => rfl
  | some acme => exact Object.get_set_of_ne current _ h

theorem get_withMasquerade_of_ne (c : Config) (current : Object) (h : key ≠ "masquerade") :
    (c.withMasquerade current).get key = current.get key := by
  unfold Config.withMasquerade
  split
  · rw [Object.get_set_of_ne _ _ h, Object.get_erase_of_ne _ h]
  · exact Object.get_erase_of_ne _ h

/-! ## The keys that the settings manage -/

/-- The keys that `overlay` writes. -/
def overlaidKeys : List String :=
  ["listen", "quic", "bandwidth", "congestion", "ignoreClientBandwidth", "disableUDP",
    "udpIdleTimeout", "speedTest", "obfs", "resolver", "sniff", "acl", "outbounds"]

/-- The keys that `Runtime` writes, in whole or in part. -/
def managedKeys : List String := overlaidKeys ++ ["masquerade", "acme"]

theorem get_overlay_of_not_mem (c : Config) (current : Object) (h : key ∉ overlaidKeys) :
    (c.overlay current).get key = current.get key := by
  simp only [overlaidKeys, List.mem_cons, List.not_mem_nil, or_false, not_or] at h
  obtain ⟨hlisten, hquic, hbandwidth, hcongestion, hignore, hudp, hidle, hspeed, hobfs, hresolver,
    hsniff, hacl, houtbounds⟩ := h
  unfold Config.overlay
  rw [Object.get_set_of_ne _ _ houtbounds, Object.get_set_of_ne _ _ hacl,
    Object.get_set_of_ne _ _ hsniff, apply_ite (Object.get · key),
    Object.get_set_of_ne _ _ hresolver, ite_self, Object.get_erase_of_ne _ hresolver,
    apply_ite (Object.get · key), Object.get_set_of_ne _ _ hobfs, ite_self,
    Object.get_erase_of_ne _ hobfs, Object.get_set_of_ne _ _ hspeed,
    Object.get_set_of_ne _ _ hidle, Object.get_set_of_ne _ _ hudp,
    Object.get_set_of_ne _ _ hignore, Object.get_set_of_ne _ _ hcongestion,
    Object.get_set_of_ne _ _ hbandwidth, Object.get_set_of_ne _ _ hquic,
    Object.get_set_of_ne _ _ hlisten]

theorem get_runtime_of_not_mem {domain : String} (h : c.runtime L current domain = .ok result)
    (hkey : key ∉ managedKeys) : result.get key = current.get key := by
  simp only [managedKeys, List.mem_append, List.mem_cons, List.not_mem_nil, or_false,
    not_or] at hkey
  obtain ⟨hoverlaid, hmasquerade, hacme⟩ := hkey
  rw [(runtime_eq_ok.1 h).2, get_withDomain_of_ne _ _ hacme,
    get_withMasquerade_of_ne _ _ hmasquerade, get_overlay_of_not_mem _ _ hoverlaid]

theorem getObject_congr {o o' : Object} (h : o.get key = o'.get key) :
    o.getObject key = o'.getObject key := by
  unfold Object.getObject
  rw [h]

theorem acme_runtime {domain : String} (h : c.runtime L current domain = .ok result)
    {field : String} (hfield : field ≠ "domains") :
    (result.getObject "acme").bind (·.get field) =
      (current.getObject "acme").bind (·.get field) := by
  have hsame : (c.withMasquerade (c.overlay current)).getObject "acme" =
      current.getObject "acme" :=
    getObject_congr ((get_withMasquerade_of_ne c _ (by decide)).trans
      (get_overlay_of_not_mem c current (by decide)))
  rw [(runtime_eq_ok.1 h).2, withDomain, hsame]
  cases hacme : current.getObject "acme" with
  | none => rw [hsame, hacme]
  | some acme =>
    rw [Object.getObject_set_self]
    exact Object.get_set_of_ne acme _ hfield

/-! ## The masquerade directory -/

/-- The directory of a masquerade, whatever its type is. -/
def masqueradeDir (current : Object) : String :=
  (((current.getObject "masquerade").bind (·.getObject "file")).bind (·.getText "dir")).getD ""

/-- The directory of a masquerade of type `file`. -/
def fileMasquerade (current : Object) : Option String :=
  if (current.getObject "masquerade").bind (·.getText "type") = some "file" then
    some (masqueradeDir current)
  else none

theorem fileMasquerade_congr {o o' : Object} (h : o.get "masquerade" = o'.get "masquerade") :
    fileMasquerade o = fileMasquerade o' := by
  have hobject : o.getObject "masquerade" = o'.getObject "masquerade" := getObject_congr h
  simp only [fileMasquerade, masqueradeDir, hobject]

theorem fileMasquerade_runtime {domain : String} (h : c.runtime L current domain = .ok result) :
    fileMasquerade result =
      if c.masquerade.type = "file" then some c.masquerade.dir else none := by
  -- the domains of the certificate are written last, under another key
  rw [(runtime_eq_ok.1 h).2, fileMasquerade_congr (get_withDomain_of_ne _ _ (by decide)),
    Config.withMasquerade]
  by_cases hoff : c.masquerade.type = "off"
  · rw [if_neg (by simpa using hoff), if_neg (by simp [hoff])]
    simp [fileMasquerade, Object.getObject, Object.get_erase_self]
  · rw [if_pos hoff]
    simp only [fileMasquerade, masqueradeDir, Masquerade.value, Object.getObject_set_self]
    simp [Object.getObject, Object.getText, Object.get, List.lookup]

end LazGate.Hy2config
