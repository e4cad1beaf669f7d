import LazGate.Hysteria.Decode

/-!
# Importing the configuration of a Hysteria server

`FromRuntime` reads the settings off a configuration that runs. The map is decoded as a whole
first; the address, the obfuscation, the resolver, the masquerade, the access rules and the
outbounds are then read off their own parts.
-/

namespace LazGate.Hy2config

/-! ## `FromRuntime` -/

/-- One rate of the bandwidth: a number of bytes becomes a text in bits. -/
def importRate (key : String) (bandwidth : Object) : Except String Object :=
  match bandwidth.get key with
  | none => .ok bandwidth
  | some (.text _) => .ok bandwidth
  | some v =>
    match parseUint (sprint v) with
    | some n =>
      if (2 ^ 64 - 1) / 8 < n then .error "invalid bandwidth"
      else if n = 0 then .ok (bandwidth.set key (.text "0"))
      else .ok (bandwidth.set key (.text (toString (n * 8) ++ " bps")))
    | none => .error "invalid bandwidth"

def importBandwidth (runtime : Object) : Except String Object :=
  match runtime.getObject "bandwidth" with
  | some bandwidth => do
    let bandwidth ← importRate "up" bandwidth
    let bandwidth ← importRate "down" bandwidth
    pure (runtime.set "bandwidth" (.object bandwidth))
  | none => pure runtime

/-- `fmt.Sscanf(listen, ":%d", &port)`: what follows the number does not matter. -/
def scanPort (listen : String) : Option ℤ :=
  match listen.toList with
  | ':' :: rest =>
    if '\n' ∈ rest.takeWhile isSpace then none
    else
      let rest := rest.dropWhile isSpace
      let negative := rest.head? == some '-'
      let rest := if negative || rest.head? == some '+' then rest.tail else rest
      (atoi.digits (rest.takeWhile Char.isDigit)).bind fun n =>
        let n : ℤ := if negative then -n else n
        if -2 ^ 63 ≤ n ∧ n < 2 ^ 63 then some n else none
  | _ => none

def partType (m : Object) : String := (m.getText "type").getD ""

/-- The options of a part of the map, under the key that is its type. -/
def options (m : Object) (type : String) : Value :=
  match m.getObject type with
  | some opts => .object opts
  | none => .null

def importObfs (runtime : Object) (obfs : Obfs) : Except String Obfs :=
  match runtime.getObject "obfs" with
  | some m => asStruct decodeObfs (options m (partType m)) { obfs with type := partType m }
  | none => pure obfs

def importResolver (runtime : Object) (resolver : Resolver) : Except String Resolver :=
  match runtime.getObject "resolver" with
  | some m =>
    asStruct decodeResolver (options m (partType m)) { resolver with type := partType m }
  | none => pure resolver

def importMasquerade (runtime : Object) (masquerade : Masquerade) : Except String Masquerade :=
  match runtime.getObject "masquerade" with
  | some m =>
    asStruct decodeMasquerade (options m (partType m)) { masquerade with type := partType m }
  | none => pure masquerade

/-- The country that a rule of the form `reject(geoip:…)` names. -/
def geoipCountry (rule : String) : Option String :=
  if "reject(geoip:".toList <+: rule.toList ∧ rule.toList.getLast? = some ')' then
    some (String.ofList (rule.toList.drop 13).dropLast)
  else none

/-- The loop over the rules: the countries and the other rules so far. -/
def importRules : List Value → List String × List String →
    Except String (List String × List String)
  | [], read => .ok read
  | .text rule :: rest, (countries, rules) =>
    match geoipCountry rule with
    | some country => importRules rest (countries ++ [country], rules)
    | none => importRules rest (countries, rules ++ [rule])
  | _ :: _, _ => .error "invalid ACL rule"

def importACL (runtime : Object) (countries rules : List String) :
    Except String (List String × List String) :=
  match runtime.getObject "acl" with
  | some m =>
    if (m.get "file").isSome then .error "external ACL files must be imported before editing"
    else
      match m.get "inline" with
      | some (.list l) => importRules l (countries, [])
      | _ => .ok (countries, rules)
  | none => .ok (countries, rules)

def outboundOptions (m : Object) (type : String) : Value :=
  match m.getObject type with
  | some opts =>
    match opts.get "mode" with
    | some mode => .object (opts.set "mode" (.text (sprint mode)))
    | none => .object opts
  | none => .null

def importOutbound : Value → Except String Outbound
  | .object m => do
    let o ← decodeOutbound m { Outbound.zero with mode := "auto" }
    asStruct decodeOutbound (outboundOptions m o.type) o
  | _ => .error "invalid outbound"

def importOutbounds (runtime : Object) (outbounds : List Outbound) :
    Except String (List Outbound) :=
  match runtime.get "outbounds" with
  | some (.list l) => l.mapM importOutbound
  | _ => .ok outbounds

def fromRuntime (L : Library) (runtime : Object) : Except String Config := do
  let runtime ← importBandwidth runtime
  ensure (marshals (.object runtime)) "json: unsupported value"
  let c ← decodeConfig runtime { defaults with protectInternal := false }
  let listenPort := ((runtime.getText "listen").bind scanPort).getD c.listenPort
  let obfs ← importObfs runtime c.obfs
  let resolver ← importResolver runtime c.resolver
  let masquerade ← importMasquerade runtime c.masquerade
  let acl ← importACL runtime c.blockedCountries c.aclRules
  let outbounds ← importOutbounds runtime c.outbounds
  let c := { c with
    listenPort := listenPort, obfs := obfs, resolver := resolver, masquerade := masquerade,
    blockedCountries := acl.1, aclRules := acl.2, outbounds := outbounds }
  validate L c
  pure c

/-! ## What the import reads -/

variable {m m₁ : Object}

/-- The rates become texts; nothing else of the map changes. -/
theorem get_importBandwidth (h : importBandwidth m = .ok m₁) {key : String}
    (hkey : key ≠ "bandwidth") : m₁.get key = m.get key := by
  unfold importBandwidth at h
  cases hget : m.getObject "bandwidth" with
  | none =>
    rw [hget] at h
    rw [← Except.ok.inj h]
  | some b =>
    rw [hget] at h
    obtain ⟨b₁, -, h⟩ := Except.bind_eq_ok.1 h
    obtain ⟨b₂, -, h⟩ := Except.bind_eq_ok.1 h
    rw [← Except.ok.inj h]
    exact Object.get_set_of_ne m _ hkey

theorem scanPort_digits {ds : List Char} {n : ℕ} (hn : atoi.digits ds = some n)
    (hbound : n ≤ 65535) :
    scanPort (String.ofList (':' :: ds)) = some (n : ℤ) := by
  obtain ⟨hne, hdigits⟩ := isDigit_of_digits hn
  have hall : ds.takeWhile Char.isDigit = ds := List.takeWhile_eq_self_iff.2 hdigits
  obtain ⟨d, ds', rfl⟩ := List.exists_cons_of_ne_nil hne
  have hd := hdigits d (List.mem_cons_self ..)
  have hspace := isSpace_of_isDigit hd
  have hminus : d ≠ '-' := by
    rintro rfl
    exact absurd hd (by decide)
  have hplus : d ≠ '+' := by
    rintro rfl
    exact absurd hd (by decide)
  have hsmall : (n : ℤ) < 2 ^ 63 := by omega
  simp only [scanPort, String.toList_ofList, List.takeWhile_cons, List.dropWhile_cons, hspace]
  simp only [List.takeWhile_cons, hd, if_true] at hall
  simp [hminus, hplus, hd, hall, hn]
  omega

/-- The port is the one of the address, or else the one that the whole map was decoded to. -/
theorem fromRuntime_ok {L : Library} {c : Config} (h : fromRuntime L m = .ok c) :
    ∃ m₁ base, importBandwidth m = .ok m₁ ∧
      decodeConfig m₁ { defaults with protectInternal := false } = .ok base ∧
      c.listenPort = ((m₁.getText "listen").bind scanPort).getD base.listenPort := by
  obtain ⟨m₁, hm₁, h⟩ := Except.bind_eq_ok.1 h
  obtain ⟨_, -, h⟩ := Except.bind_eq_ok.1 h
  obtain ⟨base, hbase, h⟩ := Except.bind_eq_ok.1 h
  simp only [Except.bind_eq_ok] at h
  obtain ⟨_, -, _, -, _, -, _, -, _, -, _, -, h⟩ := h
  cases h
  exact ⟨m₁, base, hm₁, hbase, rfl⟩

theorem listenPort_decodeConfig {old x : Config} (h : decodeConfig m old = .ok x) :
    field "listen_port" asInt m old.listenPort = .ok x.listenPort := by
  simp only [decodeConfig, Except.bind_eq_ok] at h
  obtain ⟨_, hlistenPort, _, -, _, -, _, -, _, -, _, -, _, -, _, -, _, -, _, -, _, -, _, -, _, -,
    _, -, _, -, _, -, h⟩ := h
  cases h
  exact hlistenPort

end LazGate.Hy2config
