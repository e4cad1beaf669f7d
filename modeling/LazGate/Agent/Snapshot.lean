import LazGate.Agent.Peers
import LazGate.Lib.Ini

/-!
# The snapshot file of an AmneziaWG agent

`internal/legacy/agent/amneziawg/tools/snapshot.go`: the file is read, checked, edited and written.
The INI library is a parameter; it is assumed to keep sections, keys and repeated values in order
and to read values on one line as they were written.
-/

namespace LazGate.Snapshot

/-! ## Reading and writing -/

def interfaceKeys : List String :=
  ["PrivateKey", "ListenPort", "FwMark", "Jc", "Jmin", "Jmax", "S1", "S2", "S3", "S4", "H1", "H2",
    "H3", "H4", "I1", "I2", "I3", "I4", "I5", "HeaderProtectionKey", "ContentPaddingAddition",
    "RekeyAfterTime", "RekeyTimeout", "RejectAfterTime", "KeepaliveTimeout", "MaxHandshakeAttempts",
    "RandomTrailers", "DisableCookies"]

def peerSectionKeys : List String :=
  ["PublicKey", "PresharedKey", "AllowedIPs", "Endpoint", "PersistentKeepalive",
    "AdvancedSecurity"]

def checkKey (allowed : List String) (key : Ini.Key) : Except String Unit :=
  if key.name ∉ allowed then .error "native AWG snapshot contains a non-native setting"
  else key.values.forM fun value => singleLine [value]

def checkSection (s : Ini.Section) : Except String Unit :=
  if s.name = "DEFAULT" then
    if s.keys ≠ [] then .error "native AWG snapshot has keys outside a section" else .ok ()
  else if s.name = "Interface" then s.keys.forM (checkKey interfaceKeys)
  else if s.name = "Peer" then s.keys.forM (checkKey peerSectionKeys)
  else .error "native AWG snapshot has an unsupported section"

variable (reader : Ini.Reader)

def parseSnapshot (raw : String) : Except String Ini.File :=
  match reader.load raw with
  | none => .error "invalid native AWG snapshot INI"
  | some cfg =>
    if cfg.countP (·.name = "Interface") ≠ 1 then
      .error "native AWG snapshot must contain one Interface section"
    else do
      cfg.forM checkSection
      return cfg

/-- The sections apart from the one for keys outside a section. -/
def named (cfg : Ini.File) : Ini.File := cfg.filter (·.name ≠ "DEFAULT")

def encodeSnapshot (cfg : Ini.File) : String := (Ini.document (named cfg)).text

/-- The text that `updateSnapshot` puts in place of the one in the file. -/
def updateSnapshot (update : Ini.File → Except String Ini.File) (raw : String) :
    Except String String := do
  let cfg ← parseSnapshot reader raw
  let cfg ← update cfg
  return encodeSnapshot cfg

/-! ## The edits -/

/-- `Key("PublicKey")`, which makes the key if there is none. -/
def touchKey (s : Ini.Section) : Ini.Section := s.touch "PublicKey"

def removePeer (publicKey : String) (cfg : Ini.File) : Ini.File :=
  Ini.editBack "Peer" (fun s =>
    if (touchKey s).value "PublicKey" ≠ publicKey then some (touchKey s) else none)
    (cfg.countP (·.name = "Peer")) cfg

/-- The loop of `persistPeer` that looks for the section of a key, below `index`. -/
def findTarget (publicKey : String) : ℕ → Option ℕ → Ini.File →
    Except String (Option ℕ × Ini.File)
  | 0, target, cfg => .ok (target, cfg)
  | index + 1, target, cfg =>
    let cfg := Ini.editAt "Peer" (fun s => some (touchKey s)) index cfg
    if ((cfg.filter (·.name = "Peer"))[index]?.map (·.value "PublicKey")) ≠ some publicKey then
      findTarget publicKey index target cfg
    else if target.isSome then .error "duplicate public key in native AWG snapshot"
    else findTarget publicKey index (some index) cfg

/-- `DeleteKey` and `SetValue`. -/
def replaceKey (name value : String) (s : Ini.Section) : Ini.Section :=
  (s.delete name).set name value

/-- The keys of a section that `persistPeer` sets. -/
def setKeys (opts : PeerOptions) (s : Ini.Section) : Ini.Section :=
  let s := match opts.allowedIPs with
    | some allowedIPs => replaceKey "AllowedIPs" (",".intercalate allowedIPs) s
    | none => s
  let s := if opts.presharedKey ≠ "" then
    replaceKey "PresharedKey" (trimSpace opts.presharedKey) s else s
  let s := if opts.endpoint ≠ "" then replaceKey "Endpoint" opts.endpoint s else s
  if opts.persistentKeepalive > 0 then
    replaceKey "PersistentKeepalive" (toString opts.persistentKeepalive) s else s

def setPeer (publicKey : String) (opts : PeerOptions) (cfg : Ini.File) :
    Except String Ini.File := do
  let (target, cfg) ← findTarget publicKey (cfg.countP (·.name = "Peer")) none cfg
  match target with
  | none => return cfg ++ [setKeys opts ((Ini.Section.empty "Peer").set "PublicKey" publicKey)]
  | some index => return Ini.editAt "Peer" (fun s => some (setKeys opts s)) index cfg

def persistPeer (publicKey : String) (opts : PeerOptions) (remove : Bool) (raw : String) :
    Except String String := do
  singleLine [publicKey, opts.presharedKey, opts.endpoint]
  updateSnapshot reader (fun cfg =>
    if remove then .ok (removePeer publicKey cfg) else setPeer publicKey opts cfg) raw

def prunePeers (keep : String → Bool) (raw : String) : Except String String :=
  updateSnapshot reader (fun cfg => .ok (Ini.editBack "Peer" (fun s =>
    if keep ((touchKey s).value "PublicKey") then some (touchKey s) else none)
    (cfg.countP (·.name = "Peer")) cfg)) raw

/-! ## What is written can be read -/

def allowedKeys (name : String) : List String :=
  if name = "Interface" then interfaceKeys else if name = "Peer" then peerSectionKeys else []

structure Native (s : Ini.Section) : Prop where
  name : s.name = "Interface" ∨ s.name = "Peer"
  keys : ∀ k ∈ s.keys, k.name ∈ allowedKeys s.name
  values : ∀ k ∈ s.keys, ∀ v ∈ k.values, Ini.SingleLine v

variable {p : Ini.Contents → Bool} {q : Ini.Section → Bool} {vs : List String}

section Edits

variable {cfg : Ini.File} {s : Ini.Section} {raw : String}

theorem singleLine_eq_ok :
    singleLine vs = .ok () ↔ ∀ v ∈ vs, Ini.SingleLine v := by
  unfold singleLine Ini.SingleLine
  split
  · rename_i hany
    simp only [reduceCtorEq, false_iff]
    intro hall
    obtain ⟨v, hv, c, hc, hbad⟩ : ∃ v ∈ vs, ∃ c ∈ v.toList,
        (c == '\r' || c == '\n' || c == '\x00') = true := by
      simpa only [List.any_eq_true] using hany
    obtain ⟨h₁, h₂, h₃⟩ := hall v hv c hc
    simp [h₁, h₂, h₃] at hbad
  · rename_i hnone
    simp only [true_iff]
    intro v hv c hc
    have hgood : ¬ (c == '\r' || c == '\n' || c == '\x00') = true := fun hbad => hnone
      (List.any_eq_true.2 ⟨v, hv, List.any_eq_true.2 ⟨c, hc, hbad⟩⟩)
    simpa [not_or, and_assoc] using hgood

theorem forM_eq_ok {α : Type} {check : α → Except String Unit} {l : List α} :
    l.forM check = .ok () ↔ ∀ a ∈ l, check a = .ok () := by
  induction l with
  | nil => exact ⟨fun _ _ h => absurd h List.not_mem_nil, fun _ => rfl⟩
  | cons a l ih =>
    rw [List.forall_mem_cons, ← ih]
    change (check a >>= fun _ => l.forM check) = _ ↔ _
    cases check a with
    | error | ok => simp [bind, Except.bind]

theorem checkKey_eq_ok {allowed : List String} {k : Ini.Key} :
    checkKey allowed k = .ok () ↔ k.name ∈ allowed ∧ ∀ v ∈ k.values, Ini.SingleLine v := by
  rw [checkKey]
  split
  · rename_i hnot
    simp [hnot]
  · rename_i hmem
    rw [forM_eq_ok]
    simp [not_not.1 hmem, singleLine_eq_ok]

theorem checkSection_eq_ok :
    checkSection s = .ok () ↔ (s.name = "DEFAULT" ∧ s.keys = []) ∨ Native s := by
  have hkeys : ∀ allowed, s.keys.forM (checkKey allowed) = .ok () ↔
      (∀ k ∈ s.keys, k.name ∈ allowed) ∧ ∀ k ∈ s.keys, ∀ v ∈ k.values, Ini.SingleLine v := by
    intro allowed
    simp only [forM_eq_ok, checkKey_eq_ok]
    exact ⟨fun h => ⟨fun k hk => (h k hk).1, fun k hk => (h k hk).2⟩,
      fun h k hk => ⟨h.1 k hk, h.2 k hk⟩⟩
  rw [checkSection]
  split
  · rename_i hname
    have hnot : ¬ Native s := fun h => by
      rcases h.name with h | h <;> rw [hname] at h <;> simp at h
    simp [hname, hnot]
  · rename_i hdefault
    split
    · rename_i hname
      rw [hkeys]
      have hallowed : allowedKeys s.name = interfaceKeys := if_pos hname
      refine ⟨fun h => .inr ⟨.inl hname, hallowed ▸ h.1, h.2⟩, ?_⟩
      rintro (h | h)
      · exact absurd h.1 hdefault
      · exact ⟨hallowed ▸ h.keys, h.values⟩
    · rename_i hinterface
      split
      · rename_i hname
        rw [hkeys]
        have hallowed : allowedKeys s.name = peerSectionKeys := by
          rw [allowedKeys, if_neg hinterface, if_pos hname]
        refine ⟨fun h => .inr ⟨.inr hname, hallowed ▸ h.1, h.2⟩, ?_⟩
        rintro (h | h)
        · exact absurd h.1 hdefault
        · exact ⟨hallowed ▸ h.keys, h.values⟩
      · rename_i hpeer
        simp only [reduceCtorEq, false_iff, not_or]
        exact ⟨fun h => hdefault h.1, fun h => h.name.elim hinterface hpeer⟩

/-- What `parseSnapshot` accepts. -/
structure Accepted (cfg : Ini.File) : Prop where
  interface : cfg.countP (·.name = "Interface") = 1
  sections : ∀ s ∈ cfg, (s.name = "DEFAULT" ∧ s.keys = []) ∨ Native s

theorem parseSnapshot_eq_ok :
    parseSnapshot reader raw = .ok cfg ↔ reader.load raw = some cfg ∧ Accepted cfg := by
  rw [parseSnapshot]
  cases reader.load raw with
  | none => simp
  | some file =>
    dsimp only
    split
    · rename_i hcount
      simp only [reduceCtorEq, Option.some.injEq, false_iff, not_and]
      rintro rfl h
      exact hcount h.interface
    · rename_i hcount
      have hiff : (∀ s ∈ file, checkSection s = .ok ()) ↔ Accepted file := by
        simp only [checkSection_eq_ok]
        exact ⟨fun h => ⟨not_not.1 hcount, h⟩, fun h => h.sections⟩
      rw [← forM_eq_ok] at hiff
      cases hcheck : file.forM checkSection with
      | error e =>
        rw [hcheck] at hiff
        simp only [bind, Except.bind, reduceCtorEq, Option.some.injEq, false_iff, not_and] at hiff ⊢
        rintro rfl
        exact hiff
      | ok u =>
        have hfile := hiff.1 hcheck
        simp only [bind, Except.bind, pure, Except.pure, Except.ok.injEq, Option.some.injEq]
        exact ⟨fun h => ⟨h, h ▸ hfile⟩, And.left⟩

theorem mem_named : s ∈ named cfg ↔ s ∈ cfg ∧ s.name ≠ "DEFAULT" := by
  rw [named, List.mem_filter, decide_eq_true_eq]

theorem Accepted.native (h : Accepted cfg) (hs : s ∈ named cfg) : Native s := by
  obtain ⟨hmem, hname⟩ := mem_named.1 hs
  exact (h.sections s hmem).resolve_left fun hd => hname hd.1

theorem plainName_of_mem_allowedKeys {name key : String} (h : key ∈ allowedKeys name) :
    Ini.PlainName key := by
  have hall : ∀ key ∈ interfaceKeys ++ peerSectionKeys, Ini.PlainName key := by
    unfold Ini.PlainName
    decide +kernel
  rw [allowedKeys] at h
  split at h
  · exact hall key (List.mem_append_left _ h)
  · split at h
    · exact hall key (List.mem_append_right _ h)
    · cases h

theorem Native.plain (h : Native s) :
    Ini.PlainName s.name ∧ ∀ line ∈ s.lines, Ini.PlainName line.1 ∧ Ini.SingleLine line.2 := by
  constructor
  · rcases h.name with hname | hname <;> rw [hname] <;> unfold Ini.PlainName <;> decide +kernel
  · intro line hline
    obtain ⟨k, hk, hline⟩ := List.mem_flatMap.1 hline
    obtain ⟨v, hv, rfl⟩ := List.mem_map.1 hline
    refine ⟨plainName_of_mem_allowedKeys (h.keys k hk), ?_⟩
    split at hv
    · rw [List.mem_singleton.1 hv]
      intro c hc
      simp at hc
    · exact h.values k hk v hv

theorem native_written (h : Native s) : Native s.written where
  name := h.name
  keys k hk := by
    obtain ⟨k₀, hk₀, rfl⟩ := List.mem_map.1 hk
    rw [Ini.Key.name_written]
    exact h.keys k₀ hk₀
  values k hk := by
    obtain ⟨k₀, hk₀, rfl⟩ := List.mem_map.1 hk
    rw [Ini.Key.values_written]
    exact h.values k₀ hk₀

def contents (cfg : Ini.File) : List Ini.Contents :=
  (named cfg).map Ini.Section.contents

/-- A snapshot that is written can be read again, with the same sections. -/
theorem Accepted.parse_encode (h : Accepted cfg) :
    ∃ cfg', parseSnapshot reader (encodeSnapshot cfg) = .ok cfg' ∧
      contents cfg' = contents cfg := by
  have hplain : (Ini.document (named cfg)).Plain := by
    intro part hpart
    obtain ⟨s, hs, rfl⟩ := List.mem_map.1 hpart
    exact (h.native hs).plain
  have hload := reader.load_document hplain
  have hnames : ∀ s ∈ (named cfg).map Ini.Section.written, decide (s.name ≠ "DEFAULT") = true := by
    intro s hs
    obtain ⟨s₀, h₀, rfl⟩ := List.mem_map.1 hs
    exact decide_eq_true (mem_named.1 h₀).2
  refine ⟨_, (parseSnapshot_eq_ok reader).2 ⟨hload, ?_, ?_⟩, ?_⟩
  · have hcount : (named cfg).countP (fun s => s.name = "Interface") =
        cfg.countP fun s => s.name = "Interface" := by
      rw [named, List.countP_filter]
      refine List.countP_congr fun s _ => ?_
      by_cases hname : s.name = "Interface" <;> simp [hname]
    rw [List.countP_cons_of_neg (by decide), List.countP_map]
    exact hcount.trans h.interface
  · intro s hs
    rcases List.mem_cons.1 hs with rfl | hs
    · exact .inl ⟨rfl, rfl⟩
    · obtain ⟨s₀, h₀, rfl⟩ := List.mem_map.1 hs
      exact .inr (native_written (h.native h₀))
  · rw [contents, contents]
    have hnamed : named (Ini.defaultSection :: (named cfg).map Ini.Section.written) =
        (named cfg).map Ini.Section.written := by
      rw [named, List.filter_cons_of_neg (by decide), List.filter_eq_self.2 hnames]
    rw [hnamed, List.map_map]
    exact List.map_congr_left fun s _ => s.contents_written

/-! ## An edit changes only its peer -/

def publicKeyOf (c : Ini.Contents) : String := (c.values "PublicKey").headD ""

def isPeer (publicKey : String) (c : Ini.Contents) : Bool :=
  c.1 == "Peer" && publicKeyOf c == publicKey

def Keyed (cfg : Ini.File) : Prop := ∀ s ∈ cfg, s.name = "Peer" → s.value "PublicKey" ≠ ""

theorem publicKeyOf_contents (h : s.value "PublicKey" ≠ "") :
    publicKeyOf s.contents = s.value "PublicKey" := by
  obtain ⟨k, hk, hvalue⟩ := Ini.Section.exists_of_value_ne h
  have hhead : k.values.headD "" = k.value := by
    rw [Ini.Key.values, List.filter_cons_of_pos (by simpa using hvalue ▸ h), List.headD_cons]
  rw [publicKeyOf, Ini.Section.values_contents, hk, Option.map_some, Option.getD_some, hhead,
    hvalue]

section

variable (hkeyed : Keyed cfg)

include hkeyed

theorem isPeer_contents (hs : s ∈ cfg) (publicKey : String) : isPeer publicKey s.contents =
      decide (s.name = "Peer" ∧ s.value "PublicKey" = publicKey) := by
  by_cases hname : s.name = "Peer"
  · rw [isPeer, publicKeyOf_contents (hkeyed s hs hname)]
    have hsec : s.contents.1 = "Peer" := hname
    rw [hsec]
    simp [hname, beq_eq_decide]
  · have hsec : s.contents.1 ≠ "Peer" := hname
    rw [isPeer, beq_false_of_ne hsec]
    simp [hname]

theorem touchKey_eq (hs : s ∈ cfg) (hname : s.name = "Peer") : touchKey s = s := by
  obtain ⟨k, hk, -⟩ := Ini.Section.exists_of_value_ne (hkeyed s hs hname)
  exact Ini.Section.touch_of_isSome (by rw [hk]; rfl)

theorem editBack_eq_filter (keep : String → Bool) :
    Ini.editBack "Peer" (fun s =>
      if keep ((touchKey s).value "PublicKey") then some (touchKey s) else none)
      (cfg.countP (·.name = "Peer")) cfg =
        cfg.filter fun s => s.name ≠ "Peer" || keep (s.value "PublicKey") := by
  rw [Ini.editBack_all]
  induction cfg with
  | nil => rfl
  | cons s cfg ih =>
    rw [List.flatMap_cons, ih fun s hs => hkeyed s (List.mem_cons_of_mem _ hs)]
    by_cases hname : s.name = "Peer"
    · rw [if_pos hname, touchKey_eq hkeyed List.mem_cons_self hname]
      by_cases hkeep : keep (s.value "PublicKey") = true
      · rw [if_pos hkeep, List.filter_cons_of_pos (by simp [hkeep])]
        rfl
      · rw [if_neg hkeep, List.filter_cons_of_neg (by simp [hkeep, hname])]
        rfl
    · rw [if_neg hname, List.filter_cons_of_pos (by simp [hname]), List.singleton_append]

theorem contents_filter (keep : String → Bool) :
    contents (cfg.filter fun s => s.name ≠ "Peer" || keep (s.value "PublicKey")) =
      (contents cfg).filter fun c => c.1 != "Peer" || keep (publicKeyOf c) := by
  rw [contents, contents, List.filter_map, named, named, List.filter_filter, List.filter_filter]
  refine congrArg _ (List.filter_congr fun s hs => ?_)
  have hsec : s.contents.1 = s.name := rfl
  by_cases hname : s.name = "Peer"
  · simp [hsec, hname, publicKeyOf_contents (hkeyed s hs hname)]
  · simp [hsec, hname]

end

theorem Accepted.filter (h : Accepted cfg) {p : Ini.Section → Bool}
    (hp : ∀ s ∈ cfg, s.name = "Interface" → p s = true) : Accepted (cfg.filter p) where
  interface := by
    rw [List.countP_filter, ← h.interface]
    refine List.countP_congr fun s hs => ?_
    by_cases hname : s.name = "Interface"
    · simp [hname, hp s hs hname]
    · simp [hname]
  sections s hs := h.sections s (List.mem_filter.1 hs).1

theorem Accepted.map (h : Accepted cfg) {f : Ini.Section → Ini.Section}
    (hname : ∀ s, (f s).name = s.name) (hnative : ∀ s, Native s → Native (f s))
    (hdefault : ∀ s, s.name = "DEFAULT" → (f s).keys = s.keys) : Accepted (cfg.map f) where
  interface := by
    rw [List.countP_map, ← h.interface]
    refine List.countP_congr fun s _ => ?_
    rw [Function.comp_apply, hname]
  sections s hs := by
    obtain ⟨s₀, h₀, rfl⟩ := List.mem_map.1 hs
    rcases h.sections s₀ h₀ with ⟨hd, hkeys⟩ | hs
    · exact .inl ⟨(hname s₀).trans hd, (hdefault s₀ hd).trans hkeys⟩
    · exact .inr (hnative s₀ hs)

theorem updateSnapshot_eq {update : Ini.File → Except String Ini.File}
    (hcfg : parseSnapshot reader raw = .ok cfg) :
    updateSnapshot reader update raw = (update cfg).map encodeSnapshot := by
  rw [updateSnapshot, hcfg]
  cases hupdate : update cfg with
  | error e => simp [bind, Except.bind, hupdate, Except.map]
  | ok cfg' => simp [bind, Except.bind, hupdate, pure, Except.pure, Except.map]

theorem prunePeers_ok (hcfg : parseSnapshot reader raw = .ok cfg) (hkeyed : Keyed cfg)
    (keep : String → Bool) :
    ∃ raw' cfg', prunePeers reader keep raw = .ok raw' ∧ parseSnapshot reader raw' = .ok cfg' ∧
      contents cfg' = (contents cfg).filter fun c => c.1 != "Peer" || keep (publicKeyOf c) := by
  have haccepted := ((parseSnapshot_eq_ok reader).1 hcfg).2
  have hpruned : Accepted (cfg.filter fun s => s.name ≠ "Peer" || keep (s.value "PublicKey")) :=
    haccepted.filter fun s _ hname => by simp [hname]
  obtain ⟨cfg', hparse, hcontents⟩ := hpruned.parse_encode reader
  refine ⟨_, cfg', ?_, hparse, hcontents.trans (contents_filter hkeyed keep)⟩
  rw [prunePeers, updateSnapshot_eq reader hcfg, editBack_eq_filter hkeyed keep]
  rfl

theorem singleLine_of_isPeer (h : Accepted cfg) {publicKey : String} {c : Ini.Contents}
    (hc : c ∈ contents cfg) (hpeer : isPeer publicKey c = true) :
    Ini.SingleLine publicKey := by
  obtain ⟨s, hs, rfl⟩ := List.mem_map.1 hc
  rw [isPeer, Bool.and_eq_true, beq_iff_eq, beq_iff_eq] at hpeer
  rw [← hpeer.2, publicKeyOf, Ini.Section.values_contents]
  have hempty : Ini.SingleLine "" := fun c hc => by cases hc
  cases hfind : s.find? "PublicKey" with
  | none => exact hempty
  | some k =>
    have hvalues := (h.native hs).values k (List.mem_of_find?_eq_some hfind)
    rw [Option.map_some, Option.getD_some]
    cases hlist : k.values with
    | nil => exact hempty
    | cons v vs => exact hvalues v (by rw [hlist]; exact List.mem_cons_self)

/-- The snapshot after an operation; an error is returned before anything is written. -/
def after (raw : String) (result : Except String String) : String := result.toOption.getD raw

/-- Removing a key takes out its peers. -/
theorem removePeer_ok (hcfg : parseSnapshot reader raw = .ok cfg) (hkeyed : Keyed cfg)
    (publicKey : String) :
    ∃ cfg', parseSnapshot reader (after raw (persistPeer reader publicKey {} true raw)) = .ok cfg' ∧
      contents cfg' = (contents cfg).filter fun c => ! isPeer publicKey c := by
  have haccepted := ((parseSnapshot_eq_ok reader).1 hcfg).2
  cases hline : singleLine [publicKey, "", ""] with
  | error e =>
    -- no section has a key on several lines
    have hpersist : persistPeer reader publicKey {} true raw = .error e := by
      rw [persistPeer, show ({} : PeerOptions).presharedKey = "" from rfl,
        show ({} : PeerOptions).endpoint = "" from rfl, hline]
      rfl
    rw [hpersist]
    refine ⟨cfg, hcfg, (List.filter_eq_self.2 fun c hc => ?_).symm⟩
    rw [Bool.not_eq_true', ← Bool.not_eq_true]
    intro hpeer
    have hkey := singleLine_of_isPeer haccepted hc hpeer
    have hok : singleLine [publicKey, "", ""] = .ok () := by
      rw [singleLine_eq_ok]
      intro v hv c hc
      rcases List.mem_cons.1 hv with rfl | hv
      · exact hkey c hc
      · have hempty : v = "" := by simpa using hv
        rw [hempty] at hc
        cases hc
    rw [hline] at hok
    cases hok
  | ok u =>
    have hpruned : Accepted (cfg.filter fun s =>
        s.name ≠ "Peer" || decide (s.value "PublicKey" ≠ publicKey)) :=
      haccepted.filter fun s _ hname => by simp [hname]
    obtain ⟨cfg', hparse, hcontents⟩ := hpruned.parse_encode reader
    have hfilter := contents_filter hkeyed fun key => decide (key ≠ publicKey)
    refine ⟨cfg', ?_, hcontents.trans (hfilter.trans (List.filter_congr fun c _ => ?_))⟩
    · have hedit := editBack_eq_filter hkeyed fun key => decide (key ≠ publicKey)
      simp only [decide_eq_true_eq] at hedit
      rw [persistPeer, show ({} : PeerOptions).presharedKey = "" from rfl,
        show ({} : PeerOptions).endpoint = "" from rfl, hline]
      change parseSnapshot reader (after raw (updateSnapshot reader _ raw)) = _
      rw [updateSnapshot_eq reader hcfg, if_pos rfl, removePeer, hedit]
      exact hparse
    · rw [isPeer, Bool.not_and, beq_eq_decide (publicKeyOf c), decide_not]
      rfl

/-! ## Setting a peer -/

section Target

variable (publicKey : String)

def peers (cfg : Ini.File) : List Ini.Section := cfg.filter (·.name = "Peer")

/-- The file in which every peer section has a public key, which may be empty. -/
def touchAll (cfg : Ini.File) : Ini.File :=
  cfg.map fun s => if s.name = "Peer" then touchKey s else s

theorem name_touchKey (s : Ini.Section) : (touchKey s).name = s.name := by
  rw [touchKey, Ini.Section.touch]
  split <;> rfl

theorem value_touchKey (s : Ini.Section) :
    (touchKey s).value "PublicKey" = s.value "PublicKey" := by
  rw [Ini.Section.value, touchKey, Ini.Section.find?_touch, if_pos rfl, Ini.Section.value]
  cases s.find? "PublicKey" <;> rfl

theorem touchKey_touchKey (s : Ini.Section) : touchKey (touchKey s) = touchKey s := by
  refine Ini.Section.touch_of_isSome ?_
  rw [touchKey, Ini.Section.find?_touch, if_pos rfl]
  cases s.find? "PublicKey" <;> rfl

/-- The public keys of the peer sections. -/
theorem values_peers (cfg : Ini.File) : (peers cfg).map (·.value "PublicKey") =
    ((cfg.map fun s => (s.name, s.value "PublicKey")).filter (·.1 = "Peer")).map Prod.snd := by
  rw [peers, List.filter_map, List.map_map]
  rfl

theorem getElem?_peers_editAt (index k : ℕ) :
    (peers (Ini.editAt "Peer" (fun s => some (touchKey s)) k cfg))[index]?.map
        (·.value "PublicKey") =
      (peers (touchAll cfg))[index]?.map (·.value "PublicKey") := by
  rw [← List.getElem?_map, ← List.getElem?_map, values_peers, values_peers, touchAll,
    List.map_map, Ini.map_editAt fun s _ => by rw [name_touchKey, value_touchKey]]
  congr 3
  refine List.map_congr_left fun s _ => ?_
  by_cases hname : s.name = "Peer"
  · rw [Function.comp_apply, if_pos hname, name_touchKey, value_touchKey]
  · rw [Function.comp_apply, if_neg hname]

theorem touchAll_editAt (k : ℕ) :
    touchAll (Ini.editAt "Peer" (fun s => some (touchKey s)) k cfg) = touchAll cfg :=
  Ini.map_editAt (fun s hname => by
    rw [if_pos ((name_touchKey s).trans hname), if_pos hname, touchKey_touchKey]) k cfg

theorem editBack_touchKey :
    Ini.editBack "Peer" (fun s => some (touchKey s)) (cfg.countP (·.name = "Peer")) cfg =
      touchAll cfg := by
  rw [Ini.editBack_all, touchAll, List.map_eq_flatMap]
  refine List.flatMap_congr fun s _ => ?_
  split <;> rfl

/-- One step of the search, on the public keys alone. -/
theorem findTarget_succ (index : ℕ) (target : Option ℕ) :
    findTarget publicKey (index + 1) target cfg =
      if ((peers (touchAll cfg))[index]?.map (·.value "PublicKey")) ≠ some publicKey then
        findTarget publicKey index target
          (Ini.editAt "Peer" (fun s => some (touchKey s)) index cfg)
      else if target.isSome then .error "duplicate public key in native AWG snapshot"
      else findTarget publicKey index (some index)
        (Ini.editAt "Peer" (fun s => some (touchKey s)) index cfg) := by
  rw [findTarget, ← getElem?_peers_editAt index index]
  rfl

/-- How many of the first sections have the key. -/
def hits (cfg : Ini.File) (index : ℕ) : ℕ :=
  ((peers cfg).take index).countP fun s => s.value "PublicKey" = publicKey

theorem hits_succ (index : ℕ) : hits publicKey cfg (index + 1) = hits publicKey cfg index +
    if (peers cfg)[index]?.map (·.value "PublicKey") = some publicKey then 1 else 0 := by
  rw [hits, hits, List.take_add_one, List.countP_append]
  cases (peers cfg)[index]? with
  | none => rfl
  | some s => simp [List.countP_singleton]

theorem findTarget_some (index target : ℕ) (cfg : Ini.File) :
    findTarget publicKey index (some target) cfg =
      if hits publicKey (touchAll cfg) index = 0 then
        .ok (some target, Ini.editBack "Peer" (fun s => some (touchKey s)) index cfg)
      else .error "duplicate public key in native AWG snapshot" := by
  induction index generalizing cfg with
  | zero => rfl
  | succ index ih =>
    rw [findTarget_succ publicKey, hits_succ, Ini.editBack]
    by_cases hhit : (peers (touchAll cfg))[index]?.map (·.value "PublicKey") = some publicKey
    · rw [if_neg (not_not.2 hhit), if_pos hhit, if_neg (Nat.succ_ne_zero _)]
      rfl
    · rw [if_pos hhit, if_neg hhit, Nat.add_zero, ih, touchAll_editAt]

theorem findTarget_none (index : ℕ) (cfg : Ini.File) :
    (hits publicKey (touchAll cfg) index = 0 → findTarget publicKey index none cfg =
      .ok (none, Ini.editBack "Peer" (fun s => some (touchKey s)) index cfg)) ∧
    (hits publicKey (touchAll cfg) index = 1 → ∃ target s,
      (peers (touchAll cfg))[target]? = some s ∧ s.value "PublicKey" = publicKey ∧
        findTarget publicKey index none cfg =
          .ok (some target, Ini.editBack "Peer" (fun s => some (touchKey s)) index cfg)) ∧
    (2 ≤ hits publicKey (touchAll cfg) index → findTarget publicKey index none cfg =
      .error "duplicate public key in native AWG snapshot") := by
  induction index generalizing cfg with
  | zero =>
    have hzero : hits publicKey (touchAll cfg) 0 = 0 := rfl
    rw [hzero]
    exact ⟨fun _ => rfl, fun h => absurd h (by decide), fun h => absurd h (by decide)⟩
  | succ index ih =>
    rw [findTarget_succ publicKey, hits_succ, Ini.editBack]
    by_cases hhit : (peers (touchAll cfg))[index]?.map (·.value "PublicKey") = some publicKey
    · rw [if_neg (not_not.2 hhit), if_pos hhit, if_neg (by decide), findTarget_some publicKey,
        touchAll_editAt]
      obtain ⟨s, hs, hkey⟩ := Option.map_eq_some_iff.1 hhit
      refine ⟨fun h => by omega, fun h => ⟨index, s, hs, hkey, if_pos (by omega)⟩, fun h => ?_⟩
      exact if_neg (by omega)
    · rw [if_pos hhit, if_neg hhit, Nat.add_zero]
      simpa only [touchAll_editAt] using
        ih (Ini.editAt "Peer" (fun s => some (touchKey s)) index cfg)

end Target

def newPeer (publicKey : String) : Ini.Section :=
  (Ini.Section.empty "Peer").set "PublicKey" publicKey

def HasKey (publicKey : String) (s : Ini.Section) : Prop :=
  s.name = "Peer" ∧ s.value "PublicKey" = publicKey

instance (publicKey : String) (s : Ini.Section) : Decidable (HasKey publicKey s) :=
  inferInstanceAs (Decidable (_ ∧ _))

theorem countP_touchAll (cfg : Ini.File) :
    (touchAll cfg).countP (·.name = "Peer") = cfg.countP (·.name = "Peer") := by
  rw [touchAll, List.countP_map]
  refine List.countP_congr fun s _ => ?_
  rw [Function.comp_apply]
  split
  · rw [name_touchKey]
  · rfl

theorem touchAll_of_isSome
    (h : ∀ s ∈ cfg, s.name = "Peer" → (s.find? "PublicKey").isSome) : touchAll cfg = cfg := by
  refine (List.map_congr_left fun s hs => ?_).trans (List.map_id _)
  split
  · rename_i hname
    exact Ini.Section.touch_of_isSome (h s hs hname)
  · rfl

theorem touchAll_of_keyed (hkeyed : Keyed cfg) : touchAll cfg = cfg :=
  touchAll_of_isSome fun s hs hname => by
    obtain ⟨k, hk, -⟩ := Ini.Section.exists_of_value_ne (hkeyed s hs hname)
    rw [hk]
    rfl

theorem native_touchKey (hs : Native s) (hname : s.name = "Peer") : Native (touchKey s) := by
  rw [touchKey, Ini.Section.touch]
  split
  swap
  · exact hs
  have hkeys : allowedKeys s.name = peerSectionKeys := by
    rw [hname]
    decide
  refine ⟨hs.name, fun k hk => ?_, fun k hk => ?_⟩
  · rcases List.mem_append.1 hk with hk | hk
    · exact hs.keys k hk
    · rw [List.mem_singleton.1 hk]
      exact hkeys ▸ by decide
  · rcases List.mem_append.1 hk with hk | hk
    · exact hs.values k hk
    · rw [List.mem_singleton.1 hk]
      exact fun v hv => absurd hv (by simp [Ini.Key.values])

theorem Accepted.touchAll (h : Accepted cfg) : Accepted (touchAll cfg) := by
  refine h.map (fun s => ?_) (fun s hs => ?_) fun s hname => ?_
  · split
    · exact name_touchKey s
    · rfl
  · split
    · rename_i hname
      exact native_touchKey hs hname
    · exact hs
  · rw [if_neg fun hpeer => absurd (hname.symm.trans hpeer) (by decide)]

theorem hits_all (publicKey : String) (cfg : Ini.File) :
    hits publicKey cfg (cfg.countP (·.name = "Peer")) = cfg.countP (HasKey publicKey) := by
  have hlength : (peers cfg).length ≤ cfg.countP (·.name = "Peer") :=
    (List.countP_eq_length_filter).ge
  rw [hits, List.take_of_length_le hlength, peers, List.countP_filter]
  refine List.countP_congr fun s _ => ?_
  rw [Bool.and_eq_true, decide_eq_true_eq, decide_eq_true_eq, decide_eq_true_eq, and_comm]
  rfl

/-- `setPeer` makes all public keys, and then adds a section, edits the only one of the key, or
refuses to choose. -/
theorem setPeer_eq (publicKey : String) (opts : PeerOptions) (cfg : Ini.File) :
    ((touchAll cfg).countP (HasKey publicKey) = 0 → setPeer publicKey opts cfg =
      .ok (touchAll cfg ++ [setKeys opts (newPeer publicKey)])) ∧
    ((touchAll cfg).countP (HasKey publicKey) = 1 → setPeer publicKey opts cfg =
      .ok ((touchAll cfg).map fun s => if HasKey publicKey s then setKeys opts s else s)) ∧
    (2 ≤ (touchAll cfg).countP (HasKey publicKey) → setPeer publicKey opts cfg =
      .error "duplicate public key in native AWG snapshot") := by
  obtain ⟨hzero, hone, hmore⟩ :=
    findTarget_none publicKey (cfg.countP (·.name = "Peer")) cfg
  rw [editBack_touchKey, ← countP_touchAll, hits_all] at hzero hone
  rw [← countP_touchAll, hits_all] at hmore
  rw [countP_touchAll] at hzero hone hmore
  generalize touchAll cfg = touched at hzero hone hmore ⊢
  refine ⟨fun h => ?_, fun h => ?_, fun h => ?_⟩
  · rw [setPeer, hzero h]
    rfl
  · obtain ⟨target, s, hs, hkey, hfind⟩ := hone h
    have hcount : touched.countP (fun s =>
        s.name = "Peer" && decide (s.value "PublicKey" = publicKey)) = 1 := by
      rw [← h]
      refine List.countP_congr fun s _ => ?_
      rw [Bool.and_eq_true, decide_eq_true_eq, decide_eq_true_eq, decide_eq_true_eq]
      rfl
    have hedit : Ini.editAt "Peer" (fun s => some (setKeys opts s)) target touched = _ :=
      Ini.editAt_of_unique hs (decide_eq_true hkey) hcount
    have hmap : Ini.editAt "Peer" (fun s => some (setKeys opts s)) target touched =
        touched.map fun s => if HasKey publicKey s then setKeys opts s else s := by
      rw [hedit, List.map_eq_flatMap]
      refine List.flatMap_congr fun s _ => ?_
      by_cases hs : HasKey publicKey s
      · rw [if_pos hs, if_pos ⟨hs.1, decide_eq_true hs.2⟩]
        rfl
      · rw [if_neg hs, if_neg fun h => hs ⟨h.1, of_decide_eq_true h.2⟩]
    rw [setPeer, hfind]
    exact congrArg Except.ok hmap
  · rw [setPeer, hmore h]
    rfl

/-! ### The section that is set -/

theorem find?_replaceKey (name v name' : String) (s : Ini.Section) :
    (replaceKey name v s).find? name' =
      if name' = name then some ⟨name, v, []⟩ else s.find? name' :=
  Ini.Section.find?_delete_set v name'

theorem native_replaceKey {name v : String} (hs : Native s) (hpeer : s.name = "Peer")
    (hname : name ∈ peerSectionKeys) (hv : Ini.SingleLine v) :
    Native (replaceKey name v s) ∧ (replaceKey name v s).name = "Peer" := by
  have hsame : (replaceKey name v s).name = "Peer" := (Ini.Section.name_set v).trans hpeer
  have hallowed : allowedKeys "Peer" = peerSectionKeys := by decide
  refine ⟨⟨.inr hsame, ?_, ?_⟩, hsame⟩ <;> intro k hk <;>
    rw [replaceKey, Ini.Section.keys_delete_set] at hk <;>
    rcases List.mem_append.1 hk with hk | hk
  · rw [hsame, ← hpeer]
    exact hs.keys k (List.mem_filter.1 hk).1
  · rw [hsame, hallowed, List.mem_singleton.1 hk]
    exact hname
  · exact hs.values k (List.mem_filter.1 hk).1
  · intro x hx
    rw [List.mem_singleton.1 hk] at hx
    have hmem := (List.mem_filter.1 hx).1
    rw [List.mem_singleton.1 hmem]
    exact hv

def setIf (name : String) (v : Option String) (s : Ini.Section) : Ini.Section :=
  v.elim s fun v => replaceKey name v s

/-- The values of the four keys. -/
def newAllowedIPs (opts : PeerOptions) : Option String := opts.allowedIPs.map (",".intercalate ·)

def newPresharedKey (opts : PeerOptions) : Option String :=
  if opts.presharedKey ≠ "" then some (trimSpace opts.presharedKey) else none

def newEndpoint (opts : PeerOptions) : Option String :=
  if opts.endpoint ≠ "" then some opts.endpoint else none

def newKeepalive (opts : PeerOptions) : Option String :=
  if opts.persistentKeepalive > 0 then some (toString opts.persistentKeepalive) else none

theorem setKeys_eq (opts : PeerOptions) (s : Ini.Section) :
    setKeys opts s = setIf "PersistentKeepalive" (newKeepalive opts) (setIf "Endpoint"
      (newEndpoint opts) (setIf "PresharedKey" (newPresharedKey opts)
        (setIf "AllowedIPs" (newAllowedIPs opts) s))) := by
  simp only [setKeys, newAllowedIPs, newPresharedKey, newEndpoint, newKeepalive]
  cases opts.allowedIPs <;> split_ifs <;> rfl

theorem find?_setIf (name : String) (v : Option String) (name' : String) (s : Ini.Section) :
    (setIf name v s).find? name' =
      if name' = name then (v.map fun v => ⟨name, v, []⟩).or (s.find? name) else s.find? name' := by
  cases v with
  | none =>
    by_cases h : name' = name
    · rw [if_pos h, h]
      rfl
    · rw [if_neg h]
      rfl
  | some v => exact find?_replaceKey name v name' s

theorem native_setIf {name : String} {v : Option String} (hs : Native s ∧ s.name = "Peer")
    (hname : name ∈ peerSectionKeys) (hv : ∀ x ∈ v, Ini.SingleLine x) :
    Native (setIf name v s) ∧ (setIf name v s).name = "Peer" := by
  cases v with
  | none => exact hs
  | some v => exact native_replaceKey hs.1 hs.2 hname (hv v rfl)

theorem singleLine_toString (n : ℕ) : Ini.SingleLine (toString n) := by
  intro c hc
  have hdigit : c.isDigit = true := by
    have hchars : (toString n).toList = Nat.toDigits 10 n := by
      simp [Nat.toString_eq_repr, Nat.repr]
    rw [hchars] at hc
    exact Nat.isDigit_of_mem_toDigits (by decide) (by decide) hc
  refine ⟨?_, ?_, ?_⟩ <;> rintro rfl <;> cases hdigit

theorem singleLine_intercalate (h : ∀ v ∈ vs, Ini.SingleLine v) :
    Ini.SingleLine (",".intercalate vs) := by
  intro c hc
  rw [String.toList_intercalate] at hc
  rcases mem_of_mem_intercalate hc with hc | ⟨part, hpart, hc⟩
  · have hcomma : c = ',' := by simpa using hc
    subst hcomma
    decide
  · obtain ⟨v, hv, rfl⟩ := List.mem_map.1 hpart
    exact h v hv c hc

theorem native_setKeys {opts : PeerOptions} {publicKey : String} (hs : Native s ∧ s.name = "Peer")
    (hline : singleLine [publicKey, opts.presharedKey, opts.endpoint] = .ok ())
    (hallowed : ∀ ips ∈ opts.allowedIPs, ∀ ip ∈ ips, Ini.SingleLine ip) :
    Native (setKeys opts s) ∧ (setKeys opts s).name = "Peer" := by
  rw [singleLine_eq_ok] at hline
  rw [setKeys_eq]
  refine native_setIf (native_setIf (native_setIf (native_setIf hs (by decide) ?_) (by decide) ?_)
    (by decide) ?_) (by decide) ?_
  · intro v hv
    obtain ⟨ips, hips, rfl⟩ := Option.map_eq_some_iff.1 hv
    exact singleLine_intercalate (hallowed ips hips)
  · intro v hv
    rw [newPresharedKey] at hv
    split at hv
    · cases hv
      intro c hc
      exact hline opts.presharedKey (by simp) c (mem_of_mem_trimSpace hc)
    · cases hv
  · intro v hv
    rw [newEndpoint] at hv
    split at hv
    · cases hv
      exact hline opts.endpoint (by simp)
    · cases hv
  · intro v hv
    rw [newKeepalive] at hv
    split at hv
    · cases hv
      exact singleLine_toString _
    · cases hv

theorem find?_publicKey_setKeys (opts : PeerOptions) (s : Ini.Section) :
    (setKeys opts s).find? "PublicKey" = s.find? "PublicKey" := by
  rw [setKeys_eq, find?_setIf, if_neg (by decide), find?_setIf, if_neg (by decide), find?_setIf,
    if_neg (by decide), find?_setIf, if_neg (by decide)]

theorem find?_newPeer (publicKey : String) :
    (newPeer publicKey).find? "PublicKey" = some ⟨"PublicKey", publicKey, []⟩ := rfl

theorem native_newPeer {publicKey : String} (h : Ini.SingleLine publicKey) :
    Native (newPeer publicKey) ∧ (newPeer publicKey).name = "Peer" := by
  refine ⟨⟨.inr rfl, ?_, ?_⟩, rfl⟩ <;> intro k hk <;> obtain rfl := List.mem_singleton.1 hk
  · change "PublicKey" ∈ allowedKeys "Peer"
    decide
  · intro v hv
    rw [List.mem_singleton.1 (List.mem_filter.1 hv).1]
    exact h

/-! ### The file with the section -/

theorem isPeer_setKeys {opts : PeerOptions} (hname : (setKeys opts s).name = s.name)
    (publicKey : String) :
    isPeer publicKey (setKeys opts s).contents = isPeer publicKey s.contents := by
  have hkey : publicKeyOf (setKeys opts s).contents = publicKeyOf s.contents := by
    rw [publicKeyOf, publicKeyOf, Ini.Section.values_contents, Ini.Section.values_contents,
      find?_publicKey_setKeys]
  have hsec : (setKeys opts s).contents.1 = s.contents.1 := hname
  rw [isPeer, isPeer, hkey, hsec]

theorem isPeer_newPeer (publicKey : String) :
    isPeer publicKey (newPeer publicKey).contents = true := by
  have hkey : publicKeyOf (newPeer publicKey).contents = publicKey := by
    rw [publicKeyOf, Ini.Section.values_contents, find?_newPeer, Option.map_some, Option.getD_some,
      Ini.Key.values]
    by_cases h : publicKey = "" <;> simp [h]
  have hsec : (newPeer publicKey).contents.1 = "Peer" := rfl
  rw [isPeer, hkey, hsec, beq_self_eq_true, beq_self_eq_true, Bool.and_self]

theorem contents_append (h : s.name ≠ "DEFAULT") :
    contents (cfg ++ [s]) = contents cfg ++ [s.contents] := by
  have hlast : [s].filter (fun s => s.name ≠ "DEFAULT") = [s] :=
    List.filter_eq_self.2 fun x hx => decide_eq_true (List.mem_singleton.1 hx ▸ h)
  rw [contents, named, List.filter_append, hlast, List.map_append]
  rfl

theorem filter_contents_map {f : Ini.Section → Ini.Section} (hname : ∀ s, (f s).name = s.name)
    (hpq : ∀ s ∈ cfg, p (f s).contents = q s) :
    (contents (cfg.map f)).filter p = ((named cfg).filter q).map fun s => (f s).contents := by
  have hnamed : named (cfg.map f) = (named cfg).map f := by
    rw [named, named, List.filter_map]
    refine congrArg _ (List.filter_congr fun s _ => ?_)
    rw [Function.comp_apply, hname]
  rw [contents, hnamed, List.map_map, List.filter_map]
  refine congrArg _ (List.filter_congr fun s hs => ?_)
  exact hpq s (mem_named.1 hs).1

theorem filter_contents (hpq : ∀ s ∈ cfg, p s.contents = q s) :
    (contents cfg).filter p = ((named cfg).filter q).map Ini.Section.contents := by
  have hmap := filter_contents_map (f := id) (fun _ => rfl) hpq
  rwa [List.map_id] at hmap

theorem name_setKeys (opts : PeerOptions) (s : Ini.Section) : (setKeys opts s).name = s.name := by
  have hset : ∀ (name : String) (v : Option String) (s : Ini.Section),
      (setIf name v s).name = s.name := by
    intro name v s
    cases v with
    | none => rfl
    | some v => exact Ini.Section.name_set v
  rw [setKeys_eq, hset, hset, hset, hset]

theorem countP_named {p : Ini.Section → Bool} (hp : ∀ s, p s = true → s.name = "Peer")
    (cfg : Ini.File) : (named cfg).countP p = cfg.countP p := by
  rw [named, List.countP_filter]
  refine List.countP_congr fun s _ => ?_
  rw [Bool.and_eq_true, decide_eq_true_eq]
  refine ⟨And.left, fun h => ⟨h, ?_⟩⟩
  rw [hp s h]
  decide

def Origin (publicKey : String) (cfg : Ini.File) (s : Ini.Section) : Prop :=
  (s ∈ cfg ∧ HasKey publicKey s) ∨
    (s = newPeer publicKey ∧ cfg.countP (HasKey publicKey) = 0)

/-- The sections of the peer are those whose first public key is its key. -/
def Clear (publicKey : String) (cfg : Ini.File) : Prop :=
  ∀ s ∈ cfg, isPeer publicKey s.contents = decide (HasKey publicKey s)

/-- A file in which the key has one section, made from `s`, and the others are as in `cfg`. -/
structure SetFrom (publicKey : String) (opts : PeerOptions) (cfg cfg' : Ini.File)
    (s : Ini.Section) : Prop where
  origin : Origin publicKey cfg s
  section_eq : (contents cfg').filter (isPeer publicKey) = [(setKeys opts s).contents]
  others : (contents cfg').filter (! isPeer publicKey ·) =
    (contents cfg).filter (! isPeer publicKey ·)

/-- The file with the section of the key, which is edited or new. -/
def withPeer (publicKey : String) (opts : PeerOptions) (cfg : Ini.File) : Ini.File :=
  if cfg.countP (HasKey publicKey) = 0 then cfg ++ [setKeys opts (newPeer publicKey)]
  else cfg.map fun s => if HasKey publicKey s then setKeys opts s else s

section SetPeer

variable {publicKey : String} {opts : PeerOptions}

theorem name_edited (s : Ini.Section) :
    (if HasKey publicKey s then setKeys opts s else s).name = s.name := by
  split
  · exact name_setKeys opts s
  · rfl

theorem isPeer_edited (s : Ini.Section) :
    isPeer publicKey (if HasKey publicKey s then setKeys opts s else s).contents =
      isPeer publicKey s.contents := by
  split
  · exact isPeer_setKeys (name_setKeys opts s) publicKey
  · rfl

theorem isPeer_setNew : isPeer publicKey (setKeys opts (newPeer publicKey)).contents = true := by
  rw [isPeer_setKeys (name_setKeys opts _), isPeer_newPeer]

theorem contents_setNew : contents (cfg ++ [setKeys opts (newPeer publicKey)]) =
    contents cfg ++ [(setKeys opts (newPeer publicKey)).contents] := by
  refine contents_append ?_
  rw [name_setKeys, show (newPeer publicKey).name = "Peer" from rfl]
  decide

theorem accepted_withPeer (haccepted : Accepted cfg)
    (hline : singleLine [publicKey, opts.presharedKey, opts.endpoint] = .ok ())
    (hallowed : ∀ ips ∈ opts.allowedIPs, ∀ ip ∈ ips, Ini.SingleLine ip) :
    Accepted (withPeer publicKey opts cfg) := by
  rw [withPeer]
  split
  · have hnew := native_setKeys (native_newPeer (singleLine_eq_ok.1 hline publicKey (by simp)))
      hline hallowed
    refine ⟨?_, ?_⟩
    · rw [List.countP_append, haccepted.interface, List.countP_singleton, hnew.2]
      decide
    · intro s hs
      rcases List.mem_append.1 hs with hs | hs
      · exact haccepted.sections s hs
      · rw [List.mem_singleton.1 hs]
        exact .inr hnew.1
  · refine haccepted.map name_edited (fun s hs => ?_) fun s hname => ?_
    · split
      · rename_i hkey
        exact (native_setKeys ⟨hs, hkey.1⟩ hline hallowed).1
      · exact hs
    · rw [if_neg fun hkey => absurd (hname.symm.trans hkey.1) (by decide)]

theorem setFrom_newPeer (hclear : Clear publicKey cfg)
    (hnone : cfg.countP (HasKey publicKey) = 0) :
    SetFrom publicKey opts cfg (cfg ++ [setKeys opts (newPeer publicKey)]) (newPeer publicKey) := by
  have hnopeer : (contents cfg).filter (isPeer publicKey) = [] := by
    rw [filter_contents hclear, List.filter_eq_nil_iff.2, List.map_nil]
    intro s hs
    exact List.countP_eq_zero.1 hnone s (mem_named.1 hs).1
  refine ⟨.inr ⟨rfl, hnone⟩, ?_, ?_⟩
  · rw [contents_setNew, List.filter_append, hnopeer, List.nil_append]
    exact List.filter_eq_self.2 fun c hc => by rw [List.mem_singleton.1 hc, isPeer_setNew]
  · have hlast : [(setKeys opts (newPeer publicKey)).contents].filter (! isPeer publicKey ·) = [] :=
      List.filter_eq_nil_iff.2 fun c hc => by
        rw [List.mem_singleton.1 hc, isPeer_setNew]
        decide
    rw [contents_setNew, List.filter_append, hlast, List.append_nil]

theorem setFrom_section (hclear : Clear publicKey cfg)
    (hsingle : cfg.countP (HasKey publicKey) = 1) :
    ∃ s, SetFrom publicKey opts cfg
      (cfg.map fun s => if HasKey publicKey s then setKeys opts s else s) s := by
  have hedited : ∀ s ∈ cfg, isPeer publicKey
      (if HasKey publicKey s then setKeys opts s else s).contents =
        decide (HasKey publicKey s) := fun s hs => (isPeer_edited s).trans (hclear s hs)
  obtain ⟨s, hs⟩ := List.length_eq_one_iff.1
    ((List.countP_eq_length_filter.symm.trans
      (countP_named (fun s hs => (of_decide_eq_true hs).1) cfg)).trans hsingle)
  have hmem := List.mem_filter.1 (hs ▸ List.mem_singleton_self s :
    s ∈ (named cfg).filter fun s => decide (HasKey publicKey s))
  have hkey : HasKey publicKey s := of_decide_eq_true hmem.2
  refine ⟨s, .inl ⟨(mem_named.1 hmem.1).1, hkey⟩, ?_, ?_⟩
  · rw [filter_contents_map name_edited hedited, hs, List.map_singleton, if_pos hkey]
  · rw [filter_contents_map (q := fun s => ! decide (HasKey publicKey s)) name_edited
        fun s hs => by rw [hedited s hs],
      filter_contents (q := fun s => ! decide (HasKey publicKey s)) fun s hs => by
        rw [hclear s hs]]
    refine List.map_congr_left fun s hs => ?_
    have hnot : ¬ HasKey publicKey s := by simpa using (List.mem_filter.1 hs).2
    rw [if_neg hnot]

theorem setFrom_withPeer (opts : PeerOptions) (hclear : Clear publicKey cfg)
    (hcount : cfg.countP (HasKey publicKey) ≤ 1) :
    ∃ s, SetFrom publicKey opts cfg (withPeer publicKey opts cfg) s := by
  rw [withPeer]
  split
  · rename_i hnone
    exact ⟨_, setFrom_newPeer hclear hnone⟩
  · exact setFrom_section hclear (by omega)

theorem HasKey.isPeer (hkey : publicKey ≠ "") (h : HasKey publicKey s) :
    isPeer publicKey s.contents = true := by
  have hname : s.contents.1 = "Peer" := h.1
  rw [Snapshot.isPeer, publicKeyOf_contents (h.2 ▸ hkey), h.2, hname, beq_self_eq_true,
    beq_self_eq_true, Bool.and_self]

theorem length_filter_contents (publicKey : String) (cfg : Ini.File) :
    ((named cfg).filter fun s => isPeer publicKey s.contents).length =
      cfg.countP fun s => isPeer publicKey s.contents := by
  rw [← List.countP_eq_length_filter]
  refine countP_named (fun s hs => ?_) cfg
  rw [isPeer, Bool.and_eq_true, beq_iff_eq] at hs
  exact hs.1

/-- If the key has one section afterwards, every section of the peer was found. -/
theorem clear_of_single (hkey : publicKey ≠ "") (hcount : cfg.countP (HasKey publicKey) ≤ 1)
    (hone : ((contents (withPeer publicKey opts cfg)).filter (isPeer publicKey)).length = 1) :
    Clear publicKey cfg := by
  have hle : (cfg.countP fun s => isPeer publicKey s.contents) ≤
      cfg.countP (HasKey publicKey) := by
    rw [withPeer] at hone
    split at hone
    · rename_i hnone
      rw [contents_setNew, List.filter_append, List.length_append,
        filter_contents (q := fun s => isPeer publicKey s.contents) fun _ _ => rfl,
        List.length_map, length_filter_contents, List.filter_cons_of_pos isPeer_setNew,
        List.length_cons] at hone
      omega
    · rw [filter_contents_map name_edited fun s _ => isPeer_edited s, List.length_map,
        length_filter_contents] at hone
      omega
  have hsub := List.monotone_filter_right cfg fun s hs =>
    (of_decide_eq_true hs : HasKey publicKey s).isPeer hkey
  have hsame := hsub.eq_of_length_le (by
    rwa [List.countP_eq_length_filter, List.countP_eq_length_filter] at hle)
  intro s hs
  rw [Bool.eq_iff_iff, decide_eq_true_eq]
  refine ⟨fun hpeer => ?_, HasKey.isPeer hkey⟩
  have hmem : s ∈ cfg.filter fun s => isPeer publicKey s.contents :=
    List.mem_filter.2 ⟨hs, hpeer⟩
  rw [← hsame] at hmem
  exact of_decide_eq_true (List.mem_filter.1 hmem).2

theorem isPeer_touchKey (publicKey : String) (s : Ini.Section) :
    isPeer publicKey (touchKey s).contents = isPeer publicKey s.contents := by
  have hkey : publicKeyOf (touchKey s).contents = publicKeyOf s.contents := by
    rw [publicKeyOf, publicKeyOf, Ini.Section.values_contents, Ini.Section.values_contents,
      touchKey, Ini.Section.find?_touch, if_pos rfl]
    cases s.find? "PublicKey" <;> rfl
  have hname : (touchKey s).contents.1 = s.contents.1 := name_touchKey s
  rw [isPeer, isPeer, hkey, hname]

theorem clear_touchAll : Clear publicKey (touchAll cfg) ↔ Clear publicKey cfg := by
  rw [Clear, Clear, touchAll, List.forall_mem_map]
  refine forall₂_congr fun s _ => ?_
  split
  · have hkey : HasKey publicKey (touchKey s) ↔ HasKey publicKey s := by
      rw [HasKey, HasKey, name_touchKey, value_touchKey]
    rw [isPeer_touchKey, decide_eq_decide.2 hkey]
  · rfl

/-- The sections of others get no key just if all of them have one. -/
theorem others_touchAll (hkey : publicKey ≠ "") (hclear : Clear publicKey cfg) :
    (contents (touchAll cfg)).filter (! isPeer publicKey ·) =
        (contents cfg).filter (! isPeer publicKey ·) ↔
      ∀ s ∈ cfg, s.name = "Peer" → (s.find? "PublicKey").isSome := by
  rw [touchAll, filter_contents_map (q := fun s => ! isPeer publicKey s.contents)
      (fun s => ?_) fun s _ => ?_,
    filter_contents (q := fun s => ! isPeer publicKey s.contents) fun _ _ => rfl,
    List.map_inj_left]
  · constructor
    · intro h s hs hname
      by_cases hpeer : isPeer publicKey s.contents = true
      · have hvalue : HasKey publicKey s := of_decide_eq_true ((hclear s hs).symm.trans hpeer)
        obtain ⟨k, hk, -⟩ := Ini.Section.exists_of_value_ne (hvalue.2 ▸ hkey)
        rw [hk]
        rfl
      · have hnamed : s ∈ named cfg := mem_named.2 ⟨hs, by rw [hname]; decide⟩
        have hsame := h s (List.mem_filter.2 ⟨hnamed, by simpa using hpeer⟩)
        rw [if_pos hname] at hsame
        exact (Ini.Section.contents_touch s "PublicKey").1 hsame
    · intro h s hs
      split
      · rename_i hname
        exact (Ini.Section.contents_touch s "PublicKey").2
          (h s (mem_named.1 (List.mem_filter.1 hs).1).1 hname)
      · rfl
  · split
    · exact name_touchKey s
    · rfl
  · split
    · rw [isPeer_touchKey]
    · rfl

end SetPeer

/-- What `persistPeer` makes of a file when it sets a peer: it refuses values on several lines and
a key with several sections, and else the key has a section. -/
theorem persistPeer_set (hcfg : parseSnapshot reader raw = .ok cfg) (publicKey : String)
    {opts : PeerOptions} (hallowed : ∀ ips ∈ opts.allowedIPs, ∀ ip ∈ ips, Ini.SingleLine ip) :
    (∃ e, singleLine [publicKey, opts.presharedKey, opts.endpoint] = .error e ∧
      persistPeer reader publicKey opts false raw = .error e) ∨
    (2 ≤ (touchAll cfg).countP (HasKey publicKey) ∧ persistPeer reader publicKey opts false raw =
      .error "duplicate public key in native AWG snapshot") ∨
    (touchAll cfg).countP (HasKey publicKey) ≤ 1 ∧
      ∃ raw' cfg', persistPeer reader publicKey opts false raw = .ok raw' ∧
        parseSnapshot reader raw' = .ok cfg' ∧
        contents cfg' = contents (withPeer publicKey opts (touchAll cfg)) := by
  have haccepted := ((parseSnapshot_eq_ok reader).1 hcfg).2.touchAll
  cases hline : singleLine [publicKey, opts.presharedKey, opts.endpoint] with
  | error e =>
    refine .inl ⟨e, rfl, ?_⟩
    rw [persistPeer, hline]
    rfl
  | ok u =>
    have hpersist : persistPeer reader publicKey opts false raw =
        (setPeer publicKey opts cfg).map encodeSnapshot := by
      rw [persistPeer, hline]
      exact updateSnapshot_eq reader hcfg
    obtain ⟨hzero, hone, hmore⟩ := setPeer_eq publicKey opts cfg
    right
    by_cases hcount : (touchAll cfg).countP (HasKey publicKey) ≤ 1
    · have hset : setPeer publicKey opts cfg = .ok (withPeer publicKey opts (touchAll cfg)) := by
        rw [withPeer]
        split
        · rename_i hnone
          exact hzero hnone
        · exact hone (by omega)
      obtain ⟨cfg', hparse, hcontents⟩ :=
        (accepted_withPeer haccepted hline hallowed).parse_encode reader
      refine .inr ⟨hcount, _, cfg', ?_, hparse, hcontents⟩
      rw [hpersist, hset]
      rfl
    · refine .inl ⟨by omega, ?_⟩
      rw [hpersist, hmore (by omega)]
      rfl

/-! ## The list of peers

The runs of an agent are about the peers of the file. An edit of the file is that edit of its
peers. -/

/-- The first value of each key. -/
def peerOf (s : Ini.Section) : SnapshotPeer where
  publicKey := s.value "PublicKey"
  allowedIPs := (s.find? "AllowedIPs").map (·.value)
  presharedKey := (s.find? "PresharedKey").map (·.value)
  endpoint := (s.find? "Endpoint").map (·.value)
  persistentKeepalive := (s.find? "PersistentKeepalive").map (·.value)

def peersOf (cfg : Ini.File) : List SnapshotPeer := (peers cfg).map peerOf

theorem peersOf_append (cfg cfg' : Ini.File) :
    peersOf (cfg ++ cfg') = peersOf cfg ++ peersOf cfg' := by
  rw [peersOf, peers, List.filter_append, List.map_append]
  rfl

theorem peersOf_singleton (h : s.name = "Peer") : peersOf [s] = [peerOf s] := by
  rw [peersOf, peers, List.filter_cons_of_pos (by simpa using h)]
  rfl

theorem peersOf_singleton_of_ne (h : s.name ≠ "Peer") : peersOf [s] = [] := by
  rw [peersOf, peers, List.filter_cons_of_neg (by simpa using h)]
  rfl

theorem peerOf_touchKey (s : Ini.Section) : peerOf (touchKey s) = peerOf s := by
  have hfind {name : String} (hname : name ≠ "PublicKey") :
      (touchKey s).find? name = s.find? name := by
    rw [touchKey, Ini.Section.find?_touch, if_neg hname, Option.or_none]
  rw [peerOf, value_touchKey, hfind (by decide), hfind (by decide), hfind (by decide),
    hfind (by decide), peerOf]

theorem peerOf_setKeys (opts : PeerOptions) (s : Ini.Section) :
    peerOf (setKeys opts s) = (peerOf s).update opts := by
  have hkey : (setKeys opts s).value "PublicKey" = s.value "PublicKey" := by
    rw [Ini.Section.value, find?_publicKey_setKeys, Ini.Section.value]
  rw [peerOf, hkey, setKeys_eq, SnapshotPeer.update, peerOf]
  simp only [find?_setIf, newAllowedIPs, newPresharedKey, newEndpoint, newKeepalive,
    SnapshotPeer.mk.injEq, true_and, String.reduceEq, if_true, if_false]
  refine ⟨?_, ?_, ?_, ?_⟩
  · cases opts.allowedIPs <;> rfl
  all_goals split <;> rfl

theorem peersOf_touchAll (cfg : Ini.File) : peersOf (touchAll cfg) = peersOf cfg := by
  rw [peersOf, peers, touchAll, List.filter_map, List.map_map, peersOf, peers]
  have hname (s : Ini.Section) : (if s.name = "Peer" then touchKey s else s).name = s.name := by
    split
    · exact name_touchKey s
    · rfl
  rw [List.filter_congr fun s _ => by rw [Function.comp_apply, hname]]
  refine List.map_congr_left fun s _ => ?_
  rw [Function.comp_apply]
  split
  · exact peerOf_touchKey s
  · rfl

/-- The sections whose keys are kept. -/
theorem peersOf_editBack (keep : String → Bool) (cfg : Ini.File) :
    peersOf (Ini.editBack "Peer" (fun s =>
      if keep ((touchKey s).value "PublicKey") then some (touchKey s) else none)
      (cfg.countP (·.name = "Peer")) cfg) = (peersOf cfg).filter fun p => keep p.publicKey := by
  rw [Ini.editBack_all]
  induction cfg with
  | nil => rfl
  | cons s cfg ih =>
    rw [List.flatMap_cons, peersOf_append, ih, ← List.singleton_append (l := cfg),
      peersOf_append, List.filter_append]
    congr 1
    by_cases hname : s.name = "Peer"
    · rw [if_pos hname, value_touchKey, peersOf_singleton hname, List.filter_cons]
      by_cases hkeep : keep (s.value "PublicKey") = true
      · rw [if_pos hkeep, if_pos (by exact hkeep), Option.toList_some,
          peersOf_singleton ((name_touchKey s).trans hname), peerOf_touchKey]
        rfl
      · rw [if_neg hkeep, if_neg (by exact hkeep)]
        rfl
    · rw [if_neg hname, peersOf_singleton_of_ne hname]
      rfl

theorem countP_peersOf (publicKey : String) (cfg : Ini.File) :
    ((peersOf cfg).countP fun p => p.publicKey = publicKey) = cfg.countP (HasKey publicKey) := by
  rw [peersOf, List.countP_map, peers, List.countP_filter]
  refine List.countP_congr fun s _ => ?_
  rw [Bool.and_eq_true, Function.comp_apply, decide_eq_true_eq, decide_eq_true_eq,
    decide_eq_true_eq, and_comm]
  rfl

theorem peersOf_setPeer (publicKey : String) (opts : PeerOptions) (cfg : Ini.File) :
    (setPeer publicKey opts cfg).map peersOf =
      match (peersOf cfg).countP fun p => p.publicKey = publicKey with
      | 0 => .ok (peersOf cfg ++ [SnapshotPeer.update ⟨publicKey, none, none, none, none⟩ opts])
      | 1 => .ok ((peersOf cfg).map fun p => if p.publicKey = publicKey then p.update opts else p)
      | _ => .error "duplicate public key in native AWG snapshot" := by
  obtain ⟨hzero, hone, hmore⟩ := setPeer_eq publicKey opts cfg
  rw [← peersOf_touchAll cfg, countP_peersOf]
  generalize touchAll cfg = touched at hzero hone hmore
  match hcount : touched.countP (HasKey publicKey) with
  | 0 =>
    have hpeer : (setKeys opts (newPeer publicKey)).name = "Peer" := name_setKeys _ _
    rw [hcount, hzero hcount, Except.map, peersOf_append, peersOf_singleton hpeer, peerOf_setKeys]
    rfl
  | 1 =>
    rw [hcount, hone hcount, Except.map, peersOf, peers, List.filter_map, peersOf, List.map_map,
      List.map_map, peers]
    refine congrArg Except.ok ?_
    rw [List.filter_congr fun s _ => by rw [Function.comp_apply, name_edited]]
    refine List.map_congr_left fun s hs => ?_
    have hname : s.name = "Peer" := of_decide_eq_true (List.mem_filter.1 hs).2
    rw [Function.comp_apply, Function.comp_apply]
    by_cases hkey : s.value "PublicKey" = publicKey
    · rw [if_pos ⟨hname, hkey⟩, if_pos (by exact hkey), peerOf_setKeys]
    · rw [if_neg fun h => hkey h.2, if_neg (by exact hkey)]
  | n + 2 =>
    rw [hcount, hmore (by omega)]
    rfl

/-- `persistPeer` edits the peers of the file as the agent's model of them does. -/
theorem persistPeer_refines (hcfg : parseSnapshot reader raw = .ok cfg) (publicKey : String)
    (opts : PeerOptions) (remove : Bool) :
    ∃ result, persistPeer reader publicKey opts remove raw = Except.map encodeSnapshot result ∧
      result.map peersOf = LazGate.persistPeer publicKey opts remove (peersOf cfg) := by
  rw [persistPeer, LazGate.persistPeer]
  cases singleLine [publicKey, opts.presharedKey, opts.endpoint] with
  | error e => exact ⟨.error e, rfl, rfl⟩
  | ok u =>
    refine ⟨_, updateSnapshot_eq reader hcfg, ?_⟩
    cases remove with
    | true =>
      have hkeep := peersOf_editBack (fun key => decide (key ≠ publicKey)) cfg
      simp only [decide_eq_true_eq] at hkeep
      exact congrArg Except.ok hkeep
    | false => exact peersOf_setPeer publicKey opts cfg

theorem prunePeers_refines (hcfg : parseSnapshot reader raw = .ok cfg)
    (keep : Std.ExtTreeSet String) :
    ∃ cfg', prunePeers reader (keep.contains ·) raw = .ok (encodeSnapshot cfg') ∧
      peersOf cfg' = LazGate.prunePeers keep (peersOf cfg) := by
  refine ⟨_, ?_, peersOf_editBack (keep.contains ·) cfg⟩
  rw [prunePeers, updateSnapshot_eq reader hcfg]
  rfl

/-! ## Snapshot edits -/

/-- The edits of a snapshot touch only their peer. -/
theorem snapshot_edits (raw : String) (cfg : Ini.File)
    (hcfg : parseSnapshot reader raw = .ok cfg) (hkeyed : Keyed cfg) :
    (∃ cfg', parseSnapshot reader (encodeSnapshot cfg) = .ok cfg' ∧
      contents cfg' = contents cfg) ∧
    (∀ publicKey, ∃ cfg', parseSnapshot reader
        (after raw (persistPeer reader publicKey {} true raw)) = .ok cfg' ∧
      contents cfg' = (contents cfg).filter fun c => ! isPeer publicKey c) ∧
    (∀ keep : String → Bool, ∃ raw' cfg', prunePeers reader keep raw = .ok raw' ∧
      parseSnapshot reader raw' = .ok cfg' ∧
      contents cfg' = (contents cfg).filter fun c => c.1 != "Peer" || keep (publicKeyOf c)) ∧
    ∀ (publicKey : String) (opts : PeerOptions),
      (∀ ips ∈ opts.allowedIPs, ∀ ip ∈ ips, Ini.SingleLine ip) →
      match persistPeer reader publicKey opts false raw with
      | .error e => singleLine [publicKey, opts.presharedKey, opts.endpoint] = .error e ∨
        (e = "duplicate public key in native AWG snapshot" ∧
          2 ≤ (contents cfg).countP (isPeer publicKey))
      | .ok raw' => ∃ cfg', parseSnapshot reader raw' = .ok cfg' ∧
        (contents cfg').countP (isPeer publicKey) = 1 ∧
        (contents cfg').filter (fun c => ! isPeer publicKey c) =
          (contents cfg).filter fun c => ! isPeer publicKey c := by
  have haccepted := ((parseSnapshot_eq_ok reader).1 hcfg).2
  refine ⟨haccepted.parse_encode reader, removePeer_ok reader hcfg hkeyed,
    prunePeers_ok reader hcfg hkeyed, fun publicKey opts hallowed => ?_⟩
  have htouched := touchAll_of_keyed hkeyed
  have hset := persistPeer_set reader hcfg publicKey hallowed
  rw [htouched] at hset
  rcases hset with ⟨e, hline, hpersist⟩ | ⟨hcount, hpersist⟩ |
    ⟨hcount, raw', cfg', hpersist, hparse, hsame⟩
  · rw [hpersist]
    exact .inl hline
  · rw [hpersist]
    refine .inr ⟨rfl, ?_⟩
    rw [List.countP_eq_length_filter,
      filter_contents fun s hs => isPeer_contents hkeyed hs publicKey, List.length_map,
      ← List.countP_eq_length_filter, countP_named fun s hs => (of_decide_eq_true hs).1]
    exact hcount
  · obtain ⟨s, hfrom⟩ := setFrom_withPeer opts
      (fun s hs => isPeer_contents hkeyed hs publicKey) hcount
    rw [hpersist]
    refine ⟨cfg', hparse, ?_, ?_⟩
    · rw [hsame, List.countP_eq_length_filter, hfrom.section_eq]
      rfl
    · rw [hsame, hfrom.others]

end Edits

namespace Sample

def raw : String := "[Interface]\nListenPort = 51820\n\n[Peer]\nPublicKey = key\n\n"

def cfg : Ini.File :=
  [Ini.defaultSection, (Ini.Section.empty "Interface").set "ListenPort" "51820", newPeer "key"]

/-- The same file with another peer. -/
def rawTwo : String := raw ++ "[Peer]\nPublicKey = other\nAllowedIPs = 10.0.0.3/32\n\n"

def cfgTwo : Ini.File := cfg ++ [replaceKey "AllowedIPs" "10.0.0.3/32" (newPeer "other")]

theorem parse_rawTwo : parseSnapshot Ini.lineReader rawTwo = .ok cfgTwo := by decide +kernel

/-- What all edits keep. -/
def kept : List Ini.Contents :=
  [("Interface", [("ListenPort", ["51820"])]),
    ("Peer", [("PublicKey", ["other"]), ("AllowedIPs", ["10.0.0.3/32"])])]

end Sample

/-- One of two peers is removed, pruned and set. -/
theorem snapshot_edits_two_peers :
    (∃ cfg', parseSnapshot Ini.lineReader (after Sample.rawTwo
        (persistPeer Ini.lineReader "key" {} true Sample.rawTwo)) = .ok cfg' ∧
      contents cfg' = Sample.kept) ∧
    (∃ raw' cfg', prunePeers Ini.lineReader (· == "other") Sample.rawTwo = .ok raw' ∧
      parseSnapshot Ini.lineReader raw' = .ok cfg' ∧ contents cfg' = Sample.kept) ∧
    ∃ raw' cfg', persistPeer Ini.lineReader "key" { allowedIPs := some ["10.0.0.2/32"] } false
        Sample.rawTwo = .ok raw' ∧ parseSnapshot Ini.lineReader raw' = .ok cfg' ∧
      (contents cfg').countP (isPeer "key") = 1 ∧
      (contents cfg').filter (fun c => ! isPeer "key" c) = Sample.kept := by
  have hkeyed : Keyed Sample.cfgTwo := by
    unfold Keyed
    decide +kernel
  obtain ⟨-, hremove, hprune, hset⟩ :=
    snapshot_edits Ini.lineReader Sample.rawTwo Sample.cfgTwo Sample.parse_rawTwo hkeyed
  refine ⟨?_, ?_, ?_⟩
  · obtain ⟨cfg', hparse, hcontents⟩ := hremove "key"
    exact ⟨cfg', hparse, hcontents.trans (by decide +kernel)⟩
  · obtain ⟨raw', cfg', hpruned, hparse, hcontents⟩ := hprune (· == "other")
    exact ⟨raw', cfg', hpruned, hparse, hcontents.trans (by decide +kernel)⟩
  · have hline : singleLine ["10.0.0.2/32"] = .ok () := by decide +kernel
    have hlines : ∀ ips ∈ some ["10.0.0.2/32"], ∀ ip ∈ ips, Ini.SingleLine ip := by
      rintro _ ⟨⟩
      exact singleLine_eq_ok.1 hline
    have hok : (persistPeer Ini.lineReader "key" { allowedIPs := some ["10.0.0.2/32"] } false
        Sample.rawTwo).toOption.isSome = true := by decide +kernel
    have hset := hset "key" { allowedIPs := some ["10.0.0.2/32"] } hlines
    cases hpersist : persistPeer Ini.lineReader "key" { allowedIPs := some ["10.0.0.2/32"] } false
        Sample.rawTwo with
    | error e =>
      rw [hpersist] at hok
      cases hok
    | ok raw' =>
      rw [hpersist] at hset
      obtain ⟨cfg', hparse, hcount, hothers⟩ := hset
      exact ⟨raw', cfg', rfl, hparse, hcount, hothers.trans (by decide +kernel)⟩

end LazGate.Snapshot
