import LazGate.Agent.Runtimes
import LazGate.Agent.Snapshot

/-!
# Applying a peer

`UpsertPeer` of `internal/legacy/agent/amneziawg/reconcile/reconciler.go` and `SetPeer` of
`tools/tools.go`: the peer goes into the snapshot file and then, with `awg set`, into the running
interface. What has no value in the credential is not passed on.
-/

namespace LazGate.Upsert

open Snapshot

/-! ## The running interface -/

structure RuntimePeer where
  publicKey : String
  allowedIPs : List String
  presharedKey : Option String
  endpoint : Option String
  /-- Zero if it is off. -/
  persistentKeepalive : ℕ
  deriving DecidableEq

structure Runtime where
  peers : List RuntimePeer
  keyed : Table.Keyed RuntimePeer.publicKey peers

/-- The arguments of `awg set` for a peer. -/
structure PeerArgs where
  allowedIPs : Option (List String)
  endpoint : Option String
  persistentKeepalive : Option ℕ
  presharedKey : Option String
  deriving DecidableEq

/-- A peer after `awg set`: what is not an argument stays. -/
def RuntimePeer.set (args : PeerArgs) (p : RuntimePeer) : RuntimePeer :=
  { p with
    allowedIPs := args.allowedIPs.getD p.allowedIPs
    endpoint := args.endpoint.or p.endpoint
    persistentKeepalive := args.persistentKeepalive.getD p.persistentKeepalive
    presharedKey := args.presharedKey.or p.presharedKey }

/-- A peer before its first setting. -/
def RuntimePeer.new (publicKey : String) : RuntimePeer := ⟨publicKey, [], none, none, 0⟩

/-- The peer that `awg set` starts from. -/
def Runtime.start (publicKey : String) (rt : Runtime) : RuntimePeer :=
  (rt.peers.find? (·.publicKey == publicKey)).getD (.new publicKey)

variable {allowed publicKey : String}

theorem Runtime.start_of_forall {rt : Runtime} (P : RuntimePeer → Prop) (hnew : P (.new publicKey))
    (h : ∀ p ∈ rt.peers, p.publicKey = publicKey → P p) :
    P (rt.start publicKey) := by
  rw [Runtime.start]
  cases hfind : rt.peers.find? (·.publicKey == publicKey) with
  | none => exact hnew
  | some p =>
    have hbeq : (p.publicKey == publicKey) = true :=
      List.find?_some (p := fun p : RuntimePeer => p.publicKey == publicKey) hfind
    exact h p (List.mem_of_find?_eq_some hfind) (eq_of_beq hbeq)

/-- The peer of the key is the one to start from. -/
theorem Runtime.start_eq {rt : Runtime} {p : RuntimePeer} (hp : p ∈ rt.peers) :
    rt.start p.publicKey = p := by
  rw [Runtime.start, rt.keyed.find?_eq hp, Option.getD_some]

/-- What a new peer has holds of the one to start from just if it holds of all with the key. -/
theorem Runtime.start_iff {rt : Runtime} (P : RuntimePeer → Prop) (hnew : P (.new publicKey)) :
    P (rt.start publicKey) ↔ ∀ p ∈ rt.peers, p.publicKey = publicKey → P p := by
  refine ⟨?_, start_of_forall P hnew⟩
  rintro h p hp rfl
  exact start_eq hp ▸ h

theorem Runtime.publicKey_start (publicKey : String) (rt : Runtime) :
    (rt.start publicKey).publicKey = publicKey :=
  start_of_forall (fun p => p.publicKey = publicKey) rfl fun _ _ h => h

/-- A peer from which networks were taken. -/
def RuntimePeer.without (ips : List String) (p : RuntimePeer) : RuntimePeer :=
  { p with allowedIPs := p.allowedIPs.filter (· ∉ ips) }

theorem RuntimePeer.without_of_forall {ips : List String} {p : RuntimePeer}
    (h : ∀ ip ∈ ips, ip ∉ p.allowedIPs) : p.without ips = p := by
  have hall : p.allowedIPs.filter (· ∉ ips) = p.allowedIPs :=
    List.filter_eq_self.2 fun ip hip => decide_eq_true fun hmem => h ip hmem hip
  rw [RuntimePeer.without, hall]

/-- `awg set`: the peer is set, or made and set. A network belongs to one peer, and is taken from
the one that had it. -/
structure Tool where
  set : String → PeerArgs → Runtime → Runtime
  mem_set : ∀ publicKey args (rt : Runtime) (p : RuntimePeer), p.publicKey = publicKey →
    (p ∈ (set publicKey args rt).peers ↔ p = (rt.start publicKey).set args)
  mem_others : ∀ publicKey args (rt : Runtime) (p : RuntimePeer), p.publicKey ≠ publicKey →
    (p ∈ (set publicKey args rt).peers ↔
      ∃ q ∈ rt.peers, p = q.without (args.allowedIPs.getD []))

/-! ## Setting a peer -/

/-- The networks among the arguments. -/
def allowedIPsArg : Option (List String) → Except String (Option (List String))
  | none | some [] => .ok none
  | some allowedIPs => (validateAllowedIPv4CIDRs allowedIPs).map some
    |>.mapError ("invalid allowed ips: " ++ ·)

/-- The arguments that `setPeerPlan` builds. -/
def setPeerPlan (publicKey : String) (opts : PeerOptions) : Except String PeerArgs :=
  if trimSpace publicKey = "" then .error "public key is required"
  else do
    let allowedIPs ← allowedIPsArg opts.allowedIPs
    return {
      allowedIPs := allowedIPs
      endpoint := if trimSpace opts.endpoint ≠ "" then some opts.endpoint else none
      persistentKeepalive :=
        if opts.persistentKeepalive > 0 then some opts.persistentKeepalive else none
      presharedKey :=
        if trimSpace opts.presharedKey ≠ "" then some (trimSpace opts.presharedKey) else none }

/-- The snapshot file and the interface. -/
structure Machine where
  snapshot : String
  runtime : Runtime

variable (reader : Ini.Reader) (tool : Tool)

/-- A command that fails may have been carried out. -/
def carried : Outcome → Bool
  | .refused _ => false
  | _ => true

def returned : Outcome → Except String Unit
  | .ok => .ok ()
  | .refused e | .lost e => .error e

/-- `SetPeer`, where the two commands turn out as `run` and `save` say. -/
def setPeer (run save : Outcome) (publicKey : String) (opts : PeerOptions) (m : Machine) :
    Except String Unit × Machine :=
  match setPeerPlan publicKey opts with
  | .error e => (.error e, m)
  | .ok args =>
    match Snapshot.persistPeer reader publicKey opts false m.snapshot with
    | .error e => (.error e, m)
    | .ok snapshot =>
      ((returned run).bind fun _ => returned save,
        ⟨snapshot, if carried run then tool.set publicKey args m.runtime else m.runtime⟩)

/-- The options that `UpsertPeer` passes on. -/
def peerOptions (credential : AmneziaCredential) (allowed : String) : PeerOptions :=
  { allowedIPs := some [allowed]
    presharedKey := trimSpace credential.presharedKey
    persistentKeepalive := credential.persistentKeepalive }

def upsertPeer (run save : Outcome) (credential : AmneziaCredential) (m : Machine) :
    Except String Unit × Machine :=
  match Reconciler.allowedIP credential with
  | .error e => (.error e, m)
  | .ok allowed =>
    let (result, m') := Upsert.setPeer reader tool run save (trimSpace credential.publicKey)
      (peerOptions credential allowed) m
    (result.mapError fun e => "set peer: " ++ sanitize e, m')

/-! ## The network of a credential -/

theorem trimSpace_append_mask {t : String} (ht : trimSpace t = t) (hne : t ≠ "") :
    trimSpace (t ++ "/32") = t ++ "/32" := by
  have hchars : (t ++ "/32").toList = t.toList ++ ['/', '3', '2'] := by simp
  cases hlist : t.toList with
  | nil => exact absurd (String.toList_eq_nil_iff.1 hlist) hne
  | cons c cs =>
    -- the first character is that of a text without white space around it
    have hc : isSpace c = false := by
      have hdrop : t.toList.dropWhile isSpace = t.toList := by
        have hlen := congrArg (fun s : String => s.toList.length) ht
        rw [trimSpace, String.toList_ofList] at hlen
        have h₁ := (List.rdropWhile_prefix isSpace (l := t.toList.dropWhile isSpace)).length_le
        have h₂ := List.dropWhile_suffix isSpace (l := t.toList)
        exact h₂.eq_of_length (le_antisymm h₂.length_le (hlen ▸ h₁))
      rw [hlist] at hdrop
      by_contra hspace
      rw [List.dropWhile_cons_of_pos (by simpa using hspace)] at hdrop
      have hlen := (List.dropWhile_suffix isSpace (l := cs)).length_le
      rw [hdrop, List.length_cons] at hlen
      omega
    have hfront : (t ++ "/32").toList.dropWhile isSpace = (t ++ "/32").toList := by
      rw [hchars, hlist, List.cons_append, List.dropWhile_cons_of_neg (by simp [hc])]
    have hback : (t ++ "/32").toList.rdropWhile isSpace = (t ++ "/32").toList := by
      have hlast : (t ++ "/32").toList = (t.toList ++ ['/', '3']) ++ ['2'] := by simp
      rw [hlast, List.rdropWhile_concat_neg _ _ _ (by decide)]
    rw [trimSpace, hfront, hback, String.ofList_toList]

/-- The network of a credential is on one line and has no white space around it. -/
theorem allowedIP_ok {credential : AmneziaCredential}
    (h : Reconciler.allowedIP credential = .ok allowed) :
    trimSpace allowed = allowed ∧ Ini.SingleLine allowed ∧ allowed ≠ "" := by
  obtain ⟨-, h⟩ := Except.guard_eq_ok.1 h
  split at h
  · obtain ⟨_, hassigned, h⟩ := Except.bind_eq_ok.1 h
    obtain ⟨_, -, h⟩ := Except.bind_eq_ok.1 h
    cases h
    obtain ⟨a, ha⟩ : ∃ a, Net.parseAddr (trimSpace credential.assignedIPv4) = some a := by
      unfold validateAssignedIPv4 at hassigned
      cases hparse : Net.parseIP (trimSpace credential.assignedIPv4) with
      | none =>
        rw [hparse] at hassigned
        cases hassigned
      | some a => exact ⟨a, hparse⟩
    have hne : trimSpace credential.assignedIPv4 ≠ "" := by
      intro hempty
      rw [hempty] at ha
      cases ha
    refine ⟨trimSpace_append_mask (trimSpace_idem _) hne, fun c hc => ?_, by simp⟩
    have hforeign : ∀ {x : Char}, Net.Foreign x → x ∉ ['/', '3', '2'] → c ≠ x := by
      rintro x hx hmask rfl
      rw [String.toList_append, List.mem_append] at hc
      rcases hc with hc | hc
      · exact hx.not_mem_of_parseAddr ha hc
      · exact hmask hc
    exact ⟨hforeign (by decide) (by decide), hforeign (by decide) (by decide),
      hforeign (by decide) (by decide)⟩
  · cases h
    have hline : singleLine [sentinelAllowedIP] = .ok () := by decide +kernel
    exact ⟨by decide +kernel, singleLine_eq_ok.1 hline _ (List.mem_singleton_self _), by decide⟩

/-! ## What `UpsertPeer` leaves behind -/

variable {reader tool} {run save : Outcome} {credential : AmneziaCredential} {m m' : Machine}

/-- A call that succeeds has gone through all of its steps. -/
theorem upsertPeer_ok (h : upsertPeer reader tool run save credential m = (.ok (), m')) :
    ∃ allowed args snapshot, Reconciler.allowedIP credential = .ok allowed ∧
      setPeerPlan (trimSpace credential.publicKey) (peerOptions credential allowed) = .ok args ∧
      Snapshot.persistPeer reader (trimSpace credential.publicKey) (peerOptions credential allowed)
        false m.snapshot = .ok snapshot ∧
      m' = ⟨snapshot, tool.set (trimSpace credential.publicKey) args m.runtime⟩ := by
  rw [upsertPeer] at h
  cases hallowed : Reconciler.allowedIP credential with
  | error e =>
    rw [hallowed] at h
    cases congrArg Prod.fst h
  | ok allowed =>
    rw [hallowed] at h
    dsimp only [Upsert.setPeer] at h
    cases hargs : setPeerPlan (trimSpace credential.publicKey) (peerOptions credential allowed) with
    | error e =>
      rw [hargs] at h
      cases congrArg Prod.fst h
    | ok args =>
      rw [hargs] at h
      cases hsnapshot : Snapshot.persistPeer reader (trimSpace credential.publicKey)
          (peerOptions credential allowed) false m.snapshot with
      | error e =>
        rw [hsnapshot] at h
        cases congrArg Prod.fst h
      | ok snapshot =>
        rw [hsnapshot] at h
        obtain ⟨hresult, hm'⟩ := Prod.mk.inj h
        have hrun : carried run = true := by
          cases run with
          | ok => rfl
          | refused e => cases hresult
          | lost e => rfl
        dsimp only at hm'
        rw [if_pos hrun] at hm'
        exact ⟨allowed, args, snapshot, rfl, hargs, hsnapshot, hm'.symm⟩

theorem validateAllowedIPv4CIDRs_singleton {value : String} {ips : List String}
    (h : validateAllowedIPv4CIDRs [value] = .ok ips) : ips = [trimSpace value] := by
  unfold validateAllowedIPv4CIDRs at h
  rw [List.mapM_cons, List.mapM_nil] at h
  obtain ⟨part, hpart, h⟩ := Except.bind_eq_ok.1 h
  cases h
  dsimp only at hpart
  split at hpart
  · cases hpart
  · split at hpart
    · cases hpart
    · split at hpart
      · cases hpart
      · rw [Except.ok.inj hpart]

variable {args : PeerArgs}

/-- The arguments for a credential. -/
theorem setPeerPlan_ok (hallowed : trimSpace allowed = allowed)
    (h : setPeerPlan publicKey (peerOptions credential allowed) = .ok args) :
    args.allowedIPs = some [allowed] ∧
      args.persistentKeepalive =
        (if credential.persistentKeepalive > 0 then some credential.persistentKeepalive else none) ∧
      args.presharedKey = if trimSpace credential.presharedKey ≠ "" then
        some (trimSpace credential.presharedKey) else none := by
  obtain ⟨-, h⟩ := Except.guard_eq_ok.1 h
  obtain ⟨allowedIPs, hips, h⟩ := Except.bind_eq_ok.1 h
  cases h
  refine ⟨?_, rfl, ?_⟩
  · replace hips : ((validateAllowedIPv4CIDRs [allowed]).map some).mapError
        ("invalid allowed ips: " ++ ·) = .ok allowedIPs := hips
    cases hvalid : validateAllowedIPv4CIDRs [allowed] with
    | error e =>
      rw [hvalid] at hips
      cases hips
    | ok ips =>
      rw [hvalid] at hips
      rw [← Except.ok.inj hips, validateAllowedIPv4CIDRs_singleton hvalid, hallowed]
  · have hkey : (peerOptions credential allowed).presharedKey =
        trimSpace credential.presharedKey := rfl
    dsimp only
    rw [hkey, trimSpace_idem]

/-! ## The section and the peer -/

theorem values_setIf (name : String) (v : Option String) (name' : String) (s : Ini.Section) :
    (setIf name v s).contents.values name' =
      if name' = name then (v.map fun v => [v].filter (· ≠ "")).getD (s.contents.values name)
      else s.contents.values name' := by
  rw [Ini.Section.values_contents, find?_setIf]
  split
  · cases v with
    | none =>
      rw [Ini.Section.values_contents]
      rfl
    | some v => rfl
  · rw [Ini.Section.values_contents]

variable (credential) in
/-- The values in a section that was set for a credential. -/
theorem values_setKeys (hallowed : allowed ≠ "") (s : Ini.Section) :
    let c := (setKeys (peerOptions credential allowed) s).contents
    c.values "AllowedIPs" = [allowed] ∧
      c.values "PresharedKey" = (if trimSpace credential.presharedKey ≠ "" then
        [trimSpace credential.presharedKey] else s.contents.values "PresharedKey") ∧
      c.values "PersistentKeepalive" = if credential.persistentKeepalive > 0 then
        [toString credential.persistentKeepalive] else s.contents.values "PersistentKeepalive" := by
  dsimp only
  rw [setKeys_eq]
  refine ⟨?_, ?_, ?_⟩
  · rw [values_setIf, if_neg (by decide), values_setIf, if_neg (by decide), values_setIf,
      if_neg (by decide), values_setIf, if_pos rfl]
    have hnew : newAllowedIPs (peerOptions credential allowed) = some allowed := by
      simp [newAllowedIPs, peerOptions]
    rw [hnew, Option.map_some, Option.getD_some]
    exact List.filter_cons_of_pos (by simpa using hallowed)
  · rw [values_setIf, if_neg (by decide), values_setIf, if_neg (by decide), values_setIf,
      if_pos rfl, values_setIf, if_neg (by decide)]
    have hnew : newPresharedKey (peerOptions credential allowed) =
        if trimSpace credential.presharedKey ≠ "" then some (trimSpace credential.presharedKey)
        else none := by
      have hkey : (peerOptions credential allowed).presharedKey =
          trimSpace credential.presharedKey := rfl
      rw [newPresharedKey, hkey, trimSpace_idem]
    rw [hnew]
    split
    · rename_i hkey
      rw [Option.map_some, Option.getD_some]
      exact List.filter_cons_of_pos (by simpa using hkey)
    · rfl
  · rw [values_setIf, if_pos rfl, values_setIf, if_neg (by decide), values_setIf,
      if_neg (by decide), values_setIf, if_neg (by decide)]
    have hnew : newKeepalive (peerOptions credential allowed) =
        if credential.persistentKeepalive > 0 then some (toString credential.persistentKeepalive)
        else none := rfl
    rw [hnew]
    split
    · rw [Option.map_some, Option.getD_some]
      exact List.filter_cons_of_pos (by simp [Nat.toString_eq_repr])
    · rfl

/-- The preshared key of zeros, which is none. -/
def zeroKey : String := "AAAAAAAAAAAAAAAAAAAAAAAAAAAAAAAAAAAAAAAAAAA="

/-- The lines of a section set no preshared key; the last one counts. -/
def NoKey (vs : List String) : Prop := ∀ v ∈ vs.getLast?, v = zeroKey

/-- The lines of a section turn the keepalive off. -/
def Off (vs : List String) : Prop :=
  ∀ v ∈ vs.getLast?, v.toLower = "off" ∨ atoi.digits v.toList = some 0

/-- What the credential says about its peer holds in the file and in the interface. -/
structure Agrees (credential : AmneziaCredential) (allowed : String) (c : Ini.Contents)
    (p : RuntimePeer) : Prop where
  allowedIPs : c.values "AllowedIPs" = [allowed] ∧ p.allowedIPs = [allowed]
  presharedKey : trimSpace credential.presharedKey ≠ "" →
    c.values "PresharedKey" = [trimSpace credential.presharedKey] ∧
      p.presharedKey = some (trimSpace credential.presharedKey)
  noPresharedKey : trimSpace credential.presharedKey = "" →
    NoKey (c.values "PresharedKey") ∧ p.presharedKey = none
  keepalive : credential.persistentKeepalive ≠ 0 →
    c.values "PersistentKeepalive" = [toString credential.persistentKeepalive] ∧
      p.persistentKeepalive = credential.persistentKeepalive
  noKeepalive : credential.persistentKeepalive = 0 →
    Off (c.values "PersistentKeepalive") ∧ p.persistentKeepalive = 0

/-- The peer of the credential is in the file and in the interface once, as the credential says, and
the others are as they were. -/
def Wins (reader : Ini.Reader) (credential : AmneziaCredential) (m m' : Machine) : Prop :=
  ∃ allowed cfg cfg' c p, Reconciler.allowedIP credential = .ok allowed ∧
    parseSnapshot reader m.snapshot = .ok cfg ∧ parseSnapshot reader m'.snapshot = .ok cfg' ∧
    (contents cfg').filter (isPeer (trimSpace credential.publicKey)) = [c] ∧
    m'.runtime.peers.filter (·.publicKey = trimSpace credential.publicKey) = [p] ∧
    Agrees credential allowed c p ∧
    (contents cfg').filter (! isPeer (trimSpace credential.publicKey) ·) =
      (contents cfg).filter (! isPeer (trimSpace credential.publicKey) ·) ∧
    ∀ q, q.publicKey ≠ trimSpace credential.publicKey →
      (q ∈ m'.runtime.peers ↔ q ∈ m.runtime.peers)

/-- The file before: every peer section has a public key, in the first of its lines for it, and what
the credential leaves open is not set in the section of its peer. -/
structure OpenFile (credential : AmneziaCredential) (cfg : Ini.File) : Prop where
  keyed : ∀ s ∈ cfg, s.name = "Peer" → (s.find? "PublicKey").isSome
  clear : Clear (trimSpace credential.publicKey) cfg
  presharedKey : trimSpace credential.presharedKey = "" → ∀ s ∈ cfg,
    HasKey (trimSpace credential.publicKey) s → NoKey (s.contents.values "PresharedKey")
  keepalive : credential.persistentKeepalive = 0 → ∀ s ∈ cfg,
    HasKey (trimSpace credential.publicKey) s → Off (s.contents.values "PersistentKeepalive")

/-- The state before: this, the same for the interface, and no other peer of the interface has the
network of the credential. -/
structure Open (reader : Ini.Reader) (credential : AmneziaCredential) (m : Machine) : Prop where
  file : ∀ cfg, parseSnapshot reader m.snapshot = .ok cfg → OpenFile credential cfg
  presharedKey : trimSpace credential.presharedKey = "" →
    ∀ p ∈ m.runtime.peers, p.publicKey = trimSpace credential.publicKey → p.presharedKey = none
  keepalive : credential.persistentKeepalive = 0 →
    ∀ p ∈ m.runtime.peers, p.publicKey = trimSpace credential.publicKey → p.persistentKeepalive = 0
  apart : ∀ allowed, Reconciler.allowedIP credential = .ok allowed →
    ∀ p ∈ m.runtime.peers, p.publicKey ≠ trimSpace credential.publicKey → allowed ∉ p.allowedIPs

theorem peers_set (publicKey : String) (args : PeerArgs) (rt : Runtime) :
    (tool.set publicKey args rt).peers.filter (·.publicKey = publicKey) =
      [(rt.start publicKey).set args] := by
  refine List.perm_singleton.1 ?_
  have hnodup := (tool.set publicKey args rt).keyed.of_map
  rw [List.perm_ext_iff_of_nodup (hnodup.filter _) (List.nodup_singleton _)]
  intro p
  rw [List.mem_filter, List.mem_singleton, decide_eq_true_eq]
  constructor
  · rintro ⟨hmem, hkey⟩
    exact (tool.mem_set publicKey args rt p hkey).1 hmem
  · rintro rfl
    have hkey : ((rt.start publicKey).set args).publicKey = publicKey :=
      rt.publicKey_start publicKey
    exact ⟨(tool.mem_set publicKey args rt _ hkey).2 rfl, hkey⟩

theorem parseSnapshot_of_persistPeer {opts : PeerOptions} {remove : Bool} {raw raw' : String}
    (h : Snapshot.persistPeer reader publicKey opts remove raw = .ok raw') :
    ∃ cfg, parseSnapshot reader raw = .ok cfg := by
  obtain ⟨_, -, h⟩ := Except.bind_eq_ok.1 h
  obtain ⟨cfg, hcfg, -⟩ := Except.bind_eq_ok.1 h
  exact ⟨cfg, hcfg⟩

/-- What a call that wrote the file has written. -/
theorem withPeer_of_persistPeer {raw raw' : String} {cfg : Ini.File}
    (hcfg : parseSnapshot reader raw = .ok cfg) (hline : Ini.SingleLine allowed)
    (h : Snapshot.persistPeer reader publicKey (peerOptions credential allowed) false raw =
      .ok raw') :
    (touchAll cfg).countP (HasKey publicKey) ≤ 1 ∧
      ∃ cfg', parseSnapshot reader raw' = .ok cfg' ∧ contents cfg' =
        contents (withPeer publicKey (peerOptions credential allowed) (touchAll cfg)) := by
  have hlines : ∀ ips ∈ (peerOptions credential allowed).allowedIPs, ∀ ip ∈ ips,
      Ini.SingleLine ip := by
    intro ips hips ip hip
    cases hips
    rw [List.mem_singleton.1 hip]
    exact hline
  rcases persistPeer_set reader hcfg publicKey hlines with
    ⟨e, -, herror⟩ | ⟨-, herror⟩ | ⟨hcount, raw₁, cfg', hraw, hparse, hcontents⟩
  · rw [h] at herror
    cases herror
  · rw [h] at herror
    cases herror
  · obtain rfl := Except.ok.inj (h.symm.trans hraw)
    exact ⟨hcount, cfg', hparse, hcontents⟩

/-- What holds without values holds of the section that was set just if it holds of all with the
key. -/
theorem values_iff_of_origin {cfg : Ini.File} {s : Ini.Section} {name : String}
    {Q : List String → Prop} (horigin : Origin publicKey cfg s)
    (hcount : cfg.countP (HasKey publicKey) ≤ 1) (hname : name ≠ "PublicKey") (hQ : Q []) :
    Q (s.contents.values name) ↔ ∀ s ∈ cfg, HasKey publicKey s → Q (s.contents.values name) := by
  rcases horigin with ⟨hmem, hkey⟩ | ⟨rfl, hnone⟩
  · refine ⟨fun h s' hmem' hkey' => ?_, fun h => h s hmem hkey⟩
    have hfilter (s : Ini.Section) (hmem : s ∈ cfg) (hkey : HasKey publicKey s) :
        s ∈ cfg.filter fun s => decide (HasKey publicKey s) :=
      List.mem_filter.2 ⟨hmem, decide_eq_true hkey⟩
    rw [List.countP_eq_length_filter] at hcount
    obtain ⟨t, ht⟩ := List.length_eq_one_iff.1
      (le_antisymm hcount (List.length_pos_of_mem (hfilter s hmem hkey)))
    have hs := hfilter s hmem hkey
    have hs' := hfilter s' hmem' hkey'
    rw [ht, List.mem_singleton] at hs hs'
    rw [hs', ← hs]
    exact h
  · refine iff_of_true ?_ fun s hs hkey => ?_
    · have hfind : (newPeer publicKey).find? name = none := by
        refine List.find?_eq_none.2 fun k hk => ?_
        rw [List.mem_singleton.1 hk]
        simpa using hname.symm
      rw [Ini.Section.values_contents, hfind]
      exact hQ
    · exact absurd (decide_eq_true hkey) (List.countP_eq_zero.1 hnone s hs)

/-- The fields that the credential has are set, and the others are as they were. -/
theorem agrees_iff {cfg : Ini.File} {s : Ini.Section} (hne : allowed ≠ "")
    (hplan : args.allowedIPs = some [allowed] ∧ args.persistentKeepalive =
        (if credential.persistentKeepalive > 0 then some credential.persistentKeepalive else none) ∧
      args.presharedKey = if trimSpace credential.presharedKey ≠ "" then
        some (trimSpace credential.presharedKey) else none)
    (horigin : Origin (trimSpace credential.publicKey) cfg s)
    (hcount : cfg.countP (HasKey (trimSpace credential.publicKey)) ≤ 1) (rt : Runtime) :
    Agrees credential allowed (setKeys (peerOptions credential allowed) s).contents
        ((rt.start (trimSpace credential.publicKey)).set args) ↔
      (trimSpace credential.presharedKey = "" →
        (∀ s ∈ cfg, HasKey (trimSpace credential.publicKey) s →
          NoKey (s.contents.values "PresharedKey")) ∧
        ∀ p ∈ rt.peers, p.publicKey = trimSpace credential.publicKey → p.presharedKey = none) ∧
      (credential.persistentKeepalive = 0 →
        (∀ s ∈ cfg, HasKey (trimSpace credential.publicKey) s →
          Off (s.contents.values "PersistentKeepalive")) ∧
        ∀ p ∈ rt.peers, p.publicKey = trimSpace credential.publicKey →
          p.persistentKeepalive = 0) := by
  obtain ⟨hips, hkeepalive, hkey⟩ := hplan
  obtain ⟨hvips, hvkey, hvalive⟩ := values_setKeys credential hne s
  have hfile : (∀ s ∈ cfg, HasKey (trimSpace credential.publicKey) s →
      NoKey (s.contents.values "PresharedKey")) ↔ NoKey (s.contents.values "PresharedKey") :=
    (values_iff_of_origin horigin hcount (by decide) (by simp [NoKey])).symm
  have hfile' : (∀ s ∈ cfg, HasKey (trimSpace credential.publicKey) s →
      Off (s.contents.values "PersistentKeepalive")) ↔
        Off (s.contents.values "PersistentKeepalive") :=
    (values_iff_of_origin horigin hcount (by decide) (by simp [Off])).symm
  rw [hfile, hfile', ← Runtime.start_iff (·.presharedKey = none) rfl,
    ← Runtime.start_iff (·.persistentKeepalive = 0) rfl]
  constructor
  · intro h
    refine ⟨fun hpsk => ?_, fun halive => ?_⟩
    · have hnone := h.noPresharedKey hpsk
      rw [hvkey, if_neg (not_not.2 hpsk), RuntimePeer.set, hkey, if_neg (not_not.2 hpsk)] at hnone
      exact hnone
    · have hoff := h.noKeepalive halive
      rw [hvalive, if_neg (by omega), RuntimePeer.set, hkeepalive, if_neg (by omega)] at hoff
      exact hoff
  · rintro ⟨hnone, hoff⟩
    refine ⟨⟨hvips, by rw [RuntimePeer.set, hips]; rfl⟩, fun hpsk => ?_, fun hpsk => ?_,
      fun halive => ?_, fun halive => ?_⟩
    · rw [hvkey, if_pos hpsk, RuntimePeer.set, hkey, if_pos hpsk]
      exact ⟨rfl, rfl⟩
    · rw [hvkey, if_neg (not_not.2 hpsk), RuntimePeer.set, hkey, if_neg (not_not.2 hpsk)]
      exact hnone hpsk
    · rw [hvalive, if_pos (Nat.pos_of_ne_zero halive), RuntimePeer.set, hkeepalive,
        if_pos (Nat.pos_of_ne_zero halive)]
      exact ⟨rfl, rfl⟩
    · rw [hvalive, if_neg (by omega), RuntimePeer.set, hkeepalive, if_neg (by omega)]
      exact hoff halive

/-- The other peers of the interface stay just if none of them has the network. -/
theorem others_iff (hips : args.allowedIPs = some [allowed]) (rt : Runtime) :
    (∀ q, q.publicKey ≠ publicKey → (q ∈ (tool.set publicKey args rt).peers ↔ q ∈ rt.peers)) ↔
      ∀ p ∈ rt.peers, p.publicKey ≠ publicKey → allowed ∉ p.allowedIPs := by
  have hothers := tool.mem_others publicKey args rt
  rw [hips, Option.getD_some] at hothers
  constructor
  · intro h p hp hother hmem
    obtain ⟨q, -, rfl⟩ := (hothers p hother).1 ((h p hother).2 hp)
    exact of_decide_eq_true (List.mem_filter.1 hmem).2 (List.mem_singleton_self _)
  · intro h q hother
    rw [hothers q hother]
    have hsame {p : RuntimePeer} (hp : p ∈ rt.peers) (hkey : p.publicKey ≠ publicKey) :
        p.without [allowed] = p :=
      RuntimePeer.without_of_forall fun ip hip => List.mem_singleton.1 hip ▸ h p hp hkey
    constructor
    · rintro ⟨p, hp, rfl⟩
      rw [hsame hp hother]
      exact hp
    · intro hq
      exact ⟨q, hq, (hsame hq hother).symm⟩

/-- The peer of a credential has a key. -/
theorem publicKey_ne_of_plan {opts : PeerOptions} (h : setPeerPlan publicKey opts = .ok args) :
    publicKey ≠ "" := by
  rintro rfl
  exact (Except.guard_eq_ok.1 h).1 (by decide)

/-- A peer that was applied is as the credential says, and the others are as they were, just if this
was so of what the call leaves alone. -/
theorem upsert_peer_wins_iff (h : upsertPeer reader tool run save credential m = (.ok (), m')) :
    Wins reader credential m m' ↔ Open reader credential m := by
  obtain ⟨allowed, args, snapshot, hallowed, hargs, hsnapshot, rfl⟩ := upsertPeer_ok h
  obtain ⟨htrim, hline, hne⟩ := allowedIP_ok hallowed
  have hplan := setPeerPlan_ok htrim hargs
  have hkey := publicKey_ne_of_plan hargs
  obtain ⟨cfg, hcfg⟩ := parseSnapshot_of_persistPeer hsnapshot
  obtain ⟨hcount, cfg', hparse, hcontents⟩ := withPeer_of_persistPeer hcfg hline hsnapshot
  constructor
  · rintro ⟨allowed', cfg₁, cfg₂, c, p, hallowed', hcfg₁, hparse₂, hfile, hrt, hagrees, hothers,
      hrest⟩
    obtain rfl := Except.ok.inj (hallowed.symm.trans hallowed')
    obtain rfl := Except.ok.inj (hcfg.symm.trans hcfg₁)
    obtain rfl := Except.ok.inj (hparse.symm.trans hparse₂)
    rw [hcontents] at hfile hothers
    have hclear := clear_of_single hkey hcount (by rw [hfile]; rfl)
    obtain ⟨s, hfrom⟩ := setFrom_withPeer (peerOptions credential allowed) hclear hcount
    have hisSome := (others_touchAll hkey (clear_touchAll.1 hclear)).1
      (hfrom.others.symm.trans hothers)
    rw [touchAll_of_isSome hisSome] at hfrom hcount hclear hfile
    obtain rfl := List.singleton_inj.1 (hfile.symm.trans hfrom.section_eq)
    obtain rfl := List.singleton_inj.1 (hrt.symm.trans (peers_set _ args m.runtime))
    obtain ⟨hpsk, halive⟩ := (agrees_iff hne hplan hfrom.origin hcount m.runtime).1 hagrees
    refine ⟨fun cfg₁ hcfg₁ => ?_, fun h => (hpsk h).2, fun h => (halive h).2,
      fun allowed' hallowed' => ?_⟩
    · obtain rfl := Except.ok.inj (hcfg.symm.trans hcfg₁)
      exact ⟨hisSome, hclear, fun h => (hpsk h).1, fun h => (halive h).1⟩
    · obtain rfl := Except.ok.inj (hallowed.symm.trans hallowed')
      exact (others_iff hplan.1 m.runtime).1 hrest
  · intro hopen
    have hfile := hopen.file cfg hcfg
    rw [touchAll_of_isSome hfile.keyed] at hcount hcontents
    obtain ⟨s, hfrom⟩ := setFrom_withPeer (peerOptions credential allowed) hfile.clear hcount
    refine ⟨allowed, cfg, cfg', _, _, hallowed, hcfg, hparse, hcontents ▸ hfrom.section_eq,
      peers_set _ args m.runtime, ?_, hcontents ▸ hfrom.others,
      (others_iff hplan.1 m.runtime).2 (hopen.apart allowed hallowed)⟩
    exact (agrees_iff hne hplan hfrom.origin hcount m.runtime).2
      ⟨fun h => ⟨hfile.presharedKey h, hopen.presharedKey h⟩,
        fun h => ⟨hfile.keepalive h, hopen.keepalive h⟩⟩

namespace Sample

/-- The peers that stay, without the networks that move to the peer that is set. -/
def giveUp (publicKey : String) (args : PeerArgs) (rt : Runtime) : List RuntimePeer :=
  (rt.peers.filter (·.publicKey ≠ publicKey)).map fun p => p.without (args.allowedIPs.getD [])

theorem keys_giveUp (publicKey : String) (args : PeerArgs) (rt : Runtime) :
    (giveUp publicKey args rt).map (·.publicKey) =
      (rt.peers.filter (·.publicKey ≠ publicKey)).map (·.publicKey) := by
  rw [giveUp, List.map_map]
  rfl

theorem publicKey_ne_of_mem_giveUp {rt : Runtime} {p : RuntimePeer}
    (hp : p ∈ giveUp publicKey args rt) : p.publicKey ≠ publicKey := by
  have hkey : p.publicKey ∈ (rt.peers.filter (·.publicKey ≠ publicKey)).map (·.publicKey) := by
    rw [← keys_giveUp publicKey args rt]
    exact List.mem_map_of_mem hp
  obtain ⟨q, hq, hsame⟩ := List.mem_map.1 hkey
  rw [← hsame]
  exact of_decide_eq_true (List.mem_filter.1 hq).2

/-- A network belongs to the peer that was set last, as in the kernel. -/
def awg : Tool where
  set publicKey args rt :=
    { peers := giveUp publicKey args rt ++ [(rt.start publicKey).set args]
      keyed := by
        rw [Table.Keyed, List.map_append, keys_giveUp, List.nodup_append]
        refine ⟨rt.keyed.sublist (List.filter_sublist.map _), List.nodup_singleton _, ?_⟩
        intro key hkey key' hkey' hsame
        rw [← keys_giveUp publicKey args rt] at hkey
        obtain ⟨p, hp, rfl⟩ := List.mem_map.1 hkey
        rw [List.mem_singleton.1 hkey'] at hsame
        exact publicKey_ne_of_mem_giveUp hp (hsame.trans (rt.publicKey_start publicKey)) }
  mem_set publicKey args rt p hkey := by
    rw [List.mem_append, List.mem_singleton]
    exact ⟨fun h => h.resolve_left fun hp => publicKey_ne_of_mem_giveUp hp hkey, .inr⟩
  mem_others publicKey args rt p hkey := by
    have hset : p ≠ (rt.start publicKey).set args := by
      rintro rfl
      exact hkey (rt.publicKey_start publicKey)
    rw [List.mem_append, List.mem_singleton, or_iff_left hset, giveUp, List.mem_map]
    constructor
    · rintro ⟨q, hq, rfl⟩
      exact ⟨q, (List.mem_filter.1 hq).1, rfl⟩
    · rintro ⟨q, hq, rfl⟩
      exact ⟨q, List.mem_filter.2 ⟨hq, decide_eq_true hkey⟩, rfl⟩

def noKey : AmneziaCredential := ⟨"key", "", "10.0.0.2", "active", 0⟩

/-- Two peers without preshared keys, which are not kept alive. -/
def plain : Machine where
  snapshot := Snapshot.Sample.rawTwo
  runtime :=
    { peers := [⟨"key", ["10.0.0.1/32"], none, none, 0⟩, ⟨"other", ["10.0.0.3/32"], none, none, 0⟩]
      keyed := by decide }

/-- The first with both. -/
def earlier : Machine :=
  ⟨"[Interface]\nListenPort = 51820\n\n[Peer]\nPublicKey = key\nPresharedKey = old\n" ++
    "PersistentKeepalive = 25\n\n",
    ⟨[⟨"key", ["10.0.0.1/32"], some "old", none, 25⟩], List.nodup_singleton _⟩⟩

end Sample

/-- A credential without a key and a keepalive, for a peer without them. -/
theorem upsert_peer_wins_plain :
    (upsertPeer Ini.lineReader Sample.awg .ok .ok Sample.noKey Sample.plain).1 = .ok () ∧
      Wins Ini.lineReader Sample.noKey Sample.plain
        (upsertPeer Ini.lineReader Sample.awg .ok .ok Sample.noKey Sample.plain).2 := by
  have hresult : (upsertPeer Ini.lineReader Sample.awg .ok .ok Sample.noKey
      Sample.plain).1 = .ok () := by decide +kernel
  refine ⟨hresult, (upsert_peer_wins_iff (Prod.ext hresult rfl)).2 ?_⟩
  refine ⟨fun cfg hcfg => ?_, fun _ => by decide, fun _ => by decide, fun allowed hallowed => ?_⟩
  · obtain rfl := Except.ok.inj (hcfg.symm.trans Snapshot.Sample.parse_rawTwo)
    refine ⟨by decide +kernel, ?_, fun _ => ?_, fun _ => ?_⟩
    · unfold Clear
      decide +kernel
    · unfold NoKey
      decide +kernel
    · unfold Off
      decide +kernel
  · obtain rfl : "10.0.0.2/32" = allowed := Except.ok.inj (.trans (by decide +kernel) hallowed)
    decide

/-- A preshared key and a keepalive that the credential no longer has stay in both places. -/
theorem upsert_peer_keeps_old :
    (upsertPeer Ini.lineReader Sample.awg .ok .ok Sample.noKey Sample.earlier).1 = .ok () ∧
      (upsertPeer Ini.lineReader Sample.awg .ok .ok Sample.noKey
        Sample.earlier).2.runtime.peers =
          [⟨"key", ["10.0.0.2/32"], some "old", none, 25⟩] ∧
      (parseSnapshot Ini.lineReader (upsertPeer Ini.lineReader Sample.awg .ok .ok
        Sample.noKey Sample.earlier).2.snapshot).map contents =
          .ok [("Interface", [("ListenPort", ["51820"])]),
            ("Peer", [("PublicKey", ["key"]), ("PresharedKey", ["old"]),
              ("PersistentKeepalive", ["25"]), ("AllowedIPs", ["10.0.0.2/32"])])] := by
  refine ⟨by decide +kernel, by decide +kernel, by decide +kernel⟩

end LazGate.Upsert
