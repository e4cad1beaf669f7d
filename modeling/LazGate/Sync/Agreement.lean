import LazGate.Sync.Convergence

/-!
# Agreement of peers and identities on an AmneziaWG agent

An AmneziaWG agent keeps a connection in three places: its row in `auth_users`, a section of the
durable snapshot, and a peer of the running interface. Every operation writes them one after the
other, and a pass may fail or be stopped in between.

The invariant of all runs: where the three do not agree on a connection, its version is not below
the cursor, so the next incremental pass reports it. An upsert and a delete then bring the three
together, with one exception: a delete looks for the peer through the row. A peer that was set
while its row could not be written stays when the connection is deleted next
(`peer_left_behind`).
-/

namespace LazGate

open Prog

/-! ## Peers -/

variable {opts : PeerOptions}

section Peers

def HasPeer (a : Agent) (k : String) : Prop := k ∈ peerKeys a.snapshot ∧ k ∈ a.runtime

def NoPeer (a : Agent) (k : String) : Prop := k ∉ peerKeys a.snapshot ∧ k ∉ a.runtime

instance (a : Agent) (k : String) : Decidable (NoPeer a k) :=
  inferInstanceAs (Decidable (_ ∧ _))

/-- The three places agree on a connection whose public key is `key id`. -/
def Agree (key : String → String) (a : Agent) (id : String) : Prop :=
  (id ∈ a.users.rows ∧ HasPeer a (key id)) ∨ (id ∉ a.users.rows ∧ NoPeer a (key id))

/-- At most the peer `k` has been added. -/
structure Adds (k : String) (a a' : Agent) : Prop where
  users : a'.users = a.users
  state : a'.state = a.state
  snapshot : ∀ x, x ∈ peerKeys a'.snapshot → x ∈ peerKeys a.snapshot ∨ x = k
  snapshot_mono : ∀ x, x ∈ peerKeys a.snapshot → x ∈ peerKeys a'.snapshot
  runtime : ∀ x, x ∈ a'.runtime → x ∈ a.runtime ∨ x = k
  runtime_mono : ∀ x, x ∈ a.runtime → x ∈ a'.runtime

/-- At most peers with a key in `K` have been removed. -/
structure Removes (K : String → Prop) (a a' : Agent) : Prop where
  users : a'.users = a.users
  state : a'.state = a.state
  snapshot : ∀ x, x ∈ peerKeys a.snapshot → x ∈ peerKeys a'.snapshot ∨ K x
  snapshot_mono : ∀ x, x ∈ peerKeys a'.snapshot → x ∈ peerKeys a.snapshot
  runtime : ∀ x, x ∈ a.runtime → x ∈ a'.runtime ∨ K x
  runtime_mono : ∀ x, x ∈ a'.runtime → x ∈ a.runtime

variable {a a' : Agent} {k x : String} {K : String → Prop} {key : String → String} {id : String}

theorem Removes.mono {K' : String → Prop} (h : Removes K a a') (hK : ∀ x, K x → K' x) :
    Removes K' a a' :=
  { h with
    snapshot := fun x hx => (h.snapshot x hx).imp_right (hK x)
    runtime := fun x hx => (h.runtime x hx).imp_right (hK x) }

theorem Adds.hasPeer (h : Adds k a a') (hx : HasPeer a x) : HasPeer a' x :=
  ⟨h.snapshot_mono x hx.1, h.runtime_mono x hx.2⟩

theorem Adds.noPeer (h : Adds k a a') (hx : NoPeer a x) (hne : x ≠ k) : NoPeer a' x :=
  ⟨fun h' => hx.1 ((h.snapshot x h').resolve_right hne),
    fun h' => hx.2 ((h.runtime x h').resolve_right hne)⟩

theorem Removes.noPeer (h : Removes K a a') (hx : NoPeer a x) : NoPeer a' x :=
  ⟨fun h' => hx.1 (h.snapshot_mono x h'), fun h' => hx.2 (h.runtime_mono x h')⟩

theorem Removes.hasPeer (h : Removes K a a') (hx : HasPeer a x) (hk : ¬ K x) : HasPeer a' x :=
  ⟨(h.snapshot x hx.1).resolve_right hk, (h.runtime x hx.2).resolve_right hk⟩

theorem Adds.agree (h : Adds k a a') (hid : Agree key a id) (hk : key id = k → id ∈ a.users.rows) :
    Agree key a' id := by
  rcases hid with ⟨hrow, hp⟩ | ⟨hrow, hp⟩
  · exact .inl ⟨h.users ▸ hrow, h.hasPeer hp⟩
  · exact .inr ⟨h.users ▸ hrow, h.noPeer hp fun heq => hrow (hk heq)⟩

theorem Removes.agree (h : Removes K a a') (hid : Agree key a id)
    (hk : K (key id) → id ∉ a.users.rows) : Agree key a' id := by
  rcases hid with ⟨hrow, hp⟩ | ⟨hrow, hp⟩
  · exact .inl ⟨h.users ▸ hrow, h.hasPeer hp fun hK => hk hK hrow⟩
  · exact .inr ⟨h.users ▸ hrow, h.noPeer hp⟩

theorem adds_persistPeer {r : Unit}
    (h : (AgentCall.persistPeer k opts false).effect a = .ok (r, a')) :
    Adds k a a' ∧ k ∈ peerKeys a'.snapshot := by
  obtain ⟨peers, hp, h⟩ := Except.map_eq_ok.1 h
  cases h
  refine ⟨⟨rfl, rfl, fun x hx => ?_, fun x hx => ?_, fun _ => .inl, fun _ => id⟩, ?_⟩
  · exact ((mem_peerKeys_set hp).1 hx).symm
  · exact (mem_peerKeys_set hp).2 (.inr hx)
  · exact (mem_peerKeys_set hp).2 (.inl rfl)

theorem adds_awgSetPeer (k : String) (a : Agent) :
    Adds k a { a with runtime := a.runtime.insert k } := by
  refine ⟨rfl, rfl, fun _ => .inl, fun _ => id, fun x hx => ?_, fun x hx => ?_⟩
  · rw [Std.ExtTreeSet.mem_insert, Std.compare_eq_iff_eq] at hx
    exact hx.symm.imp_right Eq.symm
  · exact Std.ExtTreeSet.mem_insert.2 (.inr hx)

theorem removes_persistPeer {r : Unit}
    (h : (AgentCall.persistPeer k opts true).effect a = .ok (r, a')) :
    Removes (· = k) a a' ∧ k ∉ peerKeys a'.snapshot := by
  obtain ⟨peers, hp, h⟩ := Except.map_eq_ok.1 h
  cases h
  refine ⟨⟨rfl, rfl, fun x hx => ?_, fun x hx => ?_, fun _ => .inl, fun _ => id⟩, fun hk => ?_⟩
  · by_cases hxk : x = k
    · exact .inr hxk
    · exact .inl ((mem_peerKeys_remove hp).2 ⟨hx, hxk⟩)
  · exact ((mem_peerKeys_remove hp).1 hx).1
  · exact ((mem_peerKeys_remove hp).1 hk).2 rfl

theorem removes_awgRemovePeer (k : String) (a : Agent) :
    Removes (· = k) a { a with runtime := a.runtime.erase k } := by
  refine ⟨rfl, rfl, fun _ => .inl, fun _ => id, fun x hx => ?_, fun x hx => ?_⟩
  · by_cases hxk : x = k
    · exact .inr hxk
    · left
      rw [Std.ExtTreeSet.mem_erase, ne_eq, Std.compare_eq_iff_eq]
      exact ⟨fun h => hxk h.symm, hx⟩
  · exact (Std.ExtTreeSet.mem_erase.1 hx).2

theorem removes_prunePeers (keep : Std.ExtTreeSet String) (a : Agent) :
    Removes (· ∉ keep) a { a with snapshot := prunePeers keep a.snapshot } := by
  refine ⟨rfl, rfl, fun x hx => ?_, fun x hx => ?_, fun _ => .inl, fun _ => id⟩
  · by_cases hk : x ∈ keep
    · exact .inl (mem_peerKeys_prunePeers.2 ⟨hx, hk⟩)
    · exact .inr hk
  · exact (mem_peerKeys_prunePeers.1 hx).1

end Peers

/-! ## The node -/

variable {K : String → Prop} {r : SyncRow AmneziaWGConnectionMaterial}

section Node

/-- A change on the server, or the start of the agent's process, which restores the peers of the
interface from the snapshot. -/
inductive NodeEvent where
  | commit (r : SyncRow AmneziaWGConnectionMaterial)
  | restore

def Agent.restore (a : Agent) : Agent :=
  { a with runtime := Std.ExtTreeSet.ofList (peerKeys a.snapshot) }

def NodeEvent.act : NodeEvent → World AmneziaWGConnectionMaterial →
    Option (World AmneziaWGConnectionMaterial)
  | .commit r, w => w.commit amneziaAdapter r
  | .restore, w => some { w with agent := w.agent.restore }

def peerSystem : System (SyncCall AmneziaCredential) SyncCall.Reply Served
    (World AmneziaWGConnectionMaterial) NodeEvent PassArgs (Except String Unit) where
  perform := World.perform amneziaAdapter
  act := NodeEvent.act
  enter := World.enter amneziaAdapter
  prog args := (amneziaSync.runOnce args.pageSize args.order args.fuel args.full).run

variable (key : String → String)

/-- The public key of an active connection is `key id`. -/
def KeyedRows (s : ServerRows AmneziaWGConnectionMaterial) : Prop :=
  ∀ id r, s.rows[id]? = some r → amneziaAdapter.active r →
    trimSpace r.material.clientPublicKey = key id

/-- What happens besides the pass: changes on the server, and restored peers. -/
structure PeerRely (w w' : World AmneziaWGConnectionMaterial) : Prop
    extends Rely amneziaAdapter w w' where
  snapshot : w'.agent.snapshot = w.agent.snapshot
  runtime : w'.agent.runtime = w.agent.runtime ∨
    w'.agent.runtime = Std.ExtTreeSet.ofList (peerKeys w.agent.snapshot)
  keyed : KeyedRows key w.server → KeyedRows key w'.server

/-- If there is a cursor, the connection is not below it. -/
def Late (w : World AmneziaWGConnectionMaterial) (id : String) : Prop :=
  ∀ v, w.agent.cursor = some (.int v) →
    ∃ r, w.server.rows[id]? = some r ∧ v ≤ r.desiredVersionMS

/-- The invariant of all runs. -/
structure PeersTracked (w : World AmneziaWGConnectionMaterial) : Prop where
  tracked : Tracked amneziaAdapter w
  server : KeyedRows key w.server
  rows : ∀ (id : String) (u : AuthUser), w.agent.users.rows[id]? = some u →
    u.nativeAuthID = key id ∧ trimSpace (key id) = key id
  known : w.agent.cursor ≠ none →
    ∀ k, k ∈ peerKeys w.agent.snapshot ∨ k ∈ w.agent.runtime → ∃ id, key id = k
  late : ∀ id, ¬ Agree key w.agent id → Late w id

variable {key} {w w' w'' : World AmneziaWGConnectionMaterial} {id k : String} {a : Agent}

theorem Tracked.late (h : Tracked amneziaAdapter w)
    (hd : Differs amneziaAdapter w.agent.users.rows w id) : Late w id := by
  intro v hv
  obtain ⟨v', -, hx, hc⟩ := h _ hv
  cases hx
  exact hc id hd

theorem Late.congr (h : Late w id) (hcur : a.cursor = w.agent.cursor) :
    Late { w with agent := a } id := fun v hv => h v (hcur ▸ hv)

namespace PeerRely

theorem refl (w : World AmneziaWGConnectionMaterial) : PeerRely key w w :=
  { Rely.refl w with snapshot := rfl, runtime := .inl rfl, keyed := id }

section

variable (h : PeerRely key w w')

include h

theorem trans (h' : PeerRely key w' w'') : PeerRely key w w'' :=
  { h.toRely.trans h'.toRely with
    snapshot := h'.snapshot.trans h.snapshot
    runtime := by
      rcases h'.runtime with h1 | h1
      · exact h.runtime.imp h1.trans h1.trans
      · exact .inr (h1.trans (by rw [h.snapshot]))
    keyed := fun hk => h'.keyed (h.keyed hk) }

theorem mem_runtime (hk : k ∈ w'.agent.runtime) :
    k ∈ w.agent.runtime ∨ k ∈ peerKeys w.agent.snapshot := by
  rcases h.runtime with heq | heq
  · exact .inl (heq ▸ hk)
  · rw [heq, Std.ExtTreeSet.mem_ofList, List.contains_iff_mem] at hk
    exact .inr hk

theorem hasPeer (hp : HasPeer w.agent k) : HasPeer w'.agent k := by
  refine ⟨h.snapshot ▸ hp.1, ?_⟩
  rcases h.runtime with heq | heq
  · exact heq ▸ hp.2
  · rw [heq, Std.ExtTreeSet.mem_ofList, List.contains_iff_mem]
    exact hp.1

theorem noPeer (hp : NoPeer w.agent k) : NoPeer w'.agent k :=
  ⟨h.snapshot ▸ hp.1, fun hk => (h.mem_runtime hk).elim hp.2 hp.1⟩

theorem agree (ha : Agree key w.agent id) : Agree key w'.agent id := by
  rcases ha with ⟨hrow, hp⟩ | ⟨hrow, hp⟩
  · exact .inl ⟨h.users ▸ hrow, h.hasPeer hp⟩
  · exact .inr ⟨h.users ▸ hrow, h.noPeer hp⟩

theorem late (ht : Tracked amneziaAdapter w) (hl : Late w id) :
    Late w' id := by
  intro v hv
  rw [h.cursor] at hv
  obtain ⟨v', hb, hx, -⟩ := ht _ hv
  cases hx
  rcases h.row id with ⟨hrow, -⟩ | ⟨-, r, hr, hle⟩
  · rw [hrow]
    exact hl v hv
  · exact ⟨r, hr, hle v hb⟩

theorem peersTracked (ht : PeersTracked key w) : PeersTracked key w' where
  tracked := h.toRely.tracked ht.tracked
  server := h.keyed ht.server
  rows := h.users ▸ ht.rows
  known hcur k hk := by
    rw [h.cursor] at hcur
    refine ht.known hcur k ?_
    rcases hk with hk | hk
    · exact .inl (h.snapshot ▸ hk)
    · exact (h.mem_runtime hk).symm
  late id hna := h.late ht.tracked (ht.late id fun ha => hna (h.agree ha))

end

theorem commit (hv : ∀ t ∈ w.built, t ≤ r.desiredVersionMS)
    (hkey : amneziaAdapter.active r → trimSpace r.material.clientPublicKey = key r.id)
    (h : w.commit amneziaAdapter r = some w') : PeerRely key w w' := by
  obtain ⟨hagent, -, hrow, -⟩ := commit_eq_some h
  refine { Rely.commit hv h with
    snapshot := by rw [hagent]
    runtime := .inl (by rw [hagent])
    keyed := fun hk id q hq hact => ?_ }
  rw [hrow] at hq
  split at hq
  · cases hq
    rename_i heq
    rw [heq]
    exact hkey hact
  · exact hk id q hq hact

theorem restore (w : World AmneziaWGConnectionMaterial) :
    PeerRely key w { w with agent := w.agent.restore } :=
  { Rely.refl w with
    users := rfl
    state := rfl
    snapshot := rfl
    runtime := .inr rfl
    keyed := id }

end PeerRely

theorem rely_of_tables (hu : a.users = w.agent.users) (hs : a.state = w.agent.state) :
    Rely amneziaAdapter w { w with agent := a } :=
  { Rely.refl w with users := hu, state := hs }

/-- A pass may add a peer of a connection that is not below the cursor, or of one that it has. -/
theorem PeersTracked.adds (hkey : key.Injective) (h : PeersTracked key w)
    (ha : Adds (key id) w.agent a) (hid : Late w id ∨ Agree key a id) :
    PeersTracked key { w with agent := a } where
  tracked := (rely_of_tables ha.users ha.state).tracked h.tracked
  server := h.server
  rows := ha.users ▸ h.rows
  known hcur k hk := by
    have hcur' : w.agent.cursor ≠ none := by rwa [Agent.cursor, ← ha.state]
    rcases hk with hk | hk
    · exact (ha.snapshot k hk).elim (fun hk => h.known hcur' k (.inl hk)) fun hk => ⟨id, hk.symm⟩
    · exact (ha.runtime k hk).elim (fun hk => h.known hcur' k (.inr hk)) fun hk => ⟨id, hk.symm⟩
  late i hna := by
    have hcur : a.cursor = w.agent.cursor := by rw [Agent.cursor, ha.state]; rfl
    by_cases heq : i = id
    · subst heq
      exact (hid.resolve_right hna).congr hcur
    · refine (h.late i fun hag => hna (ha.agree hag fun hk => absurd (hkey hk) heq)).congr hcur

/-- A pass may remove peers of connections that are not below the cursor. -/
theorem PeersTracked.removes (h : PeersTracked key w) (ha : Removes K w.agent a)
    (hK : ∀ id, K (key id) → Late w id ∨ (id ∉ w.agent.users.rows ∧ NoPeer w.agent (key id))) :
    PeersTracked key { w with agent := a } where
  tracked := (rely_of_tables ha.users ha.state).tracked h.tracked
  server := h.server
  rows := ha.users ▸ h.rows
  known hcur k hk := by
    have hcur' : w.agent.cursor ≠ none := by rwa [Agent.cursor, ← ha.state]
    exact h.known hcur' k (hk.imp (ha.snapshot_mono k) (ha.runtime_mono k))
  late i hna := by
    have hcur : a.cursor = w.agent.cursor := by rw [Agent.cursor, ha.state]; rfl
    by_cases hk : K (key i)
    · refine ((hK i hk).resolve_right fun hno => hna ?_).congr hcur
      exact ha.agree (.inr hno) fun _ => hno.1
    · exact (h.late i fun hag => hna (ha.agree hag fun hk' => absurd hk' hk)).congr hcur

variable (key) in
/-- A pass among changes on the server and restores. A row that is deleted is there, or its peer is
not. -/
def peering : Passing amneziaAdapter where
  admits c w :=
    match c with
    | .agent (.deleteAuthUser id) => id ∈ w.agent.users.rows ∨ NoPeer w.agent (key id)
    | _ => True
  rely := PeerRely key
  inv := PeersTracked key
  refl := PeerRely.refl
  trans _ _ _ := PeerRely.trans
  stable _ _ := PeerRely.peersTracked
  serve _ request now h := { h with tracked := h.tracked.serve request now }

end Node

/-! ## Setting and removing peers -/

section Edit

variable {key : String → String} {w : World AmneziaWGConnectionMaterial}
  {I : World AmneziaWGConnectionMaterial → Prop} {k : String}

/-- `I` is not disturbed by what `R` allows. -/
def ClosedUnder (R : Agent → Agent → Prop) (I : World AmneziaWGConnectionMaterial → Prop) : Prop :=
  ∀ w a, I w → R w.agent a → I { w with agent := a }

section Peer

variable (hI : (peering key).Within I)

include hI

theorem saveHostConfig_safe (hw : I w) :
    (peering key).Keeps (AgentCall.saveHostConfig.attempt (P := AmneziaCredential))
      (fun _ => I) w := by
  refine Passing.call_safe hI (fun _ => hI.stable) (fun w r a h _ he => ?_) hw
  cases he
  exact ⟨hI.inv _ h, h⟩

theorem Facade.setPeer_safe (hadds : ClosedUnder (Adds k) I) (hw : I w) :
    (peering key).Keeps (Facade.setPeer (P := AmneziaCredential) k opts)
      (fun _ w => I w ∧ HasPeer w.agent k) w := by
  have hsnap : (peering key).Within fun w => I w ∧ k ∈ peerKeys w.agent.snapshot :=
    hI.and fun _ _ hr h => PeerRely.snapshot hr ▸ h
  have hpeer := hI.and (p := fun w => HasPeer w.agent k) fun _ _ hr h => PeerRely.hasPeer hr h
  refine Safe.check (fun _ _ => ?_) fun e _ w' hr => hI.inv _ (hI.stable _ _ hr hw)
  refine Safe.seq (Q := fun _ w => I w ∧ k ∈ peerKeys w.agent.snapshot)
    (Passing.call_safe hI (fun _ => hsnap.stable) (fun w r a h _ he => ?_) hw) fun _ w hw => ?_
  · obtain ⟨ha, hk⟩ := adds_persistPeer he
    exact ⟨hI.inv _ (hadds _ _ h ha), hadds _ _ h ha, hk⟩
  refine Safe.seq (Q := fun _ w => I w ∧ HasPeer w.agent k)
    (Passing.call_safe hsnap (fun _ => hpeer.stable) (fun w r a h _ he => ?_) hw) fun _ w hw => ?_
  · cases he
    have ha := adds_awgSetPeer k w.agent
    refine ⟨hI.inv _ (hadds _ _ h.1 ha), hadds _ _ h.1 ha, h.2, ?_⟩
    exact Std.ExtTreeSet.mem_insert.2 (.inl (Std.compare_eq_iff_eq.2 rfl))
  · exact saveHostConfig_safe hpeer hw

theorem Facade.removePeer_safe (hrem : ClosedUnder (Removes (· = k)) I) (hw : I w) :
    (peering key).Keeps (Facade.removePeer (P := AmneziaCredential) k)
      (fun _ w => I w ∧ NoPeer w.agent k) w := by
  have hsnap : (peering key).Within fun w => I w ∧ k ∉ peerKeys w.agent.snapshot :=
    hI.and fun _ _ hr h => PeerRely.snapshot hr ▸ h
  have hpeer := hI.and (p := fun w => NoPeer w.agent k) fun _ _ hr h => PeerRely.noPeer hr h
  unfold Facade.removePeer
  split
  · exact Safe.fail fun w' hr => hI.inv _ (hI.stable _ _ hr hw)
  refine Safe.seq (Q := fun _ w => I w ∧ k ∉ peerKeys w.agent.snapshot)
    (Passing.call_safe hI (fun _ => hsnap.stable) (fun w r a h _ he => ?_) hw) fun _ w hw => ?_
  · obtain ⟨ha, hk⟩ := removes_persistPeer he
    exact ⟨hI.inv _ (hrem _ _ h ha), hrem _ _ h ha, hk⟩
  refine Safe.seq (Q := fun _ w => I w ∧ NoPeer w.agent k)
    (Passing.call_safe hsnap (fun _ => hpeer.stable) (fun w r a h _ he => ?_) hw) fun _ w hw => ?_
  · cases he
    have ha := removes_awgRemovePeer k w.agent
    refine ⟨hI.inv _ (hrem _ _ h.1 ha), hrem _ _ h.1 ha, h.2, fun hk => ?_⟩
    exact (Std.ExtTreeSet.mem_erase.1 hk).1 (Std.compare_eq_iff_eq.2 rfl)
  · exact saveHostConfig_safe hpeer hw

omit hI in
theorem wrap_safe {α : Type} {x : Sync AmneziaCredential α} {f : String → String}
    {Q : α → World AmneziaWGConnectionMaterial → Prop} (h : (peering key).Keeps x Q w) :
    (peering key).Keeps (x.wrap f) Q w := by
  refine Safe.wrap (h.mono ?_)
  rintro (e | y) w' hw' <;> exact hw'

theorem Reconciler.removePeer_safe {native : String} (hk : trimSpace native = k)
    (hrem : ClosedUnder (Removes (· = k)) I) (hw : I w) :
    (peering key).Keeps (Reconciler.removePeer (P := AmneziaCredential) native)
      (fun _ w => I w ∧ NoPeer w.agent k) w := by
  unfold Reconciler.removePeer
  simp only [hk]
  split
  · exact Safe.fail fun w' hr => hI.inv _ (hI.stable _ _ hr hw)
  · exact wrap_safe (Facade.removePeer_safe hI hrem hw)

theorem Reconciler.upsertPeer_safe {credential : AmneziaCredential}
    (hk : trimSpace credential.publicKey = k) (hadds : ClosedUnder (Adds k) I) (hw : I w) :
    (peering key).Keeps (Reconciler.upsertPeer (P := AmneziaCredential) credential)
      (fun _ w => I w ∧ HasPeer w.agent k) w := by
  refine Safe.check (fun allowed _ => ?_) fun e _ w' hr => hI.inv _ (hI.stable _ _ hr hw)
  rw [hk]
  exact wrap_safe (Facade.setPeer_safe hI hadds hw)

end Peer

/-- The peers of the interface are wanted, or still to be looked at. -/
def Pruning (desired : Std.ExtTreeSet String) (I : World AmneziaWGConnectionMaterial → Prop)
    (l : List String) (w : World AmneziaWGConnectionMaterial) : Prop :=
  I w ∧ ∀ x ∈ w.agent.runtime, x ∈ desired ∨ x ∈ l

/-- Pruning the interface, when the snapshot is pruned already. -/
theorem Reconciler.pruneRuntimePeers_safe {desired : Std.ExtTreeSet String}
    (hI : (peering key).Within I) (hsnap : ∀ w, I w → ∀ x ∈ peerKeys w.agent.snapshot, x ∈ desired)
    (hrem : ClosedUnder (Removes (· ∉ desired)) I) (hw : I w) :
    (peering key).Keeps (Reconciler.pruneRuntimePeers (P := AmneziaCredential) desired)
      (fun _ w => I w ∧ ∀ x ∈ w.agent.runtime, x ∈ desired) w := by
  have hJ : ∀ l, (peering key).Within (Pruning desired I l) := by
    refine fun l => ⟨fun w w' hr h => ?_, fun _ h => hI.inv _ h.1⟩
    refine ⟨hI.stable _ _ hr h.1, fun x hx => ?_⟩
    rcases PeerRely.mem_runtime hr hx with hx | hx
    · exact h.2 x hx
    · exact .inl (hsnap _ h.1 x hx)
  have hremJ : ∀ l x, x ∉ desired → ClosedUnder (Removes (· = x)) (Pruning desired I l) := by
    rintro l x hx w a h ha
    refine ⟨hrem _ _ h.1 (ha.mono ?_), fun y hy => h.2 y (ha.runtime_mono y hy)⟩
    rintro y rfl
    exact hx
  refine Safe.seq (Q := fun dump => Pruning desired I (Std.ExtTreeSet.ofList dump).toList)
    (Passing.call_safe hI (fun dump => (hJ _).stable) (fun w r a h _ he => ?_) hw)
    fun dump w hw => ?_
  · cases he
    refine ⟨hI.inv _ h, h, fun x hx => .inr ?_⟩
    rw [Std.ExtTreeSet.mem_toList, Std.ExtTreeSet.mem_ofList, List.contains_iff_mem,
      Std.ExtTreeSet.mem_toList]
    exact hx
  · refine Safe.forM (Pruning desired I) (fun x l w h => ?_) (fun w h => ?_) _ w
      fun w' hr => (hJ _).stable _ _ hr hw
    · by_cases hx : desired.contains x
      · rw [if_pos hx]
        refine Safe.ok fun w' hr => ?_
        obtain ⟨hi, hl⟩ := (hJ _).stable _ _ hr h
        refine ⟨hi, fun y hy => (hl y hy).elim .inl fun hy => ?_⟩
        rcases List.mem_cons.1 hy with rfl | hy
        · exact .inl (Std.ExtTreeSet.contains_iff_mem.1 hx)
        · exact .inr hy
      · rw [if_neg hx]
        have hx' : x ∉ desired := fun h => hx (Std.ExtTreeSet.contains_iff_mem.2 h)
        refine (Facade.removePeer_safe (hJ (x :: l)) (hremJ (x :: l) x hx') h).imp ?_
        rintro _ w' ⟨⟨hi, hl⟩, hno⟩
        refine ⟨hi, fun y hy => (hl y hy).imp_right fun hmem => ?_⟩
        exact (List.mem_cons.1 hmem).resolve_left fun heq => hno.2 (heq ▸ hy)
    · exact ⟨h.1, fun x hx => (h.2 x hx).resolve_right (by simp)⟩

end Edit

/-! ## An open pass -/

variable {users' : AuthUsers}

section Scan

variable (key : String → String)

/-- An open pass `p` with the changes `cs` of a page still to apply. In an incremental pass the
connections on which the three places do not agree are still to come; in a full pass the peers of
the connections to keep are set. -/
structure Scan (full : Bool) (since t : ℤ) (short : Bool)
    (cs : List (Change (CredentialChange AmneziaCredential))) (fromID : String)
    (p : CredentialPass) (w : World AmneziaWGConnectionMaterial) : Prop where
  inPage : InPage amneziaAdapter full since t short cs fromID p.keep w
  isFull : p.full = full
  inv : PeersTracked key w
  changed : ∀ id ∈ w.dirty, Late w id
  keys : ∀ c ∈ cs, c.operation = .upsert → c.payload.payload.publicKey = key c.connectionID ∧
    trimSpace (key c.connectionID) = key c.connectionID
  rest : full = false → ∀ id, ¬ Agree key w.agent id → Pending short cs fromID id
  held : full = true → ∀ (id : String) (u : AuthUser), p.keep[id]? = some u →
    u.nativeAuthID = key id ∧ trimSpace (key id) = key id ∧ HasPeer w.agent (key id)
  current : ∀ (id : String) (u : AuthUser), p.current[id]? = some u →
    u.nativeAuthID = key id ∧ trimSpace (key id) = key id
  removed : ∀ (id : String) (u : AuthUser), p.removed[id]? = some u →
    full = false ∧ u.nativeAuthID = key id ∧ trimSpace (key id) = key id ∧
      id ∉ w.agent.users.rows ∧ ¬ fromID < id

variable {key} {full : Bool} {since t : ℤ} {short : Bool}
  {cs : List (Change (CredentialChange AmneziaCredential))} {fromID : String}
  {p : CredentialPass} {w w' : World AmneziaWGConnectionMaterial} {a : Agent}
  {c : Change (CredentialChange AmneziaCredential)} {id : String}

namespace Scan

theorem rely (h : Scan key full since t short cs fromID p w) (hr : PeerRely key w w') :
    Scan key full since t short cs fromID p w' where
  inPage := h.inPage.rely hr.toRely
  isFull := h.isFull
  inv := hr.peersTracked h.inv
  changed id hid := by
    rcases hr.row id with ⟨-, hdirty⟩ | ⟨-, r, hrow, hb⟩
    · exact hr.late h.inv.tracked (h.changed id (hdirty.1 hid))
    · intro v hv
      rw [hr.cursor] at hv
      obtain ⟨v', hv', hx, -⟩ := h.inv.tracked _ hv
      cases hx
      exact ⟨r, hrow, hb v hv'⟩
  keys := h.keys
  rest hf id hna := h.rest hf id fun ha => hna (hr.agree ha)
  held hf id u hu := by
    obtain ⟨h1, h2, h3⟩ := h.held hf id u hu
    exact ⟨h1, h2, hr.hasPeer h3⟩
  current := h.current
  removed := hr.users ▸ h.removed

theorem within : (peering key).Within (Scan key full since t short cs fromID p) :=
  ⟨fun _ _ hr h => h.rely hr, fun _ h => h.inv⟩

/-- The peer of the next connection may be added, if it is not below the cursor or has its row. -/
theorem adds (hkey : key.Injective) (h : Scan key full since t short (c :: cs) fromID p w)
    (ha : Adds (key c.connectionID) w.agent a) (hc : Late w c.connectionID ∨
      (c.connectionID ∈ w.agent.users.rows ∧ HasPeer w.agent (key c.connectionID))) :
    Scan key full since t short (c :: cs) fromID p { w with agent := a } where
  inPage := h.inPage.rely (rely_of_tables ha.users ha.state)
  isFull := h.isFull
  inv := h.inv.adds hkey ha (hc.imp_right fun hag => ha.agree (.inl hag) fun _ => hag.1)
  changed id hid := (h.changed id hid).congr (by rw [Agent.cursor, ha.state]; rfl)
  keys := h.keys
  rest hf id hna := by
    by_cases heq : id = c.connectionID
    · exact .inl (heq ▸ List.mem_cons_self)
    · exact h.rest hf id fun hag => hna (ha.agree hag fun hk => absurd (hkey hk) heq)
  held hf id u hu := by
    obtain ⟨h1, h2, h3⟩ := h.held hf id u hu
    exact ⟨h1, h2, ha.hasPeer h3⟩
  current := h.current
  removed := ha.users ▸ h.removed

section

variable (h : Scan key full since t short cs fromID p w)

include h

/-- Peers may be removed if they are not to be kept and their connections are still to come. -/
theorem removes (ha : Removes K w.agent a) (hK : ∀ id, K (key id) →
      (Late w id ∧ (full = true → id ∉ p.keep) ∧ (full = false → Pending short cs fromID id)) ∨
        (id ∉ w.agent.users.rows ∧ NoPeer w.agent (key id))) :
    Scan key full since t short cs fromID p { w with agent := a } where
  inPage := h.inPage.rely (rely_of_tables ha.users ha.state)
  isFull := h.isFull
  inv := h.inv.removes ha fun id hk => (hK id hk).imp_left And.left
  changed id hid := (h.changed id hid).congr (by rw [Agent.cursor, ha.state]; rfl)
  keys := h.keys
  rest hf id hna := by
    by_cases hk : K (key id)
    · rcases hK id hk with hp | hno
      · exact hp.2.2 hf
      · exact absurd (ha.agree (.inr hno) fun _ => hno.1) hna
    · exact h.rest hf id fun hag => hna (ha.agree hag fun hk' => absurd hk' hk)
  held hf id u hu := by
    obtain ⟨h1, h2, h3⟩ := h.held hf id u hu
    refine ⟨h1, h2, ha.hasPeer h3 fun hk => ?_⟩
    rcases hK id hk with hp | hno
    · exact hp.2.1 hf (mem_iff_exists_getElem?.2 ⟨u, hu⟩)
    · exact hno.2.1 h3.1
  current := h.current
  removed := ha.users ▸ h.removed

/-- The connection that is reported next has its peer and its row, or it is not below the
cursor. -/
theorem upsert_due (hact : amneziaAdapter.active r)
    (htold : w.server.rows[r.id]? = some r ∨ r.id ∈ w.dirty) :
    Late w r.id ∨ (r.id ∈ w.agent.users.rows ∧ HasPeer w.agent (key r.id)) := by
  by_cases hag : Agree key w.agent r.id
  · rcases hag with hrow | ⟨hrow, -⟩
    · exact .inr hrow
    · left
      rcases htold with hr | hdirty
      · refine h.inv.tracked.late fun heq => hrow ?_
        rw [wanted_of_row amneziaAdapter hr, if_pos hact] at heq
        exact mem_iff_exists_getElem?.2 ⟨_, heq⟩
      · exact h.changed _ hdirty
  · exact .inl (h.inv.late _ hag)

theorem delete_due (hact : ¬ amneziaAdapter.active r)
    (htold : w.server.rows[r.id]? = some r ∨ r.id ∈ w.dirty)
    (hrow : r.id ∈ w.agent.users.rows) : Late w r.id := by
  rcases htold with hr | hdirty
  · refine h.inv.tracked.late fun heq => ?_
    rw [wanted_of_row amneziaAdapter hr, if_neg hact] at heq
    rw [Std.ExtTreeMap.mem_iff_isSome_getElem?, heq] at hrow
    cases hrow
  · exact h.changed _ hdirty

end

theorem order_cons (h : Scan key full since t short (c :: cs) fromID p w) :
    fromID < c.connectionID := by
  have horder := h.inPage.order
  rw [List.map_cons, ascending_cons] at horder
  exact horder.1

/-- After an upsert in a full pass: the peer is set, and the row will be kept. -/
theorem keep (h : Scan key true since t short (c :: cs) fromID p w) (hact : amneziaAdapter.active r)
    (hnext : Next amneziaAdapter r true since t short c cs fromID p.keep w)
    (huser : peerUser c.payload = amneziaAdapter.user r) (hop : c.operation = .upsert)
    (hp : HasPeer w.agent (key c.connectionID)) :
    Scan key true since t short cs c.connectionID
      (p.keeping c.connectionID (peerUser c.payload)) w where
  inPage := by
    refine Next.write hnext _ (fun _ => rfl : true = true → w.agent.users = _) fun id => ?_
    simp only [if_true, p.getElem?_keep_keeping, shadow, hnext.2.1, Adapter.rowFor, hact, huser]
  isFull := h.isFull
  inv := h.inv
  changed := h.changed
  keys d hd := h.keys d (List.mem_cons_of_mem c hd)
  rest := nofun
  held _ id u hu := by
    rw [p.getElem?_keep_keeping] at hu
    split at hu
    · rename_i heq
      subst heq
      cases hu
      obtain ⟨hk, htrim⟩ := h.keys c List.mem_cons_self hop
      exact ⟨hk, htrim, hp⟩
    · exact h.held rfl id u hu
  current := h.current
  removed id u hu := absurd (h.removed id u hu).1 (by simp)

section

variable (h : Scan key false since t short (c :: cs) fromID p w)

include h

/-- After a change in an incremental pass: at most its own row has changed, and the three places
agree on its connection. -/
theorem changeRow {p' : CredentialPass}
    (hin : InPage amneziaAdapter false since t short cs c.connectionID p'.keep
      { w with agent := { w.agent with users := users' } })
    (hfull : p'.full = p.full) (hcurrent : p'.current = p.current)
    (hagree : Agree key { w.agent with users := users' } c.connectionID)
    (hother : ∀ id, id ≠ c.connectionID → users'.rows[id]? = w.agent.users.rows[id]?)
    (hrow : ∀ u, users'.rows[c.connectionID]? = some u → u.nativeAuthID = key c.connectionID ∧
      trimSpace (key c.connectionID) = key c.connectionID)
    (hremoved : ∀ (id : String) (u : AuthUser), p'.removed[id]? = some u →
      p.removed[id]? = some u ∨
        id = c.connectionID ∧ p.current[id]? = some u ∧ id ∉ users'.rows) :
    Scan key false since t short cs c.connectionID p'
      { w with agent := { w.agent with users := users' } } := by
  have hmem : ∀ id, id ≠ c.connectionID → (id ∈ users'.rows ↔ id ∈ w.agent.users.rows) := by
    intro id hne
    rw [mem_iff_exists_getElem?, mem_iff_exists_getElem?, hother id hne]
  have hna : ∀ id, ¬ Agree key { w.agent with users := users' } id →
      id ≠ c.connectionID ∧ ¬ Agree key w.agent id := by
    intro id hna
    have hne : id ≠ c.connectionID := fun heq => hna (heq ▸ hagree)
    exact ⟨hne, fun hag => hna (hag.imp (And.imp_left (hmem id hne).2)
      (And.imp_left (mt (hmem id hne).1)))⟩
  refine ⟨hin, hfull.trans h.isFull, ?_, h.changed,
    fun d hd => h.keys d (List.mem_cons_of_mem c hd),
    fun _ id hid => (h.rest rfl id (hna id hid).2).of_cons (hna id hid).1,
    fun hfull => absurd hfull Bool.false_ne_true, hcurrent ▸ h.current, fun id u hu => ?_⟩
  · refine ⟨hin.isOpen.tracked, h.inv.server, fun id u hu => ?_, h.inv.known,
      fun id hid => h.inv.late id (hna id hid).2⟩
    by_cases heq : id = c.connectionID
    · subst heq
      exact hrow u hu
    · exact h.inv.rows id u ((hother id heq).symm.trans hu)
  · rcases hremoved id u hu with hu | ⟨heq, hu, hgone⟩
    · obtain ⟨-, h1, h2, h3, h4⟩ := h.removed id u hu
      have hne : id ≠ c.connectionID := fun heq => h4 (heq ▸ h.order_cons)
      exact ⟨rfl, h1, h2, mt (hmem id hne).1 h3, fun hlt => h4 (h.order_cons.trans hlt)⟩
    · obtain ⟨h1, h2⟩ := h.current id u hu
      exact ⟨rfl, h1, h2, hgone, heq ▸ lt_irrefl _⟩

/-- After an upsert in an incremental pass: the peer is set and the row is written. -/
theorem store (hact : amneziaAdapter.active r)
    (hnext : Next amneziaAdapter r false since t short c cs fromID p.keep w)
    (huser : peerUser c.payload = amneziaAdapter.user r) (hop : c.operation = .upsert)
    (hp : HasPeer w.agent (key c.connectionID)) {rows : AuthUsers}
    (hu : w.agent.users.upsert (peerUser c.payload) = .ok rows) :
    Scan key false since t short cs c.connectionID
      (p.keeping c.connectionID (peerUser c.payload))
      { w with agent := { w.agent with users := rows } } := by
  have hc : (peerUser c.payload).connectionID = c.connectionID := by rw [huser, hnext.2.1]; rfl
  refine h.changeRow ?_ rfl rfl (.inl ⟨?_, hp⟩) (fun id hne => ?_) (fun u hv => ?_)
    fun id u hv => .inl hv
  · refine Next.write hnext _ (fun hfull => absurd hfull Bool.false_ne_true) fun id => ?_
    rw [if_neg Bool.false_ne_true, AuthUsers.rows_of_upsert hu, huser]
    simp only [Adapter.rowFor, hact, if_true, shadow, Bool.false_eq_true, if_false]
    rfl
  · exact (AuthUsers.mem_rows_of_upsert hu).2 (.inl hc.symm)
  · rw [AuthUsers.rows_of_upsert hu, hc, if_neg hne]
  · rw [AuthUsers.rows_of_upsert hu, hc, if_pos rfl] at hv
    cases hv
    exact h.keys c List.mem_cons_self hop

/-- After a delete in an incremental pass: the peer and the row are gone. -/
theorem delete (hact : ¬ amneziaAdapter.active r)
    (hnext : Next amneziaAdapter r false since t short c cs fromID p.keep w)
    (hp : NoPeer w.agent (key c.connectionID)) :
    Scan key false since t short cs c.connectionID (p.removing c.connectionID)
      { w with agent := { w.agent with users := w.agent.users.delete c.connectionID } } := by
  have hgone : c.connectionID ∉ (w.agent.users.delete c.connectionID).rows := fun h' =>
    (AuthUsers.mem_rows_delete.1 h').1 rfl
  refine h.changeRow ?_ (p.full_removing _) (p.current_removing _) (.inr ⟨hgone, hp⟩)
    (fun id hne => ?_) (fun u hv => ?_) fun id u hv => ?_
  · refine Next.write hnext _ (fun hfull => absurd hfull Bool.false_ne_true) fun id => ?_
    rw [if_neg Bool.false_ne_true, AuthUsers.rows_delete, hnext.2.1]
    simp only [Adapter.rowFor, hact, Bool.false_eq_true, if_false, shadow]
  · rw [AuthUsers.rows_delete, if_neg hne]
  · exact absurd (mem_iff_exists_getElem?.2 ⟨u, hv⟩) hgone
  · rw [p.getElem?_removed_removing] at hv
    split at hv
    · rename_i heq
      rcases Option.or_eq_some_iff.1 hv with hv | ⟨-, hv⟩
      · exact .inr ⟨heq, hv, heq ▸ hgone⟩
      · exact .inl hv
    · exact .inl hv

end

end Scan

/-! ## Applying a change -/

variable (key) in
/-- The next change of the page reports `r`. -/
def Facing (r : SyncRow AmneziaWGConnectionMaterial) (full : Bool) (since t : ℤ) (short : Bool)
    (c : Change (CredentialChange AmneziaCredential))
    (cs : List (Change (CredentialChange AmneziaCredential))) (fromID : String)
    (p : CredentialPass) (w : World AmneziaWGConnectionMaterial) : Prop :=
  Scan key full since t short (c :: cs) fromID p w ∧
    Next amneziaAdapter r full since t short c cs fromID p.keep w

variable {r : SyncRow AmneziaWGConnectionMaterial}

theorem Facing.within : (peering key).Within (Facing key r full since t short c cs fromID p) :=
  Scan.within.and fun _ _ hr h => Next.rely h (PeerRely.toRely hr)

theorem Facing.adds (hkey : key.Injective) (hact : amneziaAdapter.active r) :
    ClosedUnder (Adds (key c.connectionID))
      (Facing key r full since t short c cs fromID p) := by
  rintro w a ⟨h, hnext⟩ ha
  refine ⟨h.adds hkey ha ?_, Next.rely hnext (rely_of_tables ha.users ha.state)⟩
  rw [hnext.2.1]
  exact h.upsert_due hact hnext.2.2.2

theorem Facing.removes (hkey : key.Injective) (hact : ¬ amneziaAdapter.active r) :
    ClosedUnder (Removes (· = key c.connectionID))
      (Facing key r false since t short c cs fromID p) := by
  rintro w a ⟨h, hnext⟩ ha
  refine ⟨h.removes ha fun id hid => ?_,
    Next.rely hnext (rely_of_tables ha.users ha.state)⟩
  obtain rfl := hkey hid
  by_cases hag : Agree key w.agent c.connectionID
  · rcases hag with ⟨hrow, -⟩ | hno
    · refine .inl ⟨?_, nofun, fun _ => .inl List.mem_cons_self⟩
      rw [hnext.2.1] at hrow ⊢
      exact h.delete_due hact hnext.2.2.2 hrow
    · exact .inr hno
  · exact .inl ⟨h.inv.late _ hag, nofun, fun _ => .inl List.mem_cons_self⟩

theorem upsertChange_peering (hkey : key.Injective) (hact : amneziaAdapter.active r)
    (huser : peerUser c.payload = amneziaAdapter.user r) (hop : c.operation = .upsert)
    (h : Facing key r full since t short c cs fromID p w) :
    (peering key).Keeps (do
      let u ← amneziaSync.runtime.applyCredential c.payload
      p.unlessFull (amneziaSync.store.upsertAuthUser u)
      return p.keeping c.connectionID u : Sync AmneziaCredential CredentialPass)
      (Scan key full since t short cs c.connectionID) w := by
  obtain ⟨hk, htrim⟩ := h.1.keys c List.mem_cons_self hop
  have hpeer : (peering key).Within fun w =>
      Facing key r full since t short c cs fromID p w ∧ HasPeer w.agent (key c.connectionID) :=
    Facing.within.and fun _ _ hr h => PeerRely.hasPeer hr h
  refine Safe.seq (Q := fun u w => u = peerUser c.payload ∧
    Facing key r full since t short c cs fromID p w ∧ HasPeer w.agent (key c.connectionID)) ?_ ?_
  · refine Safe.seq (Reconciler.upsertPeer_safe Facing.within (by rw [hk, htrim])
      (Facing.adds hkey hact) h) fun _ w h => ?_
    exact Safe.ok fun w' hr => ⟨rfl, hpeer.stable _ _ hr h⟩
  rintro u w ⟨rfl, h⟩
  have hfull := h.1.1.isFull
  cases full with
  | true =>
    simp only [CredentialPass.unlessFull, hfull, if_true]
    refine Safe.seq (Q := fun _ w => Facing key r true since t short c cs fromID p w ∧
      HasPeer w.agent (key c.connectionID)) (Safe.ok fun w' hr => hpeer.stable _ _ hr h)
      fun _ w h => Safe.ok fun w' hr => ?_
    obtain ⟨⟨hscan, hnext⟩, hp⟩ := hpeer.stable _ _ hr h
    exact hscan.keep hact hnext huser hop hp
  | false =>
    simp only [CredentialPass.unlessFull, hfull, Bool.false_eq_true, if_false]
    refine Safe.seq (Q := fun _ => Scan key false since t short cs c.connectionID
      (p.keeping c.connectionID (peerUser c.payload)))
      (Passing.call_safe (c := .upsertAuthUser (peerUser c.payload)) hpeer
        (fun _ => Scan.within.stable) (fun w x a h _ he => ?_) h) fun _ w h =>
          Safe.ok fun w' hr => h.rely hr
    obtain ⟨rows, hu, he⟩ := Except.map_eq_ok.1 he
    cases he
    have hscan := h.1.1.store hact h.1.2 huser hop h.2 hu
    exact ⟨hscan.inv, hscan⟩

variable (key) in
/-- The rows `l` are still to be looked at for the one to delete. -/
def Deleting (r : SyncRow AmneziaWGConnectionMaterial) (since t : ℤ) (short : Bool)
    (c : Change (CredentialChange AmneziaCredential))
    (cs : List (Change (CredentialChange AmneziaCredential))) (fromID : String)
    (p : CredentialPass) (l : List AuthUser) (w : World AmneziaWGConnectionMaterial) : Prop :=
  Facing key r false since t short c cs fromID p w ∧
    (∀ u ∈ l, w.agent.users.rows[u.connectionID]? = some u) ∧
    (c.connectionID ∈ w.agent.users.rows →
      NoPeer w.agent (key c.connectionID) ∨ c.connectionID ∈ l.map (·.connectionID))

variable {l : List AuthUser}

theorem Deleting.within :
    (peering key).Within (Deleting key r since t short c cs fromID p l) := by
  refine Facing.within.and fun w w' hr h => ?_
  rw [(PeerRely.toRely hr).users]
  exact ⟨h.1, fun hrow => (h.2 hrow).imp_left (PeerRely.noPeer hr)⟩

section

variable (hkey : key.Injective)

include hkey

section

variable (hact : ¬ amneziaAdapter.active r)

include hact

theorem Deleting.removes :
    ClosedUnder (Removes (· = key c.connectionID))
      (Deleting key r since t short c cs fromID p l) := by
  rintro w a h ha
  refine ⟨Facing.removes hkey hact _ _ h.1 ha, ha.users ▸ h.2.1, fun hrow => ?_⟩
  exact (h.2.2 (ha.users ▸ hrow)).imp_left ha.noPeer

/-- The rows that the store goes through, one after the other. -/
theorem Deleting.loop (h : Deleting key r since t short c cs fromID p l w) :
    (peering key).Keeps (l.forM fun user =>
      if user.connectionID = c.connectionID then Reconciler.removePeer user.nativeAuthID
      else pure () : Sync AmneziaCredential Unit)
      (fun _ => Deleting key r since t short c cs fromID p []) w := by
  refine Safe.forM (Deleting key r since t short c cs fromID p) (fun u l w h => ?_) (fun w h => h)
    l w fun w' hr => Deleting.within.stable _ _ hr h
  have hrow := h.2.1 u List.mem_cons_self
  by_cases hu : u.connectionID = c.connectionID
  · rw [if_pos hu]
    obtain ⟨hnative, htrim⟩ := h.1.1.inv.rows _ u hrow
    rw [hu] at hnative htrim
    refine (Reconciler.removePeer_safe Deleting.within (by rw [hnative, htrim])
      (Deleting.removes hkey hact) h).imp fun _ w' hw' => ?_
    exact ⟨hw'.1.1, fun v hv => hw'.1.2.1 v (List.mem_cons_of_mem u hv), fun _ => .inl hw'.2⟩
  · rw [if_neg hu]
    refine Safe.ok fun w' hr => ?_
    obtain ⟨hf, hl, hpeer⟩ := Deleting.within.stable _ _ hr h
    refine ⟨hf, fun v hv => hl v (List.mem_cons_of_mem u hv), fun hrow => ?_⟩
    refine (hpeer hrow).imp_right fun hmem => ?_
    rw [List.map_cons, List.mem_cons] at hmem
    exact hmem.resolve_left fun heq => hu heq.symm

theorem deleteChange_peering (h : Facing key r full since t short c cs fromID p w) :
    (peering key).Keeps (do
      p.unlessFull (amneziaSync.store.deleteAuthUser c.connectionID)
      return p.removing c.connectionID : Sync AmneziaCredential CredentialPass)
      (Scan key full since t short cs c.connectionID) w := by
  obtain rfl : full = false := by
    rw [← Bool.not_eq_true]
    exact fun hf => hact (h.2.2.2.1 hf)
  simp only [CredentialPass.unlessFull, h.1.isFull, Bool.false_eq_true, if_false]
  refine Safe.seq (Q := fun _ => Scan key false since t short cs c.connectionID
    (p.removing c.connectionID)) ?_ fun _ w h => Safe.ok fun w' hr => h.rely hr
  refine Safe.seq (Q := fun l => Deleting key r since t short c cs fromID p l)
    (Passing.call_safe (c := .listAuthUsers) Facing.within (fun _ => Deleting.within.stable)
      (fun w x a h _ he => ?_) h) fun l w h => ?_
  · cases he
    refine ⟨h.1.inv, h, fun u hu => AuthUsers.mem_list.1 hu, fun hrow => .inr ?_⟩
    obtain ⟨u, hu⟩ := mem_iff_exists_getElem?.1 hrow
    have hid := w.agent.users.keyed _ u hu
    exact List.mem_map.2 ⟨u, AuthUsers.mem_list.2 (hid ▸ hu), hid⟩
  refine Safe.seq (Deleting.loop hkey hact h) fun _ w h => ?_
  refine Passing.call_safe (c := .deleteAuthUser c.connectionID) Deleting.within
    (fun _ => Scan.within.stable) (fun w x a h hadm he => ?_) h
  cases he
  have hno : NoPeer w.agent (key c.connectionID) :=
    hadm.elim (fun hrow => (h.2.2 hrow).resolve_right (by simp)) id
  have hscan := h.1.1.delete hact h.1.2 hno
  exact ⟨hscan.inv, hscan⟩

end

theorem applySyncChange_peering (h : Scan key full since t short (c :: cs) fromID p w) :
    (peering key).Keeps (amneziaSync.applySyncChange p c)
      (Scan key full since t short cs c.connectionID) w := by
  obtain ⟨g, r, rfl, hfull, htold⟩ := h.inPage.told c List.mem_cons_self
  obtain ⟨hid, hop⟩ := decodeChange_spec (A := amneziaAdapter) g r
  have hfacing : Facing key r full since t short _ cs fromID p w :=
    ⟨h, h.inPage, hid, hfull, htold⟩
  unfold CredentialSync.applySyncChange
  by_cases hact : amneziaAdapter.active r
  · rw [if_pos hact] at hop
    simp only [hop]
    exact upsertChange_peering hkey hact (amneziaAdapter.userOf_change g r hact) hop hfacing
  · rw [if_neg hact] at hop
    simp only [hop]
    exact deleteChange_peering hkey hact hfacing

end

end Scan

/-! ## The end of a pass -/

section Finish

variable (key : String → String)

/-- A pass that has come to its end with the table `rows`: the three places agree. -/
structure Aligned (t : ℤ) (rows : Std.ExtTreeMap String AuthUser)
    (w : World AmneziaWGConnectionMaterial) : Prop where
  settled : Settled amneziaAdapter t w
  table : w.agent.users.rows = rows
  inv : PeersTracked key w
  agree : ∀ id, Agree key w.agent id
  known : ∀ k, k ∈ peerKeys w.agent.snapshot ∨ k ∈ w.agent.runtime → ∃ id, key id = k

variable {key} {since t : ℤ} {fromID : String} {p : CredentialPass}
  {rows keep : Std.ExtTreeMap String AuthUser} {w w' : World AmneziaWGConnectionMaterial}
  {l : List AuthUser} {id k : String}

theorem mem_nativeKeys :
    k ∈ nativeKeys keep ↔
      ∃ (id : String) (u : AuthUser), keep[id]? = some u ∧ u.nativeAuthID = k := by
  rw [nativeKeys, Std.ExtTreeSet.mem_ofList, List.contains_iff_mem, List.mem_map]
  constructor
  · rintro ⟨u, hu, rfl⟩
    obtain ⟨id, hid⟩ := mem_users.1 hu
    exact ⟨id, u, hid, rfl⟩
  · rintro ⟨id, u, hid, rfl⟩
    exact ⟨u, mem_users.2 ⟨id, hid⟩, rfl⟩

theorem Aligned.rely (h : Aligned key t rows w) (hr : PeerRely key w w') :
    Aligned key t rows w' where
  settled := h.settled.rely hr.toRely
  table := hr.users ▸ h.table
  inv := hr.peersTracked h.inv
  agree id := hr.agree (h.agree id)
  known k hk := by
    refine h.known k ?_
    rcases hk with hk | hk
    · exact .inl (hr.snapshot ▸ hk)
    · exact (hr.mem_runtime hk).symm

theorem Aligned.within : (peering key).Within (Aligned key t rows) :=
  ⟨fun _ _ hr h => h.rely hr, fun _ h => h.inv⟩

theorem Aligned.removes (hK : ∀ id, K (key id) → id ∉ rows) :
    ClosedUnder (Removes K) (Aligned key t rows) := by
  rintro w a h ha
  have hK' : ∀ id, K (key id) → id ∉ w.agent.users.rows := fun id hk => h.table ▸ hK id hk
  refine ⟨h.settled.rely (rely_of_tables ha.users ha.state), ?_, h.inv.removes ha fun id hk => ?_,
    fun id => ha.agree (h.agree id) (hK' id), fun k hk => ?_⟩
  · exact (congrArg AuthUsers.rows ha.users).trans h.table
  · exact .inr ⟨hK' id hk, ((h.agree id).resolve_left fun hrow => hK' id hk hrow.1).2⟩
  · exact h.known k (hk.imp (ha.snapshot_mono k) (ha.runtime_mono k))

section

variable (h : Aligned key t rows w)

include h

theorem Aligned.key_mem (hrow : id ∈ w.agent.users.rows) :
    key id ∈ nativeKeys rows := by
  obtain ⟨u, hu⟩ := mem_iff_exists_getElem?.1 hrow
  exact mem_nativeKeys.2 ⟨id, u, h.table ▸ hu, (h.inv.rows id u hu).1⟩

theorem Aligned.snapshot :
    ∀ k ∈ peerKeys w.agent.snapshot, k ∈ nativeKeys rows := by
  intro k hk
  obtain ⟨id, rfl⟩ := h.known k (.inl hk)
  exact h.key_mem ((h.agree id).resolve_right fun hno => hno.2.1 hk).1

theorem Aligned.runtime :
    ∀ k ∈ w.agent.runtime, k ∈ nativeKeys rows := by
  intro k hk
  obtain ⟨id, rfl⟩ := h.known k (.inr hk)
  exact h.key_mem ((h.agree id).resolve_right fun hno => hno.2.2 hk).1

theorem Aligned.hasPeer (hk : k ∈ nativeKeys rows) :
    HasPeer w.agent k := by
  obtain ⟨id, u, hu, rfl⟩ := mem_nativeKeys.1 hk
  rw [← h.table] at hu
  have hrow : id ∈ w.agent.users.rows := mem_iff_exists_getElem?.2 ⟨u, hu⟩
  rw [(h.inv.rows id u hu).1]
  exact ((h.agree id).resolve_right fun hno => hno.1 hrow).2

end

/-- The peers that a pass removes at its end are those of rows that are gone. -/
theorem leaving_safe (hkey : key.Injective)
    (hl : ∀ u ∈ l, ∃ id, u.nativeAuthID = key id ∧ trimSpace (key id) = key id ∧ id ∉ rows)
    (h : Aligned key t rows w) :
    (peering key).Keeps (l.forM amneziaSync.runtime.removeCredential)
      (fun _ => Aligned key t rows) w := by
  refine Safe.forM (fun l w => (∀ u ∈ l, ∃ id, u.nativeAuthID = key id ∧
    trimSpace (key id) = key id ∧ id ∉ rows) ∧ Aligned key t rows w)
    (fun u l w h => ?_) (fun w h => h.2) l w fun w' hr => ⟨hl, h.rely hr⟩
  obtain ⟨id, hnative, htrim, hrow⟩ := h.1 u List.mem_cons_self
  rw [amnezia_removeCredential]
  refine (Reconciler.removePeer_safe Aligned.within (by rw [hnative, htrim])
    (Aligned.removes fun i hi => ?_) h.2).imp fun _ w' hw' => ?_
  · rwa [hkey hi]
  · exact ⟨fun v hv => h.1 v (List.mem_cons_of_mem u hv), hw'.1⟩

theorem Scan.spare (h : Scan key true since t true [] fromID p w) (hid : id ∉ p.keep) :
    Late w id ∨ (id ∉ w.agent.users.rows ∧ NoPeer w.agent (key id)) := by
  by_cases hag : Agree key w.agent id
  · rcases hag with ⟨hrow, -⟩ | hno
    · left
      by_cases hd : Differs amneziaAdapter p.keep w id
      · exact h.changed id (h.inPage.rest hd)
      · refine h.inv.tracked.late fun heq => ?_
        rw [Differs, not_not, Std.ExtTreeMap.getElem?_eq_none hid] at hd
        rw [Std.ExtTreeMap.mem_iff_isSome_getElem?, heq, ← hd] at hrow
        cases hrow
    · exact .inr hno
  · exact .inl (h.inv.late id hag)

theorem Scan.key_mem_nativeKeys (hkey : key.Injective)
    (h : Scan key true since t true [] fromID p w) : key id ∈ nativeKeys p.keep ↔ id ∈ p.keep := by
  rw [mem_nativeKeys, mem_iff_exists_getElem?]
  constructor
  · rintro ⟨i, u, hu, hk⟩
    obtain rfl := hkey ((h.held rfl i u hu).1.symm.trans hk)
    exact ⟨u, hu⟩
  · rintro ⟨u, hu⟩
    exact ⟨id, u, hu, (h.held rfl id u hu).1⟩

theorem Scan.prunes (hkey : key.Injective) :
    ClosedUnder (Removes (· ∉ nativeKeys p.keep)) (Scan key true since t true [] fromID p) := by
  rintro w a h ha
  refine h.removes ha fun id hid => ?_
  have hkeep : id ∉ p.keep := fun hk => hid ((h.key_mem_nativeKeys hkey).2 hk)
  exact (h.spare hkeep).imp_left fun hl => ⟨hl, fun _ => hkeep, nofun⟩

/-- The rows `l` of a full pass are still to be looked at. -/
def Sweeping (key : String → String) (since t : ℤ) (fromID : String) (p : CredentialPass)
    (l : List AuthUser) (w : World AmneziaWGConnectionMaterial) : Prop :=
  Scan key true since t true [] fromID p w ∧
    ∀ u ∈ l, w.agent.users.rows[u.connectionID]? = some u

theorem Sweeping.within : (peering key).Within (Sweeping key since t fromID p l) :=
  Scan.within.and fun _ _ hr h => (PeerRely.toRely hr).users ▸ h

section

variable (hkey : key.Injective)

include hkey

theorem Sweeping.prunes :
    ClosedUnder (Removes (· ∉ nativeKeys p.keep)) (Sweeping key since t fromID p l) := by
  rintro w a h ha
  exact ⟨Scan.prunes hkey _ _ h.1 ha, ha.users ▸ h.2⟩

/-- The peers of the rows that are not kept. -/
theorem Sweeping.loop (h : Sweeping key since t fromID p l w) :
    (peering key).Keeps (l.forM fun user =>
      if p.keep.contains user.connectionID then pure ()
      else Reconciler.removePeer user.nativeAuthID : Sync AmneziaCredential Unit)
      (fun _ => Scan key true since t true [] fromID p) w := by
  refine Safe.forM (Sweeping key since t fromID p) (fun u l w h => ?_) (fun w h => h.1)
    l w fun w' hr => Sweeping.within.stable _ _ hr h
  have hrow := h.2 u List.mem_cons_self
  by_cases hu : p.keep.contains u.connectionID
  · rw [if_pos hu]
    refine Safe.ok fun w' hr => ?_
    obtain ⟨hscan, hl⟩ := Sweeping.within.stable _ _ hr h
    exact ⟨hscan, fun v hv => hl v (List.mem_cons_of_mem u hv)⟩
  · rw [if_neg hu]
    obtain ⟨hnative, htrim⟩ := h.1.inv.rows _ u hrow
    have hspare : key u.connectionID ∉ nativeKeys p.keep := fun hk =>
      hu (Std.ExtTreeMap.contains_iff_mem.2 ((h.1.key_mem_nativeKeys hkey).1 hk))
    refine (Reconciler.removePeer_safe (k := key u.connectionID) Sweeping.within
      (by rw [hnative, htrim]) (fun w a h ha => ?_) h).imp fun _ w' hw' => ?_
    · refine Sweeping.prunes hkey _ _ h (ha.mono ?_)
      rintro x rfl
      exact hspare
    · exact ⟨hw'.1.1, fun v hv => hw'.1.2 v (List.mem_cons_of_mem u hv)⟩

section

variable (h : Scan key true since t true [] fromID p w)

include h

/-- The commit of a full pass, once the snapshot and the interface are pruned. -/
theorem Scan.commit (hsnap : ∀ k ∈ peerKeys w.agent.snapshot, k ∈ nativeKeys p.keep)
    (hrun : ∀ k ∈ w.agent.runtime, k ∈ nativeKeys p.keep)
    (hu : AuthUsers.replace (users p.keep) = .ok users') :
    Aligned key t p.keep { w with agent := { w.agent with
      users := users'
      state := w.agent.state.insert authSyncCursorKey (.int t) } } := by
  have hrows : users'.rows = p.keep :=
    rows_of_replace_users (fun id u hu => (h.inPage.isOpen.keyed rfl id u hu).1) hu
  have hsettled := h.inPage.commit hu
  have hagree : ∀ id, Agree key { w.agent with
      users := users'
      state := w.agent.state.insert authSyncCursorKey (.int t) } id := by
    intro id
    by_cases hid : id ∈ p.keep
    · obtain ⟨u, hu⟩ := mem_iff_exists_getElem?.1 hid
      exact .inl ⟨hrows ▸ hid, (h.held rfl id u hu).2.2⟩
    · have hno : key id ∉ nativeKeys p.keep := fun hk => hid ((h.key_mem_nativeKeys hkey).1 hk)
      exact .inr ⟨hrows ▸ hid, fun hk => hno (hsnap _ hk), fun hk => hno (hrun _ hk)⟩
  have hknown : ∀ k, k ∈ peerKeys w.agent.snapshot ∨ k ∈ w.agent.runtime → ∃ id, key id = k := by
    intro k hk
    obtain ⟨id, u, hu, rfl⟩ := mem_nativeKeys.1 (hk.elim (hsnap k) (hrun k))
    exact ⟨id, (h.held rfl id u hu).1.symm⟩
  refine ⟨hsettled, hrows, ⟨hsettled.tracked, h.inv.server, fun id u hv => ?_, fun _ => hknown,
    fun id hna => absurd (hagree id) hna⟩, hagree, hknown⟩
  change users'.rows[id]? = some u at hv
  rw [hrows] at hv
  obtain ⟨h1, h2, -⟩ := h.held rfl id u hv
  exact ⟨h1, h2⟩

theorem applyFullAuthSnapshot_peering :
    (peering key).Keeps (amneziaSync.store.applyFullAuthSnapshot p.keep authSyncCursorKey t)
      (fun _ => Aligned key t p.keep) w := by
  have hpruned : (peering key).Within fun w => Scan key true since t true [] fromID p w ∧
      ∀ k ∈ peerKeys w.agent.snapshot, k ∈ nativeKeys p.keep :=
    Scan.within.and fun _ _ hr h => PeerRely.snapshot hr ▸ h
  refine Safe.seq (Q := fun l => Sweeping key since t fromID p l)
    (Passing.call_safe (c := .listAuthUsers) Scan.within (fun _ => Sweeping.within.stable)
      (fun w x a h _ he => ?_) h) fun l w h => ?_
  · cases he
    exact ⟨h.inv, h, fun u hu => AuthUsers.mem_list.1 hu⟩
  refine Safe.seq (Sweeping.loop hkey h) fun _ w h => ?_
  refine Safe.seq (Passing.call_safe (c := .prunePeers (nativeKeys p.keep)) Scan.within
    (fun _ => hpruned.stable) (fun w x a h _ he => ?_) h) fun _ w h => ?_
  · cases he
    have hscan := Scan.prunes hkey _ _ h (removes_prunePeers (nativeKeys p.keep) w.agent)
    exact ⟨hscan.inv, hscan, fun k hk => (mem_peerKeys_prunePeers.1 hk).2⟩
  refine Safe.seq (Reconciler.pruneRuntimePeers_safe hpruned (fun _ h => h.2)
    (fun w a h ha => ?_) h) fun _ w h => ?_
  · exact ⟨Scan.prunes hkey _ _ h.1 ha, fun k hk => h.2 k (ha.snapshot_mono k hk)⟩
  refine Passing.call_safe (c := .applyFullAuthSnapshot (users p.keep) authSyncCursorKey t)
    (I := fun w => (Scan key true since t true [] fromID p w ∧
      ∀ k ∈ peerKeys w.agent.snapshot, k ∈ nativeKeys p.keep) ∧
      ∀ k ∈ w.agent.runtime, k ∈ nativeKeys p.keep)
    ⟨fun _ _ hr h => ⟨hpruned.stable _ _ hr h.1, fun k hk =>
      (PeerRely.mem_runtime hr hk).elim (h.2 k) (h.1.2 k)⟩, fun _ h => h.1.1.inv⟩
    (fun _ => Aligned.within.stable) (fun w x a h _ he => ?_) h
  obtain ⟨rows, hu, he⟩ := Except.map_eq_ok.1 he
  cases he
  have hal := h.1.1.commit hkey h.1.2 h.2 hu
  exact ⟨hal.inv, hal⟩

end

end

theorem Scan.aligned (h : Scan key false since t true [] fromID p w) :
    Aligned key t w.agent.users.rows w where
  settled := h.inPage.settled
  table := rfl
  inv := h.inv
  agree id := not_not.1 fun hna => not_pending_nil (h.rest rfl id hna)
  known := by
    refine h.inv.known ?_
    rw [(h.inPage.isOpen.cursor rfl).1]
    exact Option.some_ne_none _

theorem finishSyncPass_peering (hkey : key.Injective) (order : MapOrder) (r : PassResult)
    (hr : r.manifestStartedAtMS = t) {full : Bool} (h : Scan key full since t true [] fromID p w) :
    (peering key).Keeps (amneziaSync.finishSyncPass order p r)
      (fun _ w => ∃ rows, Aligned key t rows w) w := by
  have hp := h.isFull
  unfold CredentialSync.finishSyncPass
  cases full with
  | false =>
    simp only [CredentialPass.whenFull, hp, Bool.false_eq_true, if_false]
    refine Safe.seq (Q := fun _ => Scan key false since t true [] fromID p)
      (Safe.ok fun w' hr => h.rely hr) fun _ w h => ?_
    refine Safe.seq (leaving_safe hkey (fun u hu => ?_) h.aligned) fun _ w' h' =>
      Safe.ok fun w'' hr => ⟨_, h'.rely hr⟩
    obtain ⟨id, hid⟩ := mem_users.1 ((order.perm _).mem_iff.1 hu)
    rw [p.leaving_incremental hp] at hid
    obtain ⟨-, h1, h2, h3, -⟩ := h.removed id u hid
    exact ⟨id, h1, h2, h3⟩
  | true =>
    simp only [CredentialPass.whenFull, hp, if_true, hr]
    have hl : ∀ u ∈ order.iterate (users p.leaving), ∃ id, u.nativeAuthID = key id ∧
        trimSpace (key id) = key id ∧ id ∉ p.keep := by
      intro u hu
      obtain ⟨id, hid⟩ := mem_users.1 ((order.perm _).mem_iff.1 hu)
      have hnone : p.removed[id]? = none := by
        rcases hv : p.removed[id]? with - | v
        · rfl
        · exact absurd (h.removed id v hv).1 (by simp)
      rw [p.getElem?_leaving_full hp, hnone, Option.or_none] at hid
      split at hid
      · cases hid
      · rename_i hkeep
        obtain ⟨h1, h2⟩ := h.current id u hid
        exact ⟨id, h1, h2, hkeep⟩
    refine Safe.seq (applyFullAuthSnapshot_peering hkey h) fun _ w h => ?_
    refine Safe.seq (leaving_safe hkey hl h) fun _ w h => ?_
    refine (Reconciler.pruneRuntimePeers_safe Aligned.within (fun _ h => h.snapshot)
      (fun w a h ha => ?_) h).imp fun _ w' hw' => ⟨_, hw'.1⟩
    exact Aligned.removes (fun id hid hrow => hid (h.key_mem (h.table ▸ hrow))) _ _ h ha

theorem saveCursor_peering (h : ∃ rows, Aligned key t rows w) :
    (peering key).Keeps ((authCursor amneziaSync.store).saveSyncCursor authSyncCursorKey t)
      (fun _ w => ∃ t rows, Aligned key t rows w) w := by
  obtain ⟨rows, h⟩ := h
  refine (Passing.call_safe (c := .setState authSyncCursorKey (.int t))
    (Q := fun _ => Aligned key t rows) Aligned.within (fun _ => Aligned.within.stable)
    (fun w x a h _ he => ?_) h).imp fun _ w hw => ⟨t, rows, hw⟩
  cases he
  have htr := h.settled.saved
  have hinv : PeersTracked key { w with agent := { w.agent with
      state := w.agent.state.insert authSyncCursorKey (.int t) } } :=
    ⟨htr.tracked, h.inv.server, h.inv.rows, fun _ => h.known,
      fun id hna => absurd (h.agree id) hna⟩
  exact ⟨hinv, htr, h.table, hinv, h.agree, h.known⟩

end Finish

/-! ## The pass -/

section Pass

variable {key : String → String} {full : Bool} {since t : ℤ} {short : Bool}
  {cs : List (Change (CredentialChange AmneziaCredential))} {fromID : String}
  {p : CredentialPass} {w : World AmneziaWGConnectionMaterial} {pageSize : ℤ}

theorem PeersTracked.pending (h : PeersTracked key w) (hcur : w.agent.cursor = some (.int since))
    (hsize : validatePageSize pageSize = .ok ()) (g : ℤ) {id : String}
    (hna : ¬ Agree key w.agent id) (hfrom : fromID < id) :
    Pending ((amneziaAdapter.page w.server.node g ⟨false, since, pageSize, fromID⟩).length <
      pageSize) (amneziaAdapter.page w.server.node g ⟨false, since, pageSize, fromID⟩) fromID
      id := by
  obtain ⟨r, hr, hle⟩ := h.late id hna since hcur
  exact Open.pending_of_selects hsize g hr (selects_of_le hr hle g) hfrom

theorem KeyedRows.page (h : KeyedRows key w.server) (g : ℤ) (request : Request) :
    ∀ c ∈ amneziaAdapter.page w.server.node g request, c.operation = .upsert →
      c.payload.payload.publicKey = key c.connectionID ∧
        trimSpace (key c.connectionID) = key c.connectionID := by
  intro c hc hop
  obtain ⟨r, hr, rfl, -⟩ := amneziaAdapter.mem_page w.server.node g request hc
  obtain ⟨hid, hop'⟩ := decodeChange_spec (A := amneziaAdapter) g r
  have hact : amneziaAdapter.active r := by
    by_contra hact
    rw [hop', if_neg hact] at hop
    cases hop
  have hk := h r.id r (ServerRows.mem_node.1 hr) hact
  have huser := congrArg AuthUser.nativeAuthID (amneziaAdapter.userOf_change g r hact)
  rw [hid, ← hk, trimSpace_idem]
  exact ⟨huser, rfl⟩

variable (key) in
/-- A pass that is about to ask for its first page. -/
def PeersReady (full : Bool) (since : ℤ) (w : World AmneziaWGConnectionMaterial) : Prop :=
  Ready amneziaAdapter full since w ∧ PeersTracked key w

theorem PeersReady.within : (peering key).Within (PeersReady key full since) :=
  ⟨fun _ _ hr h => ⟨h.1.rely (PeerRely.toRely hr), PeerRely.peersTracked hr h.2⟩, fun _ h => h.2⟩

theorem PeersReady.page (h : PeersReady key full since w)
    (hsize : validatePageSize pageSize = .ok ()) (g now : ℤ) :
    Scan key (full || (full || since = 0)) since now
      ((amneziaAdapter.page w.server.node g ⟨full || since = 0, since, pageSize, ""⟩).length <
        pageSize)
      (amneziaAdapter.page w.server.node g ⟨full || since = 0, since, pageSize, ""⟩) ""
      ⟨full || (full || since = 0), ∅, ∅, ∅⟩ (w.serve ⟨full, since, pageSize, ""⟩ now) where
  inPage := h.1.page hsize g now
  isFull := rfl
  inv := (peering key).serve w _ now h.2
  changed id hid := by simp [World.serve] at hid
  keys := h.2.server.page g _
  rest hf id hna := by
    simp only [Bool.or_eq_false_iff, decide_eq_false_iff_not] at hf
    obtain ⟨rfl, -, hne⟩ := hf
    obtain ⟨r, hr, -⟩ := h.2.late id hna since (h.1.cursor rfl)
    have hpend := h.2.pending (h.1.cursor rfl) hsize g hna (empty_lt (w.server.nonempty id r hr))
    simpa [hne] using hpend
  held _ id u hu := by simp at hu
  current id u hu := by simp at hu
  removed id u hu := by simp at hu

theorem Scan.page (h : Scan key full since t false [] fromID p w)
    (hsize : validatePageSize pageSize = .ok ()) (g now : ℤ) :
    Scan key full since t
      ((amneziaAdapter.page w.server.node g ⟨full || since = 0, since, pageSize, fromID⟩).length <
        pageSize)
      (amneziaAdapter.page w.server.node g ⟨full || since = 0, since, pageSize, fromID⟩) fromID p
      (w.serve ⟨full, since, pageSize, fromID⟩ now) where
  inPage := h.inPage.page hsize g now
  isFull := h.isFull
  inv := (peering key).serve w _ now h.inv
  changed id hid := by
    simp only [World.serve, h.inPage.moved rfl rfl, if_false] at hid
    exact h.changed id hid
  keys := h.inv.server.page g _
  rest hf id hna := by
    rw [h.inPage.full_or]
    subst hf
    rcases h.rest rfl id hna with hp | ⟨-, hlt, -⟩
    · cases hp
    · exact h.inv.pending (h.inPage.isOpen.cursor rfl).1 hsize g hna hlt
  held := h.held
  current := h.current
  removed := h.removed

theorem beginSyncPass_peering (h : Scan key full since t short cs "" ⟨full, ∅, ∅, ∅⟩ w) :
    (peering key).Keeps (amneziaSync.beginSyncPass full) (Scan key full since t short cs "") w := by
  refine Safe.seq (Q := fun l => Scan key full since t short cs "" ⟨full, indexUsers l, ∅, ∅⟩)
    (Passing.call_safe (c := .listAuthUsers) Scan.within (fun _ => Scan.within.stable)
      (fun w x a h _ he => ?_) h)
    fun l w h => Safe.ok fun w' hr => h.rely hr
  cases he
  refine ⟨h.inv, { h with current := fun id u hu => ?_ }⟩
  rw [show indexUsers w.agent.users.list = w.agent.users.rows from indexUsers_list _] at hu
  exact h.inv.rows id u hu

variable (key) in
def peerOutline (pageSize : ℤ) : Outline (CredentialChange AmneziaCredential) CredentialPass
    (World AmneziaWGConnectionMaterial) where
  ready := PeersReady key
  first full since r := Scan key (full || r.full) since r.manifestStartedAtMS (r.short pageSize)
    r.changes "" ⟨full || r.full, ∅, ∅, ∅⟩
  mid _ since short cs p := Scan key p.full since p.passCursor short cs p.fromConnectionID p.pass
  finished p w := ∃ rows, Aligned key p.passCursor rows w
  failed := PeersTracked key

theorem peerOutline_holds (hkey : key.Injective) (hsize : validatePageSize pageSize = .ok ())
    (order : MapOrder) (fuel : ℕ) :
    (peerOutline key pageSize).Holds (peering key).setting manifestSource
      (amneziaSync.applier order) pageSize fuel where
  ready full since w h := by
    refine (Passing.fetch_safe ⟨full, since, pageSize, ""⟩ (Q := fun r =>
      Scan key (full || r.full) since r.manifestStartedAtMS (r.short pageSize) r.changes ""
        ⟨full || r.full, ∅, ∅, ∅⟩) hsize PeersReady.within (fun _ => Scan.within.stable)
      (fun w g now h => h.page hsize g now) h).imp fun r w hw => ⟨hw.inv, fun _ => hw⟩
  first full since r w _ h := beginSyncPass_peering h
  change n since short c cs p w h := applySyncChange_peering hkey h
  spent since p w h := h.inv
  next n since p w h := by
    refine (Passing.fetch_safe ⟨p.full, since, pageSize, p.fromConnectionID⟩ (Q := fun r =>
      Scan key p.full since p.passCursor (r.short pageSize) r.changes p.fromConnectionID p.pass)
      hsize Scan.within (fun _ => Scan.within.stable)
      (fun w g now h => h.page hsize g now) h).imp fun r w hw => ⟨hw.inv, fun _ => hw⟩
  finish n since p w h := finishSyncPass_peering hkey order _ rfl h

theorem runOnce_peering (hkey : key.Injective) (args : PassArgs)
    (h : Begun amneziaAdapter args.full w) (hp : PeersTracked key w) :
    (peering key).Keeps (amneziaSync.runOnce args.pageSize args.order args.fuel args.full)
      (fun _ w => ∃ t rows, Aligned key t rows w) w := by
  refine CredentialSync.runOnce_safe (fun e w' hr => PeerRely.peersTracked hr hp) fun hsize => ?_
  refine (peerOutline_holds hkey hsize args.order args.fuel).runPass ?_
    fun p w h => saveCursor_peering h
  exact Passing.load_safe (I := fun w => Begun amneziaAdapter args.full w ∧ PeersTracked key w)
    ⟨fun _ _ hr h => ⟨h.1.rely (PeerRely.toRely hr), PeerRely.peersTracked hr h.2⟩,
      fun _ h => h.2⟩ (fun _ _ => PeersReady.within.stable) (fun _ h _ => ⟨h.1.first, h.2⟩)
    (fun w v h hf hcur => ⟨(hf ▸ h.1 : Begun amneziaAdapter false w).ready hcur, h.2⟩) ⟨h, hp⟩

end Pass

/-! ## All runs -/

section Runs

abbrev PeerConfig : Type :=
  Solo.Config (SyncCall AmneziaCredential) SyncCall.Reply (World AmneziaWGConnectionMaterial)
    (Except String Unit)

abbrev PeerEvent : Type := Solo.Event Served NodeEvent PassArgs

/-- A committed change has a version that is not smaller than the time of any page built before it.
A row that is deleted is there, or the peer of its connection is in neither place. -/
def Orderly (key : String → String) (s : PeerConfig) : PeerEvent → Prop
  | .act (.commit r) => ∀ t ∈ s.world.built, t ≤ r.desiredVersionMS
  | .call _ =>
    match s.task with
    | some (.call (.agent (.deleteAuthUser id)) _) =>
      id ∈ s.world.agent.users.rows ∨ NoPeer s.world.agent (key id)
    | _ => True
  | _ => True

instance (key : String → String) (s : PeerConfig) (e : PeerEvent) :
    Decidable (Orderly key s e) := by
  unfold Orderly
  split
  · infer_instance
  · split <;> infer_instance
  · infer_instance

def KeepsKey (key : String → String) : PeerEvent → Prop
  | .act (.commit r) => amneziaAdapter.active r → trimSpace r.material.clientPublicKey = key r.id
  | _ => True

instance (key : String → String) (e : PeerEvent) : Decidable (KeepsKey key e) := by
  unfold KeepsKey
  split <;> infer_instance

theorem peer_sound {key : String → String} (hkey : key.Injective) :
    Solo.Sound peerSystem (peering key).setting (PeersTracked key) (PeersTracked key)
      (fun r w => r = .ok () → ∃ t rows, Aligned key t rows w)
      (fun s e => Orderly key s e ∧ KeepsKey key e) where
  perform := rfl
  act s e w hm hw := by
    cases e with
    | commit r => exact PeerRely.commit hm.1 hm.2 hw
    | restore =>
      cases hw
      exact PeerRely.restore s.world
  idle _ _ h hr := PeerRely.peersTracked hr h
  crash _ _ h hr := PeerRely.peersTracked hr h
  guar _ _ h := h
  start s args w _ h hw := by
    cases hw
    have hp : PeersTracked key { s.world with
        dirty := ∅
        steady := if s.world.startsFull args then activeIDs amneziaAdapter s.world.server
          else ∅ } := ⟨h.tracked, h.server, h.rows, h.known, h.late⟩
    refine ⟨hp, (runOnce_peering hkey args (begun_enter args h.tracked) hp).mono ?_⟩
    rintro (e | ⟨⟩) w' hw'
    · exact ⟨hw', nofun⟩
    · obtain ⟨t, rows, hal⟩ := hw'
      exact ⟨hal.inv, fun _ => ⟨t, rows, hal⟩⟩
  call s c k f hm ht := by
    have h := hm.1
    simp only [Orderly, ht] at h
    rcases c with c | q
    · cases c <;> exact h
    · exact trivial
  stop _ _ _ _ _ h := h

variable (key : String → String) {s₀ s : PeerConfig} {events : List PeerEvent}

/-- Take any run of passes, server changes and restarts of the agent, with any failures and
interruptions, from an agent that has never synced, with any peers. If the versions of the changes
are ahead of the pages, and no connection is deleted while its peer is there without its row, then
after every successful pass the peers of the snapshot, the peers of the interface and the native
ids of `auth_users` are the same, and a connection that is inactive on the server and has not
changed since the first page of the pass has none of them. -/
theorem peers_agree (hkey : key.Injective) (h₀ : s₀.task = none)
    (hempty : s₀.world.agent.users = .empty) (hfresh : s₀.world.agent.cursor = none)
    (hserver : KeyedRows key s₀.world.server) (hkeys : ∀ e ∈ events, KeepsKey key e)
    (horderly : Along (Solo.step peerSystem) (Orderly key) s₀ events)
    (hrun : runs (Solo.step peerSystem) s₀ events = some s)
    (hok : s.task = some (.done (.ok ()))) :
    (∀ k, k ∈ peerKeys s.world.agent.snapshot ↔ k ∈ nativeKeys s.world.agent.users.rows) ∧
    (∀ k, k ∈ s.world.agent.runtime ↔ k ∈ nativeKeys s.world.agent.users.rows) ∧
    ∀ id r, s.world.server.rows[id]? = some r → ¬ amneziaAdapter.active r → id ∉ s.world.dirty →
      key id ∉ nativeKeys s.world.agent.users.rows := by
  have hgood := (peer_sound hkey).runs (horderly.and fun e he _ => hkeys e he) hrun ?_
  · obtain ⟨t, rows, hal⟩ := (hgood.result hok).2 rfl
    obtain rfl := hal.table
    refine ⟨fun k => ⟨hal.snapshot k, fun hk => (hal.hasPeer hk).1⟩,
      fun k => ⟨hal.runtime k, fun hk => (hal.hasPeer hk).2⟩, fun id r hr hact hid hk => ?_⟩
    -- an inactive connection that has not changed has no row
    have hnone : s.world.agent.users.rows[id]? = none := by
      have hwanted := not_not.1 fun hd => hid (hal.settled.rest id hd)
      obtain rfl := s.world.server.keyed id r hr
      rw [hwanted, wanted_of_row amneziaAdapter hr, if_neg hact]
    obtain ⟨i, u, hu, hku⟩ := mem_nativeKeys.1 hk
    obtain rfl := hkey ((hal.inv.rows i u hu).1.symm.trans hku)
    rw [hnone] at hu
    cases hu
  · rw [Solo.Good, h₀]
    refine ⟨fun x hx => ?_, hserver, fun id u hu => ?_, fun h => absurd hfresh h,
      fun id _ v hv => ?_⟩
    · rw [hfresh] at hx
      cases hx
    · simp [hempty] at hu
    · rw [hfresh] at hv
      cases hv

/-- A node without connections, and an agent that has never synced. -/
def emptyNode : PeerConfig :=
  ⟨⟨⟨.empty, ∅, [], ∅⟩, .empty, [], ∅, ∅⟩, none⟩

def peerRow (status : ConnectionStatus) (version : ℤ) : SyncRow AmneziaWGConnectionMaterial :=
  ⟨"c1", status, version, .active, ⟨"c1", "kc1", "psk", "10.8.1.2"⟩⟩

/-- A pass whose calls turn out well, at the time `now`. -/
def quietPass (calls : ℕ) (now : ℤ) : List PeerEvent :=
  .start ⟨false, 100, .sorted, 2⟩ :: List.replicate calls (.call ⟨.ok, now, 25⟩)

/-- A pass in which the peer is persisted and cannot be set. -/
def failedUpsert (outcome : Outcome) (now : ℤ) : List PeerEvent :=
  quietPass 4 now ++ [.call ⟨outcome, now, 25⟩]

/-- The connection is created, the agent fails to set its peer, and the connection is put on hold
before the agent tries again. -/
def heldBeforeRetry : List PeerEvent :=
  quietPass 9 5 ++ [.act (.commit (peerRow .active 6))] ++
    failedUpsert (.refused "awg failed") 10 ++ [.act (.commit (peerRow .held 12))] ++ quietPass 6 15

/-- The last pass has succeeded, and the peer of the held connection is still in the snapshot, where
the next start of the agent will find it. -/
theorem peer_left_behind :
    ∃ s, runs (Solo.step peerSystem) emptyNode heldBeforeRetry = some s ∧
      s.task = some (.done (.ok ())) ∧ "kc1" ∈ peerKeys s.world.agent.snapshot ∧
      "kc1" ∉ s.world.agent.runtime ∧ "kc1" ∉ nativeKeys s.world.agent.users.rows := by
  obtain ⟨s, hs, hok, hp⟩ := of_succeeded
    (p := fun w : World AmneziaWGConnectionMaterial => "kc1" ∈ peerKeys w.agent.snapshot ∧
      "kc1" ∉ w.agent.runtime ∧ "kc1" ∉ nativeKeys w.agent.users.rows)
    (s := runs (Solo.step peerSystem) emptyNode heldBeforeRetry) (by decide +kernel)
  exact ⟨s, hs, hok, of_decide_eq_true hp⟩

/-- Here the agent tries again first. -/
def heldAfterRetry : List PeerEvent :=
  quietPass 9 5 ++ [.act (.commit (peerRow .active 6))] ++ failedUpsert (.lost "awg failed") 10 ++
    .act .restore :: quietPass 8 12 ++ [.act (.commit (peerRow .held 15))] ++ quietPass 12 20

theorem peers_agree_heldAfterRetry :
    ∃ s, runs (Solo.step peerSystem) emptyNode heldAfterRetry = some s ∧
      s.task = some (.done (.ok ())) ∧
      ∀ k, k ∈ peerKeys s.world.agent.snapshot ↔ k ∈ nativeKeys s.world.agent.users.rows := by
  obtain ⟨s, hs, hok, -⟩ := of_succeeded
    (p := fun _ : World AmneziaWGConnectionMaterial => true)
    (s := runs (Solo.step peerSystem) emptyNode heldAfterRetry) (by decide +kernel)
  refine ⟨s, hs, hok, (peers_agree ("k" ++ ·) (fun i j h => ?_) rfl rfl rfl
    (fun id r hr => ?_) (by decide +kernel) (by decide +kernel) hs hok).1⟩
  · simpa using h
  · simp [emptyNode, ServerRows.empty] at hr

end Runs

end LazGate
