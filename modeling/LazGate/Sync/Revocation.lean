import LazGate.Sync.System

/-!
# Revocation on a Hysteria agent

A client keeps its session until it is kicked. `Kicks` records which connections were stored in
`auth_users` and have not been kicked since, and what the pages of the current pass have said.

In an incremental pass the row of a deleted connection goes first and the kick comes at the end of
the pass. The open pass remembers the row in between, but nothing else does:
`client_never_kicked` is a run in which the kick is lost for good.
-/

namespace LazGate

open Prog

structure Kicks where
  /-- The connections that were stored and have not been kicked since. -/
  owed : Std.ExtTreeSet String
  /-- The connections that the pages of the current pass list as active. -/
  upserted : Std.ExtTreeSet String
  /-- The connections that the pages of the current pass list as deleted. -/
  deleted : Std.ExtTreeSet String
  /-- Whether the current pass is a full one. -/
  full : Bool

namespace Kicks

def empty : Kicks := ⟨∅, ∅, ∅, false⟩

def listed (m : Manifest HysteriaCredential) (op : Operation) : List String :=
  ((m.changes.map decodeChange).filter fun c => c.operation = op).map (·.connectionID)

def note : (c : SyncCall HysteriaCredential) → c.Reply → Kicks → Kicks
  | .agent (.upsertAuthUser u), .ok _, h => { h with owed := h.owed.insert u.connectionID }
  | .agent (.applyFullAuthSnapshot keep _ _), .ok _, h =>
    { h with owed := h.owed.insertMany (keep.map (·.connectionID)) }
  | .agent (.kick id), .ok _, h => { h with owed := h.owed.erase id }
  | .authManifest request, .ok m, h =>
    { h with
      upserted := h.upserted.insertMany (listed m .upsert)
      deleted := h.deleted.insertMany (listed m .delete)
      full := if request.fromConnectionID = "" then request.full || m.full else h.full }
  | _, _, h => h

def begin (h : Kicks) : Kicks := { h with upserted := ∅, deleted := ∅, full := false }

/-- The manifest of the pass does not say that the connection is inactive: a full one lists it, and
an incremental one does not list it as deleted. -/
def Active (h : Kicks) (id : String) : Prop :=
  if h.full then id ∈ h.upserted else id ∈ h.deleted → id ∈ h.upserted

instance (h : Kicks) (id : String) : Decidable (h.Active id) := by
  unfold Active
  infer_instance

end Kicks

def kickSystem : System (SyncCall HysteriaCredential) SyncCall.Reply Served
    (World String × Kicks) (SyncRow String) PassArgs (Except String Unit) :=
  (syncSystem hysteriaAdapter).observe Kicks.note fun _ _ h => h.begin

def RowsNamed (a : Agent) : Prop :=
  ∀ (id : String) (u : AuthUser), a.users.rows[id]? = some u → u.nativeAuthID = id ∧ id ≠ ""

/-- A pass of a Hysteria agent. The server does what it likes meanwhile. -/
def kicking : Setting (SyncCall HysteriaCredential) SyncCall.Reply Served
    (World String × Kicks) where
  perform := kickSystem.perform
  admits _ _ _ := True
  rely w w' := w'.1.agent = w.1.agent ∧ w'.2 = w.2
  guar _ w' := RowsNamed w'.1.agent
  refl _ := ⟨rfl, rfl⟩
  trans _ _ _ h h' := ⟨h'.1.trans h.1, h'.2.trans h.2⟩

/-! ## An open pass -/

variable {rows : AuthUsers} {m : Manifest HysteriaCredential}
  {r : Response (CredentialChange HysteriaCredential)}

section Pass

variable {tracked full : Bool} {cs : List (Change (CredentialChange HysteriaCredential))}
  {fromID : String} {pass : CredentialPass} {a : Agent} {h : Kicks} {w : World String × Kicks}

/-- An open pass with the changes `cs` of a page still to apply. If it began with a row for every
connection that was not kicked (`tracked`), it can tell all of them. -/
structure Revoking (tracked full : Bool)
    (cs : List (Change (CredentialChange HysteriaCredential))) (fromID : String)
    (pass : CredentialPass) (a : Agent) (h : Kicks) : Prop where
  named : RowsNamed a
  isFull : pass.full = full ∧ h.full = full
  order : Ascending fromID (cs.map (·.connectionID))
  told : ∀ c ∈ cs, c.payload.connectionID = c.connectionID ∧
    (c.operation = .upsert → c.connectionID ∈ h.upserted)
  known : ∀ (id : String) (u : AuthUser), pass.current[id]? = some u ∨ pass.removed[id]? = some u →
    u.nativeAuthID = id ∧ id ≠ ""
  whole : full = true → pass.current = a.users.rows
  kept : full = true → ∀ (id : String) (u : AuthUser), pass.keep[id]? = some u →
    u.connectionID = id ∧ u.nativeAuthID = id ∧ id ≠ "" ∧ id ∈ h.upserted
  ahead : full = false → ∀ id ∈ a.users.rows, fromID < id → id ∈ pass.current
  gone : full = false → ∀ id ∈ a.users.rows, id ∈ h.deleted →
    id ∈ h.upserted ∨ id ∈ cs.map (·.connectionID)
  owed : tracked = true → ∀ id ∈ h.owed, id ∈ a.users.rows ∨ id ∈ pass.removed

/-- A pass that has kept its promise. -/
def Kicked (tracked : Bool) (a : Agent) (h : Kicks) : Prop :=
  RowsNamed a ∧ (tracked = true → ∀ id ∈ h.owed, id ∈ a.users.rows ∧ h.Active id)

/-- The assertion `Q` about the agent and the record, if the program succeeds. -/
abbrev orNamed {α : Type} (Q : α → Agent → Kicks → Prop) :
    Except String α → World String × Kicks → Prop :=
  onOk (fun x w => Q x w.1.agent w.2) fun _ w => RowsNamed w.1.agent

theorem pure_kicking {α : Type} {x : α} {Q : α → Agent → Kicks → Prop} (hq : Q x w.1.agent w.2) :
    Safe kicking (pure x : Sync HysteriaCredential α).run (orNamed Q) w := by
  refine Safe.ok ?_
  rintro w' ⟨hagent, hkicks⟩
  simp only [orNamed, onOk_ok, hagent, hkicks]
  exact hq

theorem bind_kicking {α β : Type} {x : Sync HysteriaCredential α}
    {k : α → Sync HysteriaCredential β} {Q : α → Agent → Kicks → Prop}
    {Q' : β → Agent → Kicks → Prop} (hx : Safe kicking x.run (orNamed Q) w)
    (hk : ∀ y w', Q y w'.1.agent w'.2 → Safe kicking (k y).run (orNamed Q') w') :
    Safe kicking (x >>= k).run (orNamed Q') w := Safe.seq hx hk

/-- A call of the pass on the agent's machine. -/
theorem attempt_kicking {c : AgentCall} {Q : c.Result → Agent → Kicks → Prop}
    (hn : RowsNamed w.1.agent) (hc : ∀ r a, c.effect w.1.agent = .ok (r, a) →
      RowsNamed a ∧ Q r a (Kicks.note (.agent c) (.ok r) w.2)) :
    Safe kicking (c.attempt (P := HysteriaCredential)).run (orNamed Q) w := by
  refine Safe.ask ?_
  rintro ⟨w', h'⟩ ⟨hagent, hkicks⟩ f -
  simp only at hagent hkicks
  subst hkicks
  rw [← hagent] at hn hc
  have hrely : ∀ (r : Except String c.Result) (a : Agent) (k : Kicks),
      onOk (fun x (y : Agent × Kicks) => Q x y.1 y.2) (fun _ y => RowsNamed y.1) r (a, k) →
      ∀ w'' : World String × Kicks, w''.1.agent = a ∧ w''.2 = k → orNamed Q r w'' := by
    rintro (e | x) a k hq w'' ⟨rfl, rfl⟩ <;> exact hq
  rcases c.perform_cases f.outcome w'.agent with ⟨r, a, he, hp⟩ | ⟨e, r, a, -, he, hp⟩ | ⟨e, hp⟩
  · obtain ⟨hn', hq⟩ := hc r a he
    simp only [kicking, kickSystem, System.observe, syncSystem, World.perform, hp]
    exact ⟨hn', fun w'' hr => hrely (.ok r) a _ hq w'' hr⟩
  · obtain ⟨hn', -⟩ := hc r a he
    simp only [kicking, kickSystem, System.observe, syncSystem, World.perform, hp]
    exact ⟨hn', fun w'' hr => hrely (.error e) _ _ hn' w'' hr⟩
  · simp only [kicking, kickSystem, System.observe, syncSystem, World.perform, hp]
    exact ⟨hn, fun w'' hr => hrely (.error e) _ _ hn w'' hr⟩

theorem fetch_kicking (request : Request) (hsize : validatePageSize request.pageSize = .ok ())
    (hnamed : RowsNamed w.1.agent)
    {Q : Response (CredentialChange HysteriaCredential) → Agent → Kicks → Prop}
    (hpage : ∀ m r, decodeManifest m = .ok r →
      Ascending request.fromConnectionID (r.changes.map (·.connectionID)) →
      Q r w.1.agent (Kicks.note (.authManifest request) (.ok m) w.2)) :
    Safe kicking (fetchSyncPage request).run (orNamed Q) w := by
  refine fetchSyncPage_safe (Safe.ask ?_)
  rintro ⟨w', h'⟩ ⟨hagent, hkicks⟩ f -
  simp only at hagent hkicks
  subst hkicks
  have hserve : (w'.serve request f.now).agent = w.1.agent := hagent
  rcases hf : f.outcome with - | e | e
  · simp only [kicking, kickSystem, System.observe, syncSystem, World.perform, hf]
    refine ⟨hserve ▸ hnamed, ?_⟩
    rintro ⟨w'', h''⟩ ⟨hagent', hkicks'⟩
    simp only at hagent' hkicks'
    have hdec := decode_handleManifest hysteriaAdapter w'.server.node f.setting hsize f.now
    have hasc := hysteriaAdapter.ascending_page w'.server.node f.setting { request with
      full := request.full || request.sinceManifestStartedAtMS = 0 }
    change onOk _ _ (decodeManifest _) _
    rw [hdec]
    simp only [onOk_ok, hagent', hkicks', hserve]
    exact hpage _ _ hdec hasc
  · simp only [kicking, kickSystem, System.observe, syncSystem, World.perform, hf]
    refine ⟨hagent ▸ hnamed, ?_⟩
    rintro ⟨w'', h''⟩ ⟨hagent', -⟩
    change RowsNamed w''.agent
    rw [show w''.agent = w.1.agent from hagent'.trans hagent]
    exact hnamed
  · simp only [kicking, kickSystem, System.observe, syncSystem, World.perform, hf]
    refine ⟨hserve ▸ hnamed, ?_⟩
    rintro ⟨w'', h''⟩ ⟨hagent', -⟩
    change RowsNamed w''.agent
    rw [show w''.agent = w.1.agent from hagent'.trans hserve]
    exact hnamed

section

variable (hm : decodeManifest m = .ok r)

include hm

theorem Kicks.mem_listed {op : Operation} {id : String} :
    id ∈ Kicks.listed m op ↔ ∃ c ∈ r.changes, c.operation = op ∧ c.connectionID = id := by
  have hperm := (decodeManifest_eq_ok hm).2.2
  simp only [Kicks.listed, List.mem_map, List.mem_filter, decide_eq_true_eq]
  constructor
  · rintro ⟨c, ⟨hc, hop⟩, hid⟩
    exact ⟨c, hperm.mem_iff.2 (List.mem_map.2 hc), hop, hid⟩
  · rintro ⟨c, hc, hop, hid⟩
    exact ⟨c, ⟨List.mem_map.1 (hperm.mem_iff.1 hc), hop⟩, hid⟩

theorem Kicks.note_page (request : Request) (h : Kicks) :
    (Kicks.note (.authManifest request) (.ok m) h).owed = h.owed ∧
      (∀ id, id ∈ (Kicks.note (.authManifest request) (.ok m) h).upserted ↔ id ∈ h.upserted ∨
        ∃ c ∈ r.changes, c.operation = .upsert ∧ c.connectionID = id) ∧
      (∀ id, id ∈ (Kicks.note (.authManifest request) (.ok m) h).deleted ↔ id ∈ h.deleted ∨
        ∃ c ∈ r.changes, c.operation = .delete ∧ c.connectionID = id) ∧
      (Kicks.note (.authManifest request) (.ok m) h).full =
        if request.fromConnectionID = "" then request.full || r.full else h.full := by
  refine ⟨rfl, fun id => ?_, fun id => ?_, ?_⟩
  · rw [← Kicks.mem_listed hm]
    simp only [Kicks.note, Std.ExtTreeSet.mem_insertMany_list, List.contains_iff_mem]
  · rw [← Kicks.mem_listed hm]
    simp only [Kicks.note, Std.ExtTreeSet.mem_insertMany_list, List.contains_iff_mem]
  · simp only [Kicks.note, (decodeManifest_eq_ok hm).2.1]

theorem payload_connectionID {c : Change (CredentialChange HysteriaCredential)}
    (hc : c ∈ r.changes) :
    c.payload.connectionID = c.connectionID := by
  obtain ⟨d, -, rfl⟩ := List.mem_map.1 ((decodeManifest_eq_ok hm).2.2.mem_iff.1 hc)
  rfl

end

/-- A new page: what it lists as deleted is among the changes to apply. -/
theorem Revoking.page (hr : Revoking tracked full [] fromID pass a h)
    (hm : decodeManifest m = .ok r) {request : Request}
    (hfull : (Kicks.note (.authManifest request) (.ok m) h).full = full)
    (hasc : Ascending fromID (r.changes.map (·.connectionID))) :
    Revoking tracked full r.changes fromID pass a
      (Kicks.note (.authManifest request) (.ok m) h) := by
  obtain ⟨howed, hup, hdel, -⟩ := Kicks.note_page hm request h
  refine { hr with
    isFull := ⟨hr.isFull.1, hfull⟩
    order := hasc
    told := ?_
    kept := ?_
    gone := ?_
    owed := howed ▸ hr.owed }
  · intro c hc
    exact ⟨payload_connectionID hm hc, fun hop => (hup _).2 (.inr ⟨c, hc, hop, rfl⟩)⟩
  · intro hf id u hu
    obtain ⟨h1, h2, h3, h4⟩ := hr.kept hf id u hu
    exact ⟨h1, h2, h3, (hup id).2 (.inl h4)⟩
  · intro hf id hid hd
    rcases (hdel id).1 hd with hd | ⟨c, hc, -, rfl⟩
    · left
      exact (hup id).2 (.inl ((hr.gone hf id hid hd).resolve_right (by simp)))
    · exact .inr (List.mem_map_of_mem hc)

theorem RowsNamed.upsert {u : AuthUser} (hn : RowsNamed a) (hu : a.users.upsert u = .ok rows)
    (hid : u.nativeAuthID = u.connectionID)
    (hne : u.connectionID ≠ "") : RowsNamed { a with users := rows } := by
  intro id v hv
  rw [show ({ a with users := rows } : Agent).users = rows from rfl,
    AuthUsers.rows_of_upsert hu] at hv
  split at hv
  · rename_i heq
    cases hv
    exact ⟨heq ▸ hid, heq ▸ hne⟩
  · exact hn id v hv

theorem CredentialPass.mem_removed_removing {p : CredentialPass} {i id : String} :
    id ∈ (p.removing i).removed ↔ id ∈ p.removed ∨ (id = i ∧ id ∈ p.current) := by
  simp only [mem_iff_exists_getElem?, p.getElem?_removed_removing]
  split
  · cases p.current[id]? <;> simp [*]
  · simp [*]

variable {c : Change (CredentialChange HysteriaCredential)}

theorem Revoking.order_cons (hr : Revoking tracked full (c :: cs) fromID pass a h) :
    fromID < c.connectionID ∧ Ascending c.connectionID (cs.map (·.connectionID)) := by
  have horder := hr.order
  rwa [List.map_cons, ascending_cons] at horder

theorem Revoking.keep (hr : Revoking tracked true (c :: cs) fromID pass a h)
    (hop : c.operation = .upsert) :
    Revoking tracked true cs c.connectionID
      (pass.keeping c.connectionID (toAuthUser c.payload)) a h := by
  obtain ⟨hlt, horder⟩ := hr.order_cons
  obtain ⟨hid, hup⟩ := hr.told c List.mem_cons_self
  refine { hr with
    order := horder
    told := fun d hd => hr.told d (List.mem_cons_of_mem c hd)
    kept := fun hf id u hu => ?_
    ahead := nofun
    gone := nofun }
  rw [pass.getElem?_keep_keeping] at hu
  split at hu
  · rename_i heq
    cases hu
    subst heq
    exact ⟨hid, hid, fun h0 => not_lt_empty _ (h0 ▸ hlt), hup hop⟩
  · exact hr.kept hf id u hu

/-- After an upsert in an incremental pass: the row is stored and owes a kick from now on. -/
theorem Revoking.store (hr : Revoking tracked false (c :: cs) fromID pass a h)
    (hop : c.operation = .upsert) (hu : a.users.upsert (toAuthUser c.payload) = .ok rows) :
    Revoking tracked false cs c.connectionID
      (pass.keeping c.connectionID (toAuthUser c.payload)) { a with users := rows }
      { h with owed := h.owed.insert (toAuthUser c.payload).connectionID } := by
  obtain ⟨hlt, horder⟩ := hr.order_cons
  obtain ⟨hid, hup⟩ := hr.told c List.mem_cons_self
  have huid : (toAuthUser c.payload).connectionID = c.connectionID := hid
  have hmem : ∀ id, id ∈ rows.rows ↔ id = c.connectionID ∨ id ∈ a.users.rows := fun id => by
    rw [AuthUsers.mem_rows_of_upsert hu, huid]
  refine { hr with
    named := hr.named.upsert hu rfl (huid ▸ fun h0 => not_lt_empty _ (h0 ▸ hlt))
    order := horder
    told := fun d hd => hr.told d (List.mem_cons_of_mem c hd)
    whole := nofun
    kept := nofun
    ahead := fun hf id hm hlt' => ?_
    gone := fun hf id hm hd => ?_
    owed := fun ht id hm => ?_ }
  · rcases (hmem id).1 hm with rfl | hm
    · exact absurd hlt' (lt_irrefl _)
    · exact hr.ahead hf id hm (hlt.trans hlt')
  · by_cases heq : id = c.connectionID
    · exact .inl (heq ▸ hup hop)
    · have hm' := ((hmem id).1 hm).resolve_left heq
      exact (hr.gone hf id hm' hd).imp_right fun hc => (List.mem_cons.1 hc).resolve_left heq
  · rw [Std.ExtTreeSet.mem_insert, Std.compare_eq_iff_eq, huid] at hm
    rcases hm with rfl | hm
    · exact .inl ((hmem _).2 (.inl rfl))
    · exact (hr.owed ht id hm).imp_left fun h' => (hmem id).2 (.inr h')

theorem Revoking.known_removing (hr : Revoking tracked full cs fromID pass a h) (i : String)
    (id : String) (u : AuthUser)
    (hu : (pass.removing i).current[id]? = some u ∨ (pass.removing i).removed[id]? = some u) :
    u.nativeAuthID = id ∧ id ≠ "" := by
  rw [pass.current_removing, pass.getElem?_removed_removing] at hu
  rcases hu with hu | hu
  · exact hr.known id u (.inl hu)
  · split at hu
    · exact hr.known id u ((Option.or_eq_some_iff.1 hu).imp_right And.right)
    · exact hr.known id u (.inr hu)

theorem Revoking.forget (hr : Revoking tracked true (c :: cs) fromID pass a h) :
    Revoking tracked true cs c.connectionID (pass.removing c.connectionID) a h where
  named := hr.named
  isFull := ⟨pass.full_removing _ ▸ hr.isFull.1, hr.isFull.2⟩
  order := hr.order_cons.2
  told d hd := hr.told d (List.mem_cons_of_mem c hd)
  known := hr.known_removing _
  whole hf := (pass.current_removing _).trans (hr.whole hf)
  kept hf := pass.keep_removing _ ▸ hr.kept hf
  ahead := nofun
  gone := nofun
  owed ht id hm := (hr.owed ht id hm).imp_right fun h' =>
    CredentialPass.mem_removed_removing.2 (.inl h')

/-- After a delete in an incremental pass: the row is gone, and the pass remembers it. -/
theorem Revoking.delete (hr : Revoking tracked false (c :: cs) fromID pass a h) :
    Revoking tracked false cs c.connectionID (pass.removing c.connectionID)
      { a with users := a.users.delete c.connectionID } h where
  named id u hu := by
    rw [show ({ a with users := a.users.delete c.connectionID } : Agent).users =
      a.users.delete c.connectionID from rfl, AuthUsers.rows_delete] at hu
    split at hu
    · cases hu
    · exact hr.named id u hu
  isFull := ⟨pass.full_removing _ ▸ hr.isFull.1, hr.isFull.2⟩
  order := hr.order_cons.2
  told d hd := hr.told d (List.mem_cons_of_mem c hd)
  known := hr.known_removing _
  whole := nofun
  kept := nofun
  ahead hf id hm hlt := by
    rw [pass.current_removing]
    exact hr.ahead hf id (AuthUsers.mem_rows_delete.1 hm).2 (hr.order_cons.1.trans hlt)
  gone hf id hm hd := by
    obtain ⟨hne, hm⟩ := AuthUsers.mem_rows_delete.1 hm
    exact (hr.gone hf id hm hd).imp_right fun hc => (List.mem_cons.1 hc).resolve_left hne
  owed ht id hm := by
    by_cases heq : id = c.connectionID
    · right
      rw [CredentialPass.mem_removed_removing]
      rcases hr.owed ht id hm with hrow | hrem
      · -- the row was there when the pass began, since its id lies ahead
        exact .inr ⟨heq, hr.ahead rfl id hrow (heq ▸ hr.order_cons.1)⟩
      · exact .inl hrem
    · exact (hr.owed ht id hm).imp (fun h' => AuthUsers.mem_rows_delete.2 ⟨heq, h'⟩) fun h' =>
        CredentialPass.mem_removed_removing.2 (.inl h')

section

variable (hr : Revoking tracked full (c :: cs) fromID pass w.1.agent w.2)

include hr

theorem upsertChange_kicking (hop : c.operation = .upsert) :
    Safe kicking (do
      pass.unlessFull (hysteriaSync.store.upsertAuthUser (toAuthUser c.payload))
      return pass.keeping c.connectionID (toAuthUser c.payload) :
        Sync HysteriaCredential CredentialPass).run
      (orNamed (Revoking tracked full cs c.connectionID)) w := by
  have hp := hr.isFull.1
  cases full with
  | true =>
    simp only [CredentialPass.unlessFull, hp, if_true]
    exact bind_kicking (Q := fun _ => Revoking tracked true (c :: cs) fromID pass)
      (pure_kicking hr) fun _ w' hr => pure_kicking (hr.keep hop)
  | false =>
    simp only [CredentialPass.unlessFull, hp, Bool.false_eq_true, if_false]
    refine bind_kicking (Q := fun _ => Revoking tracked false cs c.connectionID
      (pass.keeping c.connectionID (toAuthUser c.payload)))
      (attempt_kicking (c := .upsertAuthUser (toAuthUser c.payload)) hr.named fun r a he => ?_)
      fun _ w' hw' => pure_kicking hw'
    obtain ⟨rows, hu, he⟩ := Except.map_eq_ok.1 he
    cases he
    exact ⟨(hr.store hop hu).named, hr.store hop hu⟩

theorem deleteChange_kicking :
    Safe kicking (do
      pass.unlessFull (hysteriaSync.store.deleteAuthUser c.connectionID)
      return pass.removing c.connectionID : Sync HysteriaCredential CredentialPass).run
      (orNamed (Revoking tracked full cs c.connectionID)) w := by
  have hp := hr.isFull.1
  cases full with
  | true =>
    simp only [CredentialPass.unlessFull, hp, if_true]
    exact bind_kicking (Q := fun _ => Revoking tracked true (c :: cs) fromID pass)
      (pure_kicking hr) fun _ w' hr => pure_kicking hr.forget
  | false =>
    simp only [CredentialPass.unlessFull, hp, Bool.false_eq_true, if_false]
    refine bind_kicking (Q := fun _ => Revoking tracked false cs c.connectionID
      (pass.removing c.connectionID))
      (attempt_kicking (c := .deleteAuthUser c.connectionID) hr.named fun r a he => ?_)
      fun _ w' hw' => pure_kicking hw'
    cases he
    exact ⟨hr.delete.named, hr.delete⟩

theorem applySyncChange_kicking :
    Safe kicking (hysteriaSync.applySyncChange pass c).run
      (orNamed (Revoking tracked full cs c.connectionID)) w := by
  unfold CredentialSync.applySyncChange
  cases hop : c.operation with
  | upsert =>
    refine bind_kicking (Q := fun u a h => u = toAuthUser c.payload ∧
      Revoking tracked full (c :: cs) fromID pass a h) (pure_kicking ⟨rfl, hr⟩) ?_
    rintro u w' ⟨rfl, hr⟩
    exact upsertChange_kicking hr hop
  | delete => exact deleteChange_kicking hr

end

/-! ## The end of a pass -/

/-- What is still to be kicked is among the rows `l`, and for the rest all is well. -/
def Leaving (tracked : Bool) (l : List AuthUser) (a : Agent) (h : Kicks) : Prop :=
  RowsNamed a ∧ (∀ u ∈ l, u.nativeAuthID ≠ "") ∧ (∀ id ∈ a.users.rows, h.Active id) ∧
    (tracked = true → ∀ id ∈ h.owed, id ∈ a.users.rows ∨ ∃ u ∈ l, u.nativeAuthID = id)

theorem kicks_safe (l : List AuthUser) (hl : Leaving tracked l w.1.agent w.2) :
    Safe kicking (l.forM hysteriaSync.runtime.removeCredential).run
      (orNamed fun _ => Kicked tracked) w := by
  induction l generalizing w with
  | nil =>
    refine pure_kicking ⟨hl.1, fun ht id hid => ?_⟩
    have hrow := (hl.2.2.2 ht id hid).resolve_right (by simp)
    exact ⟨hrow, hl.2.2.1 id hrow⟩
  | cons u l ih =>
    have hu := hl.2.1 u List.mem_cons_self
    refine bind_kicking (Q := fun _ => Leaving tracked l) ?_ fun _ w' hw' => ih hw'
    rw [hysteria_removeCredential, if_neg hu]
    refine attempt_kicking (c := .kick u.nativeAuthID) hl.1 fun r a he => ?_
    cases he
    refine ⟨hl.1, hl.1, fun v hv => hl.2.1 v (List.mem_cons_of_mem u hv), hl.2.2.1,
      fun ht id hid => ?_⟩
    have hid' : u.nativeAuthID ≠ id ∧ id ∈ w.2.owed := by
      simpa [Kicks.note, Std.ExtTreeSet.mem_erase, Std.compare_eq_iff_eq] using hid
    rcases hl.2.2.2 ht id hid'.2 with hrow | ⟨v, hv, rfl⟩
    · exact .inl hrow
    · rcases List.mem_cons.1 hv with rfl | hv
      · exact absurd rfl hid'.1
      · exact .inr ⟨v, hv, rfl⟩

/-- The removals that a pass starts with. -/
theorem Leaving.of_pass {order : MapOrder} (hn : RowsNamed a)
    (hknown : ∀ (id : String) (u : AuthUser),
      pass.current[id]? = some u ∨ pass.removed[id]? = some u → u.nativeAuthID = id ∧ id ≠ "")
    (hactive : ∀ id ∈ a.users.rows, h.Active id)
    (howed : tracked = true → ∀ id ∈ h.owed, id ∈ a.users.rows ∨ id ∈ pass.leaving) :
    Leaving tracked (order.iterate (users pass.leaving)) a h := by
  have hleaving : ∀ (id : String) (u : AuthUser), pass.leaving[id]? = some u →
      u.nativeAuthID = id ∧ id ≠ "" := by
    intro id u hu
    rcases hp : pass.full with - | -
    · rw [pass.leaving_incremental hp] at hu
      exact hknown id u (.inr hu)
    · rw [pass.getElem?_leaving_full hp] at hu
      split at hu
      · exact hknown id u (.inr hu)
      · exact hknown id u ((Option.or_eq_some_iff.1 hu).imp_right And.right)
  refine ⟨hn, fun u hu => ?_, hactive, fun ht id hid => (howed ht id hid).imp_right fun hl => ?_⟩
  · obtain ⟨id, hid⟩ := mem_users.1 ((order.perm _).mem_iff.1 hu)
    obtain ⟨rfl, hne⟩ := hleaving id u hid
    exact hne
  · obtain ⟨u, hu⟩ := mem_iff_exists_getElem?.1 hl
    exact ⟨u, (order.perm _).mem_iff.2 (mem_users.2 ⟨id, hu⟩), (hleaving id u hu).1⟩

/-- The commit of a full pass. -/
theorem Revoking.commit (hr : Revoking tracked true [] fromID pass a h)
    (hrows : AuthUsers.replace (users pass.keep) = .ok rows) (order : MapOrder)
    (state : Std.ExtTreeMap String StateValue) :
    Leaving tracked (order.iterate (users pass.leaving)) { a with users := rows, state := state }
      { h with owed := h.owed.insertMany ((users pass.keep).map (·.connectionID)) } := by
  have hkeep : rows.rows = pass.keep :=
    rows_of_replace_users (fun id u hu => (hr.kept rfl id u hu).1) hrows
  have hget : ∀ id ∈ rows.rows, ∃ u, pass.keep[id]? = some u := fun id hid => by
    rw [hkeep] at hid
    exact mem_iff_exists_getElem?.1 hid
  refine Leaving.of_pass ?_ hr.known ?_ ?_
  · intro id u hu
    change rows.rows[id]? = some u at hu
    rw [hkeep] at hu
    exact ⟨(hr.kept rfl id u hu).2.1, (hr.kept rfl id u hu).2.2.1⟩
  · intro id hid
    obtain ⟨u, hu⟩ := hget id hid
    simp only [Kicks.Active, hr.isFull.2, if_true]
    exact (hr.kept rfl id u hu).2.2.2
  · intro ht id hid
    rw [Std.ExtTreeSet.mem_insertMany_list, List.contains_iff_mem] at hid
    by_cases hk : id ∈ pass.keep
    · exact .inl (hkeep ▸ hk : id ∈ rows.rows)
    · right
      have howed : id ∈ h.owed := by
        refine hid.resolve_right fun hmem => hk ?_
        obtain ⟨u, hu, rfl⟩ := List.mem_map.1 hmem
        obtain ⟨i, hi⟩ := mem_users.1 hu
        exact (hr.kept rfl i u hi).1 ▸ mem_iff_exists_getElem?.2 ⟨u, hi⟩
      rw [Std.ExtTreeMap.mem_iff_isSome_getElem?, pass.getElem?_leaving_full hr.isFull.1, if_neg hk,
        Option.isSome_or, Bool.or_eq_true, ← Std.ExtTreeMap.mem_iff_isSome_getElem?,
        ← Std.ExtTreeMap.mem_iff_isSome_getElem?, hr.whole rfl]
      exact hr.owed ht id howed

theorem finishSyncPass_kicking (order : MapOrder) (r : PassResult)
    (hr : Revoking tracked full [] fromID pass w.1.agent w.2) :
    Safe kicking (hysteriaSync.finishSyncPass order pass r).run
      (orNamed fun _ => Kicked tracked) w := by
  have hp := hr.isFull.1
  unfold CredentialSync.finishSyncPass
  cases full with
  | false =>
    simp only [CredentialPass.whenFull, hp, Bool.false_eq_true, if_false]
    refine bind_kicking (Q := fun _ => Leaving tracked (order.iterate (users pass.leaving)))
      (pure_kicking ?_) fun _ w1 hw1 => bind_kicking (kicks_safe _ hw1) fun _ w2 hw2 =>
        pure_kicking hw2
    refine Leaving.of_pass hr.named hr.known (fun id hid => ?_) ?_
    · simp only [Kicks.Active, hr.isFull.2, Bool.false_eq_true, if_false]
      exact fun hd => (hr.gone rfl id hid hd).resolve_right (by simp)
    · rw [pass.leaving_incremental hp]
      exact hr.owed
  | true =>
    simp only [CredentialPass.whenFull, hp, if_true]
    refine bind_kicking (Q := fun _ => Leaving tracked (order.iterate (users pass.leaving)))
      (attempt_kicking (c := .applyFullAuthSnapshot (users pass.keep) authSyncCursorKey
        r.manifestStartedAtMS) hr.named fun x a he => ?_) fun _ w1 hw1 =>
          bind_kicking (kicks_safe _ hw1) fun _ w2 hw2 => pure_kicking hw2
    obtain ⟨rows, hu, he⟩ := Except.map_eq_ok.1 he
    cases he
    have hcommit := hr.commit hu order
      (w.1.agent.state.insert authSyncCursorKey (.int r.manifestStartedAtMS))
    exact ⟨hcommit.1, hcommit⟩

/-! ## The pass -/

/-- A pass that has not seen a page. -/
def Fresh (tracked : Bool) (a : Agent) (h : Kicks) : Prop :=
  RowsNamed a ∧ h.deleted = ∅ ∧ (tracked = true → ∀ id ∈ h.owed, id ∈ a.users.rows)

theorem Fresh.first (hf : Fresh tracked a h) (hm : decodeManifest m = .ok r) (request : Request)
    (hfrom : request.fromConnectionID = "") (hasc : Ascending "" (r.changes.map (·.connectionID))) :
    Revoking tracked (request.full || r.full) r.changes ""
      ⟨request.full || r.full, a.users.rows, ∅, ∅⟩ a
      (Kicks.note (.authManifest request) (.ok m) h) := by
  obtain ⟨howed, hup, hdel, hfull⟩ := Kicks.note_page hm request h
  rw [if_pos hfrom] at hfull
  refine ⟨hf.1, ⟨rfl, hfull⟩, hasc, fun c hc => ?_, fun id u hu => ?_, fun _ => rfl,
    fun _ id u hu => by simp at hu, fun _ id hid _ => hid, fun _ id _ hd => ?_,
    fun ht id hid => .inl (hf.2.2 ht id (howed ▸ hid))⟩
  · exact ⟨payload_connectionID hm hc, fun hop => (hup _).2 (.inr ⟨c, hc, hop, rfl⟩)⟩
  · exact hf.1 id u (hu.resolve_right (by simp))
  · rcases (hdel id).1 hd with hd | ⟨c, hc, -, rfl⟩
    · rw [hf.2.1] at hd
      simp at hd
    · exact .inr (List.mem_map_of_mem hc)

variable (tracked) in
def kickOutline : Outline (CredentialChange HysteriaCredential) CredentialPass
    (World String × Kicks) where
  ready _ _ w := Fresh tracked w.1.agent w.2
  first full _ r w := Revoking tracked (full || r.full) r.changes ""
    ⟨full || r.full, w.1.agent.users.rows, ∅, ∅⟩ w.1.agent w.2
  mid _ _ short cs p w := Revoking tracked p.full cs p.fromConnectionID p.pass w.1.agent w.2 ∧
    (short = false → cs = [] → p.fromConnectionID ≠ "")
  finished _ w := Kicked tracked w.1.agent w.2
  failed w := RowsNamed w.1.agent

variable {pageSize : ℤ}

theorem beginSyncPass_kicking
    (hr : Revoking tracked full cs "" ⟨full, w.1.agent.users.rows, ∅, ∅⟩ w.1.agent w.2) :
    Safe kicking (hysteriaSync.beginSyncPass full).run
      (orNamed fun pass => Revoking tracked full cs "" pass) w := by
  unfold CredentialSync.beginSyncPass
  refine bind_kicking (Q := fun l a h => l = a.users.list ∧
    Revoking tracked full cs "" ⟨full, a.users.rows, ∅, ∅⟩ a h)
    (attempt_kicking (c := .listAuthUsers) hr.named fun x a he => ?_) ?_
  · cases he
    exact ⟨hr.named, rfl, hr⟩
  · rintro l w' ⟨rfl, hr⟩
    refine pure_kicking (Q := Revoking tracked full cs "") ?_
    rwa [indexUsers_list]

theorem kickOutline_holds (tracked : Bool) (hsize : validatePageSize pageSize = .ok ())
    (order : MapOrder) (fuel : ℕ) :
    (kickOutline tracked).Holds kicking manifestSource (hysteriaSync.applier order) pageSize
      fuel where
  ready full since w hf := by
    refine (fetch_kicking ⟨full, since, pageSize, ""⟩ (Q := fun r a h =>
      Revoking tracked (full || r.full) r.changes "" ⟨full || r.full, a.users.rows, ∅, ∅⟩ a h)
      hsize hf.1 fun m r hm hasc =>
        hf.first hm ⟨full, since, pageSize, ""⟩ rfl hasc).imp fun r w hw => ?_
    exact ⟨hw.named, fun _ => hw⟩
  first full since r w hvalid hr := by
    refine (beginSyncPass_kicking hr).imp fun pass w' hw' => ?_
    refine ⟨hw'.isFull.1 ▸ hw', fun hs hcs => ?_⟩
    have hbounds := validatePageSize_eq_ok.1 hsize
    simp [Response.short, hcs] at hs
    omega
  change n since short c cs p w hr := by
    refine (applySyncChange_kicking hr.1).imp fun pass w' hw' => ?_
    refine ⟨hw', fun _ _ h0 => not_lt_empty p.fromConnectionID ?_⟩
    have hlt := hr.1.order_cons.1
    rwa [show c.connectionID = "" from h0] at hlt
  spent since p w hr := hr.1.named
  next n since p w hr := by
    have hfrom := hr.2 rfl rfl
    refine (fetch_kicking ⟨p.full, since, pageSize, p.fromConnectionID⟩
      (Q := fun r a h => Revoking tracked p.full r.changes p.fromConnectionID p.pass a h)
      hsize hr.1.named fun m r hm hasc => hr.1.page hm ?_ hasc).imp fun r w' hw' => ?_
    · rw [(Kicks.note_page hm _ _).2.2.2, if_neg hfrom]
      exact hr.1.isFull.2
    · exact ⟨hw'.named, fun _ => ⟨hw', fun _ _ => hfrom⟩⟩
  finish n since p w hr := finishSyncPass_kicking order _ hr.1

/-- A whole pass. -/
theorem runOnce_kicking (args : PassArgs) (hf : Fresh tracked w.1.agent w.2) :
    Safe kicking (hysteriaSync.runOnce args.pageSize args.order args.fuel args.full).run
      (orNamed fun _ => Kicked tracked) w := by
  refine CredentialSync.runOnce_safe ?_ fun hsize => ?_
  · rintro e w' ⟨hagent, -⟩
    simp only [orNamed, onOk_error, hagent]
    exact hf.1
  refine (kickOutline_holds tracked hsize args.order args.fuel).runPass ?_
    fun p w hk => ?_
  · refine loadCursor_safe ((hysteria_shape (K := fun _ => True) fun _ => trivial).getState _) ?_
      fun _ => ?_
    · rintro - w' ⟨hagent, hkicks⟩
      change Fresh tracked w'.1.agent w'.2
      rwa [hagent, hkicks]
    · refine (attempt_kicking (c := .getState authSyncCursorKey)
        (Q := fun _ => Fresh tracked) hf.1 fun r a he => ?_).mono ?_
      · cases he
        exact ⟨hf.1, hf⟩
      · rintro (e | x) w' hw'
        · exact hw'
        · rcases x with - | v | s
          · exact hw'
          · exact hw'
          · exact hw'.1
  · refine attempt_kicking (c := .setState authSyncCursorKey (.int p.passCursor))
      (Q := fun _ => Kicked tracked) hk.1 fun r a he => ?_
    cases he
    exact ⟨hk.1, hk⟩

end Pass

/-! ## All runs -/

section Runs

abbrev KickConfig : Type :=
  Solo.Config (SyncCall HysteriaCredential) SyncCall.Reply (World String × Kicks)
    (Except String Unit)

/-- Every connection that was stored and not kicked since still has its row. -/
def Remembered (w : World String × Kicks) : Prop :=
  ∀ id ∈ w.2.owed, id ∈ w.1.agent.users.rows

/-- The passes that begin while every connection is remembered, or any passes at all. -/
def BeginsTracked (tracked : Bool) (s : KickConfig) : SyncEvent String → Prop
  | .start _ => tracked = true → Remembered s.world
  | _ => True

theorem kick_sound (tracked : Bool) :
    Solo.Sound kickSystem kicking (fun w => RowsNamed w.1.agent) (fun w => RowsNamed w.1.agent)
      (fun r w => r = .ok () → Kicked tracked w.1.agent w.2) (BeginsTracked tracked) where
  perform := rfl
  act s r w _ hw := by
    obtain ⟨w', hw', rfl⟩ : ∃ w', s.world.1.commit hysteriaAdapter r = some w' ∧
        (w', s.world.2) = w := by
      simpa [kickSystem, System.observe, syncSystem] using hw
    exact ⟨(commit_eq_some hw').1, rfl⟩
  idle w w' h hr := by rwa [hr.1]
  crash w w' h hr := by rwa [hr.1]
  guar _ _ h := h
  start s args w hm h hw := by
    cases hw
    have hf : Fresh tracked s.world.1.agent s.world.2.begin := ⟨h, rfl, hm⟩
    refine ⟨h, Safe.mono (runOnce_kicking args hf) ?_⟩
    rintro (e | ⟨⟩) w' hw'
    · exact ⟨hw', nofun⟩
    · exact ⟨hw'.1, fun _ => hw'⟩
  call _ _ _ _ _ _ := trivial
  stop _ _ _ _ _ h := h

variable {s₀ s₁ s₂ : KickConfig} {pre post : List (SyncEvent String)} {args : PassArgs}

/-- Take any run of passes and server changes, with any failures and interruptions. A pass that
began while every connection that was stored and not kicked since
still had its row, and that succeeds, has revoked all that its manifest does not have: what was
stored and not kicked since is still stored, and is active in the manifest. -/
theorem revoked_before_success (h₀ : s₀.task = none) (hnamed : RowsNamed s₀.world.1.agent)
    (h₁ : runs (Solo.step kickSystem) s₀ pre = some s₁)
    (hrem : Remembered s₁.world)
    (h₂ : runs (Solo.step kickSystem) s₁ (.start args :: post) = some s₂)
    (hpost : ∀ a, .start a ∉ post) (hok : s₂.task = some (.done (.ok ()))) :
    ∀ id ∈ s₂.world.2.owed, id ∈ s₂.world.1.agent.users.rows ∧ s₂.world.2.Active id := by
  obtain ⟨t, ht, hpostrun⟩ := (runs_cons s₁ s₂ (.start args) post).1 h₂
  have hgood := (kick_sound false).runs (along_of_forall fun e _ s => ?_) h₁ ?_
  · have hstarted := (kick_sound true).started (hgood.idle (Solo.not_running_of_start ht))
      (fun _ => hrem) ht
    have hend := (kick_sound true).runs (along_of_forall fun e he s => ?_) hpostrun hstarted
    · exact ((hend.result hok).2 rfl).2 rfl
    · cases e with
      | start a => exact absurd he (hpost a)
      | act | call | stop => exact trivial
  · cases e with
    | start a => exact nofun
    | act | call | stop => exact trivial
  · rw [Solo.Good, h₀]
    exact hnamed

/-- The connection is synced and then deleted. The next pass deletes its row and cannot kick its
client. The pass after that succeeds. -/
def failedKick : List (SyncEvent String) :=
  [.start ⟨false, 100, .sorted, 2⟩, .call ⟨.ok, 0, 0⟩, .call ⟨.ok, 5, 0⟩, .call ⟨.ok, 0, 0⟩,
    .call ⟨.ok, 0, 0⟩, .call ⟨.ok, 0, 0⟩,
    .act ⟨"c1", .deleted, 9, .active, "hash"⟩,
    .start ⟨false, 100, .sorted, 2⟩, .call ⟨.ok, 0, 0⟩, .call ⟨.ok, 10, 0⟩, .call ⟨.ok, 0, 0⟩,
    .call ⟨.ok, 0, 0⟩, .call ⟨.refused "kick failed", 0, 0⟩,
    .start ⟨false, 100, .sorted, 2⟩, .call ⟨.ok, 0, 0⟩, .call ⟨.ok, 11, 0⟩, .call ⟨.ok, 0, 0⟩,
    .call ⟨.ok, 0, 0⟩, .call ⟨.ok, 0, 0⟩]

/-- The last pass has read that the connection is deleted and has succeeded, and nobody has kicked
its client. -/
theorem client_never_kicked :
    ∃ s, runs (Solo.step kickSystem) ⟨(oneConnection, .empty), none⟩ failedKick = some s ∧
      s.task = some (.done (.ok ())) ∧ "c1" ∈ s.world.2.owed ∧ ¬ s.world.2.Active "c1" := by
  obtain ⟨s, hs, hok, hp⟩ := of_succeeded
    (p := fun w : World String × Kicks => "c1" ∈ w.2.owed ∧ ¬ w.2.Active "c1")
    (s := runs (Solo.step kickSystem) ⟨(oneConnection, .empty), none⟩ failedKick)
    (by decide +kernel)
  exact ⟨s, hs, hok, of_decide_eq_true hp⟩

/-- When the same deletion is synced without a failure, the client is kicked. -/
theorem revoked_before_success_deleted :
    ∃ s, runs (Solo.step kickSystem) ⟨(oneConnection, .empty), none⟩ (failedKick.take 7 ++
      .start ⟨false, 100, .sorted, 2⟩ :: List.replicate 6 (.call ⟨.ok, 10, 0⟩)) = some s ∧
      s.task = some (.done (.ok ())) ∧
      ∀ id ∈ s.world.2.owed, id ∈ s.world.1.agent.users.rows ∧ s.world.2.Active id := by
  obtain ⟨s, hs, hok, -⟩ := of_succeeded (p := fun _ : World String × Kicks => true)
    (s := runs (Solo.step kickSystem) ⟨(oneConnection, .empty), none⟩ (failedKick.take 7 ++
      .start ⟨false, 100, .sorted, 2⟩ :: List.replicate 6 (.call ⟨.ok, 10, 0⟩)))
    (by decide +kernel)
  obtain ⟨s₁, h₁, h₂⟩ := (runs_append _ _ _ _).1 hs
  refine ⟨s, hs, hok, revoked_before_success rfl (fun id u hu => ?_) h₁ ?_ h₂ (fun a ha => ?_) hok⟩
  · simp [oneConnection, AuthUsers.empty] at hu
  · obtain ⟨s', hs', -, hp⟩ := of_succeeded (p := fun w : World String × Kicks =>
      decide (∀ id ∈ w.2.owed.toList, id ∈ w.1.agent.users.rows))
      (s := runs (Solo.step kickSystem) ⟨(oneConnection, .empty), none⟩ (failedKick.take 7))
      (by decide +kernel)
    obtain rfl := Option.some.inj (hs'.symm.trans h₁)
    exact fun id hid => of_decide_eq_true hp id (Std.ExtTreeSet.mem_toList.2 hid)
  · cases List.eq_of_mem_replicate ha

end Runs

end LazGate
