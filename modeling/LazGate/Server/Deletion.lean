import LazGate.Server.Provisioning
import LazGate.Server.Versions

/-!
# Deletion is final

The requests of administrators and clients run side by side. Those that hold or resume read the
connections first and write them later, each by the same update that deletes.
-/

namespace LazGate

open Prog

/-! ## The system -/

def ConnectionRequest.setsStatus : ConnectionRequest → Bool
  | .hold _ | .resume _ | .holdAccount _ | .resumeAccount _ => true
  | _ => false

/-- The database, and for each request under way that holds or resumes the connections it has read
as not deleted. -/
structure DeletionWorld where
  store : StoreWorld
  seen : Pool.Board (List String)

/-- The connections among `rows` that are not deleted. -/
def liveIDs (rows : List Connection) : List String :=
  (rows.filter fun c => c.desiredStatus != .deleted).map Connection.id

/-- The record after a call and its answer. -/
def seenAfter (ids : List String) : (c : StoreCall) → c.Reply → Option (List String)
  | .getConnection _, .ok row => some (liveIDs [row] ++ ids)
  | .listConnections, rows => some (liveIDs rows ++ ids)
  | .respond, _ => none
  | _, _ => some ids

def deletionSystem (R : Rendering) : PoolSystem StoreCall StoreCall.Reply StoreOutcome
    DeletionWorld Empty ConnectionRequest Unit where
  perform i c f w := ((c.perform f w.store).1, ⟨(c.perform f w.store).2,
    w.seen.set i ((w.seen i).bind fun ids => seenAfter ids c (c.perform f w.store).1)⟩)
  act e _ := e.elim
  enter i q w := some { w with seen := w.seen.set i (if q.setsStatus then some [] else none) }
  prog := ConnectionRequest.program R

def Database.NotDeleted (db : Database) (id : String) : Prop :=
  ∀ c ∈ db.connections, c.id = id → c.desiredStatus ≠ .deleted

instance (db : Database) (id : String) : Decidable (db.NotDeleted id) :=
  inferInstanceAs (Decidable (∀ c ∈ db.connections, c.id = id → c.desiredStatus ≠ .deleted))

/-- A request to hold or resume a connection does not read a deleted one, and no connection is
deleted that a request under way to hold or resume has read. -/
def DeletionsApart (i : ℕ) (c : StoreCall) (_ : StoreOutcome) (w : DeletionWorld) : Prop :=
  match c with
  | .getConnection id => w.seen i = some [] → w.store.db.NotDeleted id
  | .setDesiredStatus id .deleted _ => w.seen.Others i fun ids => id ∉ ids
  | .softDeleteNode nodeID _ => w.seen.Others i fun ids =>
    ∀ c ∈ w.store.db.connections, c.nodeID = nodeID → c.id ∉ ids
  | _ => True

instance (i : ℕ) (c : StoreCall) (f : StoreOutcome) (w : DeletionWorld) :
    Decidable (DeletionsApart i c f w) := by
  unfold DeletionsApart
  split <;> infer_instance

/-! ## Connections that were read as not deleted -/

/-- The invariant: what is recorded is there and not deleted. -/
structure SeenLive (w : DeletionWorld) : Prop where
  keyed : Table.Keyed Connection.id w.store.db.connections
  live : ∀ i ids, w.seen i = some ids → ∀ id ∈ ids,
    (∃ c ∈ w.store.db.connections, c.id = id) ∧ w.store.db.NotDeleted id

/-- A request deletes only if it does not hold or resume, and it holds or resumes only what it has
read as not deleted. -/
def DeletionConf (i : ℕ) (c : StoreCall) (w : DeletionWorld) : Prop :=
  match c with
  | .setDesiredStatus id status _ => status = .deleted ∧ w.seen i = none ∨
    status ≠ .deleted ∧ ∃ ids, w.seen i = some ids ∧ id ∈ ids
  | .softDeleteNode .. => w.seen i = none
  | _ => True

def StayDeleted (w w' : DeletionWorld) : Prop :=
  ∀ c ∈ w.store.db.connections, c.desiredStatus = .deleted →
    (∃ c' ∈ w'.store.db.connections, c'.id = c.id) ∧
      ∀ c' ∈ w'.store.db.connections, c'.id = c.id → c'.desiredStatus = .deleted

variable {w : DeletionWorld}

theorem StayDeleted.refl (h : Table.Keyed Connection.id w.store.db.connections) :
    StayDeleted w w := by
  intro c hc hdel
  refine ⟨⟨c, hc, rfl⟩, fun c' hc' hid => ?_⟩
  rwa [h.eq_of_mem hc' hc hid]

theorem StayDeleted.trans {w₁ w₂ w₃ : DeletionWorld} (h : StayDeleted w₁ w₂)
    (h' : StayDeleted w₂ w₃) : StayDeleted w₁ w₃ := by
  intro c hc hdel
  obtain ⟨⟨c₂, hc₂, hid₂⟩, hall⟩ := h c hc hdel
  have h₂ := h' c₂ hc₂ (hall c₂ hc₂ hid₂)
  rwa [hid₂] at h₂

variable {ids : List String} {id : String}

section Calls

variable {R : Rendering} {i : ℕ} {c : StoreCall} {f : StoreOutcome} {w : DeletionWorld}

/-- What a request has recorded after a call are rows that were live when it was made, or it was
recorded before. -/
theorem mem_seenAfter {ids ids' : List String}
    (h : seenAfter ids c (c.perform f w.store).1 = some ids') (hid : id ∈ ids') :
    id ∈ ids ∨ ∃ row ∈ w.store.db.connections, row.id = id ∧ row.desiredStatus ≠ .deleted ∧
      c.tx = none := by
  have hlive : ∀ rows : List Connection, rows ⊆ w.store.db.connections →
      id ∈ liveIDs rows ++ ids → c.tx = none → id ∈ ids ∨ ∃ row ∈ w.store.db.connections,
        row.id = id ∧ row.desiredStatus ≠ .deleted ∧ c.tx = none := by
    intro rows hsub hmem htx
    rcases List.mem_append.1 hmem with hmem | hmem
    · obtain ⟨row, hrow, rfl⟩ := List.mem_map.1 hmem
      obtain ⟨hrow, hdel⟩ := List.mem_filter.1 hrow
      exact .inr ⟨row, hsub hrow, rfl, by simpa using hdel, htx⟩
    · exact .inl hmem
  cases c <;> simp only [seenAfter, Option.some.injEq, reduceCtorEq] at h <;>
    first | exact .inl (h ▸ hid) | skip
  case getConnection cid =>
    cases hr : ((StoreCall.getConnection cid).perform f w.store).1 with
    | error e =>
      rw [hr] at h
      exact .inl (Option.some.inj h ▸ hid)
    | ok row =>
      rw [hr] at h
      cases h
      refine hlive [row] (fun row' hrow' => ?_) hid rfl
      rw [List.mem_singleton.1 hrow']
      exact (StoreCall.getConnection_ok hr).1
  case listConnections =>
    subst h
    exact hlive _ (StoreCall.listConnections_subset f w.store) hid rfl

section

variable (h : SeenLive w) (hk : DeletionsApart i c f w) (hc : DeletionConf i c w)

include h hk hc

/-- A call that conforms does not delete what the others have read. -/
theorem SeenLive.notDeleted_perform {j : ℕ} (hseen : w.seen j = some ids) (hid : id ∈ ids) :
    (c.perform f w.store).2.db.NotDeleted id := by
  intro row hrow hrowid
  obtain ⟨⟨row₁, hrow₁, hid₁⟩, hlive⟩ := h.live j ids hseen id hid
  rcases StoreCall.mem_perform_connections hrow with
    ⟨row₀, hrow₀, hid₀, hsame | hset | hnode⟩ | hnew
  · rw [hsame]
    exact hlive row₀ hrow₀ (hid₀.trans hrowid)
  · obtain ⟨t, rfl⟩ := hset
    intro hdel
    rw [hdel] at hk hc
    rcases hc with ⟨-, hnone⟩ | ⟨hne, -⟩
    · have hji : j ≠ i := by
        rintro rfl
        rw [hseen] at hnone
        cases hnone
      rw [hid₀, hrowid] at hk
      exact hk.apply hji hseen hid
    · exact hne rfl
  · obtain ⟨t, rfl, -⟩ := hnode
    have hnone : w.seen i = none := hc
    have hji : j ≠ i := by
      rintro rfl
      rw [hseen] at hnone
      cases hnone
    have hout := Pool.Board.Others.apply hk hji hseen row₀ hrow₀ rfl
    rw [hid₀, hrowid] at hout
    exact absurd hid hout
  · obtain ⟨bundle, -, -, hfresh⟩ := hnew
    exact absurd (hid₁.trans hrowid.symm) (hfresh row₁ hrow₁)

theorem SeenLive.perform :
    SeenLive ((deletionSystem R).perform i c f w).2 := by
  refine ⟨c.keyed_perform f h.keyed, fun j ids hseen id hid => ?_⟩
  have hold : ∀ j ids, w.seen j = some ids → id ∈ ids →
      (∃ row ∈ (c.perform f w.store).2.db.connections, row.id = id) ∧
        (c.perform f w.store).2.db.NotDeleted id := by
    intro j ids hseen hid
    obtain ⟨⟨row, hrow, hrowid⟩, -⟩ := h.live j ids hseen id hid
    obtain ⟨row', hrow', hid'⟩ := c.ids_perform f hrow
    exact ⟨⟨row', hrow', hid'.trans hrowid⟩, h.notDeleted_perform hk hc hseen hid⟩
  rcases Pool.Board.of_set hseen with hset | ⟨-, hother⟩
  · obtain ⟨old, hown, hafter⟩ := Option.bind_eq_some_iff.1 hset
    rcases mem_seenAfter hafter hid with hid | ⟨row, hrow, rfl, hlive, htx⟩
    · exact hold i old hown hid
    · change (∃ row' ∈ (c.perform f w.store).2.db.connections, _) ∧
        (c.perform f w.store).2.db.NotDeleted _
      rw [StoreCall.perform_db_of_tx_eq_none htx]
      refine ⟨⟨row, hrow, rfl⟩, fun row' hrow' hid' => ?_⟩
      rwa [h.keyed.eq_of_mem hrow' hrow hid']
  · exact hold j ids hother hid

end

theorem SeenLive.stayDeleted (h : SeenLive w) (hc : DeletionConf i c w) :
    StayDeleted w ((deletionSystem R).perform i c f w).2 := by
  intro row hrow hdel
  refine ⟨c.ids_perform f hrow, fun row' hrow' hid => ?_⟩
  rcases StoreCall.mem_perform_connections hrow' with
    ⟨row₀, hrow₀, hid₀, hsame | hset | hnode⟩ | hnew
  · rw [hsame, h.keyed.eq_of_mem hrow₀ hrow (hid₀.trans hid)]
    exact hdel
  · obtain ⟨t, rfl⟩ := hset
    obtain rfl := h.keyed.eq_of_mem hrow₀ hrow (hid₀.trans hid)
    rcases hc with ⟨hdel', -⟩ | ⟨-, ids, hseen, hmem⟩
    · exact hdel'
    · exact absurd hdel ((h.live i ids hseen _ hmem).2 row₀ hrow rfl)
  · obtain ⟨t, -, hdel'⟩ := hnode
    exact hdel'
  · obtain ⟨bundle, -, -, hfresh⟩ := hnew
    exact absurd hid.symm (hfresh row hrow)

end Calls

/-! ## The requests -/

def deletionProtocol (R : Rendering) : Pool.Protocol (deletionSystem R) where
  rely i w w' := w'.seen i = w.seen i
  refl _ _ := rfl
  trans _ _ _ _ h h' := h'.trans h
  conf := DeletionConf

variable {α : Type} {p : Prog StoreCall StoreCall.Reply α} {c : StoreCall} (accountID : String)

section Requests

variable {R : Rendering} {i : ℕ}

theorem safe_deletes
    (hp : Only (fun c => ∀ id status t, c = .setDesiredStatus id status t → status = .deleted) p)
    (hw : w.seen i = none) :
    Safe ((deletionProtocol R).setting DeletionsApart i) p (fun _ _ => True) w := by
  refine ((deletionProtocol R).safe_only _ hp (I := fun w => w.seen i = none)
    (fun w w' hw hr => Eq.trans hr hw) ?_ hw).mono fun _ _ _ => trivial
  intro c f w hL hw
  constructor
  · cases c
    case setDesiredStatus id status t => exact .inl ⟨hL id status t rfl, hw⟩
    case softDeleteNode => exact hw
    all_goals trivial
  · change w.seen.set i _ i = none
    rw [Pool.Board.set_self, hw]
    rfl

/-- The request has read the connections `ids` as not deleted. -/
def HasSeen (i : ℕ) (ids : List String) (w : DeletionWorld) : Prop :=
  ∃ ids', w.seen i = some ids' ∧ ids ⊆ ids'

theorem HasSeen.rely {w w' : DeletionWorld} (h : HasSeen i ids w)
    (hr : (deletionProtocol R).rely i w w') : HasSeen i ids w' := by
  obtain ⟨ids', hseen, hsub⟩ := h
  exact ⟨ids', Eq.trans hr hseen, hsub⟩

theorem HasSeen.perform (hc : c ≠ .respond) {f : StoreOutcome} (h : HasSeen i ids w) :
    HasSeen i ids ((deletionSystem R).perform i c f w).2 := by
  obtain ⟨ids', hseen, hsub⟩ := h
  have hgrow : ∃ ids'', seenAfter ids' c (c.perform f w.store).1 = some ids'' ∧ ids' ⊆ ids'' := by
    generalize (c.perform f w.store).1 = r
    cases c <;> first | exact ⟨_, rfl, List.Subset.refl _⟩ | skip
    case getConnection =>
      cases r with
      | error e => exact ⟨_, rfl, List.Subset.refl _⟩
      | ok row => exact ⟨_, rfl, List.subset_append_right _ _⟩
    case listConnections => exact ⟨_, rfl, List.subset_append_right _ _⟩
    case respond => exact absurd rfl hc
  obtain ⟨ids'', hafter, hsub'⟩ := hgrow
  refine ⟨ids'', ?_, fun id hid => hsub' (hsub hid)⟩
  change w.seen.set i _ i = _
  rw [Pool.Board.set_self, hseen]
  exact hafter

/-- What a request may call that holds or resumes `ids`. -/
def Sets (ids : List String) (c : StoreCall) : Prop :=
  c ≠ .respond ∧ (∀ nodeID t, c ≠ .softDeleteNode nodeID t) ∧
    ∀ id status t, c = .setDesiredStatus id status t → status ≠ .deleted ∧ id ∈ ids

theorem Sets.of_quiet (ids : List String) (h : c.Quiet) : Sets ids c := by
  refine ⟨h.2, ?_, ?_⟩
  · rintro nodeID t rfl
    exact absurd h.1 nofun
  · rintro id status t rfl
    exact absurd h.1 nofun

theorem safe_sets (ids : List String) (hp : Only (Sets ids) p) (hw : HasSeen i ids w) :
    Safe ((deletionProtocol R).setting DeletionsApart i) p (fun _ => HasSeen i ids) w := by
  refine (deletionProtocol R).safe_only _ hp (fun w w' hw hr => hw.rely hr) ?_ hw
  rintro c f w ⟨hrespond, hnode, hset⟩ hw
  refine ⟨?_, hw.perform hrespond⟩
  cases c
  case setDesiredStatus id status t =>
    obtain ⟨hne, hid⟩ := hset id status t rfl
    obtain ⟨ids', hseen, hsub⟩ := hw
    exact .inr ⟨hne, ids', hseen, hsub hid⟩
  case softDeleteNode nodeID t => exact absurd rfl (hnode nodeID t)
  all_goals trivial

theorem only_sets_setConnectionStatus {connection : Connection} (hid : connection.id ∈ ids)
    (node : Node) (status : ConnectionStatus) :
    Only (Sets ids) (Connections.setConnectionStatus connection node status).run := by
  refine Connections.only_setConnectionStatus (fun c => Sets.of_quiet ids) ?_ ?_ node
  · intro hstatus t
    refine ⟨nofun, nofun, ?_⟩
    rintro id st t' he
    cases he
    refine ⟨?_, hid⟩
    rcases hstatus with rfl | rfl <;> decide
  · exact fun _ _ => ⟨nofun, nofun, nofun⟩

/-- The connection is read first, and it is not deleted. -/
theorem safe_setAccessRemoteStatus (connectionID : String) (status : ConnectionStatus)
    (hw : w.seen i = some []) :
    Safe ((deletionProtocol R).setting DeletionsApart i)
      (Provisioning.setAccessRemoteStatus connectionID status).run (fun _ _ => True) w := by
  have hread : Safe ((deletionProtocol R).setting DeletionsApart i)
      (Prog.ask (StoreCall.getConnection connectionID))
      (onOk (fun row => HasSeen i [row.id]) fun _ _ => True) w := by
    refine (deletionProtocol R).safe_ask _ fun w₁ hr => ⟨trivial, fun f hk w₂ hr₂ => ?_⟩
    have hw₁ : w₁.seen i = some [] := Eq.trans hr hw
    change onOk _ _ ((StoreCall.getConnection connectionID).perform f w₁.store).1 w₂
    cases hreply : ((StoreCall.getConnection connectionID).perform f w₁.store).1 with
    | error e => trivial
    | ok row =>
      obtain ⟨hmem, hid⟩ := StoreCall.getConnection_ok hreply
      have hlive : row.desiredStatus ≠ .deleted := hk hw₁ row hmem hid
      refine HasSeen.rely (R := R) (w := ((deletionSystem R).perform i _ f w₁).2) ?_ hr₂
      refine ⟨[row.id], ?_, List.Subset.refl _⟩
      change w₁.seen.set i _ i = _
      rw [Pool.Board.set_self, hw₁]
      change seenAfter [] _ ((StoreCall.getConnection connectionID).perform f w₁.store).1 = _
      rw [hreply]
      simp [seenAfter, liveIDs, hlive]
  have hnode : ∀ row : Connection, Only (Sets [row.id]) (Store.getNode row.nodeID).run :=
    fun row => Only.ask (Sets.of_quiet _ ⟨rfl, nofun⟩)
  refine Safe.andThen (Safe.andThen (hread.mono ?_))
  rintro (e | row) w₁ h₁
  · trivial
  refine Safe.andThen ((safe_sets _ (hnode row) h₁).mono ?_)
  rintro (e | node) w₂ h₂
  · trivial
  refine Safe.ok fun w₃ hr => ?_
  exact (safe_sets _ (only_sets_setConnectionStatus List.mem_cons_self node status)
    (HasSeen.rely (R := R) h₂ hr)).mono fun _ _ _ => trivial

theorem mem_liveIDs {rows : List Connection} {row : Connection} (hrow : row ∈ rows)
    (hlive : row.desiredStatus ≠ .deleted) : row.id ∈ liveIDs rows :=
  List.mem_map_of_mem (List.mem_filter.2 ⟨hrow, by simpa using hlive⟩)

/-- The connections that a summary lists as not deleted have been read. -/
theorem safe_summary (hw : HasSeen i [] w) :
    Safe ((deletionProtocol R).setting DeletionsApart i) (Store.summary accountID).run
      (onOk (fun s w => ∃ rows, HasSeen i (liveIDs rows) w ∧
        ∀ item ∈ s.2, item.connection ∈ rows) fun _ _ => True) w := by
  have hlist : ∀ w, HasSeen i [] w → Safe ((deletionProtocol R).setting DeletionsApart i)
      (Prog.ask StoreCall.listConnections) (fun rows => HasSeen i (liveIDs rows)) w := by
    intro w hw
    refine (deletionProtocol R).safe_ask _ fun w₁ hr => ⟨trivial, fun f _ w₂ hr₂ => ?_⟩
    obtain ⟨ids, hseen, -⟩ := HasSeen.rely (R := R) hw hr
    refine HasSeen.rely (R := R) (w := ((deletionSystem R).perform i _ f w₁).2) ?_ hr₂
    refine ⟨_, ?_, List.subset_append_left _ ids⟩
    change w₁.seen.set i _ i = _
    rw [Pool.Board.set_self, hseen]
    rfl
  have haccount : Only (Sets []) (Store.getAccount accountID).run :=
    Only.ask (Sets.of_quiet [] ⟨rfl, nofun⟩)
  have hnodes : Only (Sets []) Store.listNodes.run :=
    Only.lift (Only.ask (Sets.of_quiet [] ⟨rfl, nofun⟩))
  refine Safe.andThen ((safe_sets _ haccount hw).mono ?_)
  rintro (e | account) w₁ h₁
  · trivial
  refine Safe.andThen ((safe_sets _ hnodes h₁).mono ?_)
  rintro (e | nodes) w₂ h₂
  · trivial
  refine Safe.andThen (Safe.map ((hlist w₂ h₂).mono fun rows w₃ h₃ => ?_))
  refine Safe.ok fun w₄ hr => ⟨rows, HasSeen.rely (R := R) h₃ hr, fun item hitem => ?_⟩
  obtain ⟨row, hrow, rfl⟩ := List.mem_map.1 hitem
  exact (List.mem_filter.1 hrow).1

theorem safe_setAccountRemoteStatus (status : AccountStatus) (hw : w.seen i = some []) :
    Safe ((deletionProtocol R).setting DeletionsApart i)
      (Provisioning.setAccountRemoteStatus accountID status).run (fun _ _ => True) w := by
  have hupdate : Only (Sets []) (Store.updateAccountStatus accountID status).run :=
    Store.only_updateAccountStatus (fun c => Sets.of_quiet []) ⟨nofun, nofun, nofun⟩
  refine Safe.andThen ((safe_sets _ hupdate ⟨[], hw, List.Subset.refl _⟩).mono ?_)
  rintro (e | account) w₁ h₁
  · trivial
  refine Safe.andThen ((safe_summary accountID h₁).mono ?_)
  rintro (e | ⟨_, items⟩) w₂ h₂
  · trivial
  obtain ⟨rows, hseen, hitems⟩ := h₂
  refine (safe_sets (liveIDs rows) (Only.andThen ?_ fun _ => Only.ok) hseen).mono
    fun _ _ _ => trivial
  refine Provisioning.only_forEachConnection fun item hitem hlive => ?_
  exact only_sets_setConnectionStatus (mem_liveIDs (hitems item hitem) hlive) _ _

theorem safe_serve {x : StoreM α}
    (hx : Safe ((deletionProtocol R).setting DeletionsApart i) x.run (fun _ _ => True) w) :
    Safe ((deletionProtocol R).setting DeletionsApart i) (StoreM.serve x) (fun _ _ => True) w := by
  refine Safe.bind (hx.mono fun _ w₁ _ => ?_)
  exact (deletionProtocol R).safe_ask _ fun w₂ _ => ⟨trivial, fun _ _ _ _ => trivial⟩

theorem deletionProtocol_kept (R : Rendering) : (deletionProtocol R).Kept DeletionsApart where
  act e := e.elim
  enter n q w w' he i hi := by
    cases he
    exact Pool.Board.set_of_ne _ hi.ne _
  call i c f w j hj _ _ := Pool.Board.set_of_ne _ hj _
  prog n q w w' he := by
    cases he
    have hown : (w.seen.set n (if q.setsStatus then some [] else none)) n = _ :=
      Pool.Board.set_self ..
    -- the calls of the requests that do not hold or resume
    have hquiet : ∀ c : StoreCall, c.Quiet →
        ∀ id status t, c = .setDesiredStatus id status t → status = .deleted := by
      rintro c hc id status t rfl
      exact absurd hc.1 nofun
    have hdel : ∀ cid t', ∀ id status t, StoreCall.setDesiredStatus cid .deleted t' =
        .setDesiredStatus id status t → status = .deleted := by
      rintro cid t' id status t he
      cases he
      rfl
    cases q with
    | create accountID nodeID name protocol =>
      exact safe_serve (safe_deletes
        (Provisioning.only_connectionsHandler hquiet (fun _ => nofun) R _ _ _ _) hown)
    | provision accountID nodeID name protocol =>
      exact safe_serve (safe_deletes
        (Provisioning.only_provisionAccess hquiet (fun _ => nofun) R _ _ _ _) hown)
    | hold connectionID => exact safe_serve (safe_setAccessRemoteStatus connectionID .held hown)
    | resume connectionID => exact safe_serve (safe_setAccessRemoteStatus connectionID .active hown)
    | delete connectionID =>
      exact safe_serve (safe_deletes
        (Provisioning.only_deleteRemoteAccess hquiet hdel (fun _ _ => nofun) connectionID) hown)
    | holdAccount accountID => exact safe_serve (safe_setAccountRemoteStatus accountID .held hown)
    | resumeAccount accountID =>
      exact safe_serve (safe_setAccountRemoteStatus accountID .active hown)
    | deleteAccount accountID =>
      exact safe_serve (safe_deletes (Provisioning.only_deleteRemoteAccount hquiet hdel
        (fun _ _ => nofun) (fun _ => nofun) accountID) hown)
    | deleteNode nodeID =>
      refine safe_serve (safe_deletes ?_ hown)
      refine Only.andThen (Only.lift (Only.ask nofun)) fun t => ?_
      exact Only.andThen (Only.ask nofun) fun _ => Only.ask nofun
    | createConnections input =>
      exact safe_serve (safe_deletes
        (SelfService.only_createConnections hquiet (fun _ => nofun) R input) hown)
    | deleteConnection accountID connectionID =>
      exact safe_serve (safe_deletes
        (SelfService.only_deleteConnection hquiet hdel (fun _ _ => nofun) _ _) hown)

end Requests

theorem SeenLive.enter (h : SeenLive w) (n : ℕ) (q : ConnectionRequest) :
    SeenLive { w with seen := w.seen.set n (if q.setsStatus then some [] else none) } := by
  refine ⟨h.keyed, fun j ids hseen id hid => ?_⟩
  rcases Pool.Board.of_set hseen with hset | ⟨-, hother⟩
  · split at hset
    · rw [← Option.some.inj hset] at hid
      cases hid
    · cases hset
  · exact h.live j ids hother id hid

/-- While requests to hold or resume do not read deleted connections and no connection is deleted
that such a request under way has read, a connection that is deleted stays deleted. -/
theorem deletion_is_final (R : Rendering) (w : StoreWorld)
    (hkeyed : Table.Keyed Connection.id w.db.connections)
    (es es' : List (Pool.Event StoreOutcome Empty ConnectionRequest))
    (s s' : Pool.Config StoreCall StoreCall.Reply DeletionWorld Unit)
    (hapart : Along (Pool.step (deletionSystem R)) (Pool.Calls DeletionsApart)
      ⟨⟨w, .empty⟩, []⟩ es)
    (hs : runs (Pool.step (deletionSystem R)) ⟨⟨w, .empty⟩, []⟩ es = some s)
    (hapart' : Along (Pool.step (deletionSystem R)) (Pool.Calls DeletionsApart) s es')
    (hs' : runs (Pool.step (deletionSystem R)) s es' = some s')
    (c : Connection) (hc : c ∈ s.world.store.db.connections) (hdel : c.desiredStatus = .deleted)
    (c' : Connection) (hc' : c' ∈ s'.world.store.db.connections) (hid : c'.id = c.id) :
    c'.desiredStatus = .deleted := by
  have hstay : StayDeleted s.world s'.world := by
    refine (deletionProtocol_kept R).since (I := SeenLive) (fun e => e.elim) ?_
      (fun i c f w h hk hc => h.perform hk hc) (fun w h => .refl h.keyed)
      (fun _ _ _ h h' => h.trans h') (fun e => e.elim) ?_ (fun i c f w h _ hc => h.stayDeleted hc)
      hapart hs ⟨hkeyed, fun i ids h => by cases h⟩ hapart' hs'
    · rintro n q w w' h he
      cases he
      exact h.enter n q
    · rintro n q w w' h he
      cases he
      exact StayDeleted.refl h.keyed
  exact (hstay c hc hdel).2 c' hc' hid

namespace DeletionSample

def rendering : Rendering := ⟨fun _ => false, fun _ _ => .ok ""⟩

def world : StoreWorld :=
  ⟨{ Database.empty with
      accounts := [⟨"a", "ann", .active⟩]
      nodes := [⟨"n", "node", .nativeHy2, "", .active⟩]
      connections := [⟨"c", "a", "n", "phone", .hysteria2, .active, .active, 5, 5⟩] }, 7⟩

def calls (i n : ℕ) : List (Pool.Event StoreOutcome Empty ConnectionRequest) :=
  List.replicate n (.call i ⟨0, .none, 0, "", "", ⟨⟨"", ""⟩, []⟩⟩)

def start : Pool.Config StoreCall StoreCall.Reply DeletionWorld Unit := ⟨⟨world, .empty⟩, []⟩

def deleted : List (Pool.Event StoreOutcome Empty ConnectionRequest) :=
  .start (.delete "c") :: calls 0 7

def statuses (es : List (Pool.Event StoreOutcome Empty ConnectionRequest)) :
    Option (List ConnectionStatus) :=
  (runs (Pool.step (deletionSystem rendering)) start es).map fun s =>
    s.world.store.db.connections.map Connection.desiredStatus

end DeletionSample

open DeletionSample in
/-- A deleted connection is resumed. -/
theorem deletion_undone :
    statuses deleted = some [.deleted] ∧
      statuses (deleted ++ .start (.resume "c") :: calls 1 7) = some [.active] := by
  constructor <;> decide +kernel

open DeletionSample in
/-- The account of a deleted connection is held and resumed. -/
theorem deletion_is_final_account :
    ∃ s s', runs (Pool.step (deletionSystem rendering)) start deleted = some s ∧
      runs (Pool.step (deletionSystem rendering)) s
        (.start (.holdAccount "a") :: calls 1 6 ++ .start (.resumeAccount "a") :: calls 2 6) =
          some s' ∧
      ∀ c ∈ s.world.store.db.connections, c.desiredStatus = .deleted →
        ∀ c' ∈ s'.world.store.db.connections, c'.id = c.id → c'.desiredStatus = .deleted := by
  have hall : statuses (deleted ++ (.start (.holdAccount "a") :: calls 1 6 ++
      .start (.resumeAccount "a") :: calls 2 6)) = some [.deleted] := by decide +kernel
  obtain ⟨s', hs, -⟩ := Option.map_eq_some_iff.1 hall
  obtain ⟨s, hs, hs'⟩ := (runs_append _ _ _ _).1 hs
  refine ⟨s, s', hs, hs', fun c hc hdel c' hc' hid => ?_⟩
  have hapart : Along (Pool.step (deletionSystem rendering)) (Pool.Calls DeletionsApart) start
      (deleted ++ (.start (.holdAccount "a") :: calls 1 6 ++
        .start (.resumeAccount "a") :: calls 2 6)) := by decide +kernel
  exact deletion_is_final rendering world (by decide) deleted _ s s' (by decide +kernel) hs
    (hapart.drop hs) hs' c hc hdel c' hc' hid

end LazGate
