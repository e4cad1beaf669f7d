import LazGate.Lib.Eval
import LazGate.Server.Provisioning

/-!
# Changes of status, run alone

`SetConnectionStatus`, `DeleteConnection` and the holding and resuming of accounts, when nothing
else runs in between.
-/

namespace LazGate

open Prog

/-- The database, and how the calls to come turn out. -/
abbrev ScriptedStore := StoreWorld × (ℕ → StoreOutcome)

/-- The run of a program without others. -/
def StoreM.alone {α : Type} (x : StoreM α) (s : ScriptedStore) : Except String α × ScriptedStore :=
  eval (scripted StoreCall.perform) x.run s

variable {s s' : ScriptedStore}

/-! ## What a change does -/

theorem StoreM.alone_andThen {α β : Type} {x : StoreM α} {f : α → StoreM β} {b : β}
    (h : (x >>= f).alone s = (.ok b, s')) :
    ∃ a s₁, x.alone s = (.ok a, s₁) ∧ (f a).alone s₁ = (.ok b, s') := eval_andThen_ok h

theorem StoreM.db_of_only {α : Type} {x : StoreM α} (hx : Only StoreCall.Quiet x.run)
    {r : Except String α} (h : x.alone s = (r, s')) : s'.1.db = s.1.db := by
  have hkeep : (eval (scripted StoreCall.perform) x.run s).2.1.db = s.1.db := eval_keeps
    (I := fun s' : ScriptedStore => s'.1.db = s.1.db)
    (fun c s₁ hc hs => (StoreCall.perform_db_of_tx_eq_none hc.1 (s₁.2 0) s₁.1).trans hs) hx rfl
  rw [StoreM.alone] at h
  rwa [h] at hkeep

def Connection.withDesired (c : Connection) (status : ConnectionStatus) (now : ℤ) : Connection :=
  { c with desiredStatus := status, desiredVersionMS := bumpVersion now c.desiredVersionMS }

def Connection.settle (c : Connection) : Connection :=
  { c with appliedStatus := c.desiredStatus, appliedVersionMS := c.desiredVersionMS }

variable {accountID id : String} {desired status : ConnectionStatus} {t : ℤ}

namespace Store

theorem setDesiredStatus_of_ok {f : StoreOutcome} {w : StoreWorld} {u : Unit}
    (h : ((StoreCall.setDesiredStatus id status t).perform f w).1 = .ok u) :
    w.db.setDesiredStatus id status t =
      .ok ((StoreCall.setDesiredStatus id status t).perform f w).2.db := by
  change ite _ _ _ = _ at h
  split at h
  · rename_i hfault
    change _ = Except.ok (ite _ _ _)
    rw [hfault, if_neg (by decide)]
    change StoreCall.result (w.db.setDesiredStatus id status t) = _ at h
    change _ = Except.ok ((w.db.setDesiredStatus id status t).toOption.getD w.db)
    cases hset : w.db.setDesiredStatus id status t with
    | error e =>
      rw [hset] at h
      cases h
    | ok db => rfl
  · cases h

/-- `UpdateConnectionDesiredStatus` changes the row and gives it back. -/
theorem updateConnectionDesiredStatus_ok {updated : Connection}
    (h : (updateConnectionDesiredStatus id status).alone s = (.ok updated, s')) :
    ∃ t, (now.alone s).1 = .ok t ∧ s.1.db.setDesiredStatus id status t = .ok s'.1.db ∧
      updated ∈ s'.1.db.connections ∧ updated.id = id := by
  rw [updateConnectionDesiredStatus] at h
  split at h
  · cases congrArg Prod.fst h
  obtain ⟨t, s₁, hnow, h⟩ := StoreM.alone_andThen h
  obtain ⟨u, s₂, hset, hget⟩ := StoreM.alone_andThen h
  have hdb₁ : s₁.1.db = s.1.db := by
    refine StoreM.db_of_only ?_ hnow
    exact Only.lift (Only.ask (c := StoreCall.now) ⟨rfl, by simp⟩)
  obtain ⟨hset₁, hset₂⟩ := Prod.mk.inj hset
  have hdb₂ := setDesiredStatus_of_ok hset₁
  obtain ⟨hget₁, hget₂⟩ := Prod.mk.inj hget
  have hdb₃ : s'.1.db = s₂.1.db :=
    StoreM.db_of_only (Only.ask (c := StoreCall.getConnection id) ⟨rfl, by simp⟩) hget
  obtain ⟨hmem, hid⟩ := StoreCall.getConnection_ok hget₁
  rw [← hdb₃] at hmem
  refine ⟨t, congrArg Prod.fst hnow, ?_, hmem, hid⟩
  rw [hdb₃, ← hset₂, ← hdb₁]
  exact hdb₂

/-- `FinalizeConnectionsForAuthSnapshot` gives the candidates back as they are after it. -/
theorem finalizeConnectionsForAuthSnapshot_ok {nodeID accountID : String} {applied : ℤ}
    {finalized : List Connection}
    (h : (finalizeConnectionsForAuthSnapshot nodeID accountID applied).alone s =
      (.ok finalized, s')) :
    finalized = (s.1.db.selectFinalizable nodeID accountID applied).map Connection.settle ∧
      Database.Finalized s.1.db s'.1.db := by
  obtain ⟨candidates, s₁, hselect, h⟩ := StoreM.alone_andThen h
  obtain ⟨u, s₂, hfin, h⟩ := StoreM.alone_andThen h
  have hdb₁ : s₁.1.db = s.1.db := StoreM.db_of_only (Only.ask ⟨rfl, nofun⟩) hselect
  have hcandidates : candidates = s.1.db.selectFinalizable nodeID accountID applied := by
    have hanswer : ite _ _ _ = Except.ok candidates := (Prod.mk.inj hselect).1
    split at hanswer
    · exact (Except.ok.inj hanswer).symm
    · cases hanswer
  have hdb₂ : Database.Finalized s₁.1.db s₂.1.db := by
    rw [← (Prod.mk.inj hfin).2]
    rcases (StoreCall.finalize candidates applied).perform_db (s₁.2 0) s₁.1 with
      hsame | ⟨tx, htx, hdb⟩
    · rw [show (scripted StoreCall.perform (.finalize candidates applied) s₁).2.1.db = s₁.1.db
        from hsame]
      exact .refl _
    · cases htx
      exact Database.finalized_of_finalize hdb
  obtain ⟨hres, hend⟩ := Prod.mk.inj h
  rw [← hend, ← hdb₁]
  refine ⟨?_, hdb₂⟩
  rw [hdb₁, ← hcandidates]
  exact (Except.ok.inj hres).symm

end Store

/-! ## The connection that is returned -/

/-- Nothing is left to finalize. -/
def Connection.Settled (c : Connection) : Prop :=
  c.appliedStatus = c.desiredStatus ∧ c.desiredVersionMS ≤ c.appliedVersionMS

instance (c : Connection) : Decidable c.Settled := inferInstanceAs (Decidable (_ ∧ _))

variable {db db' : Database} {c r : Connection}

namespace Database

variable {db : Database} {nodeID accountID : String} {applied : ℤ}

theorem mem_selectFinalizable :
    c ∈ db.selectFinalizable nodeID accountID applied ↔ c ∈ db.connections ∧ c.nodeID = nodeID ∧
      c.accountID = accountID ∧ c.desiredVersionMS ≤ applied ∧ ¬ c.Settled := by
  rw [selectFinalizable, List.mem_insertionSort, List.mem_filter, Connection.Settled, not_and_or,
    not_le]
  simp only [Bool.and_eq_true, Bool.or_eq_true, beq_iff_eq, bne_iff_ne, decide_eq_true_eq,
    and_assoc]

theorem pairwise_selectFinalizable (db : Database) (nodeID accountID : String) (applied : ℤ) :
    (db.selectFinalizable nodeID accountID applied).Pairwise fun c c' => c.id ≤ c'.id := by
  have : Std.Total fun c c' : Connection => c.id ≤ c'.id := ⟨fun c c' => le_total c.id c'.id⟩
  have : IsTrans Connection fun c c' => c.id ≤ c'.id := ⟨fun _ _ _ => le_trans⟩
  exact List.pairwise_insertionSort _ _

/-- The first candidate is the one with the smallest id. -/
theorem head?_selectFinalizable (hkeyed : Table.Keyed Connection.id db.connections) :
    (db.selectFinalizable nodeID accountID applied).head? = some c ↔
      c ∈ db.selectFinalizable nodeID accountID applied ∧
        ∀ c' ∈ db.selectFinalizable nodeID accountID applied, ¬ c'.id < c.id := by
  have hsorted := pairwise_selectFinalizable db nodeID accountID applied
  have hrow : ∀ c' ∈ db.selectFinalizable nodeID accountID applied, c' ∈ db.connections :=
    fun c' hc' => (mem_selectFinalizable.1 hc').1
  cases hlist : db.selectFinalizable nodeID accountID applied with
  | nil => simp
  | cons first rest =>
    rw [hlist] at hsorted hrow
    have hleast : ∀ c' ∈ first :: rest, first.id ≤ c'.id :=
      List.forall_mem_cons.2 ⟨le_refl _, fun c' => List.rel_of_pairwise_cons hsorted⟩
    rw [List.head?_cons, Option.some_inj]
    constructor
    · rintro rfl
      exact ⟨List.mem_cons_self, fun c' hc' => not_lt.2 (hleast c' hc')⟩
    · rintro ⟨hc, hfirst⟩
      exact hkeyed.eq_of_mem (hrow first List.mem_cons_self) (hrow c hc)
        (le_antisymm (hleast c hc) (not_lt.1 (hfirst first List.mem_cons_self)))

/-- The connection is still to be settled when it is updated at `t`, and those of the account on the
node before it, up to its new version, are settled. -/
def FirstToSettle (db : Database) (connection : Connection) (desired : ConnectionStatus) (t : ℤ) :
    Prop :=
  (∀ c ∈ db.connections, c.nodeID = connection.nodeID → c.accountID = connection.accountID →
    c.id < connection.id → c.desiredVersionMS ≤ bumpVersion t connection.desiredVersionMS →
      c.Settled) ∧
  (connection.appliedStatus = desired →
    connection.appliedVersionMS < bumpVersion t connection.desiredVersionMS)

/-- After the update the connection is the first candidate just then. -/
theorem firstToSettle_iff_head? {connection : Connection}
    (hkeyed : Table.Keyed Connection.id db.connections) (hmem : connection ∈ db.connections)
    (hset : db.setDesiredStatus connection.id desired t = .ok db') :
    (db'.selectFinalizable connection.nodeID connection.accountID
      (connection.withDesired desired t).desiredVersionMS).head? =
        some (connection.withDesired desired t) ↔ db.FirstToSettle connection desired t := by
  obtain rfl := setDesiredStatus_ok hset
  have hkeyed' := hkeyed.update (p := fun c => c.id == connection.id)
    (f := fun c => c.withDesired desired t) fun _ => rfl
  have hself : connection.withDesired desired t ∈ Table.update
      (fun c : Connection => c.id == connection.id) (fun c => c.withDesired desired t)
      db.connections := by
    have hrow := Table.mem_update_of_mem (p := fun c : Connection => c.id == connection.id)
      (f := fun c => c.withDesired desired t) hmem
    rwa [if_pos (beq_self_eq_true connection.id)] at hrow
  rw [head?_selectFinalizable hkeyed', and_comm]
  refine and_congr ?_ ?_
  · -- A smaller id is not that of the connection, so the update leaves its row as it is.
    have hother : ∀ c, c.id < connection.id → (c ∈ Table.update
        (fun c : Connection => c.id == connection.id) (fun c => c.withDesired desired t)
        db.connections ↔ c ∈ db.connections) := by
      intro c hlt
      rw [Table.mem_update]
      constructor
      · rintro ⟨c₀, h₀, rfl⟩
        split at hlt
        · rename_i hid
          exact absurd (eq_of_beq hid) hlt.ne
        · rename_i hid
          rwa [if_neg hid]
      · exact fun hc => ⟨c, hc, if_neg (by simpa using hlt.ne)⟩
    simp only [mem_selectFinalizable]
    constructor
    · intro h c hc hnode haccount hlt hversion
      by_contra hopen
      exact h c ⟨(hother c hlt).2 hc, hnode, haccount, hversion, hopen⟩ hlt
    · rintro h c ⟨hc, hnode, haccount, hversion, hopen⟩ hlt
      exact hopen (h c ((hother c hlt).1 hc) hnode haccount hlt hversion)
  · rw [mem_selectFinalizable]
    constructor
    · rintro ⟨-, -, -, -, hopen⟩ hstatus
      exact not_le.1 fun hle => hopen ⟨hstatus, hle⟩
    · exact fun h => ⟨hself, rfl, rfl, le_refl _, fun hs => absurd (h hs.1) (not_lt.2 hs.2)⟩

end Database

variable {deleting : Bool}

namespace Connections

open Store

/-- When the row of the connection is updated: the outside is called before. -/
def updateTime (connection : Connection) (node : Node) (desired : ConnectionStatus)
    (deleting : Bool) (s : ScriptedStore) : Except String ℤ :=
  ((do applyExternalStatus connection node desired deleting; Store.now : StoreM ℤ).alone s).1

theorem changeStatus_ok {connection : Connection} {node : Node} (hnode : node.type = .amneziaAPI)
    (h : (changeStatus connection node desired deleting).alone s = (.ok r, s')) :
    ∃ t db', updateTime connection node desired deleting s = .ok t ∧
      s.1.db.setDesiredStatus connection.id desired t = .ok db' ∧ Database.Finalized db' s'.1.db ∧
      ∃ updated ∈ db'.connections, updated.id = connection.id ∧
        r = ((db'.selectFinalizable node.id connection.accountID updated.desiredVersionMS).map
          Connection.settle).head?.getD Connection.zero := by
  rw [changeStatus, if_pos hnode] at h
  obtain ⟨u, s₁, hexternal, h⟩ := StoreM.alone_andThen h
  obtain ⟨updated, s₂, hupdate, h⟩ := StoreM.alone_andThen h
  obtain ⟨finalized, s₃, hfinal, h⟩ := StoreM.alone_andThen h
  have hdb₁ : s₁.1.db = s.1.db :=
    StoreM.db_of_only (only_applyExternalStatus (fun _ hc => hc) _ _ _ _) hexternal
  obtain ⟨t, hnow, hset, hmem, hid⟩ := updateConnectionDesiredStatus_ok hupdate
  have htime : updateTime connection node desired deleting s = .ok t := by
    rw [StoreM.alone] at hexternal
    rw [updateTime, StoreM.alone, eval_andThen, hexternal]
    exact hnow
  rw [hdb₁] at hset
  obtain ⟨rfl, hdb₃⟩ := finalizeConnectionsForAuthSnapshot_ok hfinal
  obtain ⟨hres, rfl⟩ := Prod.mk.inj h
  exact ⟨t, s₂.1.db, htime, hset, hdb₃, updated, hmem, hid, (Except.ok.inj hres).symm⟩

/-- The answer to a change of the connection. -/
def Returns (r connection : Connection) (desired : ConnectionStatus) : Prop :=
  r.id = connection.id ∧ r.desiredStatus = desired ∧ r.appliedStatus = desired

theorem changeStatus_returns {connection : Connection} {node : Node}
    (hkeyed : Table.Keyed Connection.id s.1.db.connections)
    (hmem : connection ∈ s.1.db.connections) (hnode : node.type = .amneziaAPI)
    (hon : node.id = connection.nodeID) (hdesired : desired ≠ .unset)
    (h : (changeStatus connection node desired deleting).alone s = (.ok r, s')) :
    ∃ t, updateTime connection node desired deleting s = .ok t ∧
      (Returns r connection desired ↔ s.1.db.FirstToSettle connection desired t) := by
  obtain ⟨t, db', htime, hset, -, updated, hupdated, hid, rfl⟩ := changeStatus_ok hnode h
  refine ⟨t, htime, ?_⟩
  have hrow : ∀ c ∈ db'.connections, c.id = connection.id →
      c = connection.withDesired desired t := by
    intro c hc hid
    rw [Database.setDesiredStatus_ok hset] at hc
    obtain ⟨c₀, h₀, rfl⟩ := Table.mem_update.1 hc
    have hsame : c₀.id = connection.id := by
      split at hid <;> exact hid
    rw [hkeyed.eq_of_mem h₀ hmem hsame, if_pos (beq_self_eq_true connection.id)]
    rfl
  rw [hrow updated hupdated hid, hon, List.head?_map,
    ← Database.firstToSettle_iff_head? hkeyed hmem hset]
  constructor
  · intro hr
    -- The zero connection has no desired status; any other is a candidate with this id.
    cases hhead : (db'.selectFinalizable connection.nodeID connection.accountID
        (connection.withDesired desired t).desiredVersionMS).head? with
    | none =>
      rw [hhead] at hr
      exact absurd hr.2.1.symm hdesired
    | some c =>
      rw [hhead] at hr
      have hc := Database.mem_selectFinalizable.1 (List.mem_of_head? hhead)
      rw [hrow c hc.1 hr.1]
  · intro hhead
    rw [hhead]
    exact ⟨rfl, rfl, rfl⟩

/-- On an Amnezia API node the connection that was changed is returned just when it is the first to
settle. -/
theorem returned_connection_iff (s : ScriptedStore)
    (hkeyed : Table.Keyed Connection.id s.1.db.connections) (connection : Connection)
    (hmem : connection ∈ s.1.db.connections) (node : Node) (hnode : node.type = .amneziaAPI)
    (hon : node.id = connection.nodeID) :
    (∀ desired r s', (setConnectionStatus connection node desired).alone s = (.ok r, s') →
      ∃ t, updateTime connection node desired false s = .ok t ∧
        (Returns r connection desired ↔ s.1.db.FirstToSettle connection desired t)) ∧
    (∀ r s', (deleteConnection connection node).alone s = (.ok r, s') →
      ∃ t, updateTime connection node .deleted true s = .ok t ∧
        (Returns r connection .deleted ↔ s.1.db.FirstToSettle connection .deleted t)) := by
  constructor
  · intro desired r s' h
    rw [setConnectionStatus] at h
    split at h
    · cases congrArg Prod.fst h
    · rename_i hdesired
      refine changeStatus_returns hkeyed hmem hnode hon ?_ h
      rintro rfl
      exact hdesired (by decide)
  · exact fun r s' h => changeStatus_returns hkeyed hmem hnode hon (by decide) h

namespace ReturnSample

def node : Node := ⟨"n", "node", .amneziaAPI, "", .active⟩

def connection (id : String) (applied : ConnectionStatus) : Connection :=
  ⟨id, "account", "n", id, .amneziaWG, .active, applied, 1, 1⟩

/-- Two connections on the node, where the first is applied as `applied`. -/
def store (applied : ConnectionStatus) : ScriptedStore :=
  (⟨{ Database.empty with
      nodes := [node]
      connections := [connection "a" applied, connection "b" .active]
      amneziaAPIRefs := [⟨"a", "1", "a"⟩, ⟨"b", "2", "b"⟩]
      amneziaAPIConfigs := [⟨"n", "https://api", "key"⟩] }, 5⟩,
    fun _ => ⟨0, .none, 0, "", "", ⟨⟨"", ""⟩, []⟩⟩)

def held : Connection := ⟨"b", "account", "n", "b", .amneziaWG, .held, .held, 5, 5⟩

end ReturnSample

open ReturnSample in
theorem returned_connection_second :
    ∃ s', (setConnectionStatus (connection "b" .active) node .held).alone (store .active) =
      (.ok held, s') ∧ ∃ t, updateTime (connection "b" .active) node .held false (store .active) =
        .ok t ∧ (Returns held (connection "b" .active) .held ↔
          (store .active).1.db.FirstToSettle (connection "b" .active) .held t) := by
  have hrun : (setConnectionStatus (connection "b" .active) node .held).alone (store .active) =
      (.ok held, ((setConnectionStatus (connection "b" .active) node .held).alone
        (store .active)).2) := Prod.ext (by decide +kernel) rfl
  exact ⟨_, hrun, (returned_connection_iff (store .active) (by decide +kernel)
    (connection "b" .active) (by decide +kernel) node rfl rfl).1 .held _ _ hrun⟩

/-- While the first connection waits to become active, it is returned when the second is held. -/
theorem returned_connection_other :
    ((setConnectionStatus (ReturnSample.connection "b" .active) ReturnSample.node .held).alone
      (ReturnSample.store .absent)).1 =
        .ok (ReturnSample.connection "a" .active) := by
  decide +kernel

end Connections

/-! ## Accounts held and resumed -/

/-- What holding and resuming is about: the id of a connection, its account and its desired
status. -/
def Connection.standing (c : Connection) : String × String × ConnectionStatus :=
  (c.id, c.accountID, c.desiredStatus)

def Database.standings (db : Database) : List (String × String × ConnectionStatus) :=
  db.connections.map Connection.standing

def setStanding (ids : List String) (status : ConnectionStatus)
    (x : String × String × ConnectionStatus) : String × String × ConnectionStatus :=
  if x.1 ∈ ids then (x.1, x.2.1, status) else x

theorem setStanding_comp (ids ids' : List String) (status : ConnectionStatus) :
    setStanding ids' status ∘ setStanding ids status = setStanding (ids ++ ids') status := by
  funext x
  simp only [Function.comp_apply, setStanding, List.mem_append]
  by_cases h : x.1 ∈ ids <;> by_cases h' : x.1 ∈ ids' <;> simp [h, h']

theorem Database.standings_setDesiredStatus (h : db.setDesiredStatus id status t = .ok db') :
    db'.standings = db.standings.map (setStanding [id] status) := by
  rw [setDesiredStatus_ok h, standings, standings, Table.update, List.map_map, List.map_map]
  refine List.map_congr_left fun c _ => ?_
  by_cases hid : c.id = id <;> simp [Connection.standing, setStanding, hid]

theorem Database.Finalized.standings (h : Database.Finalized db db') :
    db'.standings = db.standings := by
  obtain ⟨g, hg, hsame⟩ := h.connections
  rw [Database.standings, hg, List.map_map]
  refine List.map_congr_left fun c _ => ?_
  rw [Function.comp_apply, hsame c]
  rfl

/-- A change that succeeds sets the desired status of its connection and of no other. -/
theorem Connections.standings_changeStatus {connection : Connection} {node : Node}
    (h : (changeStatus connection node desired deleting).alone s = (.ok r, s')) :
    s'.1.db.standings = s.1.db.standings.map (setStanding [connection.id] desired) := by
  by_cases hnode : node.type = .amneziaAPI
  · obtain ⟨t, db', -, hset, hfinal, -⟩ := changeStatus_ok hnode h
    rw [hfinal.standings, Database.standings_setDesiredStatus hset]
  · rw [changeStatus, if_neg hnode] at h
    obtain ⟨updated, s₁, hupdate, h⟩ := StoreM.alone_andThen h
    obtain ⟨u, s₂, henqueue, h⟩ := StoreM.alone_andThen h
    have hdb₂ : s₂.1.db = s₁.1.db :=
      StoreM.db_of_only (Only.ask (c := StoreCall.enqueueAuthRefresh _) ⟨rfl, by simp⟩) henqueue
    obtain ⟨t, -, hset, -, -⟩ := Store.updateConnectionDesiredStatus_ok hupdate
    rw [← (Prod.mk.inj h).2]
    change s₂.1.db.standings = _
    rw [hdb₂, Database.standings_setDesiredStatus hset]

theorem Connections.standings_setConnectionStatus {connection : Connection} {node : Node}
    (h : (setConnectionStatus connection node desired).alone s = (.ok r, s')) :
    s'.1.db.standings = s.1.db.standings.map (setStanding [connection.id] desired) := by
  rw [setConnectionStatus] at h
  split at h
  · cases congrArg Prod.fst h
  · exact standings_changeStatus h

variable {items : List ConnectionSummary}

namespace Provisioning

open Store Connections

def changedIDs (items : List ConnectionSummary) : List String :=
  (items.filter fun item => item.connection.desiredStatus ≠ .deleted).map (·.connection.id)

/-- One connection after the other gets the status. -/
theorem standings_forEachConnection {results₀ results : List (String × Except String Connection)}
    (h : StoreM.alone (items.foldlM (fun results item =>
      if item.connection.desiredStatus = .deleted then pure results
      else do
        let result ← attemptResult (setConnectionStatus item.connection item.node status)
        return results ++ [(item.connection.id, result)]) results₀ : StoreM _) s =
          (.ok results, s')) (hok : ∀ x ∈ results, x.2.isOk = true) :
    results₀ ⊆ results ∧
      s'.1.db.standings = s.1.db.standings.map (setStanding (changedIDs items) status) := by
  induction items generalizing s results₀ with
  | nil =>
    obtain ⟨hres, rfl⟩ := Prod.mk.inj h
    cases hres
    refine ⟨List.Subset.refl _, ?_⟩
    have hid : setStanding (changedIDs []) status = id := by
      funext x
      simp [setStanding, changedIDs]
    rw [hid, List.map_id]
  | cons item items ih =>
    rw [List.foldlM_cons] at h
    obtain ⟨results₁, s₁, hone, hrest⟩ := StoreM.alone_andThen h
    obtain ⟨hsub, hstand⟩ := ih hrest
    split at hone
    · -- a deleted connection
      rename_i hdeleted
      obtain ⟨hres, rfl⟩ := Prod.mk.inj hone
      cases hres
      refine ⟨hsub, ?_⟩
      rw [hstand, changedIDs, changedIDs, List.filter_cons_of_neg (by simpa using hdeleted)]
    · rename_i hlive
      obtain ⟨result, s₂, hchange, hret⟩ := StoreM.alone_andThen hone
      obtain ⟨hres, rfl⟩ := Prod.mk.inj hret
      cases hres
      refine ⟨fun x hx => hsub (List.mem_append_left _ hx), ?_⟩
      have hsucceeds := hok _ (hsub (List.mem_append_right _ (List.mem_singleton_self _)))
      rw [StoreM.alone, eval_result] at hchange
      obtain ⟨hresult, hs₂⟩ := Prod.mk.inj hchange
      cases hresult
      cases hr : (eval (scripted StoreCall.perform)
        (setConnectionStatus item.connection item.node status).run s).1 with
      | error e =>
        rw [hr] at hsucceeds
        cases hsucceeds
      | ok r =>
        have hset := standings_setConnectionStatus (Prod.ext hr hs₂)
        rw [hstand, hset, List.map_map, setStanding_comp, changedIDs, changedIDs,
          List.filter_cons_of_pos (by simpa using hlive), List.map_cons, List.singleton_append]

/-- No call fails from here on. -/
def FaultFree (s : ScriptedStore) : Prop := ∀ n, (s.2 n).fault = .none

theorem FaultFree.alone {α : Type} {x : StoreM α} {r : Except String α} (hs : FaultFree s)
    (h : x.alone s = (r, s')) : FaultFree s' := by
  have hkeep : FaultFree (eval (scripted StoreCall.perform) x.run s).2 := eval_keeps
    (K := fun _ => True) (I := FaultFree) (fun c s₁ _ h₁ n => h₁ (n + 1))
    (Only.of_forall (fun _ => trivial) x.run) hs
  rw [StoreM.alone] at h
  rwa [h] at hkeep

/-- Without faults the summary has all connections of the account. -/
theorem summary_ok {account : Account} (hs : FaultFree s)
    (h : (summary accountID).alone s = (.ok (account, items), s')) :
    items.map (·.connection) = s.1.db.connections.filter (fun c => c.accountID == accountID) ∧
      s'.1.db = s.1.db := by
  have hquiet : Only StoreCall.Quiet (summary accountID).run := by
    refine Only.andThen (Only.ask ⟨rfl, nofun⟩) fun _ => ?_
    refine Only.andThen (Only.lift (Only.ask ⟨rfl, nofun⟩)) fun _ => ?_
    refine Only.andThen (Only.lift (Only.ask ⟨rfl, nofun⟩)) fun _ => ?_
    exact Only.ok
  refine ⟨?_, StoreM.db_of_only hquiet h⟩
  obtain ⟨account', s₁, haccount, h⟩ := StoreM.alone_andThen h
  obtain ⟨nodes, s₂, hnodes, h⟩ := StoreM.alone_andThen h
  obtain ⟨connections, s₃, hlist, h⟩ := StoreM.alone_andThen h
  have hdb₁ : s₁.1.db = s.1.db := StoreM.db_of_only (Only.ask ⟨rfl, nofun⟩) haccount
  have hdb₂ : s₂.1.db = s₁.1.db :=
    StoreM.db_of_only (Only.lift (Only.ask (c := .listNodes) ⟨rfl, nofun⟩)) hnodes
  have hall : connections = s.1.db.connections := by
    have hfault : (s₂.2 0).fault = .none := ((hs.alone haccount).alone hnodes) 0
    have hanswer : ite _ _ _ = connections := Except.ok.inj (Prod.mk.inj hlist).1
    rw [if_pos hfault] at hanswer
    rw [← hanswer, ← hdb₁, ← hdb₂]
    rfl
  obtain ⟨-, rfl⟩ := Prod.mk.inj (Except.ok.inj (Prod.mk.inj h).1)
  rw [← hall, List.map_map]
  exact List.map_id _

def followAccount (accountID : String) (status : ConnectionStatus)
    (x : String × String × ConnectionStatus) : String × String × ConnectionStatus :=
  if x.2.1 = accountID ∧ x.2.2 ≠ .deleted then (x.1, x.2.1, status) else x

theorem mem_changedIDs_iff (hkeyed : Table.Keyed Connection.id db.connections)
    (hitems : items.map (·.connection) = db.connections.filter fun c => c.accountID == accountID)
    (hc : c ∈ db.connections) :
    c.id ∈ changedIDs items ↔ c.accountID = accountID ∧ c.desiredStatus ≠ .deleted := by
  have hids : changedIDs items = ((items.map (·.connection)).filter
      fun c => c.desiredStatus ≠ .deleted).map (·.id) := by
    rw [changedIDs, List.filter_map, List.map_map]
    rfl
  rw [hids, hitems, List.filter_filter, List.mem_map]
  constructor
  · rintro ⟨c', hc', hid⟩
    obtain ⟨hmem, hsel⟩ := List.mem_filter.1 hc'
    obtain rfl := hkeyed.eq_of_mem hmem hc hid
    rw [Bool.and_eq_true, decide_eq_true_eq, beq_iff_eq] at hsel
    exact ⟨hsel.2, hsel.1⟩
  · rintro ⟨haccount, hlive⟩
    refine ⟨c, List.mem_filter.2 ⟨hc, ?_⟩, rfl⟩
    rw [Bool.and_eq_true, decide_eq_true_eq, beq_iff_eq]
    exact ⟨hlive, haccount⟩

/-- Holding or resuming an account, when every step succeeds. -/
theorem standings_setAccountRemoteStatus {status : AccountStatus}
    {x : Account × List (String × Except String Connection)} (hs : FaultFree s)
    (hkeyed : Table.Keyed Connection.id s.1.db.connections)
    (h : (setAccountRemoteStatus accountID status).alone s = (.ok x, s'))
    (hok : ∀ r ∈ x.2, r.2.isOk = true) :
    s'.1.db.standings = s.1.db.standings.map
      (followAccount accountID (if status = .held then .held else .active)) := by
  obtain ⟨account, s₁, haccount, h⟩ := StoreM.alone_andThen h
  obtain ⟨⟨account', items⟩, s₂, hsummary, h⟩ := StoreM.alone_andThen h
  obtain ⟨results, s₃, hall, h⟩ := StoreM.alone_andThen h
  have hconnections : s₁.1.db.connections = s.1.db.connections := by
    obtain ⟨u, s₀, hupdate, hget⟩ := StoreM.alone_andThen haccount
    have hdb : s₁.1.db = s₀.1.db := StoreM.db_of_only (Only.ask ⟨rfl, nofun⟩) hget
    rw [hdb, ← (Prod.mk.inj hupdate).2]
    rcases (StoreCall.updateAccountStatus accountID status).perform_db (s.2 0) s.1 with
      hsame | ⟨tx, htx, hdb⟩
    · exact congrArg Database.connections hsame
    · cases htx
      exact (congrArg Database.connections (Except.ok.inj hdb)).symm
  obtain ⟨hitems, hdb₂⟩ := summary_ok (hs.alone haccount) hsummary
  obtain ⟨hres, hs₃⟩ := Prod.mk.inj h
  cases hres
  have hstand := (standings_forEachConnection hall hok).2
  rw [hconnections] at hitems
  rw [← hs₃, hstand, hdb₂, Database.standings, Database.standings, hconnections, List.map_map,
    List.map_map]
  refine List.map_congr_left fun c hc => ?_
  exact if_congr (mem_changedIDs_iff hkeyed hitems hc) rfl rfl

/-- Holding an account and resuming it leaves the desired statuses of all connections as they were,
exactly if none of the account's connections was held alone. -/
theorem hold_resume_neutral_iff (s s₁ s₂ : ScriptedStore) (accountID : String) (hs : FaultFree s)
    (hkeyed : Table.Keyed Connection.id s.1.db.connections)
    (held resumed : Account × List (String × Except String Connection))
    (hhold : (setAccountRemoteStatus accountID .held).alone s = (.ok held, s₁))
    (hheld : ∀ r ∈ held.2, r.2.isOk = true)
    (hresume : (setAccountRemoteStatus accountID .active).alone s₁ = (.ok resumed, s₂))
    (hresumed : ∀ r ∈ resumed.2, r.2.isOk = true) :
    s₂.1.db.standings = s.1.db.standings ↔ ∀ c ∈ s.1.db.connections, c.accountID = accountID →
      c.desiredStatus = .active ∨ c.desiredStatus = .deleted := by
  have hfirst := standings_setAccountRemoteStatus hs hkeyed hhold hheld
  have hkeyed₁ : Table.Keyed Connection.id s₁.1.db.connections := by
    have hids := congrArg (List.map Prod.fst) hfirst
    have hsame : Prod.fst ∘ followAccount accountID .held ∘ Connection.standing =
        Connection.id := by
      funext c
      simp only [Function.comp_apply, followAccount]
      split <;> rfl
    simp only [Database.standings, List.map_map] at hids
    rw [Table.Keyed]
    change (List.map (Prod.fst ∘ Connection.standing) s₁.1.db.connections).Nodup
    rw [hids, if_pos trivial, hsame]
    exact hkeyed
  rw [standings_setAccountRemoteStatus (hs.alone hhold) hkeyed₁ hresume hresumed, hfirst,
    if_pos rfl, if_neg (by decide), List.map_map, Database.standings, List.map_map,
    List.map_inj_left]
  refine forall₂_congr fun c hc => ?_
  simp only [Function.comp_apply, followAccount, Connection.standing]
  by_cases haccount : c.accountID = accountID
  · cases c.desiredStatus <;> simp [haccount]
  · simp [haccount]

namespace HoldSample

def store (status : ConnectionStatus) : ScriptedStore :=
  (⟨{ Database.empty with
      accounts := [⟨"a", "ann", .active⟩]
      nodes := [⟨"n", "node", .nativeHy2, "", .active⟩]
      connections := [⟨"c", "a", "n", "phone", .hysteria2, status, status, 5, 5⟩] }, 7⟩,
    fun _ => ⟨0, .none, 0, "", "", ⟨⟨"", ""⟩, []⟩⟩)

def held (status : ConnectionStatus) : ScriptedStore :=
  ((setAccountRemoteStatus "a" .held).alone (store status)).2

def resumed (status : ConnectionStatus) : ScriptedStore :=
  ((setAccountRemoteStatus "a" .active).alone (held status)).2

end HoldSample

open HoldSample in
theorem hold_resume_neutral_active :
    (resumed .active).1.db.standings = (store .active).1.db.standings ∧
      (held .active).1.db.standings = [("c", "a", .held)] := by
  have hhold : (setAccountRemoteStatus "a" .held).alone (store .active) =
      (.ok (⟨"a", "ann", .held⟩,
        [("c", .ok ⟨"c", "a", "n", "phone", .hysteria2, .held, .active, 7, 5⟩)]), held .active) :=
    Prod.ext (by decide +kernel) rfl
  have hresume : (setAccountRemoteStatus "a" .active).alone (held .active) =
      (.ok (⟨"a", "ann", .active⟩,
        [("c", .ok ⟨"c", "a", "n", "phone", .hysteria2, .active, .active, 8, 5⟩)]),
          resumed .active) :=
    Prod.ext (by decide +kernel) rfl
  refine ⟨?_, by decide +kernel⟩
  exact (hold_resume_neutral_iff _ _ _ "a" (fun _ => rfl) (by decide +kernel) _ _ hhold
    (by decide +kernel) hresume (by decide +kernel)).2 (by decide +kernel)

/-- A connection that was held alone is active after its account was held and resumed. -/
theorem hold_resume_of_held : (HoldSample.store .held).1.db.standings = [("c", "a", .held)] ∧
      ((setAccountRemoteStatus "a" .held).alone (HoldSample.store .held)).1.toOption.any
        (fun x => x.2.all (·.2.isOk)) = true ∧
      ((setAccountRemoteStatus "a" .active).alone (HoldSample.held .held)).1.toOption.any
        (fun x => x.2.all (·.2.isOk)) = true ∧
      (HoldSample.resumed .held).1.db.standings = [("c", "a", .active)] := by
  decide +kernel

end Provisioning

end LazGate
