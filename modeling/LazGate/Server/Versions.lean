import LazGate.Server.Connections

/-!
# Versions of connections

Five operations of `internal/server/storage/{domain_sql,amnezia_settings}.go` write the versions of
connections. Their SQL statements are taken one by one here, with parameters that may have been read
at any time before: the clock, the candidates of a finalization, the bundle.
-/

namespace LazGate

/-- A statement that writes the table of connections. -/
inductive ConnectionStatement where
  /-- Of `CreateConnectionBundle`. -/
  | insert (row : Connection)
  /-- Of `UpdateConnectionDesiredStatus`. -/
  | setDesiredStatus (id : String) (status : ConnectionStatus) (now : ℤ)
  /-- Of `SoftDeleteNode`. -/
  | deleteOfNode (nodeID : String) (now : ℤ)
  /-- Of `UpdateAmneziaWGNodeConfig`. -/
  | bumpOfNode (nodeID : String) (version : ℤ)
  /-- Of `FinalizeConnectionsForAuthSnapshot`, for one candidate. -/
  | markApplied (id : String) (applied : ℤ)
  deriving DecidableEq

variable {db : Database} {s : ConnectionStatement}

namespace ConnectionStatement

def exec (db : Database) : ConnectionStatement → Except String Database
  | .insert row => db.insertConnection row
  | .setDesiredStatus id status now => db.setDesiredStatus id status now
  | .deleteOfNode nodeID now => .ok (db.deleteNodeConnections nodeID now)
  | .bumpOfNode nodeID version => .ok (db.bumpNodeConnections nodeID version)
  | .markApplied id applied => .ok (db.markApplied id applied)

/-- The tables after a statement; one that fails has changed nothing. -/
def after (db : Database) (s : ConnectionStatement) : Database := (exec db s).toOption.getD db

theorem after_of_ok {db db' : Database} (h : exec db s = .ok db') : after db s = db' := by
  rw [after, h]
  rfl

theorem after_of_error {e : String} (h : exec db s = .error e) : after db s = db := by
  rw [after, h]
  rfl

end ConnectionStatement

variable {row : Connection}

namespace Connection

/-- What a statement can do to a row. -/
inductive Step (c : Connection) : Connection → Prop
  | kept : Step c c
  | desired (status : ConnectionStatus) (version : ℤ) (h : c.desiredVersionMS < version) :
    Step c { c with desiredStatus := status, desiredVersionMS := version }
  | applied : Step c { c with
      appliedStatus := c.desiredStatus
      appliedVersionMS := c.desiredVersionMS }

def VersionsAgree (c : Connection) : Prop :=
  c.appliedVersionMS ≤ c.desiredVersionMS ∧
    (c.appliedVersionMS = c.desiredVersionMS → c.appliedStatus = c.desiredStatus)

instance (c : Connection) : Decidable c.VersionsAgree :=
  inferInstanceAs (Decidable (_ ∧ (_ → _)))

/-- The desired version goes on, and further if the desired status changes. -/
def Advances (c c' : Connection) : Prop :=
  c.desiredVersionMS ≤ c'.desiredVersionMS ∧
    (c'.desiredStatus ≠ c.desiredStatus → c.desiredVersionMS < c'.desiredVersionMS)

namespace Step

variable {c c' : Connection}

theorem id_eq (h : Step c c') : c'.id = c.id := by
  cases h <;> rfl

theorem versionsAgree (h : Step c c') (hc : c.VersionsAgree) : c'.VersionsAgree := by
  cases h with
  | kept => exact hc
  | desired status version hlt =>
    have hle : c.appliedVersionMS < version := lt_of_le_of_lt hc.1 hlt
    exact ⟨hle.le, fun he => absurd he hle.ne⟩
  | applied => exact ⟨le_refl _, fun _ => rfl⟩

theorem advances (h : Step c c') : c.Advances c' := by
  cases h with
  | kept => exact ⟨le_refl _, fun hne => absurd rfl hne⟩
  | desired status version hlt => exact ⟨hlt.le, fun _ => hlt⟩
  | applied => exact ⟨le_refl _, fun hne => absurd rfl hne⟩

end Step

/-- `row` is what `CreateConnectionBundle` inserts when its clock shows `now`, for a connection
whose version is that of a clock or left to the store, and which was never applied or is applied
as it is desired. -/
def StartsAt (now : ℤ) (row : Connection) : Prop :=
  ∃ v id, row = withDefaults v id now ∧ 0 ≤ v.desiredVersionMS ∧
    (row.appliedVersionMS = 0 ∨
      row.appliedVersionMS = row.desiredVersionMS ∧ row.appliedStatus = row.desiredStatus)

theorem StartsAt.versionsAgree {now : ℤ} (h : StartsAt now row) (hnow : 0 < now) :
    row.VersionsAgree := by
  obtain ⟨v, id, rfl, hv, hstart⟩ := h
  rcases hstart with h0 | ⟨hversion, hstatus⟩
  · have hpos : 0 < (withDefaults v id now).desiredVersionMS := by
      change 0 < ite _ _ _
      split <;> omega
    rw [← h0] at hpos
    exact ⟨hpos.le, fun he => absurd he hpos.ne⟩
  · exact ⟨hversion.le, fun _ => hstatus⟩

end Connection

open Connection ConnectionStatement

/-! ## One statement -/

theorem step_of_update {p : Connection → Bool} {f : Connection → Connection}
    (hf : ∀ c, Step c (f c)) (c : Connection) : c.Step (if p c then f c else c) := by
  split
  · exact hf c
  · exact .kept

/-- A statement takes each row one step on, and only an insert adds a row, under a new id. -/
theorem ConnectionStatement.after_connections (s : ConnectionStatement) (db : Database) :
    (∃ g : Connection → Connection, (∀ c, Step c (g c)) ∧
      (ConnectionStatement.after db s).connections = db.connections.map g) ∨
    ∃ row, s = .insert row ∧ (∀ c ∈ db.connections, c.id ≠ row.id) ∧
      (ConnectionStatement.after db s).connections = db.connections ++ [row] := by
  have hsame : ∃ g : Connection → Connection, (∀ c, Step c (g c)) ∧
      db.connections = db.connections.map g := ⟨id, fun c => .kept, (List.map_id _).symm⟩
  cases s with
  | insert row =>
    cases h : exec db (.insert row) with
    | error e =>
      left
      rw [after_of_error h]
      exact hsame
    | ok db' =>
      right
      rw [after_of_ok h]
      obtain ⟨rfl, hfresh⟩ := Database.insertConnection_ok h
      exact ⟨row, rfl, hfresh, rfl⟩
  | setDesiredStatus id status now =>
    left
    cases h : exec db (.setDesiredStatus id status now) with
    | error e =>
      rw [after_of_error h]
      exact hsame
    | ok db' =>
      rw [after_of_ok h]
      obtain rfl := Database.setDesiredStatus_ok h
      refine ⟨_, step_of_update fun c => ?_, rfl⟩
      exact .desired status _ (lt_bumpVersion now c.desiredVersionMS)
  | deleteOfNode nodeID now =>
    left
    refine ⟨_, step_of_update fun c => ?_, rfl⟩
    exact .desired .deleted _ (lt_bumpVersion now c.desiredVersionMS)
  | bumpOfNode nodeID version =>
    left
    refine ⟨_, step_of_update fun c => ?_, rfl⟩
    exact .desired c.desiredStatus _ (lt_bumpVersion version c.desiredVersionMS)
  | markApplied id applied =>
    left
    exact ⟨_, step_of_update fun c => .applied, rfl⟩

theorem ConnectionStatement.keyed_after (h : Table.Keyed Connection.id db.connections)
    (s : ConnectionStatement) :
    Table.Keyed Connection.id (ConnectionStatement.after db s).connections := by
  rcases s.after_connections db with ⟨g, hg, he⟩ | ⟨row, -, hfresh, he⟩
  · have hids : Connection.id ∘ g = Connection.id := funext fun c => (hg c).id_eq
    rw [he, Table.Keyed, List.map_map, hids]
    exact h
  · rw [he]
    exact h.insert hfresh

theorem ConnectionStatement.ids_after (s : ConnectionStatement) {c : Connection}
    (hc : c ∈ db.connections) : ∃ c' ∈ (after db s).connections, c'.id = c.id := by
  rcases s.after_connections db with ⟨g, hg, he⟩ | ⟨row, -, -, he⟩
  · exact ⟨g c, he ▸ List.mem_map_of_mem hc, (hg c).id_eq⟩
  · exact ⟨c, he ▸ List.mem_append_left _ hc, rfl⟩

structure VersionsKept (db : Database) : Prop where
  keyed : Table.Keyed Connection.id db.connections
  agree : ∀ c ∈ db.connections, c.VersionsAgree

theorem VersionsKept.after (h : VersionsKept db) (hs : ∀ row, s = .insert row → row.VersionsAgree) :
    VersionsKept (ConnectionStatement.after db s) := by
  refine ⟨keyed_after h.keyed s, ?_⟩
  rcases s.after_connections db with ⟨g, hg, he⟩ | ⟨row, rfl, -, he⟩
  · rw [he]
    intro c hc
    obtain ⟨c₀, hc₀, rfl⟩ := List.mem_map.1 hc
    exact (hg c₀).versionsAgree (h.agree c₀ hc₀)
  · rw [he]
    intro c hc
    rcases List.mem_append.1 hc with hc | hc
    · exact h.agree c hc
    · rw [List.mem_singleton.1 hc]
      exact hs row rfl

theorem VersionsKept.advances (h : VersionsKept db) (s : ConnectionStatement) {c c' : Connection}
    (hc : c ∈ db.connections)
    (hc' : c' ∈ (ConnectionStatement.after db s).connections) (hid : c'.id = c.id) :
    c.Advances c' := by
  rcases s.after_connections db with ⟨g, hg, he⟩ | ⟨row, rfl, hfresh, he⟩
  · rw [he] at hc'
    obtain ⟨c₀, hc₀, rfl⟩ := List.mem_map.1 hc'
    obtain rfl := h.keyed.eq_of_mem hc₀ hc ((hg c₀).id_eq.symm.trans hid)
    exact (hg c₀).advances
  · rw [he] at hc'
    rcases List.mem_append.1 hc' with hc' | hc'
    · rw [h.keyed.eq_of_mem hc' hc hid]
      exact Step.kept.advances
    · rw [List.mem_singleton.1 hc'] at hid
      exact absurd hid.symm (hfresh c hc)

/-! ## Every sequence of statements -/

def CreatedAtPositive (s : ConnectionStatement) : Prop :=
  ∀ row, s = .insert row → ∃ now > 0, row.StartsAt now

theorem VersionsKept.foldl {ss : List ConnectionStatement} (hs : ∀ s ∈ ss, CreatedAtPositive s)
    (h : VersionsKept db) :
    VersionsKept (ss.foldl ConnectionStatement.after db) := by
  induction ss generalizing db with
  | nil => exact h
  | cons s ss ih =>
    rw [List.forall_mem_cons] at hs
    refine ih hs.2 (h.after fun row hrow => ?_)
    obtain ⟨now, hnow, hstart⟩ := hs.1 row hrow
    exact hstart.versionsAgree hnow

/-- After every sequence of statements the versions agree with the statuses, and every further
statement advances each connection. -/
theorem connection_versions {db : Database} (h : VersionsKept db) {ss : List ConnectionStatement}
    (hs : ∀ s ∈ ss, CreatedAtPositive s) :
    (∀ c ∈ (ss.foldl ConnectionStatement.after db).connections,
      c.appliedVersionMS ≤ c.desiredVersionMS ∧
      (c.appliedVersionMS = c.desiredVersionMS → c.appliedStatus = c.desiredStatus)) ∧
    ∀ s, ∀ c ∈ (ss.foldl ConnectionStatement.after db).connections,
      ∀ c' ∈ (ConnectionStatement.after (ss.foldl ConnectionStatement.after db) s).connections,
        c'.id = c.id →
        c.desiredVersionMS ≤ c'.desiredVersionMS ∧
          (c'.desiredStatus ≠ c.desiredStatus → c.desiredVersionMS < c'.desiredVersionMS) := by
  have hkept := h.foldl hs
  refine ⟨hkept.agree, fun s c hc c' hc' hid => ?_⟩
  exact hkept.advances s hc hc' hid

/-- A connection is created, held, applied and deleted by clocks that go back. -/
theorem connection_versions_back :
    VersionsKept Database.empty ∧
    (∀ c ∈ (List.foldl ConnectionStatement.after Database.empty
        [.insert (withDefaults ⟨"c", "a", "n", "phone", .hysteria2, .active, .absent, 0, 0⟩ "c" 9),
          .setDesiredStatus "c" .held 5, .markApplied "c" 10, .deleteOfNode "n" 2]).connections,
      c.appliedVersionMS ≤ c.desiredVersionMS ∧
        (c.appliedVersionMS = c.desiredVersionMS → c.appliedStatus = c.desiredStatus)) := by
  have hempty : VersionsKept Database.empty := ⟨by decide, by decide⟩
  refine ⟨hempty, (connection_versions hempty ?_).1⟩
  intro s hs row hrow
  obtain rfl : row = _ := by
    simp only [List.mem_cons, List.not_mem_nil, or_false] at hs
    rcases hs with rfl | rfl | rfl | rfl <;> cases hrow
    rfl
  exact ⟨9, by decide, _, _, rfl, by decide, .inl rfl⟩

/-! ## Transactions -/

def StoreCall.statements : StoreCall → List ConnectionStatement
  | .insertBundle bundle => [.insert bundle.connection]
  | .setDesiredStatus connectionID status t => [.setDesiredStatus connectionID status t]
  | .softDeleteNode nodeID t => [.deleteOfNode nodeID t]
  | .finalize candidates applied => candidates.map fun v => .markApplied v.id applied
  | .updateAmneziaWGNodeConfig config _ _ => [.bumpOfNode config.nodeID config.configVersionMS]
  | _ => []

theorem connections_finalize (candidates : List Connection) (applied : ℤ) {db db' : Database}
    (h : db.connections = db'.connections) :
    (candidates.foldl (Database.finalizeOne applied) db).connections =
      ((candidates.map fun v => .markApplied v.id applied).foldl
        ConnectionStatement.after db').connections := by
  induction candidates generalizing db db' with
  | nil => exact h
  | cons v candidates ih =>
    rw [List.map_cons, List.foldl_cons, List.foldl_cons]
    refine ih ?_
    change Table.update _ _ db.connections = Table.update _ _ db'.connections
    rw [h]

variable (c : StoreCall) (f : StoreOutcome)

/-- What a call does to the connections, it does by its statements. -/
theorem StoreCall.perform_connections (w : StoreWorld) :
    (c.perform f w).2.db.connections = w.db.connections ∨
      (c.perform f w).2.db.connections =
        (c.statements.foldl ConnectionStatement.after w.db).connections := by
  rcases c.perform_db f w with he | ⟨tx, htx, hdb⟩
  · exact .inl (by rw [he])
  · generalize (c.perform f w).2.db = db' at hdb ⊢
    right
    cases c <;> simp only [StoreCall.tx, Option.some.injEq, reduceCtorEq] at htx <;> subst htx
    case insertBundle bundle =>
      have hins := Database.inserted_of_insertBundle hdb
      rw [StoreCall.statements, List.foldl_cons, List.foldl_nil,
        after_of_ok (s := .insert bundle.connection) hins.row, hins.connections]
    case setDesiredStatus connectionID status t =>
      rw [StoreCall.statements, List.foldl_cons, List.foldl_nil,
        after_of_ok (s := .setDesiredStatus connectionID status t) hdb]
    case updateAccountStatus =>
      rw [← Except.ok.inj hdb]
      rfl
    case softDeleteNode =>
      rw [← Except.ok.inj hdb]
      rfl
    case finalize candidates applied =>
      rw [← Except.ok.inj hdb]
      exact connections_finalize candidates applied rfl
    case updateHysteria2NodeConfig =>
      obtain ⟨-, -, rfl⟩ := Database.updateHysteria2NodeConfig_ok hdb
      rfl
    case updateAmneziaWGNodeConfig =>
      obtain ⟨-, -, rfl⟩ := Database.updateAmneziaWGNodeConfig_ok hdb
      rfl

variable {w : StoreWorld}

theorem StoreCall.connections_perform {I : List Connection → Prop} {c : StoreCall}
    (hI : ∀ s ∈ c.statements, ∀ db, I db.connections →
      I (ConnectionStatement.after db s).connections) (f : StoreOutcome) (h : I w.db.connections) :
    I (c.perform f w).2.db.connections := by
  rcases c.perform_connections f w with he | he
  · rwa [he]
  · rw [he]
    generalize c.statements = ss at hI
    generalize w.db = db at h
    induction ss generalizing db with
    | nil => exact h
    | cons s ss ih =>
      rw [List.forall_mem_cons] at hI
      exact ih hI.2 _ (hI.1 db h)

theorem StoreCall.keyed_perform (h : Table.Keyed Connection.id w.db.connections) :
    Table.Keyed Connection.id (c.perform f w).2.db.connections :=
  StoreCall.connections_perform (fun s _ _ hdb => keyed_after hdb s) f h

theorem StoreCall.ids_perform (h : row ∈ w.db.connections) :
    ∃ row' ∈ (c.perform f w).2.db.connections, row'.id = row.id := by
  refine StoreCall.connections_perform (I := fun t => ∃ row' ∈ t, row'.id = row.id) ?_ f
    ⟨row, h, rfl⟩
  rintro s - db ⟨row', hrow', hid⟩
  obtain ⟨row'', hrow'', hid'⟩ := s.ids_after hrow'
  exact ⟨row'', hrow'', hid'.trans hid⟩

end LazGate
