import LazGate.Lib.Pool
import LazGate.Server.Versions

/-!
# Issued files end with the connection

`UpdateConnectionDesiredStatus` and `FinalizeConnectionsForAuthSnapshot` run side by side. A
finalization selects its candidates first; in its transaction the rows are updated as they are then,
but the issued configurations are deleted after the statuses that were selected.
-/

namespace LazGate

open Prog

/-! ## The system -/

inductive FinalizationRequest where
  | setStatus (connectionID : String) (status : ConnectionStatus)
  | finalize (nodeID accountID : String) (applied : ℤ)

def FinalizationRequest.program :
    FinalizationRequest → Prog StoreCall StoreCall.Reply Unit
  | .setStatus connectionID status =>
    (fun _ => ()) <$> (Store.updateConnectionDesiredStatus connectionID status).run
  | .finalize nodeID accountID applied =>
    (fun _ => ()) <$> (Store.finalizeConnectionsForAuthSnapshot nodeID accountID applied).run

def finalizationSystem : PoolSystem StoreCall StoreCall.Reply StoreOutcome StoreWorld Empty
    FinalizationRequest Unit where
  perform _ := StoreCall.perform
  act e _ := e.elim
  enter _ _ w := some w
  prog := FinalizationRequest.program

def CandidatesCurrent (_ : ℕ) (c : StoreCall) (_ : StoreOutcome) (w : StoreWorld) : Prop :=
  match c with
  | .finalize candidates _ => ∀ v ∈ candidates, ∀ c ∈ w.db.connections, c.id = v.id →
    c.desiredStatus = v.desiredStatus ∧ c.desiredVersionMS = v.desiredVersionMS
  | _ => True

instance (i : ℕ) (c : StoreCall) (f : StoreOutcome) (w : StoreWorld) :
    Decidable (CandidatesCurrent i c f w) := by
  unfold CandidatesCurrent
  split <;> infer_instance

structure Database.FilesEnd (db : Database) : Prop where
  keyed : Table.Keyed Connection.id db.connections
  ended : ∀ c ∈ db.connections, c.appliedStatus = .deleted →
    ∀ g ∈ db.issuedConfigs, g.connectionID = c.id → g.status = .deleted

def Database.DeletesWithConnection (db db' : Database) : Prop :=
  ∀ g ∈ db.issuedConfigs, g.status ≠ .deleted → g ∉ db'.issuedConfigs →
    ∃ c ∈ db'.connections, c.id = g.connectionID ∧ c.appliedStatus = .deleted

/-! ## The tables after a finalization -/

variable (candidates : List Connection)

namespace Database

theorem finalize_connections (applied : ℤ) (db : Database) :
    (candidates.foldl (finalizeOne applied) db).connections =
      Table.update (fun c => candidates.any (fun v => c.id == v.id) && c.desiredVersionMS ≤ applied)
        (fun c => { c with
          appliedStatus := c.desiredStatus
          appliedVersionMS := c.desiredVersionMS }) db.connections := by
  induction candidates generalizing db with
  | nil => exact (Table.update_eq_self fun _ _ => rfl).symm
  | cons v candidates ih =>
    rw [List.foldl_cons, ih]
    change Table.update _ _ (Table.update _ _ db.connections) = _
    rw [Table.update_update]
    · congr 1
      funext c
      rw [List.any_cons, Bool.and_or_distrib_right]
    · exact fun _ => rfl

theorem finalize_issuedConfigs (applied : ℤ) (db : Database) :
    (candidates.foldl (finalizeOne applied) db).issuedConfigs =
      Table.update (fun g => candidates.any (fun v => g.connectionID == v.id &&
          v.desiredStatus == .deleted) && g.status != .deleted)
        (fun g => { g with status := .deleted }) db.issuedConfigs := by
  induction candidates generalizing db with
  | nil => exact (Table.update_eq_self fun _ _ => rfl).symm
  | cons v candidates ih =>
    have hone : (finalizeOne applied db v).issuedConfigs =
        Table.update (fun g => g.connectionID == v.id && v.desiredStatus == .deleted &&
          g.status != .deleted) (fun g => { g with status := .deleted }) db.issuedConfigs := by
      simp only [finalizeOne]
      split
      · rename_i hdel
        simp [hdel]
      · rename_i hdel
        have hfalse : (v.desiredStatus == .deleted) = false := by simpa using hdel
        simp only [hfalse, Bool.and_false, Bool.false_and]
        exact (Table.update_eq_self fun _ _ => rfl).symm
    rw [List.foldl_cons, ih, hone, Table.update_update]
    · congr 1
      funext g
      rw [List.any_cons, Bool.and_or_distrib_right]
    · exact fun _ => rfl

end Database

/-! ## Files end -/

/-- What a request calls in which world: the candidates of a finalization are connections with
versions up to the one that was applied. -/
def FinalizationConf (c : StoreCall) (w : StoreWorld) : Prop :=
  match c with
  | .finalize candidates applied => ∀ v ∈ candidates, v.desiredVersionMS ≤ applied ∧
    ∃ c ∈ w.db.connections, c.id = v.id
  | .setDesiredStatus .. => True
  | c => c.tx = none

def IdsKept (w w' : StoreWorld) : Prop :=
  ∀ c ∈ w.db.connections, ∃ c' ∈ w'.db.connections, c'.id = c.id

def finalizationProtocol : Pool.Protocol finalizationSystem where
  rely _ := IdsKept
  refl _ _ c hc := ⟨c, hc, rfl⟩
  trans _ w₁ w₂ w₃ h h' c hc := by
    obtain ⟨c₂, hc₂, he₂⟩ := h c hc
    obtain ⟨c₃, hc₃, he₃⟩ := h' c₂ hc₂
    exact ⟨c₃, hc₃, he₃.trans he₂⟩
  conf _ := FinalizationConf

theorem StoreCall.idsKept_perform (c : StoreCall) (f : StoreOutcome) (w : StoreWorld) :
    IdsKept w (c.perform f w).2 := fun _ hrow => c.ids_perform f hrow

variable {c : StoreCall}

theorem FinalizationConf.of_quiet (h : c.Quiet) (w : StoreWorld) :
    FinalizationConf c w := by
  cases c <;> first | exact h.1 | exact trivial | cases h.1

/-- What is selected are connections, with versions up to the one that was applied. -/
theorem safe_finalizeConnectionsForAuthSnapshot (i : ℕ) (nodeID accountID : String) (applied : ℤ)
    (w : StoreWorld) :
    Safe (finalizationProtocol.setting CandidatesCurrent i)
      (Store.finalizeConnectionsForAuthSnapshot nodeID accountID applied).run
      (fun _ _ => True) w := by
  have hselect : Safe (finalizationProtocol.setting CandidatesCurrent i)
      (Prog.ask (StoreCall.selectFinalizable nodeID accountID applied))
      (onOk (fun candidates w => ∀ v ∈ candidates, v.desiredVersionMS ≤ applied ∧
        ∃ c ∈ w.db.connections, c.id = v.id) fun _ _ => True) w := by
    refine finalizationProtocol.safe_ask _ fun w₁ _ => ⟨rfl, ?_⟩
    intro f _ w₂ hr
    change onOk _ _ (ite _ _ _) _
    split
    · intro v hv
      obtain ⟨hmem, hsel⟩ := List.mem_filter.1 ((List.mem_insertionSort _).1 hv)
      obtain ⟨c, hc, hid⟩ := (StoreCall.selectFinalizable nodeID accountID applied).idsKept_perform
        f w₁ v hmem
      obtain ⟨c', hc', hid'⟩ := hr c hc
      refine ⟨?_, c', hc', hid'.trans hid⟩
      simp only [Bool.and_eq_true, decide_eq_true_eq] at hsel
      exact hsel.1.2
    · trivial
  refine Safe.andThen (hselect.mono ?_)
  rintro (e | candidates) w₁ hcand
  · trivial
  refine Safe.andThen ((finalizationProtocol.safe_ask (Q := fun _ _ => True) _ fun w₂ hr =>
    ⟨fun v hv => ?_, fun _ _ _ _ => trivial⟩).mono ?_)
  · obtain ⟨hle, c, hc, hid⟩ := hcand v hv
    obtain ⟨c', hc', hid'⟩ := hr c hc
    exact ⟨hle, c', hc', hid'.trans hid⟩
  · rintro (e | _) w₃ _
    · trivial
    · exact Safe.ok fun _ _ => trivial

theorem finalizationProtocol_kept : finalizationProtocol.Kept CandidatesCurrent where
  act e := e.elim
  enter n a w w' he i _ := by
    cases he
    exact finalizationProtocol.refl i w
  call i c f w j _ _ _ := c.idsKept_perform f w
  prog n a w w' _ := by
    cases a with
    | setStatus connectionID status =>
      have honly : Only (fun c => ∀ w, FinalizationConf c w)
          (Store.updateConnectionDesiredStatus connectionID status).run :=
        Store.only_updateConnectionDesiredStatus (fun c hc => FinalizationConf.of_quiet hc)
          fun t w => trivial
      exact Safe.map (finalizationProtocol.safe_only _ honly (I := fun _ => True)
        (fun _ _ _ _ => trivial) (fun c f w hc _ => ⟨hc w, trivial⟩) trivial)
    | finalize nodeID accountID applied =>
      exact Safe.map (safe_finalizeConnectionsForAuthSnapshot n nodeID accountID applied w')

section Steps

variable {db db' : Database}

theorem Database.FilesEnd.setDesiredStatus (h : db.FilesEnd) {id : String}
    {status : ConnectionStatus} {now : ℤ} (hok : db.setDesiredStatus id status now = .ok db') :
    db'.FilesEnd := by
  obtain rfl := setDesiredStatus_ok hok
  refine ⟨h.keyed.update fun _ => rfl, fun c hc hdel => ?_⟩
  obtain ⟨c₀, hc₀, rfl⟩ := Table.mem_update.1 hc
  by_cases hid : (c₀.id == id) = true
  · rw [if_pos hid] at hdel ⊢
    exact h.ended c₀ hc₀ hdel
  · rw [if_neg hid] at hdel ⊢
    exact h.ended c₀ hc₀ hdel

section Finalize

variable {candidates : List Connection} {applied : ℤ}
  (hcurrent : ∀ v ∈ candidates, ∀ c ∈ db.connections, c.id = v.id →
    c.desiredStatus = v.desiredStatus ∧ c.desiredVersionMS = v.desiredVersionMS)
  (hok : db.finalize candidates applied = .ok db')

include hcurrent hok

theorem Database.FilesEnd.finalize (h : db.FilesEnd) : db'.FilesEnd := by
  cases hok
  constructor
  · rw [finalize_connections]
    exact h.keyed.update fun _ => rfl
  · rw [finalize_connections, finalize_issuedConfigs]
    intro c hc hdel g hg hown
    obtain ⟨c₀, hc₀, rfl⟩ := Table.mem_update.1 hc
    obtain ⟨g₀, hg₀, rfl⟩ := Table.mem_update.1 hg
    by_cases hdone : g₀.status = .deleted
    · split
      · rfl
      · exact hdone
    have howner : g₀.connectionID = c₀.id := by
      split at hown <;> split at hown <;> exact hown
    by_cases hsel : (candidates.any (fun v => c₀.id == v.id) &&
        decide (c₀.desiredVersionMS ≤ applied)) = true
    · -- a finalized connection: its candidate was selected with the same status
      rw [if_pos hsel] at hdel
      have hdesired : c₀.desiredStatus = .deleted := hdel
      obtain ⟨v, hv, hid⟩ := List.any_eq_true.1 (Bool.and_eq_true_iff.1 hsel).1
      have hstatus := (hcurrent v hv c₀ hc₀ (eq_of_beq hid)).1
      rw [if_pos]
      rw [Bool.and_eq_true_iff]
      refine ⟨List.any_eq_true.2 ⟨v, hv, ?_⟩, by simpa using hdone⟩
      rw [howner, hid, ← hstatus, hdesired]
      rfl
    · rw [if_neg hsel] at hdel
      exact absurd (h.ended c₀ hc₀ hdel g₀ hg₀ howner) hdone

theorem Database.deletesWithConnection_finalize
    (hconf : ∀ v ∈ candidates, v.desiredVersionMS ≤ applied ∧ ∃ c ∈ db.connections, c.id = v.id) :
    db.DeletesWithConnection db' := by
  cases hok
  rw [DeletesWithConnection, finalize_connections, finalize_issuedConfigs]
  intro g hg hlive hgone
  have hmem := Table.mem_update_of_mem (p := fun g => candidates.any (fun v =>
    g.connectionID == v.id && v.desiredStatus == .deleted) && g.status != .deleted)
    (f := fun g => { g with status := .deleted }) hg
  -- it would be there if it were not one of those that are deleted
  obtain hsel | hsel := em ((candidates.any (fun v => g.connectionID == v.id &&
    v.desiredStatus == .deleted) && g.status != .deleted) = true)
  · obtain ⟨v, hv, hdel⟩ := List.any_eq_true.1 (Bool.and_eq_true_iff.1 hsel).1
    obtain ⟨hown, hdel⟩ := Bool.and_eq_true_iff.1 hdel
    obtain ⟨hle, c, hc, hid⟩ := hconf v hv
    obtain ⟨hstatus, hversion⟩ := hcurrent v hv c hc hid
    have hmem' := Table.mem_update_of_mem (p := fun c => candidates.any (fun v => c.id == v.id) &&
      decide (c.desiredVersionMS ≤ applied)) (f := fun c => { c with
        appliedStatus := c.desiredStatus
        appliedVersionMS := c.desiredVersionMS }) hc
    rw [if_pos] at hmem'
    · exact ⟨_, hmem', hid.trans (eq_of_beq hown).symm, hstatus.trans (eq_of_beq hdel)⟩
    · rw [Bool.and_eq_true_iff, decide_eq_true_eq, hversion]
      exact ⟨List.any_eq_true.2 ⟨v, hv, beq_iff_eq.2 hid⟩, hle⟩
  · rw [if_neg hsel] at hmem
    exact absurd hmem hgone

end Finalize

end Steps

variable {f : StoreOutcome} {w : StoreWorld}

theorem filesEnd_perform {i : ℕ} (h : w.db.FilesEnd) (hk : CandidatesCurrent i c f w)
    (hc : FinalizationConf c w) :
    (c.perform f w).2.db.FilesEnd := by
  rcases c.perform_db f w with he | ⟨tx, htx, hdb⟩
  · rwa [he]
  cases c <;> simp only [StoreCall.tx, Option.some.injEq, reduceCtorEq] at htx <;> subst htx
  case setDesiredStatus => exact h.setDesiredStatus hdb
  case finalize => exact h.finalize hk hdb
  all_goals cases hc

theorem deletesWithConnection_perform {i : ℕ} (hk : CandidatesCurrent i c f w)
    (hc : FinalizationConf c w) :
    w.db.DeletesWithConnection (c.perform f w).2.db := by
  rcases c.perform_db f w with he | ⟨tx, htx, hdb⟩
  · rw [he]
    exact fun g hg _ hgone => absurd hg hgone
  cases c <;> simp only [StoreCall.tx, Option.some.injEq, reduceCtorEq] at htx <;> subst htx
  case setDesiredStatus =>
    rw [Database.setDesiredStatus_ok hdb]
    exact fun g hg _ hgone => absurd hg hgone
  case finalize => exact Database.deletesWithConnection_finalize hk hdb hc
  all_goals cases hc

/-- While the candidates of every finalization are as they were selected, a connection that is
applied as deleted has no configuration left, and a configuration goes only with its connection. -/
theorem issued_files_end (w : StoreWorld) (h : w.db.FilesEnd)
    (es : List (Pool.Event StoreOutcome Empty FinalizationRequest))
    (s : Pool.Config StoreCall StoreCall.Reply StoreWorld Unit)
    (hcurrent : Along (Pool.step finalizationSystem) (Pool.Calls CandidatesCurrent) ⟨w, []⟩ es)
    (hs : runs (Pool.step finalizationSystem) ⟨w, []⟩ es = some s) :
    (∀ c ∈ s.world.db.connections, c.appliedStatus = .deleted →
      ∀ g ∈ s.world.db.issuedConfigs, g.connectionID = c.id → g.status = .deleted) ∧
    ∀ i f s', Pool.Calls (E := Empty) (A := FinalizationRequest) CandidatesCurrent s (.call i f) →
      Pool.step finalizationSystem s (.call i f) = some s' →
      s.world.db.DeletesWithConnection s'.world.db := by
  have henter : ∀ n a (w w' : StoreWorld), w.db.FilesEnd →
      finalizationSystem.enter n a w = some w' → w'.db.FilesEnd := by
    rintro n a w w' hw he
    cases he
    exact hw
  have hcall : ∀ i c f (w : StoreWorld), w.db.FilesEnd → CandidatesCurrent i c f w →
      finalizationProtocol.conf i c w → (finalizationSystem.perform i c f w).2.db.FilesEnd :=
    fun i c f w hw hk hc => filesEnd_perform hw hk hc
  constructor
  · exact (finalizationProtocol_kept.runs (I := fun w : StoreWorld => w.db.FilesEnd)
      (fun e => e.elim) henter
      hcall hcurrent hs h).ended
  · intro i f s' hk hnext
    obtain ⟨-, c, f', hk, hc, he⟩ := finalizationProtocol_kept.next
      (I := fun w : StoreWorld => w.db.FilesEnd)
      (fun e => e.elim) henter hcall hcurrent hs h hk hnext
    rw [he]
    exact deletesWithConnection_perform hk hc

namespace FinalizationSample

def config : IssuedConfig :=
  ⟨"g", "c", .hy2URI, "hy2", "phone", "happ", "text/plain; charset=utf-8", "hy2://", .active⟩

/-- A connection that is applied as active, to be changed to `status` since the version 5. -/
def world (status : ConnectionStatus) : StoreWorld :=
  ⟨{ Database.empty with
      connections := [⟨"c", "a", "n", "phone", .hysteria2, status, .active, 5, 1⟩]
      issuedConfigs := [config] }, 7⟩

def calls (i n : ℕ) : List (Pool.Event StoreOutcome Empty FinalizationRequest) :=
  List.replicate n (.call i ⟨0, .none, 0, "", "", ⟨⟨"", ""⟩, []⟩⟩)

def applied (status : ConnectionStatus)
    (es : List (Pool.Event StoreOutcome Empty FinalizationRequest)) :
    Option (List ConnectionStatus × List Status) :=
  (runs (Pool.step finalizationSystem) ⟨world status, []⟩ es).map fun s =>
    (s.world.db.connections.map Connection.appliedStatus,
      s.world.db.issuedConfigs.map IssuedConfig.status)

/-- The status is changed between the two parts of a finalization up to `version`. -/
def between (version : ℤ) (status : ConnectionStatus) :
    List (Pool.Event StoreOutcome Empty FinalizationRequest) :=
  [.start (.finalize "n" "a" version), .start (.setStatus "c" status)] ++ calls 0 1 ++ calls 1 3 ++
    calls 0 1

def inTurn : List (Pool.Event StoreOutcome Empty FinalizationRequest) :=
  [.start (.finalize "n" "a" 5), .start (.setStatus "c" .active)] ++ calls 0 2 ++ calls 1 3

end FinalizationSample

open FinalizationSample in
/-- A connection that is deleted meanwhile is applied as deleted and keeps its file, and one that is
resumed meanwhile stays applied as active and loses its file. -/
theorem issued_files_part :
    applied .active (between 9 .deleted) = some ([.deleted], [.active]) ∧
      applied .deleted (between 5 .active) = some ([.active], [.deleted]) := by
  constructor <;> decide +kernel

open FinalizationSample in
/-- The connection is resumed after the finalization. -/
theorem issued_files_end_in_turn :
    ∃ s, runs (Pool.step finalizationSystem) ⟨world .deleted, []⟩ inTurn = some s ∧
      ∀ c ∈ s.world.db.connections, c.appliedStatus = .deleted →
        ∀ g ∈ s.world.db.issuedConfigs, g.connectionID = c.id → g.status = .deleted := by
  have happlied : applied .deleted inTurn = some ([.deleted], [.deleted]) := by decide +kernel
  obtain ⟨s, hs, -⟩ := Option.map_eq_some_iff.1 happlied
  refine ⟨s, hs, (issued_files_end (world .deleted) ⟨by decide, by decide⟩ inTurn s
    (by decide +kernel) hs).1⟩

end LazGate
