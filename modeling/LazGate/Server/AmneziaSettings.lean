import LazGate.Amnezia.Allocation
import LazGate.Lib.Runs

/-!
# Saving the settings of an AmneziaWG node

A request reads the row of its node, checks what it wants to store and saves it later.
`UpdateAmneziaWGNodeConfig` writes all columns of this copy, also the revision that the agent had
applied when the row was read. Meanwhile `dispatchServerConfig` may have recorded a result.
-/

namespace LazGate.AmneziaSettings

/-- The last part of `Save`: the settings have passed the checks, and `issued` has the profiles of
the clients that were listed. A request that fails a check has written nothing. -/
def save (config : AmneziaWGNodeConfig) (expected now : ℤ) (issued : List IssuedConfig)
    (db : Database) : Except String Database :=
  db.updateAmneziaWGNodeConfig
    { config with configVersionMS := max now (expected + 1), configErrorID := "" } expected issued

/-- Both statements of `SetAmneziaWGConfigResult` set the error, and that without one also the
applied revision. -/
def withResult (version : ℤ) (errorID : String) (row : AmneziaWGNodeConfig) :
    AmneziaWGNodeConfig :=
  { row with
    appliedConfigVersionMS := if errorID ≠ "" then row.appliedConfigVersionMS else version
    configErrorID := errorID }

def setAmneziaWGConfigResult (nodeID : String) (version : ℤ) (errorID : String) (db : Database) :
    Database :=
  { db with
    amneziaWGConfigs := Table.update
      (fun row => row.nodeID == nodeID && row.configVersionMS == version)
      (withResult version errorID) db.amneziaWGConfigs }

/-! ## Requests and results in any order -/

/-- The database, and the rows that requests have read. -/
structure State where
  db : Database
  copies : List AmneziaWGNodeConfig

inductive Event where
  /-- A request reads the row of a node. -/
  | read (nodeID : String)
  /-- The request with the given copy saves what `Apply` and `Prepare` have made of it. -/
  | save (copy : ℕ) (config : AmneziaWGNodeConfig) (issued : List IssuedConfig) (now : ℤ)
  | result (nodeID : String) (version : ℤ) (errorID : String)

/-- `Apply` and `Prepare` keep the id of the node and both revisions. -/
def Edited (copy config : AmneziaWGNodeConfig) : Prop :=
  config.nodeID = copy.nodeID ∧ config.configVersionMS = copy.configVersionMS ∧
    config.appliedConfigVersionMS = copy.appliedConfigVersionMS

instance (copy config : AmneziaWGNodeConfig) : Decidable (Edited copy config) :=
  inferInstanceAs (Decidable (_ ∧ _))

/-- The handler has compared the version in the request with that of the copy, so this is the one
that `Save` expects. -/
def step (s : State) : Event → Option State
  | .read nodeID =>
    match s.db.getAmneziaWGNodeConfig nodeID with
    | .ok copy => some { s with copies := s.copies ++ [copy] }
    | .error _ => none
  | .save i config issued now =>
    s.copies[i]?.bind fun copy =>
      if Edited copy config then
        some { s with
          db := (save config copy.configVersionMS now issued s.db).toOption.getD s.db }
      else none
  | .result nodeID version errorID =>
    some { s with db := setAmneziaWGConfigResult nodeID version errorID s.db }

/-! ## The applied revision -/

/-- Row by row, the applied revision does not go back, and is not ahead of the stored one. -/
def Grows (s : State) (e : Event) : Prop :=
  ∀ s', step s e = some s' → List.Forall₂ (fun row row' =>
    row.appliedConfigVersionMS ≤ row'.appliedConfigVersionMS ∧
      row'.appliedConfigVersionMS ≤ row'.configVersionMS)
    s.db.amneziaWGConfigs s'.db.amneziaWGConfigs

/-- The row over which a copy is saved has no result that the copy does not have. Nothing is saved
when a client has come or gone since the profiles were rendered. -/
def Current (s : State) : Event → Prop
  | .save i config issued _ => ∀ copy ∈ s.copies[i]?, Edited copy config →
    (s.db.listAmneziaWGConnectionMaterials copy.nodeID).length = issued.length →
      ∀ row ∈ s.db.amneziaWGConfigs, row.nodeID = copy.nodeID →
        row.configVersionMS = copy.configVersionMS →
          row.appliedConfigVersionMS ≤ copy.appliedConfigVersionMS
  | _ => True

instance (s : State) (e : Event) : Decidable (Current s e) := by
  unfold Current
  split <;> infer_instance

/-- What holds of the rows and copies in every run. -/
structure Sound (s : State) : Prop where
  keyed : Table.Keyed AmneziaWGNodeConfig.nodeID s.db.amneziaWGConfigs
  rows : ∀ row ∈ s.db.amneziaWGConfigs, row.appliedConfigVersionMS ≤ row.configVersionMS
  copies : ∀ copy ∈ s.copies, copy.appliedConfigVersionMS ≤ copy.configVersionMS

variable {s s' : State} {e : Event}

/-- A save writes the row of its node, if this has the version that is expected and the clients
are the same; otherwise it writes nothing. -/
theorem rows_save (config : AmneziaWGNodeConfig) (expected now : ℤ) (issued : List IssuedConfig)
    {db : Database} (hkeyed : Table.Keyed AmneziaWGNodeConfig.nodeID db.amneziaWGConfigs) :
    ((save config expected now issued db).toOption.getD db).amneziaWGConfigs =
      Table.update (fun row =>
        (db.listAmneziaWGConnectionMaterials config.nodeID).length = issued.length &&
          (row.nodeID == config.nodeID && row.configVersionMS == expected))
        (fun row => { config with
          nodeID := row.nodeID
          configVersionMS := max now (expected + 1)
          configErrorID := "" }) db.amneziaWGConfigs := by
  unfold save Database.updateAmneziaWGNodeConfig
  split
  · rename_i hcount
    refine (Table.update_eq_self fun row hrow => ?_).symm
    by_contra hp
    simp only [Bool.not_eq_false, Bool.and_eq_true_iff (x := decide _)] at hp
    refine hcount (hkeyed.countP_eq_one (k := config.nodeID) (fun r hr => ?_) hrow hp.2)
    simpa using (Bool.and_eq_true_iff.1 hr).1
  · split
    · rename_i hlen
      rw [decide_eq_false hlen]
      exact (Table.update_eq_self fun _ _ => rfl).symm
    · rename_i hlen
      rw [decide_eq_true (not_not.1 hlen)]
      rfl

/-- What a step writes: `f` in the rows with `p`. -/
structure Writes (s : State) (e : Event) (s' : State) (p : AmneziaWGNodeConfig → Bool)
    (f : AmneziaWGNodeConfig → AmneziaWGNodeConfig) : Prop where
  rows : s'.db.amneziaWGConfigs = Table.update p f s.db.amneziaWGConfigs
  copies : ∀ copy ∈ s'.copies, copy ∈ s.copies ∨ copy ∈ s.db.amneziaWGConfigs
  nodeID : ∀ row, (f row).nodeID = row.nodeID
  bounded : ∀ row ∈ s.db.amneziaWGConfigs, p row = true →
    (f row).appliedConfigVersionMS ≤ (f row).configVersionMS
  current : Current s e ↔ ∀ row ∈ s.db.amneziaWGConfigs, p row = true →
    row.appliedConfigVersionMS ≤ (f row).appliedConfigVersionMS

theorem Sound.writes (h : Sound s) (hs : step s e = some s') : ∃ p f, Writes s e s' p f := by
  cases e with
  | read nodeID =>
    rw [step] at hs
    split at hs
    · rename_i copy hcopy
      obtain rfl := Option.some.inj hs
      have hmem := List.mem_of_find?_eq_some (orNotFound_eq_ok.1 hcopy)
      refine ⟨fun _ => false, id, (Table.update_eq_self fun _ _ => rfl).symm, fun c hc => ?_,
        fun _ => rfl, fun row hrow _ => h.rows row hrow, iff_of_true trivial fun _ _ _ => le_rfl⟩
      rcases List.mem_append.1 hc with hc | hc
      · exact .inl hc
      · exact .inr (List.mem_singleton.1 hc ▸ hmem)
    · cases hs
  | save i config issued now =>
    obtain ⟨copy, hcopy, hs⟩ := Option.bind_eq_some_iff.1 hs
    obtain ⟨hedited, hs⟩ := Option.ite_none_right_eq_some.1 hs
    cases hs
    refine ⟨_, _, rows_save config copy.configVersionMS now issued h.keyed, fun _ => .inl,
      fun _ => rfl, fun row _ _ => ?_, ?_⟩
    · have hle := h.copies copy (List.mem_of_getElem? hcopy)
      rw [hedited.2.2]
      dsimp only
      omega
    · simp only [Current, Option.mem_def, hcopy, Option.some.injEq, forall_eq', hedited,
        true_imp_iff, hedited.1, hedited.2.2, Bool.and_eq_true, decide_eq_true_eq, beq_iff_eq,
        and_imp]
      exact ⟨fun hc row hrow ha => hc ha row hrow, fun hc ha row hrow => hc row hrow ha⟩
  | result nodeID version errorID =>
    obtain rfl := Option.some.inj hs
    refine ⟨_, _, rfl, fun _ => .inl, fun _ => rfl, fun row hrow hp => ?_,
      iff_of_true trivial fun row hrow hp => ?_⟩
    all_goals
      have hle := h.rows row hrow
      obtain rfl : row.configVersionMS = version := eq_of_beq (Bool.and_eq_true_iff.1 hp).2
      dsimp only [withResult]
      split <;> omega

theorem Sound.step (h : Sound s) (hs : step s e = some s') : Sound s' := by
  obtain ⟨p, f, hw⟩ := h.writes hs
  refine ⟨?_, ?_, fun copy hcopy => (hw.copies copy hcopy).elim (h.copies copy) (h.rows copy)⟩
  · rw [hw.rows]
    exact h.keyed.update hw.nodeID
  · rw [hw.rows]
    intro row' hrow'
    obtain ⟨row, hrow, rfl⟩ := Table.mem_update.1 hrow'
    split
    · exact hw.bounded row hrow ‹_›
    · exact h.rows row hrow

theorem current_of_step_eq_none (hs : step s e = none) : Current s e := by
  cases e with
  | save i config issued now =>
    intro copy hcopy hedited
    rw [step, Option.mem_def.1 hcopy, Option.bind_some, if_pos hedited] at hs
    cases hs
  | _ => trivial

theorem Sound.grows_iff (h : Sound s) : Grows s e ↔ Current s e := by
  cases hs : AmneziaSettings.step s e with
  | none => exact iff_of_true (fun _ hs' => nomatch hs.symm.trans hs') (current_of_step_eq_none hs)
  | some s' =>
    obtain ⟨p, f, hw⟩ := h.writes hs
    simp only [Grows, hs, Option.some.injEq, forall_eq', hw.current, hw.rows, Table.update,
      List.forall₂_map_right_iff, List.forall₂_same]
    refine forall₂_congr fun row hrow => ?_
    split
    · rename_i hp
      simp [hp, hw.bounded row hrow hp]
    · rename_i hp
      simp [hp, h.rows row hrow]

/-- Take any run of reads, saves and results from tables in which no applied revision is ahead.
No applied revision goes back or gets ahead, just when each copy that is saved over a row of its
version has the last result of the row. -/
theorem applied_revision_grows_iff (db : Database) (es : List Event)
    (hkeyed : Table.Keyed AmneziaWGNodeConfig.nodeID db.amneziaWGConfigs)
    (hrows : ∀ row ∈ db.amneziaWGConfigs, row.appliedConfigVersionMS ≤ row.configVersionMS) :
    Along step Grows ⟨db, []⟩ es ↔ Along step Current ⟨db, []⟩ es := by
  have hsound : Sound ⟨db, []⟩ := ⟨hkeyed, hrows, fun _ h => absurd h List.not_mem_nil⟩
  exact along_congr (fun _ _ _ h hs => h.step hs) (fun _ _ h => h.grows_iff) hsound

/-- A node as the form saves it, with nothing applied yet. -/
def savedNode : AmneziaWGNodeConfig :=
  { Allocation.poolNode "10.8.1.0/24" "10.8.1.1" "10.8.1.1" "10.8.1.254" with
    mtu := 1376
    clientRouteAllowedIPs := "0.0.0.0/0"
    clientRouteMode := "all"
    timingsJSON := "\x7b\x7d" }

def oneNode : Database := { Database.empty with amneziaWGConfigs := [savedNode] }

theorem applied_revision_grows_in_turn :
    Along step Grows ⟨oneNode, []⟩ [.result "n" 1 "", .read "n",
      .save 0 { savedNode with appliedConfigVersionMS := 1 } [] 7, .result "n" 7 ""] :=
  (applied_revision_grows_iff oneNode _ (by decide) (by decide)).2 (by decide)

/-- A result that is recorded between the read and the save is undone. -/
theorem applied_revision_undone :
    (runs step ⟨oneNode, []⟩ [.read "n", .result "n" 1 ""]).map
        (·.db.amneziaWGConfigs.map (·.appliedConfigVersionMS)) = some [1] ∧
      (runs step ⟨oneNode, []⟩ [.read "n", .result "n" 1 "", .save 0 savedNode [] 7]).map
        (·.db.amneziaWGConfigs.map (·.appliedConfigVersionMS)) = some [0] := by
  decide

end LazGate.AmneziaSettings
