import LazGate.Lib.Runs
import LazGate.Sync.Adapter

/-!
# An agent, its server, and the passes between them

One node: the agent runs passes one at a time, each call of a pass may fail, a pass may be stopped
anywhere, and between two calls the server may commit changes to the connections of the node. A
manifest request is answered from the rows of that moment, under a time that was read before.

The world also keeps some history, which no program reads: the times of the pages built so far,
the connections changed since the first page of the current pass, and the connections that have been
active all the time since a full pass began.
-/

namespace LazGate

open Prog

variable {P M N : Type}

/-- The sync rows of a node, as the server's tables keep them: every id and every version was set
when the connection was created. -/
structure ServerRows (M : Type) where
  rows : Std.ExtTreeMap String (SyncRow M)
  keyed : ∀ (id : String) (r : SyncRow M), rows[id]? = some r → r.id = id
  nonempty : ∀ (id : String) (r : SyncRow M), rows[id]? = some r → id ≠ ""
  versioned : ∀ (id : String) (r : SyncRow M), rows[id]? = some r → 0 < r.desiredVersionMS

variable {s : ServerRows M} {r : SyncRow M}

namespace ServerRows

def empty : ServerRows M := ⟨∅, by simp, by simp, by simp⟩

/-- The row `r` in place of the row of its connection. -/
def put (s : ServerRows M) (r : SyncRow M) (hid : r.id ≠ "") (hv : 0 < r.desiredVersionMS) :
    ServerRows M where
  rows := s.rows.insert r.id r
  keyed id q h := by
    rw [Std.ExtTreeMap.getElem?_insert] at h
    split at h
    · cases h
      exact Std.compare_eq_iff_eq.1 ‹_›
    · exact s.keyed id q h
  nonempty id q h := by
    rw [Std.ExtTreeMap.getElem?_insert] at h
    split at h
    · rwa [← Std.compare_eq_iff_eq.1 ‹compare r.id id = .eq›]
    · exact s.nonempty id q h
  versioned id q h := by
    rw [Std.ExtTreeMap.getElem?_insert] at h
    split at h
    · cases h
      exact hv
    · exact s.versioned id q h

theorem rows_put (s : ServerRows M) (r : SyncRow M) (hid : r.id ≠ "") (hv : 0 < r.desiredVersionMS)
    (id : String) :
    (s.put r hid hv).rows[id]? = if id = r.id then some r else s.rows[id]? := by
  simp only [put, Std.ExtTreeMap.getElem?_insert, Std.compare_eq_iff_eq, eq_comm (a := id)]

/-- The rows as the sync query reads them. -/
def node (s : ServerRows M) : NodeRows M where
  rows := s.rows.toList.map (·.2)
  distinct := by
    have hkeys : (s.rows.toList.map (·.2)).map (·.id) = s.rows.toList.map (·.1) := by
      rw [List.map_map]
      refine List.map_congr_left fun ⟨id, r⟩ h => ?_
      exact s.keyed id r (Std.ExtTreeMap.mem_toList_iff_getElem?_eq_some.1 h)
    rw [hkeys, List.Nodup, List.pairwise_map]
    refine Std.ExtTreeMap.distinct_keys_toList.imp fun h => ?_
    simpa using h
  nonempty r hr := by
    obtain ⟨⟨id, r⟩, h, rfl⟩ := List.mem_map.1 hr
    have h' := Std.ExtTreeMap.mem_toList_iff_getElem?_eq_some.1 h
    rw [s.keyed id r h']
    exact s.nonempty id r h'

theorem mem_node :
    r ∈ s.node.rows ↔ s.rows[r.id]? = some r := by
  simp only [node, List.mem_map, Prod.exists, exists_eq_right,
    Std.ExtTreeMap.mem_toList_iff_getElem?_eq_some]
  constructor
  · rintro ⟨id, h⟩
    rwa [s.keyed id r h]
  · exact fun h => ⟨_, h⟩

end ServerRows

structure World (M : Type) where
  agent : Agent
  server : ServerRows M
  /-- The `manifest_started_at` of every page built so far. -/
  built : List ℤ
  /-- The connections changed since the first page of the current pass. -/
  dirty : Std.ExtTreeSet String
  /-- The connections that have been active since the current pass began, if it is a full one. -/
  steady : Std.ExtTreeSet String

/-- How a call turns out. A page also has the time it started at and the setting of the node. -/
structure Served where
  outcome : Outcome
  now : ℤ
  setting : ℤ

def activeIDs (A : Adapter P M N) (s : ServerRows M) : Std.ExtTreeSet String :=
  Std.ExtTreeSet.ofList ((s.node.rows.filter A.active).map (·.id))

def World.serve (w : World M) (request : Request) (now : ℤ) : World M :=
  { w with
    built := now :: w.built
    dirty := if request.fromConnectionID = "" then ∅ else w.dirty }

def World.perform (A : Adapter P M N) : (c : SyncCall P) → Served → World M → c.Reply × World M
  | .agent c, f, w =>
    ((c.perform f.outcome w.agent).1, { w with agent := (c.perform f.outcome w.agent).2 })
  | .authManifest request, f, w =>
    match f.outcome with
    | .ok =>
      (.ok (handleManifest (storedProjector (w.server.node.connections A f.setting).rows A.builder)
        request f.now), w.serve request f.now)
    | .refused e => (.error e, w)
    | .lost e => (.error e, w.serve request f.now)

/-- A committed change of a connection: it is created, or its row is replaced by another. -/
def World.commit (A : Adapter P M N) (r : SyncRow M) (w : World M) : Option (World M) :=
  if h : r.id ≠ "" ∧ 0 < r.desiredVersionMS then
    some { w with
      server := w.server.put r h.1 h.2
      dirty := w.dirty.insert r.id
      steady := if A.active r then w.steady else w.steady.erase r.id }
  else none

structure PassArgs where
  full : Bool
  pageSize : ℤ
  order : MapOrder
  fuel : ℕ

/-- Whether a pass with the given arguments is a full one. -/
def World.startsFull (w : World M) (args : PassArgs) : Bool :=
  args.full || w.agent.cursor = none

def World.enter (A : Adapter P M N) (args : PassArgs) (w : World M) : Option (World M) :=
  some { w with
    dirty := ∅
    steady := if w.startsFull args then activeIDs A w.server else ∅ }

/-- The agent of a node and its server. -/
def syncSystem (A : Adapter P M N) :
    System (SyncCall P) SyncCall.Reply Served (World M) (SyncRow M) PassArgs
      (Except String Unit) where
  perform := World.perform A
  act := World.commit A
  enter := World.enter A
  prog args := (A.sync.runOnce args.pageSize args.order args.fuel args.full).run

abbrev SyncConfig (P M : Type) : Type :=
  Solo.Config (SyncCall P) SyncCall.Reply (World M) (Except String Unit)

abbrev SyncEvent (M : Type) : Type := Solo.Event Served (SyncRow M) PassArgs

/-- Whether the last pass has succeeded and left the world in a state that satisfies `p`. -/
def succeeded {R : SyncCall P → Type} {W : Type} (p : W → Bool) :
    Option (Solo.Config (SyncCall P) R W (Except String Unit)) → Bool
  | some ⟨w, some (.done (.ok _))⟩ => p w
  | _ => false

theorem of_succeeded {R : SyncCall P → Type} {W : Type} {p : W → Bool}
    {s : Option (Solo.Config (SyncCall P) R W (Except String Unit))} (h : succeeded p s = true) :
    ∃ s', s = some s' ∧ s'.task = some (.done (.ok ())) ∧ p s'.world = true := by
  match s, h with
  | some ⟨w, some (.done (.ok _))⟩, h => exact ⟨_, rfl, rfl, h⟩

/-- One active Hysteria connection, and an agent that has never synced. -/
def oneConnection : World String where
  agent := ⟨.empty, ∅, [], ∅⟩
  server := ServerRows.empty.put ⟨"c1", .active, 3, .active, "hash"⟩
    (by decide) (by decide)
  built := []
  dirty := ∅
  steady := ∅

/-- Every committed change has a version that is not smaller than the time of any page built before
it. -/
def VersionsAhead (s : SyncConfig P M) : SyncEvent M → Prop
  | .act r => ∀ t ∈ s.world.built, t ≤ r.desiredVersionMS
  | _ => True

instance (s : SyncConfig P M) (e : SyncEvent M) : Decidable (VersionsAhead s e) :=
  match e with
  | .act r => inferInstanceAs (Decidable (∀ t ∈ s.world.built, t ≤ r.desiredVersionMS))
  | .start _ | .call _ | .stop => isTrue trivial

variable {A : Adapter P M N}

theorem mem_activeIDs {id : String} :
    id ∈ activeIDs A s ↔ ∃ r, s.rows[id]? = some r ∧ A.active r := by
  rw [activeIDs, Std.ExtTreeSet.mem_ofList, List.contains_iff_mem]
  simp only [List.mem_map, List.mem_filter, ServerRows.mem_node]
  constructor
  · rintro ⟨r, ⟨hr, hact⟩, rfl⟩
    exact ⟨r, hr, hact⟩
  · rintro ⟨r, hr, hact⟩
    have hid := s.keyed id r hr
    exact ⟨r, ⟨hid ▸ hr, hact⟩, hid⟩

theorem commit_eq_some {w w' : World M} (h : w.commit A r = some w') :
    w'.agent = w.agent ∧ w'.built = w.built ∧
      (∀ id : String, w'.server.rows[id]? = if id = r.id then some r else w.server.rows[id]?) ∧
      (∀ id, id ∈ w'.dirty ↔ id = r.id ∨ id ∈ w.dirty) ∧
      ∀ id, id ∈ w'.steady ↔ id ∈ w.steady ∧ (id = r.id → A.active r) := by
  unfold World.commit at h
  split at h
  · rename_i hr
    cases h
    refine ⟨rfl, rfl, w.server.rows_put r hr.1 hr.2, fun id => ?_, fun id => ?_⟩
    · rw [Std.ExtTreeSet.mem_insert, Std.compare_eq_iff_eq, eq_comm (a := r.id)]
    · by_cases hact : A.active r
      · simp [hact]
      · simp only [hact, Bool.false_eq_true, if_false, Std.ExtTreeSet.mem_erase, ne_eq,
          Std.compare_eq_iff_eq, imp_false, eq_comm (a := id)]
        exact and_comm
  · cases h

/-! ## A pass among other events -/

/-- What a pass may assume of the other events, and an invariant of all its points. -/
structure Passing (A : Adapter P M N) where
  admits : SyncCall P → World M → Prop
  rely : World M → World M → Prop
  inv : World M → Prop
  refl : ∀ w, rely w w
  trans : ∀ w₁ w₂ w₃, rely w₁ w₂ → rely w₂ w₃ → rely w₁ w₃
  stable : ∀ w w', rely w w' → inv w → inv w'
  serve : ∀ w request now, inv w → inv (w.serve request now)

namespace Passing

variable {A : Adapter P M N} (X : Passing A)

def setting : Setting (SyncCall P) SyncCall.Reply Served (World M) where
  perform := World.perform A
  admits c _ := X.admits c
  rely := X.rely
  guar _ := X.inv
  refl := X.refl
  trans := X.trans

/-- `Q` holds after `x`, or the invariant if it fails. -/
abbrev Keeps {α : Type} (x : Sync P α) (Q : α → World M → Prop) (w : World M) : Prop :=
  Safe X.setting x.run (onOk Q fun _ => X.inv) w

/-- The other events keep `I`, and it gives the invariant. -/
structure Within (I : World M → Prop) : Prop where
  stable : X.setting.Stable I
  inv : ∀ w, I w → X.inv w

variable {X} {I : World M → Prop} {w : World M}

theorem Within.and {p : World M → Prop} (h : X.Within I) (hp : X.setting.Stable p) :
    X.Within fun w => I w ∧ p w :=
  ⟨fun _ _ hr hw => ⟨h.stable _ _ hr hw.1, hp _ _ hr hw.2⟩, fun _ hw => h.inv _ hw.1⟩

/-- A call on the agent's machine: it takes place, with or without an answer, or it does not. -/
theorem call_safe {c : AgentCall} {Q : c.Result → World M → Prop} (hI : X.Within I)
    (hQ : ∀ r, X.setting.Stable (Q r))
    (hok : ∀ w r a, I w → X.admits (.agent c) w → c.effect w.agent = .ok (r, a) →
      X.inv { w with agent := a } ∧ Q r { w with agent := a }) (hw : I w) :
    X.Keeps (c.attempt (P := P)) Q w := by
  refine Safe.ask fun w1 hr f hadm => ?_
  have hw1 := hI.stable _ _ hr hw
  rcases c.perform_cases f.outcome w1.agent with ⟨r, a, he, hp⟩ | ⟨e, r, a, -, he, hp⟩ | ⟨e, hp⟩
  · obtain ⟨hi, hq⟩ := hok w1 r a hw1 hadm he
    simp only [setting, World.perform, hp]
    exact ⟨hi, fun w2 hr2 => hQ r _ _ hr2 hq⟩
  · obtain ⟨hi, -⟩ := hok w1 r a hw1 hadm he
    simp only [setting, World.perform, hp]
    exact ⟨hi, fun w2 hr2 => X.stable _ _ hr2 hi⟩
  · simp only [setting, World.perform, hp]
    exact ⟨hI.inv _ hw1, fun w2 hr2 => X.stable _ _ hr2 (hI.inv _ hw1)⟩

/-- A page is built from the rows of one moment. -/
theorem fetch_safe (request : Request) (hsize : validatePageSize request.pageSize = .ok ())
    {Q : Response (CredentialChange P) → World M → Prop} (hI : X.Within I)
    (hQ : ∀ r, X.setting.Stable (Q r))
    (hpage : ∀ w g now, I w → Q ⟨now, request.full || request.sinceManifestStartedAtMS = 0,
      A.page w.server.node g { request with
        full := request.full || request.sinceManifestStartedAtMS = 0 }⟩ (w.serve request now))
    (hw : I w) : X.Keeps (fetchSyncPage request) Q w := by
  refine fetchSyncPage_safe (Safe.ask fun w1 hr f _ => ?_)
  have hw1 := hI.stable _ _ hr hw
  have hserved := X.serve w1 request f.now (hI.inv _ hw1)
  rcases hf : f.outcome with - | e | e
  · simp only [setting, World.perform, hf]
    refine ⟨hserved, fun w2 hr2 => ?_⟩
    change onOk Q _ (decodeManifest _) w2
    rw [decode_handleManifest A w1.server.node f.setting hsize]
    exact hQ _ _ _ hr2 (hpage w1 f.setting f.now hw1)
  · simp only [setting, World.perform, hf]
    exact ⟨hI.inv _ hw1, fun w2 hr2 => X.stable _ _ hr2 (hI.inv _ hw1)⟩
  · simp only [setting, World.perform, hf]
    exact ⟨hserved, fun w2 hr2 => X.stable _ _ hr2 hserved⟩

/-- The start of a pass: from the beginning, or from the cursor. -/
theorem load_safe {full : Bool} {Q : Bool → ℤ → World M → Prop} (hI : X.Within I)
    (hQ : ∀ b v, X.setting.Stable (Q b v))
    (hfirst : ∀ w, I w → full = true ∨ w.agent.cursor = none → Q true 0 w)
    (hcursor : ∀ w v, I w → full = false → w.agent.cursor = some (.int v) → Q false v w)
    (hw : I w) :
    X.Keeps (loadCursor (authCursor A.sync.store) authSyncCursorKey full)
      (fun r => Q r.1 r.2) w := by
  refine loadCursor_safe (A.shape.getState _)
    (fun hf w' hr => hQ true 0 _ _ hr (hfirst w hw (.inl hf)))
    fun hf => Safe.ask fun w1 hr f _ => ?_
  have hw1 := hI.stable _ _ hr hw
  rcases AgentCall.perform_getState authSyncCursorKey f.outcome w1.agent with hp | ⟨e, hp⟩
  · simp only [setting, World.perform, hp]
    refine ⟨hI.inv _ hw1, fun w2 hr2 => ?_⟩
    change onOk _ _ (startFrom (.ok w1.agent.cursor)) w2
    rcases hcur : w1.agent.cursor with - | v | text
    · exact hQ true 0 _ _ hr2 (hfirst w1 hw1 (.inr hcur))
    · exact hQ false v _ _ hr2 (hcursor w1 v hw1 hf hcur)
    · exact X.stable _ _ hr2 (hI.inv _ hw1)
  · simp only [setting, World.perform, hp]
    exact ⟨hI.inv _ hw1, fun w2 hr2 => X.stable _ _ hr2 (hI.inv _ hw1)⟩

end Passing

end LazGate
