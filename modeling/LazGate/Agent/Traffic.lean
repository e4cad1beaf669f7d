import LazGate.Lib.Runs
import LazGate.Lib.Table

/-!
# The traffic of connections on the agent

`connection_traffic_state` of `internal/agent/common/store/store.go`: the counters of the VPN
runtime as they were last observed, and the bytes that the server has not acknowledged.
-/

namespace LazGate.AgentTraffic

/-! ## The table -/

inductive Direction where
  | rx
  | tx
  deriving DecidableEq

/-- A count for each direction. -/
@[ext] structure Bytes where
  rx : ℤ
  tx : ℤ
  deriving DecidableEq

namespace Bytes

def zero : Bytes := ⟨0, 0⟩

def get (b : Bytes) : Direction → ℤ
  | .rx => b.rx
  | .tx => b.tx

def add (a b : Bytes) : Bytes := ⟨a.rx + b.rx, a.tx + b.tx⟩

def sub (a b : Bytes) : Bytes := ⟨a.rx - b.rx, a.tx - b.tx⟩

@[simp] theorem get_zero (d : Direction) : zero.get d = 0 := by cases d <;> rfl

@[simp] theorem get_add (a b : Bytes) (d : Direction) : (a.add b).get d = a.get d + b.get d := by
  cases d <;> rfl

end Bytes

/-- `UsageRecord` and `AcknowledgedUsage`. -/
structure UsageRecord where
  connectionID : String
  bytes : Bytes
  deriving DecidableEq

def UsageRecord.Invalid (r : UsageRecord) : Prop :=
  r.connectionID = "" ∨ r.bytes.rx < 0 ∨ r.bytes.tx < 0

instance (r : UsageRecord) : Decidable r.Invalid := inferInstanceAs (Decidable (_ ∨ _ ∨ _))

structure UsageBatch where
  requestID : String
  nodeID : String
  fromMS : ℤ := 0
  toMS : ℤ := 0
  records : List UsageRecord
  createdMS : ℤ := 0
  deriving DecidableEq

structure ConnectionTrafficState where
  connectionID : String
  observed : Bytes
  acknowledged : Bytes
  unacknowledged : Bytes
  sent : Bytes
  requestID : Option String
  deriving DecidableEq

/-- The row of a connection of which nothing is known. -/
def ConnectionTrafficState.new (connectionID : String) : ConnectionTrafficState :=
  ⟨connectionID, .zero, .zero, .zero, .zero, none⟩

/-- The table, with its primary key. -/
structure TrafficStates where
  rows : List ConnectionTrafficState
  keyed : Table.Keyed ConnectionTrafficState.connectionID rows

namespace TrafficStates

def empty : TrafficStates := ⟨[], List.nodup_nil⟩

def find (t : TrafficStates) (connectionID : String) : Option ConnectionTrafficState :=
  t.rows.find? (·.connectionID == connectionID)

def getConnectionTrafficState (t : TrafficStates) (connectionID : String) :
    ConnectionTrafficState :=
  (t.find connectionID).getD (.new connectionID)

def update (p : ConnectionTrafficState → Bool)
    (f : ConnectionTrafficState → ConnectionTrafficState)
    (hf : ∀ r, (f r).connectionID = r.connectionID) (t : TrafficStates) : TrafficStates :=
  ⟨Table.update p f t.rows, t.keyed.update hf⟩

/-- `insert … on conflict(connection_id) do nothing`. -/
def insertMissing (connectionID : String) (t : TrafficStates) : TrafficStates :=
  if h : ∃ r ∈ t.rows, r.connectionID = connectionID then t
  else ⟨t.rows ++ [.new connectionID], t.keyed.insert fun r hr heq => h ⟨r, hr, heq⟩⟩

end TrafficStates

/-! ## `ObserveTraffic` -/

def maxInt64 : ℤ := 2 ^ 63 - 1

/-- A lower count is the first one after a reset. -/
def cumulativeDelta (current observed : ℤ) : ℤ :=
  if observed ≤ current then current - observed else current

def errOverflow : String := "traffic counter overflow"

def addNonnegative (a b : ℤ) : Except String ℤ :=
  if a < 0 ∨ b < 0 ∨ maxInt64 - b < a then .error errOverflow else .ok (a + b)

def errSnapshot : String := "traffic snapshot contains invalid values"

def delta (record : UsageRecord) (row : ConnectionTrafficState) : Bytes :=
  ⟨cumulativeDelta record.bytes.rx row.observed.rx, cumulativeDelta record.bytes.tx row.observed.tx⟩

def observeRecord (t : TrafficStates) (record : UsageRecord) : Except String TrafficStates :=
  if record.Invalid then .error errSnapshot
  else do
    let t := t.insertMissing record.connectionID
    let row := t.getConnectionTrafficState record.connectionID
    let _ ← addNonnegative row.unacknowledged.rx (delta record row).rx
    let _ ← addNonnegative row.unacknowledged.tx (delta record row).tx
    .ok (t.update (·.connectionID == record.connectionID) (fun r => { r with
      observed := record.bytes
      unacknowledged := r.unacknowledged.add (delta record row) }) fun _ => rfl)

/-- `ObserveTraffic`: the table afterwards, and the error if the transaction was rolled back. -/
def observeTraffic (records : List UsageRecord) (t : TrafficStates) :
    TrafficStates × Option String :=
  match records.foldlM observeRecord t with
  | .error e => (t, some e)
  | .ok t' => (t', none)

/-! ## Requests -/

def byConnection (r r' : ConnectionTrafficState) : Prop := r.connectionID ≤ r'.connectionID

instance : DecidableRel byConnection := fun r r' =>
  inferInstanceAs (Decidable (r.connectionID ≤ r'.connectionID))

def unsent (limit : ℤ) (t : TrafficStates) : List ConnectionTrafficState :=
  ((t.rows.filter fun r => r.requestID = none ∧
    (0 < r.unacknowledged.rx ∨ 0 < r.unacknowledged.tx)).insertionSort byConnection).take
      limit.toNat

/-- The update of one row by `PrepareUsageRequest`. -/
def freeze (requestID : String) (t : TrafficStates) (record : UsageRecord) :
    Except String TrafficStates :=
  let matching : ConnectionTrafficState → Bool := fun r =>
    r.connectionID == record.connectionID && r.requestID == none
  if t.rows.countP matching ≠ 1 then .error "traffic state changed while preparing request"
  else .ok (t.update matching
    (fun r => { r with sent := r.unacknowledged, requestID := some requestID }) fun _ => rfl)

def requestLimit (limit : ℤ) : ℤ := if limit ≤ 0 then 100 else limit

def prepareUsageRequest (requestID nodeID : String) (limit : ℤ) (t : TrafficStates) :
    Except String (Option UsageBatch × TrafficStates) :=
  if requestID = "" then .error "traffic request_id is required"
  else do
    let records := (unsent (requestLimit limit) t).map fun r => ⟨r.connectionID, r.unacknowledged⟩
    if records = [] then .ok (none, t)
    else do
      let t ← records.foldlM (freeze requestID) t
      .ok (some { requestID, nodeID, records }, t)

def checkAcknowledged : List UsageRecord → List String → Except String Unit
  | [], _ => .ok ()
  | r :: rs, seen =>
    if r.Invalid then .error "usage acknowledgement contains invalid values"
    else if r.connectionID ∈ seen then
      .error ("usage acknowledgement contains duplicate connection " ++ r.connectionID)
    else checkAcknowledged rs (r.connectionID :: seen)

def frozen (requestID : String) (t : TrafficStates) : List ConnectionTrafficState :=
  (t.rows.filter fun r => r.requestID = some requestID).insertionSort byConnection

/-- The statements of the transaction for one row of the request. -/
def acknowledgeRow (requestID : String) (ack : List UsageRecord) (t : TrafficStates)
    (state : ConnectionTrafficState) : Except String TrafficStates :=
  match ack.find? (·.connectionID == state.connectionID) with
  | none => .error ("usage acknowledgement misses connection " ++ state.connectionID)
  | some accepted =>
    if state.unacknowledged.rx < state.sent.rx ∨ state.unacknowledged.tx < state.sent.tx then
      .error "invalid persisted traffic state"
    else if accepted.bytes.rx < state.sent.rx ∨ accepted.bytes.tx < state.sent.tx then
      .error ("authoritative usage is lower than sent usage for connection " ++ state.connectionID)
    else .ok (t.update (fun r => r.connectionID == state.connectionID &&
        r.requestID == some requestID) (fun r => { r with
          acknowledged := accepted.bytes
          unacknowledged := r.unacknowledged.sub r.sent
          sent := .zero
          requestID := none }) fun _ => rfl)

def acknowledgeUsage (requestID : String) (records : List UsageRecord) (t : TrafficStates) :
    Except String TrafficStates := do
  checkAcknowledged records []
  let states := frozen requestID t
  if states = [] then .ok t
  else if records.length ≠ states.length then
    .error "usage acknowledgement does not match prepared connections"
  else states.foldlM (acknowledgeRow requestID records) t

/-! ## Rows -/

namespace TrafficStates

variable {t : TrafficStates} {p : ConnectionTrafficState → Bool}
  {f : ConnectionTrafficState → ConnectionTrafficState}
  {hf : ∀ r, (f r).connectionID = r.connectionID}

theorem find_update (id : String) :
    (t.update p f hf).find id = (t.find id).map fun r => if p r then f r else r := by
  have hkey : ((·.connectionID == id) ∘ fun r => if p r then f r else r) =
      fun r : ConnectionTrafficState => r.connectionID == id := by
    funext r
    rw [Function.comp_apply]
    split
    · rw [hf]
    · rfl
  change (t.rows.map fun r => if p r then f r else r).find? _ = _
  rw [List.find?_map, hkey]
  rfl

theorem find_insertMissing (id id' : String) : (t.insertMissing id).find id' =
      if id' = id then some (t.getConnectionTrafficState id) else t.find id' := by
  rw [insertMissing]
  split
  · rename_i h
    obtain ⟨r, hr, rfl⟩ := h
    split
    · rename_i heq
      subst heq
      have hfind : t.find r.connectionID = some r := t.keyed.find?_eq hr
      rw [getConnectionTrafficState, hfind, Option.getD_some]
    · rfl
  · rename_i h
    have hnone : t.find id = none := by
      rw [find, List.find?_eq_none]
      intro r hr heq
      exact h ⟨r, hr, by simpa using heq⟩
    rw [find, List.find?_append, ← find]
    split
    · rename_i heq
      subst heq
      rw [getConnectionTrafficState, hnone]
      simp [ConnectionTrafficState.new]
    · rename_i hne
      have hlast : [ConnectionTrafficState.new id].find? (·.connectionID == id') = none := by
        simpa [ConnectionTrafficState.new] using Ne.symm hne
      rw [hlast, Option.or_none]

theorem connectionID_of_find {id : String} {r : ConnectionTrafficState} (h : t.find id = some r) :
    r.connectionID = id := by
  simpa using List.find?_some h

theorem get_insertMissing (id id' : String) :
    (t.insertMissing id).getConnectionTrafficState id' = t.getConnectionTrafficState id' := by
  rw [getConnectionTrafficState, find_insertMissing]
  split
  · rename_i heq
    rw [heq, Option.getD_some]
  · rfl

theorem get_update_column {γ : Type} (column : ConnectionTrafficState → γ)
    (hcolumn : ∀ r, column (f r) = column r) (id : String) :
    column ((t.update p f hf).getConnectionTrafficState id) =
      column (t.getConnectionTrafficState id) := by
  rw [getConnectionTrafficState, getConnectionTrafficState, find_update]
  cases t.find id with
  | none => rfl
  | some r =>
    rw [Option.map_some, Option.getD_some, Option.getD_some]
    split
    · exact hcolumn r
    · rfl

end TrafficStates

/-! ## What is observed -/

variable {records : List UsageRecord} {e requestID : String}

section Observe

variable {t t' : TrafficStates} {record : UsageRecord}

def observedRow (record : UsageRecord) (row : ConnectionTrafficState) : ConnectionTrafficState :=
  { row with
    observed := record.bytes
    unacknowledged := row.unacknowledged.add (delta record row) }

theorem get_delta (record : UsageRecord) (row : ConnectionTrafficState) (d : Direction) :
    (delta record row).get d = cumulativeDelta (record.bytes.get d) (row.observed.get d) := by
  cases d <;> rfl

theorem cumulativeDelta_self (n : ℤ) : cumulativeDelta n n = 0 := by
  simp [cumulativeDelta]

theorem observedRow_observedRow (record record' : UsageRecord) (row : ConnectionTrafficState)
    (h : record'.bytes = record.bytes) :
    observedRow record' (observedRow record row) = observedRow record row := by
  simp [observedRow, delta, h, cumulativeDelta_self, Bytes.add]

theorem addNonnegative_eq_ok {a b c : ℤ} (h : addNonnegative a b = .ok c) : a + b ≤ maxInt64 := by
  obtain ⟨hfit, h⟩ := Except.guard_eq_ok.1 h
  rw [not_or, not_or, not_lt, not_lt, not_lt] at hfit
  linarith [hfit.2.2]

theorem addNonnegative_eq_error {a b : ℤ} (h : addNonnegative a b = .error e) :
    e = errOverflow := by
  rw [addNonnegative] at h
  split at h
  · exact (Except.error.inj h).symm
  · cases h

/-- A record that is accepted is valid, fits, and changes the row of its connection only. -/
theorem observeRecord_ok (h : observeRecord t record = .ok t') :
    ¬ record.Invalid ∧
      (∀ d, (t.getConnectionTrafficState record.connectionID).unacknowledged.get d +
        (delta record (t.getConnectionTrafficState record.connectionID)).get d ≤ maxInt64) ∧
      ∀ id, t'.getConnectionTrafficState id =
        if id = record.connectionID then observedRow record (t.getConnectionTrafficState id)
        else t.getConnectionTrafficState id := by
  obtain ⟨hvalid, h⟩ := Except.guard_eq_ok.1 h
  simp only [Except.bind_eq_ok, TrafficStates.get_insertMissing] at h
  obtain ⟨_, hrx, _, htx, h⟩ := h
  cases h
  refine ⟨hvalid, ?_, ?_⟩
  · rintro (_ | _)
    · exact addNonnegative_eq_ok hrx
    · exact addNonnegative_eq_ok htx
  · intro id
    rw [TrafficStates.getConnectionTrafficState, TrafficStates.find_update,
      TrafficStates.find_insertMissing]
    split
    · rename_i heq
      subst heq
      have hid : (t.getConnectionTrafficState record.connectionID).connectionID =
          record.connectionID := by
        rw [TrafficStates.getConnectionTrafficState]
        cases hfind : t.find record.connectionID with
        | none => rfl
        | some r => exact TrafficStates.connectionID_of_find hfind
      rw [Option.map_some, Option.getD_some, if_pos (by rw [hid]; exact beq_self_eq_true _)]
      rfl
    · rename_i hne
      have hget : t.getConnectionTrafficState id = (t.find id).getD (.new id) := rfl
      rw [hget]
      cases hfind : t.find id with
      | none => rfl
      | some r =>
        have hid := TrafficStates.connectionID_of_find hfind
        rw [Option.map_some, if_neg (by rw [hid]; simpa using hne)]

theorem observeRecord_error (h : observeRecord t record = .error e) :
    e = errSnapshot ∨ e = errOverflow := by
  rw [observeRecord] at h
  split at h
  · exact .inl (Except.error.inj h).symm
  · right
    dsimp only [bind, Except.bind] at h
    split at h
    · rename_i hrx
      cases h
      exact addNonnegative_eq_error hrx
    · split at h
      · rename_i htx
        cases h
        exact addNonnegative_eq_error htx
      · cases h

/-- A snapshot that is accepted. A connection that it lists more than once has the same bytes in
all its records. -/
theorem foldlM_observeRecord (h : records.foldlM observeRecord t = .ok t') {id : String}
    {bytes : Bytes} (hbytes : ∀ r ∈ records, r.connectionID = id → r.bytes = bytes) :
    t'.getConnectionTrafficState id =
      if ∃ r ∈ records, r.connectionID = id then
        observedRow ⟨id, bytes⟩ (t.getConnectionTrafficState id)
      else t.getConnectionTrafficState id := by
  induction records generalizing t with
  | nil =>
    cases h
    rw [if_neg (by simp)]
  | cons r records ih =>
    rw [List.foldlM_cons, Except.bind_eq_ok] at h
    obtain ⟨t₁, hfirst, hrest⟩ := h
    have hrow := (observeRecord_ok hfirst).2.2 id
    have ih' := ih hrest fun r' hr' => hbytes r' (List.mem_cons_of_mem r hr')
    rw [ih', hrow]
    by_cases hid : r.connectionID = id
    · have hmem : ∃ r' ∈ r :: records, r'.connectionID = id := ⟨r, List.mem_cons_self, hid⟩
      rw [if_pos (c := id = r.connectionID) hid.symm, if_pos hmem]
      have hr : observedRow r (t.getConnectionTrafficState id) =
          observedRow ⟨id, bytes⟩ (t.getConnectionTrafficState id) := by
        simp only [observedRow, delta, hbytes r List.mem_cons_self hid]
      rw [hr]
      split
      · exact observedRow_observedRow _ _ _ rfl
      · rfl
    · rw [if_neg (Ne.symm hid)]
      simp only [List.mem_cons, exists_eq_or_imp, hid, false_or]

theorem foldlM_observeRecord_error (h : records.foldlM observeRecord t = .error e) :
    e = errSnapshot ∨ e = errOverflow := by
  induction records generalizing t with
  | nil => cases h
  | cons r records ih =>
    rw [List.foldlM_cons] at h
    cases hrecord : observeRecord t r with
    | error e' =>
      rw [hrecord] at h
      cases h
      exact observeRecord_error hrecord
    | ok t₁ =>
      rw [hrecord] at h
      exact ih h

theorem observeTraffic_ok (h : (observeTraffic records t).2 = none) :
    records.foldlM observeRecord t = .ok (observeTraffic records t).1 := by
  rw [observeTraffic] at h ⊢
  split
  · rename_i hfail
    rw [hfail] at h
    cases h
  · rename_i hok
    exact hok

/-- The counts of a record would be over the range of the columns. -/
def Overflows (records : List UsageRecord) (t : TrafficStates) : Prop :=
  ∃ before record after t₁, records = before ++ record :: after ∧
    before.foldlM observeRecord t = .ok t₁ ∧
    ∃ d, maxInt64 < (t₁.getConnectionTrafficState record.connectionID).unacknowledged.get d +
      (delta record (t₁.getConnectionTrafficState record.connectionID)).get d

/-- A snapshot with a record that cannot be accepted is refused as a whole. -/
theorem observeTraffic_refused (h : (∃ r ∈ records, r.Invalid) ∨ Overflows records t) :
    observeTraffic records t = (t, some errSnapshot) ∨
      observeTraffic records t = (t, some errOverflow) := by
  have hfail : ∀ t', records.foldlM observeRecord t ≠ .ok t' := by
    intro t' hok
    rcases h with ⟨r, hr, hinvalid⟩ | ⟨before, r, after, t₁, rfl, hbefore, d, hover⟩
    · obtain ⟨before, after, rfl⟩ := List.append_of_mem hr
      rw [List.foldlM_append, Except.bind_eq_ok] at hok
      obtain ⟨t₁, -, hok⟩ := hok
      rw [List.foldlM_cons, Except.bind_eq_ok] at hok
      obtain ⟨t₂, hrecord, -⟩ := hok
      exact (observeRecord_ok hrecord).1 hinvalid
    · rw [List.foldlM_append, hbefore] at hok
      change List.foldlM observeRecord t₁ (r :: after) = .ok t' at hok
      rw [List.foldlM_cons, Except.bind_eq_ok] at hok
      obtain ⟨t₂, hrecord, -⟩ := hok
      exact absurd ((observeRecord_ok hrecord).2.1 d) (not_le.2 hover)
  cases hrun : records.foldlM observeRecord t with
  | ok t' => exact absurd hrun (hfail t')
  | error e =>
    rw [observeTraffic, hrun]
    rcases foldlM_observeRecord_error hrun with rfl | rfl
    · exact .inl rfl
    · exact .inr rfl

end Observe

/-! ## Requests leave what was observed -/

section Requests

variable {t t' : TrafficStates}

abbrev SameObserved (t t' : TrafficStates) (id : String) : Prop :=
  (t'.getConnectionTrafficState id).observed = (t.getConnectionTrafficState id).observed

variable (id : String)

theorem observed_freeze {record : UsageRecord} (h : freeze requestID t record = .ok t') :
    SameObserved t t' id := by
  obtain ⟨-, h⟩ := Except.guard_eq_ok.1 h
  cases h
  refine TrafficStates.get_update_column (·.observed) ?_ id
  intro r
  rfl

theorem observed_acknowledgeRow {ack : List UsageRecord} {state : ConnectionTrafficState}
    (h : acknowledgeRow requestID ack t state = .ok t') : SameObserved t t' id := by
  rw [acknowledgeRow] at h
  split at h
  · cases h
  · split_ifs at h
    cases h
    refine TrafficStates.get_update_column (·.observed) ?_ id
    intro r
    rfl

theorem foldlM_same {α γ : Type} {step : TrafficStates → α → Except String TrafficStates}
    {view : TrafficStates → γ} (hstep : ∀ {t t' a}, step t a = .ok t' → view t' = view t)
    {as : List α} (h : as.foldlM step t = .ok t') : view t' = view t := by
  induction as generalizing t with
  | nil =>
    cases h
    rfl
  | cons a as ih =>
    rw [List.foldlM_cons, Except.bind_eq_ok] at h
    obtain ⟨t₁, hfirst, hrest⟩ := h
    exact (ih hrest).trans (hstep hfirst)

theorem observed_prepareUsageRequest {requestID nodeID : String} {limit : ℤ}
    {batch : Option UsageBatch}
    (h : prepareUsageRequest requestID nodeID limit t = .ok (batch, t')) :
    SameObserved t t' id := by
  rw [prepareUsageRequest] at h
  split at h
  · cases h
  dsimp only at h
  split at h
  · cases h
    rfl
  · rw [Except.bind_eq_ok] at h
    obtain ⟨t₁, hfreeze, h⟩ := h
    cases h
    exact foldlM_same (observed_freeze id) hfreeze

theorem observed_acknowledgeUsage (h : acknowledgeUsage requestID records t = .ok t') :
    SameObserved t t' id := by
  rw [acknowledgeUsage, Except.bind_eq_ok] at h
  obtain ⟨-, -, h⟩ := h
  dsimp only at h
  split at h
  · cases h
    rfl
  split at h
  · cases h
  · exact foldlM_same (observed_acknowledgeRow id) h

end Requests

/-! ## Counters that grow and are reset -/

abbrev Line : Type := String × Direction

/-- What really passed on a line. -/
structure Meter where
  /-- The bytes since the last observation. -/
  since : ℕ
  /-- Those of them before the last reset, if there was a reset since the last observation. -/
  beforeReset : Option ℕ
  /-- The bytes up to the last observation. -/
  real : ℕ
  /-- Those of them between the last observation before a reset and the reset. -/
  lost : ℕ
  /-- What the observations have added to the unacknowledged bytes. -/
  recorded : ℤ
  deriving DecidableEq

namespace Meter

def start : Meter := ⟨0, none, 0, 0, 0⟩

def grow (n : ℕ) (m : Meter) : Meter := { m with since := m.since + n }

def reset (m : Meter) : Meter := { m with beforeReset := some m.since }

def observe (added : ℤ) (m : Meter) : Meter where
  since := 0
  beforeReset := none
  real := m.real + m.since
  lost := m.lost + m.beforeReset.getD 0
  recorded := m.recorded + added

end Meter

/-- The table with the counters of the VPN runtime. -/
structure Metered where
  traffic : TrafficStates
  counter : Line → ℕ
  meter : Line → Meter

def Metered.start : Metered := ⟨.empty, fun _ => 0, fun _ => .start⟩

inductive MeterEvent where
  | grow (line : Line) (n : ℕ)
  | reset (line : Line)
  | observe (records : List UsageRecord)
  | prepare (requestID nodeID : String) (limit : ℤ)
  | acknowledge (requestID : String) (records : List UsageRecord)
  deriving DecidableEq

variable {s : Metered} {R : ℤ → ℤ → Prop} {counter : ℕ} {m : Meter} {es : List MeterEvent}

namespace Metered

def reading (s : Metered) (id : String) : Bytes := ⟨s.counter (id, .rx), s.counter (id, .tx)⟩

/-- The valid records of a snapshot are those of the counters. -/
def Genuine (s : Metered) (records : List UsageRecord) : Prop :=
  ∀ r ∈ records, r.Invalid ∨ r.bytes = s.reading r.connectionID

instance (s : Metered) (records : List UsageRecord) : Decidable (s.Genuine records) :=
  inferInstanceAs (Decidable (∀ r ∈ records, _ ∨ _))

/-- A snapshot is an observation of the connections it lists, unless it is refused. -/
def observe (s : Metered) (records : List UsageRecord) : Metered :=
  match observeTraffic records s.traffic with
  | (t, some _) => { s with traffic := t }
  | (t, none) =>
    { s with
      traffic := t
      meter := fun line =>
        if ∃ r ∈ records, r.connectionID = line.1 then
          (s.meter line).observe
            ((t.getConnectionTrafficState line.1).unacknowledged.get line.2 -
              (s.traffic.getConnectionTrafficState line.1).unacknowledged.get line.2)
        else s.meter line }

def step (s : Metered) : MeterEvent → Option Metered
  | .grow line n => some { s with
      counter := Function.update s.counter line (s.counter line + n)
      meter := Function.update s.meter line ((s.meter line).grow n) }
  | .reset line => some { s with
      counter := Function.update s.counter line 0
      meter := Function.update s.meter line (s.meter line).reset }
  | .observe records => if s.Genuine records then some (s.observe records) else none
  | .prepare requestID nodeID limit =>
    match prepareUsageRequest requestID nodeID limit s.traffic with
    | .ok (_, t) => some { s with traffic := t }
    | .error _ => some s
  | .acknowledge requestID records =>
    match acknowledgeUsage requestID records s.traffic with
    | .ok t => some { s with traffic := t }
    | .error _ => some s

def observed (s : Metered) (line : Line) : ℤ :=
  (s.traffic.getConnectionTrafficState line.1).observed.get line.2

/-- The first observation after a reset is below the previous one, if there is one above zero. -/
def Below (s : Metered) : MeterEvent → Prop
  | .observe records => (observeTraffic records s.traffic).2 = none →
      ∀ r ∈ records, ∀ d ∈ [Direction.rx, .tx],
        (s.meter (r.connectionID, d)).beforeReset ≠ none →
          r.bytes.get d < s.observed (r.connectionID, d) ∨ s.observed (r.connectionID, d) = 0
  | _ => True

instance (s : Metered) (e : MeterEvent) : Decidable (s.Below e) := by
  apply MeterEvent.casesOn (motive := fun e => Decidable (s.Below e)) e <;> intros <;>
    dsimp only [Below] <;> infer_instance

theorem get_reading (s : Metered) (id : String) (d : Direction) :
    (s.reading id).get d = s.counter (id, d) := by
  cases d <;> rfl

/-- The counter shows what passed since the last reset, or since the last observation beyond what
was observed. -/
structure Fits (observed : ℤ) (counter : ℕ) (m : Meter) : Prop where
  nonneg : 0 ≤ observed
  grown : m.beforeReset = none → (counter : ℤ) = observed + m.since
  reset : ∀ b, m.beforeReset = some b → m.since = b + counter

theorem Fits.grow {observed : ℤ} (h : Fits observed counter m) (n : ℕ) :
    Fits observed (counter + n) (m.grow n) where
  nonneg := h.nonneg
  grown hb := by
    have := h.grown hb
    rw [Meter.grow]
    push_cast
    linarith
  reset b hb := by
    have hsince := h.reset b hb
    change m.since + n = b + (counter + n)
    omega

theorem Fits.reset_counter {observed : ℤ} (h : Fits observed counter m) :
    Fits observed 0 m.reset where
  nonneg := h.nonneg
  grown hb := by cases hb
  reset b hb := by
    cases hb
    rfl

theorem fits_observe (counter : ℕ) (m : Meter) (added : ℤ) :
    Fits counter counter (m.observe added) where
  nonneg := Int.natCast_nonneg counter
  grown _ := by simp [Meter.observe]
  reset b hb := by cases hb

/-- It records no more than what passed since the last reset, and all of it if the counter is below
what was observed. -/
theorem Fits.delta_le {observed : ℤ} (h : Fits observed counter m) :
    cumulativeDelta counter observed + m.beforeReset.getD 0 ≤ m.since := by
  have hnonneg := h.nonneg
  rw [cumulativeDelta]
  cases hb : m.beforeReset with
  | none =>
    have := h.grown hb
    rw [Option.getD_none]
    split <;> omega
  | some b =>
    have := h.reset b hb
    rw [Option.getD_some]
    split <;> omega

theorem Fits.delta_eq {observed : ℤ} (h : Fits observed counter m)
    (hbelow : m.beforeReset ≠ none → (counter : ℤ) < observed ∨ observed = 0) :
    cumulativeDelta counter observed + m.beforeReset.getD 0 = m.since := by
  have hnonneg := h.nonneg
  rw [cumulativeDelta]
  cases hb : m.beforeReset with
  | none =>
    have := h.grown hb
    rw [Option.getD_none, if_pos (by omega)]
    omega
  | some b =>
    have := h.reset b hb
    have hlow := hbelow (by rw [hb]; exact Option.some_ne_none b)
    rw [Option.getD_some]
    split <;> omega

/-- All lines fit, and their records are related to what passed by `R`. -/
structure Sound (R : ℤ → ℤ → Prop) (s : Metered) : Prop where
  fits : ∀ line, Fits (s.observed line) (s.counter line) (s.meter line)
  books : ∀ line, R ((s.meter line).recorded + (s.meter line).lost) (s.meter line).real

theorem sound_start (hR : R 0 0) : Sound R start where
  fits line := by
    have hzero : start.observed line = 0 := Bytes.get_zero line.2
    rw [hzero]
    exact ⟨le_refl 0, fun _ => rfl, fun b hb => by cases hb⟩
  books line := hR

theorem Sound.set_line (h : Sound R s) {line : Line} {n : ℕ} (hfits : Fits (s.observed line) n m)
    (hbooks : R (m.recorded + m.lost) m.real) :
    Sound R { s with
      counter := Function.update s.counter line n
      meter := Function.update s.meter line m } := by
  constructor <;> intro other <;> by_cases hline : other = line
  · subst hline
    simp only [Function.update_self]
    exact hfits
  · simp only [Function.update_of_ne hline]
    exact h.fits other
  · subst hline
    simp only [Function.update_self]
    exact hbooks
  · simp only [Function.update_of_ne hline]
    exact h.books other

theorem Sound.of_observed (h : Sound R s) {t : TrafficStates}
    (ht : ∀ id, SameObserved s.traffic t id) : Sound R { s with traffic := t } where
  fits line := by
    have heq : observed { s with traffic := t } line = s.observed line := by
      rw [observed, ht]
      rfl
    rw [heq]
    exact h.fits line
  books := h.books

section

variable (hgenuine : s.Genuine records) (hok : (observeTraffic records s.traffic).2 = none)

include hgenuine hok

theorem bytes_of_accepted {r : UsageRecord} (hr : r ∈ records) :
    r.bytes = s.reading r.connectionID := by
  refine (hgenuine r hr).resolve_left fun hinvalid => ?_
  rcases observeTraffic_refused (t := s.traffic) (.inl ⟨r, hr, hinvalid⟩) with h | h
  · rw [h] at hok
    cases hok
  · rw [h] at hok
    cases hok

/-- The lines that an accepted snapshot lists are observed. -/
theorem observe_line (line : Line) :
    (s.observe records).counter line = s.counter line ∧
    if ∃ r ∈ records, r.connectionID = line.1 then
      (s.observe records).observed line = s.counter line ∧
      (s.observe records).meter line =
        (s.meter line).observe (cumulativeDelta (s.counter line) (s.observed line))
    else (s.observe records).observed line = s.observed line ∧
      (s.observe records).meter line = s.meter line := by
  have hfold := observeTraffic_ok hok
  have hbytes : ∀ r ∈ records, r.connectionID = line.1 → r.bytes = s.reading line.1 := by
    intro r hr hid
    rw [bytes_of_accepted hgenuine hok hr, hid]
  have hrow := foldlM_observeRecord hfold hbytes
  rw [observe]
  generalize observeTraffic records s.traffic = result at hok hrow ⊢
  obtain ⟨t, e⟩ := result
  obtain rfl : e = none := hok
  refine ⟨rfl, ?_⟩
  dsimp only [observed]
  rw [hrow]
  split
  · refine ⟨get_reading s line.1 line.2, ?_⟩
    congr 1
    rw [observedRow, Bytes.get_add, add_sub_cancel_left, get_delta, get_reading]
  · exact ⟨rfl, rfl⟩

end

theorem observe_refused (h : (observeTraffic records s.traffic).2 = some e) :
    s.observe records = s := by
  have hsame : observeTraffic records s.traffic = (s.traffic, some e) := by
    rw [observeTraffic] at h ⊢
    split
    · rename_i hfail
      rw [hfail] at h
      rw [← h]
    · rename_i hok
      rw [hok] at h
      cases h
  rw [observe, hsame]

/-- One event, if what an observation records is related to what passed since the last one. -/
theorem Sound.step (hadd : ∀ {a b c d}, R a b → R c d → R (a + c) (b + d)) {s s' : Metered}
    {e : MeterEvent} (h : Sound R s)
    (hdelta : ∀ records, e = .observe records → (observeTraffic records s.traffic).2 = none →
      s.Genuine records → ∀ line, (∃ r ∈ records, r.connectionID = line.1) →
        R (cumulativeDelta (s.counter line) (s.observed line) +
          (s.meter line).beforeReset.getD 0) (s.meter line).since)
    (hstep : s.step e = some s') : Sound R s' := by
  cases e with
  | grow line n =>
    cases hstep
    exact h.set_line ((h.fits line).grow n) (h.books line)
  | reset line =>
    cases hstep
    exact h.set_line (h.fits line).reset_counter (h.books line)
  | observe records =>
    rw [Metered.step] at hstep
    split at hstep
    · rename_i hgenuine
      cases hstep
      cases hok : (observeTraffic records s.traffic).2 with
      | some e =>
        rw [observe_refused hok]
        exact h
      | none =>
        constructor
        · intro line
          obtain ⟨hcounter, hline⟩ := observe_line hgenuine hok line
          rw [hcounter]
          split at hline
          · rw [hline.1, hline.2]
            exact fits_observe _ _ _
          · rw [hline.1, hline.2]
            exact h.fits line
        · intro line
          obtain ⟨-, hline⟩ := observe_line hgenuine hok line
          split at hline
          · rename_i hlisted
            have hsum := hadd (h.books line) (hdelta records rfl hok hgenuine line hlisted)
            rw [hline.2, Meter.observe]
            push_cast
            rwa [add_add_add_comm] at hsum
          · rw [hline.2]
            exact h.books line
    · cases hstep
  | prepare requestID nodeID limit =>
    rw [Metered.step] at hstep
    split at hstep
    · rename_i hprepare
      cases hstep
      exact h.of_observed fun id => observed_prepareUsageRequest id hprepare
    · cases hstep
      exact h
  | acknowledge requestID records =>
    rw [Metered.step] at hstep
    split at hstep
    · rename_i hack
      cases hstep
      exact h.of_observed fun id => observed_acknowledgeUsage id hack
    · cases hstep
      exact h

theorem books_le (h : runs step start es = some s) : Sound (· ≤ ·) s := by
  refine runs_inv (I := Sound (· ≤ ·)) (M := fun _ _ => True) ?_
    (along_of_forall fun _ _ _ => trivial) h (sound_start (le_refl 0))
  intro s e s' hs _ hstep
  exact hs.step add_le_add (fun _ _ _ _ line _ => (hs.fits line).delta_le) hstep

theorem books_eq (hbelow : Along step Below start es) (h : runs step start es = some s) :
    Sound (· = ·) s := by
  refine runs_inv (I := Sound (· = ·)) ?_ hbelow h (sound_start rfl)
  intro s e s' hs hM hstep
  refine hs.step (fun h h' => congrArg₂ (· + ·) h h') ?_ hstep
  rintro records rfl hok hgenuine line ⟨r, hr, hid⟩
  refine (hs.fits line).delta_eq fun hreset => ?_
  have hlow := hM hok r hr line.2 (by cases line.2 <;> simp)
  rw [hid, bytes_of_accepted hgenuine hok hr, hid, get_reading] at hlow
  exact hlow hreset

end Metered

/-- What `ObserveTraffic` records of a line is never more than the real traffic up to the last
observation. It is that traffic without the part between the last observation before a reset and
the reset, if the first observation after each reset is below the previous one. A snapshot that
cannot be accepted changes nothing. -/
theorem observed_traffic (es : List MeterEvent) (s : Metered)
    (h : runs Metered.step .start es = some s) :
    (∀ line, (s.meter line).recorded ≤ (s.meter line).real) ∧
    (Along Metered.step Metered.Below .start es →
      ∀ line, (s.meter line).recorded = (s.meter line).real - (s.meter line).lost) ∧
    ∀ (t : TrafficStates) (records : List UsageRecord),
      (∃ r ∈ records, r.Invalid) ∨ Overflows records t →
        observeTraffic records t = (t, some errSnapshot) ∨
          observeTraffic records t = (t, some errOverflow) := by
  refine ⟨?_, ?_, fun t records hrefused => observeTraffic_refused hrefused⟩
  · intro line
    have := (Metered.books_le h).books line
    omega
  · intro hbelow line
    have := (Metered.books_eq hbelow h).books line
    omega

namespace MeterSample

def line : Line := ("c", .rx)

/-- Ten bytes are observed, three are lost with the counter, and four are observed afterwards. -/
def events : List MeterEvent :=
  [.grow line 10, .observe [⟨"c", ⟨10, 0⟩⟩], .grow line 3, .reset line, .grow line 4,
    .observe [⟨"c", ⟨4, 0⟩⟩], .grow line 5]

end MeterSample

open MeterSample in
theorem observed_traffic_reset :
    ∃ s, runs Metered.step .start events = some s ∧
      s.meter line = ⟨5, none, 17, 3, 14⟩ ∧
      (s.meter line).recorded = (s.meter line).real - (s.meter line).lost := by
  have hsome : (runs Metered.step .start events).isSome = true := by decide +kernel
  obtain ⟨s, hs⟩ := Option.isSome_iff_exists.1 hsome
  have hmeter : (runs Metered.step .start events).map (·.meter line) =
      some ⟨5, none, 17, 3, 14⟩ := by decide +kernel
  rw [hs] at hmeter
  have h := observed_traffic events s hs
  exact ⟨s, hs, Option.some.inj hmeter, h.2.1 (by decide +kernel) line⟩

end LazGate.AgentTraffic
