import LazGate.Lib.Table

/-!
# Usage records

The table `usage_records` with its two readings in `internal/server/storage/telemetry_sql.go`: the
list of the records in a range, which the dashboard adds up, and `NodeUsageSummary`, which the
database adds up for the page of a node.
-/

namespace LazGate.Usage

structure UsageRecord where
  requestID : String
  connectionID : String
  nodeInstanceID : String
  fromMS : ℤ
  toMS : ℤ
  txBytes : ℤ
  rxBytes : ℤ
  deriving DecidableEq

def UsageRecord.totalBytes (r : UsageRecord) : ℤ := r.txBytes + r.rxBytes

/-! ## The records in a range -/

/-- `order by from_ms, request_id, connection_id`. -/
def ByStart (a b : UsageRecord) : Prop :=
  a.fromMS < b.fromMS ∨ a.fromMS = b.fromMS ∧ (a.requestID < b.requestID ∨
    a.requestID = b.requestID ∧ a.connectionID ≤ b.connectionID)

instance : DecidableRel ByStart := fun _ _ => inferInstanceAs (Decidable (_ ∨ _ ∧ (_ ∨ _ ∧ _)))

def defaultLimit : ℤ := 200000

/-- The record ends after the beginning of the range and begins up to its end, which belongs to
it. -/
def inRange (fromMS toMS : ℤ) (r : UsageRecord) : Bool := fromMS ≤ r.toMS && r.fromMS ≤ toMS

def listUsageRecordsRange (fromMS toMS limit : ℤ) (records : List UsageRecord) :
    List UsageRecord :=
  let limit := if limit ≤ 0 then defaultLimit else limit
  let rows := if 0 < fromMS ∨ 0 < toMS then records.filter (inRange fromMS toMS) else records
  (rows.insertionSort ByStart).take limit.toNat

section Range

variable {toMS limit : ℤ} {records : List UsageRecord} (fromMS : ℤ)

theorem mem_listUsageRecordsRange {r : UsageRecord} (hto : 0 < toMS)
    (h : r ∈ listUsageRecordsRange fromMS toMS limit records) :
    r ∈ records ∧ inRange fromMS toMS r = true := by
  have hrange : 0 < fromMS ∨ 0 < toMS := .inr hto
  simp only [listUsageRecordsRange, if_pos hrange] at h
  have hmem := (List.perm_insertionSort _ _).mem_iff.1 (List.mem_of_mem_take h)
  exact List.mem_filter.1 hmem

theorem perm_listUsageRecordsRange (hto : 0 < toMS) (hlimit : 0 < limit)
    (hlen : (records.length : ℤ) ≤ limit) :
    (listUsageRecordsRange fromMS toMS limit records).Perm
      (records.filter (inRange fromMS toMS)) := by
  have hrange : 0 < fromMS ∨ 0 < toMS := .inr hto
  simp only [listUsageRecordsRange, if_pos hrange, if_neg (not_le.2 hlimit)]
  rw [List.take_of_length_le]
  · exact List.perm_insertionSort _ _
  · rw [List.length_insertionSort]
    have hle := List.length_filter_le (inRange fromMS toMS) records
    omega

end Range

/-! ## The page of a node -/

/-- What the summary shows of the connections and of their accounts. -/
structure Names where
  accounts : List (String × String × String)
  connections : List (String × String × String)
  deriving DecidableEq

/-- `coalesce(c.name, '')`, of a connection `(id, account id, name)`. -/
def Names.connectionName (names : Names) (id : String) : String :=
  ((names.connections.find? fun c => c.1 == id).map fun c => c.2.2).getD ""

/-- `coalesce(nullif(a.display_name, ''), a.username, '')`, of an account
`(id, display name, username)`. -/
def Names.accountName (names : Names) (id : String) : String :=
  (((names.connections.find? fun c => c.1 == id).bind fun c =>
    names.accounts.find? fun a => a.1 == c.2.1).map fun a =>
      if a.2.1 = "" then a.2.2 else a.2.1).getD ""

structure NodeConnectionUsage where
  connectionID : String
  accountName : String
  connectionName : String
  fromMS : ℤ
  toMS : ℤ
  txBytes : ℤ
  rxBytes : ℤ
  deriving DecidableEq

structure NodeUsageSummary where
  items : List NodeConnectionUsage
  txBytes : ℤ
  rxBytes : ℤ
  deriving DecidableEq

/-- The records that count for the period. Its end does not belong to it. -/
def inPeriod (fromMS toMS : ℤ) (r : UsageRecord) : Bool := fromMS ≤ r.toMS && r.fromMS < toMS

/-- A row of `grouped`. -/
structure Group where
  connectionID : String
  firstMS : ℤ
  lastMS : ℤ
  tx : ℤ
  rx : ℤ
  periodTX : ℤ
  periodRX : ℤ
  deriving DecidableEq

def periodBytes (fromMS toMS : ℤ) (bytes : UsageRecord → ℤ) (r : UsageRecord) : ℤ :=
  if inPeriod fromMS toMS r then bytes r else 0

def group (fromMS toMS : ℤ) (connectionID : String) (rows : List UsageRecord) : Group where
  connectionID := connectionID
  firstMS := (rows.map (·.fromMS)).min?.getD 0
  lastMS := (rows.map (·.toMS)).max?.getD 0
  tx := (rows.map (·.txBytes)).sum
  rx := (rows.map (·.rxBytes)).sum
  periodTX := (rows.map (periodBytes fromMS toMS (·.txBytes))).sum
  periodRX := (rows.map (periodBytes fromMS toMS (·.rxBytes))).sum

/-- `group by connection_id`. -/
def grouped (fromMS toMS : ℤ) (rows : List UsageRecord) : List Group :=
  (rows.map (·.connectionID)).dedup.map fun id =>
    group fromMS toMS id (rows.filter fun r => r.connectionID == id)

/-- `order by g.last_ms desc, g.connection_id`. -/
def ByLast (a b : Group) : Prop :=
  b.lastMS < a.lastMS ∨ b.lastMS = a.lastMS ∧ a.connectionID ≤ b.connectionID

instance : DecidableRel ByLast := fun _ _ => inferInstanceAs (Decidable (_ ∨ _ ∧ _))

/-- `NodeUsageSummary`. The sums over the groups stand in each row, so that they are zero where
there is none. -/
def nodeUsageSummary (names : Names) (instanceID : String) (fromMS toMS : ℤ) (limit : ℕ)
    (records : List UsageRecord) : NodeUsageSummary :=
  let groups := grouped fromMS toMS (records.filter fun r => r.nodeInstanceID == instanceID)
  let listed := (groups.insertionSort ByLast).take limit
  { items := listed.map fun g => ⟨g.connectionID, names.accountName g.connectionID,
      names.connectionName g.connectionID, g.firstMS, g.lastMS, g.tx, g.rx⟩
    txBytes := if listed = [] then 0 else (groups.map (·.periodTX)).sum
    rxBytes := if listed = [] then 0 else (groups.map (·.periodRX)).sum }

section Summary

variable (fromMS toMS : ℤ) {rows : List UsageRecord}

theorem sum_grouped {column : Group → ℤ} {bytes : UsageRecord → ℤ}
    (h : ∀ id rows, column (group fromMS toMS id rows) = (rows.map bytes).sum) :
    ((grouped fromMS toMS rows).map column).sum = (rows.map bytes).sum := by
  rw [grouped, List.map_map]
  simp only [Function.comp_def, h]
  exact Table.sum_groups (·.connectionID) bytes rows

theorem grouped_eq_nil : grouped fromMS toMS rows = [] ↔ rows = [] := by
  rw [grouped, List.map_eq_nil_iff, List.dedup_eq_nil, List.map_eq_nil_iff]

/-- The totals of the period are those of all records of the instance. -/
theorem nodeUsageSummary_totals (names : Names) (instanceID : String) {limit : ℕ}
    (hlimit : 1 ≤ limit) (records : List UsageRecord) :
    (nodeUsageSummary names instanceID fromMS toMS limit records).txBytes =
      ((records.filter fun r => r.nodeInstanceID == instanceID).map
        (periodBytes fromMS toMS (·.txBytes))).sum ∧
    (nodeUsageSummary names instanceID fromMS toMS limit records).rxBytes =
      ((records.filter fun r => r.nodeInstanceID == instanceID).map
        (periodBytes fromMS toMS (·.rxBytes))).sum := by
  generalize hrows : records.filter (fun r => r.nodeInstanceID == instanceID) = rows
  have hempty : (List.insertionSort ByLast (grouped fromMS toMS rows)).take limit = [] →
      rows = [] := by
    intro h
    rw [← grouped_eq_nil fromMS toMS]
    have hlen := congrArg List.length h
    rw [List.length_take, List.length_insertionSort, List.length_nil] at hlen
    exact List.length_eq_zero_iff.1 (by omega)
  simp only [nodeUsageSummary, hrows]
  constructor
  · split
    · rw [hempty ‹_›]
      rfl
    · exact sum_grouped fromMS toMS fun _ _ => rfl
  · split
    · rw [hempty ‹_›]
      rfl
    · exact sum_grouped fromMS toMS fun _ _ => rfl

end Summary

end LazGate.Usage
