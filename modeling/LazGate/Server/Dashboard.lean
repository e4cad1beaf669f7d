import LazGate.Server.Timestamps
import LazGate.Server.Usage

/-!
# The dashboard

`Build` of `internal/server/dashboard/dashboard.go`: the range of a request, the traffic of the
range by node and in buckets of time, and the offline time of each node.
-/

namespace LazGate.Dashboard

open Calendar Decimal Usage

/-! ## The range -/

/-- `time.Time.UnixMilli`. -/
def unixMilli (t : Time) : ℤ := t / 1000000

def hourMS : ℤ := 3600000

def dayMS : ℤ := 24 * hourMS

structure Request where
  fromMS : ℤ
  toMS : ℤ
  bucket : String
  deriving DecidableEq

def maxRange : ℤ := 366 * dayMS

def normalizeRange (req : Request) (now : Time) : ℤ × ℤ :=
  let toMS := if req.toMS ≤ 0 then unixMilli now else req.toMS
  let fromMS := if req.fromMS ≤ 0 then toMS - dayMS else req.fromMS
  let fromMS := if toMS ≤ fromMS then toMS - dayMS else fromMS
  let fromMS := if maxRange < toMS - fromMS then toMS - maxRange else fromMS
  (fromMS, toMS)

/-! ## The buckets -/

inductive BucketKind where
  | hour
  | day
  | week
  deriving DecidableEq

def bucketKind (raw : String) (durationMS : ℤ) : BucketKind :=
  if raw = "hour" then .hour
  else if raw = "day" then .day
  else if raw = "week" then .week
  else if durationMS ≤ 2 * dayMS then .hour
  else if durationMS ≤ 45 * dayMS then .day
  else .week

def bucketSize : BucketKind → ℤ
  | .hour => hourMS
  | .day => dayMS
  | .week => 7 * dayMS

/-- From the zero time to the Unix epoch. -/
def epochMS : ℤ := 62135596800000

/-- `time.UnixMilli(t).UTC().Truncate(size).UnixMilli()`: whole multiples of the size are counted
from the zero time, the first of January of the year 1. -/
def truncate (size t : ℤ) : ℤ := t - (t + epochMS) % size

def monthNames : List String :=
  ["Jan", "Feb", "Mar", "Apr", "May", "Jun", "Jul", "Aug", "Sep", "Oct", "Nov", "Dec"]

def bucketLabel (kind : BucketKind) (startMS : ℤ) : String :=
  let seconds := (startMS + epochMS) / 1000
  let day := date (seconds / 86400)
  match kind with
  | .hour => String.ofList (fields [([], 2), ([':'], 2)]
      [(seconds % 86400 / 3600).toNat, (seconds % 3600 / 60).toNat])
  | .day => monthNames.getD (day.month - 1) "" ++ String.ofList (fields [([' '], 2)] [day.day])
  | .week => String.ofList (fields [([], 4), (['-'], 2), (['-'], 2)]
      [day.year.toNat, day.month, day.day])

structure TrafficBucket where
  bucketStartMS : ℤ
  bucketLabel : String
  rxBytes : ℤ
  txBytes : ℤ
  totalBytes : ℤ
  deriving DecidableEq

/-- The starts `t`, `t + size`, … before the end of the range, at most `rounds` of them. -/
def bucketStarts (size toMS : ℤ) : ℕ → ℤ → List ℤ
  | 0, _ => []
  | rounds + 1, t => if t < toMS then t :: bucketStarts size toMS rounds (t + size) else []

/-- The bucket with the key is given the record. The index has one position for a key. -/
def addRecord (key : ℤ) (r : UsageRecord) : List TrafficBucket → List TrafficBucket
  | [] => []
  | b :: bs =>
    if b.bucketStartMS = key then
      { b with
        rxBytes := b.rxBytes + r.rxBytes
        txBytes := b.txBytes + r.txBytes
        totalBytes := b.totalBytes + r.totalBytes } :: bs
    else b :: addRecord key r bs

def bucketKey (size fromMS : ℤ) (r : UsageRecord) : ℤ := truncate size (max fromMS r.fromMS)

def firstStart (size fromMS : ℤ) : ℤ :=
  let start := truncate size fromMS
  if fromMS < start then start - size else start

/-- The loop of the buckets ends by itself within these rounds. -/
def bucketRounds (size fromMS toMS : ℤ) : ℕ := ((toMS - firstStart size fromMS) / size + 1).toNat

def trafficBuckets (records : List UsageRecord) (fromMS toMS : ℤ) (kind : BucketKind) :
    List TrafficBucket :=
  let size := bucketSize kind
  let starts := bucketStarts size toMS (bucketRounds size fromMS toMS) (firstStart size fromMS)
  let buckets := starts.map fun start => ⟨start, bucketLabel kind start, 0, 0, 0⟩
  records.foldl (fun buckets r => addRecord (bucketKey size fromMS r) r buckets) buckets

/-! ## The traffic -/

structure TrafficAgg where
  rx : ℤ
  tx : ℤ
  total : ℤ
  deriving DecidableEq

def TrafficAgg.zero : TrafficAgg := ⟨0, 0, 0⟩

def TrafficAgg.add (a : TrafficAgg) (r : UsageRecord) : TrafficAgg :=
  ⟨a.rx + r.rxBytes, a.tx + r.txBytes, a.total + r.totalBytes⟩

structure Traffic where
  total : TrafficAgg
  byConnection : String → TrafficAgg
  byNode : String → TrafficAgg

def Traffic.empty : Traffic := ⟨.zero, fun _ => .zero, fun _ => .zero⟩

def Traffic.add (instanceToNode : String → String) (t : Traffic) (r : UsageRecord) : Traffic where
  total := t.total.add r
  byConnection := Function.update t.byConnection r.connectionID
    ((t.byConnection r.connectionID).add r)
  byNode := Function.update t.byNode (instanceToNode r.nodeInstanceID)
    ((t.byNode (instanceToNode r.nodeInstanceID)).add r)

/-- The loop of `Build` over the records. -/
def traffic (instanceToNode : String → String) (usage : List UsageRecord) : Traffic :=
  usage.foldl (Traffic.add instanceToNode) .empty

/-! ## The nodes -/

structure Node where
  id : String
  name : String
  createdAt : Option Time
  deriving DecidableEq

structure NodeInstance where
  id : String
  nodeID : String
  status : Status
  deriving DecidableEq

structure NodeRuntime where
  agentInstallationID : String
  nodeInstanceID : String
  agentStatus : String
  lastHeartbeatAt : Option Time
  serviceStatus : String
  updatedAt : Time
  deriving DecidableEq

/-- The runtime that a map gives for an instance without one. -/
def NodeRuntime.zero : NodeRuntime := ⟨"", "", "", none, "", 0⟩

structure NodeStatusInterval where
  id : String
  agentInstallationID : String
  nodeInstanceID : String
  status : String
  startedAtMS : ℤ
  /-- Zero for an interval that is not closed. -/
  endedAtMS : ℤ
  deriving DecidableEq

/-- `instanceToNode` of `nodeInstanceMaps`; a map gives the empty text for a key it has not. -/
def instanceToNode (items : List NodeInstance) : String → String :=
  items.foldl (fun m item => Function.update m item.id item.nodeID) fun _ => ""

/-- `active` of `nodeInstanceMaps`. -/
def activeInstance (items : List NodeInstance) : String → String :=
  items.foldl (fun m item => if item.status = .active then Function.update m item.nodeID item.id
    else m) fun _ => ""

def mapByInstanceRuntime (items : List NodeRuntime) : String → NodeRuntime :=
  items.foldl (fun m item => Function.update m item.nodeInstanceID item) fun _ => .zero

def valueOr (value fallback : String) : String := if value = "" then fallback else value

def currentNodeStatus (runtime : NodeRuntime) (now freshness : Time) : String :=
  match runtime.lastHeartbeatAt with
  | none => "offline"
  | some last =>
    if runtime.agentInstallationID = "" then "offline"
    else if freshness < now - last then "offline"
    else if runtime.agentStatus ≠ "online" then valueOr runtime.agentStatus "offline"
    else if runtime.serviceStatus ≠ "" ∧ runtime.serviceStatus ≠ "active" then "degraded"
    else "online"

def intersectDuration (fromMS toMS a b : ℤ) : ℤ :=
  let start := max fromMS a
  let stop := min toMS b
  if stop ≤ start then 0 else stop - start

def effectiveNodeFromMS (node : Node) (fromMS toMS : ℤ) : ℤ :=
  match node.createdAt with
  | none => fromMS
  | some created =>
    if toMS < unixMilli created then toMS
    else if fromMS < unixMilli created then unixMilli created
    else fromMS

def offlineInInterval (fromMS toMS : ℤ) (item : NodeStatusInterval) : ℤ :=
  let stop := if item.endedAtMS = 0 then toMS else item.endedAtMS
  if item.status ≠ "online" then intersectDuration fromMS toMS item.startedAtMS stop else 0

def offlineDuration (node : Node) (intervals : List NodeStatusInterval) (runtime : NodeRuntime)
    (fromMS toMS : ℤ) (now freshness : Time) : ℤ :=
  if runtime.agentInstallationID = "" ∨ (runtime.lastHeartbeatAt = none ∧ intervals = []) then
    match node.createdAt with
    | none => 0
    | some created => intersectDuration fromMS toMS (unixMilli created) toMS
  else
    let offline := (intervals.map (offlineInInterval fromMS toMS)).sum
    let stale := match runtime.lastHeartbeatAt with
      | none => 0
      | some last =>
        if currentNodeStatus runtime now freshness ≠ "online" then
          intersectDuration fromMS toMS (unixMilli (last + freshness)) toMS
        else 0
    min (offline + stale) (toMS - fromMS)

/-! ## `Build` -/

/-- The tables that the dashboard reads, in the order in which the store lists them. -/
structure Store where
  nodes : List Node
  instances : List NodeInstance
  runtimes : List NodeRuntime
  intervals : List NodeStatusInterval
  records : List UsageRecord
  deriving DecidableEq

def defaultRecordLimit : ℤ := 200000

def defaultFreshness : Time := 90 * second

namespace Store

variable (S : Store)

def usage (fromMS toMS : ℤ) : List UsageRecord :=
  listUsageRecordsRange fromMS toMS defaultRecordLimit S.records

def traffic (fromMS toMS : ℤ) : Traffic :=
  Dashboard.traffic (instanceToNode S.instances) (S.usage fromMS toMS)

def listNodeStatusIntervals (fromMS toMS : ℤ) : List NodeStatusInterval :=
  S.intervals.filter fun item => item.startedAtMS ≤ toMS ∧
    (item.endedAtMS = 0 ∨ fromMS ≤ item.endedAtMS)

end Store

structure NodeRow where
  nodeID : String
  name : String
  status : String
  serviceStatus : String
  trafficBytes : ℤ
  offlineDurationMS : ℤ
  lastHeartbeatMS : ℤ
  deriving DecidableEq

structure Summary where
  onlineNodes : ℕ
  totalNodes : ℕ
  totalTrafficBytes : ℤ
  offlineDurationMS : ℤ
  deriving DecidableEq

structure Response where
  fromMS : ℤ
  toMS : ℤ
  bucket : BucketKind
  summary : Summary
  trafficOverTime : List TrafficBucket
  nodes : List NodeRow
  deriving DecidableEq

def nodeRow (S : Store) (freshness now : Time) (fromMS toMS : ℤ) (node : Node) : NodeRow :=
  let instanceID := activeInstance S.instances node.id
  let rt := mapByInstanceRuntime S.runtimes instanceID
  let intervals := (S.listNodeStatusIntervals fromMS toMS).filter fun item =>
    item.nodeInstanceID = instanceID
  let effectiveFromMS := effectiveNodeFromMS node fromMS toMS
  let effectiveDuration := max 0 (toMS - effectiveFromMS)
  { nodeID := node.id
    name := node.name
    status := currentNodeStatus rt now freshness
    serviceStatus := valueOr rt.serviceStatus "unknown"
    trafficBytes := ((S.traffic fromMS toMS).byNode node.id).total
    offlineDurationMS := min
      (offlineDuration node intervals rt effectiveFromMS toMS now freshness) effectiveDuration
    lastHeartbeatMS := (rt.lastHeartbeatAt.map unixMilli).getD 0 }

/-- `Build`, up to the order of the rows and to what it lists of users and connections. -/
def build (S : Store) (freshness : Time) (req : Request) (now : Time) : Response :=
  let fromMS := (normalizeRange req now).1
  let toMS := (normalizeRange req now).2
  let kind := bucketKind req.bucket (toMS - fromMS)
  let rows := S.nodes.map (nodeRow S freshness now fromMS toMS)
  { fromMS := fromMS
    toMS := toMS
    bucket := kind
    summary :=
      { onlineNodes := rows.countP fun row => row.status == "online"
        totalNodes := S.nodes.length
        totalTrafficBytes := (S.traffic fromMS toMS).total.total
        offlineDurationMS := (rows.map (·.offlineDurationMS)).sum }
    trafficOverTime := trafficBuckets (S.usage fromMS toMS) fromMS toMS kind
    nodes := rows }

/-! ## The range of a request -/

variable (req : Request)

theorem normalizeRange_lt (now : Time) :
    (normalizeRange req now).1 < (normalizeRange req now).2 := by
  have hday : dayMS = 86400000 := rfl
  have hmax : maxRange = 31622400000 := rfl
  simp only [normalizeRange]
  split_ifs <;> omega

theorem normalizeRange_pos {now : Time} (hnow : 0 < unixMilli now) :
    0 < (normalizeRange req now).2 := by
  simp only [normalizeRange]
  split
  · exact hnow
  · omega

/-! ## The starts of the buckets -/

theorem bucketSize_pos (kind : BucketKind) : 0 < bucketSize kind := by
  cases kind <;> decide

section Starts

variable {size t : ℤ}

theorem truncate_le (hsize : 0 < size) (t : ℤ) : truncate size t ≤ t := by
  have := Int.emod_nonneg (t + epochMS) hsize.ne'
  rw [truncate]
  omega

theorem lt_truncate_add (hsize : 0 < size) (t : ℤ) : t < truncate size t + size := by
  have := Int.emod_lt_of_pos (t + epochMS) hsize
  rw [truncate]
  omega

theorem dvd_truncate (size t : ℤ) : size ∣ truncate size t + epochMS := by
  have h := Int.dvd_self_sub_emod (x := t + epochMS) (m := size)
  rwa [show t + epochMS - (t + epochMS) % size = truncate size t + epochMS by
    rw [truncate]; ring] at h

theorem dvd_truncate_sub (size t t' : ℤ) : size ∣ truncate size t - truncate size t' := by
  have := Int.dvd_sub (dvd_truncate size t) (dvd_truncate size t')
  rwa [add_sub_add_right_eq_sub] at this

section

variable (hsize : 0 < size)

include hsize

theorem truncate_mono {t t' : ℤ} (h : t ≤ t') :
    truncate size t ≤ truncate size t' := by
  by_contra hlt
  have hsize' := Int.le_of_dvd (by omega) (dvd_truncate_sub size t t')
  have := truncate_le hsize t
  have := lt_truncate_add hsize t'
  omega

theorem firstStart_eq (fromMS : ℤ) :
    firstStart size fromMS = truncate size fromMS := by
  have hle := truncate_le hsize fromMS
  simp only [firstStart, if_neg (not_lt.2 hle)]

/-- The loop runs through the multiples of the size up to the end of the range. -/
theorem mem_bucketStarts {toMS k : ℤ} {rounds : ℕ} (hrounds : toMS - t ≤ rounds * size) :
    k ∈ bucketStarts size toMS rounds t ↔ t ≤ k ∧ k < toMS ∧ size ∣ k - t := by
  induction rounds generalizing t with
  | zero =>
    simp only [bucketStarts, List.not_mem_nil, false_iff]
    rintro ⟨hle, hlt, -⟩
    simp only [Nat.cast_zero, zero_mul] at hrounds
    omega
  | succ rounds ih =>
    have hrest : toMS - (t + size) ≤ rounds * size := by
      rw [Nat.cast_succ, add_mul, one_mul] at hrounds
      omega
    rw [bucketStarts]
    split
    · rename_i hlt
      rw [List.mem_cons, ih hrest]
      constructor
      · rintro (rfl | ⟨hle, hk, hdvd⟩)
        · exact ⟨le_refl _, hlt, by simp⟩
        · refine ⟨by omega, hk, ?_⟩
          have := dvd_add hdvd (dvd_refl size)
          rwa [show k - (t + size) + size = k - t by ring] at this
      · rintro ⟨hle, hk, hdvd⟩
        rcases hle.lt_or_eq with hlt' | rfl
        · have hstep := Int.le_of_dvd (by omega) hdvd
          refine .inr ⟨by omega, hk, ?_⟩
          have := dvd_sub hdvd (dvd_refl size)
          rwa [show k - t - size = k - (t + size) by ring] at this
        · exact .inl rfl
    · simp only [List.not_mem_nil, false_iff]
      rintro ⟨hle, hlt, -⟩
      omega

theorem le_of_mem_bucketStarts {toMS k : ℤ} {rounds : ℕ} (h : k ∈ bucketStarts size toMS rounds t) :
    t ≤ k := by
  induction rounds generalizing t with
  | zero => cases h
  | succ rounds ih =>
    rw [bucketStarts] at h
    split at h
    · rcases List.mem_cons.1 h with rfl | h
      · exact le_refl _
      · have := ih h
        omega
    · cases h

theorem pairwise_bucketStarts (toMS : ℤ) (rounds : ℕ) (t : ℤ) :
    (bucketStarts size toMS rounds t).Pairwise (· < ·) := by
  induction rounds generalizing t with
  | zero => exact List.Pairwise.nil
  | succ rounds ih =>
    rw [bucketStarts]
    split
    · refine List.Pairwise.cons ?_ (ih _)
      intro k hk
      have := le_of_mem_bucketStarts hsize hk
      omega
    · exact List.Pairwise.nil

theorem bucketRounds_enough (fromMS toMS : ℤ) :
    toMS - firstStart size fromMS ≤ bucketRounds size fromMS toMS * size := by
  rw [bucketRounds]
  generalize toMS - firstStart size fromMS = d
  have hdiv := Int.mul_ediv_add_emod d size
  have hmod := Int.emod_lt_of_pos d hsize
  have hle : d / size + 1 ≤ ((d / size + 1).toNat : ℤ) := Int.self_le_toNat _
  have hmul := mul_le_mul_of_nonneg_right hle hsize.le
  have hexp : (d / size + 1) * size = size * (d / size) + size := by ring
  rw [hexp] at hmul
  omega

end

end Starts

/-! ## What the buckets hold -/

variable {fromMS toMS : ℤ} {kind : BucketKind} {r : UsageRecord}

section Buckets

variable {column : TrafficBucket → ℤ} {bytes : UsageRecord → ℤ}

theorem starts_addRecord (key : ℤ) (r : UsageRecord) (bs : List TrafficBucket) :
    (addRecord key r bs).map (·.bucketStartMS) = bs.map (·.bucketStartMS) := by
  induction bs with
  | nil => rfl
  | cons b bs ih =>
    rw [addRecord]
    split
    · rfl
    · rw [List.map_cons, List.map_cons, ih]

structure Counts (column : TrafficBucket → ℤ) (bytes : UsageRecord → ℤ) : Prop where
  zero : ∀ start label, column ⟨start, label, 0, 0, 0⟩ = 0
  add : ∀ (b : TrafficBucket) (r : UsageRecord), column { b with
    rxBytes := b.rxBytes + r.rxBytes
    txBytes := b.txBytes + r.txBytes
    totalBytes := b.totalBytes + r.totalBytes } = column b + bytes r

theorem counts_rx : Counts (·.rxBytes) (·.rxBytes) := ⟨fun _ _ => rfl, fun _ _ => rfl⟩

theorem counts_tx : Counts (·.txBytes) (·.txBytes) := ⟨fun _ _ => rfl, fun _ _ => rfl⟩

theorem counts_total : Counts (·.totalBytes) (·.totalBytes) := ⟨fun _ _ => rfl, fun _ _ => rfl⟩

theorem sum_addRecord (h : Counts column bytes) (key : ℤ) (r : UsageRecord)
    (bs : List TrafficBucket) :
    ((addRecord key r bs).map column).sum =
      (bs.map column).sum + if key ∈ bs.map (·.bucketStartMS) then bytes r else 0 := by
  induction bs with
  | nil => simp [addRecord]
  | cons b bs ih =>
    rw [addRecord]
    by_cases hb : b.bucketStartMS = key
    · rw [if_pos hb, List.map_cons, List.sum_cons, h.add, List.map_cons, List.sum_cons,
        if_pos (by rw [List.map_cons, hb]; exact List.mem_cons_self)]
      ring
    · have hmem : key ∈ (b :: bs).map (·.bucketStartMS) ↔ key ∈ bs.map (·.bucketStartMS) := by
        rw [List.map_cons, List.mem_cons]
        exact or_iff_right (Ne.symm hb)
      rw [if_neg hb, List.map_cons, List.sum_cons, ih, List.map_cons, List.sum_cons]
      simp only [hmem]
      ring

/-- The loop over the records: those are added for whose key there is a bucket. -/
theorem sum_foldl_addRecord (h : Counts column bytes) (key : UsageRecord → ℤ)
    (records : List UsageRecord) (bs : List TrafficBucket) :
    ((records.foldl (fun bs r => addRecord (key r) r bs) bs).map column).sum =
      (bs.map column).sum +
        ((records.filter fun r => key r ∈ bs.map (·.bucketStartMS)).map bytes).sum ∧
    (records.foldl (fun bs r => addRecord (key r) r bs) bs).map (·.bucketStartMS) =
      bs.map (·.bucketStartMS) := by
  induction records generalizing bs with
  | nil => simp
  | cons r records ih =>
    obtain ⟨hsum, hstarts⟩ := ih (addRecord (key r) r bs)
    rw [starts_addRecord] at hsum hstarts
    refine ⟨?_, hstarts⟩
    rw [List.foldl_cons, hsum, sum_addRecord h, List.filter_cons]
    by_cases hkey : key r ∈ bs.map (·.bucketStartMS)
    · simp only [hkey, if_true, decide_true, List.map_cons, List.sum_cons]
      ring
    · simp only [hkey, if_false, decide_false, add_zero, Bool.false_eq_true]

/-- The starts of the buckets of a range. -/
abbrev startsOf (kind : BucketKind) (fromMS toMS : ℤ) : List ℤ :=
  bucketStarts (bucketSize kind) toMS (bucketRounds (bucketSize kind) fromMS toMS)
    (firstStart (bucketSize kind) fromMS)

theorem starts_trafficBuckets (records : List UsageRecord) (fromMS toMS : ℤ) (kind : BucketKind) :
    (trafficBuckets records fromMS toMS kind).map (·.bucketStartMS) =
      startsOf kind fromMS toMS := by
  have h := (sum_foldl_addRecord counts_rx (bucketKey (bucketSize kind) fromMS) records
    ((startsOf kind fromMS toMS).map fun start => ⟨start, bucketLabel kind start, 0, 0, 0⟩)).2
  rw [trafficBuckets, h, List.map_map]
  exact List.map_id _

/-- A record that begins up to the end of the range has a bucket, unless it begins at the end and
the end is the start of a bucket. -/
theorem bucketKey_mem (hlt : fromMS < toMS) (hr : r.fromMS ≤ toMS) :
    bucketKey (bucketSize kind) fromMS r ∈ startsOf kind fromMS toMS ↔
      ¬ (bucketSize kind ∣ toMS + epochMS ∧ r.fromMS = toMS) := by
  have hsize := bucketSize_pos kind
  rw [startsOf]
  generalize bucketSize kind = size at hsize ⊢
  rw [mem_bucketStarts hsize (bucketRounds_enough hsize fromMS toMS), firstStart_eq hsize,
    bucketKey]
  have hmono : truncate size fromMS ≤ truncate size (max fromMS r.fromMS) :=
    truncate_mono hsize (le_max_left _ _)
  have hle := truncate_le hsize (max fromMS r.fromMS)
  constructor
  · rintro ⟨-, hk, -⟩ ⟨haligned, heq⟩
    rw [max_eq_right (by omega), heq, truncate, Int.emod_eq_zero_of_dvd haligned] at hk
    omega
  · intro hnot
    refine ⟨hmono, ?_, dvd_truncate_sub _ _ _⟩
    by_contra hge
    have heq : max fromMS r.fromMS = toMS := by omega
    have hrto : r.fromMS = toMS := by omega
    refine hnot ⟨?_, hrto⟩
    have haligned := dvd_truncate size (max fromMS r.fromMS)
    rwa [show truncate size (max fromMS r.fromMS) = toMS by omega] at haligned

/-- The buckets add up to the records, but for those that begin at the end of the range when a
bucket would begin there. -/
theorem sum_trafficBuckets (h : Counts column bytes) {records : List UsageRecord}
    (hlt : fromMS < toMS) (hrecords : ∀ r ∈ records, r.fromMS ≤ toMS) :
    ((trafficBuckets records fromMS toMS kind).map column).sum =
      ((records.filter fun r =>
        ¬ (bucketSize kind ∣ toMS + epochMS ∧ r.fromMS = toMS)).map bytes).sum := by
  have hsum := (sum_foldl_addRecord h (bucketKey (bucketSize kind) fromMS) records
    ((startsOf kind fromMS toMS).map fun start => ⟨start, bucketLabel kind start, 0, 0, 0⟩)).1
  rw [trafficBuckets, hsum, List.map_map, List.map_map]
  have hzero : (column ∘ fun start => (⟨start, bucketLabel kind start, 0, 0, 0⟩ : TrafficBucket)) =
      fun _ => 0 := funext fun start => h.zero start _
  have hid : ((·.bucketStartMS) ∘ fun start =>
      (⟨start, bucketLabel kind start, 0, 0, 0⟩ : TrafficBucket)) = id := rfl
  rw [hzero, hid, List.map_id, List.map_const', List.sum_replicate, smul_zero, zero_add]
  congr 2
  apply List.filter_congr
  intro r hr
  simp only [bucketKey_mem hlt (hrecords r hr)]

end Buckets

/-! ## The traffic of a node -/

variable (toNode : String → String)

section Traffic

/-- The three sums of the loop over records. -/
def sums (records : List UsageRecord) : TrafficAgg :=
  ⟨(records.map (·.rxBytes)).sum, (records.map (·.txBytes)).sum,
    (records.map (·.totalBytes)).sum⟩

section

variable (records : List UsageRecord)

include records

theorem foldl_traffic (t : Traffic) :
    (records.foldl (Traffic.add toNode) t).total =
      ⟨t.total.rx + (sums records).rx, t.total.tx + (sums records).tx,
        t.total.total + (sums records).total⟩ ∧
    ∀ n, (records.foldl (Traffic.add toNode) t).byNode n =
      let s := sums (records.filter fun r => toNode r.nodeInstanceID == n)
      ⟨(t.byNode n).rx + s.rx, (t.byNode n).tx + s.tx, (t.byNode n).total + s.total⟩ := by
  induction records generalizing t with
  | nil => simp [sums]
  | cons r records ih =>
    obtain ⟨htotal, hnode⟩ := ih (t.add toNode r)
    constructor
    · rw [List.foldl_cons, htotal]
      simp only [sums, Traffic.add, TrafficAgg.add, List.map_cons, List.sum_cons, add_assoc]
    · intro n
      rw [List.foldl_cons, hnode]
      by_cases hn : toNode r.nodeInstanceID = n
      · subst hn
        simp only [sums, Traffic.add, TrafficAgg.add, Function.update_self, List.filter_cons,
          beq_self_eq_true, if_true, List.map_cons, List.sum_cons, add_assoc]
      · have hne : (toNode r.nodeInstanceID == n) = false := by simpa using hn
        simp only [sums, Traffic.add, Function.update_of_ne (Ne.symm hn), List.filter_cons, hne,
          Bool.false_eq_true, if_false]

theorem traffic_total :
    (traffic toNode records).total = sums records := by
  rw [traffic, (foldl_traffic toNode records .empty).1]
  simp [Traffic.empty, TrafficAgg.zero]

theorem traffic_byNode (n : String) :
    (traffic toNode records).byNode n =
      sums (records.filter fun r => toNode r.nodeInstanceID == n) := by
  rw [traffic, (foldl_traffic toNode records .empty).2]
  simp [Traffic.empty, TrafficAgg.zero]

end

theorem sums_perm {records records' : List UsageRecord} (h : records.Perm records') :
    sums records = sums records' := by
  simp only [sums, (h.map _).sum_eq]

theorem sums_eq_iff {records records' : List UsageRecord} :
    sums records = sums records' ↔
      (records.map (·.rxBytes)).sum = (records'.map (·.rxBytes)).sum ∧
        (records.map (·.txBytes)).sum = (records'.map (·.txBytes)).sum := by
  have htotal : ∀ l : List UsageRecord, (l.map (·.totalBytes)).sum =
      (l.map (·.txBytes)).sum + (l.map (·.rxBytes)).sum := fun l => List.sum_map_add
  rw [sums, sums, TrafficAgg.mk.injEq, htotal, htotal]
  constructor
  · exact fun h => ⟨h.1, h.2.1⟩
  · exact fun h => ⟨h.1, h.2, by rw [h.1, h.2]⟩

theorem sum_eq_filter_add (bytes : UsageRecord → ℤ) (p : UsageRecord → Bool)
    (records : List UsageRecord) :
    (records.map bytes).sum = ((records.filter p).map bytes).sum +
      ((records.filter fun r => !p r).map bytes).sum := by
  rw [← ((List.filter_append_perm p records).map bytes).sum_eq, List.map_append, List.sum_append]

end Traffic

/-- A bucket begins at the moment. -/
def Aligned (kind : BucketKind) (t : ℤ) : Prop := bucketSize kind ∣ t + epochMS

/-- No bucket begins at the end of the range, or the listed records that begin there have no bytes
together. -/
def NothingAtEnd (S : Store) (req : Request) (now : Time) : Prop :=
  let range := normalizeRange req now
  ¬ Aligned (bucketKind req.bucket (range.2 - range.1)) range.2 ∨
    sums ((S.usage range.1 range.2).filter fun r => r.fromMS = range.2) = .zero

/-- The buckets of a response add up to its traffic just when nothing is at the end of its range;
their starts are strictly increasing multiples of the size. -/
theorem buckets_add_up_iff (S : Store) (freshness : Time) (req : Request) (now : Time)
    (hnow : 0 < unixMilli now) :
    let R := build S freshness req now
    let total := (S.traffic R.fromMS R.toMS).total
    (((R.trafficOverTime.map (·.rxBytes)).sum = total.rx ∧
        (R.trafficOverTime.map (·.txBytes)).sum = total.tx ∧
        (R.trafficOverTime.map (·.totalBytes)).sum = total.total) ↔ NothingAtEnd S req now) ∧
    total.total = R.summary.totalTrafficBytes ∧
    (R.trafficOverTime.map (·.bucketStartMS)).Pairwise (· < ·) ∧
    ∀ b ∈ R.trafficOverTime, Aligned R.bucket b.bucketStartMS := by
  intro R total
  have hlt : R.fromMS < R.toMS := normalizeRange_lt req now
  have hto : 0 < R.toMS := normalizeRange_pos req hnow
  have hrecords : ∀ r ∈ S.usage R.fromMS R.toMS, r.fromMS ≤ R.toMS := by
    intro r hr
    have hin := (mem_listUsageRecordsRange _ hto hr).2
    rw [inRange, Bool.and_eq_true, decide_eq_true_eq, decide_eq_true_eq] at hin
    exact hin.2
  have htotal : total = sums (S.usage R.fromMS R.toMS) := traffic_total _ _
  have hsum : ∀ {column : TrafficBucket → ℤ} {bytes : UsageRecord → ℤ}, Counts column bytes →
      ((R.trafficOverTime.map column).sum = ((S.usage R.fromMS R.toMS).map bytes).sum ↔
        ¬ Aligned R.bucket R.toMS ∨
          (((S.usage R.fromMS R.toMS).filter fun r => r.fromMS = R.toMS).map bytes).sum = 0) := by
    intro column bytes h
    have hs : ((trafficBuckets (S.usage R.fromMS R.toMS) R.fromMS R.toMS R.bucket).map column).sum =
      _ := sum_trafficBuckets h hlt hrecords
    change (R.trafficOverTime.map column).sum = _ at hs
    rw [hs, sum_eq_filter_add bytes (fun r => r.fromMS = R.toMS) (S.usage R.fromMS R.toMS)]
    by_cases haligned : bucketSize R.bucket ∣ R.toMS + epochMS
    · simp only [Aligned, haligned, true_and, not_true_eq_false, false_or, decide_not]
      omega
    · simp only [Aligned, haligned, false_and, not_false_eq_true, true_or, iff_true, decide_true,
        List.filter_true]
      exact sum_eq_filter_add bytes _ _
  have hstarts : R.trafficOverTime.map (·.bucketStartMS) = startsOf R.bucket R.fromMS R.toMS :=
    starts_trafficBuckets _ _ _ _
  have hsize := bucketSize_pos R.bucket
  refine ⟨?_, rfl, ?_, ?_⟩
  · rw [htotal]
    refine (and_congr (hsum counts_rx) (and_congr (hsum counts_tx) (hsum counts_total))).trans ?_
    rw [← or_and_left, ← or_and_left]
    refine or_congr_right ?_
    rw [sums, TrafficAgg.zero, TrafficAgg.mk.injEq]
    rfl
  · rw [hstarts]
    exact pairwise_bucketStarts hsize _ _ _
  · intro b hb
    have hmem : b.bucketStartMS ∈ R.trafficOverTime.map (·.bucketStartMS) :=
      List.mem_map_of_mem hb
    rw [hstarts, mem_bucketStarts hsize (bucketRounds_enough hsize _ _), firstStart_eq hsize]
      at hmem
    have hdvd := dvd_add hmem.2.2 (dvd_truncate (bucketSize R.bucket) R.fromMS)
    rwa [← add_assoc, sub_add_cancel] at hdvd

namespace Sample

def store (beginMS : ℤ) : Store where
  nodes := [⟨"n", "node", some 0⟩]
  instances := [⟨"i", "n", .active⟩]
  runtimes := []
  intervals := []
  records := [⟨"q", "c", "i", beginMS, beginMS + 60000, 5, 7⟩]

/-- The second hour after the epoch. -/
def request : Request := ⟨3600000, 7200000, "hour"⟩

def now : Time := 7200 * second

def response (beginMS : ℤ) : Response := build (store beginMS) defaultFreshness request now

end Sample

open Sample in
theorem buckets_add_up_within_hour :
    (response 5000000).trafficOverTime = [⟨3600000, "01:00", 7, 5, 12⟩] ∧
    ((response 5000000).trafficOverTime.map (·.totalBytes)).sum =
      (response 5000000).summary.totalTrafficBytes := by
  have h := buckets_add_up_iff (store 5000000) defaultFreshness request now (by decide)
  have hsum := h.1.2 (.inr (by decide +kernel))
  exact ⟨by decide +kernel, hsum.2.2.trans h.2.1⟩

open Sample in
/-- A record that begins with the hour after the range is counted, and is in no bucket. -/
theorem buckets_drop_record : (response 7200000).trafficOverTime = [⟨3600000, "01:00", 0, 0, 0⟩] ∧
      (response 7200000).summary.totalTrafficBytes = 12 := by
  decide +kernel

/-! ## The page of the node -/

variable {item : NodeInstance}

section Node

variable {items : List NodeInstance} {m : String → String}

theorem foldl_instance_of_ne {id : String} (h : ∀ item ∈ items, item.id ≠ id) :
    items.foldl (fun m item => Function.update m item.id item.nodeID) m id = m id := by
  induction items generalizing m with
  | nil => rfl
  | cons item items ih =>
    rw [List.foldl_cons, ih fun item' h' => h item' (List.mem_cons_of_mem item h'),
      Function.update_of_ne (Ne.symm (h item List.mem_cons_self))]

theorem foldl_instance_of_mem (hkeys : Table.Keyed NodeInstance.id items) (hitem : item ∈ items) :
    items.foldl (fun m item => Function.update m item.id item.nodeID) m item.id =
      item.nodeID := by
  induction items generalizing m with
  | nil => cases hitem
  | cons first items ih =>
    rw [Table.Keyed, List.map_cons, List.nodup_cons] at hkeys
    rw [List.foldl_cons]
    rcases List.mem_cons.1 hitem with rfl | hitem
    · rw [foldl_instance_of_ne, Function.update_self]
      intro other hother heq
      exact hkeys.1 (heq ▸ List.mem_map_of_mem hother)
    · exact ih hkeys.2 hitem

theorem instanceToNode_eq_iff (hkeys : Table.Keyed NodeInstance.id items) {node : String}
    (hnode : node ≠ "") (hitem : item ∈ items) (hitem' : item.nodeID = node)
    (hone : ∀ other ∈ items, other.nodeID = node → other = item) (id : String) :
    instanceToNode items id = node ↔ id = item.id := by
  constructor
  · intro h
    by_cases hid : ∃ other ∈ items, other.id = id
    · obtain ⟨other, hother, rfl⟩ := hid
      rw [instanceToNode, foldl_instance_of_mem hkeys hother] at h
      rw [hone other hother h]
    · rw [instanceToNode, foldl_instance_of_ne fun other hother heq =>
        hid ⟨other, hother, heq⟩] at h
      exact absurd h.symm hnode
  · rintro rfl
    rw [instanceToNode, foldl_instance_of_mem hkeys hitem, hitem']

end Node

theorem sum_periodBytes (bytes : UsageRecord → ℤ) (rows : List UsageRecord) :
    (rows.map (periodBytes fromMS toMS bytes)).sum =
      ((rows.filter (inPeriod fromMS toMS)).map bytes).sum := by
  induction rows with
  | nil => rfl
  | cons r rows ih =>
    rw [List.map_cons, List.sum_cons, ih, periodBytes, List.filter_cons]
    split
    · rw [List.map_cons, List.sum_cons]
    · rw [zero_add]

/-- What the page counts of the instance and the dashboard does not, and what the dashboard counts
and the page does not, have the same bytes. -/
def SameAtEdges (S : Store) (req : Request) (now : Time) (instanceID : String) : Prop :=
  let range := normalizeRange req now
  let own := S.records.filter fun r => r.nodeInstanceID == instanceID
  sums (own.filter fun r => !inRange range.1 range.2 r && inPeriod req.fromMS req.toMS r) =
    sums (own.filter fun r => !inPeriod req.fromMS req.toMS r && inRange range.1 range.2 r)

instance (S : Store) (req : Request) (now : Time) (instanceID : String) :
    Decidable (SameAtEdges S req now instanceID) := inferInstanceAs (Decidable (_ = _))

/-- Two selections have the same bytes if what one has and the other has not does. -/
theorem sum_filter_eq_iff (bytes : UsageRecord → ℤ) (p q : UsageRecord → Bool)
    (records : List UsageRecord) :
    ((records.filter p).map bytes).sum = ((records.filter q).map bytes).sum ↔
      ((records.filter fun r => !q r && p r).map bytes).sum =
        ((records.filter fun r => !p r && q r).map bytes).sum := by
  have hp := sum_eq_filter_add bytes q (records.filter p)
  have hq := sum_eq_filter_add bytes p (records.filter q)
  have hboth : (records.filter fun r => p r && q r) = records.filter fun r => q r && p r :=
    List.filter_congr fun r _ => Bool.and_comm _ _
  rw [List.filter_filter, List.filter_filter] at hp hq
  rw [hp, hq, hboth]
  omega

end LazGate.Dashboard
