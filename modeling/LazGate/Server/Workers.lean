import LazGate.Queue.Leases
import LazGate.Server.Model

/-!
# The server's worker

`Worker.handle` runs the handler of a message and completes the message: `Complete` is one
transaction that enqueues the follow-up messages, inserts the events and sets the message's status;
if it fails, `MarkFailed` sets the message up for another try. Each statement may fail; a commit
that fails has stored nothing.
-/

namespace LazGate.Workqueue

open Queue

/-! ## The tables -/

inductive EventStatus where
  | pending | delivered | expired
  deriving DecidableEq

/-- `model.Event`. A field that is empty, or 0, or no status, is filled in before the insert. -/
structure Event where
  id : String
  topic : String
  status : Option EventStatus
  type : String
  entityType : String
  entityID : String
  actor : String
  message : String
  payloadJSON : String
  createdAtMs : ℤ
  deliveredAtMs : ℤ
  expiresAtMs : ℤ

/-- `normalizeEvent`, with the id and the time that it draws. -/
def normalizeEvent (newID : String) (now : ℤ) (e : Event) : Event :=
  { e with
    id := if e.id = "" then newID else e.id
    topic := if e.topic = "" then "admin" else e.topic
    status := some (e.status.getD .pending)
    payloadJSON := if e.payloadJSON = "" then "\x7b\x7d" else e.payloadJSON
    createdAtMs := if e.createdAtMs = 0 then timeMs now else e.createdAtMs
    expiresAtMs := if e.expiresAtMs = 0 then timeMs (now + 10 * Queue.minute) else e.expiresAtMs }

/-- The outbox and the table `server_events`. -/
structure Tables where
  outbox : Messages String String
  events : List Event
  keyed : Table.Keyed Event.id events

abbrev Statement := Tables → Except String Tables

def insertEvent (e : Event) : Statement := fun t =>
  if h : ∀ e' ∈ t.events, e'.id ≠ e.id then .ok ⟨t.outbox, t.events ++ [e], t.keyed.insert h⟩
  else .error errUnique

def onOutbox (f : Messages String String → Messages String String) : Statement := fun t =>
  .ok { t with outbox := f t.outbox }

/-- The statements from the `k`-th on, and the commit. `fault k` is the error of the `k`-th. -/
def runStatements (fault : ℕ → Option String) : ℕ → List Statement → Statement
  | k, [], t =>
    match fault k with
    | some e => .error e
    | none => .ok t
  | k, s :: ss, t =>
    match fault k with
    | some e => .error e
    | none => s t >>= runStatements fault (k + 1) ss

def transaction (fault : ℕ → Option String) (ss : List Statement) : Statement := fun t =>
  match fault 0 with
  | some e => .error e
  | none => runStatements fault 1 ss t

/-! ## `Complete` and `handle` -/

/-- What a handler returns beside its error. -/
structure Result where
  status : Option Queue.Status
  output : String
  next : List (NewMessage String String)
  events : List Event
  retryAt : Option ℤ

/-- What the surroundings decide while a message is handled: the failing statements of `Complete`
and of `MarkFailed`, the readings of the clock, and the ids drawn for events. -/
structure Surroundings where
  fault : ℕ → Option String
  markFault : Bool
  handleNow : ℤ
  nextNow : ℕ → ℤ
  eventNow : ℕ → ℤ
  eventID : ℕ → String
  completeNow : ℤ
  reportNow : ℤ
  markNow : ℤ

def column (bytes : String) : Option String := if bytes = "" then none else some bytes

variable (box : String → String) (o : Surroundings)

/-- The message that `enqueueOutboxTx` writes, with its bytes in the secret box. -/
def sealed (n : NewMessage String String) : NewMessage String String :=
  { n with payload := n.payload.map box, result := n.result.map box }

/-- `completeMessageTx`. -/
def completeMessage (id : String) (r : Result) (outbox : Messages String String) :
    Messages String String :=
  match r.status.getD .applied with
  | .applied => outbox.markDone id .applied (column (box r.output)) ""
  | .acked => outbox.markDone id .acked (column (box r.output)) ""
  | .expired => outbox.markDone id .expired none ""
  | .failed => outbox.markFailed o.completeNow id r.output r.retryAt
  | _ => outbox.markFailed o.completeNow id "unsupported handler status" none

/-- The statements of `Complete`. -/
def completeStatements (id : String) (r : Result) : List Statement :=
  (r.next.zipIdx.map fun n => onOutbox (Messages.write (o.nextNow n.2) true (sealed box n.1))) ++
  (r.events.zipIdx.map fun e =>
    insertEvent (normalizeEvent (o.eventID e.2) (o.eventNow e.2) e.1)) ++
  [onOutbox (completeMessage box o id r)]

def complete (id : String) (r : Result) : Statement :=
  transaction o.fault (completeStatements box o id r)

def second : ℤ := 1000000000

/-- The result that `handle` completes the message with. -/
def toComplete (actorID : String) : Result × Option String → Result
  | (r, some error) =>
    { r with
      status := some .failed
      retryAt := some (r.retryAt.getD (o.handleNow + 10 * second))
      output := error }
  | (r, none) =>
    { r with next := r.next.map fun n =>
        { n with
          actorID := if n.actorID = "" then actorID else n.actorID
          status := some (n.status.getD .pending)
          availableAt := some (n.availableAt.getD o.handleNow) } }

/-- `MarkFailed`, whose error is ignored. -/
def markFailed (id error : String) (retryAt : Option ℤ) (t : Tables) : Tables :=
  if o.markFault then t
  else { t with outbox := t.outbox.markFailed o.markNow id error retryAt }

/-- `Worker.handle`, for the handler of the message's type if there is one. -/
def handle (actorID : String) (msg : Message String String)
    (handler : Option (Message String String → Result × Option String)) (t : Tables) : Tables :=
  match handler with
  | none => markFailed o msg.id "unknown message type" none t
  | some h =>
    match complete box o msg.id (toComplete o actorID (h msg)) t with
    | .ok t' => t'
    | .error e => markFailed o msg.id e (some (o.reportNow + 10 * second)) t

/-! ## What a transaction that commits has done -/

variable {t t' : Tables} {fault : ℕ → Option String} {ss : List Statement}

theorem foldlM_of_runStatements {k : ℕ} (h : runStatements fault k ss t = .ok t') :
    ss.foldlM (fun t s => s t) t = .ok t' := by
  induction ss generalizing k t with
  | nil =>
    unfold runStatements at h
    split at h
    · cases h
    · exact h
  | cons s ss ih =>
    unfold runStatements at h
    split at h
    · cases h
    · obtain ⟨t₁, h₁, h₂⟩ := Except.bind_eq_ok.1 h
      rw [List.foldlM_cons]
      exact Except.bind_eq_ok.2 ⟨t₁, h₁, ih h₂⟩

theorem foldlM_of_transaction (h : transaction fault ss t = .ok t') :
    ss.foldlM (fun t s => s t) t = .ok t' := by
  unfold transaction at h
  split at h
  · cases h
  · exact foldlM_of_runStatements h

theorem exists_runStatements_iff {k : ℕ} : (∃ t', runStatements fault k ss t = .ok t') ↔
    (∀ i ≤ ss.length, fault (k + i) = none) ∧ ∃ t', ss.foldlM (fun t s => s t) t = .ok t' := by
  induction ss generalizing k t with
  | nil =>
    unfold runStatements
    cases hfault : fault k <;> simp [hfault, pure, Except.pure]
  | cons s ss ih =>
    have hsplit : (∀ i ≤ (s :: ss).length, fault (k + i) = none) ↔
        fault k = none ∧ ∀ i ≤ ss.length, fault (k + 1 + i) = none := by
      refine ⟨fun h => ⟨h 0 (Nat.zero_le _), fun i hi => ?_⟩, fun h i hi => ?_⟩
      · rw [add_assoc, add_comm 1 i]
        exact h (i + 1) (Nat.succ_le_succ hi)
      · cases i with
        | zero => exact h.1
        | succ i =>
          rw [add_comm i 1, ← add_assoc]
          exact h.2 i (Nat.le_of_succ_le_succ hi)
    rw [hsplit, List.foldlM_cons, runStatements]
    cases hfault : fault k with
    | some e => simp
    | none =>
      cases hs : s t with
      | error e => simp [bind, Except.bind]
      | ok t₁ =>
        rw [and_iff_right rfl]
        exact ih

theorem foldlM_onOutbox {τ : Type} (f : τ → Messages String String → Messages String String)
    (l : List τ) (t : Tables) :
    (l.map fun x => onOutbox (f x)).foldlM (fun t s => s t) t =
      .ok { t with outbox := l.foldl (fun outbox x => f x outbox) t.outbox } := by
  induction l generalizing t with
  | nil => rfl
  | cons x l ih =>
    rw [List.map_cons, List.foldlM_cons]
    exact ih _

theorem of_insertEvents {τ : Type} {f : τ → Event} {l : List τ}
    (h : (l.map fun x => insertEvent (f x)).foldlM (fun t s => s t) t = .ok t') :
    t'.outbox = t.outbox ∧ t'.events = t.events ++ l.map f := by
  induction l generalizing t with
  | nil =>
    cases h
    exact ⟨rfl, by simp⟩
  | cons x l ih =>
    rw [List.map_cons, List.foldlM_cons] at h
    obtain ⟨t₁, h₁, h₂⟩ := Except.bind_eq_ok.1 h
    unfold insertEvent at h₁
    split at h₁
    · cases h₁
      obtain ⟨ho, he⟩ := ih h₂
      exact ⟨ho, by rw [he]; simp⟩
    · cases h₁

theorem exists_insertEvents_iff {τ : Type} {f : τ → Event} {l : List τ} :
    (∃ t', (l.map fun x => insertEvent (f x)).foldlM (fun t s => s t) t = .ok t') ↔
      (t.events.map (·.id) ++ l.map fun x => (f x).id).Nodup := by
  induction l generalizing t with
  | nil =>
    rw [List.map_nil, List.map_nil, List.append_nil]
    exact iff_of_true ⟨t, rfl⟩ t.keyed
  | cons x l ih =>
    rw [List.map_cons, List.foldlM_cons, insertEvent]
    split
    · refine (ih (t := ⟨t.outbox, t.events ++ [f x], t.keyed.insert ‹_›⟩)).trans ?_
      rw [List.map_append, List.append_assoc]
      rfl
    · rename_i htaken
      push Not at htaken
      obtain ⟨e, he, hid⟩ := htaken
      refine iff_of_false (fun ⟨t', h⟩ => nomatch h) fun hnodup => ?_
      refine (List.disjoint_of_nodup_append hnodup) (List.mem_map_of_mem he) ?_
      rw [hid]
      exact List.mem_cons_self

variable {box o} {id : String} {r : Result} {t t' : Tables}

def enqueueAll (box : String → String) (o : Surroundings)
    (next : List (NewMessage String String × ℕ))
    (outbox : Messages String String) : Messages String String :=
  next.foldl (fun outbox n => outbox.write (o.nextNow n.2) true (sealed box n.1)) outbox

theorem of_complete (h : complete box o id r t = .ok t') :
    t'.outbox = completeMessage box o id r (enqueueAll box o r.next.zipIdx t.outbox) ∧
      t'.events = t.events ++ r.events.zipIdx.map fun e =>
        normalizeEvent (o.eventID e.2) (o.eventNow e.2) e.1 := by
  have hall := foldlM_of_transaction h
  rw [completeStatements, List.foldlM_append, List.foldlM_append] at hall
  obtain ⟨t₂, h₂, h₃⟩ := Except.bind_eq_ok.1 hall
  obtain ⟨t₁, h₁, h₂⟩ := Except.bind_eq_ok.1 h₂
  rw [foldlM_onOutbox] at h₁
  cases h₁
  obtain ⟨ho, he⟩ := of_insertEvents h₂
  cases h₃
  exact ⟨by rw [ho]; rfl, he⟩

/-- No statement of `Complete` fails, and the ids of the events are new. -/
structure Commits (o : Surroundings) (r : Result) (t : Tables) : Prop where
  faults : ∀ k ≤ r.next.length + r.events.length + 2, o.fault k = none
  ids : (t.events.map (·.id) ++ r.events.zipIdx.map fun e =>
    (normalizeEvent (o.eventID e.2) (o.eventNow e.2) e.1).id).Nodup

variable (box id) in
theorem exists_complete_iff : (∃ t', complete box o id r t = .ok t') ↔ Commits o r t := by
  have hstatements : (∃ t', (completeStatements box o id r).foldlM (fun t s => s t) t = .ok t') ↔
      (t.events.map (·.id) ++ r.events.zipIdx.map fun e =>
        (normalizeEvent (o.eventID e.2) (o.eventNow e.2) e.1).id).Nodup := by
    rw [← exists_insertEvents_iff
      (t := { t with outbox := enqueueAll box o r.next.zipIdx t.outbox })]
    rw [completeStatements, List.foldlM_append, List.foldlM_append, foldlM_onOutbox]
    simp only [Except.bind_eq_ok]
    exact ⟨fun ⟨_, t₂, ⟨_, rfl, h⟩, _⟩ => ⟨t₂, h⟩, fun ⟨t₂, h⟩ => ⟨_, t₂, ⟨_, rfl, h⟩, rfl⟩⟩
  have hlength : (completeStatements box o id r).length = r.next.length + r.events.length + 1 := by
    simp [completeStatements, add_assoc]
  have hfaults : (∀ k ≤ r.next.length + r.events.length + 2, o.fault k = none) ↔
      o.fault 0 = none ∧ ∀ i ≤ (completeStatements box o id r).length, o.fault (1 + i) = none := by
    rw [hlength]
    refine ⟨fun h => ⟨h 0 (by omega), fun i hi => h (1 + i) (by omega)⟩, fun h k hk => ?_⟩
    cases k with
    | zero => exact h.1
    | succ k => exact add_comm k 1 ▸ h.2 k (by omega)
  rw [complete, transaction]
  cases hfault : o.fault 0 with
  | some e =>
    refine iff_of_false (fun ⟨t', h⟩ => nomatch h) fun h => ?_
    rw [h.faults 0 (Nat.zero_le _)] at hfault
    cases hfault
  | none =>
    rw [exists_runStatements_iff, hstatements]
    exact ⟨fun h => ⟨hfaults.2 ⟨hfault, h.1⟩, h.2⟩, fun h => ⟨(hfaults.1 h.faults).2, h.ids⟩⟩

/-- The status of the message after `completeMessageTx`. -/
def newStatus (o : Surroundings) (r : Result) : Queue.Status :=
  match r.status.getD .applied with
  | .applied => .applied
  | .acked => .acked
  | .expired => .expired
  | .failed => if r.retryAt.any (o.completeNow < ·) then .pending else .failed
  | _ => .failed

variable {outbox : Messages String String} {m m' : Message String String}

/-- A row of the message gets the new status and keeps what it carries; the others stay. -/
theorem of_mem_completeMessage (h : m' ∈ (completeMessage box o id r outbox).rows) :
    ∃ m ∈ outbox.rows, m'.key = m.key ∧ m'.type = m.type ∧ m'.payload = m.payload ∧
      (m.id = id ∧ m'.status = newStatus o r ∨ m.id ≠ id ∧ m' = m) := by
  have hdone {status : Queue.Status} {result : Option String}
      (h : m' ∈ (outbox.markDone id status result "").rows) :
      ∃ m ∈ outbox.rows, m'.key = m.key ∧ m'.type = m.type ∧ m'.payload = m.payload ∧
        (m.id = id ∧ m'.status = status ∨ m.id ≠ id ∧ m' = m) := by
    obtain ⟨m, hm, hk, ⟨hid, rfl⟩ | ⟨hne, rfl⟩⟩ := Messages.of_mem_markDone h
    · exact ⟨m, hm, hk, rfl, rfl, .inl ⟨hid, rfl⟩⟩
    · exact ⟨m', hm, rfl, rfl, rfl, .inr ⟨hne, rfl⟩⟩
  have hfailed {error : String} {retryAt : Option ℤ}
      (h : m' ∈ (outbox.markFailed o.completeNow id error retryAt).rows) :
      ∃ m ∈ outbox.rows, m'.key = m.key ∧ m'.type = m.type ∧ m'.payload = m.payload ∧
        (m.id = id ∧ m'.status =
          (if retryAt.any (o.completeNow < ·) then .pending else .failed) ∨
            m.id ≠ id ∧ m' = m) := by
    obtain ⟨m, hm, hk, ⟨hid, rfl⟩ | ⟨hne, rfl⟩⟩ := Messages.of_mem_markFailed h
    · exact ⟨m, hm, hk, rfl, rfl, .inl ⟨hid, rfl⟩⟩
    · exact ⟨m', hm, rfl, rfl, rfl, .inr ⟨hne, rfl⟩⟩
  unfold completeMessage at h
  unfold newStatus
  cases hstatus : r.status.getD .applied <;> simp only [hstatus] at h ⊢
  case applied | acked | expired => exact hdone h
  case failed => exact hfailed h
  all_goals simpa using hfailed h

theorem mem_completeMessage_of_ne (h : m ∈ outbox.rows) (hid : m.id ≠ id) :
    m ∈ (completeMessage box o id r outbox).rows := by
  have hp : (m.id == id) = false := beq_eq_false_iff_ne.2 hid
  unfold completeMessage
  split <;> exact Messages.mem_update_of_not h hp

variable (box o id r) in
theorem mem_completeMessage_of_mem (h : m ∈ outbox.rows) :
    ∃ m' ∈ (completeMessage box o id r outbox).rows, m'.key = m.key ∧ m'.type = m.type ∧
      m'.payload = m.payload := by
  obtain ⟨m', hm', hk⟩ : ∃ m' ∈ (completeMessage box o id r outbox).rows, m'.key = m.key := by
    unfold completeMessage
    split <;> exact Messages.mem_update_of_mem h fun _ => rfl
  obtain ⟨m₀, hm₀, hk₀, htype, hpayload, -⟩ := of_mem_completeMessage hm'
  rw [Messages.eq_of_key h hm₀ (hk₀.symm.trans hk)] at htype hpayload
  exact ⟨m', hm', hk, htype, hpayload⟩

variable {next : List (NewMessage String String × ℕ)}

theorem mem_enqueueAll_of_ne (h : m ∈ outbox.rows) (hne : ∀ n ∈ next, m.key ≠ n.1.key) :
    m ∈ (enqueueAll box o next outbox).rows := by
  induction next generalizing outbox with
  | nil => exact h
  | cons n next ih =>
    refine ih ?_ fun n' hn' => hne n' (List.mem_cons_of_mem n hn')
    exact Messages.mem_write_of_ne h (hne n List.mem_cons_self)

theorem mem_enqueueAll_of_mem (h : m ∈ outbox.rows) :
    ∃ m' ∈ (enqueueAll box o next outbox).rows, m'.key = m.key := by
  induction next generalizing outbox m with
  | nil => exact ⟨m, h, rfl⟩
  | cons n next ih =>
    obtain ⟨m₁, hm₁, hk₁⟩ : ∃ m₁ ∈ (outbox.write (o.nextNow n.2) true (sealed box n.1)).rows,
        m₁.key = m.key := Messages.mem_write_of_mem h
    obtain ⟨m', hm', hk'⟩ := ih hm₁
    exact ⟨m', hm', hk'.trans hk₁⟩

theorem mem_enqueueAll {before after : List (NewMessage String String × ℕ)}
    {n : NewMessage String String} {i : ℕ} (hafter : ∀ n' ∈ after, n'.1.key ≠ n.key) :
    ∃ m ∈ (enqueueAll box o (before ++ (n, i) :: after) outbox).rows,
      m = { (sealed box n).row (o.nextNow i) with createdAtMs := m.createdAtMs } := by
  rw [enqueueAll, List.foldl_append, List.foldl_cons]
  obtain ⟨m, hm, heq⟩ := Messages.mem_write_replace (enqueueAll box o before outbox) (o.nextNow i)
    (sealed box n)
  refine ⟨m, mem_enqueueAll_of_ne hm fun n' hn' he => hafter n' hn' ?_, heq⟩
  rw [← he, heq]
  rfl

/-! ## All or nothing -/

/-- Everything that the result holds is stored, and the message has its new status. Of several
follow-up messages with one key the last is stored; one with the id of the message itself has the
message's status. -/
structure Visible (box : String → String) (o : Surroundings) (id : String) (r : Result)
    (t t' : Tables) : Prop where
  next : ∀ before n after, r.next = before ++ n :: after → (∀ n' ∈ after, n'.key ≠ n.key) →
    ∃ m ∈ t'.outbox.rows, m.key = n.key ∧ m.type = n.type ∧ m.payload = (sealed box n).payload ∧
      (n.id ≠ id →
        m = { (sealed box n).row (o.nextNow before.length) with createdAtMs := m.createdAtMs })
  events : ∀ i e, r.events[i]? = some e →
    normalizeEvent (o.eventID i) (o.eventNow i) e ∈ t'.events
  status : ∀ m ∈ t'.outbox.rows, m.id = id → m.status = newStatus o r
  message : ∀ m ∈ t.outbox.rows, m.id = id → ∃ m' ∈ t'.outbox.rows, m'.key = m.key

/-- Nothing of the result is stored. The message waits for another try or has failed; if that could
not be stored either, nothing changes and a message in flight is given back when its lease ends. -/
structure Withheld (o : Surroundings) (id : String) (t t' : Tables) : Prop where
  events : t'.events = t.events
  rows : ∀ m' ∈ t'.outbox.rows, ∃ m ∈ t.outbox.rows, m'.key = m.key ∧ (m.id ≠ id → m' = m)
  marked : o.markFault = false → ∀ m ∈ t.outbox.rows, m.id = id →
    ∃ m' ∈ t'.outbox.rows, m'.key = m.key ∧ (m'.status = .pending ∨ m'.status = .failed)
  unmarked : o.markFault = true → t' = t ∧ ∀ m ∈ t'.outbox.rows, m.status = .inFlight →
    ∀ now, m.availableAtMs ≤ timeMs now → (∀ e ∈ m.expiresAtMs, timeMs now < e) →
      { m with status := .pending } ∈ (t'.outbox.requeueLeases now m.actorID).rows

theorem visible_of_complete (h : complete box o id r t = .ok t') : Visible box o id r t t' := by
  obtain ⟨ho, he⟩ := of_complete h
  refine ⟨?_, ?_, ?_, ?_⟩
  · intro before n after hnext hafter
    have hsplit : r.next.zipIdx = before.zipIdx ++ (n, before.length) ::
        after.zipIdx (before.length + 1) := by
      rw [hnext, List.zipIdx_append, List.zipIdx_cons, Nat.zero_add]
    obtain ⟨m, hm, heq⟩ : ∃ m ∈ (enqueueAll box o r.next.zipIdx t.outbox).rows,
        m = { (sealed box n).row (o.nextNow before.length) with createdAtMs := m.createdAtMs } := by
      rw [hsplit]
      exact mem_enqueueAll fun n' hn' => hafter n'.1 (List.fst_mem_of_mem_zipIdx hn')
    have hkey : m.key = n.key := by
      rw [heq]
      rfl
    by_cases hid : n.id = id
    · obtain ⟨m', hm', hk', htype, hpayload⟩ := mem_completeMessage_of_mem box o id r hm
      refine ⟨m', by rwa [ho], hk'.trans hkey, ?_, ?_, fun hne => absurd hid hne⟩
      · rw [htype, heq]
        rfl
      · rw [hpayload, heq]
        rfl
    · refine ⟨m, ?_, hkey, ?_, ?_, fun _ => heq⟩
      · rw [ho]
        exact mem_completeMessage_of_ne hm (by rw [heq]; exact hid)
      · rw [heq]
        rfl
      · rw [heq]
        rfl
  · intro i e hi
    rw [he]
    refine List.mem_append_right _ (List.mem_map.2 ⟨(e, i), ?_, rfl⟩)
    exact List.mk_mem_zipIdx_iff_getElem?.2 hi
  · intro m hm hid
    rw [ho] at hm
    obtain ⟨m₀, -, -, -, -, ⟨-, hstatus⟩ | ⟨hne, rfl⟩⟩ := of_mem_completeMessage hm
    · exact hstatus
    · exact absurd hid hne
  · intro m hm _
    obtain ⟨m₁, hm₁, hk₁⟩ : ∃ m₁ ∈ (enqueueAll box o r.next.zipIdx t.outbox).rows,
        m₁.key = m.key := mem_enqueueAll_of_mem hm
    obtain ⟨m', hm', hk', -⟩ := mem_completeMessage_of_mem box o id r hm₁
    exact ⟨m', by rwa [ho], hk'.trans hk₁⟩

variable {retryAt : Option ℤ} {error : String}

theorem withheld_of_markFailed : Withheld o id t (markFailed o id error retryAt t) := by
  unfold markFailed
  cases hfault : o.markFault with
  | true =>
    refine ⟨rfl, fun m' hm' => ⟨m', hm', rfl, fun _ => rfl⟩, fun h => ?_, fun _ => ⟨rfl, ?_⟩⟩
    · rw [hfault] at h
      cases h
    · exact fun m hm hstatus now => Messages.mem_requeueLeases hm hstatus
  | false =>
    refine ⟨rfl, fun m' hm' => ?_, fun _ m hm hid => ?_, fun h => ?_⟩
    · obtain ⟨m, hm, hk, ⟨hid, -⟩ | ⟨-, rfl⟩⟩ := Messages.of_mem_markFailed hm'
      · exact ⟨m, hm, hk, fun hne => absurd hid hne⟩
      · exact ⟨m', hm, rfl, fun _ => rfl⟩
    · obtain ⟨m', hm', hk⟩ : ∃ m' ∈ (t.outbox.markFailed o.markNow id error retryAt).rows,
          m'.key = m.key := Messages.mem_markFailed_of_mem hm
      refine ⟨m', hm', hk, ?_⟩
      obtain ⟨m₀, hm₀, hk₀, ⟨-, rfl⟩ | ⟨hne, rfl⟩⟩ := Messages.of_mem_markFailed hm'
      · by_cases hretry : retryAt.any (o.markNow < ·) = true <;> simp [hretry]
      · rw [Messages.eq_of_key hm hm₀ hk] at hne
        exact absurd hid hne
    · rw [hfault] at h
      cases h

theorem status_toComplete_of_error {actorID : String} {x : Result × Option String}
    (h : x.2.isSome) :
    (toComplete o actorID x).status = some .failed := by
  obtain ⟨r, _ | error⟩ := x
  · cases h
  · rfl

theorem not_applied_of_markFailed :
    markFailed o id error retryAt t = t ∨
      ∀ m ∈ (markFailed o id error retryAt t).outbox.rows, m.id = id → m.status ≠ .applied := by
  unfold markFailed
  split
  · exact .inl rfl
  · refine .inr fun m' hm' hid => ?_
    obtain ⟨m, hm, -, ⟨-, rfl⟩ | ⟨hne, rfl⟩⟩ := Messages.of_mem_markFailed hm'
    · by_cases hretry : retryAt.any (o.markNow < ·) = true <;> simp [hretry]
    · exact absurd hid hne

/-- Whatever a handler returns: if no statement of `Complete` fails, all follow-up messages, all
events and the new status are stored together, and else nothing of it, and the message is tried
again or failed. After an error of the handler the message is never marked applied. -/
theorem completion_is_atomic (box : String → String) (o : Surroundings) (actorID : String)
    (msg : Message String String)
    (handler : Option (Message String String → Result × Option String)) (t : Tables) :
    (∀ h, handler = some h → Commits o (toComplete o actorID (h msg)) t →
      Visible box o msg.id (toComplete o actorID (h msg)) t (handle box o actorID msg handler t)) ∧
    ((∀ h, handler = some h → ¬ Commits o (toComplete o actorID (h msg)) t) →
      Withheld o msg.id t (handle box o actorID msg handler t)) ∧
    ∀ h, handler = some h → (h msg).2.isSome →
      handle box o actorID msg handler t = t ∨
        ∀ m ∈ (handle box o actorID msg handler t).outbox.rows, m.id = msg.id →
          m.status ≠ .applied := by
  cases handler with
  | none => exact ⟨nofun, fun _ => withheld_of_markFailed, nofun⟩
  | some h =>
    simp only [Option.some.injEq, forall_eq']
    rw [← exists_complete_iff box msg.id]
    cases hc : complete box o msg.id (toComplete o actorID (h msg)) t with
    | ok t' =>
      have hhandle : handle box o actorID msg (some h) t = t' := by simp [handle, hc]
      have hvisible := visible_of_complete hc
      rw [hhandle]
      refine ⟨fun _ => hvisible, fun hno => absurd ⟨t', rfl⟩ hno,
        fun herr => .inr fun m hm hid => ?_⟩
      rw [hvisible.status m hm hid, newStatus, status_toComplete_of_error herr]
      simp only [Option.getD_some]
      split <;> simp
    | error e =>
      have hhandle : handle box o actorID msg (some h) t =
          markFailed o msg.id e (some (o.reportNow + 10 * second)) t := by simp [handle, hc]
      rw [hhandle]
      exact ⟨nofun, fun _ => withheld_of_markFailed, fun _ => not_applied_of_markFailed⟩

/-! ## Other actors -/

/-- A call for messages of one actor. -/
inductive ActorCall where
  | leasePending (now limit leaseFor : ℤ)
  | report (now : ℤ) (id : String) (r : Report String)
  | complete (o : Surroundings) (id : String) (r : Result)

/-- The tables after a call; one of `Complete` that fails is rolled back. -/
def ActorCall.run (box : String → String) (actorID : String) (t : Tables) : ActorCall → Tables
  | .leasePending now limit leaseFor =>
    { t with outbox := (t.outbox.leasePending now actorID limit leaseFor).2 }
  | .report now id r => { t with outbox := r.store now id t.outbox }
  | .complete o id r =>
    match Workqueue.complete box o id r t with
    | .ok t' => t'
    | .error _ => t

/-- What a report writes to a row with its id. -/
def reportedRow (now : ℤ) (m : Message String String) : Report String → Message String String
  | .acked result => { m with status := .acked, result := result, error := "" }
  | .applied result => { m with status := .applied, result := result, error := "" }
  | .expired error => { m with status := .expired, result := none, error := error }
  | .failed error retryAt =>
    { m with
      status := if retryAt.any (now < ·) then .pending else .failed
      availableAtMs := timeMs (retryAt.getD now)
      error := error }

/-- What `completeMessageTx` writes is a report. -/
def Result.report (box : String → String) (r : Result) : Report String :=
  match r.status.getD .applied with
  | .applied => .applied (column (box r.output))
  | .acked => .acked (column (box r.output))
  | .expired => .expired ""
  | .failed => .failed r.output r.retryAt
  | _ => .failed "unsupported handler status" none

/-- What a follow-up message writes to a row. -/
def replacedRow (now : ℤ) (n : NewMessage String String) (m : Message String String) :
    Message String String :=
  if m.key = n.key then
    { n.row now with actorID := m.actorID, id := m.id, createdAtMs := m.createdAtMs }
  else m

/-- What the call writes to the row of a message is there already. -/
def ActorCall.Leaves (box : String → String) (t : Tables) (m : Message String String) :
    ActorCall → Prop
  | .leasePending .. => True
  | .report now id r => m.id = id → reportedRow now m r = m
  | .complete o id r => Commits o r t →
      let m' := r.next.zipIdx.foldl (fun m n => replacedRow (o.nextNow n.2) (sealed box n.1) m) m
      (if m.id = id then reportedRow o.completeNow m' (r.report box) else m') = m

theorem mem_store (h : m ∈ outbox.rows) (now : ℤ) (id : String) (r : Report String) :
    (if m.id = id then reportedRow now m r else m) ∈ (r.store now id outbox).rows := by
  have hrow : r.store now id outbox = outbox.update (·.id == id) (reportedRow now · r)
      fun m => by cases r <;> rfl := by cases r <;> rfl
  have hmem := Table.mem_update_of_mem (p := fun m : Message String String => m.id == id)
    (f := (reportedRow now · r)) h
  simp only [beq_iff_eq] at hmem
  rw [hrow]
  exact hmem

theorem key_reportedRow (now : ℤ) (m : Message String String) (r : Report String) :
    (reportedRow now m r).key = m.key := by cases r <;> rfl

theorem completeMessage_eq (outbox : Messages String String) :
    completeMessage box o id r outbox = (r.report box).store o.completeNow id outbox := by
  unfold completeMessage Result.report
  split <;> rfl

theorem key_replacedRow (now : ℤ) (n : NewMessage String String) (m : Message String String) :
    (replacedRow now n m).key = m.key := by
  unfold replacedRow
  split <;> rfl

theorem mem_write (h : m ∈ outbox.rows) (now : ℤ) (n : NewMessage String String) :
    replacedRow now n m ∈ (outbox.write now true n).rows := by
  by_cases hkey : m.key = n.key
  · rw [replacedRow, if_pos hkey, Messages.write, dif_neg fun hnone => hnone m h hkey, if_pos rfl]
    have hrow := Table.mem_update_of_mem (p := fun m => m.key == (n.row now).key) (f := fun m =>
      { n.row now with actorID := m.actorID, id := m.id, createdAtMs := m.createdAtMs }) h
    rwa [if_pos (beq_iff_eq.2 (show m.key = (n.row now).key from hkey))] at hrow
  · rw [replacedRow, if_neg hkey]
    exact Messages.mem_write_of_ne h hkey

variable (box o next) in
theorem mem_enqueueAll_row (h : m ∈ outbox.rows) :
    next.foldl (fun m n => replacedRow (o.nextNow n.2) (sealed box n.1) m) m ∈
        (enqueueAll box o next outbox).rows ∧
      (next.foldl (fun m n => replacedRow (o.nextNow n.2) (sealed box n.1) m) m).key = m.key := by
  induction next generalizing outbox m with
  | nil => exact ⟨h, rfl⟩
  | cons n next ih =>
    obtain ⟨hmem, hkey⟩ := ih (mem_write h (o.nextNow n.2) (sealed box n.1))
    exact ⟨hmem, hkey.trans (key_replacedRow _ _ m)⟩

theorem mem_iff_of_key {outbox' : Messages String String} (hkey : m'.key = m.key)
    (hmem : m' ∈ outbox'.rows) : m ∈ outbox'.rows ↔ m' = m :=
  ⟨fun h => Messages.eq_of_key h hmem hkey, fun h => h ▸ hmem⟩

theorem ActorCall.mem_run_iff (c : ActorCall) {actorID : String} (hm : m ∈ t.outbox.rows)
    (hactor : m.actorID ≠ actorID) :
    m ∈ (c.run box actorID t).outbox.rows ↔ c.Leaves box t m := by
  cases c with
  | leasePending now limit leaseFor =>
    refine iff_of_true (Messages.mem_leased_of_ne hm fun l hl hkey => hactor ?_) trivial
    rw [← (Messages.pending_of_mem_due hl).2.1]
    exact congrArg Prod.fst hkey
  | report now id r =>
    refine (mem_iff_of_key ?_ (mem_store hm now id r)).trans ite_eq_right_iff
    split
    · exact key_reportedRow now m r
    · rfl
  | complete o id r =>
    rw [Leaves, ← exists_complete_iff box id]
    simp only [run]
    cases hc : Workqueue.complete box o id r t with
    | error e => exact iff_of_true hm nofun
    | ok t' =>
      obtain ⟨hmem, hkey⟩ := mem_enqueueAll_row box o r.next.zipIdx hm
      have hstored := mem_store hmem o.completeNow id (r.report box)
      have hid := congrArg Prod.snd hkey
      dsimp only [Message.key] at hid
      rw [hid, ← completeMessage_eq, ← (of_complete hc).1] at hstored
      refine (mem_iff_of_key ?_ hstored).trans (by simp)
      split
      · exact (key_reportedRow _ _ _).trans hkey
      · exact hkey

/-- A call for one actor leaves the messages of the others as they are, just when what it writes to
their rows is there already. -/
theorem other_actors_unchanged_iff (box : String → String) (actorID : String) (t : Tables)
    (c : ActorCall) :
    (∀ m ∈ t.outbox.rows, m.actorID ≠ actorID → m ∈ (c.run box actorID t).outbox.rows) ↔
      ∀ m ∈ t.outbox.rows, m.actorID ≠ actorID → c.Leaves box t m :=
  forall₃_congr fun _ hm hactor => c.mem_run_iff hm hactor

/-- A message of the actor "a" and one of the actor "b". -/
def twoActors (id id' : String) : Tables where
  outbox := ⟨[⟨"a", id, "online_snapshot", .inFlight, 0, none, 0, none, none, ""⟩,
    ⟨"b", id', "online_snapshot", .pending, 0, none, 0, none, none, ""⟩],
    by simp [Table.Keyed, Message.key]⟩
  events := []
  keyed := List.nodup_nil

/-- A report on a message of the actor "a" changes the message of the actor "b" with the same
id. -/
theorem report_reaches_other_actor :
    ((ActorCall.report 0 "1" (.acked none)).run (·) "a" (twoActors "1" "1")).outbox.rows.map
      (fun m => (m.key, m.status)) = [(("a", "1"), .acked), (("b", "1"), .acked)] := rfl

end LazGate.Workqueue
