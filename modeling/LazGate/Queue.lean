import LazGate.Lib.Table

/-!
# The message queue

The table `transport_outbox_messages` of `internal/queue`, with the statements and transactions of
its store. A row has a payload and a result of arbitrary types; none of either is the text
`\x7b\x7d` of an empty or redacted column. Times are given in nanoseconds and stored in
milliseconds.
-/

namespace LazGate.Queue

inductive Status where
  | pending
  | inFlight
  | applied
  | acked
  | failed
  | expired
  | superseded
  deriving DecidableEq

/-- A row of the table. -/
structure Message (P R : Type) where
  actorID : String
  id : String
  type : String
  status : Status
  availableAtMs : ℤ
  expiresAtMs : Option ℤ
  createdAtMs : ℤ
  payload : Option P
  result : Option R
  error : String

/-- `queue.Message` as it is given to `Enqueue`; a time or status that is not set is none. -/
structure NewMessage (P R : Type) where
  id : String
  actorID : String
  type : String
  payload : Option P
  status : Option Status
  availableAt : Option ℤ
  expiresAt : Option ℤ
  createdAt : Option ℤ
  result : Option R
  error : String

/-- `UnixMilli`. -/
def timeMs (t : ℤ) : ℤ := t / 1000000

variable {P R : Type}

def Message.key (m : Message P R) : String × String := (m.actorID, m.id)

def NewMessage.key (msg : NewMessage P R) : String × String := (msg.actorID, msg.id)

/-- The row that `writeMessage` inserts. -/
def NewMessage.row (now : ℤ) (msg : NewMessage P R) : Message P R where
  actorID := msg.actorID
  id := msg.id
  type := msg.type
  status := msg.status.getD .pending
  availableAtMs := timeMs (msg.availableAt.getD (msg.createdAt.getD now))
  expiresAtMs := msg.expiresAt.map timeMs
  createdAtMs := timeMs (msg.createdAt.getD now)
  payload := msg.payload
  result := msg.result
  error := msg.error

@[simp] theorem NewMessage.key_row (now : ℤ) (msg : NewMessage P R) :
    (msg.row now).key = msg.key := rfl

structure Messages (P R : Type) where
  rows : List (Message P R)
  keyed : Table.Keyed Message.key rows

namespace Messages

def empty : Messages P R := ⟨[], List.nodup_nil⟩

/-- An update statement that leaves the key alone. -/
def update (p : Message P R → Bool) (f : Message P R → Message P R) (hf : ∀ m, (f m).key = m.key)
    (t : Messages P R) : Messages P R :=
  ⟨Table.update p f t.rows, t.keyed.update hf⟩

def deleteWhere (p : Message P R → Bool) (t : Messages P R) : Messages P R :=
  ⟨t.rows.filter (! p ·), t.keyed.sublist (List.filter_sublist.map _)⟩

/-- `writeMessage`, which replaces a row with the same key or leaves it as it is. -/
def write (now : ℤ) (replace : Bool) (msg : NewMessage P R) (t : Messages P R) : Messages P R :=
  if h : ∀ m ∈ t.rows, m.key ≠ (msg.row now).key then
    ⟨t.rows ++ [msg.row now], t.keyed.insert h⟩
  else if replace then
    t.update (·.key == (msg.row now).key) (fun m =>
      { msg.row now with actorID := m.actorID, id := m.id, createdAtMs := m.createdAtMs })
      fun _ => rfl
  else t

/-- The order in which messages are leased. -/
def before (m m' : Message P R) : Bool :=
  m.availableAtMs < m'.availableAtMs || m.availableAtMs == m'.availableAtMs && m.id ≤ m'.id

/-- The messages that `leasePending` selects. -/
def due (now : ℤ) (actorID : String) (limit : ℤ) (t : Messages P R) : List (Message P R) :=
  ((t.rows.filter fun m => m.actorID == actorID && m.status == .pending &&
    m.availableAtMs ≤ timeMs now && m.expiresAtMs.all (timeMs now < ·)).mergeSort before).take
    (if limit ≤ 0 then 100 else limit.toNat)

/-- The update statement of `leasePending` for one of the selected messages. -/
def markLeased (untilMs : ℤ) (t : Messages P R) (m : Message P R) : Messages P R :=
  t.update (·.key == m.key)
    (fun m => { m with status := .inFlight, availableAtMs := untilMs }) fun _ => rfl

/-- `leasePending`: the messages as they were read, and the table. -/
def leasePending (now : ℤ) (actorID : String) (limit leaseFor : ℤ) (t : Messages P R) :
    List (Message P R) × Messages P R :=
  (t.due now actorID limit,
    (t.due now actorID limit).foldl (markLeased (timeMs (now + leaseFor))) t)

/-- `markDone`. The id alone selects the rows. -/
def markDone (id : String) (status : Status) (result : Option R) (error : String)
    (t : Messages P R) : Messages P R :=
  t.update (·.id == id) (fun m => { m with status := status, result := result, error := error })
    fun _ => rfl

/-- `MarkFailed`. A message is tried again if its retry time is still to come. -/
def markFailed (now : ℤ) (id error : String) (retryAt : Option ℤ) (t : Messages P R) :
    Messages P R :=
  t.update (·.id == id) (fun m =>
    { m with
      status := if retryAt.any (now < ·) then .pending else .failed
      availableAtMs := timeMs (retryAt.getD now)
      error := error })
    fun _ => rfl

/-- The first statement of `requeueExpiredLeases`. -/
def requeueLeases (now : ℤ) (actorID : String) (t : Messages P R) : Messages P R :=
  t.update (fun m => m.actorID == actorID && m.status == .inFlight &&
    m.availableAtMs ≤ timeMs now && m.expiresAtMs.all (timeMs now < ·))
    (fun m => { m with status := .pending }) fun _ => rfl

/-- The second statement of `requeueExpiredLeases`. -/
def expireOverdue (now : ℤ) (actorID : String) (t : Messages P R) : Messages P R :=
  t.update (fun m => m.actorID == actorID && (m.status == .pending || m.status == .inFlight) &&
    m.expiresAtMs.any (· ≤ timeMs now))
    (fun m => { m with status := .expired }) fun _ => rfl

/-- A delete statement of `cleanupTable`; no type stands for the default rules. -/
def deleteOld (status : Status) (type : Option String) (cutoff : ℤ) (t : Messages P R) :
    Messages P R :=
  t.deleteWhere fun m => m.status == status && type.all (m.type == ·) && m.createdAtMs < cutoff

/-- The last statement of `cleanupTable`. -/
def redactOld (cutoff : ℤ) (t : Messages P R) : Messages P R :=
  t.update (fun m => (m.status == .failed || m.status == .expired || m.status == .acked) &&
    m.createdAtMs < cutoff) (fun m => { m with payload := none, result := none }) fun _ => rfl

end Messages

/-! ## Lifetimes -/

/-- `CleanupPolicy`, in nanoseconds. -/
structure CleanupPolicy where
  authAckedTTL : ℤ
  authSupersededTTL : ℤ
  authFailedTTL : ℤ
  runtimeAckedTTL : ℤ
  runtimeFailedTTL : ℤ
  onlineAckedTTL : ℤ
  onlineFailedTTL : ℤ
  trafficAckedTTL : ℤ
  trafficFailedTTL : ℤ
  defaultAckedTTL : ℤ
  defaultFailedTTL : ℤ
  defaultExpiredTTL : ℤ
  payloadRedactAfter : ℤ

def minute : ℤ := 60 * 1000000000

def hour : ℤ := 60 * minute

def defaultCleanupPolicy : CleanupPolicy where
  authAckedTTL := 15 * minute
  authSupersededTTL := 5 * minute
  authFailedTTL := hour
  runtimeAckedTTL := hour
  runtimeFailedTTL := 24 * hour
  onlineAckedTTL := 5 * minute
  onlineFailedTTL := 15 * minute
  trafficAckedTTL := hour
  trafficFailedTTL := 7 * 24 * hour
  defaultAckedTTL := hour
  defaultFailedTTL := 24 * hour
  defaultExpiredTTL := hour
  payloadRedactAfter := 24 * hour

/-- A rule of `cleanupTable`: what it deletes after which time. -/
structure CleanupRule where
  status : Status
  type : Option String
  ttl : ℤ

/-- The rules of `cleanupTable`, in their order. -/
def CleanupPolicy.rules (p : CleanupPolicy) : List CleanupRule :=
  [⟨.acked, some "auth_refresh", p.authAckedTTL⟩,
    ⟨.applied, some "auth_refresh", p.authAckedTTL⟩,
    ⟨.superseded, some "auth_refresh", p.authSupersededTTL⟩,
    ⟨.failed, some "auth_refresh", p.authFailedTTL⟩,
    ⟨.expired, some "auth_refresh", p.authFailedTTL⟩,
    ⟨.acked, some "runtime_command", p.runtimeAckedTTL⟩,
    ⟨.applied, some "runtime_command", p.runtimeAckedTTL⟩,
    ⟨.failed, some "runtime_command", p.runtimeFailedTTL⟩,
    ⟨.expired, some "runtime_command", p.runtimeFailedTTL⟩,
    ⟨.acked, some "online_snapshot", p.onlineAckedTTL⟩,
    ⟨.failed, some "online_snapshot", p.onlineFailedTTL⟩,
    ⟨.expired, some "online_snapshot", p.onlineFailedTTL⟩,
    ⟨.acked, some "traffic_batch", p.trafficAckedTTL⟩,
    ⟨.applied, some "traffic_batch", p.trafficAckedTTL⟩,
    ⟨.failed, some "traffic_batch", p.trafficFailedTTL⟩,
    ⟨.expired, some "traffic_batch", p.trafficFailedTTL⟩,
    ⟨.acked, none, p.defaultAckedTTL⟩,
    ⟨.applied, none, p.defaultAckedTTL⟩,
    ⟨.failed, none, p.defaultFailedTTL⟩,
    ⟨.expired, none, p.defaultExpiredTTL⟩]

/-- `nowMS - ttl.Milliseconds()`. -/
def cutoff (now ttl : ℤ) : ℤ := timeMs now - ttl.tdiv 1000000

/-! ## What the statements do to a row -/

variable {t : Messages P R} {m m' : Message P R}

/-- A message that waits or is under way. -/
def Message.Open (m : Message P R) : Prop := m.status = .pending ∨ m.status = .inFlight

variable {now : ℤ} {actorID error id : String} {p : Message P R → Bool}
  {f : Message P R → Message P R} {ms : List (Message P R)} {untilMs : ℤ} {retryAt : Option ℤ}
  {msg : NewMessage P R} {result : Option R} {status : Status} {replace : Bool}

namespace Messages

theorem of_mem_update (h : m' ∈ Table.update p f t.rows) (hf : ∀ m, (f m).key = m.key) :
    ∃ m ∈ t.rows, m'.key = m.key ∧ (p m = true ∧ m' = f m ∨ p m = false ∧ m' = m) := by
  obtain ⟨m, hm, rfl⟩ := Table.mem_update.1 h
  refine ⟨m, hm, ?_⟩
  cases hp : p m with
  | true => exact ⟨by simp [hf], .inl ⟨rfl, by simp⟩⟩
  | false => exact ⟨by simp, .inr ⟨rfl, by simp⟩⟩

theorem mem_update_of_mem (h : m ∈ t.rows) (hf : ∀ m, (f m).key = m.key) :
    ∃ m' ∈ Table.update p f t.rows, m'.key = m.key := by
  refine ⟨_, Table.mem_update_of_mem h, ?_⟩
  split
  · exact hf m
  · rfl

theorem of_mem_markDone (h : m' ∈ (t.markDone id status result error).rows) :
    ∃ m ∈ t.rows, m'.key = m.key ∧
      (m.id = id ∧ m' = { m with status := status, result := result, error := error } ∨
        m.id ≠ id ∧ m' = m) := by
  obtain ⟨m, hm, hk, hcase⟩ := of_mem_update h fun _ => rfl
  exact ⟨m, hm, hk, by simpa using hcase⟩

theorem of_mem_markFailed (h : m' ∈ (t.markFailed now id error retryAt).rows) :
    ∃ m ∈ t.rows, m'.key = m.key ∧
      (m.id = id ∧ m' = { m with
          status := if retryAt.any (now < ·) then .pending else .failed
          availableAtMs := timeMs (retryAt.getD now)
          error := error } ∨
        m.id ≠ id ∧ m' = m) := by
  obtain ⟨m, hm, hk, hcase⟩ := of_mem_update h fun _ => rfl
  exact ⟨m, hm, hk, by simpa using hcase⟩

theorem of_mem_requeueLeases (h : m' ∈ (t.requeueLeases now actorID).rows) :
    ∃ m ∈ t.rows, m'.key = m.key ∧
      (m.status = .inFlight ∧ m' = { m with status := .pending } ∨ m' = m) := by
  obtain ⟨m, hm, hk, ⟨hp, rfl⟩ | ⟨-, rfl⟩⟩ := of_mem_update h fun _ => rfl
  · simp only [Bool.and_eq_true, beq_iff_eq] at hp
    exact ⟨m, hm, hk, .inl ⟨hp.1.1.2, rfl⟩⟩
  · exact ⟨m', hm, hk, .inr rfl⟩

theorem of_mem_expireOverdue (h : m' ∈ (t.expireOverdue now actorID).rows) :
    ∃ m ∈ t.rows, m'.key = m.key ∧
      (m.expiresAtMs.isSome ∧ m' = { m with status := .expired } ∨ m' = m) := by
  obtain ⟨m, hm, hk, ⟨hp, rfl⟩ | ⟨-, rfl⟩⟩ := of_mem_update h fun _ => rfl
  · refine ⟨m, hm, hk, .inl ⟨?_, rfl⟩⟩
    cases hexp : m.expiresAtMs with
    | none => simp [hexp] at hp
    | some _ => rfl
  · exact ⟨m', hm, hk, .inr rfl⟩

theorem mem_markFailed_of_mem (h : m ∈ t.rows) :
    ∃ m' ∈ (t.markFailed now id error retryAt).rows, m'.key = m.key :=
  mem_update_of_mem h fun _ => rfl

theorem mem_markDone_of_mem (h : m ∈ t.rows) :
    ∃ m' ∈ (t.markDone id status result error).rows, m'.key = m.key :=
  mem_update_of_mem h fun _ => rfl

theorem eq_of_key (h : m ∈ t.rows) (h' : m' ∈ t.rows) (hk : m'.key = m.key) : m' = m :=
  t.keyed.eq_of_mem h' h hk

theorem pending_of_mem_due {limit : ℤ} (h : m ∈ t.due now actorID limit) :
    m ∈ t.rows ∧ m.actorID = actorID ∧ m.status = .pending := by
  have hm := List.mem_filter.1 ((List.mergeSort_perm _ _).subset (List.mem_of_mem_take h))
  simp only [Bool.and_eq_true, beq_iff_eq] at hm
  exact ⟨hm.1, hm.2.1.1⟩

/-- Leasing some messages marks their rows and leaves the others alone. -/
theorem of_mem_leased (h : m' ∈ (ms.foldl (markLeased untilMs) t).rows) :
    ∃ m ∈ t.rows, m'.key = m.key ∧ (m' = m ∧ (∀ l ∈ ms, l.key ≠ m.key) ∨
      m' = { m with status := .inFlight, availableAtMs := untilMs } ∧
        ∃ l ∈ ms, l.key = m.key) := by
  induction ms generalizing t with
  | nil => exact ⟨m', h, rfl, .inl ⟨rfl, by simp⟩⟩
  | cons l ms ih =>
    obtain ⟨m₁, hm₁, hk₁, hcase⟩ := ih h
    obtain ⟨m, hm, hk, hupd⟩ := of_mem_update hm₁ fun _ => rfl
    refine ⟨m, hm, hk₁.trans hk, ?_⟩
    rcases hupd with ⟨hp, rfl⟩ | ⟨hp, rfl⟩
    · -- the row of `l` itself; later updates of it change nothing more
      refine .inr ⟨?_, l, List.mem_cons_self, (eq_of_beq hp).symm⟩
      rcases hcase with ⟨rfl, -⟩ | ⟨rfl, -⟩ <;> rfl
    · rcases hcase with ⟨rfl, hnot⟩ | ⟨rfl, l', hl', hkl⟩
      · refine .inl ⟨rfl, fun l' hl' => ?_⟩
        rcases List.mem_cons.1 hl' with rfl | hl'
        · exact fun he => by simp [he] at hp
        · exact hnot l' hl'
      · exact .inr ⟨rfl, l', List.mem_cons_of_mem l hl', hkl⟩

theorem mem_leased_of_mem (h : m ∈ t.rows) :
    ∃ m' ∈ (ms.foldl (markLeased untilMs) t).rows, m'.key = m.key := by
  induction ms generalizing t m with
  | nil => exact ⟨m, h, rfl⟩
  | cons l ms ih =>
    obtain ⟨m₁, hm₁, hk₁⟩ := mem_update_of_mem (p := (·.key == l.key))
      (f := fun m => { m with status := .inFlight, availableAtMs := untilMs }) h fun _ => rfl
    obtain ⟨m', hm', hk'⟩ := ih (t := markLeased untilMs t l) hm₁
    exact ⟨m', hm', hk'.trans hk₁⟩

theorem of_mem_leasePending {limit leaseFor : ℤ}
    (h : m' ∈ (t.leasePending now actorID limit leaseFor).2.rows) :
    ∃ m ∈ t.rows, m'.key = m.key ∧ (m' = m ∨ m.status = .pending ∧
      m' = { m with status := .inFlight, availableAtMs := timeMs (now + leaseFor) }) := by
  obtain ⟨m, hm, hk, ⟨rfl, -⟩ | ⟨rfl, l, hl, hkl⟩⟩ := of_mem_leased h
  · exact ⟨m', hm, rfl, .inl rfl⟩
  · have hl' := pending_of_mem_due hl
    have heq := eq_of_key hm hl'.1 hkl
    exact ⟨m, hm, hk, .inr ⟨heq ▸ hl'.2.2, rfl⟩⟩

theorem write_absent (now : ℤ) (msg : NewMessage P R) :
    (t.write now false msg).rows = t.rows ∧ (∃ m ∈ t.rows, m.key = (msg.row now).key) ∨
      (t.write now false msg).rows = t.rows ++ [msg.row now] ∧
        ∀ m ∈ t.rows, m.key ≠ (msg.row now).key := by
  unfold write
  split
  · rename_i h
    exact .inr ⟨rfl, h⟩
  · rename_i h
    push Not at h
    exact .inl ⟨rfl, h⟩

theorem mem_write_of_ne (h : m ∈ t.rows) (hne : m.key ≠ msg.key) :
    m ∈ (t.write now replace msg).rows := by
  unfold write
  split
  · exact List.mem_append_left _ h
  · split
    · have hm := Table.mem_update_of_mem (p := fun m => m.key == (msg.row now).key) (f := fun m =>
        { msg.row now with actorID := m.actorID, id := m.id, createdAtMs := m.createdAtMs }) h
      rwa [if_neg (by simpa using hne)] at hm
    · exact h

theorem mem_write_replace (t : Messages P R) (now : ℤ) (msg : NewMessage P R) :
    ∃ m ∈ (t.write now true msg).rows, m = { msg.row now with createdAtMs := m.createdAtMs } := by
  unfold write
  split
  · exact ⟨msg.row now, List.mem_append_right _ (List.mem_singleton_self _), rfl⟩
  · rename_i h
    push Not at h
    obtain ⟨m, hm, hk⟩ := h
    rw [if_pos rfl]
    refine ⟨_, Table.mem_update_of_mem hm, ?_⟩
    rw [if_pos (beq_iff_eq.2 hk)]
    simp only [Message.key, Prod.mk.injEq] at hk
    rw [hk.1, hk.2]

section

variable (h : m ∈ t.rows)

include h

theorem mem_write_of_mem :
    ∃ m' ∈ (t.write now replace msg).rows, m'.key = m.key := by
  unfold write
  split
  · exact ⟨m, List.mem_append_left _ h, rfl⟩
  · split
    · exact mem_update_of_mem h fun _ => rfl
    · exact ⟨m, h, rfl⟩

theorem mem_update_of_not (hp : p m = false) : m ∈ Table.update p f t.rows := by
  simpa [hp] using Table.mem_update_of_mem (p := p) (f := f) h

theorem mem_leased_of_ne (hne : ∀ l ∈ ms, m.key ≠ l.key) :
    m ∈ (ms.foldl (markLeased untilMs) t).rows := by
  induction ms generalizing t with
  | nil => exact h
  | cons l ms ih =>
    refine ih (t := markLeased untilMs t l) ?_ fun l' hl' => hne l' (List.mem_cons_of_mem l hl')
    exact mem_update_of_not h (beq_eq_false_iff_ne.2 (hne l List.mem_cons_self))

theorem mem_requeueLeases (hstatus : m.status = .inFlight) (hlease : m.availableAtMs ≤ timeMs now)
    (hexp : ∀ e ∈ m.expiresAtMs, timeMs now < e) :
    { m with status := .pending } ∈ (t.requeueLeases now m.actorID).rows := by
  have hexp' : m.expiresAtMs.all (timeMs now < ·) = true := by
    cases he : m.expiresAtMs with
    | none => rfl
    | some e => simpa using hexp e he
  have hmem := Table.mem_update_of_mem (p := fun m' : Message P R => m'.actorID == m.actorID &&
    m'.status == .inFlight && m'.availableAtMs ≤ timeMs now && m'.expiresAtMs.all (timeMs now < ·))
    (f := fun m => { m with status := .pending }) h
  rwa [if_pos (by simp [hstatus, hlease, hexp'])] at hmem

end

end Messages

end LazGate.Queue
