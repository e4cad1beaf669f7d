import LazGate.Queue

/-!
# Cleaning up the queue

`Cleanup` deletes old messages by a list of rules, first those for types of messages and then those
for all types, and clears the payloads of old ones.
-/

namespace LazGate.Queue

variable {P R : Type}

/-! ## The rules one after the other -/

/-- The statement of one rule; a rule without a lifetime is skipped. -/
def CleanupRule.apply (now : ℤ) (t : Messages P R) (rule : CleanupRule) : Messages P R :=
  if rule.ttl ≤ 0 then t else t.deleteOld rule.status rule.type (cutoff now rule.ttl)

def Messages.cleanupTable (policy : CleanupPolicy) (now : ℤ) (t : Messages P R) : Messages P R :=
  let t := policy.rules.foldl (CleanupRule.apply now) t
  if 0 < policy.payloadRedactAfter then t.redactOld (cutoff now policy.payloadRedactAfter) else t

/-- The two tables of the queue. -/
structure Transport (P R : Type) where
  outbox : Messages P R
  inbox : Messages P R

/-- `Cleanup`. The clock is read for each table. -/
def Transport.cleanup (policy : CleanupPolicy) (now now' : ℤ) (q : Transport P R) :
    Transport P R :=
  ⟨q.outbox.cleanupTable policy now, q.inbox.cleanupTable policy now'⟩

def CleanupRule.Deletes (now : ℤ) (m : Message P R) (rule : CleanupRule) : Prop :=
  0 < rule.ttl ∧ m.status = rule.status ∧ (∀ type ∈ rule.type, m.type = type) ∧
    m.createdAtMs < cutoff now rule.ttl

variable {now : ℤ} {t : Messages P R} {rule : CleanupRule} {m : Message P R}

theorem CleanupRule.mem_apply :
    m ∈ (rule.apply now t).rows ↔ m ∈ t.rows ∧ ¬ rule.Deletes now m := by
  have htype : rule.type.all (m.type == ·) = true ↔ ∀ type ∈ rule.type, m.type = type := by
    cases rule.type <;> simp
  rw [CleanupRule.apply, CleanupRule.Deletes]
  split
  · rename_i hskip
    exact ⟨fun hm => ⟨hm, fun h => absurd h.1 (not_lt.2 hskip)⟩, And.left⟩
  · rename_i hrule
    rw [Messages.deleteOld, Messages.deleteWhere, List.mem_filter]
    refine and_congr_right fun _ => ?_
    rw [Bool.not_eq_true', ← Bool.not_eq_true, Bool.and_eq_true, Bool.and_eq_true, beq_iff_eq,
      htype, decide_eq_true_eq]
    refine not_congr ⟨fun h => ⟨not_le.1 hrule, h.1.1, h.1.2, h.2⟩, fun h => ⟨⟨h.2.1, ?_⟩, h.2.2.2⟩⟩
    exact h.2.2.1

theorem mem_foldl_apply {rules : List CleanupRule} :
    m ∈ (rules.foldl (CleanupRule.apply now) t).rows ↔
      m ∈ t.rows ∧ ∀ rule ∈ rules, ¬ rule.Deletes now m := by
  induction rules generalizing t with
  | nil => simp
  | cons rule rules ih =>
    rw [List.foldl_cons, ih, CleanupRule.mem_apply, List.forall_mem_cons, and_assoc]

/-- The message is no longer in the table. -/
def Message.Gone (m : Message P R) (t : Messages P R) : Prop := ∀ m' ∈ t.rows, m'.key ≠ m.key

variable {policy : CleanupPolicy}

/-- The messages that the rules delete are the ones that are gone. -/
theorem Messages.gone_iff (hm : m ∈ t.rows) :
    m.Gone (t.cleanupTable policy now) ↔ ∃ rule ∈ policy.rules, rule.Deletes now m := by
  rw [cleanupTable]
  constructor
  · intro hgone
    by_contra hnone
    have hkept : m ∈ (policy.rules.foldl (CleanupRule.apply now) t).rows :=
      mem_foldl_apply.2 ⟨hm, fun rule hrule hdel => hnone ⟨rule, hrule, hdel⟩⟩
    split at hgone
    · -- clearing a payload leaves the key
      have hcleared := Table.mem_update_of_mem
        (p := fun m : Message P R => (m.status == .failed || m.status == .expired ||
          m.status == .acked) && m.createdAtMs < cutoff now policy.payloadRedactAfter)
        (f := fun m => { m with payload := none, result := none }) hkept
      refine hgone _ hcleared ?_
      split <;> rfl
    · exact hgone m hkept rfl
  · rintro ⟨rule, hrule, hdel⟩ m' hm' hkey
    obtain ⟨m₀, hm₀, hkey₀⟩ : ∃ m₀ ∈ (policy.rules.foldl (CleanupRule.apply now) t).rows,
        m₀.key = m'.key := by
      split at hm'
      · obtain ⟨m₀, hm₀, rfl⟩ := Table.mem_update.1 hm'
        exact ⟨m₀, hm₀, by split <;> rfl⟩
      · exact ⟨m', hm', rfl⟩
    obtain ⟨hrow, hkept⟩ := mem_foldl_apply.1 hm₀
    -- no other message of the table has the key
    obtain rfl := t.keyed.eq_of_mem hrow hm (hkey₀.trans hkey)
    exact hkept rule hrule hdel

/-! ## Lifetimes -/

def CleanupPolicy.ttl (policy : CleanupPolicy) (status : Status) (type : Option String) :
    Option ℤ :=
  ((policy.rules.find? fun rule => rule.status == status && rule.type == type).map (·.ttl)).filter
    (0 < ·)

/-- The lifetime of a message: the one of its type and status, and the default of the status if
there is none. -/
def CleanupPolicy.lifetime (policy : CleanupPolicy) (m : Message P R) : Option ℤ :=
  (policy.ttl m.status (some m.type)).or (policy.ttl m.status none)

/-- The age of a message by the clock of the queue, in nanoseconds. -/
def Message.age (now : ℤ) (m : Message P R) : ℤ := (timeMs now - m.createdAtMs) * 1000000

/-- A message older than the default of its status has outlived the lifetime that its type has for
the status, if any. -/
def CleanupPolicy.OwnFirst (policy : CleanupPolicy) (now : ℤ) (m : Message P R) : Prop :=
  ∀ own ∈ policy.ttl m.status (some m.type), ∀ default ∈ policy.ttl m.status none,
    m.createdAtMs < cutoff now default → own < m.age now

theorem CleanupPolicy.nodup_rules (policy : CleanupPolicy) :
    (policy.rules.map fun rule => (rule.status, rule.type)).Nodup := by
  have hsame : policy.rules.map (fun rule => (rule.status, rule.type)) =
      defaultCleanupPolicy.rules.map fun rule => (rule.status, rule.type) := rfl
  rw [hsame]
  decide

theorem CleanupPolicy.ttl_of_mem (hrule : rule ∈ policy.rules) (hpos : 0 < rule.ttl) :
    policy.ttl rule.status rule.type = some rule.ttl := by
  have hfind : policy.rules.find? (fun r => r.status == rule.status && r.type == rule.type) =
      some rule := by
    have hkeyed : Table.Keyed (fun rule : CleanupRule => (rule.status, rule.type)) policy.rules :=
      policy.nodup_rules
    have hkey := hkeyed.find?_eq hrule
    rwa [show (fun r : CleanupRule => (r.status, r.type) == (rule.status, rule.type)) =
      fun r => r.status == rule.status && r.type == rule.type from rfl] at hkey
  rw [ttl, hfind]
  simp [hpos]

theorem CleanupPolicy.pos_of_ttl {status : Status} {type : Option String} {ttl : ℤ}
    (h : policy.ttl status type = some ttl) : 0 < ttl := by
  rw [CleanupPolicy.ttl, Option.filter_eq_some_iff] at h
  exact of_decide_eq_true h.2

theorem CleanupPolicy.mem_of_ttl {status : Status} {type : Option String} {ttl : ℤ}
    (h : policy.ttl status type = some ttl) : ⟨status, type, ttl⟩ ∈ policy.rules := by
  rw [CleanupPolicy.ttl, Option.filter_eq_some_iff, Option.map_eq_some_iff] at h
  obtain ⟨⟨rule, hfind, rfl⟩, -⟩ := h
  have hkey := List.find?_some hfind
  simp only [Bool.and_eq_true, beq_iff_eq] at hkey
  obtain ⟨rfl, rfl⟩ := hkey
  exact List.mem_of_find?_eq_some hfind

theorem lt_age {now ttl : ℤ} (h : m.createdAtMs < cutoff now ttl) (hpos : 0 < ttl) :
    ttl < m.age now := by
  rw [cutoff, Int.tdiv_eq_ediv_of_nonneg hpos.le] at h
  rw [Message.age]
  omega

/-- The message has outlived its lifetime. -/
def CleanupPolicy.Outlived (policy : CleanupPolicy) (now : ℤ) (m : Message P R) : Prop :=
  ∃ ttl, policy.lifetime m = some ttl ∧ ttl < m.age now

/-- A message that a rule deletes has outlived its lifetime, unless the rule is a default that is
shorter than the lifetime. -/
theorem CleanupPolicy.outlived_of_deletes (hm : policy.OwnFirst now m) (hrule : rule ∈ policy.rules)
    (h : rule.Deletes now m) : policy.Outlived now m := by
  obtain ⟨hpos, hstatus, htype, hold⟩ := h
  have hrow := policy.ttl_of_mem hrule hpos
  cases hkind : rule.type with
  | some type =>
    have hown : policy.ttl m.status (some m.type) = some rule.ttl := by
      rw [hstatus, htype type hkind, ← hkind]
      exact hrow
    exact ⟨rule.ttl, by rw [lifetime, hown, Option.some_or], lt_age hold hpos⟩
  | none =>
    rw [hkind, ← hstatus] at hrow
    cases hown : policy.ttl m.status (some m.type) with
    | none => exact ⟨rule.ttl, by rw [lifetime, hown, hrow, Option.none_or], lt_age hold hpos⟩
    | some own =>
      exact ⟨own, by rw [lifetime, hown, Option.some_or], hm own hown rule.ttl hrow hold⟩

theorem CleanupPolicy.not_open_of_deletes (hrule : rule ∈ policy.rules) (h : rule.Deletes now m) :
    ¬ m.Open := by
  have hclosed : ∀ status ∈ policy.rules.map (·.status),
      status ≠ .pending ∧ status ≠ .inFlight := by
    have hsame : policy.rules.map (·.status) = defaultCleanupPolicy.rules.map (·.status) := rfl
    rw [hsame]
    decide
  have hstatus := hclosed rule.status (List.mem_map_of_mem hrule)
  rw [Message.Open, h.2.1]
  exact not_or.2 hstatus

/-- Only messages that have outlived their lifetime are deleted from the table. -/
def Messages.Respects (policy : CleanupPolicy) (now : ℤ) (t : Messages P R) : Prop :=
  ∀ m ∈ t.rows, m.Gone (t.cleanupTable policy now) → policy.Outlived now m

theorem Messages.respects_iff (t : Messages P R) (policy : CleanupPolicy) (now : ℤ) :
    t.Respects policy now ↔ ∀ m ∈ t.rows, policy.OwnFirst now m := by
  constructor
  · intro h m hm own hown default hdefault hold
    have hgone : m.Gone (t.cleanupTable policy now) :=
      (gone_iff hm).2 ⟨_, policy.mem_of_ttl hdefault, policy.pos_of_ttl hdefault, rfl, nofun, hold⟩
    obtain ⟨ttl, hlifetime, hlt⟩ := h m hm hgone
    rw [CleanupPolicy.lifetime, hown, Option.some_or] at hlifetime
    rwa [Option.some.inj hlifetime]
  · intro h m hm hgone
    obtain ⟨rule, hrule, hdel⟩ := (gone_iff hm).1 hgone
    exact policy.outlived_of_deletes (h m hm) hrule hdel

theorem Messages.not_open_of_gone (hm : m ∈ t.rows) (hgone : m.Gone (t.cleanupTable policy now)) :
    ¬ m.Open := by
  obtain ⟨rule, hrule, hdel⟩ := (gone_iff hm).1 hgone
  exact policy.not_open_of_deletes hrule hdel

/-- `Cleanup` deletes no message under way. It deletes only messages that have outlived the lifetime
of their type and status, just when no default of a status comes before that lifetime. -/
theorem cleanup_respects_lifetimes_iff (q : Transport P R) (policy : CleanupPolicy)
    (now now' : ℤ) :
    ((∀ m ∈ q.outbox.rows, m.Gone (q.cleanup policy now now').outbox → ¬ m.Open) ∧
      ∀ m ∈ q.inbox.rows, m.Gone (q.cleanup policy now now').inbox → ¬ m.Open) ∧
    (((∀ m ∈ q.outbox.rows, m.Gone (q.cleanup policy now now').outbox → policy.Outlived now m) ∧
        ∀ m ∈ q.inbox.rows, m.Gone (q.cleanup policy now now').inbox → policy.Outlived now' m) ↔
      (∀ m ∈ q.outbox.rows, policy.OwnFirst now m) ∧
        ∀ m ∈ q.inbox.rows, policy.OwnFirst now' m) :=
  ⟨⟨fun _ => Messages.not_open_of_gone, fun _ => Messages.not_open_of_gone⟩,
    and_congr (q.outbox.respects_iff policy now) (q.inbox.respects_iff policy now')⟩

/-! ## A day for every type -/

/-- A queue with one message of type `type`, which failed at time zero. -/
def oneFailed (type : String) : Transport Unit Unit :=
  ⟨⟨[⟨"node", "message", type, .failed, 0, none, 0, none, none, ""⟩], List.nodup_singleton _⟩,
    .empty⟩

/-- With the default policy a failed batch of traffic, which should stay for a week, is deleted
after a day, as every failed message is. -/
theorem cleanup_of_traffic_batch :
    ∃ m ∈ (oneFailed "traffic_batch").outbox.rows,
      m.Gone ((oneFailed "traffic_batch").cleanup defaultCleanupPolicy (25 * hour) 0).outbox ∧
      defaultCleanupPolicy.lifetime m = some (7 * 24 * hour) ∧ m.age (25 * hour) = 25 * hour := by
  unfold Message.Gone
  refine ⟨_, List.mem_singleton_self _, ?_⟩
  decide +kernel

end LazGate.Queue
