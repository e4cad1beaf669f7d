import LazGate.Lib.Calendar
import LazGate.Lib.Decimal
import LazGate.Server.Auth.Store

/-!
# Stored timestamps

Instants are stored as text by `ts` of `internal/server/storage/sqlite.go`, which leaves out the
trailing zeros of the fraction, and two queries compare these texts.
-/

namespace LazGate.Timestamps

open Calendar Decimal

/-! ## The text -/

/-- The whole seconds of an instant, since the first of January of the year 1. -/
def seconds (t : Time) : ℤ := t / second + 62135596800

def year (t : Time) : ℤ := (date (seconds t / 86400)).year

/-- `2006-01-02T15:04:05`. -/
def layout : List (List Char × ℕ) :=
  [([], 4), (['-'], 2), (['-'], 2), (['T'], 2), ([':'], 2), ([':'], 2)]

/-- The numbers of the layout for an instant, from its whole seconds. -/
def numbers (s : ℤ) : List ℕ :=
  [(date (s / 86400)).year.toNat, (date (s / 86400)).month, (date (s / 86400)).day,
    (s % 86400 / 3600).toNat, (s % 3600 / 60).toNat, (s % 60).toNat]

/-- `t.UTC().Format(time.RFC3339Nano)`, for the years 0 to 9999. -/
def ts (t : Time) : String :=
  String.ofList (fields layout (numbers (seconds t)) ++ fractionText t)

example : ts 0 = "1970-01-01T00:00:00Z" := by decide +kernel

example : ts 1709210096120000000 = "2024-02-29T12:34:56.12Z" := by decide +kernel

/-- The years that the text writes with four digits. -/
def InYears (t : Time) : Prop := 0 ≤ year t ∧ year t ≤ 9999

instance (t : Time) : Decidable (InYears t) := inferInstanceAs (Decidable (_ ∧ _))

/-! ## Whole seconds -/

variable {a b t : Time}

theorem fit_numbers (h : InYears t) : Fit layout (numbers (seconds t)) := by
  have hmonth := month_le (seconds t / 86400)
  have hday := day_le (seconds t / 86400)
  obtain ⟨hlow, hhigh⟩ := h
  rw [year] at hlow hhigh
  simp only [Fit, layout, numbers, and_true]
  omega

theorem numbers_lt {s s' : ℤ} (hs : 0 ≤ (date (s / 86400)).year) (h : s < s') :
    numbers s < numbers s' := by
  simp only [numbers, List.cons_lt_cons_iff, List.lt_irrefl, and_false, or_false]
  by_cases hday : s / 86400 < s' / 86400
  · rcases date_lt hday with hlt | ⟨heq, hlt | ⟨heq', hlt⟩⟩
    · exact .inl ((Int.toNat_lt_toNat (hs.trans_lt hlt)).2 hlt)
    · exact .inr ⟨by rw [heq], .inl hlt⟩
    · exact .inr ⟨by rw [heq], .inr ⟨heq', .inl hlt⟩⟩
  · have heq : s / 86400 = s' / 86400 := by omega
    have htime : (s % 86400 / 3600).toNat < (s' % 86400 / 3600).toNat ∨
        (s % 86400 / 3600).toNat = (s' % 86400 / 3600).toNat ∧
          ((s % 3600 / 60).toNat < (s' % 3600 / 60).toNat ∨
            (s % 3600 / 60).toNat = (s' % 3600 / 60).toNat ∧
              (s % 60).toNat < (s' % 60).toNat) := by
      omega
    rw [heq]
    exact .inr ⟨rfl, .inr ⟨rfl, .inr ⟨rfl, htime⟩⟩⟩

section

variable (ha : InYears a)

include ha

section

variable (hb : InYears b)

include hb

theorem fields_lt_iff_seconds :
    fields layout (numbers (seconds a)) < fields layout (numbers (seconds b)) ↔
      seconds a < seconds b := by
  rw [fields_lt_iff (fit_numbers ha) (fit_numbers hb)]
  constructor
  · intro h
    by_contra hle
    rcases (not_lt.1 hle).lt_or_eq with hlt | heq
    · exact lt_asymm h (numbers_lt hb.1 hlt)
    · exact lt_irrefl _ (heq ▸ h)
  · exact numbers_lt ha.1

theorem fields_eq_iff_seconds :
    fields layout (numbers (seconds a)) = fields layout (numbers (seconds b)) ↔
      seconds a = seconds b := by
  constructor
  · intro h
    apply le_antisymm
    · exact not_lt.1 fun hlt => (((fields_lt_iff_seconds hb ha).2 hlt).ne h.symm).elim
    · exact not_lt.1 fun hlt => (((fields_lt_iff_seconds ha hb).2 hlt).ne h).elim
  · intro h
    rw [h]

theorem ts_lt_iff :
    ts a < ts b ↔ seconds a < seconds b ∨
      seconds a = seconds b ∧ fractionText a < fractionText b := by
  rw [String.lt_iff_toList_lt, ts, ts, String.toList_ofList, String.toList_ofList,
    append_lt_append_iff (length_fields (fit_numbers ha) (fit_numbers hb)),
    fields_lt_iff_seconds ha hb, fields_eq_iff_seconds ha hb]

theorem stampLE_iff : stampLE a b = true ↔ ts a ≤ ts b := by
  have hlt : seconds a < seconds b ↔ a / second < b / second := add_lt_add_iff_right _
  have heq : seconds a = seconds b ↔ a / second = b / second := add_left_inj _
  rw [← not_lt, ts_lt_iff hb ha, stampLE, Bool.or_eq_true, Bool.and_eq_true, Bool.not_eq_true',
    decide_eq_true_eq, decide_eq_false_iff_not, beq_iff_eq, ← hlt, ← heq]
  rcases lt_trichotomy (seconds a) (seconds b) with h | h | h
  · simp [h, h.ne', h.le]
  · simp [h]
  · simp [h, h.ne', h.le]

end

end

/-! ## Fractions of a second -/

/-- The digits of the fraction of a second without their trailing zeros. -/
def fraction (t : Time) : List Char :=
  (padded 9 (t % second).toNat).rdropWhile (· == '0')

theorem fraction_lt : (t % second).toNat < 10 ^ 9 := by
  have hsecond : second = 1000000000 := rfl
  rw [hsecond]
  omega

theorem fractionText_eq (t : Time) :
    fractionText t = if fraction t = [] then ['Z'] else '.' :: fraction t ++ ['Z'] := by
  rw [fractionText, replicate_append_toDigits (by decide) fraction_lt, fraction]

theorem exists_padded_eq (t : Time) :
    ∃ n, padded 9 (t % second).toNat = fraction t ++ List.replicate n '0' := by
  generalize hzeros : (padded 9 (t % second).toNat).rtakeWhile (· == '0') = zeros
  have hall : zeros = List.replicate zeros.length '0' := by
    apply List.eq_replicate_of_mem
    intro c hc
    rw [← hzeros] at hc
    have hzero := List.mem_rtakeWhile_imp hc
    exact eq_of_beq hzero
  refine ⟨zeros.length, ?_⟩
  rw [fraction, ← hall, ← hzeros, List.rdropWhile_append_rtakeWhile]

theorem range_of_mem_fraction {c : Char} (h : c ∈ fraction t) : '0' ≤ c ∧ c ≤ '9' :=
  range_of_mem_padded ((List.rdropWhile_prefix _ _).subset h)

theorem eq_of_seconds (hsec : seconds a = seconds b)
    (hrest : (a % second).toNat = (b % second).toNat) : a = b := by
  have hpos : (0 : ℤ) < second := by decide
  have ha := Int.emod_nonneg a hpos.ne'
  have hb := Int.emod_nonneg b hpos.ne'
  have hmod : a % second = b % second := by
    rw [← Int.toNat_of_nonneg ha, ← Int.toNat_of_nonneg hb, hrest]
  have hdiv : a / second = b / second := add_right_cancel hsec
  rw [← Int.mul_ediv_add_emod a second, ← Int.mul_ediv_add_emod b second, hmod, hdiv]

theorem fraction_eq_iff (hsec : seconds a = seconds b) : fraction a = fraction b ↔ a = b := by
  constructor
  · intro h
    obtain ⟨n, hn⟩ := exists_padded_eq a
    obtain ⟨m, hm⟩ := exists_padded_eq b
    have hlen : n = m := by
      have hna := congrArg List.length hn
      have hmb := congrArg List.length hm
      simp only [length_padded, List.length_append, List.length_replicate, h] at hna hmb
      omega
    apply eq_of_seconds hsec
    apply padded_injective fraction_lt fraction_lt
    rw [hn, hm, h, hlen]
  · intro h
    rw [h]

theorem lt_of_seconds_lt (h : seconds a < seconds b) : a < b := by
  by_contra hle
  have hdiv : b / second ≤ a / second := Int.ediv_le_ediv (by decide) (not_lt.1 hle)
  exact absurd (add_lt_add_iff_right _ |>.1 h) (not_lt.2 hdiv)

section

variable (hsec : seconds a = seconds b)

include hsec

theorem lt_iff_padded_lt :
    a < b ↔ padded 9 (a % second).toNat < padded 9 (b % second).toNat := by
  have hpos : (0 : ℤ) < second := by decide
  have ha := Int.emod_nonneg a hpos.ne'
  have hb := Int.emod_nonneg b hpos.ne'
  have hdiv : a / second = b / second := add_right_cancel hsec
  have heqa := Int.mul_ediv_add_emod a second
  have heqb := Int.mul_ediv_add_emod b second
  rw [padded_lt_iff fraction_lt fraction_lt, ← Int.ofNat_lt, Int.toNat_of_nonneg ha,
    Int.toNat_of_nonneg hb]
  conv_lhs => rw [← heqa, ← heqb, hdiv]
  exact add_lt_add_iff_left _

/-- A fraction that goes on is later, and its text comes first: a digit stands before the `Z`. -/
theorem reversed_of_prefix (hpre : fraction a <+: fraction b) (hne : fraction a ≠ fraction b) :
    a < b ∧ fractionText b < fractionText a := by
  obtain ⟨rest, hrest⟩ := hpre
  have hb : ∀ c ∈ rest, '0' ≤ c ∧ c ≤ '9' := fun c hc =>
    range_of_mem_fraction (t := b) (hrest ▸ List.mem_append_right _ hc)
  obtain ⟨n, hn⟩ := exists_padded_eq a
  obtain ⟨m, hm⟩ := exists_padded_eq b
  constructor
  · have hlen : n = (rest ++ List.replicate m '0').length := by
      have hna := congrArg List.length hn
      have hmb := congrArg List.length hm
      simp only [length_padded, List.length_append, List.length_replicate, ← hrest] at hna hmb ⊢
      omega
    have hle : ¬ rest ++ List.replicate m '0' < List.replicate n '0' := by
      rw [hlen]
      apply not_lt_replicate
      intro c hc
      rcases List.mem_append.1 hc with hc | hc
      · exact (hb c hc).1
      · exact (List.eq_of_mem_replicate hc).ge
    have hab : ¬ b < a := by
      rw [lt_iff_padded_lt hsec.symm, hn, hm, ← hrest, List.append_assoc,
        append_lt_append_iff rfl]
      rintro (hlt | ⟨-, hlt⟩)
      · exact lt_irrefl _ hlt
      · exact hle hlt
    exact lt_of_le_of_ne (not_lt.1 hab) fun heq => hne ((fraction_eq_iff hsec).2 heq)
  · cases rest with
    | nil => exact absurd (by rw [← hrest, List.append_nil]) hne
    | cons c rest =>
      have hc : c < 'Z' := lt_of_le_of_lt (hb c List.mem_cons_self).2 (by decide)
      rw [fractionText_eq a, fractionText_eq b, ← hrest]
      by_cases hnil : fraction a = []
      · simp only [hnil, List.nil_append, reduceCtorEq, if_true, if_false]
        exact List.cons_lt_cons_iff.2 (.inl (by decide))
      · rw [if_neg hnil, if_neg (by simp)]
        rw [List.cons_append, List.cons_append, List.cons_lt_cons_iff, List.append_assoc,
          append_lt_append_iff rfl]
        exact .inr ⟨rfl, .inr ⟨rfl, List.cons_lt_cons_iff.2 (.inl hc)⟩⟩

theorem fractionText_lt_iff (hpart : Part (fraction a) (fraction b)) :
    fractionText a < fractionText b ↔ a < b := by
  have hne : fraction a ≠ [] ∧ fraction b ≠ [] := by
    obtain ⟨c, x, y, u, v, hu, hv, -⟩ := hpart
    simp [hu, hv]
  obtain ⟨n, hn⟩ := exists_padded_eq a
  obtain ⟨m, hm⟩ := exists_padded_eq b
  rw [lt_iff_padded_lt hsec, hn, hm, fractionText_eq a, fractionText_eq b, if_neg hne.1,
    if_neg hne.2, List.cons_append, List.cons_append, List.cons_lt_cons_iff]
  simp only [lt_irrefl, false_or, true_and]
  exact append_lt_append_of_part hpart

end

/-! ## The order of the texts -/

/-- The instants lie in different seconds, or neither fraction goes on where the other ends. -/
def OrderKept (a b : Time) : Prop :=
  seconds a = seconds b → fraction a <+: fraction b ∨ fraction b <+: fraction a →
    fraction a = fraction b

instance (a b : Time) : Decidable (OrderKept a b) := inferInstanceAs (Decidable (_ → _ → _))

theorem ts_le_iff_of_orderKept (ha : InYears a) (hb : InYears b) (hkept : OrderKept a b) :
    ts a ≤ ts b ↔ a ≤ b := by
  rw [← not_lt, ← not_lt, not_iff_not, ts_lt_iff hb ha]
  rcases lt_trichotomy (seconds b) (seconds a) with h | h | h
  · exact iff_of_true (.inl h) (lt_of_seconds_lt h)
  · have hpart : Part (fraction b) (fraction a) ∨ fraction a = fraction b := by
      rcases prefix_or_part (fraction b) (fraction a) with hp | hp | hp
      · exact .inr (hkept h.symm (.inr hp))
      · exact .inr (hkept h.symm (.inl hp))
      · exact .inl hp
    rcases hpart with hp | heq
    · rw [fractionText_lt_iff h hp]
      simp [h]
    · obtain rfl := (fraction_eq_iff h.symm).1 heq
      simp
  · exact iff_of_false (by rintro (h' | ⟨h', -⟩) <;> omega) (lt_of_seconds_lt h).asymm

theorem orderKept_of_ts_le_iff (ha : InYears a) (hb : InYears b) (h : ts a ≤ ts b ↔ a ≤ b) :
    OrderKept a b := by
  intro hsec hpre
  by_contra hne
  rcases hpre with hp | hp
  · have hrev := reversed_of_prefix hsec hp hne
    have hts : ts b < ts a := (ts_lt_iff hb ha).2 (.inr ⟨hsec.symm, hrev.2⟩)
    exact absurd (h.2 hrev.1.le) (not_le.2 hts)
  · have hrev := reversed_of_prefix hsec.symm hp (Ne.symm hne)
    have hts : ts a < ts b := (ts_lt_iff ha hb).2 (.inr ⟨hsec, hrev.2⟩)
    exact absurd (h.1 hts.le) (not_le.2 hrev.1)

/-! ## The queries -/

/-- The columns that `FindActiveSystemOwnerInvite` reads beside those of the invite. -/
structure InviteRow extends AdminInvite where
  invitedByIdentityID : Option String
  invitedByLoginSnapshot : String
  createdAt : Time
  deriving DecidableEq

/-- `order by created_at desc limit 1`, by the stored texts. -/
def newest : List InviteRow → Option InviteRow
  | [] => none
  | row :: rows =>
    match newest rows with
    | none => some row
    | some other => if ts row.createdAt < ts other.createdAt then some other else some row

/-- The query of `FindActiveSystemOwnerInvite`, for a test of the expiry. -/
def systemOwnerInvite (live : Time → Bool) (rows : List InviteRow) : Option InviteRow :=
  newest (rows.filter fun row => row.status == .active && row.role == .owner &&
    row.invitedByIdentityID.isNone && row.invitedByLoginSnapshot == "system" &&
      live row.expiresAt)

def findActiveSystemOwnerInvite (at' : Time) : List InviteRow → Option InviteRow :=
  systemOwnerInvite fun expiresAt => ts at' < ts expiresAt

def findByExpiryInstant (at' : Time) : List InviteRow → Option InviteRow :=
  systemOwnerInvite fun expiresAt => at' < expiresAt

/-- The condition of `rotatable` with the rotation compared as an instant. -/
def rotatableByInstant (now grace : Time) (r : AuthRefreshToken) : Bool :=
  r.status == .active || (r.status == .rotated && match r.rotatedAt with
    | none => false
    | some rotated => now - grace ≤ rotated)

def lookupByInstant (now : Time) (refreshHash : String) (grace : Time) (t : SessionTables) :
    Option AuthSession :=
  t.sessions.find? fun s => s.status == .active && t.refreshTokens.any fun r =>
    r.sessionID == s.id && r.tokenHash == refreshHash && rotatableByInstant now grace r

theorem rotatable_eq {now grace : Time} {r : AuthRefreshToken} (hnow : InYears (now - grace))
    (h : ∀ x ∈ r.rotatedAt, InYears x ∧ OrderKept (now - grace) x) :
    SessionTables.rotatable now grace r = rotatableByInstant now grace r := by
  rw [SessionTables.rotatable, rotatableByInstant]
  cases hr : r.rotatedAt with
  | none => rfl
  | some x =>
    obtain ⟨hx, hkept⟩ := h x hr
    have hsame : stampLE (now - grace) x = decide (now - grace ≤ x) := by
      rw [Bool.eq_iff_iff, decide_eq_true_eq, stampLE_iff hnow hx]
      exact ts_le_iff_of_orderKept hnow hx hkept
    simp only [hsame]

theorem lookup_eq {now grace : Time} {hash : String} {t : SessionTables}
    (hnow : InYears (now - grace))
    (h : ∀ r ∈ t.refreshTokens, ∀ x ∈ r.rotatedAt, InYears x ∧ OrderKept (now - grace) x) :
    t.getAuthSessionByRefreshHashForRotation now hash grace =
      lookupByInstant now hash grace t := by
  have hany : ∀ s : AuthSession, (t.refreshTokens.any fun r => r.sessionID == s.id &&
      r.tokenHash == hash && SessionTables.rotatable now grace r) =
      t.refreshTokens.any fun r => r.sessionID == s.id &&
        r.tokenHash == hash && rotatableByInstant now grace r := by
    intro s
    rw [Bool.eq_iff_iff, List.any_eq_true, List.any_eq_true]
    refine exists_congr fun r => and_congr_right fun hr => ?_
    rw [rotatable_eq hnow (h r hr)]
  simp only [SessionTables.getAuthSessionByRefreshHashForRotation, lookupByInstant, hany]

theorem findActiveSystemOwnerInvite_eq {at' : Time} {rows : List InviteRow} (hat : InYears at')
    (h : ∀ row ∈ rows, InYears row.expiresAt ∧ OrderKept row.expiresAt at') :
    findActiveSystemOwnerInvite at' rows = findByExpiryInstant at' rows := by
  rw [findActiveSystemOwnerInvite, findByExpiryInstant, systemOwnerInvite, systemOwnerInvite]
  refine congrArg newest (List.filter_congr ?_)
  intro row hrow
  have hsame : decide (ts at' < ts row.expiresAt) = decide (at' < row.expiresAt) := by
    rw [decide_eq_decide, ← not_le, ← not_le, not_iff_not]
    exact ts_le_iff_of_orderKept (h row hrow).1 hat (h row hrow).2
  rw [hsame]

/-- The texts of two instants are ordered as these exactly where neither fraction goes on where the
other ends; there both queries answer as on instants. -/
theorem ts_order_iff (a b : Time) (ha : InYears a) (hb : InYears b) :
    ((ts a ≤ ts b ↔ a ≤ b) ↔ OrderKept a b) ∧
    (∀ (t : SessionTables) (now grace : Time) (hash : String), InYears (now - grace) →
      (∀ r ∈ t.refreshTokens, ∀ x ∈ r.rotatedAt, InYears x ∧ OrderKept (now - grace) x) →
      t.getAuthSessionByRefreshHashForRotation now hash grace =
        lookupByInstant now hash grace t) ∧
    (∀ (rows : List InviteRow) (at' : Time), InYears at' →
      (∀ row ∈ rows, InYears row.expiresAt ∧ OrderKept row.expiresAt at') →
      findActiveSystemOwnerInvite at' rows = findByExpiryInstant at' rows) := by
  refine ⟨⟨orderKept_of_ts_le_iff ha hb, ts_le_iff_of_orderKept ha hb⟩, ?_, ?_⟩
  · intro t now grace hash hnow h
    exact lookup_eq hnow h
  · intro rows at' hat h
    exact findActiveSystemOwnerInvite_eq hat h

def bootstrapInvite (expiresAt : Time) : InviteRow where
  id := "invite"
  tokenHash := "token"
  codeHash := "code"
  role := .owner
  status := .active
  expiresAt := expiresAt
  usedByIdentityID := ""
  invitedByIdentityID := none
  invitedByLoginSnapshot := "system"
  createdAt := 0

theorem ts_order_tenth : ts 100000000 ≤ ts 200000000 ∧
    findActiveSystemOwnerInvite 0 [bootstrapInvite second] = some (bootstrapInvite second) := by
  have horder := ts_order_iff 100000000 200000000 (by decide) (by decide)
  constructor
  · exact (horder.1.2 (by decide)).2 (by decide)
  · rw [horder.2.2 [bootstrapInvite second] 0 (by decide) (by decide)]
    decide

/-- An invite that expired 20 ms before is found, and one that is good for 20 ms more is not. -/
theorem ts_order_reversed :
    ¬ (ts 100000000 ≤ ts 120000000 ↔ (100000000 : Time) ≤ 120000000) ∧
    findActiveSystemOwnerInvite 120000000 [bootstrapInvite 100000000] ≠
      findByExpiryInstant 120000000 [bootstrapInvite 100000000] ∧
    findActiveSystemOwnerInvite 100000000 [bootstrapInvite 120000000] ≠
      findByExpiryInstant 100000000 [bootstrapInvite 120000000] := by
  decide +kernel

end LazGate.Timestamps
