import Mathlib

/-!
# Decimal numerals of fixed width

The lexicographic order of lists, and of the numerals that are padded with zeros to a width: on
these it is the order of the numbers.
-/

namespace LazGate.Decimal

/-! ## Lexicographic order -/

section Lex

variable {α : Type} [LinearOrder α]

theorem append_lt_append_iff {a a' b b' : List α} (h : a.length = a'.length) :
    a ++ b < a' ++ b' ↔ a < a' ∨ a = a' ∧ b < b' := by
  induction a generalizing a' with
  | nil =>
    cases a' with
    | nil => simp
    | cons x a' => cases h
  | cons x a ih =>
    cases a' with
    | nil => cases h
    | cons y a' =>
      have hlen : a.length = a'.length := Nat.succ.inj h
      rw [List.cons_append, List.cons_append, List.cons_lt_cons_iff, List.cons_lt_cons_iff,
        ih hlen, List.cons.injEq]
      tauto

theorem not_lt_replicate {c : α} {l : List α} (h : ∀ x ∈ l, c ≤ x) :
    ¬ l < List.replicate l.length c := by
  induction l with
  | nil => exact lt_irrefl _
  | cons x l ih =>
    have hx := h x List.mem_cons_self
    have hl := ih fun y hy => h y (List.mem_cons_of_mem x hy)
    rw [List.length_cons, List.replicate_succ, List.cons_lt_cons_iff]
    rintro (hlt | ⟨-, hlt⟩)
    · exact absurd hlt (not_lt.2 hx)
    · exact hl hlt

/-- The lists part: after a common beginning each goes on, with different elements. -/
def Part (u v : List α) : Prop :=
  ∃ c x y u' v', u = c ++ x :: u' ∧ v = c ++ y :: v' ∧ x ≠ y

theorem prefix_or_part (u v : List α) : u <+: v ∨ v <+: u ∨ Part u v := by
  induction u generalizing v with
  | nil => exact .inl List.nil_prefix
  | cons x u ih =>
    cases v with
    | nil => exact .inr (.inl List.nil_prefix)
    | cons y v =>
      by_cases hxy : x = y
      · subst hxy
        rcases ih v with h | h | ⟨c, a, b, u', v', rfl, rfl, hne⟩
        · exact .inl (List.cons_prefix_cons.2 ⟨rfl, h⟩)
        · exact .inr (.inl (List.cons_prefix_cons.2 ⟨rfl, h⟩))
        · exact .inr (.inr ⟨x :: c, a, b, u', v', rfl, rfl, hne⟩)
      · exact .inr (.inr ⟨[], x, y, u, v, rfl, rfl, hxy⟩)

/-- Lists that begin as two lists that part are ordered where these part. -/
theorem append_lt_append_of_part {u v s t s' t' : List α} (h : Part u v) :
    u ++ s < v ++ t ↔ u ++ s' < v ++ t' := by
  obtain ⟨c, x, y, u', v', rfl, rfl, hne⟩ := h
  simp only [List.append_assoc, List.cons_append, append_lt_append_iff rfl,
    List.cons_lt_cons_iff, hne, false_and, or_false]

end Lex

/-! ## Numerals -/

/-- The last `w` decimal digits of a number. -/
def padded : ℕ → ℕ → List Char
  | 0, _ => []
  | w + 1, n => padded w (n / 10) ++ [Nat.digitChar (n % 10)]

@[simp] theorem length_padded (w n : ℕ) : (padded w n).length = w := by
  induction w generalizing n with
  | zero => rfl
  | succ w ih => rw [padded, List.length_append, ih, List.length_singleton]

theorem digitChar_lt_iff : ∀ n < 10, ∀ m < 10, Nat.digitChar n < Nat.digitChar m ↔ n < m := by
  decide

theorem padded_lt_iff {w n m : ℕ} (hn : n < 10 ^ w) (hm : m < 10 ^ w) :
    padded w n < padded w m ↔ n < m := by
  induction w generalizing n m with
  | zero =>
    rw [pow_zero] at hn hm
    obtain rfl : n = m := by omega
    exact iff_of_false (lt_irrefl _) (lt_irrefl _)
  | succ w ih =>
    have hn' : n / 10 < 10 ^ w := by rw [pow_succ] at hn; omega
    have hm' : m / 10 < 10 ^ w := by rw [pow_succ] at hm; omega
    have heq : padded w (n / 10) = padded w (m / 10) ↔ n / 10 = m / 10 := by
      refine ⟨fun h => ?_, fun h => by rw [h]⟩
      by_contra hne
      rcases Nat.lt_or_gt_of_ne hne with hlt | hlt
      · exact absurd ((ih hn' hm').2 hlt) (h ▸ lt_irrefl _)
      · exact absurd ((ih hm' hn').2 hlt) (h ▸ lt_irrefl _)
    have hlast : [Nat.digitChar (n % 10)] < [Nat.digitChar (m % 10)] ↔ n % 10 < m % 10 := by
      rw [List.cons_lt_cons_iff, digitChar_lt_iff _ (by omega) _ (by omega)]
      simp
    rw [padded, padded, append_lt_append_iff (by simp), ih hn' hm', heq, hlast]
    omega

theorem padded_injective {w n m : ℕ} (hn : n < 10 ^ w) (hm : m < 10 ^ w)
    (h : padded w n = padded w m) : n = m := by
  rcases Nat.lt_trichotomy n m with hlt | heq | hlt
  · exact absurd ((padded_lt_iff hn hm).2 hlt) (h ▸ lt_irrefl _)
  · exact heq
  · exact absurd ((padded_lt_iff hm hn).2 hlt) (h ▸ lt_irrefl _)

theorem digitChar_range : ∀ n < 10, '0' ≤ Nat.digitChar n ∧ Nat.digitChar n ≤ '9' := by
  decide

theorem range_of_mem_padded {w n : ℕ} {c : Char} (h : c ∈ padded w n) : '0' ≤ c ∧ c ≤ '9' := by
  induction w generalizing n with
  | zero => cases h
  | succ w ih =>
    rcases List.mem_append.1 h with h | h
    · exact ih h
    · rw [List.mem_singleton.1 h]
      exact digitChar_range _ (Nat.mod_lt n (by decide))

/-- The usual numeral, padded with zeros. -/
theorem replicate_append_toDigits {w n : ℕ} (hw : 0 < w) (hn : n < 10 ^ w) :
    List.replicate (w - (Nat.toDigits 10 n).length) '0' ++ Nat.toDigits 10 n = padded w n := by
  induction w generalizing n with
  | zero => cases hw
  | succ w ih =>
    by_cases hsmall : n < 10
    · rw [Nat.toDigits_of_lt_base hsmall, padded, Nat.mod_eq_of_lt hsmall,
        Nat.div_eq_of_lt hsmall]
      congr 1
      clear ih hw hn
      induction w with
      | zero => rfl
      | succ w ih =>
        rw [padded, ← ih]
        exact List.replicate_succ'
    · have hten : 10 ≤ n := Nat.le_of_not_lt hsmall
      have hn' : n / 10 < 10 ^ w := by rw [pow_succ] at hn; omega
      have hw' : 0 < w := by
        rcases Nat.eq_zero_or_pos w with rfl | h
        · omega
        · exact h
      rw [Nat.toDigits_of_base_le (by decide) hten, padded, ← ih hw' hn', List.length_append,
        List.length_singleton, Nat.add_sub_add_right, List.append_assoc]

/-! ## Several numerals -/

/-- The numerals of the given widths, each behind its separator. -/
def fields : List (List Char × ℕ) → List ℕ → List Char
  | (sep, w) :: fs, n :: ns => sep ++ padded w n ++ fields fs ns
  | _, _ => []

/-- The numbers have the given widths. -/
def Fit : List (List Char × ℕ) → List ℕ → Prop
  | (_, w) :: fs, n :: ns => n < 10 ^ w ∧ Fit fs ns
  | [], [] => True
  | _, _ => False

variable {fs : List (List Char × ℕ)}

theorem length_fields {ns ms : List ℕ} (hn : Fit fs ns) (hm : Fit fs ms) :
    (fields fs ns).length = (fields fs ms).length := by
  induction fs generalizing ns ms with
  | nil => rfl
  | cons f fs ih =>
    cases ns with
    | nil => cases hn
    | cons n ns =>
      cases ms with
      | nil => cases hm
      | cons m ms => simp [fields, ih hn.2 hm.2]

/-- Texts of several numerals are ordered as the lists of the numbers. -/
theorem fields_lt_iff {ns ms : List ℕ} (hn : Fit fs ns) (hm : Fit fs ms) :
    fields fs ns < fields fs ms ↔ ns < ms := by
  induction fs generalizing ns ms with
  | nil =>
    cases ns with
    | nil =>
      cases ms with
      | nil => exact iff_of_false (lt_irrefl _) (lt_irrefl _)
      | cons m ms => cases hm
    | cons n ns => cases hn
  | cons f fs ih =>
    cases ns with
    | nil => cases hn
    | cons n ns =>
      cases ms with
      | nil => cases hm
      | cons m ms =>
        have heq : padded f.2 n = padded f.2 m ↔ n = m :=
          ⟨padded_injective hn.1 hm.1, fun h => by rw [h]⟩
        rw [fields, fields, List.append_assoc, List.append_assoc, append_lt_append_iff rfl,
          append_lt_append_iff (by simp), padded_lt_iff hn.1 hm.1, ih hn.2 hm.2, heq,
          List.cons_lt_cons_iff]
        simp

end LazGate.Decimal
