import Mathlib

/-!
# Replacing a pattern

`replaceAll` puts a text in the place of a pattern, from left to right and without overlaps. What
cannot overlap the new text stands in the result just when it stands in one of the pieces between
the matches.
-/

namespace Replace

variable {α : Type}

/-- `skip` counts the elements of the last match that are still to be passed over. -/
def replaceAll [DecidableEq α] (old new : List α) : ℕ → List α → List α
  | _, [] => []
  | skip + 1, _ :: l => replaceAll old new skip l
  | 0, a :: l =>
    if old <+: a :: l then new ++ replaceAll old new (old.length - 1) l
    else a :: replaceAll old new 0 l

theorem replaceAll_singleton [DecidableEq α] (a : α) (new l : List α) :
    replaceAll [a] new 0 l = l.flatMap fun b => if b = a then new else [b] := by
  induction l with
  | nil => rfl
  | cons b l ih =>
    rw [replaceAll, List.flatMap_cons, ← ih]
    by_cases hb : b = a
    · simp [hb]
    · simp [hb, Ne.symm hb]

/-- What stands between the matches that are replaced. -/
def pieces [DecidableEq α] (old : List α) : ℕ → List α → List (List α)
  | _, [] => [[]]
  | skip + 1, _ :: l => pieces old skip l
  | 0, a :: l =>
    if old <+: a :: l then [] :: pieces old (old.length - 1) l
    else (pieces old 0 l).modifyHead (a :: ·)

/-- No end of `t` is a beginning of `new`, and `new` does not stand in `t`. -/
structure Before (t new : List α) : Prop where
  around : ¬ new <:+: t
  back : ∀ u, u ≠ [] → u <:+ t → ¬ u <+: new

/-- A text that can stand beside `new` but cannot overlap it. -/
structure Apart (t new : List α) : Prop extends Before t new where
  inside : ¬ t <:+: new
  front : ∀ u, u ≠ [] → u <+: t → ¬ u <:+ new

variable {old new t u w p l rest : List α} {ps qs : List (List α)} {a : α}

theorem Apart.of_forall (ht : t ≠ []) (hnew : new ≠ []) (h : ∀ a ∈ t, a ∉ new) : Apart t new where
  around hin :=
    have ⟨a, ha⟩ := List.exists_mem_of_ne_nil new hnew
    h a (hin.subset ha) ha
  inside hin :=
    have ⟨a, ha⟩ := List.exists_mem_of_ne_nil t ht
    h a ha (hin.subset ha)
  front u hu hfront hin :=
    have ⟨a, ha⟩ := List.exists_mem_of_ne_nil u hu
    h a (hfront.subset ha) (hin.subset ha)
  back u hu hback hin :=
    have ⟨a, ha⟩ := List.exists_mem_of_ne_nil u hu
    h a (hback.subset ha) (hin.subset ha)

theorem Apart.cons (h : Apart t new) (ha : a ∉ new) : Apart (a :: t) new where
  around hin := by
    rcases List.infix_cons_iff.1 hin with hpre | hin
    · rcases List.prefix_cons_iff.1 hpre with rfl | ⟨u, rfl, -⟩
      · exact h.around List.nil_infix
      · exact ha List.mem_cons_self
    · exact h.around hin
  back u hu hsuffix hpre := by
    rcases List.suffix_cons_iff.1 hsuffix with rfl | hsuffix
    · exact ha (hpre.subset List.mem_cons_self)
    · exact h.back u hu hsuffix hpre
  inside hin := ha (hin.subset List.mem_cons_self)
  front u hu hpre hsuffix := by
    rcases List.prefix_cons_iff.1 hpre with rfl | ⟨u, rfl, -⟩
    · exact hu rfl
    · exact ha (hsuffix.subset List.mem_cons_self)

theorem Apart.concat (h : Apart t new) (ha : a ∉ new) : Apart (t ++ [a]) new where
  around hin := by
    rcases List.infix_concat_iff.1 hin with hsuffix | hin
    · rcases List.suffix_concat_iff.1 hsuffix with rfl | ⟨u, rfl, -⟩
      · exact h.around List.nil_infix
      · exact ha (List.mem_append_right _ List.mem_cons_self)
    · exact h.around hin
  back u hu hsuffix hpre := by
    rcases List.suffix_concat_iff.1 hsuffix with rfl | ⟨u, rfl, -⟩
    · exact hu rfl
    · exact ha (hpre.subset (List.mem_append_right _ List.mem_cons_self))
  inside hin := ha (hin.subset (List.mem_append_right _ List.mem_cons_self))
  front u hu hpre hsuffix := by
    rcases List.prefix_concat_iff.1 hpre with rfl | hpre
    · exact ha (hsuffix.subset (List.mem_append_right _ List.mem_cons_self))
    · exact h.front u hu hpre hsuffix

/-- A text stays apart with elements around it that the new one has not. -/
theorem Apart.around_append (h : Apart t new) (hu : ∀ a ∈ u, a ∉ new) (hw : ∀ a ∈ w, a ∉ new) :
    Apart (u ++ (t ++ w)) new := by
  have hback : Apart (t ++ w) new := by
    induction w generalizing t with
    | nil => rwa [List.append_nil]
    | cons a w ih =>
      rw [List.append_cons]
      exact ih (h.concat (hw a List.mem_cons_self)) fun b hb => hw b (List.mem_cons_of_mem a hb)
  induction u with
  | nil => exact hback
  | cons a u ih =>
    exact (ih fun b hb => hu b (List.mem_cons_of_mem a hb)).cons (hu a List.mem_cons_self)

/-- What begins before the new text begins and ends there. -/
theorem Before.prefix_append_iff (h : Before t new) : t <+: p ++ (new ++ rest) ↔ t <+: p := by
  refine ⟨fun hpre => ?_, fun hpre => hpre.trans (List.prefix_append p _)⟩
  rcases List.prefix_or_prefix_of_prefix hpre (List.prefix_append p _) with hpre' | ⟨u, rfl⟩
  · exact hpre'
  · by_cases hu : u = []
    · rw [hu, List.append_nil]
    · rw [List.prefix_append_right_inj] at hpre
      rcases List.prefix_or_prefix_of_prefix hpre (List.prefix_append new rest) with hin | hin
      · exact absurd hin (h.back u hu (List.suffix_append p u))
      · exact absurd (hin.isInfix.trans (List.suffix_append p u).isInfix) h.around

/-- Nothing apart from it begins in the new text. -/
theorem Apart.not_prefix (h : Apart t new) (hw : a :: w <:+ new) : ¬ t <+: a :: w ++ rest := by
  intro hpre
  rcases List.prefix_or_prefix_of_prefix hpre (List.prefix_append (a :: w) rest) with hin | hin
  · exact h.inside (hin.isInfix.trans hw.isInfix)
  · exact h.front _ (List.cons_ne_nil a w) hin hw

theorem Apart.infix_append_iff (h : Apart t new) :
    t <:+: p ++ (new ++ rest) ↔ t <:+: p ∨ t <:+: rest := by
  have hnil : ¬ t <:+: [] := fun hin => h.inside (hin.trans List.nil_infix)
  have hnew : ∀ w, w <:+ new → (t <:+: w ++ rest ↔ t <:+: rest) := by
    intro w hw
    induction w with
    | nil => rfl
    | cons a w ih =>
      rw [List.cons_append, List.infix_cons_iff, ← List.cons_append,
        or_iff_right (h.not_prefix hw)]
      exact ih ((List.suffix_cons a w).trans hw)
  induction p with
  | nil => rw [List.nil_append, hnew new (List.suffix_refl new), or_iff_right hnil]
  | cons a p ih =>
    rw [List.cons_append, List.infix_cons_iff, ← List.cons_append, h.prefix_append_iff,
      List.infix_cons_iff, or_assoc]
    exact or_congr_right ih

theorem intercalate_cons (p : List α) (hps : ps ≠ []) :
    new.intercalate (p :: ps) = p ++ (new ++ new.intercalate ps) := by
  obtain ⟨q, qs, rfl⟩ := List.exists_cons_of_ne_nil hps
  simp [List.intercalate]

theorem intercalate_append (hps : ps ≠ []) (hqs : qs ≠ []) :
    new.intercalate (ps ++ qs) = new.intercalate ps ++ (new ++ new.intercalate qs) := by
  induction ps with
  | nil => exact absurd rfl hps
  | cons p ps ih =>
    rw [List.cons_append, intercalate_cons p (List.append_ne_nil_of_right_ne_nil ps hqs)]
    by_cases hnil : ps = []
    · simp [hnil, List.intercalate]
    · rw [ih hnil, intercalate_cons p hnil, List.append_assoc, List.append_assoc]

/-- A text stands in a result just when it stands in one of the pieces. -/
theorem Apart.infix_intercalate_iff (h : Apart t new) (hps : ps ≠ []) :
    t <:+: new.intercalate ps ↔ ∃ p ∈ ps, t <:+: p := by
  induction ps with
  | nil => exact absurd rfl hps
  | cons p ps ih =>
    rw [List.exists_mem_cons_iff]
    by_cases hnil : ps = []
    · simp [hnil, List.intercalate]
    · rw [intercalate_cons p hnil, h.infix_append_iff, ih hnil]

variable [DecidableEq α]

theorem pieces_ne_nil (old : List α) (skip : ℕ) (l : List α) : pieces old skip l ≠ [] := by
  induction l generalizing skip with
  | nil => cases skip <;> exact List.cons_ne_nil _ _
  | cons a l ih =>
    cases skip with
    | succ skip => exact ih skip
    | zero =>
      rw [pieces]
      split
      · exact List.cons_ne_nil _ _
      · obtain ⟨p, ps, hps⟩ := List.exists_cons_of_ne_nil (ih 0)
        rw [hps]
        exact List.cons_ne_nil _ _

theorem replaceAll_eq (old new : List α) (skip : ℕ) (l : List α) :
    replaceAll old new skip l = new.intercalate (pieces old skip l) := by
  induction l generalizing skip with
  | nil => cases skip <;> rfl
  | cons a l ih =>
    cases skip with
    | succ skip => exact ih skip
    | zero =>
      rw [replaceAll, pieces]
      split
      · rw [intercalate_cons _ (pieces_ne_nil old _ l), ih]
        rfl
      · rw [ih]
        obtain ⟨p, ps, hps⟩ := List.exists_cons_of_ne_nil (pieces_ne_nil old 0 l)
        rw [hps, List.modifyHead_cons]
        cases ps <;> simp [List.intercalate]

/-- The matches before the new text and after it are found apart from each other. -/
theorem Apart.replaceAll_append (h : Apart old new) {skip : ℕ} (hskip : skip ≤ p.length) :
    replaceAll old new skip (p ++ (new ++ rest)) =
      replaceAll old new skip p ++ (new ++ replaceAll old new 0 rest) := by
  have hnew : ∀ w, w <:+ new →
      replaceAll old new 0 (w ++ rest) = w ++ replaceAll old new 0 rest := by
    intro w hw
    induction w with
    | nil => rfl
    | cons a w ih =>
      rw [List.cons_append, replaceAll, ← List.cons_append, if_neg (h.not_prefix hw),
        ih ((List.suffix_cons a w).trans hw), List.cons_append]
  induction p generalizing skip with
  | nil =>
    obtain rfl : skip = 0 := Nat.le_zero.1 hskip
    exact hnew new (List.suffix_refl new)
  | cons a p ih =>
    cases skip with
    | succ skip => exact ih (Nat.le_of_succ_le_succ hskip)
    | zero =>
      rw [List.cons_append, replaceAll, replaceAll, ← List.cons_append]
      simp only [h.prefix_append_iff]
      split
      · rename_i hpre
        have hlength := hpre.length_le
        rw [ih (by rw [List.length_cons] at hlength; omega), List.append_assoc]
      · rw [ih (Nat.zero_le _), List.cons_append]

/-- A replacement in a result cuts each of its pieces. -/
theorem Apart.replaceAll_intercalate (h : Apart old new) (hps : ps ≠ []) :
    replaceAll old new 0 (new.intercalate ps) = new.intercalate (ps.flatMap (pieces old 0)) := by
  induction ps with
  | nil => exact absurd rfl hps
  | cons p ps ih =>
    rw [List.flatMap_cons]
    by_cases hnil : ps = []
    · simp only [hnil, List.flatMap_nil, List.append_nil, ← replaceAll_eq]
      simp [List.intercalate]
    · obtain ⟨q, qs, rfl⟩ := List.exists_cons_of_ne_nil hnil
      rw [intercalate_cons p hnil, h.replaceAll_append (Nat.zero_le _), ih hnil,
        intercalate_append (pieces_ne_nil old 0 p), replaceAll_eq]
      rw [List.flatMap_cons]
      exact List.append_ne_nil_of_left_ne_nil (pieces_ne_nil old 0 q) _

end Replace
