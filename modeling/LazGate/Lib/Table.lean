import Mathlib

/-!
# Tables of rows

A table is the list of its rows in the order of their insertion. `Table.update` is an update
statement with its condition, and `Table.Keyed` says that a column identifies the rows.
A transaction is a computation in `Except`: its tables are those after the last statement, and
there are none when a statement failed.
-/

theorem Except.bind_eq_ok {ε α β : Type} {x : Except ε α} {f : α → Except ε β} {b : β} :
    x >>= f = .ok b ↔ ∃ a, x = .ok a ∧ f a = .ok b := by
  cases x with
  | error e =>
    constructor
    · intro h
      cases h
    · rintro ⟨a, h, -⟩
      cases h
  | ok a =>
    constructor
    · intro h
      exact ⟨a, rfl, h⟩
    · rintro ⟨a', h, hb⟩
      rwa [← Except.ok.inj h] at hb

theorem Except.guard_eq_ok {ε α : Type} {p : Prop} [Decidable p] {e : ε} {x : Except ε α} {a : α} :
    (if p then .error e else x) = .ok a ↔ ¬ p ∧ x = .ok a := by
  split <;> simp [*]

theorem Except.map_eq_ok {ε α β : Type} {x : Except ε α} {f : α → β} {b : β} :
    x.map f = .ok b ↔ ∃ a, x = .ok a ∧ f a = b := by
  cases x <;> simp [Except.map]

/-- A computation whose result passes a test has a result. -/
theorem Except.exists_of_any {ε α : Type} {x : Except ε α} {p : α → Bool}
    (h : x.toOption.any p = true) : ∃ a, x = .ok a ∧ p a = true := by
  cases x with
  | error e => cases h
  | ok a => exact ⟨a, rfl, h⟩

namespace Table

variable {ρ κ : Type}

/-- `update … set f where p`. -/
def update (p : ρ → Bool) (f : ρ → ρ) (t : List ρ) : List ρ :=
  t.map fun r => if p r then f r else r

/-- The column `key` is unique in the table. -/
def Keyed (key : ρ → κ) (t : List ρ) : Prop := (t.map key).Nodup

instance [DecidableEq κ] (key : ρ → κ) (t : List ρ) : Decidable (Keyed key t) :=
  inferInstanceAs (Decidable (t.map key).Nodup)

variable {f : ρ → ρ} {t : List ρ} {p : ρ → Bool} {r : ρ}

theorem mem_update :
    r ∈ update p f t ↔ ∃ r₀ ∈ t, (if p r₀ then f r₀ else r₀) = r := List.mem_map

theorem mem_update_of_mem (h : r ∈ t) :
    (if p r then f r else r) ∈ update p f t := List.mem_map_of_mem h

/-- A column that the statement does not set. -/
theorem map_update {key : ρ → κ} (h : ∀ r, key (f r) = key r) (t : List ρ) :
    (update p f t).map key = t.map key := by
  rw [update, List.map_map]
  refine List.map_congr_left fun r _ => ?_
  rw [Function.comp_apply]
  split
  · exact h r
  · rfl

variable {q : ρ → Bool}

/-- A statement that is repeated with another condition. -/
theorem update_update (hf : ∀ r, f (f r) = f r) (t : List ρ) :
    update q f (update p f t) = update (fun r => p r || q r) f t := by
  rw [update, update, update, List.map_map]
  refine List.map_congr_left fun r _ => ?_
  rw [Function.comp_apply]
  cases p r <;> cases hq : q r <;> simp [hq, hf]

/-- The first row that is looked for is among those that the statement has set. -/
theorem find?_update (h : t.find? q = some r) (hp : p r = true) (hq : q (f r) = true) :
    ∃ r₀, p r₀ = true ∧ (update p f t).find? q = some (f r₀) := by
  induction t with
  | nil => cases h
  | cons x t ih =>
    rw [update, List.map_cons, ← update]
    by_cases hqx : q x = true
    · rw [List.find?_cons_of_pos hqx] at h
      obtain rfl := Option.some.inj h
      exact ⟨x, hp, by rw [if_pos hp, List.find?_cons_of_pos hq]⟩
    · rw [List.find?_cons_of_neg hqx] at h
      by_cases hpx : p x = true
      · rw [if_pos hpx]
        by_cases hqfx : q (f x) = true
        · exact ⟨x, hpx, List.find?_cons_of_pos hqfx⟩
        · rw [List.find?_cons_of_neg hqfx]
          exact ih h
      · rw [if_neg hpx, List.find?_cons_of_neg hqx]
        exact ih h

variable (key : ρ → κ)

/-- Rows are added up group by group. -/
theorem sum_fibers [DecidableEq κ] (f : ρ → ℤ) {ks : List κ} (hks : ks.Nodup)
    (hkeys : ∀ r ∈ t, key r ∈ ks) :
    (ks.map fun k => ((t.filter fun r => key r == k).map f).sum).sum = (t.map f).sum := by
  induction t with
  | nil => simp
  | cons r t ih =>
    have hsplit : ∀ k, (((r :: t).filter fun r => key r == k).map f).sum =
        (if key r = k then f r else 0) + ((t.filter fun r => key r == k).map f).sum := by
      intro k
      by_cases hk : key r = k
      · simp [hk]
      · simp [hk]
    have hone : (ks.map fun k => if key r = k then f r else 0).sum = f r := by
      rw [List.sum_map_eq_nsmul_single (key r)]
      · rw [List.count_eq_one_of_mem hks (hkeys r List.mem_cons_self), if_pos rfl, one_smul]
      · intro k hk _
        exact if_neg (Ne.symm hk)
    simp only [hsplit]
    rw [List.sum_map_add, hone, ih fun r' hr' => hkeys r' (List.mem_cons_of_mem r hr'),
      List.map_cons, List.sum_cons]

theorem sum_groups [DecidableEq κ] (f : ρ → ℤ) (t : List ρ) :
    ((t.map key).dedup.map fun k => ((t.filter fun r => key r == k).map f).sum).sum =
      (t.map f).sum :=
  sum_fibers key f (List.nodup_dedup _) fun _ hr => List.mem_dedup.2 (List.mem_map_of_mem hr)

/-- A statement whose condition no row meets. -/
theorem update_eq_self (h : ∀ r ∈ t, p r = false) : update p f t = t := by
  refine (List.map_congr_left fun r hr => ?_).trans t.map_id
  rw [h r hr]
  rfl

/-- Rows that are different but cannot be told apart are at most one. -/
theorem length_le_one (hn : t.Nodup) (h : ∀ r ∈ t, ∀ r' ∈ t, r = r') :
    t.length ≤ 1 := by
  match t with
  | [] => exact Nat.zero_le 1
  | [_] => exact Nat.le_refl 1
  | r :: r' :: _ =>
    have he : r = r' := h r (by simp) r' (by simp)
    simp [he] at hn

namespace Keyed

variable {key : ρ → κ} {t : List ρ}

section

variable (h : Keyed key t)

include h

theorem eq_of_mem {r' : ρ} (hr : r ∈ t) (hr' : r' ∈ t) (hk : key r = key r') : r = r' :=
  List.inj_on_of_nodup_map h hr hr' hk

theorem update (hf : ∀ r, key (f r) = key r) :
    Keyed key (update p f t) := by
  rw [Keyed, map_update hf]
  exact h

/-- A condition that only one key meets. -/
theorem countP_eq_one {k : κ} (hp : ∀ r, p r = true → key r = k) (hr : r ∈ t)
    (hpr : p r = true) : t.countP p = 1 := by
  refine le_antisymm ?_ (List.countP_pos_iff.2 ⟨r, hr, hpr⟩)
  rw [List.countP_eq_length_filter]
  refine length_le_one ((List.Nodup.of_map _ h).filter _) fun x hx y hy => ?_
  obtain ⟨hx, hpx⟩ := List.mem_filter.1 hx
  obtain ⟨hy, hpy⟩ := List.mem_filter.1 hy
  exact h.eq_of_mem hx hy ((hp x hpx).trans (hp y hpy).symm)

/-- A statement that gives the row of one key a value which no other row has. -/
theorem assign {γ : Type} [BEq κ] [LawfulBEq κ] {col : ρ → γ} (hcol : Keyed col t) {k : κ} {v : γ}
    (hf : ∀ r, col (f r) = v) (hnew : ∀ r ∈ t, key r ≠ k → col r ≠ v) :
    Keyed col (Table.update (fun r => key r == k) f t) := by
  rw [Keyed, Table.update, List.map_map]
  refine List.Nodup.map_on ?_ (List.Nodup.of_map _ h)
  intro r hr r' hr' heq
  simp only [Function.comp_apply] at heq
  split at heq <;> split at heq <;> rename_i hk hk'
  · exact h.eq_of_mem hr hr' ((eq_of_beq hk).trans (eq_of_beq hk').symm)
  · rw [hf] at heq
    exact absurd heq.symm (hnew r' hr' fun he => hk' (beq_iff_eq.2 he))
  · rw [hf] at heq
    exact absurd heq (hnew r hr fun he => hk (beq_iff_eq.2 he))
  · exact hcol.eq_of_mem hr hr' heq

theorem insert (hr : ∀ r' ∈ t, key r' ≠ key r) :
    Keyed key (t ++ [r]) := by
  rw [Keyed, List.map_append, List.nodup_append]
  refine ⟨h, List.nodup_singleton _, ?_⟩
  intro a ha b hb
  obtain ⟨r', hr', rfl⟩ := List.mem_map.1 ha
  rw [List.map_singleton, List.mem_singleton] at hb
  rw [hb]
  exact hr r' hr'

/-- The query for one value of the column. -/
theorem find?_eq [BEq κ] [LawfulBEq κ] (hr : r ∈ t) :
    t.find? (fun r' => key r' == key r) = some r := by
  cases hf : t.find? (fun r' => key r' == key r) with
  | none =>
    rw [List.find?_eq_none] at hf
    exact absurd (beq_self_eq_true (key r)) (hf r hr)
  | some r' =>
    have hk := List.find?_some hf
    rw [h.eq_of_mem (List.mem_of_find?_eq_some hf) hr (eq_of_beq hk)]

end

end Keyed

end Table
