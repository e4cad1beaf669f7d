import LazGate.Lib.Prog

/-!
# Programs as functions of the world

A program whose calls are all answered at once is a function of the world. `eval` runs it, and
the lemmas here take the run of a program apart along its text. How the calls turn out may be
part of the world: `scripted` keeps the outcomes that are still to come.
-/

namespace Prog

variable {C : Type} {R : C → Type} {F W α β ε ε' : Type}

/-- The run of a program with `answer` for its calls. -/
def eval (answer : (c : C) → W → R c × W) : Prog C R α → W → α × W
  | .done a, w => (a, w)
  | .call c k, w => eval answer (k (answer c w).1) (answer c w).2

/-- The calls with the outcomes that the second component of the world has in store. -/
def scripted (perform : (c : C) → F → W → R c × W) (c : C) (w : W × (ℕ → F)) :
    R c × (W × (ℕ → F)) :=
  ((perform c (w.2 0) w.1).1, (perform c (w.2 0) w.1).2, fun n => w.2 (n + 1))

variable {answer : (c : C) → W → R c × W} {w : W}

theorem eval_bind (p : Prog C R α) (f : α → Prog C R β) :
    eval answer (p >>= f) w = eval answer (f (eval answer p w).1) (eval answer p w).2 := by
  induction p generalizing w with
  | done a => rfl
  | call c k ih => exact ih _

theorem eval_map (f : α → β) (p : Prog C R α) :
    eval answer (f <$> p) w = (f (eval answer p w).1, (eval answer p w).2) := by
  rw [map_eq_pure_bind, eval_bind]
  rfl

/-- What the calls of a program keep holds after its run. -/
theorem eval_keeps {K : C → Prop} {I : W → Prop} (hI : ∀ c w, K c → I w → I (answer c w).2)
    {p : Prog C R α} (hp : Only K p) (hw : I w) : I (eval answer p w).2 := by
  induction p generalizing w with
  | done a => exact hw
  | call c k ih =>
    obtain ⟨hc, hk⟩ := hp.of_call
    exact ih _ (hk _) (hI c w hc hw)

/-! ## Fallible programs -/

theorem eval_pure (a : α) :
    eval answer (pure a : ExceptT ε (Prog C R) α).run w = (.ok a, w) := rfl

theorem eval_ofExcept (x : Except ε α) :
    eval answer (ofExcept x : ExceptT ε (Prog C R) α).run w = (x, w) := by
  cases x <;> rfl

variable (x : ExceptT ε (Prog C R) α)

/-- The second program runs if the first succeeds. -/
theorem eval_andThen (f : α → ExceptT ε (Prog C R) β) :
    eval answer (x >>= f).run w =
      match eval answer x.run w with
      | (.ok a, w') => eval answer (f a).run w'
      | (.error e, w') => (.error e, w') := by
  rw [ExceptT.run_bind, eval_bind]
  rcases eval answer x.run w with ⟨e | a, w'⟩ <;> rfl

/-- A run that succeeds is one of the first program and one of the second. -/
theorem eval_andThen_ok {x : ExceptT ε (Prog C R) α} {f : α → ExceptT ε (Prog C R) β} {b : β}
    {w'' : W} (h : eval answer (x >>= f).run w = (.ok b, w'')) :
    ∃ a w', eval answer x.run w = (.ok a, w') ∧ eval answer (f a).run w' = (.ok b, w'') := by
  rw [eval_andThen] at h
  rcases hx : eval answer x.run w with ⟨e | a, w'⟩
  · rw [hx] at h
    cases congrArg Prod.fst h
  · rw [hx] at h
    exact ⟨a, w', rfl, h⟩

theorem eval_failAs (f : ε → ε') (x : ExceptT ε (Prog C R) α) :
    eval answer (failAs f x).run w =
      ((eval answer x.run w).1.mapError f, (eval answer x.run w).2) := eval_map _ _

theorem eval_result :
    eval answer (attemptResult x : ExceptT ε' (Prog C R) (Except ε α)).run w =
      (.ok (eval answer x.run w).1, (eval answer x.run w).2) := eval_map _ _

end Prog
