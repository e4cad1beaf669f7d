import Mathlib

/-!
# Programs of atomic calls

A program makes calls one after the other and returns. A call is atomic; between two calls the
rest of the world may act, and a call may have several outcomes. `Safe` is the weakest
precondition of a program under such interference: what the others may do is a relation on
worlds, and so is what the program promises to do with each of its own calls.

1. `Prog` and its monad; `Action` adds failure.
2. `Setting`, `Safe`, and the rules for sequencing, for loops over lists and for programs whose
   calls all keep an assertion.
3. `exec`, the program run alone to its end, and `exec_of_safe`.
-/

/-- A program that makes calls `c : C`, each answered by an element of `R c`, and returns
an element of `α`. -/
inductive Prog (C : Type) (R : C → Type) (α : Type) : Type where
  | done (a : α) : Prog C R α
  | call (c : C) (k : R c → Prog C R α) : Prog C R α

namespace Prog

variable {C : Type} {R : C → Type} {α β σ τ F W : Type}

/-- Sequencing. -/
def bind : Prog C R α → (α → Prog C R β) → Prog C R β
  | .done a, f => f a
  | .call c k, f => .call c fun r => (k r).bind f

instance : Monad (Prog C R) where
  pure := .done
  bind := .bind

@[simp] theorem done_bind (a : α) (f : α → Prog C R β) : (Prog.done a).bind f = f a := rfl

@[simp] theorem call_bind (c : C) (k : R c → Prog C R α) (f : α → Prog C R β) :
    (Prog.call c k).bind f = .call c fun r => (k r).bind f := rfl

variable (p : Prog C R α)

theorem bind_done : p.bind .done = p := by
  induction p with
  | done a => rfl
  | call c k ih => simp only [call_bind, ih]

theorem bind_bind (f : α → Prog C R β) (g : β → Prog C R σ) :
    (p.bind f).bind g = p.bind fun a => (f a).bind g := by
  induction p with
  | done a => rfl
  | call c k ih => simp only [call_bind, ih]

instance : LawfulMonad (Prog C R) :=
  LawfulMonad.mk' (Prog C R) bind_done (fun _ _ => rfl) bind_bind

/-- The single call `c`. -/
def ask (c : C) : Prog C R (R c) := .call c .done

end Prog

/-- A program that may fail with an error text. -/
abbrev Attempt (C : Type) (R : C → Type) (α : Type) : Type := ExceptT String (Prog C R) α

@[simp] theorem Attempt.ofExcept_ok {C : Type} {R : C → Type} {α : Type} (a : α) :
    (ofExcept (.ok a : Except String α) : Attempt C R α) = pure a := rfl

/-- The program with its error text rewritten. -/
def Attempt.wrap {C : Type} {R : C → Type} {α : Type} (f : String → String)
    (x : Attempt C R α) : Attempt C R α :=
  ExceptT.mk (Except.mapError f <$> x.run)

/-- The program with its error turned into one of another kind. -/
def failAs {C : Type} {R : C → Type} {ε ε' α : Type} (f : ε → ε') (x : ExceptT ε (Prog C R) α) :
    ExceptT ε' (Prog C R) α :=
  ExceptT.mk (Except.mapError f <$> x.run)

/-- The outcome of a fallible program as a value, for a caller that looks at the error. -/
def attemptResult {C : Type} {R : C → Type} {ε ε' α : Type} (x : ExceptT ε (Prog C R) α) :
    ExceptT ε' (Prog C R) (Except ε α) :=
  ExceptT.mk (Except.ok <$> x.run)

/-! ## Interference -/

/-- What surrounds a program: the effect of each call under each of its outcomes `F`, the outcomes
that are considered at all, what the others may do to the world between two calls, and what the
program promises about its own calls. -/
structure Setting (C : Type) (R : C → Type) (F W : Type) where
  perform : (c : C) → F → W → R c × W
  admits : C → F → W → Prop
  rely : W → W → Prop
  guar : W → W → Prop
  refl : ∀ w, rely w w
  trans : ∀ w₁ w₂ w₃, rely w₁ w₂ → rely w₂ w₃ → rely w₁ w₃

/-- What the others cannot disturb. -/
def Setting.Stable {C : Type} {R : C → Type} {F W : Type} (S : Setting C R F W) (I : W → Prop) :
    Prop :=
  ∀ w w', S.rely w w' → I w → I w'

namespace Prog

variable {C : Type} {R : C → Type} {α β σ τ ε F W : Type} {S : Setting C R F W}

/-- From `w`, whatever the others do and however the calls turn out, `p` keeps its promise at
each call, and if it returns `a` then `Q a` holds from then on. -/
def Safe (S : Setting C R F W) : Prog C R α → (α → W → Prop) → W → Prop
  | .done a, Q, w => ∀ w', S.rely w w' → Q a w'
  | .call c k, Q, w => ∀ w', S.rely w w' → ∀ f, S.admits c f w' →
      S.guar w' (S.perform c f w').2 ∧
        Safe S (k (S.perform c f w').1) Q (S.perform c f w').2

variable {w : W} {p : Prog C R α} {Q Q' : α → W → Prop}

theorem safe_done {a : α} : Safe S (.done a) Q w ↔ ∀ w', S.rely w w' → Q a w' := Iff.rfl

variable {c : C} {k : R c → Prog C R α}

theorem safe_call :
    Safe S (.call c k) Q w ↔ ∀ w', S.rely w w' → ∀ f, S.admits c f w' →
      S.guar w' (S.perform c f w').2 ∧
        Safe S (k (S.perform c f w').1) Q (S.perform c f w').2 := Iff.rfl

namespace Safe

theorem step {w w' : W} (h : Safe S p Q w) (hr : S.rely w w') : Safe S p Q w' := by
  cases p with
  | done a => exact fun w'' hr' => h w'' (S.trans _ _ _ hr hr')
  | call c k => exact fun w'' hr' => h w'' (S.trans _ _ _ hr hr')

/-- The assertion at the end holds from then on, and may be used as such. -/
theorem weaken (h : Safe S p Q w) (hq : ∀ a w, (∀ w', S.rely w w' → Q a w') → Q' a w) :
    Safe S p Q' w := by
  induction p generalizing w with
  | done a =>
    exact fun w' hr => hq a w' fun w'' hr' => h w'' (S.trans _ _ _ hr hr')
  | call c k ih => exact fun w' hr f hf => ⟨(h w' hr f hf).1, ih _ (h w' hr f hf).2⟩

theorem mono (h : Safe S p Q w) (hq : ∀ a w, Q a w → Q' a w) : Safe S p Q' w :=
  h.weaken fun a w ha => hq a w (ha w (S.refl w))

theorem bind {f : α → Prog C R β} {Q : β → W → Prop} (h : Safe S p (fun a => Safe S (f a) Q) w) :
    Safe S (p >>= f) Q w := by
  induction p generalizing w with
  | done a => exact h w (S.refl w)
  | call c k ih => exact fun w' hr f hf => ⟨(h w' hr f hf).1, ih _ (h w' hr f hf).2⟩

theorem map {f : α → β} {Q : β → W → Prop} (h : Safe S p (fun a => Q (f a)) w) :
    Safe S (f <$> p) Q w := by
  induction p generalizing w with
  | done a => exact h
  | call c k ih => exact fun w' hr f hf => ⟨(h w' hr f hf).1, ih _ (h w' hr f hf).2⟩

/-- A call, given what holds before it whatever the others did. -/
theorem ask {Q : R c → W → Prop}
    (h : ∀ w', S.rely w w' → ∀ f, S.admits c f w' → S.guar w' (S.perform c f w').2 ∧
      ∀ w'', S.rely (S.perform c f w').2 w'' → Q (S.perform c f w').1 w'') :
    Safe S (Prog.ask c) Q w := h

end Safe

/-- The assertion on the outcome of a fallible program: `Q` on success, `E` on failure. -/
def onOk (Q : α → W → Prop) (E : ε → W → Prop) : Except ε α → W → Prop
  | .ok a => Q a
  | .error e => E e

@[simp] theorem onOk_ok (Q : α → W → Prop) (E : ε → W → Prop) (a : α) :
    onOk Q E (.ok a) = Q a := rfl

@[simp] theorem onOk_error (Q : α → W → Prop) (E : ε → W → Prop) (e : ε) :
    onOk Q E (.error e : Except ε α) = E e := rfl

variable {ε' : Type} {x : ExceptT ε (Prog C R) α} {f : α → ExceptT ε (Prog C R) β}

namespace Safe

theorem ok {a : α} {Q : Except ε α → W → Prop} (h : ∀ w', S.rely w w' → Q (.ok a) w') :
    Safe S (pure a : ExceptT ε (Prog C R) α).run Q w := h

theorem fail {e : ε} {Q : Except ε α → W → Prop} (h : ∀ w', S.rely w w' → Q (.error e) w') :
    Safe S (throw e : ExceptT ε (Prog C R) α).run Q w := h

/-- Sequencing of fallible programs: the second runs only if the first succeeded. -/
theorem andThen {Q : Except ε β → W → Prop}
    (h : Safe S x.run (onOk (fun a => Safe S (f a).run Q) fun e => Q (.error e)) w) :
    Safe S (x >>= f).run Q w := by
  rw [ExceptT.run_bind]
  generalize x.run = p at h
  induction p generalizing w with
  | done a =>
    cases a with
    | ok a => exact h w (S.refl w)
    | error e => exact h
  | call c k ih => exact fun w' hr f hf => ⟨(h w' hr f hf).1, ih _ (h w' hr f hf).2⟩

theorem imp {E : ε → W → Prop} (hx : Safe S x.run (onOk Q E) w) (h : ∀ a w', Q a w' → Q' a w') :
    Safe S x.run (onOk Q' E) w := by
  refine hx.mono ?_
  rintro (e | a) w' hw'
  · exact hw'
  · exact h a w' hw'

/-- Sequencing with one assertion `E` for every failure. -/
theorem seq {Q' : β → W → Prop} {E : ε → W → Prop} (hx : Safe S x.run (onOk Q E) w)
    (hf : ∀ a w', Q a w' → Safe S (f a).run (onOk Q' E) w') :
    Safe S (x >>= f).run (onOk Q' E) w := andThen (hx.imp hf)

/-- A check that is made without a call. -/
theorem check {x : Except ε α} {Q : Except ε β → W → Prop}
    (hok : ∀ a, x = .ok a → Safe S (f a).run Q w)
    (herr : ∀ e, x = .error e → ∀ w', S.rely w w' → Q (.error e) w') :
    Safe S ((ofExcept x : ExceptT ε (Prog C R) α) >>= f).run Q w := by
  cases x with
  | ok a => exact hok a rfl
  | error e => exact herr e rfl

theorem wrap {x : Attempt C R α} {f : String → String} {Q : Except String α → W → Prop}
    (h : Safe S x.run (fun r => Q (r.mapError f)) w) : Safe S (x.wrap f).run Q w := map h

theorem failAs {f : ε → ε'} {Q : Except ε' α → W → Prop}
    (h : Safe S x.run (fun r => Q (r.mapError f)) w) : Safe S (failAs f x).run Q w := map h

theorem result {Q : Except ε' (Except ε α) → W → Prop} (h : Safe S x.run (fun r => Q (.ok r)) w) :
    Safe S (attemptResult x).run Q w := map h

/-- The loop rule: `I xs s` holds when the elements `xs` are still to come and the accumulator
is `s`. -/
theorem foldlM {f : σ → τ → ExceptT ε (Prog C R) σ} {Q : Except ε σ → W → Prop}
    (I : List τ → σ → W → Prop) (hstep : ∀ x xs s w, I (x :: xs) s w →
      Safe S (f s x).run (onOk (I xs) fun e => Q (.error e)) w)
    (hdone : ∀ s w, I [] s w → Q (.ok s) w) :
    ∀ l s w, (∀ w', S.rely w w' → I l s w') → Safe S (l.foldlM f s).run Q w
  | [], s, w, h => ok fun w' hr => hdone s w' (h w' hr)
  | x :: xs, s, w, h => by
    rw [List.foldlM_cons]
    refine andThen ((hstep x xs s w (h w (S.refl w))).weaken ?_)
    rintro (e | s') w' hi
    · exact hi w' (S.refl w')
    · exact foldlM I hstep hdone xs s' w' hi

theorem forM {f : τ → ExceptT ε (Prog C R) PUnit} {Q : Except ε PUnit → W → Prop}
    (I : List τ → W → Prop) (hstep : ∀ x xs w, I (x :: xs) w →
      Safe S (f x).run (onOk (fun _ => I xs) fun e => Q (.error e)) w)
    (hdone : ∀ w, I [] w → Q (.ok ⟨⟩) w) :
    ∀ l w, (∀ w', S.rely w w' → I l w') → Safe S (l.forM f).run Q w
  | [], w, h => ok fun w' hr => hdone w' (h w' hr)
  | x :: xs, w, h => by
    refine andThen ((hstep x xs w (h w (S.refl w))).weaken ?_)
    rintro (e | s') w' hi
    · exact hi w' (S.refl w')
    · exact forM I hstep hdone xs w' hi

end Safe

/-! ## Programs whose calls are all of one kind -/

/-- Every call that `p` can make satisfies `K`. -/
def Only (K : C → Prop) : Prog C R α → Prop
  | .done _ => True
  | .call c k => K c ∧ ∀ r, Only K (k r)

namespace Only

variable {K : C → Prop}

theorem ok {a : α} : Only K (pure a : ExceptT ε (Prog C R) α).run := trivial

theorem fail {e : ε} : Only K (throw e : ExceptT ε (Prog C R) α).run := trivial

theorem ask (h : K c) : Only (R := R) K (Prog.ask c) := ⟨h, fun _ => trivial⟩

theorem of_call (h : Only K (.call c k)) : K c ∧ ∀ r, Only K (k r) := h

theorem bind {f : α → Prog C R β} (hp : Only K p) (hf : ∀ a, Only K (f a)) : Only K (p >>= f) := by
  induction p with
  | done a => exact hf a
  | call c k ih => exact ⟨hp.1, fun r => ih r (hp.2 r)⟩

theorem andThen (hx : Only K x.run) (hf : ∀ a, Only K (f a).run) : Only K (x >>= f).run := by
  rw [ExceptT.run_bind]
  refine bind hx ?_
  rintro (e | a)
  · exact trivial
  · exact hf a

theorem check {x : Except ε α} (h : ∀ a, x = .ok a → Only K (f a).run) :
    Only K ((ofExcept x : ExceptT ε (Prog C R) α) >>= f).run := by
  cases x with
  | ok a => exact h a rfl
  | error e => trivial

theorem ofExcept {x : Except ε α} : Only K (ofExcept x : ExceptT ε (Prog C R) α).run := by
  cases x <;> trivial

theorem wrap {x : Attempt C R α} {f : String → String} (hx : Only K x.run) :
    Only K (x.wrap f).run := bind hx fun _ => trivial

theorem failAs {f : ε → ε'} (hx : Only K x.run) :
    Only K (failAs f x).run := bind hx fun _ => trivial

theorem result (hx : Only K x.run) :
    Only K (attemptResult x : ExceptT ε' (Prog C R) (Except ε α)).run := bind hx fun _ => trivial

theorem lift (hp : Only K p) :
    Only K (ExceptT.lift p : ExceptT ε (Prog C R) α).run := bind hp fun _ => trivial

theorem foldlM {f : σ → τ → ExceptT ε (Prog C R) σ} :
    ∀ {l : List τ} (_ : ∀ x ∈ l, ∀ s, Only K (f s x).run) (s : σ), Only K (l.foldlM f s).run
  | [], _, _ => trivial
  | x :: _, hf, s => andThen (hf x List.mem_cons_self s) fun s' =>
    foldlM (fun x' hx => hf x' (List.mem_cons_of_mem x hx)) s'

theorem forM {f : τ → ExceptT ε (Prog C R) PUnit} (hf : ∀ x, Only K (f x).run) :
    ∀ l : List τ, Only K (l.forM f).run
  | [] => trivial
  | x :: xs => andThen (hf x) fun _ => forM hf xs

theorem mono {K' : C → Prop} (hp : Only K p) (h : ∀ c, K c → K' c) : Only K' p := by
  induction p with
  | done a => trivial
  | call c k ih => exact ⟨h c hp.1, fun r => ih r (hp.2 r)⟩

theorem of_done (a : α) : Only (R := R) K (.done a) := trivial

theorem of_forall (h : ∀ c, K c) : ∀ p : Prog C R α, Only K p
  | .done _ => trivial
  | .call c k => ⟨h c, fun r => of_forall h (k r)⟩

theorem map {f : α → β} (hp : Only K p) : Only K (f <$> p) :=
  bind hp fun _ => trivial

/-- An assertion that the calls in `K` and the others keep is kept by the program. -/
theorem safe (h : Only K p) {I : W → Prop} (hrely : ∀ w w', I w → S.rely w w' → I w')
    (hcall : ∀ c f w, K c → S.admits c f w → I w →
      S.guar w (S.perform c f w).2 ∧ I (S.perform c f w).2) (hw : I w) :
    Safe S p (fun _ => I) w := by
  induction p generalizing w with
  | done a => exact fun w' hr => hrely w w' hw hr
  | call c k ih =>
    intro w' hr f hf
    have hk := hcall c f w' h.1 hf (hrely w w' hw hr)
    exact ⟨hk.1, ih _ (h.2 _) hk.2⟩

end Only

/-! ## A program run alone -/

/-- The run of `p` from `w` in which the `n`-th, `n+1`-st, ... calls turn out as `σ` says. -/
def exec (perform : (c : C) → F → W → R c × W) (σ : ℕ → F) :
    Prog C R α → ℕ → W → α × W
  | .done a, _, w => (a, w)
  | .call c k, n, w =>
    exec perform σ (k (perform c (σ n) w).1) (n + 1) (perform c (σ n) w).2

theorem exec_of_safe {σ : ℕ → F} (hadm : ∀ c n w, S.admits c (σ n) w) {n : ℕ} (h : Safe S p Q w) :
    Q (p.exec S.perform σ n w).1 (p.exec S.perform σ n w).2 := by
  induction p generalizing n w with
  | done a => exact h w (S.refl w)
  | call c k ih => exact ih _ (h w (S.refl w) (σ n) (hadm c n w)).2

/-! ## Recorded runs -/

/-- What a run did: its calls with their answers, the first one first. -/
abbrev Trace (C : Type) (R : C → Type) : Type := List (Σ c : C, R c)

/-- The calls with a record of what they were and what they answered. -/
def recorded (perform : (c : C) → F → W → R c × W) (c : C) (f : F) (w : W × Trace C R) :
    R c × (W × Trace C R) :=
  ((perform c f w.1).1, (perform c f w.1).2, w.2 ++ [⟨c, (perform c f w.1).1⟩])

/-- A run alone, without interference and with every outcome possible. -/
def alone (perform : (c : C) → F → W → R c × W) : Setting C R F W where
  perform := perform
  admits _ _ _ := True
  rely := Eq
  guar _ _ := True
  refl _ := rfl
  trans _ _ _ := Eq.trans

variable {perform : (c : C) → F → W → R c × W}

/-- A call of a program that runs alone. -/
theorem Safe.ask_alone {Q : R c → W → Prop} (h : ∀ f, Q (perform c f w).1 (perform c f w).2) :
    Safe (alone perform) (Prog.ask c) Q w := by
  rintro w' rfl f -
  refine ⟨trivial, ?_⟩
  rintro w'' rfl
  exact h f

/-- A run without interference in which the calls turn out as they may. -/
def solo (perform : (c : C) → F → W → R c × W) (admits : C → F → W → Prop) :
    Setting C R F W where
  perform := perform
  admits := admits
  rely := Eq
  guar _ _ := True
  refl _ := rfl
  trans _ _ _ := Eq.trans

theorem Safe.ask_solo {admits : C → F → W → Prop} {Q : R c → W → Prop}
    (h : ∀ f, admits c f w → Q (perform c f w).1 (perform c f w).2) :
    Safe (solo perform admits) (Prog.ask c) Q w := by
  rintro w' rfl f hf
  refine ⟨trivial, ?_⟩
  rintro w'' rfl
  exact h f hf

/-- Along the run of `p` every call turns out as it may. -/
def Turns (S : Setting C R F W) (σ : ℕ → F) : Prog C R α → ℕ → W → Prop
  | .done _, _, _ => True
  | .call c k, n, w => S.admits c (σ n) w ∧
      Turns S σ (k (S.perform c (σ n) w).1) (n + 1) (S.perform c (σ n) w).2

/-- Such a run can be checked. -/
def decidableTurns (S : Setting C R F W) (σ : ℕ → F)
    (dec : ∀ c f w, Decidable (S.admits c f w)) :
    ∀ (p : Prog C R α) (n : ℕ) (w : W), Decidable (Turns S σ p n w)
  | .done _, _, _ => .isTrue trivial
  | .call c k, n, w =>
    let _ := dec c (σ n) w
    let _ := decidableTurns S σ dec (k (S.perform c (σ n) w).1) (n + 1)
      (S.perform c (σ n) w).2
    inferInstanceAs (Decidable (_ ∧ _))

theorem exec_of_turns {σ : ℕ → F} {n : ℕ} (hturns : Turns S σ p n w) (h : Safe S p Q w) :
    Q (p.exec S.perform σ n w).1 (p.exec S.perform σ n w).2 := by
  induction p generalizing n w with
  | done a => exact h w (S.refl w)
  | call c k ih => exact ih _ hturns.2 (h w (S.refl w) (σ n) hturns.1).2

-- From here on programs are reasoned about by these rules, never by running them.
attribute [irreducible] Safe Only

end Prog
