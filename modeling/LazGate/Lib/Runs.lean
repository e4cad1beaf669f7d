import LazGate.Lib.Prog

/-!
# Runs of programs among events

1. Runs of a partial step function over a list of events, and what holds along them.
2. `Solo`: programs that are run one at a time, where each may be stopped at any point. It is
   sound for `Safe`: an invariant that the events keep, with a proof of each program under
   interference, holds along every run.
-/

/-! ## Partial step functions -/

section Steps

variable {S E : Type} {step : S → E → Option S} {M : S → E → Prop}

/-- The state after a list of events, if each of them was possible. -/
def runs (step : S → E → Option S) : S → List E → Option S
  | s, [] => some s
  | s, e :: es => (step s e).bind fun s' => runs step s' es

/-- `M` holds of each event of the run and the state it happens in. -/
def Along (step : S → E → Option S) (M : S → E → Prop) : S → List E → Prop
  | _, [] => True
  | s, e :: es => M s e ∧ ∀ s', step s e = some s' → Along step M s' es

@[simp] theorem runs_nil (s : S) : runs step s [] = some s := rfl

theorem runs_cons (s s' : S) (e : E) (es : List E) :
    runs step s (e :: es) = some s' ↔ ∃ t, step s e = some t ∧ runs step t es = some s' := by
  simp [runs, Option.bind_eq_some_iff]

theorem runs_append (s s' : S) (es fs : List E) :
    runs step s (es ++ fs) = some s' ↔
      ∃ t, runs step s es = some t ∧ runs step t fs = some s' := by
  induction es generalizing s with
  | nil => simp
  | cons e es ih =>
    simp only [List.cons_append, runs_cons, ih]
    exact ⟨fun ⟨t, ht, u, hu, hs⟩ => ⟨u, ⟨t, ht, hu⟩, hs⟩,
      fun ⟨u, ⟨t, ht, hu⟩, hs⟩ => ⟨t, ht, u, hu, hs⟩⟩

instance decidableAlong [∀ s e, Decidable (M s e)] : ∀ s es, Decidable (Along step M s es)
  | _, [] => isTrue trivial
  | s, e :: es =>
    match h : step s e with
    | none => decidable_of_iff (M s e) ⟨fun hm => ⟨hm, by simp [h]⟩, And.left⟩
    | some s' =>
      have := decidableAlong s' es
      decidable_of_iff (M s e ∧ Along step M s' es)
        ⟨fun hm => ⟨hm.1, by simpa [h] using hm.2⟩, fun hm => ⟨hm.1, hm.2 s' h⟩⟩

theorem along_of_forall : ∀ {s : S} {es : List E}, (∀ e ∈ es, ∀ s, M s e) → Along step M s es
  | _, [], _ => trivial
  | s, e :: _, h => ⟨h e List.mem_cons_self s,
      fun _ _ => along_of_forall fun e' he => h e' (List.mem_cons_of_mem e he)⟩

/-- What holds along a whole run holds along its end. -/
theorem Along.drop : ∀ {s s' : S} {es fs : List E}, Along step M s (es ++ fs) →
    runs step s es = some s' → Along step M s' fs
  | s, s', [], _, h, hr => by
    obtain rfl : s = s' := by simpa using hr
    exact h
  | s, s', e :: es, _, h, hr => by
    obtain ⟨t, ht, hr⟩ := (runs_cons s s' e es).1 hr
    exact Along.drop (h.2 t ht) hr

theorem Along.and {M' : S → E → Prop} : ∀ {s : S} {es : List E}, Along step M s es →
    (∀ e ∈ es, ∀ s, M' s e) → Along step (fun s e => M s e ∧ M' s e) s es
  | _, [], _, _ => trivial
  | s, e :: _, h, h' => ⟨⟨h.1, h' e List.mem_cons_self s⟩,
      fun t ht => (h.2 t ht).and fun e' he => h' e' (List.mem_cons_of_mem e he)⟩

/-- Conditions that agree in the states of an invariant agree along the runs from them. -/
theorem along_congr {M' : S → E → Prop} {I : S → Prop}
    (hstep : ∀ s e s', I s → step s e = some s' → I s') (h : ∀ s e, I s → (M s e ↔ M' s e))
    {s : S} {es : List E} (hs : I s) : Along step M s es ↔ Along step M' s es := by
  induction es generalizing s with
  | nil => exact Iff.rfl
  | cons e es ih =>
    exact and_congr (h s e hs) (forall₂_congr fun s' hs' => ih (hstep s e s' hs hs'))

/-- What each event keeps holds at the end of the run. -/
theorem runs_inv {I : S → Prop} (hstep : ∀ s e s', I s → M s e → step s e = some s' → I s') :
    ∀ {s s' : S} {es : List E}, Along step M s es → runs step s es = some s' → I s → I s'
  | s, s', [], _, hr, hi => by
    obtain rfl : s = s' := by simpa using hr
    exact hi
  | s, s', e :: es, ha, hr, hi => by
    obtain ⟨t, ht, hr⟩ := (runs_cons s s' e es).1 hr
    exact runs_inv hstep (ha.2 t ht) hr (hstep s e t hi ha.1 ht)

end Steps

/-- Programs `prog a` over a world of which other parts may change it too. `act` and `enter` say
when an event `e` or a start with argument `a` is possible and what it does to the world. -/
structure System (C : Type) (R : C → Type) (F W E A α : Type) where
  perform : (c : C) → F → W → R c × W
  act : E → W → Option W
  enter : A → W → Option W
  prog : A → Prog C R α

/-- The system with a record of what its programs have called and been answered. -/
def System.observe {C : Type} {R : C → Type} {F W E A α H : Type} (Y : System C R F W E A α)
    (note : (c : C) → R c → H → H) (begin : A → W → H → H) : System C R F (W × H) E A α where
  perform c f w := ((Y.perform c f w.1).1, (Y.perform c f w.1).2,
    note c (Y.perform c f w.1).1 w.2)
  act e w := (Y.act e w.1).map fun w' => (w', w.2)
  enter a w := (Y.enter a w.1).map fun w' => (w', begin a w.1 w.2)
  prog := Y.prog

/-! ## One program at a time -/

namespace Solo

variable {C : Type} {R : C → Type} {F W E A α : Type}

/-- The world, and the program that runs or ran last. -/
structure Config (C : Type) (R : C → Type) (W α : Type) where
  world : W
  task : Option (Prog C R α)

/-- `stop` ends the program wherever it is. -/
inductive Event (F E A : Type) where
  | act (e : E)
  | start (a : A)
  | call (f : F)
  | stop

/-- One event. A program starts only when the one before it has returned or was stopped. -/
def step (Y : System C R F W E A α) : Config C R W α → Event F E A → Option (Config C R W α)
  | s, .act e => (Y.act e s.world).map fun w => { s with world := w }
  | s, .start a =>
    match s.task with
    | some (.call _ _) => none
    | _ => (Y.enter a s.world).map fun w => ⟨w, some (Y.prog a)⟩
  | s, .call f =>
    match s.task with
    | some (.call c k) =>
      some ⟨(Y.perform c f s.world).2, some (k (Y.perform c f s.world).1)⟩
    | _ => none
  | s, .stop => some { s with task := none }

/-- What a run may rely on and must show, for the events that satisfy `M`. `Idle` holds when no
program runs and `Crash` at every point of a program. -/
structure Sound (Y : System C R F W E A α) (S : Setting C R F W) (Idle Crash : W → Prop)
    (Post : α → W → Prop) (M : Config C R W α → Event F E A → Prop) : Prop where
  perform : S.perform = Y.perform
  act : ∀ s e w, M s (.act e) → Y.act e s.world = some w → S.rely s.world w
  idle : ∀ w w', Idle w → S.rely w w' → Idle w'
  crash : ∀ w w', Crash w → S.rely w w' → Crash w'
  guar : ∀ w w', S.guar w w' → Crash w'
  start : ∀ s a w, M s (.start a) → Idle s.world → Y.enter a s.world = some w →
    Crash w ∧ Prog.Safe S (Y.prog a) (fun r w => Idle w ∧ Post r w) w
  call : ∀ s c k f, M s (.call f) → s.task = some (.call c k) → S.admits c f s.world
  stop : ∀ s c k, M s .stop → s.task = some (.call c k) → Crash s.world → Idle s.world

/-- The invariant of the runs. -/
def Good (S : Setting C R F W) (Idle Crash : W → Prop) (Post : α → W → Prop)
    (s : Config C R W α) : Prop :=
  match s.task with
  | none => Idle s.world
  | some p => Crash s.world ∧ Prog.Safe S p (fun r w => Idle w ∧ Post r w) s.world

section Sound

variable {Y : System C R F W E A α} {S : Setting C R F W} {Idle Crash : W → Prop}
  {Post : α → W → Prop} {M : Config C R W α → Event F E A → Prop} {s : Config C R W α}

theorem Good.result {a : α} (h : Good S Idle Crash Post s) (hs : s.task = some (.done a)) :
    Idle s.world ∧ Post a s.world := by
  rw [Good, hs] at h
  exact Prog.safe_done.1 h.2 _ (S.refl _)

theorem Good.idle (h : Good S Idle Crash Post s) (hs : ∀ c k, s.task ≠ some (.call c k)) :
    Idle s.world := by
  match ht : s.task with
  | none => rwa [Good, ht] at h
  | some (.done a) => exact (h.result ht).1
  | some (.call c k) => exact absurd ht (hs c k)

variable {s' : Config C R W α}

theorem not_running_of_start {a : A} (hs : step Y s (.start a) = some s') (c : C)
    (k : R c → Prog C R α) :
    s.task ≠ some (.call c k) := by
  intro ht
  simp [Solo.step, ht] at hs

section

variable (H : Sound Y S Idle Crash Post M)

include H

/-- A program begins in an idle world, whatever the one before it has promised. -/
theorem Sound.started {a : A} (h : Idle s.world) (hm : M s (.start a))
    (hs : step Y s (.start a) = some s') :
    Good S Idle Crash Post s' := by
  have hcall := not_running_of_start hs
  obtain ⟨w, hw, rfl⟩ : ∃ w, Y.enter a s.world = some w ∧ ⟨w, some (Y.prog a)⟩ = s' := by
    match ht : s.task with
    | none => simpa [Solo.step, ht] using hs
    | some (.done _) => simpa [Solo.step, ht] using hs
    | some (.call c k) => exact absurd ht (hcall c k)
  exact H.start s a w hm h hw

theorem Sound.step {e : Event F E A} (h : Good S Idle Crash Post s) (hm : M s e)
    (hs : step Y s e = some s') :
    Good S Idle Crash Post s' := by
  obtain ⟨w, task⟩ := s
  cases e with
  | act e =>
    obtain ⟨w', hw, rfl⟩ : ∃ w', Y.act e w = some w' ∧ ⟨w', task⟩ = s' := by
      simpa [Solo.step] using hs
    have hr := H.act _ e w' hm hw
    cases task with
    | none => exact H.idle _ _ h hr
    | some p => exact ⟨H.crash _ _ h.1 hr, h.2.step hr⟩
  | start a => exact H.started (h.idle (not_running_of_start hs)) hm hs
  | call f =>
    match task, h, hm, hs with
    | some (.call c k), h, hm, hs =>
      cases hs
      have hk := Prog.safe_call.1 h.2 w (S.refl w) f (H.call _ c k f hm rfl)
      rw [H.perform] at hk
      exact ⟨H.guar _ _ hk.1, hk.2⟩
  | stop =>
    cases hs
    match task, h, hm with
    | none, h, _ => exact h
    | some (.done a), h, _ => exact h.idle (by simp)
    | some (.call c k), h, hm => exact H.stop ⟨w, some (.call c k)⟩ c k hm rfl h.1

/-- A call of the program that runs keeps its promise. -/
theorem Sound.guar_of_call {f : F} (h : Good S Idle Crash Post s) (hm : M s (.call f))
    (hs : Solo.step Y s (.call f) = some s') :
    S.guar s.world s'.world := by
  obtain ⟨w, task⟩ := s
  match task, h, hm, hs with
  | some (.call c k), h, hm, hs =>
    cases hs
    have hk := Prog.safe_call.1 h.2 w (S.refl w) f (H.call _ c k f hm rfl)
    rw [H.perform] at hk
    exact hk.1

/-- From an idle world, every run whose events satisfy `M` stays in the invariant. -/
theorem Sound.runs {es : List (Event F E A)} (hm : Along (Solo.step Y) M s es)
    (hs : runs (Solo.step Y) s es = some s') (h : Good S Idle Crash Post s) :
    Good S Idle Crash Post s' :=
  runs_inv (fun _ _ _ hi hm hs => H.step hi hm hs) hm hs h

end

end Sound

end Solo
