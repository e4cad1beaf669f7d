import LazGate.Lib.Runs

/-!
# Programs that run side by side

Any number of programs are under way at once, their calls interleaved in every way. A program is
known by its number, the position at which it was started, so that the world can keep a record of
what each of them has done. `Sound` has one setting for each program: what a program tolerates
from the others and what it promises to them may speak of its own number.
-/

/-- Programs `prog a` whose calls `perform i` know the number `i` of the program that makes them.
`act` and `enter i` say when an event or the start of the `i`-th program is possible and what it
does to the world. -/
structure PoolSystem (C : Type) (R : C → Type) (F W E A α : Type) where
  perform : ℕ → (c : C) → F → W → R c × W
  act : E → W → Option W
  enter : ℕ → A → W → Option W
  prog : A → Prog C R α

namespace Pool

variable {C : Type} {R : C → Type} {F W E A α : Type}

/-- The world and all programs started so far, in the order of their starts. -/
structure Config (C : Type) (R : C → Type) (W α : Type) where
  world : W
  tasks : List (Prog C R α)

/-- `call i f` is the next call of the `i`-th program. A program that stopped for good is one
that is never called again. -/
inductive Event (F E A : Type) where
  | act (e : E)
  | start (a : A)
  | call (i : ℕ) (f : F)

def step (Y : PoolSystem C R F W E A α) : Config C R W α → Event F E A → Option (Config C R W α)
  | s, .act e => (Y.act e s.world).map fun w => { s with world := w }
  | s, .start a => (Y.enter s.tasks.length a s.world).map fun w => ⟨w, s.tasks ++ [Y.prog a]⟩
  | s, .call i f =>
    match s.tasks[i]? with
    | some (.call c k) =>
      some ⟨(Y.perform i c f s.world).2, s.tasks.set i (k (Y.perform i c f s.world).1)⟩
    | _ => none

/-- The condition on an event that restricts the calls alone: `K i c f w` for the `i`-th program
about to make the call `c` with outcome `f` in the world `w`. -/
def Calls (K : ℕ → C → F → W → Prop) (s : Config C R W α) : Event F E A → Prop
  | .act _ => True
  | .start _ => True
  | .call i f => ∀ c k, s.tasks[i]? = some (.call c k) → K i c f s.world

instance decidableCalls {K : ℕ → C → F → W → Prop} [∀ i c f w, Decidable (K i c f w)]
    (s : Config C R W α) (e : Event F E A) : Decidable (Calls K s e) :=
  match e with
  | .act _ => isTrue trivial
  | .start _ => isTrue trivial
  | .call i f =>
    match h : s.tasks[i]? with
    | some (.call c k) =>
      decidable_of_iff (K i c f s.world)
        ⟨fun hk c' k' h' => by
          rw [h] at h'
          cases h'
          exact hk, fun hk => hk c k h⟩
    | some (.done a) => isTrue fun c k h' => by
        rw [h] at h'
        cases h'
    | none => isTrue fun c k h' => by
        rw [h] at h'
        cases h'

/-- What a run may rely on and must show, for the events that satisfy `M`: each event keeps `Inv`
and is within what the other programs tolerate. -/
structure Sound (Y : PoolSystem C R F W E A α) (S : ℕ → Setting C R F W) (Inv : W → Prop)
    (Post : ℕ → α → W → Prop) (M : Config C R W α → Event F E A → Prop) : Prop where
  perform : ∀ i, (S i).perform = Y.perform i
  act : ∀ s e w, M s (.act e) → Inv s.world → Y.act e s.world = some w →
    Inv w ∧ ∀ i, (S i).rely s.world w
  start : ∀ s a w, M s (.start a) → Inv s.world → Y.enter s.tasks.length a s.world = some w →
    Inv w ∧ (∀ i < s.tasks.length, (S i).rely s.world w) ∧
      Prog.Safe (S s.tasks.length) (Y.prog a) (Post s.tasks.length) w
  call : ∀ s i c k f, M s (.call i f) → Inv s.world → s.tasks[i]? = some (.call c k) →
    (S i).admits c f s.world
  guar : ∀ i w w', Inv w → (S i).guar w w' → Inv w' ∧ ∀ j, j ≠ i → (S j).rely w w'

/-- The invariant of the runs. -/
def Good (S : ℕ → Setting C R F W) (Inv : W → Prop) (Post : ℕ → α → W → Prop)
    (s : Config C R W α) : Prop :=
  Inv s.world ∧ ∀ i p, s.tasks[i]? = some p → Prog.Safe (S i) p (Post i) s.world

variable {s' : Config C R W α} {s : Config C R W α} {w : W}

section Sound

variable {Y : PoolSystem C R F W E A α} {S : ℕ → Setting C R F W} {Inv : W → Prop}
  {Post : ℕ → α → W → Prop} {M : Config C R W α → Event F E A → Prop}

/-- A pool in which nothing has been started. -/
theorem good_nil (h : Inv w) : Good S Inv Post ⟨w, ([] : List (Prog C R α))⟩ :=
  ⟨h, fun i p hp => by simp at hp⟩

theorem Sound.step (H : Sound Y S Inv Post M) {e : Event F E A} (h : Good S Inv Post s) (hm : M s e)
    (hs : step Y s e = some s') : Good S Inv Post s' := by
  obtain ⟨w, tasks⟩ := s
  cases e with
  | act e =>
    obtain ⟨w', hw, rfl⟩ : ∃ w', Y.act e w = some w' ∧ ⟨w', tasks⟩ = s' := by
      simpa [Pool.step] using hs
    obtain ⟨hi, hr⟩ := H.act _ e w' hm h.1 hw
    exact ⟨hi, fun i p hp => (h.2 i p hp).step (hr i)⟩
  | start a =>
    obtain ⟨w', hw, rfl⟩ :
        ∃ w', Y.enter tasks.length a w = some w' ∧ ⟨w', tasks ++ [Y.prog a]⟩ = s' := by
      simpa [Pool.step] using hs
    obtain ⟨hi, hr, hp⟩ := H.start _ a w' hm h.1 hw
    refine ⟨hi, fun i p hp' => ?_⟩
    rcases lt_trichotomy i tasks.length with hlt | rfl | hgt
    · rw [List.getElem?_append_left hlt] at hp'
      exact (h.2 i p hp').step (hr i hlt)
    · obtain rfl : Y.prog a = p := by simpa using hp'
      exact hp
    · rw [List.getElem?_eq_none (by simpa using hgt)] at hp'
      cases hp'
  | call i f =>
    match ht : tasks[i]?, hs with
    | some (.call c k), hs =>
      simp only [Pool.step, ht] at hs
      cases hs
      have hk := Prog.safe_call.1 (h.2 i _ ht) w ((S i).refl w) f (H.call _ i c k f hm h.1 ht)
      rw [H.perform] at hk
      obtain ⟨hi, hr⟩ := H.guar i _ _ h.1 hk.1
      refine ⟨hi, fun j p hp => ?_⟩
      rcases eq_or_ne j i with rfl | hji
      · rw [List.getElem?_set_self' ] at hp
        obtain rfl : k (Y.perform j c f w).1 = p := by simpa [ht] using hp
        exact hk.2
      · rw [List.getElem?_set_ne hji.symm] at hp
        exact (h.2 j p hp).step (hr j hji)
    | some (.done a), hs | none, hs => simp [Pool.step, ht] at hs

theorem Sound.runs (H : Sound Y S Inv Post M) {es : List (Event F E A)}
    (hm : Along (Pool.step Y) M s es)
    (hs : runs (Pool.step Y) s es = some s') (h : Good S Inv Post s) : Good S Inv Post s' :=
  runs_inv (fun _ _ _ hi hm hs => H.step hi hm hs) hm hs h

end Sound

/-! ## Notes about programs -/

/-- A note for some of the programs, by their numbers. -/
structure Board (N : Type) where
  count : ℕ
  note : ℕ → Option N
  numbered : ∀ i, count ≤ i → note i = none

variable {i j : ℕ}

namespace Board

variable {N : Type}

instance : CoeFun (Board N) fun _ => ℕ → Option N := ⟨note⟩

def empty : Board N := ⟨0, fun _ => none, fun _ _ => rfl⟩

def set (i : ℕ) (n : Option N) (b : Board N) : Board N where
  count := max b.count (i + 1)
  note := Function.update b.note i n
  numbered j hj := by
    have hji : j ≠ i := by omega
    rw [Function.update_of_ne hji]
    exact b.numbered j (le_of_max_le_left hj)

theorem set_self (b : Board N) (i : ℕ) (n : Option N) : b.set i n i = n := Function.update_self ..

theorem set_of_ne (b : Board N) (h : j ≠ i) (n : Option N) : b.set i n j = b j :=
  Function.update_of_ne h ..

/-- A note after one was set: that one, or one of another program. -/
theorem of_set {b : Board N} {n : Option N} {x : N} (h : b.set i n j = some x) :
    n = some x ∨ j ≠ i ∧ b j = some x := by
  rcases eq_or_ne j i with rfl | hji
  · rw [set_self] at h
    exact .inl h
  · rw [set_of_ne b hji] at h
    exact .inr ⟨hji, h⟩

/-- The notes after one was removed or left as it is were there before. -/
theorem of_set_kept {b : Board N} {n : Option N} (hn : n = none ∨ n = b i) {x : N}
    (h : b.set i n j = some x) : b j = some x := by
  rcases eq_or_ne j i with rfl | hji
  · rw [set_self] at h
    rcases hn with rfl | rfl
    · cases h
    · exact h
  · rwa [set_of_ne b hji] at h

/-- `p` holds of the notes of the programs other than the `i`-th. -/
def Others (i : ℕ) (p : N → Prop) (b : Board N) : Prop :=
  ∀ j < b.count, j ≠ i → ∀ n ∈ b j, p n

theorem Others.apply {b : Board N} {p : N → Prop} (h : b.Others i p) (hj : j ≠ i) {n : N}
    (hn : b j = some n) : p n := by
  refine h j ?_ hj n hn
  by_contra hlt
  have hnone := b.numbered j (not_lt.1 hlt)
  rw [hn] at hnone
  cases hnone

instance (b : Board N) (i : ℕ) (p : N → Prop) [DecidablePred p] : Decidable (b.Others i p) :=
  inferInstanceAs (Decidable (∀ j < b.count, j ≠ i → ∀ n ∈ b j, p n))

end Board

/-! ## Programs that keep to a protocol -/

/-- What the `i`-th program may call in which world, and what it can count on while the others
act. -/
structure Protocol (Y : PoolSystem C R F W E A α) where
  rely : ℕ → W → W → Prop
  refl : ∀ i w, rely i w w
  trans : ∀ i w₁ w₂ w₃, rely i w₁ w₂ → rely i w₂ w₃ → rely i w₁ w₃
  conf : ℕ → C → W → Prop

namespace Protocol

variable {Y : PoolSystem C R F W E A α} (P : Protocol Y) (K : ℕ → C → F → W → Prop)

/-- The `i`-th program promises that each of its calls conforms; only calls that satisfy `K` are
considered. -/
def setting (i : ℕ) : Setting C R F W where
  perform := Y.perform i
  admits := K i
  rely := P.rely i
  guar w w' := ∃ c f, K i c f w ∧ P.conf i c w ∧ w' = (Y.perform i c f w).2
  refl := P.refl i
  trans := P.trans i

theorem safe_ask {c : C} {Q : R c → W → Prop}
    (h : ∀ w', P.rely i w w' → P.conf i c w' ∧ ∀ f, K i c f w' →
      ∀ w'', P.rely i (Y.perform i c f w').2 w'' → Q (Y.perform i c f w').1 w'') :
    Prog.Safe (P.setting K i) (Prog.ask c) Q w :=
  Prog.Safe.ask fun w' hr f hf => ⟨⟨c, f, hf, (h w' hr).1, rfl⟩, (h w' hr).2 f hf⟩

/-- An assertion that the calls in `L` keep, and under which they conform. -/
theorem safe_only {L : C → Prop} {β : Type} {p : Prog C R β} (hp : Prog.Only L p) {I : W → Prop}
    (hrely : ∀ w w', I w → P.rely i w w' → I w')
    (hcall : ∀ c f w, L c → I w → P.conf i c w ∧ I (Y.perform i c f w).2) (hw : I w) :
    Prog.Safe (P.setting K i) p (fun _ => I) w :=
  hp.safe (S := P.setting K i) hrely
    (fun c f w hL hf hI => ⟨⟨c, f, hf, (hcall c f w hL hI).1, rfl⟩, (hcall c f w hL hI).2⟩) hw

/-- The programs keep to the protocol, and their calls do not disturb each other. -/
structure Kept : Prop where
  act : ∀ e w w', Y.act e w = some w' → ∀ i, P.rely i w w'
  enter : ∀ n a w w', Y.enter n a w = some w' → ∀ i < n, P.rely i w w'
  call : ∀ i c f w j, j ≠ i → K i c f w → P.conf i c w → P.rely j w (Y.perform i c f w).2
  prog : ∀ n a w w', Y.enter n a w = some w' →
    Prog.Safe (P.setting K n) (Y.prog a) (fun _ _ => True) w'

section Kept

variable {P : Protocol Y} {K : ℕ → C → F → W → Prop} {I : W → Prop}

/-- A call of a program that keeps to the protocol conforms. -/
theorem conforms_of_good {Post : ℕ → α → W → Prop} (h : Good (P.setting K) I Post s) {f : F}
    (hk : Calls (E := E) (A := A) K s (.call i f)) (hs : Pool.step Y s (.call i f) = some s') :
    ∃ c f', K i c f' s.world ∧ P.conf i c s.world ∧
      s'.world = (Y.perform i c f' s.world).2 := by
  match ht : s.tasks[i]?, hs with
  | some (.call c k), hs =>
    simp only [Pool.step, ht] at hs
    cases hs
    exact (Prog.safe_call.1 (h.2 i _ ht) s.world (P.refl i _) f (hk c k ht)).1
  | some (.done a), hs | none, hs => simp [Pool.step, ht] at hs

/-- An invariant is sound if it is kept by the calls that conform. -/
theorem Kept.sound (H : P.Kept K) (hact : ∀ e w w', I w → Y.act e w = some w' → I w')
    (henter : ∀ n a w w', I w → Y.enter n a w = some w' → I w')
    (hcall : ∀ i c f w, I w → K i c f w → P.conf i c w → I (Y.perform i c f w).2) :
    Sound Y (P.setting K) I (fun _ _ _ => True) (Calls K) where
  perform _ := rfl
  act s e w' _ hi he := ⟨hact e _ _ hi he, H.act e _ _ he⟩
  start s a w' _ hi he := ⟨henter _ a _ _ hi he, H.enter _ a _ _ he, H.prog _ a _ _ he⟩
  call s i c k f hm _ ht := hm c k ht
  guar := by
    rintro i w' _ hi ⟨c, f, hk, hc, rfl⟩
    exact ⟨hcall i c f w' hi hk hc, fun j hj => H.call i c f w' j hj hk hc⟩

variable {w : W} {s : Config C R W α} {es : List (Event F E A)}

section

variable (H : P.Kept K) (hact : ∀ e w w', I w → Y.act e w = some w' → I w')
  (henter : ∀ n a w w', I w → Y.enter n a w = some w' → I w')
  (hcall : ∀ i c f w, I w → K i c f w → P.conf i c w → I (Y.perform i c f w).2)

include H hact henter hcall

/-- The next call after a run whose calls satisfy `K` conforms. -/
theorem Kept.next (hm : Along (Pool.step Y) (Calls K) ⟨w, []⟩ es)
    (hs : runs (Pool.step Y) ⟨w, []⟩ es = some s) (hw : I w) {f : F}
    (hk : Calls (E := E) (A := A) K s (.call i f))
    (hnext : Pool.step Y s (.call i f) = some s') :
    I s.world ∧ ∃ c f', K i c f' s.world ∧ P.conf i c s.world ∧
      s'.world = (Y.perform i c f' s.world).2 := by
  have hgood := (H.sound hact henter hcall).runs hm hs (good_nil hw)
  exact ⟨hgood.1, conforms_of_good hgood hk hnext⟩

/-- What each step does to the world, as a relation `T`, every continuation of a run does. -/
theorem Kept.since {T : W → W → Prop} (hrefl : ∀ w, I w → T w w)
    (htrans : ∀ w₁ w₂ w₃, T w₁ w₂ → T w₂ w₃ → T w₁ w₃)
    (hTact : ∀ e w w', I w → Y.act e w = some w' → T w w')
    (hTenter : ∀ n a w w', I w → Y.enter n a w = some w' → T w w')
    (hTcall : ∀ i c f w, I w → K i c f w → P.conf i c w → T w (Y.perform i c f w).2)
    (hm : Along (Pool.step Y) (Calls K) ⟨w, []⟩ es) (hs : runs (Pool.step Y) ⟨w, []⟩ es = some s)
    (hw : I w) {es' : List (Event F E A)} (hm' : Along (Pool.step Y) (Calls K) s es')
    (hs' : runs (Pool.step Y) s es' = some s') : T s.world s'.world := by
  have hsound := H.sound hact henter hcall
  refine (runs_inv (I := fun t => Good (P.setting K) I (fun _ _ _ => True) t ∧ T s.world t.world)
    ?_ hm' hs' ⟨hsound.runs hm hs (good_nil hw), hrefl _ (hsound.runs hm hs (good_nil hw)).1⟩).2
  rintro t e t' ⟨hgood, ht⟩ hme hstep
  refine ⟨hsound.step hgood hme hstep, htrans _ _ _ ht ?_⟩
  cases e with
  | act e =>
    obtain ⟨w', he, rfl⟩ := Option.map_eq_some_iff.1 hstep
    exact hTact e _ w' hgood.1 he
  | start a =>
    obtain ⟨w', he, rfl⟩ := Option.map_eq_some_iff.1 hstep
    exact hTenter _ a _ w' hgood.1 he
  | call i f =>
    obtain ⟨c, f', hk, hc, he⟩ := conforms_of_good hgood hme hstep
    rw [he]
    exact hTcall i c f' t.world hgood.1 hk hc

/-- The invariant holds of every run whose calls satisfy `K`. -/
theorem Kept.runs (hm : Along (Pool.step Y) (Calls K) ⟨w, []⟩ es)
    (hs : runs (Pool.step Y) ⟨w, []⟩ es = some s) (hw : I w) : I s.world :=
  ((H.sound hact henter hcall).runs hm hs (good_nil hw)).1

end

end Kept

end Protocol

end Pool
