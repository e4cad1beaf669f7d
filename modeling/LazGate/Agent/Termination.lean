import LazGate.Agent.Engine
import LazGate.Lib.Eval

/-!
# When a sync pass returns

The loop of `Engine.run` asks for pages until one is short. The checks of a page look at that page
alone, so nothing in them says that a page comes after the one before. While pages come after the
cursor of their request, the ids after the cursor get fewer with each page; so a pass returns just
when from some page on they do.
-/

namespace LazGate

open Prog

variable {C : Type} {R : C → Type} {T P W : Type} (answer : (c : C) → W → R c × W)

/-! ## The end of the loop -/

variable {changes : List (Change T)} {r : Response T} {w : W} {p : Progress P} {fromID : String}

section Loop

variable (source : Source C R T) (applier : Applier C R T P) (since pageSize : ℤ)

/-- The loop returns after asking for at most `n` further pages: a change or a page fails, or a
page is short. -/
def Ends : ℕ → Response T → Progress P → W → Prop
  | 0, r, p, w => ∀ p' w',
      eval answer (r.changes.foldlM (applyChange applier) p).run w = (.ok p', w') →
      (r.changes.length : ℤ) < pageSize
  | n + 1, r, p, w => ∀ p' w',
      eval answer (r.changes.foldlM (applyChange applier) p).run w = (.ok p', w') →
      (r.changes.length : ℤ) < pageSize ∨ ∀ r' w'',
        eval answer (fetchPage source p'.full since pageSize p'.fromConnectionID).run w' =
          (.ok r', w'') → Ends n r' p' w''

/-- The page that the loop asks for `n` pages after this one, if it gets so far, has only ids after
the cursor of its request. -/
def Resumes : ℕ → Response T → Progress P → W → Prop
  | 0, r, p, _ => ∀ c ∈ r.changes, p.fromConnectionID < c.connectionID
  | n + 1, r, p, w => ∀ p' w',
      eval answer (r.changes.foldlM (applyChange applier) p).run w = (.ok p', w') →
      ¬ (r.changes.length : ℤ) < pageSize → ∀ r' w'',
        eval answer (fetchPage source p'.full since pageSize p'.fromConnectionID).run w' =
          (.ok r', w'') → Resumes n r' p' w''

variable {answer source applier since pageSize}

/-- A loop that returns asks for no page later. -/
theorem Ends.resumes {n m : ℕ} (h : Ends answer source applier since pageSize n r p w)
    (hlt : n < m) : Resumes answer source applier since pageSize m r p w := by
  induction n generalizing m r p w with
  | zero =>
    obtain ⟨m, rfl⟩ : ∃ k, m = k + 1 := ⟨m - 1, by omega⟩
    exact fun p' w' hfold hfull => absurd (h p' w' hfold) hfull
  | succ n ih =>
    obtain ⟨m, rfl⟩ : ∃ k, m = k + 1 := ⟨m - 1, by omega⟩
    exact fun p' w' hfold hfull r' w'' hfetch =>
      ih ((h p' w' hfold).resolve_left hfull r' w'' hfetch) (Nat.lt_of_succ_lt_succ hlt)

/-- A loop that returns does so under every bound on its pages that is not too small. -/
theorem eval_pages_of_ends {n fuel : ℕ} (hle : n ≤ fuel)
    (h : Ends answer source applier since pageSize n r p w) :
    eval answer (pages source applier since pageSize fuel r p).run w =
      eval answer (pages source applier since pageSize n r p).run w := by
  induction n generalizing fuel r p w with
  | zero =>
    unfold pages
    rw [eval_andThen, eval_andThen]
    rcases hfold : eval answer (r.changes.foldlM (applyChange applier) p).run w with ⟨e | p', w'⟩
    · rfl
    · dsimp only
      rw [if_pos (h p' w' hfold), if_pos (h p' w' hfold)]
  | succ n ih =>
    obtain ⟨fuel, rfl⟩ : ∃ k, fuel = k + 1 := ⟨fuel - 1, by omega⟩
    unfold pages
    rw [eval_andThen, eval_andThen]
    rcases hfold : eval answer (r.changes.foldlM (applyChange applier) p).run w with ⟨e | p', w'⟩
    · rfl
    · dsimp only
      split
      · rfl
      · rename_i hfull
        rw [eval_andThen, eval_andThen]
        rcases hfetch : eval answer
          (fetchPage source p'.full since pageSize p'.fromConnectionID).run w' with ⟨e | r', w''⟩
        · rfl
        · exact ih (Nat.le_of_succ_le_succ hle)
            ((h p' w' hfold).resolve_left hfull r' w'' hfetch)

theorem from_of_foldlM {p' : Progress P} {w' : W}
    (h : eval answer (changes.foldlM (applyChange applier) p).run w = (.ok p', w')) :
    p'.fromConnectionID = (changes.map (·.connectionID)).getLastD p.fromConnectionID := by
  induction changes generalizing p w with
  | nil =>
    obtain rfl := Except.ok.inj (congrArg Prod.fst h)
    rfl
  | cons c changes ih =>
    rw [List.foldlM_cons] at h
    obtain ⟨q, w₁, hq, h⟩ := eval_andThen_ok h
    obtain ⟨pass, w₂, -, hq⟩ := eval_andThen_ok hq
    obtain rfl := Except.ok.inj (congrArg Prod.fst hq)
    rw [ih h, List.map_cons, List.getLastD_cons]
    rfl

theorem eval_fetchPage_ok {full : Bool} {w' : W} :
    eval answer (fetchPage source full since pageSize fromID).run w = (.ok r, w') ↔
      eval answer (source.fetchSyncPage ⟨full, since, pageSize, fromID⟩).run w = (.ok r, w') ∧
        validateResponse r pageSize = .ok () := by
  constructor
  · intro h
    obtain ⟨r', w₁, hr, h⟩ := eval_andThen_ok h
    obtain ⟨⟨⟩, w₂, hcheck, h⟩ := eval_andThen_ok h
    rw [eval_ofExcept] at hcheck
    obtain ⟨hvalid, rfl⟩ := Prod.mk.inj hcheck
    obtain ⟨hr', rfl⟩ := Prod.mk.inj h
    cases hr'
    exact ⟨hr, hvalid⟩
  · rintro ⟨hr, hvalid⟩
    unfold fetchPage
    rw [eval_andThen, hr]
    dsimp only
    rw [eval_andThen, eval_ofExcept, hvalid]
    rfl

end Loop

/-! ## Sources -/

section Sources

variable (source : Source C R T)

def Source.Within (ids : Finset String) : Prop :=
  ∀ request r w w', eval answer (source.fetchSyncPage request).run w = (.ok r, w') →
    ∀ c ∈ r.changes, c.connectionID ∈ ids

/-- The source's pages come after the cursors of their requests. -/
def Source.Resumes : Prop :=
  ∀ request r w w', eval answer (source.fetchSyncPage request).run w = (.ok r, w') →
    ∀ c ∈ r.changes, request.fromConnectionID < c.connectionID

end Sources

/-- `Engine.Run` returns after asking for at most `n` pages after the first. -/
def Engine.Returns (e : Engine C R T P) (n : ℕ) (full : Bool) (w : W) : Prop :=
  ∀ cursors source applier, e.cursors = some cursors → e.source = some source →
    e.applier = some applier → ∀ full' since w₁ r w₂ p w₃,
      eval answer (loadCursor cursors e.cursorKey full).run w = (.ok (full', since), w₁) →
      eval answer (fetchPage source full' since (normalizePageSize e.pageSize) "").run w₁ =
        (.ok r, w₂) →
      eval answer (openPass applier full' r).run w₂ = (.ok p, w₃) →
      Ends answer source applier since (normalizePageSize e.pageSize) n r p w₃

/-- From the `n`-th page after the first on, the pages that `Engine.Run` asks for come after the
cursors of their requests. -/
def Engine.ResumesFrom (e : Engine C R T P) (n : ℕ) (full : Bool) (w : W) : Prop :=
  ∀ cursors source applier, e.cursors = some cursors → e.source = some source →
    e.applier = some applier → ∀ full' since w₁ r w₂ p w₃,
      eval answer (loadCursor cursors e.cursorKey full).run w = (.ok (full', since), w₁) →
      eval answer (fetchPage source full' since (normalizePageSize e.pageSize) "").run w₁ =
        (.ok r, w₂) →
      eval answer (openPass applier full' r).run w₂ = (.ok p, w₃) →
      ∀ m, n ≤ m → Resumes answer source applier since (normalizePageSize e.pageSize) m r p w₃

variable {answer}

def idsAfter (ids : Finset String) (id : String) : Finset String := ids.filter (id < ·)

theorem getLastD_mem (hne : changes ≠ []) (id : String) :
    ∃ c ∈ changes, (changes.map (·.connectionID)).getLastD id = c.connectionID := by
  refine ⟨changes.getLast hne, List.getLast_mem hne, ?_⟩
  rw [List.getLastD_eq_getLast?, List.getLast?_map, List.getLast?_eq_some_getLast hne]
  rfl

variable {ids : Finset String}

theorem card_idsAfter_lt (hne : changes ≠ []) (hids : ∀ c ∈ changes, c.connectionID ∈ ids)
    (hafter : ∀ c ∈ changes, fromID < c.connectionID) :
    (idsAfter ids ((changes.map (·.connectionID)).getLastD fromID)).card <
      (idsAfter ids fromID).card := by
  obtain ⟨c, hc, hlast⟩ := getLastD_mem hne fromID
  rw [hlast]
  refine Finset.card_lt_card ((Finset.ssubset_iff_of_subset ?_).2 ⟨c.connectionID, ?_, ?_⟩)
  · intro id hid
    rw [idsAfter, Finset.mem_filter] at hid ⊢
    exact ⟨hid.1, (hafter c hc).trans hid.2⟩
  · exact Finset.mem_filter.2 ⟨hids c hc, hafter c hc⟩
  · exact fun hmem => lt_irrefl _ (Finset.mem_filter.1 hmem).2

section

variable {source : Source C R T} {applier : Applier C R T P} {since pageSize : ℤ} {n : ℕ}
  (hids : source.Within answer ids)

include hids

omit hids in
theorem resumes_of_source (hsource : source.Resumes answer) (m : ℕ)
    (hr : ∀ c ∈ r.changes, p.fromConnectionID < c.connectionID) :
    Resumes answer source applier since pageSize m r p w := by
  induction m generalizing r p w with
  | zero => exact hr
  | succ m ih =>
    exact fun p' w' _ _ r' w'' hfetch => ih (hsource _ r' w' w'' (eval_fetchPage_ok.1 hfetch).1)

/-- The loop ends: with each further page there are fewer ids after the cursor. -/
theorem ends_of_resumes
    (hresumes : ∀ m, Resumes answer source applier since pageSize m r p w)
    (hvalid : validateResponse r pageSize = .ok ()) (hr : ∀ c ∈ r.changes, c.connectionID ∈ ids)
    (hn : (idsAfter ids p.fromConnectionID).card ≤ n) :
    Ends answer source applier since pageSize n r p w := by
  have hne : ¬ (r.changes.length : ℤ) < pageSize → r.changes ≠ [] := by
    intro hfull hnil
    rw [hnil, List.length_nil] at hfull
    have hpage := (validateResponse_eq_ok.1 hvalid).1.1
    omega
  induction n generalizing r p w with
  | zero =>
    intro p' w' _
    by_contra hfull
    have hlt := card_idsAfter_lt (hne hfull) hr (hresumes 0)
    omega
  | succ n ih =>
    intro p' w' hfold
    refine or_iff_not_imp_left.2 fun hfull r' w'' hfetch => ?_
    have hlt := card_idsAfter_lt (hne hfull) hr (hresumes 0)
    obtain ⟨hnext, hvalid'⟩ := eval_fetchPage_ok.1 hfetch
    refine ih (fun m => hresumes (m + 1) p' w' hfold hfull r' w'' hfetch) hvalid'
      (hids _ r' w' w'' hnext) ?_ fun hfull' hnil => ?_
    · rw [from_of_foldlM hfold]
      omega
    · rw [hnil, List.length_nil] at hfull'
      have hpage := (validateResponse_eq_ok.1 hvalid').1.1
      omega

/-- The same when the pages come after their cursors only later. -/
theorem ends_of_resumes_from {k : ℕ}
    (hresumes : ∀ m, k ≤ m → Resumes answer source applier since pageSize m r p w)
    (hvalid : validateResponse r pageSize = .ok ()) (hr : ∀ c ∈ r.changes, c.connectionID ∈ ids) :
    Ends answer source applier since pageSize (k + ids.card) r p w := by
  induction k generalizing r p w with
  | zero =>
    rw [Nat.zero_add]
    exact ends_of_resumes hids (fun m => hresumes m (Nat.zero_le m)) hvalid hr
      (Finset.card_filter_le _ _)
  | succ k ih =>
    rw [Nat.succ_add]
    intro p' w' hfold
    refine or_iff_not_imp_left.2 fun hfull r' w'' hfetch => ?_
    obtain ⟨hnext, hvalid'⟩ := eval_fetchPage_ok.1 hfetch
    exact ih (fun m hle => hresumes (m + 1) (Nat.succ_le_succ hle) p' w' hfold hfull r' w'' hfetch)
      hvalid' (hids _ r' w' w'' hnext)

end

theorem Engine.eval_run_of_returns {e : Engine C R T P} {n fuel : ℕ} {full : Bool}
    (h : e.Returns answer n full w) (hle : n ≤ fuel) :
    eval answer (e.run fuel full).run w = eval answer (e.run n full).run w := by
  unfold Engine.run
  rw [eval_andThen, eval_andThen, eval_ofExcept]
  rcases validatePageSize (normalizePageSize e.pageSize) with err | ⟨⟩
  · rfl
  dsimp only
  rcases hc : e.cursors with _ | cursors <;> rcases hs : e.source with _ | source <;>
    rcases ha : e.applier with _ | applier <;> try rfl
  dsimp only [runPass]
  rw [eval_andThen, eval_andThen]
  rcases hload : eval answer (loadCursor cursors e.cursorKey full).run w with ⟨err | ⟨f, s⟩, w₁⟩
  · rfl
  dsimp only
  rw [eval_andThen, eval_andThen]
  rcases hfetch : eval answer (fetchPage source f s (normalizePageSize e.pageSize) "").run w₁ with
    ⟨err | r, w₂⟩
  · rfl
  dsimp only
  rw [eval_andThen, eval_andThen]
  rcases hopen : eval answer (openPass applier f r).run w₂ with ⟨err | p, w₃⟩
  · rfl
  dsimp only
  rw [eval_andThen, eval_andThen, eval_pages_of_ends hle
    (h cursors source applier hc hs ha f s w₁ r w₂ p w₃ hload hfetch hopen)]

/-- With ids from a finite set a pass returns just when from some page on the pages that it asks for
come after the cursors of their requests. -/
theorem sync_pass_returns_iff (answer : (c : C) → W → R c × W) (e : Engine C R T P) (full : Bool)
    (w : W) (ids : Finset String)
    (hids : ∀ source, e.source = some source → source.Within answer ids) :
    (∃ n, e.Returns answer n full w ∧ ∀ fuel, n ≤ fuel →
      eval answer (e.run fuel full).run w = eval answer (e.run n full).run w) ↔
    ∃ n, e.ResumesFrom answer n full w := by
  constructor
  · rintro ⟨n, h, -⟩
    refine ⟨n + 1, fun cursors source applier hc hs ha full' since w₁ r w₂ p w₃ hload hfetch hopen
      m hle => ?_⟩
    have hreach := h cursors source applier hc hs ha full' since w₁ r w₂ p w₃ hload hfetch hopen
    exact hreach.resumes hle
  · rintro ⟨k, h⟩
    have hreturns : e.Returns answer (k + ids.card) full w := by
      intro cursors source applier hc hs ha full' since w₁ r w₂ p w₃ hload hfetch hopen
      obtain ⟨hpage, hvalid⟩ := eval_fetchPage_ok.1 hfetch
      exact ends_of_resumes_from (hids source hs)
        (h cursors source applier hc hs ha full' since w₁ r w₂ p w₃ hload hfetch hopen) hvalid
        (hids source hs _ r w₁ w₂ hpage)
    exact ⟨_, hreturns, fun fuel hle => Engine.eval_run_of_returns hreturns hle⟩

/-! ## Two sources with one connection -/

/-- The page with the one connection `a`. -/
def pageOfA : Response Unit := ⟨0, false, [⟨"a", .upsert, 0, ()⟩]⟩

theorem pageOfA_valid : validateResponse pageOfA 1 = .ok () := by
  exact validateResponse_eq_ok.2 ⟨by decide, by decide, ascending_cons.2 ⟨by decide, ascending_nil⟩⟩

def appliesNothing : Applier Empty Empty.elim Unit Unit where
  beginSyncPass _ := pure ()
  applySyncChange _ _ := pure ()
  finishSyncPass _ _ := pure ()

def sourceOf (page : Request → Response Unit) : Source Empty Empty.elim Unit where
  fetchSyncPage request := pure (page request)

def engineOf (page : Request → Response Unit) : Engine Empty Empty.elim Unit Unit where
  cursorKey := "cursor"
  pageSize := 1
  cursors := some ⟨fun _ => pure none, fun _ _ => pure ()⟩
  source := some (sourceOf page)
  applier := some appliesNothing

/-- The page with `a` to a request from before `a`, and an empty one afterwards. -/
def pageAfter (request : Request) : Response Unit :=
  if request.fromConnectionID < "a" then pageOfA else ⟨0, false, []⟩

/-- A source that goes on after the cursor. -/
theorem sync_pass_returns_after_a :
    ∃ n, (engineOf pageAfter).Returns (fun c => c.elim) n false () := by
  have hmem : ∀ request, ∀ c ∈ (pageAfter request).changes,
      c.connectionID = "a" ∧ request.fromConnectionID < "a" := by
    intro request c hc
    unfold pageAfter at hc
    split at hc
    · rename_i hlt
      rw [List.mem_singleton.1 hc]
      exact ⟨rfl, hlt⟩
    · exact absurd hc List.not_mem_nil
  have hsource : (sourceOf pageAfter).Resumes (W := Unit) fun c => c.elim := by
    intro request r w w' hr c hc
    obtain rfl := Except.ok.inj (congrArg Prod.fst hr)
    rw [(hmem request c hc).1]
    exact (hmem request c hc).2
  have h := (sync_pass_returns_iff (fun c => c.elim) (engineOf pageAfter) false () {"a"} ?_).2
    ⟨0, ?_⟩
  · exact h.imp fun n hn => hn.1
  · rintro source hs request r w w' hr c hc
    cases hs
    obtain rfl := Except.ok.inj (congrArg Prod.fst hr)
    exact Finset.mem_singleton.2 (hmem request c hc).1
  · rintro cursors source applier - hs - full since w₁ r w₂ p w₃ - hfetch hopen m -
    cases hs
    obtain ⟨pass, w', -, hp⟩ := eval_andThen_ok hopen
    obtain rfl := Except.ok.inj (congrArg Prod.fst hp)
    exact resumes_of_source hsource m (hsource _ r w₁ w₂ (eval_fetchPage_ok.1 hfetch).1)

/-- The same full page again and again passes all checks, and the pass never returns: it uses up
every number of pages. -/
theorem sync_pass_repeats_page :
    validateResponse pageOfA 1 = .ok () ∧
      (∀ n, ¬ (engineOf fun _ => pageOfA).Returns (fun c => c.elim) n false ()) ∧
      ∀ fuel, (eval (fun c => c.elim) ((engineOf fun _ => pageOfA).run fuel false).run ()).1 =
        .error errStillRunning := by
  have hfetch : ∀ full id, eval (fun c => c.elim)
      (fetchPage (sourceOf fun _ => pageOfA) full 0 1 id).run () = (.ok pageOfA, ()) :=
    fun full id => eval_fetchPage_ok.2 ⟨rfl, pageOfA_valid⟩
  have hends : ∀ n p, ¬ Ends (fun c => c.elim) (sourceOf fun _ => pageOfA) appliesNothing 0 1 n
      pageOfA p () := by
    intro n
    induction n with
    | zero => exact fun p h => absurd (h (p.advance "a" ()) () rfl) (by decide)
    | succ n ih =>
      intro p h
      rcases h (p.advance "a" ()) () rfl with hshort | hnext
      · exact absurd hshort (by decide)
      · exact ih _ (hnext pageOfA () (hfetch _ _))
  have hpages : ∀ fuel p, eval (fun c => c.elim)
      (pages (sourceOf fun _ => pageOfA) appliesNothing 0 1 fuel pageOfA p).run () =
        (.error errStillRunning, ()) := by
    intro fuel
    induction fuel with
    | zero => exact fun p => rfl
    | succ fuel ih =>
      intro p
      unfold pages
      rw [eval_andThen]
      change eval _ (fetchPage _ _ 0 1 _ >>= _).run () = _
      rw [eval_andThen, hfetch]
      exact ih _
  refine ⟨pageOfA_valid, fun n h => ?_, fun fuel => ?_⟩
  · exact hends n _ (h _ _ _ rfl rfl rfl true 0 () pageOfA () _ () rfl (hfetch _ _) rfl)
  · change (eval _ (fetchPage _ true 0 1 "" >>= _).run ()).1 = _
    rw [eval_andThen, hfetch]
    change (eval _ (pages _ _ 0 1 fuel pageOfA _ >>= _).run ()).1 = _
    rw [eval_andThen, hpages]

end LazGate
