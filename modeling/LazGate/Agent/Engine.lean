import LazGate.Lib.Prog
import LazGate.Protocol.Sync

/-!
# The sync engine of the agent

`Engine.run` is the loop of `internal/agent/common/sync_engine.go` over the three interfaces it is
given: where the cursor is kept, where pages come from, and what applies the changes. The loop asks
for pages until one is short. Its `fuel` bounds the pages after the first; a run that would need
more ends with `errStillRunning`, an outcome the code does not have.

`Engine.safe` is the proof rule of the loop: assertions at the points between the interface calls
give an assertion about the whole pass.
-/

namespace LazGate

structure CursorStore (C : Type) (R : C → Type) where
  loadSyncCursor : String → Attempt C R (Option ℤ)
  saveSyncCursor : String → ℤ → Attempt C R Unit

structure Source (C : Type) (R : C → Type) (T : Type) where
  fetchSyncPage : Request → Attempt C R (Response T)

structure PassResult where
  full : Bool
  manifestStartedAtMS : ℤ
  seenConnectionIDs : Std.ExtTreeSet String

/-- What applies a pass; `P` is the state of an open pass. -/
structure Applier (C : Type) (R : C → Type) (T P : Type) where
  beginSyncPass : Bool → Attempt C R P
  applySyncChange : P → Change T → Attempt C R P
  finishSyncPass : P → PassResult → Attempt C R Unit

structure Engine (C : Type) (R : C → Type) (T P : Type) where
  cursorKey : String
  pageSize : ℤ
  cursors : Option (CursorStore C R)
  source : Option (Source C R T)
  applier : Option (Applier C R T P)

/-- The loop variables of an open pass. -/
structure Progress (P : Type) where
  full : Bool
  seen : Std.ExtTreeSet String
  fromConnectionID : String
  passCursor : ℤ
  pass : P

/-- The outcome of a run that has used up its pages. -/
def errStillRunning : String := "agent sync pass is still running"

section Run

variable {C : Type} {R : C → Type} {T P : Type}

/-- Whether the pass is full, and the cursor it starts from. -/
def loadCursor (cursors : CursorStore C R) (key : String) (full : Bool) :
    Attempt C R (Bool × ℤ) :=
  if full then pure (true, 0)
  else do
    match ← cursors.loadSyncCursor key with
    | some cursor => pure (false, cursor)
    | none => pure (true, 0)

def fetchPage (source : Source C R T) (full : Bool) (since pageSize : ℤ)
    (fromConnectionID : String) : Attempt C R (Response T) := do
  let response ← source.fetchSyncPage ⟨full, since, pageSize, fromConnectionID⟩
  ofExcept (validateResponse response pageSize)
  return response

/-- The first page fixes the cursor of the pass and may turn it into a full one. -/
def openPass (applier : Applier C R T P) (full : Bool) (response : Response T) :
    Attempt C R (Progress P) := do
  let pass ← applier.beginSyncPass (full || response.full)
  return ⟨full || response.full, ∅, "", response.manifestStartedAtMS, pass⟩

def Progress.advance (p : Progress P) (connectionID : String) (pass : P) : Progress P :=
  { p with
    seen := p.seen.insert connectionID
    fromConnectionID := connectionID
    pass := pass }

def applyChange (applier : Applier C R T P) (p : Progress P) (change : Change T) :
    Attempt C R (Progress P) := do
  let pass ← applier.applySyncChange p.pass change
  return p.advance change.connectionID pass

/-- The page loop, entered with the first page. -/
def pages (source : Source C R T) (applier : Applier C R T P) (since pageSize : ℤ) :
    ℕ → Response T → Progress P → Attempt C R (Progress P)
  | fuel, response, p => do
    let p ← response.changes.foldlM (applyChange applier) p
    if (response.changes.length : ℤ) < pageSize then return p
    else
      match fuel with
      | 0 => throw errStillRunning
      | fuel + 1 =>
        let response ← fetchPage source p.full since pageSize p.fromConnectionID
        pages source applier since pageSize fuel response p

/-- A pass with a valid page size and all three interfaces present. -/
def runPass (cursors : CursorStore C R) (source : Source C R T) (applier : Applier C R T P)
    (key : String) (pageSize : ℤ) (fuel : ℕ) (full : Bool) : Attempt C R Unit := do
  let (full, since) ← loadCursor cursors key full
  let response ← fetchPage source full since pageSize ""
  let p ← openPass applier full response
  let p ← pages source applier since pageSize fuel response p
  applier.finishSyncPass p.pass ⟨p.full, p.passCursor, p.seen⟩
  cursors.saveSyncCursor key p.passCursor

def Engine.run (e : Engine C R T P) (fuel : ℕ) (full : Bool) : Attempt C R Unit := do
  let pageSize := normalizePageSize e.pageSize
  ofExcept (validatePageSize pageSize)
  match e.cursors, e.source, e.applier with
  | none, _, _ => throw "agent sync cursor store is required"
  | _, none, _ => throw "agent sync source is required"
  | _, _, none => throw "agent sync applier is required"
  | some cursors, some source, some applier =>
    runPass cursors source applier e.cursorKey pageSize fuel full

end Run

/-! ## The proof rule of a pass -/

section Rule

variable {C : Type} {R : C → Type} {T P F W : Type} {S : Setting C R F W}

def Response.short (response : Response T) (pageSize : ℤ) : Bool :=
  (response.changes.length : ℤ) < pageSize

/-- Assertions at the points of a pass: before the first page, with the first page in hand, with an
open pass and the changes of a page still to apply (`fuel` further pages are allowed, and `short`
says whether this one is the last), after the pass is finished, and after a failure anywhere. -/
structure Outline (T P W : Type) where
  ready : Bool → ℤ → W → Prop
  first : Bool → ℤ → Response T → W → Prop
  mid : ℕ → ℤ → Bool → List (Change T) → Progress P → W → Prop
  finished : Progress P → W → Prop
  failed : W → Prop

/-- What the interfaces must do for the assertions to hold. -/
structure Outline.Holds (o : Outline T P W) (S : Setting C R F W) (source : Source C R T)
    (applier : Applier C R T P) (pageSize : ℤ) (fuel : ℕ) : Prop where
  ready : ∀ full since w, o.ready full since w →
    Prog.Safe S (source.fetchSyncPage ⟨full, since, pageSize, ""⟩).run
      (Prog.onOk (fun r w => o.failed w ∧
        (validateResponse r pageSize = .ok () → o.first full since r w)) fun _ => o.failed) w
  first : ∀ full since r w, validateResponse r pageSize = .ok () → o.first full since r w →
    Prog.Safe S (applier.beginSyncPass (full || r.full)).run
      (Prog.onOk (fun pass => o.mid fuel since (r.short pageSize) r.changes
        ⟨full || r.full, ∅, "", r.manifestStartedAtMS, pass⟩) fun _ => o.failed) w
  change : ∀ n since short c cs p w, o.mid n since short (c :: cs) p w →
    Prog.Safe S (applier.applySyncChange p.pass c).run
      (Prog.onOk (fun pass => o.mid n since short cs (p.advance c.connectionID pass))
        fun _ => o.failed) w
  spent : ∀ since p w, o.mid 0 since false [] p w → o.failed w
  next : ∀ n since p w, o.mid (n + 1) since false [] p w →
    Prog.Safe S (source.fetchSyncPage ⟨p.full, since, pageSize, p.fromConnectionID⟩).run
      (Prog.onOk (fun r w => o.failed w ∧ (validateResponse r pageSize = .ok () →
        o.mid n since (r.short pageSize) r.changes p w)) fun _ => o.failed) w
  finish : ∀ n since p w, o.mid n since true [] p w →
    Prog.Safe S (applier.finishSyncPass p.pass ⟨p.full, p.passCursor, p.seen⟩).run
      (Prog.onOk (fun _ => o.finished p) fun _ => o.failed) w

variable {o : Outline T P W} {source : Source C R T} {applier : Applier C R T P} {pageSize : ℤ}

theorem fetchPage_safe {full : Bool} {since : ℤ} {fromID : String} {Q : Response T → W → Prop}
    {E : W → Prop} {w : W}
    (h : Prog.Safe S (source.fetchSyncPage ⟨full, since, pageSize, fromID⟩).run
      (Prog.onOk (fun r w => E w ∧ (validateResponse r pageSize = .ok () → Q r w))
        fun _ => E) w) :
    Prog.Safe S (fetchPage source full since pageSize fromID).run
      (Prog.onOk (fun r w => validateResponse r pageSize = .ok () ∧ Q r w) fun _ => E) w := by
  refine Prog.Safe.andThen (h.weaken ?_)
  rintro (e | r) w' hr
  · exact hr w' (S.refl w')
  · refine Prog.Safe.check (fun _ hv => Prog.Safe.ok fun w'' hrel => ?_) fun e _ w'' hrel => ?_
    · exact ⟨hv, (hr w'' hrel).2 hv⟩
    · exact (hr w'' hrel).1

namespace Outline.Holds

variable {fuel : ℕ} (H : o.Holds S source applier pageSize fuel)
include H

theorem applyPage (n : ℕ) (since : ℤ) (short : Bool) (changes : List (Change T)) (p : Progress P)
    (w : W) (h : ∀ w', S.rely w w' → o.mid n since short changes p w') :
    Prog.Safe S (changes.foldlM (applyChange applier) p).run
      (Prog.onOk (fun p => o.mid n since short [] p) fun _ => o.failed) w := by
  refine Prog.Safe.foldlM (o.mid n since short) ?_ (fun p w h => h) changes p w h
  intro c cs p w h
  refine Prog.Safe.andThen ((H.change n since short c cs p w h).weaken ?_)
  rintro (e | pass) w' hw
  · exact hw w' (S.refl w')
  · exact Prog.Safe.ok hw

/-- The loop: whatever page it starts with, it ends after a short page. -/
theorem pages (since : ℤ) : ∀ (n : ℕ) (r : Response T) (p : Progress P) (w : W),
    (∀ w', S.rely w w' → o.mid n since (r.short pageSize) r.changes p w') →
    Prog.Safe S (pages source applier since pageSize n r p).run
      (Prog.onOk (fun p w => ∃ n, o.mid n since true [] p w) fun _ => o.failed) w
  | n, r, p, w, h => by
    unfold LazGate.pages
    refine Prog.Safe.andThen ((H.applyPage n since _ r.changes p w h).weaken ?_)
    rintro (e | p') w' hw
    · exact hw w' (S.refl w')
    have hw' : ∀ w'', S.rely w' w'' → o.mid n since (r.short pageSize) [] p' w'' := hw
    by_cases hs : (r.changes.length : ℤ) < pageSize
    · simp only [Response.short, hs, decide_true] at hw'
      simp only [Prog.onOk_ok, hs, if_true]
      exact Prog.Safe.ok fun w'' hr => ⟨n, hw' w'' hr⟩
    · simp only [Response.short, hs, decide_false] at hw'
      simp only [Prog.onOk_ok, hs, if_false]
      cases n with
      | zero => exact Prog.Safe.fail fun w'' hr => H.spent since p' w'' (hw' w'' hr)
      | succ n =>
        have hnext := H.next n since p' w' (hw' w' (S.refl w'))
        refine Prog.Safe.andThen ((fetchPage_safe hnext).weaken ?_)
        rintro (e | r') w'' hr
        · exact hr w'' (S.refl w'')
        · exact pages since n r' p' w'' fun w3 h3 => (hr w3 h3).2

/-- A whole pass, from the loading of the cursor to its saving. -/
theorem runPass {cursors : CursorStore C R} {key : String} {full : Bool} {Q : W → Prop} {w : W}
    (hload : Prog.Safe S (loadCursor cursors key full).run
      (Prog.onOk (fun r => o.ready r.1 r.2) fun _ => o.failed) w)
    (hsave : ∀ p w, o.finished p w → Prog.Safe S (cursors.saveSyncCursor key p.passCursor).run
      (Prog.onOk (fun _ => Q) fun _ => o.failed) w) :
    Prog.Safe S (runPass cursors source applier key pageSize fuel full).run
      (Prog.onOk (fun _ => Q) fun _ => o.failed) w := by
  unfold LazGate.runPass
  refine Prog.Safe.seq hload fun ⟨full, since⟩ w hw => ?_
  refine Prog.Safe.seq (fetchPage_safe (H.ready full since w hw)) fun r w hw => ?_
  refine Prog.Safe.andThen (Prog.Safe.andThen ((H.first full since r w hw.1 hw.2).weaken ?_))
  rintro (e | pass) w hw
  · exact hw w (S.refl w)
  refine Prog.Safe.ok fun w' hr => ?_
  refine Prog.Safe.seq (H.pages since fuel r _ w' fun w'' hr' => ?_) fun p w hw => ?_
  · exact hw w'' (S.trans _ _ _ hr hr')
  obtain ⟨n, hmid⟩ := hw
  exact Prog.Safe.seq (H.finish n since p w hmid) fun _ w hw => hsave p w hw

end Outline.Holds

end Rule

end LazGate
