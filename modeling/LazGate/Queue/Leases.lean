import LazGate.Lib.Runs
import LazGate.Queue

/-!
# Workers on one outbox
-/

namespace LazGate.Queue

variable {P R : Type}

/-! ## Reports -/

/-- What a worker reports about a message. -/
inductive Report (R : Type) where
  | acked (result : Option R)
  | applied (result : Option R)
  | expired (error : String)
  | failed (error : String) (retryAt : Option ℤ)

/-- `MarkAcked`, `MarkApplied`, `MarkExpired` and `MarkFailed`. -/
def Report.store (now : ℤ) (id : String) (t : Messages P R) : Report R → Messages P R
  | .acked result => t.markDone id .acked result ""
  | .applied result => t.markDone id .applied result ""
  | .expired error => t.markDone id .expired none error
  | .failed error retryAt => t.markFailed now id error retryAt

/-- The outbox, and which worker has leased which message and not reported on it yet. -/
structure Workers (P R : Type) where
  outbox : Messages P R
  held : List (ℕ × String)

inductive WorkerEvent (P R : Type) where
  | enqueueIfAbsent (now : ℤ) (msg : NewMessage P R)
  | leasePending (worker : ℕ) (now : ℤ) (actorID : String) (limit leaseFor : ℤ)
  | report (worker : ℕ) (id : String) (now : ℤ) (r : Report R)
  | requeueLeases (now : ℤ) (actorID : String)
  | expireOverdue (now : ℤ) (actorID : String)

namespace Workers

def step (s : Workers P R) : WorkerEvent P R → Option (Workers P R)
  | .enqueueIfAbsent now msg => some { s with outbox := s.outbox.write now false msg }
  | .leasePending worker now actorID limit leaseFor =>
    let r := s.outbox.leasePending now actorID limit leaseFor
    some ⟨r.2, s.held ++ r.1.map fun m => (worker, m.id)⟩
  | .report worker id now r =>
    if (worker, id) ∈ s.held then some ⟨r.store now id s.outbox, s.held.erase (worker, id)⟩
    else none
  | .requeueLeases now actorID => some { s with outbox := s.outbox.requeueLeases now actorID }
  | .expireOverdue now actorID => some { s with outbox := s.outbox.expireOverdue now actorID }

/-- A worker asks for a retry only while the message is open: nobody else has reported on it. -/
def RetriesOpen (s : Workers P R) : WorkerEvent P R → Prop
  | .report _ id now (.failed _ retryAt) =>
    retryAt.any (now < ·) = true → ∀ m ∈ s.outbox.rows, m.id = id → m.Open
  | _ => True

variable {s s' : Workers P R} {e : WorkerEvent P R} {m m' : Message P R}

theorem open_of_report {now : ℤ} {id : String} {t : Messages P R} (r : Report R)
    (hr : ∀ error retryAt, r = .failed error retryAt → retryAt.any (now < ·) = true →
      ∀ m ∈ t.rows, m.id = id → m.Open) (h : m' ∈ (r.store now id t).rows) :
    ∃ m ∈ t.rows, m'.key = m.key ∧ (m'.Open → m.Open) := by
  cases r with
  | failed error retryAt =>
    obtain ⟨m, hm, hk, ⟨hid, rfl⟩ | ⟨-, rfl⟩⟩ := Messages.of_mem_markFailed h
    · refine ⟨m, hm, hk, fun hopen => ?_⟩
      by_cases hretry : retryAt.any (now < ·) = true
      · exact hr error retryAt rfl hretry m hm hid
      · simp [Message.Open, hretry] at hopen
    · exact ⟨m', hm, rfl, fun h => h⟩
  | _ =>
    obtain ⟨m, hm, hk, ⟨-, rfl⟩ | ⟨-, rfl⟩⟩ := Messages.of_mem_markDone h
    · exact ⟨m, hm, hk, fun hopen => by simp [Message.Open] at hopen⟩
    · exact ⟨m', hm, rfl, fun h => h⟩

/-- Where the rows of a state come from: a row that is open was open before, or it is new. -/
theorem row_of_step (hk : RetriesOpen s e) (hs : step s e = some s') (h : m' ∈ s'.outbox.rows) :
    (∃ m ∈ s.outbox.rows, m'.key = m.key ∧ (m'.Open → m.Open)) ∨
      ∀ m ∈ s.outbox.rows, m.key ≠ m'.key := by
  cases e with
  | enqueueIfAbsent now msg =>
    cases hs
    rcases Messages.write_absent (t := s.outbox) now msg with ⟨hrows, -⟩ | ⟨hrows, hnew⟩
    · rw [hrows] at h
      exact .inl ⟨m', h, rfl, fun h => h⟩
    · rw [hrows] at h
      rcases List.mem_append.1 h with h | h
      · exact .inl ⟨m', h, rfl, fun h => h⟩
      · rw [List.mem_singleton.1 h]
        exact .inr hnew
  | leasePending worker now actorID limit leaseFor =>
    cases hs
    obtain ⟨m, hm, hkey, rfl | ⟨hp, -⟩⟩ := Messages.of_mem_leasePending h
    · exact .inl ⟨m', hm, rfl, fun h => h⟩
    · exact .inl ⟨m, hm, hkey, fun _ => .inl hp⟩
  | report worker id now r =>
    obtain ⟨-, heq⟩ := Option.ite_none_right_eq_some.1 hs
    cases heq
    refine .inl (open_of_report r ?_ h)
    rintro error retryAt rfl
    exact hk
  | requeueLeases now actorID =>
    cases hs
    obtain ⟨m, hm, hkey, ⟨hp, -⟩ | rfl⟩ := Messages.of_mem_requeueLeases h
    · exact .inl ⟨m, hm, hkey, fun _ => .inr hp⟩
    · exact .inl ⟨m', hm, rfl, fun h => h⟩
  | expireOverdue now actorID =>
    cases hs
    obtain ⟨m, hm, hkey, ⟨-, rfl⟩ | rfl⟩ := Messages.of_mem_expireOverdue h
    · exact .inl ⟨m, hm, hkey, fun hopen => by simp [Message.Open] at hopen⟩
    · exact .inl ⟨m', hm, rfl, fun h => h⟩

theorem mem_of_step (hs : step s e = some s') (h : m ∈ s.outbox.rows) :
    ∃ m' ∈ s'.outbox.rows, m'.key = m.key := by
  cases e with
  | enqueueIfAbsent now msg =>
    cases hs
    rcases Messages.write_absent (t := s.outbox) now msg with ⟨hrows, -⟩ | ⟨hrows, -⟩
    · exact ⟨m, by rwa [hrows], rfl⟩
    · exact ⟨m, by rw [hrows]; exact List.mem_append_left _ h, rfl⟩
  | leasePending worker now actorID limit leaseFor =>
    cases hs
    exact Messages.mem_leased_of_mem h
  | report worker id now r =>
    obtain ⟨-, heq⟩ := Option.ite_none_right_eq_some.1 hs
    cases heq
    cases r with
    | failed error retryAt => exact Messages.mem_markFailed_of_mem h
    | _ => exact Messages.mem_markDone_of_mem h
  | requeueLeases | expireOverdue =>
    cases hs
    exact Messages.mem_update_of_mem h fun _ => rfl

/-- The invariant: there is a row with the key, and it is not open. -/
def Closed (key : String × String) (s : Workers P R) : Prop :=
  (∃ m ∈ s.outbox.rows, m.key = key) ∧ ∀ m ∈ s.outbox.rows, m.key = key → ¬ m.Open

theorem closed_step (key : String × String) (s : Workers P R) (e : WorkerEvent P R)
    (s' : Workers P R) (h : Closed key s) (hk : RetriesOpen s e) (hs : step s e = some s') :
    Closed key s' := by
  obtain ⟨⟨m, hm, hkey⟩, hclosed⟩ := h
  obtain ⟨m', hm', hkey'⟩ := mem_of_step hs hm
  refine ⟨⟨m', hm', hkey'.trans hkey⟩, fun r hr hrkey hopen => ?_⟩
  rcases row_of_step hk hs hr with ⟨r₀, hr₀, hk₀, hopen₀⟩ | hnew
  · exact hclosed r₀ hr₀ (hk₀.symm.trans hrkey) (hopen₀ hopen)
  · exact hnew m hm (hkey.trans hrkey.symm)

end Workers

/-! ### A late report -/

/-- One message of a node that waits since the beginning. -/
def sampleOutbox : Messages Unit Unit :=
  ⟨[⟨"node", "r", "traffic_batch", .pending, 0, none, 0, some (), none, ""⟩],
    List.nodup_singleton _⟩

/-- The worker 0 leases the message and is slow; its lease runs out, and the worker 1 leases the
message and completes it. -/
def sampleLate : List (WorkerEvent Unit Unit) :=
  [.leasePending 0 0 "node" 100 minute, .requeueLeases (2 * minute) "node",
    .leasePending 1 (2 * minute) "node" 100 minute, .report 1 "r" (2 * minute) (.acked none)]

namespace Workers

end Workers

/-! ## The statements of `LeasePending` -/

inductive CallState where
  | running
  | committed
  | rolledBack
  deriving DecidableEq

/-- A call of `LeasePending`: the messages it has selected, and those of them whose update it has
still to make. -/
structure LeaseCall (P R : Type) where
  read : List (Message P R)
  todo : List (Message P R)
  untilMs : ℤ
  state : CallState

/-- The call has updated the row in a transaction that is still open, and so holds its lock. -/
def LeaseCall.Locks (c : LeaseCall P R) (m : Message P R) : Prop :=
  c.state = .running ∧ m.key ∈ c.read.map Message.key ∧ m.key ∉ c.todo.map Message.key

instance (c : LeaseCall P R) (m : Message P R) : Decidable (c.Locks m) :=
  inferInstanceAs (Decidable (_ ∧ _ ∧ _))

/-- The committed table of one actor's messages, and all calls in the order of their starts. -/
structure Leasing (P R : Type) where
  outbox : Messages P R
  calls : List (LeaseCall P R)

/-- The statements: the selection of a new call, and the next update, the commit and the rollback
of the call with that number. -/
inductive LeaseEvent where
  | select (now limit leaseFor : ℤ)
  | update (i : ℕ)
  | commit (i : ℕ)
  | rollback (i : ℕ)

variable {i : ℕ}

namespace Leasing

/-- An update waits for the lock of its row. What a transaction has updated is seen by the others
when it commits. -/
def step (actorID : String) (s : Leasing P R) : LeaseEvent → Option (Leasing P R)
  | .select now limit leaseFor =>
    let read := s.outbox.due now actorID limit
    some { s with calls := s.calls ++ [⟨read, read, timeMs (now + leaseFor), .running⟩] }
  | .update i =>
    match s.calls[i]? with
    | some ⟨read, m :: todo, untilMs, .running⟩ =>
      if ∃ c ∈ s.calls, c.Locks m then none
      else some { s with calls := s.calls.set i ⟨read, todo, untilMs, .running⟩ }
    | _ => none
  | .commit i =>
    match s.calls[i]? with
    | some ⟨read, [], untilMs, .running⟩ =>
      some ⟨read.foldl (Messages.markLeased untilMs) s.outbox,
        s.calls.set i ⟨read, [], untilMs, .committed⟩⟩
    | _ => none
  | .rollback i =>
    match s.calls[i]? with
    | some ⟨read, todo, untilMs, .running⟩ =>
      some { s with calls := s.calls.set i ⟨read, todo, untilMs, .rolledBack⟩ }
    | _ => none

/-- A call selects only when no other call is between the selection of some messages and its
commit. -/
def SelectsAlone (s : Leasing P R) : LeaseEvent → Prop
  | .select _ _ _ => ∀ c ∈ s.calls, c.state = .running → c.read = []
  | _ => True

instance (s : Leasing P R) (e : LeaseEvent) : Decidable (SelectsAlone s e) := by
  unfold SelectsAlone
  split <;> infer_instance

def returned (s : Leasing P R) (i : ℕ) : List (Message P R) :=
  match s.calls[i]? with
  | some ⟨read, _, _, .committed⟩ => read
  | _ => []

/-- What a statement does: a new call selects, a call that runs goes on or ends, or a call that has
made all its updates commits them. -/
inductive Effect (actorID : String) (s : Leasing P R) (e : LeaseEvent) : Leasing P R → Prop where
  | select (now limit leaseFor : ℤ) (he : e = .select now limit leaseFor) :
      Effect actorID s e { s with calls := s.calls ++ [⟨s.outbox.due now actorID limit,
        s.outbox.due now actorID limit, timeMs (now + leaseFor), .running⟩] }
  | proceed (i : ℕ) (c c' : LeaseCall P R) (hc : s.calls[i]? = some c) (hrun : c.state = .running)
      (hread : c'.read = c.read) (hstate : c'.state ≠ .committed) :
      Effect actorID s e { s with calls := s.calls.set i c' }
  | commit (i : ℕ) (c : LeaseCall P R) (hc : s.calls[i]? = some c) (hrun : c.state = .running) :
      Effect actorID s e ⟨c.read.foldl (Messages.markLeased c.untilMs) s.outbox,
        s.calls.set i { c with state := .committed }⟩

variable {actorID : String} {s s' : Leasing P R} {e : LeaseEvent}

theorem effect_of_step (h : step actorID s e = some s') : Effect actorID s e s' := by
  cases e with
  | select now limit leaseFor =>
    cases h
    exact .select now limit leaseFor rfl
  | update i =>
    simp only [step] at h
    split at h
    · rename_i read m todo untilMs hc
      obtain ⟨-, heq⟩ := Option.ite_none_left_eq_some.1 h
      cases heq
      exact .proceed i _ _ hc rfl rfl (by simp)
    · cases h
  | commit i =>
    simp only [step] at h
    split at h
    · rename_i read untilMs hc
      cases h
      exact .commit i _ hc rfl
    · cases h
  | rollback i =>
    simp only [step] at h
    split at h
    · rename_i read todo untilMs hc
      cases h
      exact .proceed i _ _ hc rfl rfl (by simp)
    · cases h

/-- What holds as long as calls select alone. -/
structure Exclusive (s : Leasing P R) : Prop where
  /-- a message that was handed out does not wait any more -/
  leased : ∀ c ∈ s.calls, c.state = .committed → ∀ m ∈ c.read, ∀ r ∈ s.outbox.rows,
    r.key = m.key → r.status ≠ .pending
  /-- calls that may still return their messages have selected different ones -/
  apart : s.calls.Pairwise fun c d => c.state ≠ .rolledBack → d.state ≠ .rolledBack →
    ∀ m ∈ c.read, ∀ m' ∈ d.read, m.key ≠ m'.key

theorem pairwise_set {rel : LeaseCall P R → LeaseCall P R → Prop} {calls : List (LeaseCall P R)}
    {c c' : LeaseCall P R} (h : calls.Pairwise rel) (hc : calls[i]? = some c)
    (hleft : ∀ d, rel c d → rel c' d) (hright : ∀ d, rel d c → rel d c') :
    (calls.set i c').Pairwise rel := by
  induction calls generalizing i with
  | nil => simp
  | cons d calls ih =>
    obtain ⟨hd, hcalls⟩ := List.pairwise_cons.1 h
    cases i with
    | zero =>
      obtain rfl : d = c := by simpa using hc
      exact List.pairwise_cons.2 ⟨fun x hx => hleft x (hd x hx), hcalls⟩
    | succ i =>
      have hc' : calls[i]? = some c := by simpa using hc
      refine List.pairwise_cons.2 ⟨fun x hx => ?_, ih hcalls hc'⟩
      rcases List.mem_or_eq_of_mem_set hx with hx | rfl
      · exact hd x hx
      · exact hright d (hd c (List.mem_of_getElem? hc'))

theorem Exclusive.select (h : Exclusive s)
    (halone : ∀ c ∈ s.calls, c.state = .running → c.read = [])
    (now limit untilMs : ℤ) : Exclusive { s with calls := s.calls ++
      [⟨s.outbox.due now actorID limit, s.outbox.due now actorID limit, untilMs, .running⟩] } where
  leased := by
    intro c hc hstate
    rcases List.mem_append.1 hc with hc | hc
    · exact h.leased c hc hstate
    · rw [List.mem_singleton.1 hc] at hstate
      cases hstate
  apart := by
    refine List.pairwise_append.2 ⟨h.apart, List.pairwise_singleton _ _, ?_⟩
    intro c hc d hd hstate _ m hm m' hm' hkey
    rw [List.mem_singleton.1 hd] at hm'
    -- the new call selects rows that wait; an earlier one has read nothing or has committed
    cases hcs : c.state with
    | running => simp [halone c hc hcs] at hm
    | rolledBack => exact hstate hcs
    | committed =>
      have hdue := Messages.pending_of_mem_due hm'
      exact h.leased c hc hcs m hm m' hdue.1 hkey.symm hdue.2.2

theorem Exclusive.proceed (h : Exclusive s) {c c' : LeaseCall P R} (hc : s.calls[i]? = some c)
    (hrun : c.state = .running) (hread : c'.read = c.read)
    (hstate : c'.state ≠ .committed) : Exclusive { s with calls := s.calls.set i c' } where
  leased := by
    intro d hd hds
    rcases List.mem_or_eq_of_mem_set hd with hd | rfl
    · exact h.leased d hd hds
    · exact absurd hds hstate
  apart := by
    have hne : c.state ≠ .rolledBack := by simp [hrun]
    refine pairwise_set h.apart hc (fun d hd _ hd' => ?_) fun d hd hd' _ => ?_
    · rw [hread]
      exact hd hne hd'
    · rw [hread]
      exact hd hd' hne

theorem Exclusive.commit (h : Exclusive s) {c : LeaseCall P R} (hc : s.calls[i]? = some c)
    (hrun : c.state = .running) :
    Exclusive ⟨c.read.foldl (Messages.markLeased c.untilMs) s.outbox,
      s.calls.set i { c with state := .committed }⟩ where
  leased := by
    intro d hd hds m hm r hr hkey hpending
    obtain ⟨r₀, hr₀, hk₀, ⟨rfl, hnot⟩ | ⟨rfl, -⟩⟩ := Messages.of_mem_leased hr
    · rcases List.mem_or_eq_of_mem_set hd with hd | rfl
      · exact h.leased d hd hds m hm r hr₀ hkey hpending
      · exact hnot m hm hkey.symm
    · cases hpending
  apart := by
    have hne : c.state ≠ .rolledBack := by simp [hrun]
    exact pairwise_set h.apart hc (fun d hd _ hd' => hd hne hd') fun d hd hd' _ => hd hd' hne

theorem exclusive_step (s : Leasing P R) (e : LeaseEvent) (s' : Leasing P R) (h : Exclusive s)
    (hk : SelectsAlone s e) (hs : step actorID s e = some s') : Exclusive s' := by
  cases effect_of_step hs with
  | select now limit leaseFor he =>
    subst he
    exact h.select hk now limit _
  | proceed i c c' hc hrun hread hstate => exact h.proceed hc hrun hread hstate
  | commit i c hc hrun => exact h.commit hc hrun

theorem mem_of_mem_returned {m : Message P R} (h : m ∈ s.returned i) :
    ∃ c, s.calls[i]? = some c ∧ c.state = .committed ∧ m ∈ c.read := by
  unfold returned at h
  split at h
  · rename_i read todo untilMs hc
    exact ⟨_, hc, rfl, h⟩
  · cases h

/-- As long as each call selects while no other is between selection and commit, no message is
returned by two calls. -/
theorem lease_is_exclusive (actorID : String) (outbox : Messages P R) (es : List LeaseEvent)
    (s : Leasing P R) (hes : Along (step actorID) SelectsAlone ⟨outbox, []⟩ es)
    (hs : runs (step actorID) ⟨outbox, []⟩ es = some s) (i j : ℕ) (hij : i ≠ j) :
    ∀ m ∈ s.returned i, ∀ m' ∈ s.returned j, m.key ≠ m'.key := by
  have hinit : Exclusive (⟨outbox, []⟩ : Leasing P R) := ⟨by simp, List.Pairwise.nil⟩
  have hex := runs_inv exclusive_step hes hs hinit
  intro m hm m' hm'
  obtain ⟨c, hc, hcs, hmc⟩ := mem_of_mem_returned hm
  obtain ⟨d, hd, hds, hmd⟩ := mem_of_mem_returned hm'
  obtain ⟨hi, rfl⟩ := List.getElem?_eq_some_iff.1 hc
  obtain ⟨hj, rfl⟩ := List.getElem?_eq_some_iff.1 hd
  rcases Nat.lt_or_gt_of_ne hij with hlt | hlt
  · exact List.pairwise_iff_getElem.1 hex.apart i j hi hj hlt (by simp [hcs]) (by simp [hds])
      m hmc m' hmd
  · exact (List.pairwise_iff_getElem.1 hex.apart j i hj hi hlt (by simp [hds]) (by simp [hcs])
      m' hmd m hmc).symm

/-- A message that waits. -/
def waiting (id : String) : Message Unit Unit :=
  ⟨"node", id, "traffic_batch", .pending, 0, none, 0, some (), none, ""⟩

def twoMessages : Messages Unit Unit := ⟨[waiting "q", waiting "r"], by decide⟩

/-- What follows the selection of two calls that take one message each. -/
def inTurn : List LeaseEvent := [.update 0, .commit 0, .select 1 1 minute, .update 1, .commit 1]

/-- The first call has selected the first message. -/
def selected : Leasing Unit Unit :=
  ⟨twoMessages, [⟨[waiting "q"], [waiting "q"], timeMs minute, .running⟩]⟩

theorem step_twoMessages :
    step "node" ⟨twoMessages, []⟩ (.select 0 1 minute) = some selected := by
  have hdue : twoMessages.due 0 "node" 1 = [waiting "q"] := by
    rw [Messages.due, List.mergeSort_of_pairwise (by decide +kernel)]
    rfl
  rw [step, hdue]
  rfl

theorem lease_is_exclusive_twice :
    ∃ s, runs (step "node") ⟨twoMessages, []⟩ (.select 0 1 minute :: inTurn) = some s ∧
      (s.returned 0).length = 1 ∧ (s.returned 1).length = 1 ∧
      ∀ m ∈ s.returned 0, ∀ m' ∈ s.returned 1, m.key ≠ m'.key := by
  have hcounts : (runs (step "node") selected inTurn).map
      (fun s => ((s.returned 0).length, (s.returned 1).length)) = some (1, 1) := by decide +kernel
  obtain ⟨s, hs, hcount⟩ := Option.map_eq_some_iff.1 hcounts
  obtain ⟨hfirst, hsecond⟩ := Prod.mk.inj hcount
  have hruns := (runs_cons _ _ _ _).2 ⟨selected, step_twoMessages, hs⟩
  have halone : Along (step "node") SelectsAlone ⟨twoMessages, []⟩
      (.select 0 1 minute :: inTurn) := by
    refine ⟨(fun c hc => nomatch hc), fun s' hs' => ?_⟩
    obtain rfl := Option.some.inj (step_twoMessages.symm.trans hs')
    decide +kernel
  exact ⟨s, hruns, hfirst, hsecond,
    lease_is_exclusive "node" twoMessages _ s halone hruns 0 1 (by decide)⟩

/-- Two calls select the same message before either has committed; the second update waits for the
first transaction and then goes through, and both return the message. -/
theorem lease_returned_twice :
    (runs (step "node") ⟨sampleOutbox, []⟩ [.select 0 100 minute, .select 1 100 minute, .update 0,
      .commit 0, .update 1, .commit 1]).map
        (fun s => ((s.returned 0).map (·.key), (s.returned 1).map (·.key))) =
      some ([("node", "r")], [("node", "r")]) := by
  decide +kernel

end Leasing

end LazGate.Queue
