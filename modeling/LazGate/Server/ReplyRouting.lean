import LazGate.Lib.Runs

/-!
# Reply routing on the stream of an agent

Package `agentprotocol`: `Request` registers a channel of capacity one under its request id, sends
its message and waits; `processLoop` takes the agent's messages one after the other, looks up the
channel of a reply and sends it there. The lookup and the send are two steps, and nothing but a
receiver ends the send.
-/

namespace LazGate.StreamHub

variable {In Out : Type}

/-- Where a `Request` is: before the send, waiting for the reply, before the deferred removal of
its channel, and at its end. -/
inductive Phase (In : Type) where
  | registered
  | waiting
  | leaving (result : Option In)
  | ended

/-- The `Request` still takes part in the exchange. -/
def Phase.isRunning : Phase In → Bool
  | .registered | .waiting => true
  | _ => false

/-- A call of `Request`. -/
structure Request (In Out : Type) where
  requestID : String
  channel : ℕ
  msg : Out
  phase : Phase In

inductive Loop (In : Type) where
  | idle
  | delivering (channel : ℕ) (msg : In)
  | stopped

/-- `StreamNode`, with the calls of `Request` and the process loop. A channel is named by its place
in `channels`; it holds one message at most. -/
structure Stream (In Out : Type) where
  incoming : List In
  send : List Out
  channels : List (Option In)
  pending : List (String × ℕ)
  requests : List (Request In Out)
  loop : Loop In
  done : Bool

/-- A stream after `Connect`. -/
def Stream.connected : Stream In Out := ⟨[], [], [], [], [], .idle, false⟩

/-- The buffers of `NewStreamNode`. -/
def sendBuffer : ℕ := 64

def incomingBuffer : ℕ := 128

namespace Stream

/-- The channel that is registered for a reply; one without an id has none. -/
def channelOf (s : Stream In Out) (requestID : String) : Option ℕ :=
  if requestID = "" then none else s.pending.lookup requestID

/-- The message that waits in a channel. -/
def buffered (s : Stream In Out) (channel : ℕ) : Option In := (s.channels[channel]?).join

def setPhase (s : Stream In Out) (i : ℕ) (r : Request In Out) (phase : Phase In) :
    Stream In Out :=
  { s with requests := s.requests.set i { r with phase := phase } }

end Stream

inductive Event (In Out : Type) where
  /-- `readLoop` passes a message of the agent on -/
  | arrive (msg : In)
  /-- `writeLoop` takes a message -/
  | write
  /-- the session is closed or replaced -/
  | close
  /-- the process loop takes the next message and looks its channel up -/
  | lookup
  /-- the process loop sends on the channel -/
  | deliver
  /-- the process loop returns -/
  | quit
  /-- a `Request` registers its channel -/
  | register (requestID : String) (msg : Out)
  /-- `Request` number `i` puts its message into the send buffer -/
  | sent (i : ℕ)
  /-- it receives the reply -/
  | receive (i : ℕ)
  /-- its context ends, or it finds the session closed before the send -/
  | giveUp (i : ℕ)
  /-- it removes the channel that is registered under its id -/
  | unregister (i : ℕ)

/-- The `Request` whose step the event is. -/
def Event.request? : Event In Out → Option ℕ
  | .sent i | .receive i | .giveUp i | .unregister i => some i
  | _ => none

/-- One step. A message for which no channel is registered goes to the router. -/
def step (requestID : In → String) (s : Stream In Out) : Event In Out → Option (Stream In Out)
  | .arrive msg =>
    if s.incoming.length < incomingBuffer then some { s with incoming := s.incoming ++ [msg] }
    else none
  | .write =>
    match s.send with
    | _ :: rest => some { s with send := rest }
    | [] => none
  | .close => some { s with done := true }
  | .lookup =>
    match s.loop, s.incoming with
    | .idle, msg :: rest =>
      match s.channelOf (requestID msg) with
      | some channel => some { s with incoming := rest, loop := .delivering channel msg }
      | none => some { s with incoming := rest }
    | _, _ => none
  | .deliver =>
    match s.loop with
    | .delivering channel msg =>
      match s.channels[channel]? with
      | some none =>
        some { s with channels := s.channels.set channel (some msg), loop := .idle }
      | _ => none
    | _ => none
  | .quit =>
    match s.loop with
    | .idle => if s.done then some { s with loop := .stopped } else none
    | _ => none
  | .register id msg =>
    some { s with
      channels := s.channels ++ [none]
      pending := (id, s.channels.length) :: s.pending.filter (·.1 != id)
      requests := s.requests ++ [⟨id, s.channels.length, msg, .registered⟩] }
  | .sent i =>
    match s.requests[i]? with
    | some r =>
      match r.phase with
      | .registered =>
        if s.send.length < sendBuffer then
          some { s.setPhase i r .waiting with send := s.send ++ [r.msg] }
        else none
      | _ => none
    | none => none
  | .receive i =>
    match s.requests[i]? with
    | some r =>
      match r.phase, s.channels[r.channel]? with
      | .waiting, some (some msg) =>
        some { s.setPhase i r (.leaving (some msg)) with channels := s.channels.set r.channel none }
      | _, _ => none
    | none => none
  | .giveUp i =>
    match s.requests[i]? with
    | some r => if r.phase.isRunning then some (s.setPhase i r (.leaving none)) else none
    | none => none
  | .unregister i =>
    match s.requests[i]? with
    | some r =>
      match r.phase with
      | .leaving _ =>
        some { s.setPhase i r .ended with pending := s.pending.filter (·.1 != r.requestID) }
      | _ => none
    | none => none

/-- The process loop is idle or over, or it can deliver its reply now or after a step of a
`Request` that has not ended. -/
def Free (requestID : In → String) (s : Stream In Out) : Prop :=
  match s.loop with
  | .idle | .stopped => True
  | .delivering _ _ => (step requestID s .deliver).isSome ∨
    ∃ e i s', e.request? = some i ∧ step requestID s e = some s' ∧
      (step requestID s' .deliver).isSome

variable {requestID : In → String} {s s' : Stream In Out} {e : Event In Out}

/-! ## What a step does -/

/-- All that matters about a step: only the loop fills a channel, only a `Request` that waits on it
empties it, and a new channel comes with its `Request`. -/
structure Effect (requestID : In → String) (s : Stream In Out) (e : Event In Out)
    (s' : Stream In Out) : Prop where
  loop : s'.loop = s.loop ∨ s'.loop = .idle ∨ s'.loop = .stopped ∨
    ∃ msg rest channel, e = .lookup ∧ s.incoming = msg :: rest ∧
      s.channelOf (requestID msg) = some channel ∧ s'.loop = .delivering channel msg ∧
      s'.channels = s.channels
  held : ∀ channel msg, s.loop = .delivering channel msg → e ≠ .deliver → s'.loop = s.loop
  delivered : e = .deliver → s'.loop = .idle
  length : s.channels.length ≤ s'.channels.length
  channels : ∀ channel b, s.channels[channel]? = some b → e ≠ .deliver →
    s'.channels[channel]? = some b ∨ s'.channels[channel]? = some none ∧
      ∃ r ∈ s.requests, r.channel = channel ∧ r.phase.isRunning = true
  requests : ∀ r' ∈ s'.requests, r'.phase.isRunning = true → r'.channel = s.channels.length ∨
    ∃ r ∈ s.requests, r.channel = r'.channel ∧ r.phase.isRunning = true
  pending : ∀ p ∈ s'.pending, p ∈ s.pending ∨ p.2 < s'.channels.length

theorem Effect.of_same (he : e ≠ .deliver) (hloop : s'.loop = s.loop)
    (hchannels : s'.channels = s.channels)
    (hrequests : s'.requests = s.requests) (hpending : s'.pending = s.pending) :
    Effect requestID s e s' where
  loop := .inl hloop
  held _ _ _ _ := hloop
  delivered h := absurd h he
  length := by rw [hchannels]
  channels _ _ h _ := .inl (hchannels ▸ h)
  requests r' hr hrun := .inr ⟨r', hrequests ▸ hr, rfl, hrun⟩
  pending p hp := .inl (hpending ▸ hp)

theorem requests_setPhase {i : ℕ} {r : Request In Out} (hr : s.requests[i]? = some r)
    {phase : Phase In} (hphase : phase.isRunning = true → r.phase.isRunning = true) :
    ∀ r' ∈ (s.setPhase i r phase).requests, r'.phase.isRunning = true →
      ∃ r ∈ s.requests, r.channel = r'.channel ∧ r.phase.isRunning = true := by
  intro r' hr' hrun
  rcases List.mem_or_eq_of_mem_set hr' with hmem | rfl
  · exact ⟨r', hmem, rfl, hrun⟩
  · exact ⟨r, List.mem_of_getElem? hr, rfl, hphase hrun⟩

theorem effect_of_step (hs : step requestID s e = some s') : Effect requestID s e s' := by
  cases e with
  | arrive | write =>
    simp only [step] at hs
    split at hs
    · cases hs
      exact .of_same nofun rfl rfl rfl rfl
    · cases hs
  | close =>
    cases hs
    exact .of_same nofun rfl rfl rfl rfl
  | lookup =>
    simp only [step] at hs
    split at hs
    · rename_i msg rest hloop hincoming
      split at hs
      · rename_i channel hchannel
        cases hs
        refine ⟨.inr (.inr (.inr ⟨msg, rest, channel, rfl, hincoming, hchannel, rfl, rfl⟩)), ?_,
          nofun, le_rfl, fun _ _ h _ => .inl h, fun r' hr hrun => .inr ⟨r', hr, rfl, hrun⟩,
          fun p hp => .inl hp⟩
        intro _ _ h
        rw [hloop] at h
        cases h
      · cases hs
        exact .of_same nofun rfl rfl rfl rfl
    · cases hs
  | deliver =>
    simp only [step] at hs
    split at hs
    · split at hs
      · cases hs
        exact ⟨.inr (.inl rfl), fun _ _ _ h => absurd rfl h, fun _ => rfl, by simp,
          fun _ _ _ h => absurd rfl h, fun r' hr hrun => .inr ⟨r', hr, rfl, hrun⟩,
          fun p hp => .inl hp⟩
      · cases hs
    · cases hs
  | quit =>
    simp only [step] at hs
    split at hs
    · rename_i hloop
      split at hs
      · cases hs
        refine ⟨.inr (.inr (.inl rfl)), ?_, nofun, le_rfl, fun _ _ h _ => .inl h,
          fun r' hr hrun => .inr ⟨r', hr, rfl, hrun⟩, fun p hp => .inl hp⟩
        intro _ _ h
        rw [hloop] at h
        cases h
      · cases hs
    · cases hs
  | register id msg =>
    cases hs
    refine ⟨.inl rfl, fun _ _ _ _ => rfl, nofun, by simp, ?_, ?_, ?_⟩
    · intro channel b h _
      have hlt := (List.getElem?_eq_some_iff.1 h).1
      exact .inl ((List.getElem?_append_left hlt).trans h)
    · intro r' hr hrun
      rcases List.mem_append.1 hr with hr | hr
      · exact .inr ⟨r', hr, rfl, hrun⟩
      · rw [List.mem_singleton.1 hr]
        exact .inl rfl
    · intro p hp
      rcases List.mem_cons.1 hp with rfl | hp
      · exact .inr (by simp)
      · exact .inl (List.mem_filter.1 hp).1
  | sent i =>
    simp only [step] at hs
    split at hs
    · rename_i r hr
      split at hs
      · rename_i hphase
        split at hs
        · cases hs
          exact ⟨.inl rfl, fun _ _ _ _ => rfl, nofun, le_rfl, fun _ _ h _ => .inl h,
            fun r' hr' hrun =>
              .inr (requests_setPhase hr (fun _ => by rw [hphase]; rfl) r' hr' hrun),
            fun p hp => .inl hp⟩
        · cases hs
      · cases hs
    · cases hs
  | receive i =>
    simp only [step] at hs
    split at hs
    · rename_i r hr
      split at hs
      · rename_i msg hphase hchannel
        cases hs
        refine ⟨.inl rfl, fun _ _ _ _ => rfl, nofun, by simp, ?_,
          fun r' hr' hrun => .inr (requests_setPhase hr (fun h => by cases h) r' hr' hrun),
          fun p hp => .inl hp⟩
        intro channel b h _
        by_cases hc : r.channel = channel
        · subst hc
          refine .inr ⟨?_, r, List.mem_of_getElem? hr, rfl, by rw [hphase]; rfl⟩
          exact List.getElem?_set_self (List.getElem?_eq_some_iff.1 h).1
        · exact .inl ((List.getElem?_set_ne hc).trans h)
      · cases hs
    · cases hs
  | giveUp i =>
    simp only [step] at hs
    split at hs
    · rename_i r hr
      split at hs
      · cases hs
        exact ⟨.inl rfl, fun _ _ _ _ => rfl, nofun, le_rfl, fun _ _ h _ => .inl h,
          fun r' hr' hrun => .inr (requests_setPhase hr (fun h => by cases h) r' hr' hrun),
          fun p hp => .inl hp⟩
      · cases hs
    · cases hs
  | unregister i =>
    simp only [step] at hs
    split at hs
    · rename_i r hr
      split at hs
      · cases hs
        exact ⟨.inl rfl, fun _ _ _ _ => rfl, nofun, le_rfl, fun _ _ h _ => .inl h,
          fun r' hr' hrun => .inr (requests_setPhase hr (fun h => by cases h) r' hr' hrun),
          fun p hp => .inl (List.mem_filter.1 hp).1⟩
      · cases hs
    · cases hs

/-! ## A loop that is stuck -/

/-- The loop waits on a full channel that no `Request` reads. -/
def Stuck (s : Stream In Out) : Prop :=
  ∃ channel msg old, s.loop = .delivering channel msg ∧ s.channels[channel]? = some (some old) ∧
    ∀ r ∈ s.requests, r.channel = channel → r.phase.isRunning = false

theorem Stuck.deliver (h : Stuck s) : step requestID s .deliver = none := by
  obtain ⟨channel, msg, old, hloop, hfull, -⟩ := h
  simp only [StreamHub.step, hloop, hfull]

theorem Stuck.step (h : Stuck s) (hs : step requestID s e = some s') : Stuck s' := by
  have hne : e ≠ .deliver := by
    rintro rfl
    rw [h.deliver] at hs
    cases hs
  have heffect := effect_of_step hs
  obtain ⟨channel, msg, old, hloop, hfull, hover⟩ := h
  refine ⟨channel, msg, old, (heffect.held channel msg hloop hne).trans hloop, ?_, ?_⟩
  · rcases heffect.channels channel _ hfull hne with hsame | ⟨-, r, hr, hc, hrun⟩
    · exact hsame
    · rw [hover r hr hc] at hrun
      cases hrun
  · intro r' hr' hc
    rw [Bool.eq_false_iff]
    intro hrun
    rcases heffect.requests r' hr' hrun with hnew | ⟨r, hr, hrc, hrun'⟩
    · have hlt := (List.getElem?_eq_some_iff.1 hfull).1
      omega
    · rw [hover r hr (hrc.trans hc)] at hrun'
      cases hrun'

theorem Stuck.not_free (h : Stuck s) : ¬ Free requestID s := by
  obtain ⟨channel, msg, old, hloop, hfull, hover⟩ := id h
  rw [Free, hloop]
  rintro (hnow | ⟨e, i, s', -, hs, hnext⟩)
  · rw [h.deliver] at hnow
    cases hnow
  · rw [(h.step hs).deliver] at hnext
    cases hnext

theorem Stuck.runs {es : List (Event In Out)} (h : Stuck s)
    (hs : runs (StreamHub.step requestID) s es = some s') : Stuck s' :=
  runs_inv (M := fun _ _ => True) (fun _ _ _ h _ hs => h.step hs)
    (along_of_forall fun _ _ _ => trivial) hs h

/-! ## Replies that find their channel empty -/

/-- When the loop looks up the channel of a reply, no other reply waits in it. -/
def FindsEmpty (requestID : In → String) (s : Stream In Out) (e : Event In Out) : Prop :=
  match e, s.incoming with
  | .lookup, msg :: _ => (s.channelOf (requestID msg)).bind s.buffered |>.isNone
  | _, _ => True

instance (requestID : In → String) (s : Stream In Out) (e : Event In Out) :
    Decidable (FindsEmpty requestID s e) := by
  unfold FindsEmpty
  split <;> infer_instance

structure Ready (s : Stream In Out) : Prop where
  pending : ∀ p ∈ s.pending, p.2 < s.channels.length
  empty : ∀ channel msg, s.loop = .delivering channel msg → s.channels[channel]? = some none

theorem mem_pending_of_channelOf {id : String} {channel : ℕ} (h : s.channelOf id = some channel) :
    (id, channel) ∈ s.pending := by
  unfold Stream.channelOf at h
  split at h
  · cases h
  · obtain ⟨l₁, l₂, hl, -⟩ := List.lookup_eq_some_iff.1 h
    rw [hl]
    simp

theorem Ready.step (h : Ready s) (hm : FindsEmpty requestID s e)
    (hs : step requestID s e = some s') :
    Ready s' := by
  have heffect := effect_of_step hs
  refine ⟨fun p hp => ?_, fun channel msg hloop' => ?_⟩
  · rcases heffect.pending p hp with hold | hnew
    · exact (h.pending p hold).trans_le heffect.length
    · exact hnew
  · by_cases he : e = .deliver
    · rw [heffect.delivered he] at hloop'
      cases hloop'
    rcases heffect.loop with hsame | hidle | hstopped | hfound
    · -- a channel the loop waits on can only be emptied
      have hnone := h.empty channel msg (hsame ▸ hloop')
      rcases heffect.channels channel none hnone he with hempty | ⟨hempty, -⟩ <;> exact hempty
    · rw [hidle] at hloop'
      cases hloop'
    · rw [hstopped] at hloop'
      cases hloop'
    · obtain ⟨msg', rest, channel', rfl, hincoming, hchannel, hloop, hchannels⟩ := hfound
      rw [hloop] at hloop'
      cases hloop'
      rw [hchannels]
      have hlt := h.pending _ (mem_pending_of_channelOf hchannel)
      simp only [FindsEmpty, hincoming, hchannel, Option.bind_some, Stream.buffered,
        Option.isNone_iff_eq_none, Option.join_eq_none_iff] at hm
      rcases hm with hnone | hnone
      · rw [List.getElem?_eq_none_iff] at hnone
        omega
      · exact hnone

theorem Ready.free (h : Ready s) : Free requestID s := by
  unfold Free
  cases hloop : s.loop with
  | idle | stopped => trivial
  | delivering channel msg =>
    left
    simp only [StreamHub.step, hloop, h.empty channel msg hloop]
    rfl

/-- While a reply is looked up only when no other waits in its channel, the process loop is never
stuck. -/
theorem replies_delivered (requestID : In → String) (es : List (Event In Out)) (s : Stream In Out)
    (hempty : Along (step requestID) (FindsEmpty requestID) (.connected : Stream In Out) es)
    (hs : runs (step requestID) .connected es = some s) : Free requestID s := by
  have hready : Ready (.connected : Stream In Out) := ⟨nofun, fun _ _ h => by cases h⟩
  exact (runs_inv (fun _ _ _ h hm hs => h.step hm hs) hempty hs hready).free

namespace StreamSample

/-- A request is sent, and two replies to it arrive. -/
def answeredTwice : List (Event String String) :=
  [.register "r" "config", .sent 0, .arrive "r", .arrive "r", .lookup, .deliver]

end StreamSample

open StreamSample in
/-- The second reply is looked up, and the `Request` gives up before it has received the first:
the loop waits for ever. -/
theorem replies_stuck :
    ∃ s, runs (step id) .connected (answeredTwice ++ [.lookup, .giveUp 0, .unregister 0]) = some s ∧
      ∀ es s', runs (step id) s es = some s' → ¬ Free id s' := by
  refine ⟨_, rfl, fun es s' hs => Stuck.not_free (Stuck.runs ?_ hs)⟩
  refine ⟨0, "r", "r", rfl, rfl, fun r hr _ => ?_⟩
  rw [List.mem_singleton.1 hr]
  rfl

open StreamSample in
/-- The `Request` receives the first reply, and the second finds no channel. -/
theorem replies_delivered_twice :
    ∃ s, runs (step id) .connected (answeredTwice ++ [.receive 0, .unregister 0, .lookup]) =
      some s ∧ Free id s := by
  refine ⟨_, rfl, replies_delivered id (answeredTwice ++ [.receive 0, .unregister 0, .lookup]) _
    ?_ rfl⟩
  decide +kernel

end LazGate.StreamHub
