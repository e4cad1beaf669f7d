import LazGate.Agent.Inbox

/-!
# Runtime commands

Commands wait in a table of the server. On every tick `Dispatch` sends each pending one to the
connected agent, under a new request id; the agent handles what it receives in order and answers;
a result that arrives completes its command. Messages may be lost on both ways.
-/

namespace LazGate.Commands

open Inbox

/-! ## Executors -/

structure Executor where
  commands : List String
  unsupported : String

/-- `Execute` of the Hysteria agent. -/
def hysteriaExecutor : Executor :=
  ⟨["GetStatus", "RestartHysteria", "StartHysteria", "StopHysteria", "CollectLogs", "DumpStreams",
    "ApplyHysteriaConfig"], "unsupported command"⟩

/-- The command is too old at `now`. -/
def isExpired (now : ℤ) (command : RuntimeCommand) : Bool :=
  0 < command.expiresMs && command.expiresMs < now

def Executor.performs (X : Executor) (now : ℤ) (command : RuntimeCommand) : Bool :=
  !isExpired now command && X.commands.contains command.type

/-- `Execute`. `outcome` is the sanitized text of the effect or of its error. -/
def Executor.execute (X : Executor) (now : ℤ) (outcome : Except String String)
    (command : RuntimeCommand) : Execution :=
  if isExpired now command then ⟨command.id, .skipped, "", "command expired"⟩
  else if X.commands.contains command.type then
    match outcome with
    | .ok message => ⟨command.id, .ok, message, ""⟩
    | .error e => ⟨command.id, .error, "", e⟩
  else ⟨command.id, .unsupported, "", X.unsupported⟩

/-! ## The system -/

inductive CommandState where
  | active | completed | error
  deriving DecidableEq

/-- A row of `runtime_commands` of the agent's installation. -/
structure Command where
  id : String
  type : String
  payload : List (String × String)
  expiresMs : ℤ
  status : CommandState
  result : String
  error : String

/-- `runtimeCommandToProto`. -/
def Command.toProto (c : Command) : RuntimeCommand := ⟨c.id, c.type, c.expiresMs, c.payload⟩

def commandMessage (requestID : String) (command : RuntimeCommand) : ServerMessage Unit :=
  ⟨.runtimeCommand, requestID, none, none, some command⟩

/-- The command table, the messages on their way to the agent with their request ids, the agent,
the answers on their way back, and the ids of the commands performed. -/
structure State where
  commands : List Command
  toAgent : List (String × RuntimeCommand)
  agent : Inbox.Agent Unit
  toServer : List AgentMessage
  performed : List String

def State.initial : State := ⟨[], [], ⟨[], []⟩, [], []⟩

/-- `ListPendingRuntimeCommands`. -/
def State.pending (s : State) : List Command := s.commands.filter (·.status == .active)

inductive Event where
  /-- `CreateRuntimeCommand` -/
  | create (id type : String) (payload : List (String × String)) (expiresMs : ℤ)
  /-- `Dispatch`: for each pending command its request id, and whether the send buffer takes it -/
  | dispatch (sends : List (String × Bool))
  /-- the agent handles the next message -/
  | handle (now : ℤ) (outcome : Except String String)
  /-- the server handles the next answer; the update may fail -/
  | complete (stored : Bool)
  /-- the next message to the agent is lost -/
  | loseMessage
  /-- the next answer is lost -/
  | loseAnswer

/-- `Dispatch` over the pending commands. -/
def dispatched : List Command → List (String × Bool) → List (String × RuntimeCommand)
  | c :: cs, (requestID, taken) :: sends =>
    if taken then (requestID, c.toProto) :: dispatched cs sends else dispatched cs sends
  | _, _ => []

/-- The delegate of the agent while it handles a message. -/
def delegate (X : Executor) (now : ℤ) (outcome : Except String String) : Delegate Unit :=
  ⟨fun _ => .ok (), fun _ => none, fun command => some (X.execute now outcome command)⟩

def performedBy (X : Executor) (now : ℤ) (calls : List (String × DelegateCall Unit)) :
    List String :=
  calls.filterMap fun
    | (_, .executeRuntimeCommand command) =>
      if X.performs now command then some command.id else none
    | _ => none

/-- `HandleRuntimeCommandResult` with `CompleteRuntimeCommandForInstallation`. -/
def completed (r : RuntimeCommandResult) (commands : List Command) : List Command :=
  if r.commandID = "" then commands
  else commands.map fun c => if c.id = r.commandID then
    { c with
      status := if r.status = "ok" ∨ r.status = "skipped" then .completed else .error
      result := if r.message = "" then r.status else r.message
      error := r.error } else c

def step (X : Executor) (cfg : Config Unit) (s : State) : Event → Option State
  | .create id type payload expiresMs =>
    if s.commands.any (·.id == id) then none
    else some { s with
      commands := s.commands ++ [⟨id, type, payload, expiresMs, .active, "", ""⟩] }
  | .dispatch sends => some { s with toAgent := s.toAgent ++ dispatched s.pending sends }
  | .handle now outcome =>
    match s.toAgent with
    | [] => none
    | (requestID, command) :: rest =>
      let r := handleIncoming cfg (delegate X now outcome) (commandMessage requestID command)
        s.agent
      some { s with
        toAgent := rest
        agent := r.2
        toServer := s.toServer ++ r.1.toList
        performed := s.performed ++ performedBy X now (r.2.calls.drop s.agent.calls.length) }
  | .complete stored =>
    match s.toServer with
    | [] => none
    | ⟨_, .runtimeCommand r⟩ :: rest => some { s with
        toServer := rest
        commands := if stored then completed r s.commands else s.commands }
    | _ :: rest => some { s with toServer := rest }
  | .loseMessage =>
    match s.toAgent with
    | [] => none
    | _ :: rest => some { s with toAgent := rest }
  | .loseAnswer =>
    match s.toServer with
    | [] => none
    | _ :: rest => some { s with toServer := rest }

/-- When `Dispatch` runs, no pending command is on its way to the agent, and the result of every
command that the agent has performed is recorded. -/
def DispatchesSettled (s : State) : Event → Prop
  | .dispatch _ => ∀ c ∈ s.pending, c.id ∉ s.toAgent.map (·.2.id) ∧ c.id ∉ s.performed
  | _ => True

instance (s : State) (e : Event) : Decidable (DispatchesSettled s e) := by
  unfold DispatchesSettled
  split <;> infer_instance

/-! ## At most once -/

/-- The invariant: a command is on its way at most once, or performed at most once, and not both;
and it is in the table. -/
structure Once (s : State) : Prop where
  keyed : (s.commands.map Command.id).Nodup
  known : ∀ id ∈ s.toAgent.map (·.2.id) ++ s.performed, id ∈ s.commands.map Command.id
  nodup : (s.toAgent.map (·.2.id) ++ s.performed).Nodup

theorem sublist_dispatched (cs : List Command) (sends : List (String × Bool)) :
    ((dispatched cs sends).map (·.2.id)).Sublist (cs.map Command.id) := by
  induction cs generalizing sends with
  | nil => simp [dispatched]
  | cons c cs ih =>
    match sends with
    | [] => simp [dispatched]
    | (requestID, taken) :: sends =>
      unfold dispatched
      split
      · exact (ih sends).cons_cons c.id
      · exact (ih sends).cons c.id

variable (r : RuntimeCommandResult) (commands : List Command)

theorem map_id_completed :
    (completed r commands).map Command.id = commands.map Command.id := by
  unfold completed
  split
  · rfl
  · rw [List.map_map]
    refine List.map_congr_left fun c _ => ?_
    rw [Function.comp_apply]
    split <;> rfl

/-- The agent performs the command of a message at most once, and nothing else. -/
theorem performedBy_handleIncoming (X : Executor) (cfg : Config Unit) (now : ℤ)
    (outcome : Except String String) (requestID : String) (command : RuntimeCommand)
    (agent : Inbox.Agent Unit) :
    (performedBy X now ((handleIncoming cfg (delegate X now outcome)
      (commandMessage requestID command) agent).2.calls.drop agent.calls.length)).Sublist
      [command.id] := by
  rcases handleIncoming_cases cfg (delegate X now outcome) (commandMessage requestID command) agent
    with ⟨row, -, -, heq⟩ | ⟨h, agent', hh, heq⟩ | heq <;> rw [heq]
  · simp [performedBy]
  · obtain rfl := Option.some.inj hh.handle
    rw [hh.calls, List.drop_left]
    simp only [performedBy, Option.map_some, Option.toList_some, List.filterMap_cons,
      List.filterMap_nil]
    split
    · exact List.nil_sublist _
    · rename_i id hid
      obtain ⟨-, rfl⟩ := Option.ite_some_none_eq_some.1 hid
      exact List.Sublist.refl _
  · simp [performedBy]

theorem Once.of_subperm {s s' : State} (h : Once s)
    (hids : s'.commands.map Command.id = s.commands.map Command.id)
    (hsub : (s'.toAgent.map (·.2.id) ++ s'.performed).Subperm
      (s.toAgent.map (·.2.id) ++ s.performed)) : Once s' where
  keyed := hids ▸ h.keyed
  known id hid := hids ▸ h.known id (hsub.subset hid)
  nodup := by
    obtain ⟨ids, hperm, hsub⟩ := hsub
    exact hperm.nodup_iff.1 (h.nodup.sublist hsub)

theorem Once.create {s : State} (h : Once s) (c : Command)
    (hnew : c.id ∉ s.commands.map Command.id) :
    Once { s with commands := s.commands ++ [c] } where
  keyed := by
    rw [List.map_append]
    exact h.keyed.append (List.nodup_singleton _) (by simpa using hnew)
  known id hid := by
    rw [List.map_append]
    exact List.mem_append_left _ (h.known id hid)
  nodup := h.nodup

theorem Once.dispatch {s : State} (h : Once s) (sends : List (String × Bool))
    (hset : ∀ c ∈ s.pending, c.id ∉ s.toAgent.map (·.2.id) ∧ c.id ∉ s.performed) :
    Once { s with toAgent := s.toAgent ++ dispatched s.pending sends } := by
  have hsub := sublist_dispatched s.pending sends
  have hpending : (s.pending.map Command.id).Sublist (s.commands.map Command.id) :=
    List.filter_sublist.map _
  have hnew : ∀ id ∈ (dispatched s.pending sends).map (·.2.id),
      id ∉ s.toAgent.map (·.2.id) ∧ id ∉ s.performed := by
    intro id hid
    obtain ⟨c, hc, rfl⟩ := List.mem_map.1 (hsub.subset hid)
    exact hset c hc
  -- the new messages, moved to the front
  have hperm : ((s.toAgent ++ dispatched s.pending sends).map (·.2.id) ++ s.performed).Perm
      ((dispatched s.pending sends).map (·.2.id) ++ (s.toAgent.map (·.2.id) ++ s.performed)) := by
    rw [List.map_append, ← List.append_assoc]
    exact List.perm_append_comm.append_right _
  refine ⟨h.keyed, fun id hid => ?_, hperm.nodup_iff.2 ?_⟩
  · rcases List.mem_append.1 (hperm.subset hid) with hid | hid
    · exact hpending.subset (hsub.subset hid)
    · exact h.known id hid
  · refine ((h.keyed.sublist hpending).sublist hsub).append h.nodup fun id hid hold => ?_
    rcases List.mem_append.1 hold with hold | hold
    · exact (hnew id hid).1 hold
    · exact (hnew id hid).2 hold

theorem once_step {X : Executor} {cfg : Config Unit} (s : State) (e : Event) (s' : State)
    (h : Once s) (hset : DispatchesSettled s e) (hstep : step X cfg s e = some s') : Once s' := by
  cases e with
  | create id type payload expiresMs =>
    obtain ⟨hnew, heq⟩ := Option.ite_none_left_eq_some.1 hstep
    cases heq
    exact h.create _ (by simpa using hnew)
  | dispatch sends =>
    cases hstep
    exact h.dispatch sends hset
  | handle now outcome =>
    cases hto : s.toAgent with
    | nil => simp [step, hto] at hstep
    | cons m rest =>
      simp only [step, hto, Option.some.injEq] at hstep
      subst hstep
      refine h.of_subperm rfl ?_
      rw [hto]
      -- what is performed was the head of the channel
      have hp := performedBy_handleIncoming X cfg now outcome m.1 m.2 s.agent
      refine (((hp.append_left s.performed).append_left (rest.map (·.2.id))).subperm).trans ?_
      rw [← List.append_assoc]
      exact (List.perm_append_singleton _ _).subperm
  | complete stored =>
    cases hto : s.toServer with
    | nil => simp [step, hto] at hstep
    | cons m rest =>
      obtain ⟨requestID, result⟩ := m
      cases result <;> simp only [step, hto, Option.some.injEq] at hstep <;> subst hstep
      case runtimeCommand r =>
        refine h.of_subperm ?_ (List.Subperm.refl _)
        cases stored
        · rfl
        · exact map_id_completed r s.commands
      all_goals exact h.of_subperm rfl (List.Subperm.refl _)
  | loseMessage =>
    cases hto : s.toAgent with
    | nil => simp [step, hto] at hstep
    | cons m rest =>
      simp only [step, hto, Option.some.injEq] at hstep
      subst hstep
      refine h.of_subperm rfl ?_
      rw [hto]
      exact (((List.sublist_cons_self m rest).map _).append_right _).subperm
  | loseAnswer =>
    cases hto : s.toServer with
    | nil => simp [step, hto] at hstep
    | cons m rest =>
      simp only [step, hto, Option.some.injEq] at hstep
      subst hstep
      exact h.of_subperm rfl (List.Subperm.refl _)

/-- In a run where `Dispatch` only ever finds settled commands, every command is performed at most
once. -/
theorem command_performed_once (X : Executor) (cfg : Config Unit) (es : List Event) (s : State)
    (hes : Along (step X cfg) DispatchesSettled State.initial es)
    (hs : runs (step X cfg) State.initial es = some s) (id : String) :
    s.performed.count id ≤ 1 := by
  have hinit : Once State.initial := ⟨List.nodup_nil, by simp [State.initial], List.nodup_nil⟩
  have honce := runs_inv once_step hes hs hinit
  exact List.nodup_iff_count_le_one.1 (honce.nodup.sublist (List.sublist_append_right _ _)) id

def sampleConfig : Config Unit := ⟨"node", fun _ => "node", fun _ => 0⟩

/-- A restart that is sent once, performed and completed, with a first message that is lost. -/
def sampleRun : List Event :=
  [.create "c" "RestartHysteria" [] 0, .dispatch [("r1", true)], .loseMessage,
    .dispatch [("r2", true)], .handle 1 (.ok ""), .complete true, .dispatch []]

theorem command_performed_once_restart :
    ∃ s, runs (step hysteriaExecutor sampleConfig) State.initial sampleRun = some s ∧
      s.performed.count "c" ≤ 1 := by
  obtain ⟨s, hs⟩ : ∃ s, runs (step hysteriaExecutor sampleConfig) State.initial sampleRun =
    some s := Option.isSome_iff_exists.1 (by decide +kernel)
  exact ⟨s, hs, command_performed_once hysteriaExecutor sampleConfig sampleRun s
    (by decide +kernel) hs "c"⟩

/-- `Dispatch` ticks again before the result of the first message arrives: the second message has
another request id, and Hysteria is restarted twice. -/
theorem command_performed_twice :
    (runs (step hysteriaExecutor sampleConfig) State.initial
      [.create "c" "RestartHysteria" [] 0, .dispatch [("r1", true)], .handle 1 (.ok ""),
        .dispatch [("r2", true)], .handle 2 (.ok "")]).map (·.performed) = some ["c", "c"] := by
  decide +kernel

/-! ## Recorded outcomes -/

def Command.withResult (c : Command) (r : RuntimeCommandResult) : Command :=
  if r.commandID = c.id ∧ r.commandID ≠ "" then
    { c with
      status := if r.status = "ok" ∨ r.status = "skipped" then .completed else .error
      result := if r.message = "" then r.status else r.message
      error := r.error }
  else c

theorem completed_eq_map :
    completed r commands = commands.map (·.withResult r) := by
  unfold completed
  split
  · rename_i hid
    conv_lhs => rw [← List.map_id commands]
    exact List.map_congr_left fun c _ => (if_neg fun h => h.2 hid).symm
  · rename_i hid
    refine List.map_congr_left fun c _ => ?_
    exact if_congr ⟨fun h => ⟨h.symm, hid⟩, fun h => h.1.symm⟩ rfl rfl

variable (c : Command)

theorem Command.withResult_id :
    (c.withResult r).id = c.id := by
  unfold Command.withResult
  split <;> rfl

theorem Command.withResult_of_ne {c : Command} {r : RuntimeCommandResult}
    (h : ¬ (r.commandID = c.id ∧ r.commandID ≠ "")) : c.withResult r = c := if_neg h

/-- A result for a command replaces what is recorded. -/
theorem Command.withResult_withResult {c : Command} {r : RuntimeCommandResult}
    (h : r.commandID = c.id ∧ r.commandID ≠ "") (r' : RuntimeCommandResult) :
    (c.withResult r').withResult r = c.withResult r := by
  by_cases h' : r'.commandID = c.id ∧ r'.commandID ≠ ""
  · rw [show c.withResult r' = _ from if_pos h', show c.withResult r = _ from if_pos h]
    exact if_pos h
  · rw [Command.withResult_of_ne h']

/-- The table after results that arrive one after the other. -/
def recorded (results : List RuntimeCommandResult) (commands : List Command) : List Command :=
  results.foldl (fun commands r => completed r commands) commands

variable (results : List RuntimeCommandResult)

theorem getElem?_recorded (i : ℕ) :
    (recorded results commands)[i]? =
      commands[i]?.map (fun c => results.foldl Command.withResult c) := by
  induction results generalizing commands with
  | nil => exact (Option.map_id_apply).symm
  | cons r results ih =>
    change (recorded results (completed r commands))[i]? = _
    rw [ih, completed_eq_map, List.getElem?_map, Option.map_map]
    rfl

/-- An outcome that is recorded comes from the last result for the command. -/
theorem Command.foldl_withResult :
    results.foldl Command.withResult c = c ∨ ∃ r ∈ results,
      (r.commandID = c.id ∧ r.commandID ≠ "") ∧
        results.foldl Command.withResult c = c.withResult r := by
  induction results using List.reverseRecOn with
  | nil => exact .inl rfl
  | append_singleton results r ih =>
    rw [List.foldl_append, List.foldl_cons, List.foldl_nil]
    by_cases h : r.commandID = c.id ∧ r.commandID ≠ ""
    · refine .inr ⟨r, by simp, h, ?_⟩
      rcases ih with heq | ⟨r', -, -, heq⟩
      · rw [heq]
      · rw [heq, Command.withResult_withResult h]
    · have hid : (results.foldl Command.withResult c).id = c.id := by
        rcases ih with heq | ⟨r', -, -, heq⟩
        · rw [heq]
        · rw [heq, Command.withResult_id]
      rw [Command.withResult_of_ne (by rwa [hid])]
      exact ih.imp_right fun ⟨r', hr', hrest⟩ => ⟨r', List.mem_append_left _ hr', hrest⟩

theorem Command.foldl_append_withResult {c : Command} {r : RuntimeCommandResult}
    (h : r.commandID = c.id ∧ r.commandID ≠ "") (results : List RuntimeCommandResult) :
    (results ++ [r]).foldl Command.withResult c = c.withResult r := by
  rw [List.foldl_append, List.foldl_cons, List.foldl_nil]
  rcases c.foldl_withResult results with heq | ⟨r', -, -, heq⟩
  · rw [heq]
  · rw [heq, Command.withResult_withResult h]

theorem Command.status_withResult {c : Command} {r : RuntimeCommandResult}
    (h : r.commandID = c.id ∧ r.commandID ≠ "") : (c.withResult r).status ≠ .active := by
  rw [Command.withResult, if_pos h]
  dsimp only
  split <;> decide

/-- A created command that is no longer active keeps its status, its result and its error text,
whichever of the results have arrived, just if all results for it write the same row. -/
theorem recorded_outcome_stable_iff (commands : List Command) (i : ℕ) (c : Command)
    (hcreated : commands[i]? = some c) (hactive : c.status = .active)
    (arriving : List RuntimeCommandResult) :
    (∀ results later, arriving = results ++ later →
      ∀ c', (recorded results commands)[i]? = some c' → c'.status ≠ .active →
        (recorded arriving commands)[i]? = some c') ↔
    ∀ r ∈ arriving, ∀ r' ∈ arriving, r.commandID = c.id → r'.commandID = c.id →
      c.withResult r = c.withResult r' := by
  simp only [getElem?_recorded, hcreated, Option.map_some, Option.some.injEq, forall_eq']
  constructor
  · intro h r hr r' hr' hid hid'
    by_cases hne : c.id = ""
    · rw [Command.withResult_of_ne fun hr => hr.2 (hid.trans hne),
        Command.withResult_of_ne fun hr => hr.2 (hid'.trans hne)]
    · -- the row that a result writes is there at the end
      have hlast (r : RuntimeCommandResult) (hr : r ∈ arriving) (hid : r.commandID = c.id) :
          arriving.foldl Command.withResult c = c.withResult r := by
        have hfor : r.commandID = c.id ∧ r.commandID ≠ "" := ⟨hid, hid ▸ hne⟩
        obtain ⟨before, later, hsplit⟩ := List.append_of_mem hr
        have hstays := h (before ++ [r]) later (by rw [hsplit, List.append_assoc]; rfl)
        rw [Command.foldl_append_withResult hfor] at hstays
        exact hstays (Command.status_withResult hfor)
      rw [← hlast r hr hid, ← hlast r' hr' hid']
  · rintro h results later rfl hdone
    rcases c.foldl_withResult results with heq | ⟨r, hr, hfor, heq⟩
    · exact absurd ((congrArg Command.status heq).trans hactive) hdone
    · rw [List.foldl_append, heq]
      -- each later result is for another command, or writes the same row
      refine List.foldlRecOn (motive := fun c₂ => c₂ = c.withResult r) later Command.withResult
        rfl ?_
      rintro c₂ rfl r' hr'
      by_cases hfor' : r'.commandID = c.id ∧ r'.commandID ≠ ""
      · rw [Command.withResult_withResult hfor']
        exact h r' (List.mem_append_right _ hr') r (List.mem_append_left _ hr) hfor'.1 hfor.1
      · exact Command.withResult_of_ne (by rwa [Command.withResult_id])

def sampleCommand : Command := ⟨"c", "RestartHysteria", [], 0, .active, "", ""⟩

/-- The results `ok` and `skipped` with the same message write the same row. -/
theorem recorded_outcome_stable_restart :
    (recorded [⟨"c", "ok", "done", ""⟩, ⟨"c", "skipped", "done", ""⟩] [sampleCommand])[0]? =
      some { sampleCommand with status := .completed, result := "done" } := by
  refine (recorded_outcome_stable_iff [sampleCommand] 0 sampleCommand rfl rfl _).2 ?_
    [⟨"c", "ok", "done", ""⟩] [⟨"c", "skipped", "done", ""⟩] rfl _ rfl (by decide)
  intro r hr r' hr' _ _
  have hrow (r : RuntimeCommandResult)
      (hr : r ∈ [⟨"c", "ok", "done", ""⟩, ⟨"c", "skipped", "done", ""⟩]) :
      sampleCommand.withResult r =
        { sampleCommand with status := .completed, result := "done" } := by
    fin_cases hr <;> rfl
  rw [hrow r hr, hrow r' hr']

/-- The command was sent twice; the second attempt fails, and its result replaces the first. -/
theorem recorded_outcome_replaced :
    (recorded [⟨"c", "ok", "", ""⟩] [sampleCommand])[0]?.map
        (fun c => (c.status, c.result, c.error)) = some (.completed, "ok", "") ∧
      (recorded [⟨"c", "ok", "", ""⟩, ⟨"c", "error", "", "restart failed"⟩]
        [sampleCommand])[0]?.map (fun c => (c.status, c.result, c.error)) =
        some (.error, "error", "restart failed") := ⟨rfl, rfl⟩

end LazGate.Commands
