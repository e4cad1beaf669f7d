import LazGate.Hysteria.Reconciler
import LazGate.Lib.Wire

/-!
# The inbox of an agent

`GRPCClient.HandleIncoming`: a message of the server with a request id that was processed before is
answered from the stored result; every other one goes to its handler, which calls the delegate,
records the result and answers. The store's calls succeed here, and no record is cleaned up.
-/

namespace LazGate.Inbox

/-! ## Messages -/

inductive MessageType where
  | authRefresh
  | editServerConfig
  | runtimeCommand
  | other (name : String)
  deriving DecidableEq

structure AuthRefresh where
  accountID : String
  snapshotVersionMs : ℤ

structure RuntimeCommand where
  id : String
  type : String
  expiresMs : ℤ
  payload : List (String × String)
  deriving DecidableEq

/-- A message of the server; `C` is the configuration command of the agent's kind. -/
structure ServerMessage (C : Type) where
  type : MessageType
  requestID : String
  authRefresh : Option AuthRefresh
  editServerConfig : Option C
  runtimeCommand : Option RuntimeCommand

structure AuthRefreshResult where
  nodeID : String
  accountID : String
  status : String
  message : String
  error : String
  appliedSnapshotVersionMs : ℤ

structure ServerConfigApplyResult where
  nodeID : String
  desiredRevision : ℕ
  appliedRevision : ℕ
  correlationID : String
  status : String
  error : String

structure RuntimeCommandResult where
  commandID : String
  status : String
  message : String
  error : String

inductive Result where
  | authRefresh (result : AuthRefreshResult)
  | serverConfig (result : ServerConfigApplyResult)
  | runtimeCommand (result : RuntimeCommandResult)

/-- An answer of the agent; its type is the one of the result. -/
structure AgentMessage where
  requestID : String
  result : Result

/-! ### On the wire -/

open Wire

def AuthRefreshResult.marshal (r : AuthRefreshResult) : Wire :=
  putText 1 r.nodeID ++ putText 2 r.accountID ++ putText 3 r.status ++ putText 4 r.message ++
    putText 5 r.error ++ putNumber 6 r.appliedSnapshotVersionMs

def AuthRefreshResult.unmarshal (w : Wire) : AuthRefreshResult :=
  ⟨w.text 1, w.text 2, w.text 3, w.text 4, w.text 5, w.number 6⟩

def ServerConfigApplyResult.marshal (r : ServerConfigApplyResult) : Wire :=
  putText 1 r.nodeID ++ putNumber 2 r.desiredRevision ++ putNumber 3 r.appliedRevision ++
    putText 4 r.correlationID ++ putText 5 r.status ++ putText 6 r.error

def ServerConfigApplyResult.unmarshal (w : Wire) : ServerConfigApplyResult :=
  ⟨w.text 1, (w.number 2).toNat, (w.number 3).toNat, w.text 4, w.text 5, w.text 6⟩

def RuntimeCommandResult.marshal (r : RuntimeCommandResult) : Wire :=
  putText 1 r.commandID ++ putText 2 r.status ++ putText 3 r.message ++ putText 4 r.error

def RuntimeCommandResult.unmarshal (w : Wire) : RuntimeCommandResult :=
  ⟨w.text 1, w.text 2, w.text 3, w.text 4⟩

@[simp] theorem AuthRefreshResult.unmarshal_marshal (r : AuthRefreshResult) :
    unmarshal r.marshal = r := by
  cases r
  simp [unmarshal, marshal, Wire.text, Wire.number]

@[simp] theorem ServerConfigApplyResult.unmarshal_marshal (r : ServerConfigApplyResult) :
    unmarshal r.marshal = r := by
  cases r
  simp [unmarshal, marshal, Wire.text, Wire.number]

@[simp] theorem RuntimeCommandResult.unmarshal_marshal (r : RuntimeCommandResult) :
    unmarshal r.marshal = r := by
  cases r
  simp [unmarshal, marshal, Wire.text]

def Result.marshal : Result → Wire
  | .authRefresh r => r.marshal
  | .serverConfig r => r.marshal
  | .runtimeCommand r => r.marshal

/-! ## Handling -/

inductive CommandStatus where
  | ok | error | skipped | unsupported
  deriving DecidableEq

def CommandStatus.text : CommandStatus → String
  | .ok => "ok"
  | .error => "error"
  | .skipped => "skipped"
  | .unsupported => "unsupported"

def applyStatusText : Hysteria.ApplyStatus → String
  | .failed => "failed"
  | .rejected => "rejected"
  | .applied => "applied"

structure Execution where
  commandID : String
  status : CommandStatus
  message : String
  error : String

inductive DelegateCall (C : Type) where
  | applyAuthRefresh (refresh : AuthRefresh)
  | applyServerConfig (command : C)
  | executeRuntimeCommand (command : RuntimeCommand)

/-- What the delegate returns; no result stands for a nil one. -/
structure Delegate (C : Type) where
  applyAuthRefresh : AuthRefresh → Except String Unit
  applyServerConfig : C → Option Hysteria.ServerConfigApplyResult
  executeRuntimeCommand : RuntimeCommand → Option Execution

structure Config (C : Type) where
  nodeID : String
  commandNodeID : C → String
  commandRevision : C → ℕ

/-- The status of a processed message. -/
inductive Status where
  | applied | failed
  deriving DecidableEq

def Status.text : Status → String
  | .applied => "applied"
  | .failed => "failed"

/-- A row of `transport_inbox_messages` of the agent's node. -/
structure ProcessedMessage where
  messageID : String
  type : MessageType
  status : Status
  result : Wire
  error : String

/-- The inbox, and the calls of the delegate with the request ids they were made for. -/
structure Agent (C : Type) where
  processed : List ProcessedMessage
  calls : List (String × DelegateCall C)

structure Handling (C : Type) where
  call : Option (DelegateCall C)
  ok : Bool
  error : String
  result : Result

variable {C : Type} (cfg : Config C) (D : Delegate C)

def handleAuthRefresh (msg : ServerMessage C) : Option (Handling C) :=
  msg.authRefresh.map fun refresh =>
    match D.applyAuthRefresh refresh with
    | .ok () => ⟨some (.applyAuthRefresh refresh), true, "", .authRefresh
        ⟨cfg.nodeID, refresh.accountID, "ok", "", "", refresh.snapshotVersionMs⟩⟩
    | .error e => ⟨some (.applyAuthRefresh refresh), false, e, .authRefresh
        ⟨cfg.nodeID, refresh.accountID, "error", "", e, refresh.snapshotVersionMs⟩⟩

/-- The result of the delegate with the fields it has left empty. -/
def completeConfigResult (msg : ServerMessage C) (command : C) :
    Option Hysteria.ServerConfigApplyResult → ServerConfigApplyResult
  | none => ⟨cfg.nodeID, cfg.commandRevision command, 0, msg.requestID, "error",
      "server config apply returned nil result"⟩
  | some r => ⟨if r.nodeID = "" then cfg.nodeID else r.nodeID,
      if r.desiredRevision = 0 then cfg.commandRevision command else r.desiredRevision,
      r.appliedRevision, msg.requestID, applyStatusText r.status, r.error⟩

/-- `handleServerConfig`. A command for another node is refused without a call. -/
def handleServerConfig (msg : ServerMessage C) : Option (Handling C) :=
  msg.editServerConfig.map fun command =>
    if cfg.commandNodeID command ≠ cfg.nodeID then
      ⟨none, false, "edit server config node_id does not match configured node", .serverConfig
        ⟨cfg.nodeID, cfg.commandRevision command, 0, msg.requestID, "failed",
          "edit server config node_id does not match configured node"⟩⟩
    else
      let result := completeConfigResult cfg msg command (D.applyServerConfig command)
      ⟨some (.applyServerConfig command), result.status == "ok" || result.status == "applied",
        result.error, .serverConfig result⟩

def completeCommandResult (command : RuntimeCommand) : Option Execution → RuntimeCommandResult
  | none => ⟨command.id, "error", "", "runtime command returned nil result"⟩
  | some e => ⟨if e.commandID = "" then command.id else e.commandID, e.status.text, e.message,
      e.error⟩

def handleRuntimeCommand (msg : ServerMessage C) : Option (Handling C) :=
  msg.runtimeCommand.map fun command =>
    let result := completeCommandResult command (D.executeRuntimeCommand command)
    ⟨some (.executeRuntimeCommand command), result.status == "ok" || result.status == "skipped",
      result.error, .runtimeCommand result⟩

def handle (msg : ServerMessage C) : Option (Handling C) :=
  match msg.type with
  | .authRefresh => handleAuthRefresh cfg D msg
  | .editServerConfig => handleServerConfig cfg D msg
  | .runtimeCommand => handleRuntimeCommand D msg
  | .other _ => none

namespace Agent

def isProcessed (s : Agent C) (messageID : String) : Option ProcessedMessage :=
  s.processed.find? (·.messageID == messageID)

/-- `RecordProcessed`: a row that is there keeps its type. -/
def recordProcessed (s : Agent C) (row : ProcessedMessage) : Agent C :=
  if (s.isProcessed row.messageID).isSome then
    { s with processed := s.processed.map fun r => if r.messageID == row.messageID then
        { r with status := row.status, result := row.result, error := row.error } else r }
  else { s with processed := s.processed ++ [row] }

end Agent

/-- `complete`, with the note of the delegate's call. -/
def complete (msg : ServerMessage C) (h : Handling C) (s : Agent C) : AgentMessage × Agent C :=
  let s := { s with calls := s.calls ++ (h.call.map fun c => (msg.requestID, c)).toList }
  (⟨msg.requestID, h.result⟩,
    if msg.requestID ≠ "" then
      s.recordProcessed ⟨msg.requestID, msg.type, if h.ok then .applied else .failed,
        h.result.marshal, h.error⟩
    else s)

def replay (msg : ServerMessage C) (processed : ProcessedMessage) : Option AgentMessage :=
  match msg.type with
  | .authRefresh =>
    let result := AuthRefreshResult.unmarshal processed.result
    some ⟨msg.requestID, .authRefresh (if result.status = "" then
      ⟨cfg.nodeID, (msg.authRefresh.map AuthRefresh.accountID).getD "", processed.status.text, "",
        processed.error, 0⟩ else result)⟩
  | .editServerConfig =>
    let result := ServerConfigApplyResult.unmarshal processed.result
    some ⟨msg.requestID, .serverConfig (if result.status = "" then
      ⟨cfg.nodeID, (msg.editServerConfig.map cfg.commandRevision).getD 0, 0, msg.requestID,
        processed.status.text, processed.error⟩ else result)⟩
  | .runtimeCommand =>
    let result := RuntimeCommandResult.unmarshal processed.result
    some ⟨msg.requestID, .runtimeCommand (if result.status = "" then
      ⟨(msg.runtimeCommand.map RuntimeCommand.id).getD "", processed.status.text, "",
        processed.error⟩ else result)⟩
  | .other _ => none

/-- `HandleIncoming`: the answer, if any, and the agent after it. -/
def handleIncoming (msg : ServerMessage C) (s : Agent C) : Option AgentMessage × Agent C :=
  match (if msg.requestID ≠ "" then s.isProcessed msg.requestID else none) with
  | some processed => (replay cfg msg processed, s)
  | none =>
    match handle cfg D msg with
    | some h => (some (complete msg h s).1, (complete msg h s).2)
    | none => (none, s)

/-! ## The answer to a request id -/

def after (s : Agent C) (ms : List (ServerMessage C × Delegate C)) : Agent C :=
  ms.foldl (fun s m => (handleIncoming cfg m.2 m.1 s).2) s

def answer (s : Agent C) (m : ServerMessage C × Delegate C) : Option AgentMessage :=
  (handleIncoming cfg m.2 m.1 s).1

variable {cfg D} {msg msg' : ServerMessage C} {h : Handling C} {s : Agent C} {id : String}

/-- A handler's result is of the message's type, and it has a status. -/
theorem result_of_handle (hh : handle cfg D msg = some h) :
    (msg.type = .authRefresh ∧ ∃ r, h.result = .authRefresh r ∧ r.status ≠ "") ∨
    (msg.type = .editServerConfig ∧ ∃ r, h.result = .serverConfig r ∧ r.status ≠ "") ∨
    (msg.type = .runtimeCommand ∧ ∃ r, h.result = .runtimeCommand r ∧ r.status ≠ "") := by
  unfold handle at hh
  split at hh
  · rename_i htype
    obtain ⟨refresh, -, rfl⟩ := Option.map_eq_some_iff.1 hh
    refine .inl ⟨htype, ?_⟩
    split <;> exact ⟨_, rfl, by simp⟩
  · rename_i htype
    obtain ⟨command, -, rfl⟩ := Option.map_eq_some_iff.1 hh
    refine .inr (.inl ⟨htype, ?_⟩)
    split
    · exact ⟨_, rfl, by simp⟩
    · refine ⟨_, rfl, ?_⟩
      cases D.applyServerConfig command with
      | none => simp [completeConfigResult]
      | some r =>
        change applyStatusText r.status ≠ ""
        cases r.status <;> decide
  · rename_i htype
    obtain ⟨command, -, rfl⟩ := Option.map_eq_some_iff.1 hh
    refine .inr (.inr ⟨htype, _, rfl, ?_⟩)
    cases D.executeRuntimeCommand command with
    | none => simp [completeCommandResult]
    | some e =>
      change e.status.text ≠ ""
      cases e.status <;> decide
  · cases hh

variable {row : ProcessedMessage}

/-- A record of a handled message gives its result back for every message of the same type. -/
theorem replay_of_handle (hh : handle cfg D msg = some h) (hrow : row.result = h.result.marshal)
    (htype : msg'.type = msg.type) (hid : msg'.requestID = msg.requestID) :
    replay cfg msg' row = some ⟨msg.requestID, h.result⟩ := by
  rcases result_of_handle hh with ⟨ht, r, hr, hs⟩ | ⟨ht, r, hr, hs⟩ | ⟨ht, r, hr, hs⟩ <;>
    simp [replay, htype, ht, hrow, hr, Result.marshal, hs, hid]

/-! ### What one message does to the inbox -/

theorem isProcessed_recordProcessed (row : ProcessedMessage)
    (hnone : s.isProcessed row.messageID = none) :
    (s.recordProcessed row).isProcessed id =
      if id = row.messageID then some row else s.isProcessed id := by
  rw [Agent.recordProcessed, hnone, if_neg (by simp)]
  change (s.processed ++ [row]).find? _ = _
  rw [List.find?_append]
  by_cases hid : id = row.messageID
  · subst hid
    rw [if_pos rfl, show s.processed.find? _ = none from hnone]
    simp
  · have hne : (row.messageID == id) = false := beq_eq_false_iff_ne.2 (Ne.symm hid)
    rw [if_neg hid]
    simp [Agent.isProcessed, hne]

@[simp] theorem calls_recordProcessed (row : ProcessedMessage) :
    (s.recordProcessed row).calls = s.calls := by
  unfold Agent.recordProcessed
  split <;> rfl

theorem handleIncoming_of_processed (hne : msg.requestID ≠ "")
    (hrow : s.isProcessed msg.requestID = some row) :
    handleIncoming cfg D msg s = (replay cfg msg row, s) := by
  rw [handleIncoming, if_pos hne, hrow]

structure Handled (cfg : Config C) (D : Delegate C) (msg : ServerMessage C) (s : Agent C)
    (h : Handling C) (s' : Agent C) : Prop where
  fresh : msg.requestID ≠ "" → s.isProcessed msg.requestID = none
  handle : handle cfg D msg = some h
  processed : ∀ id, s'.isProcessed id = if id = msg.requestID ∧ msg.requestID ≠ "" then
    some ⟨msg.requestID, msg.type, if h.ok then .applied else .failed, h.result.marshal, h.error⟩
    else s.isProcessed id
  calls : s'.calls = s.calls ++ (h.call.map fun c => (msg.requestID, c)).toList

/-- A message is answered from its record, or handled, or dropped. -/
theorem handleIncoming_cases (cfg : Config C) (D : Delegate C) (msg : ServerMessage C)
    (s : Agent C) :
    (∃ row, msg.requestID ≠ "" ∧ s.isProcessed msg.requestID = some row ∧
      handleIncoming cfg D msg s = (replay cfg msg row, s)) ∨
    (∃ h s', Handled cfg D msg s h s' ∧
      handleIncoming cfg D msg s = (some ⟨msg.requestID, h.result⟩, s')) ∨
    handleIncoming cfg D msg s = (none, s) := by
  unfold handleIncoming
  cases hif : (if msg.requestID ≠ "" then s.isProcessed msg.requestID else none) with
  | some row =>
    by_cases hne : msg.requestID ≠ ""
    · rw [if_pos hne] at hif
      exact .inl ⟨row, hne, hif, rfl⟩
    · rw [if_neg hne] at hif
      cases hif
  | none =>
    cases hh : handle cfg D msg with
    | none => exact .inr (.inr rfl)
    | some h =>
      have hfresh : msg.requestID ≠ "" → s.isProcessed msg.requestID = none := by
        intro hne
        rwa [if_pos hne] at hif
      refine .inr (.inl ⟨h, _, ⟨hfresh, hh, fun id => ?_, ?_⟩, rfl⟩)
      · unfold complete
        by_cases hne : msg.requestID ≠ ""
        · simp only [if_pos hne, and_iff_left hne]
          exact isProcessed_recordProcessed _ (hfresh hne)
        · simp only [hne, and_false, if_false]
          rfl
      · unfold complete
        by_cases hne : msg.requestID ≠ ""
        · simp only [if_pos hne]
          exact calls_recordProcessed _
        · simp only [if_neg hne]

theorem isProcessed_handleIncoming (hne : id ≠ "") (hrow : s.isProcessed id = some row) :
    (handleIncoming cfg D msg s).2.isProcessed id = some row := by
  rcases handleIncoming_cases cfg D msg s with ⟨_, -, -, heq⟩ | ⟨h, s', hh, heq⟩ | heq
  · rwa [heq]
  · rw [heq, hh.processed id, if_neg ?_]
    · exact hrow
    · rintro ⟨rfl, -⟩
      rw [hh.fresh hne] at hrow
      cases hrow
  · rwa [heq]

theorem isProcessed_after (hne : id ≠ "") (ms : List (ServerMessage C × Delegate C)) :
    ∀ {s : Agent C}, s.isProcessed id = some row → (after cfg s ms).isProcessed id = some row := by
  induction ms with
  | nil => exact fun h => h
  | cons m ms ih => exact fun h => ih (isProcessed_handleIncoming hne h)

theorem isProcessed_of_unanswered (hne : id ≠ "") (hnone : s.isProcessed id = none)
    (hanswer : msg.requestID = id → (handleIncoming cfg D msg s).1 = none) :
    (handleIncoming cfg D msg s).2.isProcessed id = none := by
  rcases handleIncoming_cases cfg D msg s with ⟨_, -, -, heq⟩ | ⟨h, s', hh, heq⟩ | heq
  · rwa [heq]
  · rw [heq, hh.processed id, if_neg ?_]
    · exact hnone
    · rintro ⟨rfl, -⟩
      have := hanswer rfl
      rw [heq] at this
      cases this
  · rwa [heq]

def Unanswered (cfg : Config C) (s : Agent C) (ms : List (ServerMessage C × Delegate C))
    (id : String) : Prop :=
  ∀ ms' m, ms' ++ [m] <+: ms → m.1.requestID = id → answer cfg (after cfg s ms') m = none

theorem isProcessed_after_of_unanswered (hne : id ≠ "") (hnone : s.isProcessed id = none)
    (ms : List (ServerMessage C × Delegate C)) (h : Unanswered cfg s ms id) :
    (after cfg s ms).isProcessed id = none := by
  induction ms using List.reverseRecOn with
  | nil => exact hnone
  | append_singleton ms m ih =>
    have hprev := ih fun ms' m' hpre => h ms' m' (hpre.trans (List.prefix_append ms [m]))
    rw [after, List.foldl_append]
    exact isProcessed_of_unanswered hne hprev fun hid => h ms m (List.prefix_refl _) hid

def Agent.callsFor (s : Agent C) (id : String) : List (String × DelegateCall C) :=
  s.calls.filter (·.1 == id)

/-- The delegate is called once at most, and not before the record is made. -/
structure CalledOnce (s : Agent C) (id : String) : Prop where
  calls : (s.callsFor id).length ≤ 1
  unprocessed : s.isProcessed id = none → s.callsFor id = []

theorem CalledOnce.handleIncoming (hne : id ≠ "") (hs : CalledOnce s id) :
    CalledOnce (handleIncoming cfg D msg s).2 id := by
  rcases handleIncoming_cases cfg D msg s with ⟨_, -, -, heq⟩ | ⟨h, s', hh, heq⟩ | heq
  · rwa [heq]
  · rw [heq]
    have hcalls : s'.callsFor id = s.callsFor id ++
        (h.call.map fun c => (msg.requestID, c)).toList.filter (·.1 == id) := by
      rw [Agent.callsFor, hh.calls, List.filter_append]
      rfl
    by_cases hid : id = msg.requestID
    · subst hid
      have hold := hs.unprocessed (hh.fresh hne)
      refine ⟨?_, fun hnone => ?_⟩
      · rw [hcalls, hold]
        cases h.call <;> simp
      · rw [hh.processed, if_pos ⟨rfl, hne⟩] at hnone
        cases hnone
    · have hnew : (h.call.map fun c => (msg.requestID, c)).toList.filter (·.1 == id) = [] := by
        have hbeq : (msg.requestID == id) = false := beq_eq_false_iff_ne.2 (Ne.symm hid)
        cases h.call <;> simp [hbeq]
      rw [hnew, List.append_nil] at hcalls
      refine ⟨hcalls ▸ hs.calls, fun hnone => ?_⟩
      rw [hh.processed, if_neg (fun hc => hid hc.1)] at hnone
      rw [hcalls]
      exact hs.unprocessed hnone
  · rwa [heq]

theorem CalledOnce.after (hne : id ≠ "") (ms : List (ServerMessage C × Delegate C)) :
    ∀ {s : Agent C}, CalledOnce s id → CalledOnce (after cfg s ms) id := by
  induction ms with
  | nil => exact fun h => h
  | cons m ms ih => exact fun h => ih (h.handleIncoming hne)

namespace InboxSample

def config : Config Unit := ⟨"n", fun _ => "n", fun _ => 1⟩

def reporting (text : String) : Delegate Unit :=
  ⟨fun _ => .ok (), fun _ => none, fun c => some ⟨c.id, .ok, text, ""⟩⟩

def restart : ServerMessage Unit :=
  ⟨.runtimeCommand, "r", none, none, some ⟨"c", "RestartHysteria", 0, []⟩⟩

end InboxSample

end LazGate.Inbox
