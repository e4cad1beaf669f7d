import LazGate.Lib.Prog
import LazGate.Lib.Table
import LazGate.Agent.Store
import LazGate.Agent.Peers

/-!
# The calls of a sync pass

What a sync pass does to the outside, one atomic call at a time: transactions on the agent's
database, kicks of the Hysteria server, edits of the peer snapshot, `awg` commands, and requests
for manifest pages. `AgentCall.perform` is the effect of a call on the agent's own state; who
answers a manifest request is left to the system that the agent is part of.
-/

namespace LazGate

/-- A value of `sync_state`: a decimal number, or a text that `strconv.ParseInt` rejects. -/
inductive StateValue where
  | int (v : ℤ)
  | text (s : String)
  deriving DecidableEq

/-- What a sync pass changes on its own machine. -/
structure Agent where
  users : AuthUsers
  state : Std.ExtTreeMap String StateValue
  /-- The durable peer snapshot. -/
  snapshot : List SnapshotPeer
  /-- The keys of the peers of the running interface. -/
  runtime : Std.ExtTreeSet String

inductive AgentCall where
  | getState (key : String)
  | setState (key : String) (value : StateValue)
  | listAuthUsers
  | upsertAuthUser (user : AuthUser)
  | deleteAuthUser (connectionID : String)
  | applyFullAuthSnapshot (keep : List AuthUser) (cursorKey : String) (cursorMS : ℤ)
  | kick (id : String)
  | persistPeer (publicKey : String) (opts : PeerOptions) (remove : Bool)
  | prunePeers (keep : Std.ExtTreeSet String)
  | awgSetPeer (publicKey : String)
  | awgRemovePeer (publicKey : String)
  | showDump
  | saveHostConfig

namespace AgentCall

@[reducible] def Result : AgentCall → Type
  | .getState _ => Option StateValue
  | .listAuthUsers => List AuthUser
  | .showDump => List String
  | _ => Unit

/-- What a call does when nothing goes wrong outside of it. -/
def effect : (c : AgentCall) → Agent → Except String (c.Result × Agent)
  | .getState key, a => .ok (a.state[key]?, a)
  | .setState key value, a => .ok ((), { a with state := a.state.insert key value })
  | .listAuthUsers, a => .ok (a.users.list, a)
  | .upsertAuthUser user, a => (a.users.upsert user).map fun users => ((), { a with users })
  | .deleteAuthUser id, a => .ok ((), { a with users := a.users.delete id })
  | .applyFullAuthSnapshot keep key cursorMS, a =>
    (AuthUsers.replace keep).map fun users =>
      ((), { a with users, state := a.state.insert key (.int cursorMS) })
  | .kick _, a => .ok ((), a)
  | .persistPeer key opts remove, a =>
    (LazGate.persistPeer key opts remove a.snapshot).map fun snapshot => ((), { a with snapshot })
  | .prunePeers keep, a => .ok ((), { a with snapshot := LazGate.prunePeers keep a.snapshot })
  | .awgSetPeer key, a => .ok ((), { a with runtime := a.runtime.insert key })
  | .awgRemovePeer key, a => .ok ((), { a with runtime := a.runtime.erase key })
  | .showDump, a => .ok (a.runtime.toList, a)
  | .saveHostConfig, a => .ok ((), a)

/-- A database transaction: when it fails, nothing of it has happened. -/
def isTransaction : AgentCall → Bool
  | .getState _ | .setState .. | .listAuthUsers | .upsertAuthUser _ | .deleteAuthUser _
  | .applyFullAuthSnapshot .. => true
  | _ => false

end AgentCall

/-- How a call turns out: it is carried out; it fails and nothing has happened; or it fails after
it was carried out, which is possible only for what is not a transaction. -/
inductive Outcome where
  | ok
  | refused (err : String)
  | lost (err : String)
  deriving DecidableEq

namespace AgentCall

def perform (c : AgentCall) (f : Outcome) (a : Agent) : Except String c.Result × Agent :=
  match f with
  | .ok =>
    match c.effect a with
    | .ok (r, a') => (.ok r, a')
    | .error e => (.error e, a)
  | .refused e => (.error e, a)
  | .lost e =>
    match c.effect a with
    | .ok (_, a') => (.error e, if c.isTransaction then a else a')
    | .error _ => (.error e, a)

theorem perform_cases (c : AgentCall) (f : Outcome) (a : Agent) :
    (∃ r a', c.effect a = .ok (r, a') ∧ c.perform f a = (.ok r, a')) ∨
    (∃ e r a', c.isTransaction = false ∧ c.effect a = .ok (r, a') ∧
      c.perform f a = (.error e, a')) ∨
    ∃ e, c.perform f a = (.error e, a) := by
  unfold perform
  rcases f with - | e | e
  · rcases hc : c.effect a with e | ⟨r, a'⟩
    · exact .inr (.inr ⟨e, rfl⟩)
    · exact .inl ⟨r, a', rfl, rfl⟩
  · exact .inr (.inr ⟨e, rfl⟩)
  · rcases hc : c.effect a with e' | ⟨r, a'⟩
    · exact .inr (.inr ⟨e, rfl⟩)
    · by_cases ht : c.isTransaction
      · exact .inr (.inr ⟨e, by simp [ht]⟩)
      · exact .inr (.inl ⟨e, r, a', by simpa using ht, rfl, by simp [ht]⟩)

theorem perform_transaction {c : AgentCall} (hc : c.isTransaction) (f : Outcome) (a : Agent) :
    (∃ r a', c.effect a = .ok (r, a') ∧ c.perform f a = (.ok r, a')) ∨
      ∃ e, c.perform f a = (.error e, a) := by
  rcases c.perform_cases f a with h | ⟨e, r, a', ht, -⟩ | h
  · exact .inl h
  · simp [hc] at ht
  · exact .inr h

theorem perform_listAuthUsers (f : Outcome) (a : Agent) :
    listAuthUsers.perform f a = (.ok a.users.list, a) ∨
      ∃ e, listAuthUsers.perform f a = (.error e, a) := by
  rcases perform_transaction (c := listAuthUsers) rfl f a with ⟨r, a', he, hp⟩ | h
  · cases he
    exact .inl hp
  · exact .inr h

theorem perform_getState (key : String) (f : Outcome) (a : Agent) :
    (getState key).perform f a = (.ok a.state[key]?, a) ∨
      ∃ e, (getState key).perform f a = (.error e, a) := by
  rcases perform_transaction (c := getState key) rfl f a with ⟨r, a', he, hp⟩ | h
  · cases he
    exact .inl hp
  · exact .inr h

theorem perform_setState (key : String) (v : StateValue) (f : Outcome) (a : Agent) :
    (setState key v).perform f a = (.ok (), { a with state := a.state.insert key v }) ∨
      ∃ e, (setState key v).perform f a = (.error e, a) := by
  rcases perform_transaction (c := setState key v) rfl f a with ⟨r, a', he, hp⟩ | h
  · cases he
    exact .inl hp
  · exact .inr h

theorem perform_applyFullAuthSnapshot (keep : List AuthUser) (key : String) (t : ℤ) (f : Outcome)
    (a : Agent) :
    (∃ users, AuthUsers.replace keep = .ok users ∧
      (applyFullAuthSnapshot keep key t).perform f a =
        (.ok (), { a with users, state := a.state.insert key (.int t) })) ∨
      ∃ e, (applyFullAuthSnapshot keep key t).perform f a = (.error e, a) := by
  rcases perform_transaction (c := applyFullAuthSnapshot keep key t) rfl f a with
    ⟨r, a', he, hp⟩ | h
  · obtain ⟨users, hu, he⟩ := Except.map_eq_ok.1 he
    cases he
    exact .inl ⟨users, hu, hp⟩
  · exact .inr h

theorem perform_showDump (f : Outcome) (a : Agent) :
    showDump.perform f a = (.ok a.runtime.toList, a) ∨
      ∃ e, showDump.perform f a = (.error e, a) := by
  rcases showDump.perform_cases f a with ⟨r, a', he, hp⟩ | ⟨e, r, a', -, he, hp⟩ | h
  · cases he
    exact .inl hp
  · cases he
    exact .inr ⟨e, hp⟩
  · exact .inr h

end AgentCall

/-! ## Manifest pages -/

inductive CredentialChangeOp where
  | unspecified
  | upsert
  | delete
  deriving DecidableEq

/-- A change as it is sent; `P` is the credential of the protocol. A change without a credential
carries the empty one. -/
structure CredentialChange (P : Type) where
  connectionID : String
  op : CredentialChangeOp
  payload : P
  deriving DecidableEq

/-- The answer to a manifest request. -/
structure Manifest (P : Type) where
  manifestStartedAt : ℤ
  full : Bool
  changes : List (CredentialChange P)
  error : String
  deriving DecidableEq

inductive SyncCall (P : Type) where
  | agent (c : AgentCall)
  | authManifest (request : Request)

namespace SyncCall

/-- The value a successful call returns. -/
@[reducible] def Result {P : Type} : SyncCall P → Type
  | .agent c => c.Result
  | .authManifest _ => Manifest P

/-- The answer to a call: a value or an error. -/
@[reducible] def Reply {P : Type} (c : SyncCall P) : Type := Except String c.Result

end SyncCall

/-- The programs of a sync pass. -/
abbrev Sync (P : Type) (α : Type) : Type := Attempt (SyncCall P) SyncCall.Reply α

/-- A call on the agent's own machine. -/
def AgentCall.attempt {P : Type} (c : AgentCall) : Sync P c.Result :=
  ExceptT.mk (Prog.ask (SyncCall.agent c))

def authManifest {P : Type} (request : Request) : Sync P (Manifest P) :=
  ExceptT.mk (Prog.ask (SyncCall.authManifest request))

end LazGate
