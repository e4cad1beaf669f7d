import LazGate.Server.SelfService

/-!
# Requests about connections and accounts

`internal/server/transport/http/admin/{provisioning,handlers}.go`: connections are created, held,
resumed and deleted one by one, or with their account; a node is deleted with its connections.
`ConnectionRequest` has these requests and those of the clients.
-/

namespace LazGate

/-- `model.Node{}`. -/
def Node.zero : Node := ⟨"", "", .unsupported "", "", .unset⟩

/-- `model.ConnectionSummary`. -/
structure ConnectionSummary where
  connection : Connection
  node : Node
  deriving DecidableEq

namespace Store

/-- `UpdateAccountStatus`; all values of the type are supported. -/
def updateAccountStatus (id : String) (status : AccountStatus) : StoreM Account := do
  let _ ← ExceptT.mk (Prog.ask (StoreCall.updateAccountStatus id status))
  getAccount id

/-- `SoftDeleteNode`. The clock is read before the transaction. -/
def softDeleteNode (id : String) : StoreM Node := do
  let t ← now
  let _ ← ExceptT.mk (Prog.ask (StoreCall.softDeleteNode id t))
  getNode id

/-- The account and the connections of `Summary`. -/
def summary (accountID : String) : StoreM (Account × List ConnectionSummary) := do
  let account ← getAccount accountID
  let nodes ← listNodes
  let connections ← ExceptT.lift (Prog.ask StoreCall.listConnections)
  return (account, (connections.filter fun c => c.accountID == accountID).map fun c =>
    ⟨c, (nodes.reverse.find? fun n => n.id == c.nodeID).getD Node.zero⟩)

end Store

namespace Provisioning

open Store Connections

/-- The creation by `connectionsHandler`. -/
def connectionsHandler (R : Rendering) (accountID nodeID name : String) (protocol : Protocol) :
    StoreM ConnectionResult := do
  let node ← getNode nodeID
  createConnection R ⟨accountID, node, protocol, name⟩

def provisionAccess (R : Rendering) (accountID nodeID name : String) (protocol : Protocol) :
    StoreM ConnectionResult :=
  if accountID = "" ∨ nodeID = "" ∨ trimSpace name = "" ∨ protocol = .unset then
    throw "account_id, node_id, name and protocol are required"
  else connectionsHandler R accountID nodeID name protocol

def getAccessAndNode (connectionID : String) : StoreM (Connection × Node) := do
  let connection ← getConnection connectionID
  let node ← getNode connection.nodeID
  return (connection, node)

/-- The desired status of the connection that was read is not looked at. -/
def setAccessRemoteStatus (connectionID : String) (status : ConnectionStatus) :
    StoreM Connection := do
  let (connection, node) ← getAccessAndNode connectionID
  setConnectionStatus connection node status

def deleteRemoteAccess (connectionID : String) : StoreM Connection := do
  let (connection, node) ← getAccessAndNode connectionID
  deleteConnection connection node

/-- One by one, also after one has failed; deleted connections are passed over. -/
def forEachConnection (items : List ConnectionSummary)
    (change : Connection → Node → StoreM Connection) :
    StoreM (List (String × Except String Connection)) :=
  items.foldlM (fun results item =>
    if item.connection.desiredStatus = .deleted then pure results
    else do
      let result ← attemptResult (change item.connection item.node)
      return results ++ [(item.connection.id, result)]) []

def setAccountRemoteStatus (accountID : String) (status : AccountStatus) :
    StoreM (Account × List (String × Except String Connection)) := do
  let account ← updateAccountStatus accountID status
  let (_, items) ← summary accountID
  let connectionStatus : ConnectionStatus := if status = .held then .held else .active
  let results ← forEachConnection items fun connection node =>
    setConnectionStatus connection node connectionStatus
  return (account, results)

def deleteRemoteAccount (accountID : String) :
    StoreM (Account × List (String × Except String Connection)) := do
  let account ← Store.getAccount accountID
  let (_, items) ← summary accountID
  let results ← forEachConnection items deleteConnection
  if results.all fun r => r.2.isOk then do
    let account ← updateAccountStatus accountID .deleted
    return (account, results)
  else return (account, results)

end Provisioning

/-- The requests of administrators and clients that change connections. -/
inductive ConnectionRequest where
  | create (accountID nodeID name : String) (protocol : Protocol)
  | provision (accountID nodeID name : String) (protocol : Protocol)
  | hold (connectionID : String)
  | resume (connectionID : String)
  | delete (connectionID : String)
  | holdAccount (accountID : String)
  | resumeAccount (accountID : String)
  | deleteAccount (accountID : String)
  | deleteNode (nodeID : String)
  | createConnections (input : CreateConnectionInput)
  | deleteConnection (accountID connectionID : String)

/-- A request ends when its response is written. -/
def StoreM.serve {α : Type} (x : StoreM α) : Prog StoreCall StoreCall.Reply Unit := do
  let _ ← x.run
  Prog.ask StoreCall.respond

def ConnectionRequest.program (R : Rendering) :
    ConnectionRequest → Prog StoreCall StoreCall.Reply Unit
  | .create accountID nodeID name protocol =>
    StoreM.serve (Provisioning.connectionsHandler R accountID nodeID name protocol)
  | .provision accountID nodeID name protocol =>
    StoreM.serve (Provisioning.provisionAccess R accountID nodeID name protocol)
  | .hold connectionID => StoreM.serve (Provisioning.setAccessRemoteStatus connectionID .held)
  | .resume connectionID => StoreM.serve (Provisioning.setAccessRemoteStatus connectionID .active)
  | .delete connectionID => StoreM.serve (Provisioning.deleteRemoteAccess connectionID)
  | .holdAccount accountID => StoreM.serve (Provisioning.setAccountRemoteStatus accountID .held)
  | .resumeAccount accountID =>
    StoreM.serve (Provisioning.setAccountRemoteStatus accountID .active)
  | .deleteAccount accountID => StoreM.serve (Provisioning.deleteRemoteAccount accountID)
  | .deleteNode nodeID => StoreM.serve (Store.softDeleteNode nodeID)
  | .createConnections input => StoreM.serve (SelfService.createConnections R input)
  | .deleteConnection accountID connectionID =>
    StoreM.serve (SelfService.deleteConnection accountID connectionID)

/-! ## What the handlers call -/

section Only

open Prog

variable {L : StoreCall → Prop} (hL : ∀ c, StoreCall.Quiet c → L c)

include hL

theorem Store.only_updateAccountStatus {id : String} {status : AccountStatus}
    (hacc : L (.updateAccountStatus id status)) : Only L (updateAccountStatus id status).run :=
  Only.andThen (Only.ask hacc) fun _ => Only.ask (hL (.getAccount id) ⟨rfl, nofun⟩)

theorem Store.only_summary (accountID : String) : Only L (summary accountID).run := by
  refine Only.andThen (Only.ask (hL (.getAccount _) ⟨rfl, nofun⟩)) fun account => ?_
  refine Only.andThen (Only.lift (Only.ask (hL .listNodes ⟨rfl, nofun⟩))) fun nodes => ?_
  refine Only.andThen (Only.lift (Only.ask (hL .listConnections ⟨rfl, nofun⟩))) fun _ => ?_
  exact Only.ok

namespace Provisioning

theorem only_connectionsHandler (hinsert : ∀ bundle, L (.insertBundle bundle)) (R : Rendering)
    (accountID nodeID name : String) (protocol : Protocol) :
    Only L (connectionsHandler R accountID nodeID name protocol).run :=
  Only.andThen (Only.ask (hL (.getNode nodeID) ⟨rfl, nofun⟩)) fun _ =>
    Connections.only_createConnection hL hinsert R _

theorem only_provisionAccess (hinsert : ∀ bundle, L (.insertBundle bundle)) (R : Rendering)
    (accountID nodeID name : String) (protocol : Protocol) :
    Only L (provisionAccess R accountID nodeID name protocol).run := by
  rw [provisionAccess]
  split
  · exact Only.fail
  · exact only_connectionsHandler hL hinsert R _ _ _ _

theorem only_getAccessAndNode (connectionID : String) :
    Only L (getAccessAndNode connectionID).run := by
  refine Only.andThen (Only.ask (hL (.getConnection _) ⟨rfl, nofun⟩)) fun connection => ?_
  exact Only.andThen (Only.ask (hL (.getNode _) ⟨rfl, nofun⟩)) fun _ => Only.ok

theorem only_deleteRemoteAccess (hdel : ∀ id t, L (.setDesiredStatus id .deleted t))
    (hfin : ∀ candidates applied, L (.finalize candidates applied)) (connectionID : String) :
    Only L (deleteRemoteAccess connectionID).run := by
  refine Only.andThen (only_getAccessAndNode hL connectionID) ?_
  rintro ⟨connection, node⟩
  exact Connections.only_changeStatus hL (hdel _) hfin node true

omit hL in
theorem only_forEachConnection {items : List ConnectionSummary}
    {change : Connection → Node → StoreM Connection}
    (h : ∀ item ∈ items, item.connection.desiredStatus ≠ .deleted →
      Only L (change item.connection item.node).run) :
    Only L (forEachConnection items change).run := by
  refine Only.foldlM (fun item hitem results => ?_) _
  split
  · exact Only.ok
  · rename_i hlive
    exact Only.andThen (Only.result (h item hitem hlive)) fun _ => Only.ok

theorem only_deleteRemoteAccount (hdel : ∀ id t, L (.setDesiredStatus id .deleted t))
    (hfin : ∀ candidates applied, L (.finalize candidates applied))
    (hacc : ∀ id, L (.updateAccountStatus id .deleted)) (accountID : String) :
    Only L (deleteRemoteAccount accountID).run := by
  refine Only.andThen (Only.ask (hL (.getAccount _) ⟨rfl, nofun⟩)) fun account => ?_
  refine Only.andThen (Store.only_summary hL accountID) ?_
  rintro ⟨_, items⟩
  refine Only.andThen (only_forEachConnection fun item _ _ => ?_) fun results => ?_
  · exact Connections.only_changeStatus hL (hdel _) hfin _ true
  split
  · exact Only.andThen (Store.only_updateAccountStatus hL (hacc _)) fun _ => Only.ok
  · exact Only.ok

end Provisioning

end Only

end LazGate
