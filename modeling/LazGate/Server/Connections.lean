import LazGate.Net
import LazGate.Server.Database

/-!
# Connections

The store methods of the main database as programs of calls, and
`internal/server/connections/service.go`: connections are created on the three kinds of nodes, held,
resumed and deleted.
-/

namespace LazGate

/-! ## The store methods as programs -/

/-- `%q` of a text without characters that have to be escaped. -/
def quoted (text : String) : String := "\"" ++ text ++ "\""

/-- The checks of `CreateConnectionBundle` that depend on the type of the node. -/
def validateMaterial (node : Node) (bundle : ConnectionBundle) : Except String Unit :=
  match node.type with
  | .nativeHy2 =>
    match bundle.connection.protocol, bundle.hysteria2Material, bundle.amneziaWGMaterial,
      bundle.amneziaAPIRef with
    | .hysteria2, some material, none, none =>
      if trimSpace material.password = "" ∨ trimSpace material.passwordHash = "" then
        .error "native Hysteria2 connection password and password hash are required"
      else .ok ()
    | _, _, _, _ => .error "native Hysteria2 connection requires only Hysteria2 material"
  | .nativeAmneziaWG =>
    match bundle.connection.protocol, bundle.amneziaWGMaterial, bundle.hysteria2Material,
      bundle.amneziaAPIRef with
    | .amneziaWG, some material, none, none =>
      if material.nodeID ≠ "" ∧ material.nodeID ≠ bundle.connection.nodeID then
        .error "native AmneziaWG connection material node mismatch"
      else if trimSpace material.clientPublicKey = "" ∨ trimSpace material.clientPrivateKey = "" ∨
          trimSpace material.presharedKey = "" ∨ trimSpace material.assignedIPv4 = "" then
        .error "native AmneziaWG connection material is incomplete"
      else .ok ()
    | _, _, _, _ => .error "native AmneziaWG connection requires only AmneziaWG material"
  | .amneziaAPI =>
    match bundle.connection.protocol, bundle.amneziaAPIRef, bundle.hysteria2Material,
      bundle.amneziaWGMaterial with
    | .amneziaWG, some ref, none, none =>
      if trimSpace ref.remoteID = "" then .error "Amnezia API remote connection ID is required"
      else .ok ()
    | _, _, _, _ => .error "Amnezia API connection requires only an external connection reference"
  | .unsupported text => .error ("unsupported connection node type " ++ quoted text)

def validateConnectionBundle (node : Node) (bundle : ConnectionBundle) : Except String Unit :=
  if bundle.configs.isEmpty then .error "connection requires at least one issued config"
  else if bundle.configs.any fun g => g.kind == .other "" || trimSpace g.name == "" ||
      trimSpace g.config == "" then
    .error "issued config kind, name and content are required"
  else validateMaterial node bundle

def Connection.withDefaults (v : Connection) (id : String) (now : ℤ) : Connection :=
  { v with
    id := id
    desiredStatus := if v.desiredStatus = .unset then .active else v.desiredStatus
    appliedStatus := if v.appliedStatus = .unset then .absent else v.appliedStatus
    desiredVersionMS := if v.desiredVersionMS = 0 then now else v.desiredVersionMS }

/-- `model.Connection{}`. -/
def Connection.zero : Connection := ⟨"", "", "", "", .unset, .unset, .unset, 0, 0⟩

namespace Store

def now : StoreM ℤ := ExceptT.lift (Prog.ask StoreCall.now)

def newID : StoreM String := ExceptT.lift (Prog.ask StoreCall.newID)

def getAccount (id : String) : StoreM Account := ExceptT.mk (Prog.ask (StoreCall.getAccount id))

def getNode (id : String) : StoreM Node := ExceptT.mk (Prog.ask (StoreCall.getNode id))

def listNodes : StoreM (List Node) := ExceptT.lift (Prog.ask StoreCall.listNodes)

def getConnection (id : String) : StoreM Connection :=
  ExceptT.mk (Prog.ask (StoreCall.getConnection id))

def getHysteria2NodeConfig (nodeID : String) : StoreM Hysteria2NodeConfig :=
  ExceptT.mk (Prog.ask (StoreCall.getHysteria2NodeConfig nodeID))

def getAmneziaWGNodeConfig (nodeID : String) : StoreM AmneziaWGNodeConfig :=
  ExceptT.mk (Prog.ask (StoreCall.getAmneziaWGNodeConfig nodeID))

def listAmneziaWGConnectionMaterials (nodeID : String) : StoreM (List AmneziaWGMaterialRow) :=
  ExceptT.lift (Prog.ask (StoreCall.listAmneziaWGConnectionMaterials nodeID))

def getAmneziaAPINodeConfig (nodeID : String) : StoreM AmneziaAPINodeConfig :=
  ExceptT.mk (Prog.ask (StoreCall.getAmneziaAPINodeConfig nodeID))

def getAmneziaAPIConnectionRef (connectionID : String) : StoreM AmneziaAPIConnectionRef :=
  ExceptT.mk (Prog.ask (StoreCall.getAmneziaAPIConnectionRef connectionID))

def drawConfigIDs (connectionID : String) (configs : List IssuedConfig) :
    StoreM (List IssuedConfig) :=
  configs.foldlM (fun issued g => do
    let id ← newID
    return issued ++ [{ g with id := id, connectionID := connectionID, status := .active }]) []

def idOrNew (id : String) : StoreM String := if id = "" then newID else pure id

/-- `CreateConnectionBundle`. The clock is read before the transaction. -/
def createConnectionBundle (bundle : ConnectionBundle) : StoreM ConnectionBundle := do
  let v := bundle.connection
  let _ ← getAccount v.accountID
  let node ← getNode v.nodeID
  ofExcept (validateConnectionBundle node bundle)
  let t ← now
  let id ← idOrNew v.id
  if trimSpace v.name = "" then throw "connection name is required"
  else do
    let configs ← drawConfigIDs id bundle.configs
    let bundle := { bundle with connection := v.withDefaults id t, configs := configs }
    let _ ← ExceptT.mk (Prog.ask (StoreCall.insertBundle bundle))
    return bundle

def updateConnectionDesiredStatus (id : String) (status : ConnectionStatus) : StoreM Connection :=
  if status ≠ .active ∧ status ≠ .held ∧ status ≠ .deleted then
    throw ("unsupported connection desired status " ++ quoted status.text)
  else do
    let t ← now
    let _ ← ExceptT.mk (Prog.ask (StoreCall.setDesiredStatus id status t))
    getConnection id

/-- `FinalizeConnectionsForAuthSnapshot`. The candidates are selected before the transaction. -/
def finalizeConnectionsForAuthSnapshot (nodeID accountID : String) (applied : ℤ) :
    StoreM (List Connection) := do
  let candidates ← ExceptT.mk (Prog.ask (StoreCall.selectFinalizable nodeID accountID applied))
  let _ ← ExceptT.mk (Prog.ask (StoreCall.finalize candidates applied))
  return candidates.map fun v =>
    { v with appliedStatus := v.desiredStatus, appliedVersionMS := v.desiredVersionMS }

end Store

/-! ## What the store methods call -/

/-- A call of a request under way that does not write. -/
def StoreCall.Quiet (c : StoreCall) : Prop := c.tx = none ∧ c ≠ .respond

namespace Store

open Prog

variable {L : StoreCall → Prop}

section

variable (hL : ∀ c, StoreCall.Quiet c → L c)

include hL

theorem only_quiet_drawConfigIDs (connectionID : String) (configs : List IssuedConfig) :
    Only L (drawConfigIDs connectionID configs).run :=
  Only.foldlM
    (fun _ _ _ => Only.andThen (Only.lift (Only.ask (hL .newID ⟨rfl, nofun⟩))) fun _ => Only.ok) _

theorem only_createConnectionBundle {bundle : ConnectionBundle}
    (hinsert : ∀ id t configs, L (.insertBundle
      { bundle with connection := bundle.connection.withDefaults id t, configs := configs })) :
    Only L (createConnectionBundle bundle).run := by
  refine Only.andThen (Only.ask (hL (.getAccount _) ⟨rfl, nofun⟩)) fun _ => ?_
  refine Only.andThen (Only.ask (hL (.getNode _) ⟨rfl, nofun⟩)) fun node => ?_
  refine Only.check fun _ _ => ?_
  refine Only.andThen (Only.lift (Only.ask (hL .now ⟨rfl, nofun⟩))) fun t => ?_
  refine Only.andThen ?_ fun id => ?_
  · rw [idOrNew]
    split
    · exact Only.lift (Only.ask (hL .newID ⟨rfl, nofun⟩))
    · exact Only.ok
  split
  · exact Only.fail
  refine Only.andThen (only_quiet_drawConfigIDs hL id _) fun configs => ?_
  exact Only.andThen (Only.ask (hinsert id t configs)) fun _ => Only.ok

theorem only_updateConnectionDesiredStatus {id : String} {status : ConnectionStatus}
    (hset : ∀ t, L (.setDesiredStatus id status t)) :
    Only L (updateConnectionDesiredStatus id status).run := by
  rw [updateConnectionDesiredStatus]
  split
  · exact Only.fail
  refine Only.andThen (Only.lift (Only.ask (hL .now ⟨rfl, nofun⟩))) fun t => ?_
  exact Only.andThen (Only.ask (hset t)) fun _ => Only.ask (hL (.getConnection id) ⟨rfl, nofun⟩)

theorem only_finalizeConnectionsForAuthSnapshot {nodeID accountID : String} {applied : ℤ}
    (hfin : ∀ candidates, L (.finalize candidates applied)) :
    Only L (finalizeConnectionsForAuthSnapshot nodeID accountID applied).run := by
  refine Only.andThen (Only.ask (hL (.selectFinalizable ..) ⟨rfl, nofun⟩)) fun candidates => ?_
  exact Only.andThen (Only.ask (hfin candidates)) fun _ => Only.ok

end

end Store

/-! ## Issued configurations -/

/-- What the service takes from libraries and from the rendering of AmneziaWG files. -/
structure Rendering where
  /-- `language.ParseRegion` finds a country for the text. -/
  isCountry : String → Bool
  /-- `nativeawg.RenderClientConf`. -/
  renderClientConf : AmneziaWGNodeConfig → AmneziaWGMaterialRow → Except String String

def flag (regionCode : String) : String :=
  String.ofList (regionCode.toList.map fun c => Char.ofNat (0x1F1E6 + (c.toNat - 'A'.toNat)))

def configName (R : Rendering) (node : Node) (connectionName : String) : String :=
  let regionCode := String.ofList
    ((trimSpace node.region).toUpper.toList.takeWhile fun c => c ∉ ['-', '_', '/', ' '])
  " ".intercalate ((if trimSpace connectionName = "" then [] else [trimSpace connectionName]) ++
    (if R.isCountry regionCode && regionCode.utf8ByteSize == 2 then [flag regionCode] else []) ++
    (if trimSpace node.name = "" then [] else [trimSpace node.name]))

namespace Hysteria

/-- `values.Encode()`: the values in the order of their keys. -/
def uriQuery (config : Hysteria2NodeConfig) : String :=
  "insecure=0" ++ (if config.obfsEnabled then
    "&obfs=" ++ queryEscape config.obfsType ++ "&obfs-password=" ++
      queryEscape config.obfsPassword
    else "") ++ "&sni=" ++ queryEscape config.endpointHost

/-- `nativehy2.URI`. -/
def uri (config : Hysteria2NodeConfig) (connectionID password title : String) : String :=
  "hy2://" ++ queryEscape (trimSpace connectionID ++ ":" ++ password) ++ "@" ++
    config.endpointHost ++ ":" ++ toString config.endpointPort ++ "/?" ++ uriQuery config ++ "#" ++
    queryEscape title

/-- `nativehy2.NewIssuedConfig`. -/
def newIssuedConfig (config : Hysteria2NodeConfig) (connectionID password title : String) :
    IssuedConfig where
  id := ""
  connectionID := connectionID
  kind := .hy2URI
  slug := "hy2"
  name := title
  client := "happ"
  contentType := "text/plain; charset=utf-8"
  config := uri config connectionID password title
  status := .unset

end Hysteria

/-- `nativeawg.NewIssuedAmneziaConf`. -/
def newIssuedAmneziaConf (connectionID name conf : String) : IssuedConfig where
  id := ""
  connectionID := connectionID
  kind := .amneziaConf
  slug := "awg-conf"
  name := if trimSpace name = "" then "AmneziaWG .conf" else trimSpace name
  client := "amneziawg"
  contentType := "text/plain; charset=utf-8"
  config := conf
  status := .unset

/-! ## Addresses -/

namespace Allocation

def compareIP : List UInt8 → List UInt8 → ℤ
  | a :: as, b :: bs => if a < b then -1 else if b < a then 1 else compareIP as bs
  | _, _ => 0

/-- The loop of `nextIP`: the bytes after it, and whether every byte has become zero. -/
def increment : List UInt8 → List UInt8 × Bool
  | [] => ([], true)
  | b :: bs =>
    if (increment bs).2 then ((b + 1) :: (increment bs).1, b + 1 == 0)
    else (b :: (increment bs).1, false)

def nextIP (ip : List UInt8) : List UInt8 := (increment ip).1

/-- `String` of an address in four bytes. -/
def ipString (ip : List UInt8) : String :=
  String.ofList (['.'].intercalate (ip.map fun b => Nat.toDigits 10 b.toNat))

/-- The four bytes of an address. -/
def bytes (a : IPv4) : List UInt8 := a.octets.map UInt8.ofNat

/-- The loop of `nextAvailableIPv4` from `current` on, for at most the given number of rounds. -/
def walk (used : List String) (last : List UInt8) :
    ℕ → List UInt8 → Option (Except String String)
  | 0, current =>
    if compareIP current last ≤ 0 then none else some (.error "amneziawg IPv4 pool exhausted")
  | rounds + 1, current =>
    if compareIP current last ≤ 0 then
      if used.contains (ipString current) then walk used last rounds (nextIP current)
      else some (.ok (ipString current))
    else some (.error "amneziawg IPv4 pool exhausted")

/-- The addresses that are not given to another client. -/
def used (config : AmneziaWGNodeConfig) (materials : List AmneziaWGMaterialRow) : List String :=
  config.serverIPv4 :: materials.map fun material => material.assignedIPv4

/-- `nextAvailableIPv4`; there is no result while the loop has not ended. -/
def nextAvailableIPv4 (rounds : ℕ) (config : AmneziaWGNodeConfig)
    (materials : List AmneziaWGMaterialRow) : Option (Except String String) :=
  match (Net.parseIP config.firstClientIPv4).bind Net.Addr.to4,
    (Net.parseIP config.lastClientIPv4).bind Net.Addr.to4 with
  | some first, some last =>
    if 0 < compareIP (bytes first) (bytes last) then some (.error "invalid amneziawg IPv4 pool")
    else walk (used config materials) (bytes last) rounds (bytes first)
  | _, _ => some (.error "invalid amneziawg IPv4 pool")

end Allocation

/-- `nextAvailableIPv4`, where every round but the last meets another used address. -/
def nextAvailableIPv4 (config : AmneziaWGNodeConfig) (materials : List AmneziaWGMaterialRow) :
    Except String String :=
  (Allocation.nextAvailableIPv4 (materials.length + 2) config materials).getD
    (.error "amneziawg IPv4 pool exhausted")

/-! ## The service -/

structure ConnectionInput where
  accountID : String
  node : Node
  protocol : Protocol
  name : String
  deriving DecidableEq

structure ConnectionResult where
  connection : Connection
  configs : List IssuedConfig
  deriving DecidableEq

def enrollmentProtocolForNode (node : Node) : Protocol :=
  match node.type with
  | .amneziaAPI | .nativeAmneziaWG => .amneziaWG
  | .nativeHy2 => .hysteria2
  | .unsupported _ => .unset

variable {connection : Connection}

namespace Connections

open Store

def newPassword : StoreM String := ExceptT.mk (Prog.ask StoreCall.newPassword)

def generateFromPassword (password : String) : StoreM String :=
  ExceptT.mk (Prog.ask (StoreCall.generateFromPassword password))

def generateKeyPair : StoreM (String × String) := ExceptT.mk (Prog.ask StoreCall.generateKeyPair)

def generatePresharedKey : StoreM String := ExceptT.mk (Prog.ask StoreCall.generatePresharedKey)

def enqueueAuthRefresh (connection : Connection) : StoreM Unit :=
  ExceptT.mk (Prog.ask (StoreCall.enqueueAuthRefresh
    ⟨connection.nodeID, connection.accountID, connection.desiredVersionMS⟩))

def createNative (bundle : ConnectionBundle) : StoreM ConnectionResult := do
  let bundle ← createConnectionBundle bundle
  enqueueAuthRefresh bundle.connection
  return ⟨bundle.connection, bundle.configs⟩

/-- The bundle is committed without looking at the version of the configuration again. -/
def createNativeHysteria (R : Rendering) (connection : Connection) (input : ConnectionInput) :
    StoreM ConnectionResult := do
  let config ← getHysteria2NodeConfig connection.nodeID
  let password ← newPassword
  let passwordHash ← Attempt.wrap (fun e => "hash Hysteria password: " ++ e)
    (generateFromPassword password)
  let title := configName R input.node connection.name
  createNative {
    expectedNodeConfigVersionMS := 0
    connection := connection
    hysteria2Material := some ⟨"", password, passwordHash⟩
    amneziaWGMaterial := none
    amneziaAPIRef := none
    configs := [Hysteria.newIssuedConfig config connection.id password title] }

def createNativeAmneziaWG (R : Rendering) (connection : Connection) (input : ConnectionInput) :
    StoreM ConnectionResult := do
  let config ← getAmneziaWGNodeConfig connection.nodeID
  let (privateKey, publicKey) ← generateKeyPair
  let psk ← generatePresharedKey
  let materials ← listAmneziaWGConnectionMaterials connection.nodeID
  let assigned ← ofExcept (nextAvailableIPv4 config materials)
  let material : AmneziaWGMaterialRow :=
    ⟨⟨connection.id, publicKey, psk, assigned⟩, connection.nodeID, privateKey⟩
  let conf ← ofExcept (R.renderClientConf config material)
  let title := configName R input.node connection.name
  createNative {
    expectedNodeConfigVersionMS := config.configVersionMS
    connection := connection
    hysteria2Material := none
    amneziaWGMaterial := some material
    amneziaAPIRef := none
    configs := [newIssuedAmneziaConf connection.id title conf] }

/-- The bundle of a connection that was created at the Amnezia API at the instant `t`. -/
def amneziaAPIBundle (R : Rendering) (connection : Connection) (input : ConnectionInput)
    (created : RemoteConnection) (t : ℤ) : ConnectionBundle where
  expectedNodeConfigVersionMS := 0
  connection := { connection with
    appliedStatus := .active
    desiredVersionMS := t
    appliedVersionMS := t }
  hysteria2Material := none
  amneziaWGMaterial := none
  amneziaAPIRef := some ⟨"", created.ref.id, created.ref.name⟩
  configs := created.configs.map fun item =>
    ⟨"", "", item.kind, item.slug, configName R input.node connection.name, item.client,
      item.contentType, item.value, .unset⟩

/-- The connection is removed again at the API if it cannot be stored. -/
def createAmneziaAPI (R : Rendering) (connection : Connection) (input : ConnectionInput) :
    StoreM ConnectionResult := do
  let config ← getAmneziaAPINodeConfig connection.nodeID
  let created ← ExceptT.mk (Prog.ask (StoreCall.providerCreate config connection))
  let t ← Store.now
  let result ← attemptResult
    (createConnectionBundle (amneziaAPIBundle R connection input created t))
  match result with
  | .ok bundle => return ⟨bundle.connection, bundle.configs⟩
  | .error e => do
    let _ ← (attemptResult (ExceptT.mk (Prog.ask (StoreCall.providerDelete config created.ref))) :
      StoreM (Except String Unit))
    throw e

def createConnection (R : Rendering) (input : ConnectionInput) : StoreM ConnectionResult :=
  if input.protocol ≠ enrollmentProtocolForNode input.node then
    throw "unsupported protocol/node type combination"
  else do
    let account ← Store.getAccount input.accountID
    if account.status ≠ .active then throw "account is not active"
    else if trimSpace input.name = "" then throw "connection name is required"
    else do
      let id ← Store.newID
      let connection : Connection := ⟨id, account.id, input.node.id, trimSpace input.name,
        input.protocol, .active, .absent, 0, 0⟩
      match input.node.type with
      | .nativeHy2 => createNativeHysteria R connection input
      | .nativeAmneziaWG => createNativeAmneziaWG R connection input
      | .amneziaAPI => createAmneziaAPI R connection input
      | .unsupported _ => throw "unsupported node type"

def createEnrollmentConnection (R : Rendering) (node : Node) (account : Account) (name : String) :
    StoreM ConnectionResult :=
  if enrollmentProtocolForNode node = .unset then
    throw ("unsupported node type " ++ node.type.text)
  else createConnection R ⟨account.id, node, enrollmentProtocolForNode node, name⟩

/-- `applyExternalStatus`, for the change of a status or for a deletion. -/
def applyExternalStatus (connection : Connection) (node : Node) (status : ConnectionStatus)
    (deleting : Bool) : StoreM Unit := do
  let config ← getAmneziaAPINodeConfig node.id
  let ref ← getAmneziaAPIConnectionRef connection.id
  let remoteRef : RemoteRef := ⟨ref.remoteID, ref.remoteName⟩
  if deleting then ExceptT.mk (Prog.ask (StoreCall.providerDelete config remoteRef))
  else ExceptT.mk (Prog.ask (StoreCall.providerSetStatus config remoteRef status))

/-- What `SetConnectionStatus` and `DeleteConnection` have in common: the outside first, then the
row, then the message to the agent. -/
def changeStatus (connection : Connection) (node : Node) (desired : ConnectionStatus)
    (deleting : Bool) : StoreM Connection :=
  if node.type = .amneziaAPI then do
    applyExternalStatus connection node desired deleting
    let updated ← updateConnectionDesiredStatus connection.id desired
    let finalized ← finalizeConnectionsForAuthSnapshot node.id connection.accountID
      updated.desiredVersionMS
    return finalized.head?.getD Connection.zero
  else do
    let updated ← updateConnectionDesiredStatus connection.id desired
    enqueueAuthRefresh updated
    return updated

def setConnectionStatus (connection : Connection) (node : Node) (desired : ConnectionStatus) :
    StoreM Connection :=
  if desired ≠ .active ∧ desired ≠ .held then throw "unsupported connection status"
  else changeStatus connection node desired false

def deleteConnection (connection : Connection) (node : Node) : StoreM Connection :=
  changeStatus connection node .deleted true

/-! ### What the service calls -/

section Only

open Prog

variable {L : StoreCall → Prop} (hL : ∀ c, StoreCall.Quiet c → L c)

include hL

section

variable (hinsert : ∀ bundle, L (.insertBundle bundle))

include hinsert

theorem only_createNative (bundle : ConnectionBundle) : Only L (createNative bundle).run := by
  refine Only.andThen (only_createConnectionBundle hL fun _ _ _ => hinsert _) fun bundle => ?_
  exact Only.andThen (Only.ask (hL (.enqueueAuthRefresh _) ⟨rfl, nofun⟩)) fun _ => Only.ok

section

variable (R : Rendering)

include R

theorem only_createNativeHysteria (connection : Connection) (input : ConnectionInput) :
    Only L (createNativeHysteria R connection input).run := by
  refine Only.andThen (Only.ask (hL (.getHysteria2NodeConfig _) ⟨rfl, nofun⟩)) fun config => ?_
  refine Only.andThen (Only.ask (hL .newPassword ⟨rfl, nofun⟩)) fun password => ?_
  refine Only.andThen (Only.wrap (Only.ask (hL (.generateFromPassword _) ⟨rfl, nofun⟩)))
    fun hash => ?_
  exact only_createNative hL hinsert _

theorem only_createNativeAmneziaWG (connection : Connection) (input : ConnectionInput) :
    Only L (createNativeAmneziaWG R connection input).run := by
  refine Only.andThen (Only.ask (hL (.getAmneziaWGNodeConfig _) ⟨rfl, nofun⟩)) fun config => ?_
  refine Only.andThen (Only.ask (hL .generateKeyPair ⟨rfl, nofun⟩)) fun keys => ?_
  refine Only.andThen (Only.ask (hL .generatePresharedKey ⟨rfl, nofun⟩)) fun psk => ?_
  refine Only.andThen
    (Only.lift (Only.ask (hL (.listAmneziaWGConnectionMaterials _) ⟨rfl, nofun⟩)))
    fun materials => ?_
  refine Only.check fun assigned _ => ?_
  refine Only.check fun conf _ => ?_
  exact only_createNative hL hinsert _

theorem only_createAmneziaAPI (connection : Connection) (input : ConnectionInput) :
    Only L (createAmneziaAPI R connection input).run := by
  refine Only.andThen (Only.ask (hL (.getAmneziaAPINodeConfig _) ⟨rfl, nofun⟩)) fun config => ?_
  refine Only.andThen (Only.ask (hL (.providerCreate ..) ⟨rfl, nofun⟩)) fun created => ?_
  refine Only.andThen (Only.lift (Only.ask (hL .now ⟨rfl, nofun⟩))) fun t => ?_
  refine Only.andThen (Only.result (only_createConnectionBundle hL fun _ _ _ => hinsert _)) ?_
  rintro (e | bundle)
  · refine Only.andThen (Only.result (Only.ask (hL (.providerDelete ..) ⟨rfl, nofun⟩))) fun _ => ?_
    exact Only.fail
  · exact Only.ok

theorem only_createConnection (input : ConnectionInput) :
    Only L (createConnection R input).run := by
  rw [createConnection]
  split
  · exact Only.fail
  refine Only.andThen (Only.ask (hL (.getAccount _) ⟨rfl, nofun⟩)) fun account => ?_
  split
  · exact Only.fail
  split
  · exact Only.fail
  refine Only.andThen (Only.lift (Only.ask (hL .newID ⟨rfl, nofun⟩))) fun id => ?_
  split
  · exact only_createNativeHysteria hL hinsert R _ input
  · exact only_createNativeAmneziaWG hL hinsert R _ input
  · exact only_createAmneziaAPI hL hinsert R _ input
  · exact Only.fail

theorem only_createEnrollmentConnection (node : Node) (account : Account) (name : String) :
    Only L (createEnrollmentConnection R node account name).run := by
  rw [createEnrollmentConnection]
  split
  · exact Only.fail
  · exact only_createConnection hL hinsert R _

end

end

theorem only_applyExternalStatus (connection : Connection) (node : Node) (status : ConnectionStatus)
    (deleting : Bool) :
    Only L (applyExternalStatus connection node status deleting).run := by
  refine Only.andThen (Only.ask (hL (.getAmneziaAPINodeConfig _) ⟨rfl, nofun⟩)) fun config => ?_
  refine Only.andThen (Only.ask (hL (.getAmneziaAPIConnectionRef _) ⟨rfl, nofun⟩)) fun ref => ?_
  dsimp only
  split
  · exact Only.ask (hL (.providerDelete ..) ⟨rfl, nofun⟩)
  · exact Only.ask (hL (.providerSetStatus ..) ⟨rfl, nofun⟩)

variable {desired : ConnectionStatus}

theorem only_changeStatus (hset : ∀ t, L (.setDesiredStatus connection.id desired t))
    (hfin : ∀ candidates applied, L (.finalize candidates applied)) (node : Node)
    (deleting : Bool) : Only L (changeStatus connection node desired deleting).run := by
  have hupdate := only_updateConnectionDesiredStatus hL hset
  rw [changeStatus]
  split
  · refine Only.andThen (only_applyExternalStatus hL connection node desired deleting) fun _ => ?_
    refine Only.andThen hupdate fun updated => ?_
    refine Only.andThen (only_finalizeConnectionsForAuthSnapshot hL fun _ => hfin _ _) fun _ => ?_
    exact Only.ok
  · refine Only.andThen hupdate fun updated => ?_
    refine Only.andThen (Only.ask (hL (.enqueueAuthRefresh _) ⟨rfl, nofun⟩)) fun _ => ?_
    exact Only.ok

theorem only_setConnectionStatus (hset : desired = .active ∨ desired = .held →
      ∀ t, L (.setDesiredStatus connection.id desired t))
    (hfin : ∀ candidates applied, L (.finalize candidates applied)) (node : Node) :
    Only L (setConnectionStatus connection node desired).run := by
  rw [setConnectionStatus]
  split
  · exact Only.fail
  · rename_i hstatus
    refine only_changeStatus hL (hset ?_) hfin node false
    by_contra hnot
    exact hstatus (not_or.1 hnot)

end Only

end Connections

end LazGate
