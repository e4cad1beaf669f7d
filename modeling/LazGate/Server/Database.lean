import LazGate.Lib.Prog
import LazGate.Lib.Table
import LazGate.Server.Model

/-!
# The main database

The tables of accounts, nodes and connections with the queries and transactions of
`internal/server/storage/{domain_sql,hysteria_settings,amnezia_settings,sqlite}.go`, and the calls
that the services make: these, the clock, what is drawn at random, and the outside world.
-/

namespace LazGate

structure Database where
  accounts : List Account
  nodes : List Node
  connections : List Connection
  hysteria2Materials : List Hysteria2ConnectionMaterial
  amneziaWGMaterials : List AmneziaWGMaterialRow
  amneziaAPIRefs : List AmneziaAPIConnectionRef
  issuedConfigs : List IssuedConfig
  hysteria2Configs : List Hysteria2NodeConfig
  amneziaWGConfigs : List AmneziaWGNodeConfig
  amneziaAPIConfigs : List AmneziaAPINodeConfig
  policyTags : List PolicyTag
  accountPolicyTags : List AccountPolicyTag
  /-- The ids of the masquerade file sets with their manifests. -/
  fileSets : List (String × String)
  deriving DecidableEq

def errConflict : String := "configuration changed concurrently"

def errDuplicateConnection : String := "connection already exists for account, node and name"

/-- The version of a change: the instant at which it is made, but above the version before. -/
def bumpVersion (now version : ℤ) : ℤ := if now ≤ version then version + 1 else now

theorem lt_bumpVersion (now version : ℤ) : version < bumpVersion now version := by
  unfold bumpVersion
  split <;> omega

variable {configs : List IssuedConfig} {db db' : Database} {expected : ℤ}

namespace Database

def empty : Database where
  accounts := []
  nodes := []
  connections := []
  hysteria2Materials := []
  amneziaWGMaterials := []
  amneziaAPIRefs := []
  issuedConfigs := []
  hysteria2Configs := []
  amneziaWGConfigs := []
  amneziaAPIConfigs := []
  policyTags := []
  accountPolicyTags := []
  fileSets := []

/-! ## Queries -/

def getAccount (id : String) (db : Database) : Except String Account :=
  orNotFound (db.accounts.find? fun a => a.id == id)

def getNode (id : String) (db : Database) : Except String Node :=
  orNotFound (db.nodes.find? fun n => n.id == id)

def getConnection (id : String) (db : Database) : Except String Connection :=
  orNotFound (db.connections.find? fun c => c.id == id)

def countActiveConnectionsForAccount (accountID : String) (db : Database) : ℕ :=
  db.connections.countP fun c => c.accountID == accountID && c.desiredStatus != .deleted

def getHysteria2NodeConfig (nodeID : String) (db : Database) : Except String Hysteria2NodeConfig :=
  orNotFound (db.hysteria2Configs.find? fun c => c.nodeID == nodeID)

def nodeConnections (nodeID : String) (db : Database) : List Connection :=
  db.connections.filter fun c => c.nodeID == nodeID && c.desiredStatus != .deleted

def listHysteria2ConfigSources (nodeID : String) (db : Database) : List Hysteria2ConfigSource :=
  (db.nodeConnections nodeID).flatMap fun c =>
    (db.hysteria2Materials.filter fun m => m.connectionID == c.id).map fun m =>
      ⟨c.id, c.name, m.password⟩

def getHysteriaFileSetManifest (id : String) (db : Database) : Except String String :=
  orNotFound ((db.fileSets.find? fun s => s.1 == id).map Prod.snd)

def getAmneziaWGNodeConfig (nodeID : String) (db : Database) : Except String AmneziaWGNodeConfig :=
  orNotFound (db.amneziaWGConfigs.find? fun c => c.nodeID == nodeID)

def listAmneziaWGConnectionMaterials (nodeID : String) (db : Database) :
    List AmneziaWGMaterialRow :=
  db.amneziaWGMaterials.filter fun m => m.nodeID == nodeID

def getAmneziaAPINodeConfig (nodeID : String) (db : Database) :
    Except String AmneziaAPINodeConfig :=
  orNotFound (db.amneziaAPIConfigs.find? fun c => c.nodeID == nodeID)

def getAmneziaAPIConnectionRef (connectionID : String) (db : Database) :
    Except String AmneziaAPIConnectionRef :=
  orNotFound (db.amneziaAPIRefs.find? fun r => r.connectionID == connectionID)

def listAccountPolicyTags (accountID : String) (db : Database) : List AccountPolicyTag :=
  db.accountPolicyTags.filter fun t => t.accountID == accountID

/-- The first query of `FinalizeConnectionsForAuthSnapshot`, in the order of the ids. -/
def selectFinalizable (nodeID accountID : String) (applied : ℤ) (db : Database) :
    List Connection :=
  (db.connections.filter fun c => c.nodeID == nodeID && c.accountID == accountID &&
    c.desiredVersionMS ≤ applied &&
    (c.appliedStatus != c.desiredStatus || c.appliedVersionMS < c.desiredVersionMS)).insertionSort
      fun c c' => c.id ≤ c'.id

/-! ## Transactions -/

/-- Another connection of the account on the node with this name, which the unique index on the
connections that are not deleted refuses. -/
def nameTaken (connection : Connection) (db : Database) : Bool :=
  db.connections.any fun c => c.id != connection.id && c.accountID == connection.accountID &&
    c.nodeID == connection.nodeID && c.name == connection.name && c.desiredStatus != .deleted

def insertConnection (connection : Connection) (db : Database) : Except String Database :=
  if (db.connections.any fun c => c.id == connection.id) ||
      (connection.desiredStatus != .deleted && db.nameTaken connection) then
    .error errDuplicateConnection
  else .ok { db with connections := db.connections ++ [connection] }

def insertHysteria2Material (m : Hysteria2ConnectionMaterial) (db : Database) :
    Except String Database :=
  if db.hysteria2Materials.any fun m' => m'.connectionID == m.connectionID then .error errUnique
  else .ok { db with hysteria2Materials := db.hysteria2Materials ++ [m] }

def insertAmneziaWGMaterial (m : AmneziaWGMaterialRow) (db : Database) : Except String Database :=
  if db.amneziaWGMaterials.any fun m' => m'.connectionID == m.connectionID ||
      (m'.nodeID == m.nodeID &&
        (m'.assignedIPv4 == m.assignedIPv4 || m'.clientPublicKey == m.clientPublicKey)) then
    .error errUnique
  else .ok { db with amneziaWGMaterials := db.amneziaWGMaterials ++ [m] }

def insertAmneziaAPIRef (r : AmneziaAPIConnectionRef) (db : Database) : Except String Database :=
  if db.amneziaAPIRefs.any fun r' => r'.connectionID == r.connectionID then .error errUnique
  else .ok { db with amneziaAPIRefs := db.amneziaAPIRefs ++ [r] }

def insertConfig (g : IssuedConfig) (db : Database) : Except String Database :=
  if db.issuedConfigs.any fun g' => g'.id == g.id then .error errUnique
  else .ok { db with issuedConfigs := db.issuedConfigs ++ [g] }

def insertSome {α : Type} (insert : α → Database → Except String Database) (x : Option α)
    (db : Database) : Except String Database :=
  match x with
  | none => .ok db
  | some a => insert a db

/-- The guard of an AmneziaWG bundle: the node configuration is the one that was read. -/
def checkConfigVersion (bundle : ConnectionBundle) (db : Database) : Except String Unit :=
  if bundle.amneziaWGMaterial.isSome && 0 < bundle.expectedNodeConfigVersionMS then
    if (db.amneziaWGConfigs.countP fun c => c.nodeID == bundle.connection.nodeID &&
        c.configVersionMS == bundle.expectedNodeConfigVersionMS) ≠ 1 then .error errConflict
    else .ok ()
  else .ok ()

/-- The transaction of `CreateConnectionBundle`. -/
def insertBundle (bundle : ConnectionBundle) (db : Database) : Except String Database := do
  let id := bundle.connection.id
  let _ ← db.checkConfigVersion bundle
  let db ← db.insertConnection bundle.connection
  let db ← db.insertSome insertHysteria2Material
    (bundle.hysteria2Material.map fun m => { m with connectionID := id })
  let db ← db.insertSome insertAmneziaWGMaterial
    (bundle.amneziaWGMaterial.map fun m =>
      { m with connectionID := id, nodeID := bundle.connection.nodeID })
  let db ← db.insertSome insertAmneziaAPIRef
    (bundle.amneziaAPIRef.map fun r => { r with connectionID := id })
  bundle.configs.foldlM
    (fun db g => insertConfig { g with connectionID := id, status := .active } db) db

/-- The update statement of `UpdateConnectionDesiredStatus`. -/
def setDesiredStatus (id : String) (status : ConnectionStatus) (now : ℤ) (db : Database) :
    Except String Database :=
  if status != .deleted && (db.connections.any fun c => c.id == id && db.nameTaken c) then
    .error errUnique
  else .ok { db with
    connections := Table.update (fun c => c.id == id) (fun c => { c with
      desiredStatus := status
      desiredVersionMS := bumpVersion now c.desiredVersionMS }) db.connections }

def updateAccountStatus (id : String) (status : AccountStatus) (db : Database) :
    Except String Database :=
  .ok { db with
    accounts := Table.update (fun a => a.id == id) (fun a => { a with status := status })
      db.accounts }

/-- The statement of `SoftDeleteNode` about the connections of the node. -/
def deleteNodeConnections (nodeID : String) (now : ℤ) (db : Database) : Database :=
  { db with
    connections := Table.update (fun c => c.nodeID == nodeID && c.desiredStatus != .deleted)
      (fun c => { c with
        desiredStatus := .deleted
        desiredVersionMS := bumpVersion now c.desiredVersionMS }) db.connections }

/-- The transaction of `SoftDeleteNode`. -/
def softDeleteNode (id : String) (now : ℤ) (db : Database) : Except String Database :=
  .ok { db.deleteNodeConnections id now with
    nodes := Table.update (fun n => n.id == id) (fun n => { n with status := .deleted }) db.nodes }

/-- The update of a connection in `FinalizeConnectionsForAuthSnapshot`. -/
def markApplied (id : String) (applied : ℤ) (db : Database) : Database :=
  { db with
    connections := Table.update (fun c => c.id == id && c.desiredVersionMS ≤ applied)
      (fun c => { c with
        appliedStatus := c.desiredStatus
        appliedVersionMS := c.desiredVersionMS }) db.connections }

/-- What `FinalizeConnectionsForAuthSnapshot` does for a candidate. The update looks at the row,
but the configurations are deleted after the status that was read before. -/
def finalizeOne (applied : ℤ) (db : Database) (v : Connection) : Database :=
  { db.markApplied v.id applied with
    issuedConfigs :=
      if v.desiredStatus = .deleted then
        Table.update (fun g => g.connectionID == v.id && g.status != .deleted)
          (fun g => { g with status := .deleted }) db.issuedConfigs
      else db.issuedConfigs }

/-- The transaction of `FinalizeConnectionsForAuthSnapshot`. -/
def finalize (candidates : List Connection) (applied : ℤ) (db : Database) :
    Except String Database :=
  .ok (candidates.foldl (finalizeOne applied) db)

def reissue (kind : ConfigKind) (configs : List IssuedConfig) (v : IssuedConfig) :
    List IssuedConfig :=
  Table.update (fun g => g.connectionID == v.connectionID && g.kind == kind &&
    g.status != .deleted) (fun g => { g with config := v.config }) configs

/-- The columns that `UpdateHysteria2NodeConfig` sets. -/
def setHysteria2Config (c row : Hysteria2NodeConfig) : Hysteria2NodeConfig :=
  { row with
    endpointHost := c.endpointHost
    endpointPort := c.endpointPort
    obfsEnabled := c.obfsEnabled
    obfsType := c.obfsType
    obfsPassword := c.obfsPassword
    masqueradeURL := c.masqueradeURL
    settingsJSON := c.settingsJSON
    masqueradeFileSetID := c.masqueradeFileSetID
    configVersionMS := c.configVersionMS }

def updateHysteria2NodeConfig (c : Hysteria2NodeConfig) (expected : ℤ)
    (configs : List IssuedConfig) (db : Database) : Except String Database :=
  if (db.hysteria2Configs.countP fun row =>
      row.nodeID == c.nodeID && row.configVersionMS == expected) ≠ 1 then .error errConflict
  else if (db.nodeConnections c.nodeID).length ≠ configs.length then .error errConflict
  else .ok { db with
    hysteria2Configs := Table.update
      (fun row => row.nodeID == c.nodeID && row.configVersionMS == expected)
      (setHysteria2Config c) db.hysteria2Configs
    issuedConfigs := configs.foldl (reissue .hy2URI) db.issuedConfigs }

/-- The last statement of `UpdateAmneziaWGNodeConfig`. -/
def bumpNodeConnections (nodeID : String) (version : ℤ) (db : Database) : Database :=
  { db with
    connections := Table.update
      (fun c => c.nodeID == nodeID && c.desiredStatus != .deleted)
      (fun c => { c with desiredVersionMS := bumpVersion version c.desiredVersionMS })
      db.connections }

/-- `UpdateAmneziaWGNodeConfig`, which sets all columns but the id of the node. -/
def updateAmneziaWGNodeConfig (v : AmneziaWGNodeConfig) (expected : ℤ)
    (configs : List IssuedConfig) (db : Database) : Except String Database :=
  if (db.amneziaWGConfigs.countP fun row =>
      row.nodeID == v.nodeID && row.configVersionMS == expected) ≠ 1 then .error errConflict
  else if (db.listAmneziaWGConnectionMaterials v.nodeID).length ≠ configs.length then
    .error errConflict
  else .ok { db.bumpNodeConnections v.nodeID v.configVersionMS with
    amneziaWGConfigs := Table.update
      (fun row => row.nodeID == v.nodeID && row.configVersionMS == expected)
      (fun row => { v with nodeID := row.nodeID }) db.amneziaWGConfigs
    issuedConfigs := configs.foldl (reissue .amneziaConf) db.issuedConfigs }

/-! ## What the transactions do -/

theorem insertConnection_ok {connection : Connection}
    (h : db.insertConnection connection = .ok db') :
    db' = { db with connections := db.connections ++ [connection] } ∧
      ∀ c ∈ db.connections, c.id ≠ connection.id := by
  obtain ⟨hnew, h⟩ := Except.guard_eq_ok.1 h
  refine ⟨(Except.ok.inj h).symm, fun c hc hid => hnew ?_⟩
  rw [Bool.or_eq_true]
  exact .inl (List.any_eq_true.2 ⟨c, hc, beq_iff_eq.2 hid⟩)

theorem insertSome_hysteria2Material {x : Option Hysteria2ConnectionMaterial}
    (h : db.insertSome insertHysteria2Material x = .ok db') :
    db' = { db with hysteria2Materials := db.hysteria2Materials ++ x.toList } := by
  cases x with
  | none => rw [← Except.ok.inj h, Option.toList_none, List.append_nil]
  | some m => exact (Except.ok.inj (Except.guard_eq_ok.1 h).2).symm

theorem insertSome_amneziaWGMaterial {x : Option AmneziaWGMaterialRow}
    (h : db.insertSome insertAmneziaWGMaterial x = .ok db') :
    db' = { db with amneziaWGMaterials := db.amneziaWGMaterials ++ x.toList } ∧
      ∀ row ∈ x, ∀ m ∈ db.amneziaWGMaterials,
        m.nodeID = row.nodeID → m.assignedIPv4 ≠ row.assignedIPv4 := by
  cases x with
  | none =>
    rw [← Except.ok.inj h, Option.toList_none, List.append_nil]
    exact ⟨rfl, nofun⟩
  | some row =>
    obtain ⟨hnew, h⟩ := Except.guard_eq_ok.1 h
    refine ⟨(Except.ok.inj h).symm, fun row' hr m hm hnode hip => hnew ?_⟩
    cases hr
    exact List.any_eq_true.2 ⟨m, hm, by simp [hnode, hip]⟩

theorem insertSome_amneziaAPIRef {x : Option AmneziaAPIConnectionRef}
    (h : db.insertSome insertAmneziaAPIRef x = .ok db') :
    db' = { db with amneziaAPIRefs := db.amneziaAPIRefs ++ x.toList } := by
  cases x with
  | none => rw [← Except.ok.inj h, Option.toList_none, List.append_nil]
  | some r => exact (Except.ok.inj (Except.guard_eq_ok.1 h).2).symm

theorem insertConfigs_ok {f : IssuedConfig → IssuedConfig}
    (h : configs.foldlM (fun db g => insertConfig (f g) db) db = .ok db') :
    db' = { db with issuedConfigs := db.issuedConfigs ++ configs.map f } := by
  induction configs generalizing db with
  | nil =>
    rw [List.map_nil, List.append_nil]
    exact (Except.ok.inj h).symm
  | cons g configs ih =>
    rw [List.foldlM_cons] at h
    obtain ⟨db₁, h₁, h⟩ := Except.bind_eq_ok.1 h
    obtain ⟨-, h₁⟩ := Except.guard_eq_ok.1 h₁
    cases h₁
    rw [ih h, List.map_cons, List.append_assoc]
    rfl

def hysteria2Row (bundle : ConnectionBundle) : Option Hysteria2ConnectionMaterial :=
  bundle.hysteria2Material.map fun m => { m with connectionID := bundle.connection.id }

def amneziaWGRow (bundle : ConnectionBundle) : Option AmneziaWGMaterialRow :=
  bundle.amneziaWGMaterial.map fun m =>
    { m with connectionID := bundle.connection.id, nodeID := bundle.connection.nodeID }

def configRows (bundle : ConnectionBundle) : List IssuedConfig :=
  bundle.configs.map fun g => { g with connectionID := bundle.connection.id, status := .active }

/-- A bundle has been inserted. -/
structure Inserted (bundle : ConnectionBundle) (db db' : Database) : Prop where
  row : db.insertConnection bundle.connection =
    .ok { db with connections := db.connections ++ [bundle.connection] }
  connections : db'.connections = db.connections ++ [bundle.connection]
  hysteria2Materials :
    db'.hysteria2Materials = db.hysteria2Materials ++ (hysteria2Row bundle).toList
  amneziaWGMaterials :
    db'.amneziaWGMaterials = db.amneziaWGMaterials ++ (amneziaWGRow bundle).toList
  issuedConfigs : db'.issuedConfigs = db.issuedConfigs ++ configRows bundle
  accounts : db'.accounts = db.accounts
  nodes : db'.nodes = db.nodes
  hysteria2Configs : db'.hysteria2Configs = db.hysteria2Configs
  amneziaWGConfigs : db'.amneziaWGConfigs = db.amneziaWGConfigs
  policyTags : db'.policyTags = db.policyTags
  accountPolicyTags : db'.accountPolicyTags = db.accountPolicyTags
  fresh : ∀ c ∈ db.connections, c.id ≠ bundle.connection.id
  unassigned : ∀ row ∈ amneziaWGRow bundle, ∀ m ∈ db.amneziaWGMaterials,
    m.nodeID = row.nodeID → m.assignedIPv4 ≠ row.assignedIPv4
  version : db.checkConfigVersion bundle = .ok ()

theorem inserted_of_insertBundle {bundle : ConnectionBundle}
    (h : db.insertBundle bundle = .ok db') :
    Inserted bundle db db' := by
  obtain ⟨_, hversion, h⟩ := Except.bind_eq_ok.1 h
  obtain ⟨db₁, h₁, h⟩ := Except.bind_eq_ok.1 h
  obtain ⟨db₂, h₂, h⟩ := Except.bind_eq_ok.1 h
  obtain ⟨db₃, h₃, h⟩ := Except.bind_eq_ok.1 h
  obtain ⟨db₄, h₄, h⟩ := Except.bind_eq_ok.1 h
  obtain ⟨rfl, hfresh⟩ := insertConnection_ok h₁
  obtain rfl := insertSome_hysteria2Material h₂
  obtain ⟨rfl, hunassigned⟩ := insertSome_amneziaWGMaterial h₃
  obtain rfl := insertSome_amneziaAPIRef h₄
  obtain rfl := insertConfigs_ok h
  exact ⟨h₁, rfl, rfl, rfl, rfl, rfl, rfl, rfl, rfl, rfl, rfl, hfresh, hunassigned, hversion⟩

theorem setDesiredStatus_ok {id : String} {status : ConnectionStatus} {now : ℤ}
    (h : db.setDesiredStatus id status now = .ok db') :
    db' = { db with
      connections := Table.update (fun c => c.id == id) (fun c => { c with
        desiredStatus := status
        desiredVersionMS := bumpVersion now c.desiredVersionMS }) db.connections } := by
  obtain ⟨-, h⟩ := Except.guard_eq_ok.1 h
  exact (Except.ok.inj h).symm

structure Finalized (db db' : Database) : Prop where
  connections : ∃ g : Connection → Connection, db'.connections = db.connections.map g ∧
    ∀ c, g c = { c with
      appliedStatus := (g c).appliedStatus
      appliedVersionMS := (g c).appliedVersionMS }
  issuedConfigs : ∃ g : IssuedConfig → IssuedConfig, db'.issuedConfigs = db.issuedConfigs.map g ∧
    ∀ x, g x = x ∨ g x = { x with status := .deleted }
  rest : db' = { db with connections := db'.connections, issuedConfigs := db'.issuedConfigs }

theorem Finalized.refl (db : Database) : Finalized db db where
  connections := ⟨id, (List.map_id _).symm, fun _ => rfl⟩
  issuedConfigs := ⟨id, (List.map_id _).symm, fun _ => .inl rfl⟩
  rest := rfl

theorem Finalized.trans {db₁ db₂ db₃ : Database} (h : Finalized db₁ db₂) (h' : Finalized db₂ db₃) :
    Finalized db₁ db₃ where
  connections := by
    obtain ⟨g, hg, hid⟩ := h.connections
    obtain ⟨g', hg', hid'⟩ := h'.connections
    refine ⟨g' ∘ g, by rw [hg', hg, List.map_map], fun c => ?_⟩
    rw [Function.comp_apply, hid' (g c), hid c]
  issuedConfigs := by
    obtain ⟨g, hg, hid⟩ := h.issuedConfigs
    obtain ⟨g', hg', hid'⟩ := h'.issuedConfigs
    refine ⟨g' ∘ g, by rw [hg', hg, List.map_map], fun x => ?_⟩
    rw [Function.comp_apply]
    rcases hid x with hx | hx <;> rw [hx]
    · exact hid' x
    · rcases hid' { x with status := .deleted } with hx' | hx' <;> exact .inr hx'
  rest := by rw [h'.rest, h.rest]

theorem finalized_finalizeOne (applied : ℤ) (db : Database) (v : Connection) :
    Finalized db (finalizeOne applied db v) where
  connections := by
    refine ⟨_, rfl, fun c => ?_⟩
    split <;> rfl
  issuedConfigs := by
    simp only [finalizeOne]
    split
    · refine ⟨_, rfl, fun x => ?_⟩
      split
      · exact .inr rfl
      · exact .inl rfl
    · exact ⟨id, (List.map_id _).symm, fun _ => .inl rfl⟩
  rest := rfl

theorem finalized_of_finalize {candidates : List Connection} {applied : ℤ}
    (h : db.finalize candidates applied = .ok db') : Finalized db db' := by
  obtain rfl := Except.ok.inj h
  clear h
  induction candidates generalizing db with
  | nil => exact .refl db
  | cons v candidates ih => exact (finalized_finalizeOne applied db v).trans ih

theorem updateHysteria2NodeConfig_ok {c : Hysteria2NodeConfig}
    (h : db.updateHysteria2NodeConfig c expected configs = .ok db') :
    (db.nodeConnections c.nodeID).length = configs.length ∧
      (db.hysteria2Configs.countP fun row =>
        row.nodeID == c.nodeID && row.configVersionMS == expected) = 1 ∧
      db' = { db with
        hysteria2Configs := Table.update
          (fun row => row.nodeID == c.nodeID && row.configVersionMS == expected)
          (setHysteria2Config c) db.hysteria2Configs
        issuedConfigs := configs.foldl (reissue .hy2URI) db.issuedConfigs } := by
  obtain ⟨hone, h⟩ := Except.guard_eq_ok.1 h
  split at h
  · cases h
  · rename_i hlen
    exact ⟨not_not.1 hlen, not_not.1 hone, (Except.ok.inj h).symm⟩

theorem updateAmneziaWGNodeConfig_ok {v : AmneziaWGNodeConfig}
    (h : db.updateAmneziaWGNodeConfig v expected configs = .ok db') :
    (db.listAmneziaWGConnectionMaterials v.nodeID).length = configs.length ∧
      (db.amneziaWGConfigs.countP fun row =>
        row.nodeID == v.nodeID && row.configVersionMS == expected) = 1 ∧
      db' = { db.bumpNodeConnections v.nodeID v.configVersionMS with
        amneziaWGConfigs := Table.update
          (fun row => row.nodeID == v.nodeID && row.configVersionMS == expected)
          (fun row => { v with nodeID := row.nodeID }) db.amneziaWGConfigs
        issuedConfigs := configs.foldl (reissue .amneziaConf) db.issuedConfigs } := by
  obtain ⟨hone, h⟩ := Except.guard_eq_ok.1 h
  split at h
  · cases h
  · rename_i hlen
    exact ⟨not_not.1 hlen, not_not.1 hone, (Except.ok.inj h).symm⟩

end Database

/-! ## The calls -/

/-- `remote.Ref`. -/
structure RemoteRef where
  id : String
  name : String
  deriving DecidableEq

/-- `remote.Config`; its name is not read. -/
structure RemoteConfig where
  kind : ConfigKind
  slug : String
  client : String
  contentType : String
  value : String
  deriving DecidableEq

/-- `remote.Connection`. -/
structure RemoteConnection where
  ref : RemoteRef
  configs : List RemoteConfig
  deriving DecidableEq

structure AuthRefreshPayload where
  nodeID : String
  accountID : String
  snapshotVersionMS : ℤ
  deriving DecidableEq

inductive StoreCall where
  /-- The clock, in milliseconds. -/
  | now
  | newID
  | newPassword
  /-- `bcrypt.GenerateFromPassword`. -/
  | generateFromPassword (password : String)
  /-- A private and its public key. -/
  | generateKeyPair
  | generatePresharedKey
  | getAccount (id : String)
  | getNode (id : String)
  | listNodes
  | getConnection (id : String)
  | listConnections
  | countActiveConnectionsForAccount (accountID : String)
  | getHysteria2NodeConfig (nodeID : String)
  | listHysteria2ConfigSources (nodeID : String)
  | getHysteriaFileSetManifest (id : String)
  | getAmneziaWGNodeConfig (nodeID : String)
  | listAmneziaWGConnectionMaterials (nodeID : String)
  | getAmneziaAPINodeConfig (nodeID : String)
  | getAmneziaAPIConnectionRef (connectionID : String)
  | listPolicyTags
  | listAccountPolicyTags (accountID : String)
  | selectFinalizable (nodeID accountID : String) (applied : ℤ)
  | insertBundle (bundle : ConnectionBundle)
  | setDesiredStatus (id : String) (status : ConnectionStatus) (now : ℤ)
  | updateAccountStatus (id : String) (status : AccountStatus)
  | softDeleteNode (id : String) (now : ℤ)
  | finalize (candidates : List Connection) (applied : ℤ)
  | updateHysteria2NodeConfig (config : Hysteria2NodeConfig) (expected : ℤ)
      (configs : List IssuedConfig)
  | updateAmneziaWGNodeConfig (config : AmneziaWGNodeConfig) (expected : ℤ)
      (configs : List IssuedConfig)
  /-- The methods of the client of an Amnezia API. -/
  | providerCreate (config : AmneziaAPINodeConfig) (connection : Connection)
  | providerSetStatus (config : AmneziaAPINodeConfig) (ref : RemoteRef) (status : ConnectionStatus)
  | providerDelete (config : AmneziaAPINodeConfig) (ref : RemoteRef)
  | enqueueAuthRefresh (payload : AuthRefreshPayload)
  /-- The response is written. -/
  | respond

/-- How a call turns out. A list query that fails gives the rows that were read until then. -/
structure StoreOutcome where
  elapsed : ℕ
  fault : Fault
  rows : ℕ
  text : String
  key : String
  remote : RemoteConnection
  deriving DecidableEq

structure StoreWorld where
  db : Database
  clock : ℤ
  deriving DecidableEq

variable {row : Connection} {f : StoreOutcome} {w : StoreWorld} {c : StoreCall}

namespace StoreCall

/-- The answer to a call. -/
@[reducible] def Reply : StoreCall → Type
  | .now => ℤ
  | .newID => String
  | .newPassword | .generateFromPassword _ | .generatePresharedKey => Except String String
  | .generateKeyPair => Except String (String × String)
  | .getAccount _ => Except String Account
  | .getNode _ => Except String Node
  | .listNodes => List Node
  | .getConnection _ => Except String Connection
  | .listConnections => List Connection
  | .countActiveConnectionsForAccount _ => Except String ℕ
  | .getHysteria2NodeConfig _ => Except String Hysteria2NodeConfig
  | .listHysteria2ConfigSources _ => Except String (List Hysteria2ConfigSource)
  | .getHysteriaFileSetManifest _ => Except String String
  | .getAmneziaWGNodeConfig _ => Except String AmneziaWGNodeConfig
  | .listAmneziaWGConnectionMaterials _ => List AmneziaWGMaterialRow
  | .getAmneziaAPINodeConfig _ => Except String AmneziaAPINodeConfig
  | .getAmneziaAPIConnectionRef _ => Except String AmneziaAPIConnectionRef
  | .listPolicyTags => List PolicyTag
  | .listAccountPolicyTags _ => List AccountPolicyTag
  | .selectFinalizable .. => Except String (List Connection)
  | .insertBundle _ | .setDesiredStatus .. | .updateAccountStatus .. | .softDeleteNode ..
  | .finalize .. | .updateHysteria2NodeConfig .. | .updateAmneziaWGNodeConfig .. =>
    Except String Unit
  | .providerCreate .. => Except String RemoteConnection
  | .providerSetStatus .. | .providerDelete .. | .enqueueAuthRefresh _ => Except String Unit
  | .respond => Unit

/-- The transaction of a call that writes. -/
def tx : StoreCall → Option (Database → Except String Database)
  | .insertBundle bundle => some (Database.insertBundle bundle)
  | .setDesiredStatus id status t => some (Database.setDesiredStatus id status t)
  | .updateAccountStatus id status => some (Database.updateAccountStatus id status)
  | .softDeleteNode id t => some (Database.softDeleteNode id t)
  | .finalize candidates applied => some (Database.finalize candidates applied)
  | .updateHysteria2NodeConfig config expected configs =>
    some (Database.updateHysteria2NodeConfig config expected configs)
  | .updateAmneziaWGNodeConfig config expected configs =>
    some (Database.updateAmneziaWGNodeConfig config expected configs)
  | _ => none

def result (x : Except String Database) : Except String Unit := x.map fun _ => ()

/-- The answer of a call that does not fail, before it changes anything. -/
def answer (now : ℤ) (f : StoreOutcome) (db : Database) : (c : StoreCall) → c.Reply
  | .now => now
  | .newID => f.text
  | .newPassword | .generateFromPassword _ | .generatePresharedKey => .ok f.text
  | .generateKeyPair => .ok (f.text, f.key)
  | .getAccount id => db.getAccount id
  | .getNode id => db.getNode id
  | .listNodes => db.nodes
  | .getConnection id => db.getConnection id
  | .listConnections => db.connections
  | .countActiveConnectionsForAccount id => .ok (db.countActiveConnectionsForAccount id)
  | .getHysteria2NodeConfig id => db.getHysteria2NodeConfig id
  | .listHysteria2ConfigSources id => .ok (db.listHysteria2ConfigSources id)
  | .getHysteriaFileSetManifest id => db.getHysteriaFileSetManifest id
  | .getAmneziaWGNodeConfig id => db.getAmneziaWGNodeConfig id
  | .listAmneziaWGConnectionMaterials id => db.listAmneziaWGConnectionMaterials id
  | .getAmneziaAPINodeConfig id => db.getAmneziaAPINodeConfig id
  | .getAmneziaAPIConnectionRef id => db.getAmneziaAPIConnectionRef id
  | .listPolicyTags => db.policyTags
  | .listAccountPolicyTags id => db.listAccountPolicyTags id
  | .selectFinalizable nodeID accountID applied =>
    .ok (db.selectFinalizable nodeID accountID applied)
  | .insertBundle bundle => result (db.insertBundle bundle)
  | .setDesiredStatus id status t => result (db.setDesiredStatus id status t)
  | .updateAccountStatus id status => result (db.updateAccountStatus id status)
  | .softDeleteNode id t => result (db.softDeleteNode id t)
  | .finalize candidates applied => result (db.finalize candidates applied)
  | .updateHysteria2NodeConfig config expected configs =>
    result (db.updateHysteria2NodeConfig config expected configs)
  | .updateAmneziaWGNodeConfig config expected configs =>
    result (db.updateAmneziaWGNodeConfig config expected configs)
  | .providerCreate .. => .ok f.remote
  | .providerSetStatus .. | .providerDelete .. | .enqueueAuthRefresh _ => .ok ()
  | .respond => ()

def errDriver : String := "driver: bad connection"

/-- The answer of a call that fails, if it can fail. -/
def failed (f : StoreOutcome) (db : Database) : (c : StoreCall) → Option c.Reply
  | .now | .newID | .respond => none
  | .listNodes => some (db.nodes.take f.rows)
  | .listConnections => some (db.connections.take f.rows)
  | .listAmneziaWGConnectionMaterials id =>
    some ((db.listAmneziaWGConnectionMaterials id).take f.rows)
  | .listPolicyTags => some (db.policyTags.take f.rows)
  | .listAccountPolicyTags id => some ((db.listAccountPolicyTags id).take f.rows)
  | .newPassword | .generateFromPassword _ | .generatePresharedKey | .generateKeyPair
  | .getHysteriaFileSetManifest _ => some (.error errDriver)
  | .getAccount _ | .getNode _ | .getConnection _ | .countActiveConnectionsForAccount _
  | .getHysteria2NodeConfig _ | .listHysteria2ConfigSources _ | .getAmneziaWGNodeConfig _
  | .getAmneziaAPINodeConfig _ | .getAmneziaAPIConnectionRef _ | .selectFinalizable .. =>
    some (.error errDriver)
  | .insertBundle _ | .setDesiredStatus .. | .updateAccountStatus .. | .softDeleteNode ..
  | .finalize .. | .updateHysteria2NodeConfig .. | .updateAmneziaWGNodeConfig .. =>
    some (.error errDriver)
  | .providerCreate .. | .providerSetStatus .. | .providerDelete .. | .enqueueAuthRefresh _ =>
    some (.error errDriver)

/-- The tables after a call that is not lost: a transaction that fails is rolled back. -/
def after (c : StoreCall) (db : Database) : Database :=
  match c.tx with
  | none => db
  | some tx => (tx db).toOption.getD db

/-- A call that fails early has changed nothing; one that fails late has been carried out, and only
its answer is lost. -/
def perform (c : StoreCall) (f : StoreOutcome) (w : StoreWorld) : c.Reply × StoreWorld :=
  let now := w.clock + f.elapsed
  let answer := c.answer now f w.db
  (if f.fault = .none then answer else (c.failed f w.db).getD answer,
    ⟨if f.fault = .early then w.db else c.after w.db, now⟩)

theorem perform_db (c : StoreCall) (f : StoreOutcome) (w : StoreWorld) :
    (c.perform f w).2.db = w.db ∨
      ∃ tx, c.tx = some tx ∧ tx w.db = .ok (c.perform f w).2.db := by
  change ite _ _ _ = _ ∨ ∃ tx, c.tx = some tx ∧ tx w.db = .ok (ite _ _ _)
  split
  · exact .inl rfl
  · rw [after]
    cases htx : c.tx with
    | none => exact .inl rfl
    | some tx =>
      change (tx w.db).toOption.getD w.db = w.db ∨
        ∃ tx', some tx = some tx' ∧ tx' w.db = .ok ((tx w.db).toOption.getD w.db)
      cases hx : tx w.db with
      | error e => exact .inl rfl
      | ok db' => exact .inr ⟨tx, rfl, hx⟩

theorem perform_db_of_tx_eq_none (h : c.tx = none) (f : StoreOutcome) (w : StoreWorld) :
    (c.perform f w).2.db = w.db := by
  rcases c.perform_db f w with he | ⟨tx, htx, -⟩
  · exact he
  · rw [h] at htx
    cases htx

/-- Where a connection comes from after a call: it was there, and its desired status was set or is
the same, or it is a new one. -/
theorem mem_perform_connections (h : row ∈ (c.perform f w).2.db.connections) :
    (∃ row₀ ∈ w.db.connections, row₀.id = row.id ∧ (row.desiredStatus = row₀.desiredStatus ∨
      (∃ t, c = .setDesiredStatus row₀.id row.desiredStatus t) ∨
      ∃ t, c = .softDeleteNode row₀.nodeID t ∧ row.desiredStatus = .deleted)) ∨
    ∃ bundle, c = .insertBundle bundle ∧ row = bundle.connection ∧
      ∀ row₀ ∈ w.db.connections, row₀.id ≠ row.id := by
  rcases c.perform_db f w with he | ⟨tx, htx, hdb⟩
  · rw [he] at h
    exact .inl ⟨row, h, rfl, .inl rfl⟩
  generalize (c.perform f w).2.db = db' at hdb h
  cases c <;> simp only [StoreCall.tx, Option.some.injEq, reduceCtorEq] at htx <;> subst htx
  case insertBundle bundle =>
    have hins := Database.inserted_of_insertBundle hdb
    rw [hins.connections] at h
    rcases List.mem_append.1 h with h | h
    · exact .inl ⟨row, h, rfl, .inl rfl⟩
    · rw [List.mem_singleton.1 h]
      exact .inr ⟨bundle, rfl, rfl, hins.fresh⟩
  case setDesiredStatus id status t =>
    rw [Database.setDesiredStatus_ok hdb] at h
    obtain ⟨row₀, h₀, rfl⟩ := Table.mem_update.1 h
    left
    by_cases hid : (row₀.id == id) = true
    · rw [if_pos hid]
      exact ⟨row₀, h₀, rfl, .inr (.inl ⟨t, by rw [eq_of_beq hid]⟩)⟩
    · rw [if_neg hid]
      exact ⟨row₀, h₀, rfl, .inl rfl⟩
  case updateAccountStatus =>
    rw [← Except.ok.inj hdb] at h
    exact .inl ⟨row, h, rfl, .inl rfl⟩
  case softDeleteNode nodeID t =>
    rw [← Except.ok.inj hdb] at h
    obtain ⟨row₀, h₀, rfl⟩ := Table.mem_update.1 h
    left
    by_cases hnode : (row₀.nodeID == nodeID && row₀.desiredStatus != .deleted) = true
    · rw [if_pos hnode]
      have hid := eq_of_beq (Bool.and_eq_true_iff.1 hnode).1
      exact ⟨row₀, h₀, rfl, .inr (.inr ⟨t, by rw [hid], rfl⟩)⟩
    · rw [if_neg hnode]
      exact ⟨row₀, h₀, rfl, .inl rfl⟩
  case finalize candidates applied =>
    obtain ⟨g, hg, hsame⟩ := (Database.finalized_of_finalize hdb).connections
    rw [hg] at h
    obtain ⟨row₀, h₀, rfl⟩ := List.mem_map.1 h
    rw [hsame]
    exact .inl ⟨row₀, h₀, rfl, .inl rfl⟩
  case updateHysteria2NodeConfig =>
    obtain ⟨-, -, rfl⟩ := Database.updateHysteria2NodeConfig_ok hdb
    exact .inl ⟨row, h, rfl, .inl rfl⟩
  case updateAmneziaWGNodeConfig =>
    obtain ⟨-, -, rfl⟩ := Database.updateAmneziaWGNodeConfig_ok hdb
    obtain ⟨row₀, h₀, rfl⟩ := Table.mem_update.1 h
    left
    refine ⟨row₀, h₀, ?_, .inl ?_⟩ <;> split <;> rfl

/-! ### Answers of the queries -/

theorem getConnection_ok {id : String}
    (h : ((StoreCall.getConnection id).perform f w).1 = .ok row) :
    row ∈ w.db.connections ∧ row.id = id := by
  change ite _ _ _ = _ at h
  split at h
  · have hfind := orNotFound_eq_ok.1 h
    exact ⟨List.mem_of_find?_eq_some hfind, by simpa using List.find?_some hfind⟩
  · cases h

theorem listConnections_subset (f : StoreOutcome) (w : StoreWorld) :
    (StoreCall.listConnections.perform f w).1 ⊆ w.db.connections := by
  change (ite _ _ _ : List Connection) ⊆ _
  split
  · exact List.Subset.refl _
  · exact List.take_subset _ _

end StoreCall

/-- The programs of the services. -/
abbrev StoreM (α : Type) : Type := Attempt StoreCall StoreCall.Reply α

end LazGate
