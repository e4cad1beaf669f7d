import Mathlib

/-!
# The stored data of the control plane

The statuses and records of `internal/server/model` that the modelled queries read, and how a
query or a statement can end.
-/

namespace LazGate

/-! ## Queries and statements -/

def errNotFound : String := "not found"

def errUnique : String := "UNIQUE constraint failed"

/-- The answer of a query for one row. -/
def orNotFound {α : Type} : Option α → Except String α
  | none => .error errNotFound
  | some a => .ok a

theorem orNotFound_eq_ok {α : Type} {x : Option α} {a : α} : orNotFound x = .ok a ↔ x = some a := by
  cases x <;> simp [orNotFound]

/-- How a call fails: not at all, before it has changed anything, or after that. -/
inductive Fault where
  | none
  | early
  | late
  deriving DecidableEq

/-! ## Statuses -/

/-- `model.Status`; `unset` is the empty text. -/
inductive Status where
  | unset
  | active
  | absent
  | held
  | deleted
  | error
  deriving DecidableEq

inductive AccountStatus where
  | active
  | held
  | deleted
  deriving DecidableEq

/-- The status of a connection; `unset` is the empty text. -/
inductive ConnectionStatus where
  | unset
  | active
  | absent
  | held
  | deleted
  | error
  deriving DecidableEq

def ConnectionStatus.text : ConnectionStatus → String
  | .unset => ""
  | .active => "active"
  | .absent => "absent"
  | .held => "held"
  | .deleted => "deleted"
  | .error => "error"

/-! ## Records -/

structure Account where
  id : String
  username : String
  status : AccountStatus
  deriving DecidableEq

inductive NodeType where
  | amneziaAPI
  | nativeHy2
  | nativeAmneziaWG
  /-- Any other text. -/
  | unsupported (text : String)
  deriving DecidableEq

def NodeType.text : NodeType → String
  | .amneziaAPI => "amnezia_api"
  | .nativeHy2 => "native_hysteria"
  | .nativeAmneziaWG => "native_amneziawg"
  | .unsupported text => text

/-- `model.Protocol`; `unset` is the empty text. -/
inductive Protocol where
  | unset
  | hysteria2
  | amneziaWG
  deriving DecidableEq

structure Node where
  id : String
  name : String
  type : NodeType
  region : String
  status : Status
  deriving DecidableEq

structure Connection where
  id : String
  accountID : String
  nodeID : String
  name : String
  protocol : Protocol
  desiredStatus : ConnectionStatus
  appliedStatus : ConnectionStatus
  desiredVersionMS : ℤ
  appliedVersionMS : ℤ
  deriving DecidableEq

structure Hysteria2ConnectionMaterial where
  connectionID : String
  password : String
  passwordHash : String
  deriving DecidableEq

structure AmneziaWGConnectionMaterial where
  connectionID : String
  clientPublicKey : String
  presharedKey : String
  assignedIPv4 : String
  deriving DecidableEq

structure AmneziaWGMaterialRow extends AmneziaWGConnectionMaterial where
  nodeID : String
  clientPrivateKey : String
  deriving DecidableEq

structure AmneziaAPIConnectionRef where
  connectionID : String
  remoteID : String
  remoteName : String
  deriving DecidableEq

inductive ConfigKind where
  | hy2URI
  | amneziaVPN
  | amneziaConf
  | singBoxJSON
  /-- Any other text; the empty one is `other ""`. -/
  | other (text : String)
  deriving DecidableEq

structure IssuedConfig where
  id : String
  connectionID : String
  kind : ConfigKind
  slug : String
  name : String
  client : String
  contentType : String
  config : String
  status : Status
  deriving DecidableEq

structure ConnectionBundle where
  expectedNodeConfigVersionMS : ℤ
  connection : Connection
  hysteria2Material : Option Hysteria2ConnectionMaterial
  amneziaWGMaterial : Option AmneziaWGMaterialRow
  amneziaAPIRef : Option AmneziaAPIConnectionRef
  configs : List IssuedConfig
  deriving DecidableEq

structure Hysteria2NodeConfig where
  nodeID : String
  endpointHost : String
  endpointPort : ℤ
  obfsEnabled : Bool
  obfsType : String
  obfsPassword : String
  masqueradeURL : String
  settingsJSON : String
  masqueradeFileSetID : String
  configVersionMS : ℤ
  deriving DecidableEq

/-- What a settings change needs to know of a connection. -/
structure Hysteria2ConfigSource where
  connectionID : String
  name : String
  password : String
  deriving DecidableEq

structure AmneziaWGNodeConfig where
  nodeID : String
  endpointHost : String
  endpointPort : ℤ
  listenPort : ℤ
  serverIPv4 : String
  clientIPv4CIDR : String
  firstClientIPv4 : String
  lastClientIPv4 : String
  dns : String
  mtu : ℤ
  persistentKeepalive : ℤ
  clientRouteAllowedIPs : String
  serverPrivateKey : String
  serverPublicKey : String
  jc : ℤ
  jmin : ℤ
  jmax : ℤ
  s1 : ℤ
  s2 : ℤ
  s3 : ℤ
  s4 : ℤ
  h1 : String
  h2 : String
  h3 : String
  h4 : String
  i1 : String
  i2 : String
  i3 : String
  i4 : String
  i5 : String
  headerProtectionKey : String
  contentPaddingAddition : String
  timingsJSON : String
  randomTrailers : Bool
  disableCookies : Bool
  configVersionMS : ℤ
  appliedConfigVersionMS : ℤ
  configErrorID : String
  clientRouteMode : String
  clientExcludedRoutes : String
  deriving DecidableEq

structure AmneziaAPINodeConfig where
  nodeID : String
  baseURL : String
  apiKey : String
  deriving DecidableEq

structure PolicyTag where
  id : String
  allowedNodeIDs : List String
  connectionLimit : ℤ
  status : Status
  deriving DecidableEq

structure AccountPolicyTag where
  accountID : String
  tagID : String
  deriving DecidableEq

/-! ## Sync queries -/

/-- What the AmneziaWG adapter reads of the node configuration, the connection and its material. -/
structure AmneziaWGSyncMaterial where
  persistentKeepalive : ℤ
  connectionID : String
  desiredStatus : ConnectionStatus
  material : AmneziaWGConnectionMaterial
  deriving DecidableEq

/-- A row of the sync query of a node: a connection with the status of its account and its
material. -/
structure SyncRow (M : Type) where
  id : String
  desiredStatus : ConnectionStatus
  desiredVersionMS : ℤ
  accountStatus : AccountStatus
  material : M
  deriving DecidableEq

end LazGate
