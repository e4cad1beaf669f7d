import LazGate.Net
import LazGate.Agent.CredentialSync

/-!
# The two credential runtimes

`internal/agent/hysteria2/sync` keeps credentials in the identity table only and kicks clients that
lose theirs. `internal/agent/amneziawg/sync` keeps a peer for each credential, in the durable
snapshot and in the running interface, through the reconciler and the tools facade.
-/

namespace LazGate

/-! ## Hysteria -/

structure HysteriaCredential where
  passwordHash : String
  deriving DecidableEq

def hysteriaMeta (passwordHash : String) : String :=
  String.ofList ('\x7b' :: jsonText "password_hash" ++ ':' :: jsonText passwordHash ++ ['\x7d'])

def toAuthUser (change : CredentialChange HysteriaCredential) : AuthUser :=
  ⟨change.connectionID, change.connectionID, hysteriaMeta change.payload.passwordHash⟩

def kickCredential (kicker : Bool) (connectionID : String) : Sync HysteriaCredential Unit :=
  if !kicker || connectionID = "" then pure () else (AgentCall.kick connectionID).attempt

/-- `kicker` says whether the agent was given one. -/
def hysteriaRuntime (kicker : Bool) : CredentialRuntime HysteriaCredential where
  applyCredential change := pure (toAuthUser change)
  removeCredential user :=
    if user.nativeAuthID = "" then pure () else kickCredential kicker user.nativeAuthID
  reconcileCredentials _ := pure ()

/-- The sync of a Hysteria agent, whose statistics client is its kicker. -/
def hysteriaSync : CredentialSync HysteriaCredential := ⟨databaseStore, hysteriaRuntime true⟩

theorem hysteria_removeCredential (u : AuthUser) : hysteriaSync.runtime.removeCredential u =
    if u.nativeAuthID = "" then pure () else (AgentCall.kick u.nativeAuthID).attempt := by
  by_cases h : u.nativeAuthID = "" <;> simp [hysteriaSync, hysteriaRuntime, kickCredential, h]

/-! ## AmneziaWG -/

structure AmneziaCredential where
  publicKey : String
  presharedKey : String
  assignedIPv4 : String
  desiredStatus : String
  persistentKeepalive : ℕ
  deriving DecidableEq

def sentinelAllowedIP : String := "0.0.0.0/32"

def isActive (status : String) : Bool := equalFold (trimSpace status) "active"

def validateAssignedIPv4 (value : String) : Except String Unit :=
  match (Net.parseIP (trimSpace value)).bind Net.Addr.to4 with
  | some _ => .ok ()
  | none => .error "value must be an IPv4 address"

/-- The entries of a list of networks that `validateAllowedIPv4List` goes through. -/
def allowedIPEntries (value : String) : List String :=
  (value.toList.splitOn ',').map fun part => trimSpace (String.ofList part)

def validateAllowedIPv4List (value : String) : Except String Unit :=
  (allowedIPEntries value).forM fun part =>
    if part = "" then .error "allowed IP entry must not be empty"
    else
      match (Net.parseCIDR part).bind (·.addr.to4) with
      | some _ => .ok ()
      | none => .error "allowed IP must be IPv4 CIDR"

def validateAllowedIPv4CIDRs (values : List String) : Except String (List String) :=
  values.mapM fun value =>
    let part := trimSpace value
    if part = "" then .error "empty allowed ip"
    else
      match Net.parseCIDR part with
      | none => .error ("invalid CIDR address: " ++ part)
      | some network =>
        if network.addr.to4 = none then .error "allowed ip must be IPv4 CIDR" else .ok part

/-- The checks of `setPeerPlan`. -/
def setPeerPlan (publicKey : String) (opts : PeerOptions) : Except String Unit := do
  if trimSpace publicKey = "" then throw "public key is required"
  match opts.allowedIPs with
  | none | some [] => return
  | some allowedIPs =>
    match validateAllowedIPv4CIDRs allowedIPs with
    | .ok _ => return
    | .error e => throw ("invalid allowed ips: " ++ e)

variable {P : Type}

namespace Facade

/-- `SetPeer`: the durable snapshot first, then the interface, then its boot configuration. -/
def setPeer (publicKey : String) (opts : PeerOptions) : Sync P Unit := do
  ofExcept (setPeerPlan publicKey opts)
  (AgentCall.persistPeer publicKey opts false).attempt
  (AgentCall.awgSetPeer publicKey).attempt
  AgentCall.saveHostConfig.attempt

def removePeer (publicKey : String) : Sync P Unit := do
  if trimSpace publicKey = "" then throw "public key is required"
  (AgentCall.persistPeer publicKey {} true).attempt
  (AgentCall.awgRemovePeer publicKey).attempt
  AgentCall.saveHostConfig.attempt

end Facade

namespace Reconciler

/-- The checks of `UpsertPeer`, and the networks the peer gets. -/
def allowedIP (credential : AmneziaCredential) : Except String String := do
  if trimSpace credential.publicKey = "" then throw "peer public key is required"
  if isActive credential.desiredStatus then
    validateAssignedIPv4 credential.assignedIPv4
    let allowed := trimSpace credential.assignedIPv4 ++ "/32"
    validateAllowedIPv4List allowed
    return allowed
  return sentinelAllowedIP

def upsertPeer (credential : AmneziaCredential) : Sync P Unit := do
  let allowed ← ofExcept (allowedIP credential)
  (Facade.setPeer (trimSpace credential.publicKey)
    { allowedIPs := some [allowed]
      presharedKey := trimSpace credential.presharedKey
      persistentKeepalive := credential.persistentKeepalive }).wrap fun e =>
        "set peer: " ++ sanitize e

def removePeer (publicKey : String) : Sync P Unit := do
  let publicKey := trimSpace publicKey
  if publicKey = "" then throw "peer public key is required"
  (Facade.removePeer publicKey).wrap fun e => "remove peer: " ++ sanitize e

def pruneRuntimePeers (desired : Std.ExtTreeSet String) : Sync P Unit := do
  let dump ← AgentCall.showDump.attempt
  (Std.ExtTreeSet.ofList dump).toList.forM fun publicKey =>
    if desired.contains publicKey then pure () else Facade.removePeer publicKey

end Reconciler

def nativeKeys (keep : Std.ExtTreeMap String AuthUser) : Std.ExtTreeSet String :=
  Std.ExtTreeSet.ofList ((users keep).map (·.nativeAuthID))

/-- The store of an AmneziaWG agent: a row goes only after its peer. -/
def persistentAuthStore : AuthStore P :=
  { databaseStore with
    deleteAuthUser := fun id => do
      let users ← AgentCall.listAuthUsers.attempt
      users.forM fun user =>
        if user.connectionID = id then Reconciler.removePeer user.nativeAuthID else pure ()
      (AgentCall.deleteAuthUser id).attempt
    applyFullAuthSnapshot := fun keep cursor started => do
      let users ← AgentCall.listAuthUsers.attempt
      users.forM fun user =>
        if keep.contains user.connectionID then pure ()
        else Reconciler.removePeer user.nativeAuthID
      (AgentCall.prunePeers (nativeKeys keep)).attempt
      Reconciler.pruneRuntimePeers (nativeKeys keep)
      (AgentCall.applyFullAuthSnapshot (LazGate.users keep) cursor started).attempt }

def amneziaRuntime : CredentialRuntime AmneziaCredential where
  applyCredential change := do
    Reconciler.upsertPeer change.payload
    return ⟨change.connectionID, change.payload.publicKey, "\x7b\x7d"⟩
  removeCredential user := Reconciler.removePeer user.nativeAuthID
  reconcileCredentials keep := Reconciler.pruneRuntimePeers (nativeKeys keep)

def amneziaSync : CredentialSync AmneziaCredential := ⟨persistentAuthStore, amneziaRuntime⟩

theorem amnezia_removeCredential (u : AuthUser) :
    amneziaSync.runtime.removeCredential u = Reconciler.removePeer u.nativeAuthID := by
  simp only [amneziaSync, amneziaRuntime]

/-! ## The calls they make -/

variable {opts : PeerOptions}

section Only

open Prog

variable {K : SyncCall P → Prop}

/-- `K` allows the calls that take peers away. -/
structure AllowsRemoval (K : SyncCall P → Prop) : Prop where
  persist : ∀ key opts, K (.agent (.persistPeer key opts true))
  remove : ∀ key, K (.agent (.awgRemovePeer key))
  save : K (.agent .saveHostConfig)
  dump : K (.agent .showDump)
  prune : ∀ keep, K (.agent (.prunePeers keep))

theorem setPeerPlan_eq_ok {key : String} (h : setPeerPlan key opts = .ok ()) :
    trimSpace key ≠ "" := by
  intro hk
  rw [setPeerPlan, if_pos hk] at h
  cases h

theorem Facade.setPeer_only {key : String} (hpersist : K (.agent (.persistPeer key opts false)))
    (hset : trimSpace key ≠ "" → K (.agent (.awgSetPeer key)))
    (hsave : K (.agent .saveHostConfig)) : Only K (Facade.setPeer key opts).run := by
  refine Only.check fun _ hp => Only.andThen (Only.ask hpersist) fun _ => ?_
  exact Only.andThen (Only.ask (hset (setPeerPlan_eq_ok hp))) fun _ => Only.ask hsave

theorem Facade.removePeer_only (A : AllowsRemoval K) (key : String) :
    Only K (Facade.removePeer key).run := by
  unfold Facade.removePeer
  split
  · exact Only.fail
  · exact Only.andThen (Only.ask (A.persist key {})) fun _ =>
      Only.andThen (Only.ask (A.remove key)) fun _ => Only.ask A.save

theorem Reconciler.removePeer_only (A : AllowsRemoval K) (key : String) :
    Only K (Reconciler.removePeer key).run := by
  unfold Reconciler.removePeer
  by_cases h : trimSpace key = ""
  · simp only [h, if_true]
    exact Only.fail
  · simp only [h, if_false]
    exact Only.wrap (Facade.removePeer_only A _)

theorem Reconciler.pruneRuntimePeers_only (A : AllowsRemoval K) (desired : Std.ExtTreeSet String) :
    Only K (Reconciler.pruneRuntimePeers desired).run := by
  refine Only.andThen (Only.ask A.dump) fun dump => Only.forM (fun key => ?_) _
  split
  · exact Only.ok
  · exact Facade.removePeer_only A key

theorem Reconciler.upsertPeer_only {credential : AmneziaCredential}
    (hpersist : ∀ key opts, K (.agent (.persistPeer key opts false)))
    (hset : ∀ key, trimSpace key ≠ "" → K (.agent (.awgSetPeer key)))
    (hsave : K (.agent .saveHostConfig)) : Only K (Reconciler.upsertPeer credential).run := by
  refine Only.check fun allowed _ => Only.wrap ?_
  exact Facade.setPeer_only (hpersist _ _) (hset _) hsave

end Only

/-! ## What a sync is made of -/

section Shape

open Prog

/-- A store and a runtime as they are seen from the identity table: each of their operations is at
most one call on the tables of the agent, after calls that satisfy `K`. `user` is the row that an
upsert writes. -/
structure CredentialSync.Shape (s : CredentialSync P) (user : CredentialChange P → AuthUser)
    (K : SyncCall P → Prop) : Prop where
  getState : ∀ key, s.store.getState key = (AgentCall.getState key).attempt
  setState : ∀ key v, s.store.setState key v = (AgentCall.setState key v).attempt
  list : s.store.listAuthUsers = AgentCall.listAuthUsers.attempt
  upsert : ∀ u, s.store.upsertAuthUser u = (AgentCall.upsertAuthUser u).attempt
  delete : ∀ id, ∃ pre : Sync P Unit, Only K pre.run ∧
    s.store.deleteAuthUser id = pre >>= fun _ => (AgentCall.deleteAuthUser id).attempt
  snapshot : ∀ keep key t, ∃ pre : Sync P Unit, Only K pre.run ∧
    s.store.applyFullAuthSnapshot keep key t =
      pre >>= fun _ => (AgentCall.applyFullAuthSnapshot (users keep) key t).attempt
  apply : ∀ c, ∃ pre : Sync P Unit, Only K pre.run ∧
    s.runtime.applyCredential c = pre >>= fun _ => pure (user c)
  remove : ∀ u, Only K (s.runtime.removeCredential u).run
  reconcile : ∀ keep, Only K (s.runtime.reconcileCredentials keep).run

theorem hysteria_shape {K : SyncCall HysteriaCredential → Prop}
    (hkick : ∀ id, K (.agent (.kick id))) : hysteriaSync.Shape toAuthUser K where
  getState _ := rfl
  setState _ _ := rfl
  list := rfl
  upsert _ := rfl
  delete _ := ⟨pure (), Only.ok, rfl⟩
  snapshot _ _ _ := ⟨pure (), Only.ok, rfl⟩
  apply _ := ⟨pure (), Only.ok, rfl⟩
  remove u := by
    rw [hysteria_removeCredential]
    split
    · exact Only.ok
    · exact Only.ask (hkick _)
  reconcile _ := Only.ok

def peerUser (change : CredentialChange AmneziaCredential) : AuthUser :=
  ⟨change.connectionID, change.payload.publicKey, "\x7b\x7d"⟩

theorem amnezia_shape {K : SyncCall AmneziaCredential → Prop} (A : AllowsRemoval K)
    (hlist : K (.agent .listAuthUsers))
    (hpersist : ∀ key opts, K (.agent (.persistPeer key opts false)))
    (hset : ∀ key, trimSpace key ≠ "" → K (.agent (.awgSetPeer key))) :
    amneziaSync.Shape peerUser K where
  getState _ := rfl
  setState _ _ := rfl
  list := rfl
  upsert _ := rfl
  delete id := by
    refine ⟨do
      let users ← AgentCall.listAuthUsers.attempt
      users.forM fun user =>
        if user.connectionID = id then Reconciler.removePeer user.nativeAuthID else pure (), ?_, ?_⟩
    · refine Only.andThen (Only.ask hlist) fun l => Only.forM (fun u => ?_) l
      split
      · exact Reconciler.removePeer_only A _
      · exact Only.ok
    · simp only [amneziaSync, persistentAuthStore, bind_assoc]
  snapshot keep key t := by
    refine ⟨do
      let users ← AgentCall.listAuthUsers.attempt
      users.forM fun user =>
        if keep.contains user.connectionID then pure ()
        else Reconciler.removePeer user.nativeAuthID
      (AgentCall.prunePeers (nativeKeys keep)).attempt
      Reconciler.pruneRuntimePeers (nativeKeys keep), ?_, ?_⟩
    · refine Only.andThen (Only.ask hlist) fun l =>
        Only.andThen (Only.forM (fun u => ?_) l) fun _ =>
          Only.andThen (Only.ask (A.prune _)) fun _ => Reconciler.pruneRuntimePeers_only A _
      split
      · exact Only.ok
      · exact Reconciler.removePeer_only A _
    · simp only [amneziaSync, persistentAuthStore, bind_assoc]
  apply c := by
    refine ⟨Reconciler.upsertPeer c.payload, ?_, rfl⟩
    exact Reconciler.upsertPeer_only hpersist hset A.save
  remove u := by
    rw [amnezia_removeCredential]
    exact Reconciler.removePeer_only A u.nativeAuthID
  reconcile keep := Reconciler.pruneRuntimePeers_only A (nativeKeys keep)

end Shape

end LazGate
