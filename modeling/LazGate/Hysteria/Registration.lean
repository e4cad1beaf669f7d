import LazGate.Hysteria.Install

/-!
# Registering an installed server

`registerNode` makes two store calls, each with a commit of its own: one inserts the node, its
instance and its agent installation, the other the configuration. The worker delivers a step again
when the step, or the report of its outcome, did not come to its end.
-/

namespace LazGate.Provisioning

open Hy2config

structure NodeRow where
  id : String
  name : String
  region : String

structure InstanceRow where
  id : String
  nodeID : String
  host : String
  sshPort : ℤ
  sshKey : String

structure InstallationRow where
  id : String
  nodeInstanceID : String
  agentType : String
  active : Bool
  fingerprint : String
  serial : String

/-- The tables that the step writes, and the ids of the file sets. -/
structure Registry where
  nodes : List NodeRow
  instances : List InstanceRow
  installations : List InstallationRow
  configs : List NodeSettings
  fileSets : List String

/-- The install state with what the step reads. Its ids are drawn when the state is made. -/
structure RegistrationState extends InstallState where
  nodeInstanceID : String
  installationID : String
  drawn : nodeID ≠ "" ∧ nodeInstanceID ≠ "" ∧ installationID ≠ ""
  nodeName : String
  region : String
  sshHost : String
  sshPort : ℤ
  privateKey : String
  agentType : String
  nodeCertPEM : String

/-- The library, with `parseMTLSCertificate` and the fingerprint and the serial number of the
certificate. -/
structure RegistrationLibrary extends InstallLibrary where
  parseCertificate : String → Option (String × String)

/-- `CreateNodeWithInstanceAndAgentInstallation`: the keys and the unique columns of the three
tables refuse rows that are there, and so does the index on the active installations of an
instance. -/
def Registry.createNode (r : Registry) (node : NodeRow) (inst : InstanceRow)
    (installation : InstallationRow) : Except String Registry := do
  let inst := { inst with
    nodeID := node.id
    sshPort := if inst.sshPort = 0 then 22 else inst.sshPort }
  let installation := { installation with
    nodeInstanceID := inst.id
    agentType := trimSpace installation.agentType
    fingerprint := (trimSpace installation.fingerprint).toLower }
  ensure (installation.nodeInstanceID ≠ "" ∧ installation.agentType ≠ "" ∧
    installation.fingerprint ≠ "")
    "agent installation instance, type and certificate fingerprint are required"
  ensure (r.nodes.all fun n => n.id ≠ node.id ∧ n.name ≠ node.name) "unique: nodes"
  ensure (r.instances.all (·.id ≠ inst.id)) "unique: node_instances"
  ensure (r.installations.all fun i => i.id ≠ installation.id ∧
    i.fingerprint ≠ installation.fingerprint ∧ ¬ (i.active ∧ installation.active ∧
      i.nodeInstanceID = inst.id ∧ i.agentType = installation.agentType))
    "unique: agent_installations"
  return { r with
    nodes := r.nodes ++ [node]
    instances := r.instances ++ [inst]
    installations := r.installations ++ [installation] }

/-- `CreateHysteria2NodeConfig`. The node is there already. -/
def Registry.createConfig (r : Registry) (v : NodeSettings) : Except String Registry := do
  ensure (r.configs.all (·.nodeID ≠ v.nodeID)) "unique: hysteria2_node_configs"
  ensure (v.endpointPort = 0 ∨ 1 ≤ v.endpointPort ∧ v.endpointPort ≤ 65535) "check: endpoint_port"
  ensure (v.masqueradeFileSetID = "" ∨ v.masqueradeFileSetID ∈ r.fileSets)
    "foreign key: masquerade_fileset_id"
  return { r with configs := (createHysteria2NodeConfig v ⟨⟨none, none⟩, r.configs⟩).nodes }

/-- `registerNode`, stopped after `calls` of its store calls. -/
def registerStep (L : RegistrationLibrary) (s : RegistrationState) (calls : ℕ) (r : Registry) :
    Except String Unit × Registry :=
  match L.parseCertificate s.nodeCertPEM with
  | none => (.error "certificate", r)
  | some (fingerprint, serial) =>
    if calls = 0 then (.error "stopped", r)
    else
      match r.createNode ⟨s.nodeID, s.nodeName, s.region⟩
          ⟨s.nodeInstanceID, s.nodeID, s.sshHost, s.sshPort, s.privateKey⟩
          ⟨s.installationID, s.nodeInstanceID, s.agentType, true, fingerprint, serial⟩ with
      | .error e => (.error e, r)
      | .ok r =>
        match masqueradeAddress L.toInstallLibrary s.input with
        | .error e => (.error e, r)
        | .ok masqueradeURL =>
          if calls = 1 then (.error "stopped", r)
          else
            match r.createConfig
                { nodeID := s.nodeID
                  endpointHost := s.publicDomain
                  endpointPort := s.input.hysteriaPort
                  obfsEnabled := s.input.obfsEnabled
                  obfsType := s.input.obfsType
                  obfsPassword := s.obfsPassword
                  masqueradeURL := masqueradeURL
                  settings := s.input.settings
                  masqueradeFileSetID := s.input.fileSetID } with
            | .error e => (.error e, r)
            | .ok r => (.ok (), r)

/-- What the step needs of its state: what it checks can be read. -/
structure RegistrationState.Sound (L : RegistrationLibrary) (s : RegistrationState)
    (fingerprint serial url : String) : Prop where
  certificate : L.parseCertificate s.nodeCertPEM = some (fingerprint, serial)
  named : trimSpace s.agentType ≠ "" ∧ (trimSpace fingerprint).toLower ≠ ""
  masquerade : masqueradeAddress L.toInstallLibrary s.input = .ok url
  port : s.input.hysteriaPort = 0 ∨ 1 ≤ s.input.hysteriaPort ∧ s.input.hysteriaPort ≤ 65535

/-- Nothing of the state is in the tables but its file set. -/
structure Unregistered (s : RegistrationState) (fingerprint : String) (r : Registry) : Prop where
  nodes : ∀ n ∈ r.nodes, n.id ≠ s.nodeID ∧ n.name ≠ s.nodeName
  instances : ∀ i ∈ r.instances, i.id ≠ s.nodeInstanceID
  installations : ∀ i ∈ r.installations, i.id ≠ s.installationID ∧
    i.fingerprint ≠ (trimSpace fingerprint).toLower ∧ ¬ (i.active ∧
      i.nodeInstanceID = s.nodeInstanceID ∧ i.agentType = trimSpace s.agentType)
  configs : ∀ c ∈ r.configs, c.nodeID ≠ s.nodeID
  fileSet : s.input.fileSetID = "" ∨ s.input.fileSetID ∈ r.fileSets

/-- The state has exactly one row in each of the tables. -/
structure RegisteredOnce (s : RegistrationState) (r : Registry) : Prop where
  node : (r.nodes.filter (·.id = s.nodeID)).length = 1
  inst : (r.instances.filter (·.id = s.nodeInstanceID)).length = 1
  installation : (r.installations.filter (·.id = s.installationID)).length = 1
  config : (r.configs.filter (·.nodeID = s.nodeID)).length = 1

theorem length_filter_append_one {α : Type} {l : List α} {a : α} {p : α → Bool}
    (h : ∀ x ∈ l, p x = false) (ha : p a = true) : ((l ++ [a]).filter p).length = 1 := by
  have hnil : l.filter p = [] := List.filter_eq_nil_iff.2 fun x hx => by simp [h x hx]
  simp [List.filter_append, hnil, ha]

/-- The first store call adds a row to each of its tables, if nothing of the state is there. -/
theorem Registry.createNode_eq_ok {s : RegistrationState} {fingerprint serial : String}
    {r r' : Registry} :
    r.createNode ⟨s.nodeID, s.nodeName, s.region⟩
      ⟨s.nodeInstanceID, s.nodeID, s.sshHost, s.sshPort, s.privateKey⟩
      ⟨s.installationID, s.nodeInstanceID, s.agentType, true, fingerprint, serial⟩ = .ok r' ↔
    (trimSpace s.agentType ≠ "" ∧ (trimSpace fingerprint).toLower ≠ "") ∧
      (∀ n ∈ r.nodes, n.id ≠ s.nodeID ∧ n.name ≠ s.nodeName) ∧
      (∀ i ∈ r.instances, i.id ≠ s.nodeInstanceID) ∧
      (∀ i ∈ r.installations, i.id ≠ s.installationID ∧
        i.fingerprint ≠ (trimSpace fingerprint).toLower ∧ ¬ (i.active ∧
          i.nodeInstanceID = s.nodeInstanceID ∧ i.agentType = trimSpace s.agentType)) ∧
      r' = { r with
        nodes := r.nodes ++ [⟨s.nodeID, s.nodeName, s.region⟩]
        instances := r.instances ++ [⟨s.nodeInstanceID, s.nodeID, s.sshHost,
          if s.sshPort = 0 then 22 else s.sshPort, s.privateKey⟩]
        installations := r.installations ++ [⟨s.installationID, s.nodeInstanceID,
          trimSpace s.agentType, true, (trimSpace fingerprint).toLower, serial⟩] } := by
  simp only [Registry.createNode, Except.bind_eq_ok, ensure_eq_ok, decide_eq_true_eq,
    List.all_eq_true, exists_const, s.drawn.2.1, true_and, ne_eq, not_false_eq_true]
  refine and_congr_right fun _ => and_congr_right fun _ => and_congr_right fun _ =>
    and_congr_right fun _ => ?_
  exact ⟨fun h => (Except.ok.inj h).symm, fun h => congrArg _ h.symm⟩

theorem Registry.createConfig_eq_ok {r r' : Registry} {v : NodeSettings} :
    r.createConfig v = .ok r' ↔ (∀ c ∈ r.configs, c.nodeID ≠ v.nodeID) ∧
      (v.endpointPort = 0 ∨ 1 ≤ v.endpointPort ∧ v.endpointPort ≤ 65535) ∧
      (v.masqueradeFileSetID = "" ∨ v.masqueradeFileSetID ∈ r.fileSets) ∧
      r' = { r with configs := (createHysteria2NodeConfig v ⟨⟨none, none⟩, r.configs⟩).nodes } := by
  simp only [Registry.createConfig, Except.bind_eq_ok, ensure_eq_ok, decide_eq_true_eq,
    List.all_eq_true, exists_const]
  refine and_congr_right fun _ => and_congr_right fun _ => and_congr_right fun _ => ?_
  exact ⟨fun h => (Except.ok.inj h).symm, fun h => congrArg _ h.symm⟩

/-- The step, with a store that works, registers the server just when nothing of it was committed
before and its state is sound. -/
theorem registration_repeats_iff (L : RegistrationLibrary) (s : RegistrationState) (r : Registry)
    (calls : ℕ) :
    ((registerStep L s (calls + 2) r).1 = .ok () ∧
      RegisteredOnce s (registerStep L s (calls + 2) r).2) ↔
    ∃ fingerprint serial url, s.Sound L fingerprint serial url ∧ Unregistered s fingerprint r := by
  unfold registerStep
  constructor
  · rintro ⟨h, -⟩
    split at h
    · cases h
    rename_i fingerprint serial hcertificate
    rw [if_neg (by omega)] at h
    split at h
    · cases h
    rename_i r₁ hnode
    split at h
    · cases h
    rename_i url hurl
    rw [if_neg (by omega)] at h
    split at h
    · cases h
    rename_i r₂ hconfig
    obtain ⟨hnamed, hnodes, hinstances, hinstallations, rfl⟩ := Registry.createNode_eq_ok.1 hnode
    obtain ⟨hconfigs, hport, hset, -⟩ := Registry.createConfig_eq_ok.1 hconfig
    exact ⟨fingerprint, serial, url, ⟨hcertificate, hnamed, hurl, hport⟩,
      ⟨hnodes, hinstances, hinstallations, hconfigs, hset⟩⟩
  · rintro ⟨fingerprint, serial, url, hs, hr⟩
    rw [hs.certificate]
    dsimp only
    rw [if_neg (by omega), Registry.createNode_eq_ok.2
      ⟨hs.named, hr.nodes, hr.instances, hr.installations, rfl⟩]
    dsimp only
    rw [hs.masquerade]
    dsimp only
    rw [if_neg (by omega), Registry.createConfig_eq_ok.2 ⟨hr.configs, hs.port, hr.fileSet, rfl⟩]
    refine ⟨rfl, ?_, ?_, ?_, ?_⟩
    · exact length_filter_append_one (fun n hn => decide_eq_false (hr.nodes n hn).1)
        (decide_eq_true rfl)
    · exact length_filter_append_one (fun i hi => decide_eq_false (hr.instances i hi))
        (decide_eq_true rfl)
    · exact length_filter_append_one (fun i hi => decide_eq_false (hr.installations i hi).1)
        (decide_eq_true rfl)
    · exact length_filter_append_one (fun c hc => decide_eq_false (hr.configs c hc))
        (decide_eq_true rfl)

def anyCertificate : RegistrationLibrary :=
  { smallInstallLibrary with parseCertificate := fun pem => some (pem, "1") }

def registering : RegistrationState :=
  { attaching 443 with
    nodeInstanceID := "instance"
    installationID := "installation"
    drawn := by decide
    nodeName := "node"
    region := ""
    sshHost := "host"
    sshPort := 22
    privateKey := ""
    agentType := "hysteria2"
    nodeCertPEM := "certificate" }

/-- After an execution that stopped between its two store calls, or after both, the step fails for
good; in the first case the node stays without a configuration. -/
theorem registration_fails_again :
    (registerStep anyCertificate registering 2 ⟨[], [], [], [], []⟩).1 = .ok () ∧
      (registerStep anyCertificate registering 2
        (registerStep anyCertificate registering 1 ⟨[], [], [], [], []⟩).2).1 =
          .error "unique: nodes" ∧
      (registerStep anyCertificate registering 2
        (registerStep anyCertificate registering 1 ⟨[], [], [], [], []⟩).2).2.configs.length = 0 ∧
      (registerStep anyCertificate registering 2
        (registerStep anyCertificate registering 2 ⟨[], [], [], [], []⟩).2).1 =
          .error "unique: nodes" := by
  decide +kernel

end LazGate.Provisioning
