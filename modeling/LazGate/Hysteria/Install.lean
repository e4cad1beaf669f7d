import LazGate.Hysteria.Attach
import LazGate.Hysteria.Import

/-!
# Installing on a server: the configuration and the registered node

The steps of `ExecuteHysteriaStep`, over the configuration files of the host and the nodes that
are registered. The install state is stored between the steps; a step works on a copy of its
input, and what it changes there is gone with the step.
-/

namespace LazGate.Provisioning

open Hy2config

/-! ## States -/

/-- `Hysteria2InstallInput`. -/
structure InstallInput where
  publicDomain : String
  hysteriaPort : ℤ
  obfsEnabled : Bool
  obfsType : String
  masqueradeURL : String
  acmeEmail : String
  trafficStatsEnabled : Bool
  trafficStatsListen : String
  fileSetID : String
  settings : Option Config

structure InstallState where
  attach : Bool
  input : InstallInput
  nodeID : String
  publicDomain : String
  serviceName : String
  obfsPassword : String
  statsSecret : String

/-- The files of the host: the configuration, when there is one that can be read, and the copy
that attaching made. -/
structure Host where
  config : Option Object
  backup : Option Object

/-- A row of `hysteria2_node_configs`, with the settings that its text holds. -/
structure NodeSettings where
  nodeID : String
  endpointHost : String
  endpointPort : ℤ
  obfsEnabled : Bool
  obfsType : String
  obfsPassword : String
  masqueradeURL : String
  settings : Option Config
  masqueradeFileSetID : String

structure World where
  host : Host
  nodes : List NodeSettings

/-- What a step meets outside: which commands and statements succeed, and the service that is
found. -/
structure Surroundings where
  serviceName : String
  commandSucceeds : Bool
  readSucceeds : Bool
  certificateParses : Bool
  nodeCreated : Bool
  configCreated : Bool

/-- The library: that of the settings, and `url.Parse` followed by `String` without the user. -/
structure InstallLibrary extends Library where
  withoutUser : String → Option String

/-! ## Steps -/

def hysteriaConfig (L : Library) (input : InstallInput) (obfsPassword statsSecret : String) :
    Except String Object :=
  match input.settings with
  | some settings =>
    { settings with listenPort := input.hysteriaPort }.runtime L
      [("acme", .object [("domains", .list [.text input.publicDomain])]),
        ("auth", .object [("type", .text "http"),
          ("http", .object [("url", .text "http://127.0.0.1:28262/auth")])]),
        ("trafficStats", .object [("listen", .text input.trafficStatsListen),
          ("secret", .text statsSecret)])]
      input.publicDomain
  | none =>
    pure <|
      [("listen", .text (":" ++ toString input.hysteriaPort)),
        ("acme", .object (("domains", .list [.text input.publicDomain]) ::
          if input.acmeEmail ≠ "" then [("email", .text input.acmeEmail)] else [])),
        ("auth", .object [("type", .text "http"),
          ("http", .object [("url", .text "http://127.0.0.1:28262/auth")])])] ++
      (if input.obfsEnabled then
        [("obfs", .object (("type", .text input.obfsType) ::
          if input.obfsType = "salamander" then
            [("salamander", .object [("password", .text obfsPassword)])] else []))]
       else []) ++
      [("masquerade", .object [("type", .text "proxy"),
        ("proxy", .object [("url", .text input.masqueradeURL), ("rewriteHost", .bool true)])])] ++
      (if input.trafficStatsEnabled then
        [("trafficStats", .object [("listen", .text input.trafficStatsListen),
          ("secret", .text statsSecret)])]
       else [])

/-- What `writeConfig` has done: the runner's own copy of the input, and the host. -/
structure Written where
  input : InstallInput
  host : Host

/-- `writeConfig`: with `attach` the configuration of the host is patched, after a copy of it was
made; there must be no copy before. -/
def writeConfig (L : Library) (E : Surroundings) (attach : Bool) (input : InstallInput)
    (obfsPassword statsSecret : String) (host : Host) : Except String Written := do
  let config ← hysteriaConfig L input obfsPassword statsSecret
  if attach then
    match host.config with
    | none => throw "read"
    | some raw =>
      ensure E.readSucceeds "read"
      let patched := patchExistingHysteriaConfig raw input.trafficStatsListen statsSecret
      let input := if 0 < patched.port then { input with hysteriaPort := patched.port } else input
      ensure (host.backup.isNone && E.commandSucceeds) "write"
      pure ⟨input, { config := some patched.config, backup := some raw }⟩
  else
    ensure E.commandSucceeds "write"
    pure ⟨input, { host with config := some config }⟩

/-- The step that writes the configuration: without settings in the input, those of the written
configuration are taken. The port that the runner has found stays with the runner. -/
def writeConfigStep (L : Library) (E : Surroundings) (s : InstallState) (w : World) :
    Except String (InstallState × World) := do
  let written ← writeConfig L E s.attach s.input s.obfsPassword s.statsSecret w.host
  let s := { s with serviceName := E.serviceName }
  let w := { w with host := written.host }
  match s.input.settings with
  | some _ => pure (s, w)
  | none =>
    match w.host.config with
    | none => throw "read"
    | some current =>
      let settings ← fromRuntime L current
      pure ({ s with
        input := { s.input with
          settings := some settings
          obfsEnabled := decide (settings.obfs.type ≠ "off")
          obfsType := settings.obfs.type }
        obfsPassword := settings.obfs.password }, w)

def createHysteria2NodeConfig (v : NodeSettings) (w : World) : World :=
  let v := { v with endpointPort := if v.endpointPort = 0 then 443 else v.endpointPort }
  let v := { v with
    obfsType := if v.obfsType = "" ∧ v.obfsEnabled then "salamander" else v.obfsType }
  { w with nodes := w.nodes ++ [v] }

def masqueradeAddress (L : InstallLibrary) (input : InstallInput) : Except String String :=
  match input.settings with
  | none => pure input.masqueradeURL
  | some settings =>
    if settings.masquerade.type = "proxy" then
      match L.withoutUser settings.masquerade.url with
      | some url => pure url
      | none => throw "url"
    else pure ""

def registerNode (L : InstallLibrary) (E : Surroundings) (s : InstallState) (w : World) :
    Except String World := do
  ensure E.certificateParses "certificate"
  ensure E.nodeCreated "node"
  let masqueradeURL ← masqueradeAddress L s.input
  ensure E.configCreated "config"
  pure (createHysteria2NodeConfig
    { nodeID := s.nodeID
      endpointHost := s.publicDomain
      endpointPort := s.input.hysteriaPort
      obfsEnabled := s.input.obfsEnabled
      obfsType := s.input.obfsType
      obfsPassword := s.obfsPassword
      masqueradeURL := masqueradeURL
      settings := s.input.settings
      masqueradeFileSetID := s.input.fileSetID } w)

inductive StepType where
  | connect
  | checkSystem
  | createUser
  | installDetect
  | writeConfig
  | installAgent
  | startService
  | verify
  | registerNode
  | waitAgent
  | done
  deriving DecidableEq

/-- `ExecuteHysteriaStep`: the state and the world after a step that succeeded. -/
def executeHysteriaStep (L : InstallLibrary) (step : StepType) (E : Surroundings)
    (s : InstallState) (w : World) : Except String (InstallState × World) :=
  let s := { s with input := { s.input with publicDomain := s.publicDomain } }
  match step with
  | .connect | .checkSystem | .createUser =>
    throw "bootstrap install steps must run synchronously before enqueue"
  | .writeConfig => writeConfigStep L.toLibrary E s w
  | .registerNode => do
    let w ← registerNode L E s w
    pure (s, w)
  -- the other steps work on the host and leave the configuration alone
  | .installDetect | .installAgent | .startService | .verify | .waitAgent | .done => do
    ensure E.commandSucceeds "step"
    pure (s, w)

/-- Steps one after the other; the first that fails ends the run. -/
def runSteps (L : InstallLibrary) : List (StepType × Surroundings) → InstallState × World →
    Except String (InstallState × World)
  | [], now => .ok now
  | (step, E) :: rest, (s, w) => do
    let now ← executeHysteriaStep L step E s w
    runSteps L rest now

/-! ## The port of a server that is attached -/

/-- The port that a listen value names, as `:p` or `host:p`. -/
def namedPort (listen : String) : Option ℕ := do
  let (_, port) ← Net.splitHostPort listen
  let p ← atoi.digits port.toList
  if 1 ≤ p ∧ p ≤ 65535 then some p else none

/-- The number that JSON has for a value. -/
def numberOf : Value → Option ℤ
  | .int n => some n
  | .float text => floatInt text
  | _ => none

/-- The last number under a key that stands for `listen_port`, or the default port. -/
def listenPortKey (cfg : Object) : ℤ :=
  ((cfg.entries.filter fun e => foldName e.1 = foldName "listen_port").filterMap
    fun e => numberOf e.2).getLast?.getD 443

/-- What is read for one of the keys. -/
theorem asInt_eq_ok {v : Value} {old n : ℤ} (h : asInt v old = .ok n) :
    n = (numberOf v).getD old := by
  cases v with
  | null => exact (Except.ok.inj h).symm
  | int k =>
    change (if -2 ^ 63 ≤ k ∧ k < 2 ^ 63 then Except.ok k else _) = _ at h
    split at h
    · exact (Except.ok.inj h).symm
    · cases h
  | float text =>
    change n = (floatInt text).getD old
    cases hk : floatInt text with
    | none =>
      simp only [asInt, asInteger, hk] at h
      cases h
    | some k =>
      simp only [asInt, asInteger, hk] at h
      split at h
      · exact (Except.ok.inj h).symm
      · cases h
  | _ => cases h

theorem foldlM_asInt {entries : List (String × Value)} {old n : ℤ}
    (h : entries.foldlM (fun old e => asInt e.2 old) old = .ok n) :
    n = (entries.filterMap fun e => numberOf e.2).getLast?.getD old := by
  induction entries generalizing old with
  | nil => exact (Except.ok.inj h).symm
  | cons e entries ih =>
    obtain ⟨k, hk, h⟩ := Except.bind_eq_ok.1 h
    rw [ih h, asInt_eq_ok hk]
    cases hnumber : numberOf e.2 with
    | none => simp only [List.filterMap_cons, hnumber, Option.getD_none]
    | some k' => simp only [List.filterMap_cons, hnumber, List.getLast?_cons, Option.getD_some]

/-- Objects that agree on some keys have the same entries under these. -/
theorem filter_entries_congr (o o' : Object) {P : String → Bool}
    (h : ∀ key, P key = true → o'.get key = o.get key) :
    (o'.entries.filter fun e => P e.1) = o.entries.filter fun e => P e.1 := by
  have hfilter (o : Object) : (o.entries.filter fun e => P e.1) =
      (o.keys.filter P).filterMap fun key => (o.get key).map (Prod.mk key) := by
    unfold Object.entries
    rw [List.filter_filterMap, List.filterMap_filter]
    refine List.filterMap_congr fun key _ => ?_
    cases o.get key <;> simp [Option.filter]
  have hkeys : o'.keys.filter P = o.keys.filter P := by
    have hperm : (o'.keys.filter P).Perm (o.keys.filter P) := by
      refine (List.perm_ext_iff_of_nodup ((nodup_keys o').filter _) ((nodup_keys o).filter _)).2 ?_
      intro key
      simp only [List.mem_filter, and_congr_left_iff]
      intro hP
      rw [← not_iff_not, ← get_eq_none, ← get_eq_none, h key hP]
    have hsorted (o : Object) : (o.keys.filter P).Pairwise (· ≤ ·) :=
      (List.pairwise_insertionSort _ _).filter _
    exact hperm.eq_of_pairwise' (hsorted o') (hsorted o)
  rw [hfilter, hfilter, hkeys]
  refine List.filterMap_congr fun key hkey => ?_
  rw [h key (List.of_mem_filter hkey)]

variable {c : Config}

theorem listenPort_fromRuntime {L : Library} {m : Object} {listen : String}
    (h : fromRuntime L m = .ok c) (hlisten : m.get "listen" = some (.text listen)) :
    c.listenPort = (scanPort listen).getD (listenPortKey m) := by
  obtain ⟨m₁, base, hm₁, hbase, hport⟩ := fromRuntime_ok h
  have htext : m₁.getText "listen" = some listen := by
    rw [Object.getText, get_importBandwidth hm₁ (by decide), hlisten]
  rw [htext, Option.bind_some] at hport
  have hentries := filter_entries_congr m m₁
    (P := fun key => foldName key = foldName "listen_port") fun key hfold => get_importBandwidth hm₁ <| by
      rintro rfl
      revert hfold
      decide
  have hbaseport := foldlM_asInt (listenPort_decodeConfig hbase)
  rw [hport, hbaseport, listenPortKey, ← hentries]
  rfl

variable {E : Surroundings} {s s' : InstallState} {w w' : World}

/-- What attaching writes: the patched configuration, and its settings in the install state; the
port of the input stays. -/
theorem writeConfigStep_attach {L : Library} {cfg : Object} (hattach : s.attach = true)
    (hsettings : s.input.settings = none)
    (hcfg : w.host.config = some cfg) (h : writeConfigStep L E s w = .ok (s', w')) :
    ∃ c, fromRuntime L (patchExistingHysteriaConfig cfg s.input.trafficStatsListen
        s.statsSecret).config = .ok c ∧
      s'.input.settings = some c ∧ s'.input.hysteriaPort = s.input.hysteriaPort ∧
      s'.nodeID = s.nodeID := by
  obtain ⟨written, hwritten, h⟩ := Except.bind_eq_ok.1 h
  have hhost : written.host.config = some (patchExistingHysteriaConfig cfg
      s.input.trafficStatsListen s.statsSecret).config := by
    unfold writeConfig at hwritten
    obtain ⟨config, -, hwritten⟩ := Except.bind_eq_ok.1 hwritten
    rw [if_pos hattach, hcfg] at hwritten
    obtain ⟨_, -, hwritten⟩ := Except.bind_eq_ok.1 hwritten
    obtain ⟨_, -, hwritten⟩ := Except.bind_eq_ok.1 hwritten
    rw [← Except.ok.inj hwritten]
  simp only [hsettings, hhost] at h
  obtain ⟨c, hc, h⟩ := Except.bind_eq_ok.1 h
  cases h
  exact ⟨c, hc, rfl, rfl, rfl⟩

def Carries (c : Config) (port : ℤ) (nodeID : String) (s : InstallState) : Prop :=
  s.input.settings = some c ∧ s.input.hysteriaPort = port ∧ s.nodeID = nodeID

def StepType.Other (step : StepType) : Prop := step ≠ .writeConfig ∧ step ≠ .registerNode

variable {nodeID : String} {L : InstallLibrary} {port : ℤ}

section

variable (hs : Carries c port nodeID s)

include hs

theorem Carries.step {step : StepType} (hother : step.Other)
    (h : executeHysteriaStep L step E s w = .ok (s', w')) : Carries c port nodeID s' := by
  unfold executeHysteriaStep at h
  cases step with
  | connect | checkSystem | createUser => cases h
  | writeConfig => exact absurd rfl hother.1
  | registerNode => exact absurd rfl hother.2
  | _ =>
    obtain ⟨_, -, h⟩ := Except.bind_eq_ok.1 h
    cases h
    exact hs

theorem Carries.run {steps : List (StepType × Surroundings)} (hother : ∀ step ∈ steps, step.1.Other)
    (h : runSteps L steps (s, w) = .ok (s', w')) : Carries c port nodeID s' := by
  induction steps generalizing s w with
  | nil =>
    cases h
    exact hs
  | cons step steps ih =>
    rw [List.forall_mem_cons] at hother
    obtain ⟨⟨s₁, w₁⟩, hstep, h⟩ := Except.bind_eq_ok.1 h
    exact ih (hs.step hother.1 hstep) hother.2 h

theorem registerNode_carries (h : executeHysteriaStep L .registerNode E s w = .ok (s', w')) :
    ∃ node, w'.nodes = w.nodes ++ [node] ∧ node.nodeID = nodeID ∧
      node.endpointPort = (if port = 0 then 443 else port) ∧ node.settings = some c := by
  obtain ⟨hsettings, hp, hid⟩ := hs
  obtain ⟨w₁, hreg, h⟩ := Except.bind_eq_ok.1 h
  cases h
  obtain ⟨_, -, hreg⟩ := Except.bind_eq_ok.1 hreg
  obtain ⟨_, -, hreg⟩ := Except.bind_eq_ok.1 hreg
  obtain ⟨url, -, hreg⟩ := Except.bind_eq_ok.1 hreg
  obtain ⟨_, -, hreg⟩ := Except.bind_eq_ok.1 hreg
  cases hreg
  exact ⟨_, rfl, hid, by simp only [hp], hsettings⟩

end

/-- Of a listen value that names a port, the import reads it just if nothing stands before the
colon. -/
theorem scanPort_of_namedPort {listen : String} {p : ℕ} (hp : namedPort listen = some p) :
    scanPort listen = if listen.toList.head? = some ':' then some (p : ℤ) else none := by
  obtain ⟨⟨host, port⟩, hsplit, hp⟩ := Option.bind_eq_some_iff.1 hp
  obtain ⟨q, hdigits, hp⟩ := Option.bind_eq_some_iff.1 hp
  split at hp
  swap
  · cases hp
  rename_i hrange
  obtain rfl := Option.some.inj hp
  obtain ⟨before, hlisten, hbefore⟩ := Net.splitHostPort_eq_some hsplit
  cases before with
  | nil =>
    have hofList : listen = String.ofList (':' :: port.toList) := by
      rw [← String.ofList_toList (s := listen), hlisten, List.nil_append]
    rw [if_pos (by rw [hlisten]; rfl), hofList, scanPort_digits hdigits hrange.2]
  | cons ch before =>
    have hne : ch ≠ ':' := by
      rintro rfl
      rcases hbefore with hbracket | hcolon
      · simp at hbracket
      · exact hcolon List.mem_cons_self
    rw [hlisten, if_neg (by simpa using hne), scanPort, hlisten]
    split
    · rename_i rest hrest
      exact absurd (List.cons.inj hrest).1 hne
    · rfl

/-- The settings that attaching imports. -/
theorem listenPort_attach {L : Library} {cfg : Object} {statsListen statsSecret listen : String}
    {p : ℕ}
    (hc : fromRuntime L (patchExistingHysteriaConfig cfg statsListen statsSecret).config = .ok c)
    (hlisten : cfg.get "listen" = some (.text listen)) (hp : namedPort listen = some p) :
    c.listenPort = if listen.toList.head? = some ':' then (p : ℤ) else listenPortKey cfg := by
  have hget : (patchExistingHysteriaConfig cfg statsListen statsSecret).config.get "listen" =
      some (.text listen) := by
    rw [get_patch_of_ne _ _ _ (by decide) (by decide), hlisten]
  -- the two keys that are written are no other spelling of `listen_port`
  have hentries := filter_entries_congr cfg
    (patchExistingHysteriaConfig cfg statsListen statsSecret).config
    (P := fun key => foldName key = foldName "listen_port") fun key hfold => by
      refine get_patch_of_ne cfg statsListen statsSecret ?_ ?_
      · rintro rfl
        revert hfold
        decide
      · rintro rfl
        revert hfold
        decide
  rw [listenPort_fromRuntime hc hget, scanPort_of_namedPort hp, listenPortKey, hentries]
  split <;> rfl

/-- Attaching keeps the port `p` of the server just if the input of the installation names it too,
and the listen value has no host or the number under `listen_port` happens to be `p`. -/
theorem attach_keeps_port_iff (L : InstallLibrary) (s s₁ s₂ s₃ : InstallState)
    (w w₁ w₂ w₃ : World) (E E' : Surroundings) (between : List (StepType × Surroundings))
    (cfg : Object) (listen : String) (p : ℕ) (hattach : s.attach = true)
    (hsettings : s.input.settings = none) (hcfg : w.host.config = some cfg)
    (hlisten : cfg.get "listen" = some (.text listen)) (hp : namedPort listen = some p)
    (hwrite : executeHysteriaStep L .writeConfig E s w = .ok (s₁, w₁))
    (hother : ∀ step ∈ between, step.1.Other)
    (hbetween : runSteps L between (s₁, w₁) = .ok (s₂, w₂))
    (hregister : executeHysteriaStep L .registerNode E' s₂ w₂ = .ok (s₃, w₃)) :
    (∃ node c, w₃.nodes = w₂.nodes ++ [node] ∧ node.nodeID = s.nodeID ∧
        node.endpointPort = (p : ℤ) ∧ node.settings = some c ∧ c.listenPort = (p : ℤ)) ↔
      (if s.input.hysteriaPort = 0 then 443 else s.input.hysteriaPort) = (p : ℤ) ∧
        (listen.toList.head? = some ':' ∨ listenPortKey cfg = (p : ℤ)) := by
  have hstep : writeConfigStep L.toLibrary E
      { s with input := { s.input with publicDomain := s.publicDomain } } w = .ok (s₁, w₁) :=
    hwrite
  obtain ⟨c, hc, hset, hport, hid⟩ := writeConfigStep_attach
    (s := { s with input := { s.input with publicDomain := s.publicDomain } })
    hattach hsettings hcfg hstep
  have hcarries : Carries c s.input.hysteriaPort s.nodeID s₂ :=
    Carries.run ⟨hset, hport, hid⟩ hother hbetween
  obtain ⟨node, hnodes, hnode, hend, hstored⟩ := registerNode_carries hcarries hregister
  have hlistened : c.listenPort = (p : ℤ) ↔
      listen.toList.head? = some ':' ∨ listenPortKey cfg = (p : ℤ) := by
    rw [listenPort_attach hc hlisten hp]
    split
    · rename_i hhead
      exact iff_of_true rfl (.inl hhead)
    · rename_i hhead
      simp only [hhead, false_or]
  rw [← hlistened, ← hend]
  constructor
  · rintro ⟨node', c', hnodes', -, hend', hstored', hport'⟩
    obtain rfl := List.singleton_inj.1 (List.append_cancel_left (hnodes.symm.trans hnodes'))
    obtain rfl := Option.some.inj (hstored.symm.trans hstored')
    exact ⟨hend', hport'⟩
  · rintro ⟨hend', hport'⟩
    exact ⟨node, c, hnodes, hnode, hend', hstored, hport'⟩

def attaching (port : ℤ) : InstallState where
  attach := true
  input :=
    { publicDomain := "", hysteriaPort := port, obfsEnabled := false, obfsType := ""
      masqueradeURL := "https://example.org", acmeEmail := "", trafficStatsEnabled := true
      trafficStatsListen := "127.0.0.1:9999", fileSetID := "", settings := none }
  nodeID := "nod_1"
  publicDomain := "vpn.example.org"
  serviceName := ""
  obfsPassword := "obfs"
  statsSecret := "stats"

def hostOn (listen : String) : World := ⟨⟨some [("listen", .text listen)], none⟩, []⟩

def calmInstall : Surroundings := ⟨"hysteria-server", true, true, true, true, true⟩

def smallInstallLibrary : InstallLibrary := { smallLibrary with withoutUser := some }

def registeredPorts (now : Except String (InstallState × World)) : List (ℤ × Option ℤ) :=
  match now with
  | .ok (_, w) => w.nodes.map fun node => (node.endpointPort, node.settings.map (·.listenPort))
  | .error _ => []

theorem ok_of_toOption {ε α : Type} {x : Except ε α} {a : α} (h : x.toOption = some a) :
    x = .ok a := by
  cases x with
  | error e => cases h
  | ok b => exact congrArg _ (Option.some.inj h)

theorem attach_keeps_port_8443 :
    ∃ s w node c, runSteps smallInstallLibrary
        [(.writeConfig, calmInstall), (.registerNode, calmInstall)]
        (attaching 8443, hostOn ":8443") = .ok (s, w) ∧
      w.nodes = [node] ∧ node.endpointPort = 8443 ∧ node.settings = some c ∧
      c.listenPort = 8443 := by
  have hok : (executeHysteriaStep smallInstallLibrary .writeConfig calmInstall (attaching 8443)
      (hostOn ":8443")).toOption.any (fun now => now.2.nodes.isEmpty && (executeHysteriaStep
        smallInstallLibrary .registerNode calmInstall now.1 now.2).toOption.isSome) = true := by
    decide +kernel
  obtain ⟨⟨s₁, w₁⟩, hwrite, hok⟩ := (Option.any_eq_true _ _).1 hok
  rw [Bool.and_eq_true] at hok
  obtain ⟨hnone, hok⟩ := hok
  obtain ⟨⟨s₂, w₂⟩, hregister⟩ := Option.isSome_iff_exists.1 hok
  have hwrite' := ok_of_toOption hwrite
  have hregister' := ok_of_toOption hregister
  obtain ⟨node, c, hnodes, -, hend, hset, hport⟩ := (attach_keeps_port_iff smallInstallLibrary
    (attaching 8443) s₁ s₁ s₂ (hostOn ":8443") w₁ w₁ w₂ calmInstall calmInstall []
    [("listen", .text ":8443")] ":8443" 8443 rfl rfl rfl rfl (by decide +kernel) hwrite' (by simp)
    rfl hregister').2 ⟨by decide, .inl (by decide)⟩
  refine ⟨s₂, w₂, node, c, ?_, ?_, hend, hset, hport⟩
  · simp only [runSteps, hwrite', hregister', bind, Except.bind]
  · rw [hnodes, List.isEmpty_iff.1 hnone, List.nil_append]

/-- A server on port 8443 is registered with the port of the input, and with the default port in
its settings when a host stands before the port. -/
theorem attach_loses_port :
    namedPort ":8443" = some 8443 ∧ namedPort "127.0.0.1:8443" = some 8443 ∧
      registeredPorts (runSteps smallInstallLibrary
        [(.writeConfig, calmInstall), (.registerNode, calmInstall)]
        (attaching 443, hostOn ":8443")) = [(443, some 8443)] ∧
      registeredPorts (runSteps smallInstallLibrary
        [(.writeConfig, calmInstall), (.registerNode, calmInstall)]
        (attaching 8443, hostOn "127.0.0.1:8443")) = [(8443, some 443)] := by
  decide +kernel

end LazGate.Provisioning
