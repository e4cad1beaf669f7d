import LazGate.Hysteria.Files
import LazGate.Lib.Table

/-!
# Applying Hysteria settings

`Reconciler.apply` puts the settings of a command over the configuration file, restarts the server
and goes back to the configuration before if the server does not become healthy. The process may
stop between any two commands.
-/

namespace LazGate.Hysteria

open Filepath Hy2config Prog

/-! ## Apply -/

structure ServerConfig where
  settingsJSON : String
  endpointHost : String
  masqueradeFilesetID : String
  masqueradeArchive : List UInt8

structure EditServerConfig where
  nodeID : String
  revision : ℕ
  serverConfig : Option ServerConfig

structure Options where
  nodeID : String
  configPath : String
  statsURL : String

/-- The libraries that the reconciler calls. -/
structure Environment where
  settings : Hy2config.Library
  archives : Archives
  /-- The JSON decoder without unknown fields, over the values that are there. -/
  decode : Config → String → Except String Config
  /-- `yaml.Unmarshal`; an empty document gives no map. -/
  unmarshal : String → Except String (Option Object)
  /-- The JSON normalization with `yaml.Marshal`. -/
  marshal : Object → Except String String
  pemDecode : String → Option String
  /-- `x509.ParseCertificate`, with `VerifyHostname` of what it returns. -/
  parseCertificate : String → Except String (String → Except String Unit)
  /-- `http.NewRequestWithContext` for a URL. -/
  newRequest : String → Except String Unit

variable (E : Environment) (O : Options)

/-- The checks before anything is read. -/
def accept (command : EditServerConfig) : Except String (ServerConfig × Config) :=
  match command.serverConfig with
  | none => .error "invalid Hysteria configuration command"
  | some s =>
    if command.nodeID ≠ O.nodeID ∨ O.configPath = "" ∨ command.revision = 0 then
      .error "invalid Hysteria configuration command"
    else do
      let c ← E.decode Hy2config.defaults s.settingsJSON
      Hy2config.validate E.settings c
      if Hy2config.domain s.endpointHost then pure (s, c)
      else throw "invalid endpoint domain"

/-- The configuration to start from, and whether it is that of a backup. -/
def readOriginal : HostM (String × Bool) := do
  let original ← orFail "cannot read Hysteria configuration" (ask .readConfig)
  let backed ← ExceptT.lift (ask .statBackup)
  if backed then do
    let original ← orFail "cannot read pending rollback configuration" (ask .readBackup)
    pure (original, true)
  else pure (original, false)

/-- The local certificate covers the domain, unless the server gets its own. -/
def checkCertificate (current : Object) (domain : String) : HostM Unit :=
  if (current.get "acme").isSome then pure ()
  else do
    let certPath := ((current.getObject "tls").bind (·.getText "cert")).getD ""
    let raw ← orFail "cannot read TLS certificate" (ask (.readCertificate certPath))
    match E.pemDecode raw with
    | none => throw "invalid TLS certificate"
    | some block => do
      let verifyHostname ← ofExcept (E.parseCertificate block)
      ofExcept ((verifyHostname domain).mapError
        ("endpoint is not covered by the local TLS certificate: " ++ ·))

/-- The settings with the directory of a masquerade. -/
def withDir (c : Config) (dir : String) : Config :=
  { c with masquerade := { c.masquerade with dir := dir } }

def stageFiles (s : ServerConfig) (c : Config) : HostM (Config × String) :=
  if s.masqueradeFilesetID ≠ "" then
    if c.masquerade.type ≠ "file" then throw "file set supplied for non-file masquerade"
    else do
      let activeDir ← stage E.archives s.masqueradeFilesetID s.masqueradeArchive
      pure (withDir c activeDir, activeDir)
  else if s.masqueradeArchive ≠ [] then throw "file set ID is required"
  else pure (c, "")

def newFile (c : Config) (current : Object) (domain : String) : Except String String := do
  let current ← c.runtime E.settings current domain
  E.marshal current

def write (content : String) : HostM Unit := do
  ExceptT.mk (ask .createTemp)
  orFail "cannot stage Hysteria configuration" (ask (.stage content))
  orFail "cannot replace Hysteria configuration" (ask .replace)

/-- One round of the health check. -/
def probe : HostM Bool := do
  let active ← attemptResult (ExceptT.mk (ask .isActive) : HostM Unit)
  match active with
  | .error _ => pure false
  | .ok () =>
    if O.statsURL = "" then pure true
    else do
      ofExcept (E.newRequest (String.ofList (O.statsURL.toList.rdropWhile (· = '/')) ++ "/online"))
      let response ← attemptResult (ExceptT.mk (ask .online) : HostM Unit)
      pure response.isOk

/-- The loop of `healthy` with at most `n` rounds to go and `stable` good ones in a row. -/
def healthyLoop : ℕ → ℕ → HostM Unit
  | 0, _ => throw "Hysteria health check timed out"
  | n + 1, stable => do
    let alive ← ExceptT.lift (ask .inTime)
    if alive then do
      let ok ← probe E O
      if ok then
        if 3 ≤ stable + 1 then pure () else healthyLoop n (stable + 1)
      else healthyLoop n 0
    else throw "Hysteria health check timed out"

/-- `healthy`. A round takes a second at least and the check a minute at most. -/
def healthy : HostM Unit := healthyLoop E O 61 0

def restart : HostM Unit := do
  orFail "Hysteria restart failed" (ask .restart)
  healthy E O

def rollback (original : String) : HostM Unit := do
  Attempt.wrap ("apply failed and configuration rollback failed: " ++ ·) (write original)
  Attempt.wrap ("apply failed and service rollback failed: " ++ ·) (restart E O)
  let _ ← attemptResult (ExceptT.mk (ask .removeBackup) : HostM Unit)
  throw "Hysteria did not become healthy; previous settings restored"

/-- The backup is made unless it is there from before. -/
def preserve (backed : Bool) : HostM Unit :=
  if backed then pure ()
  else orFail "cannot preserve rollback configuration" (ask .copyBackup)

/-- The new configuration is put in place. The removal of the backup commits it. -/
def replaceConfig (original raw : String) (keepPaths : List String) : HostM Unit := do
  write raw
  let restarted ← attemptResult (restart E O)
  match restarted with
  | .error _ => rollback E O original
  | .ok () => do
    orFail "cannot finalize configuration apply" (ask .removeBackup)
    -- a failure is only logged
    let _ ← attemptResult (cleanup keepPaths)

/-- What follows when the new text is known. -/
def install (original : String) (backed : Bool) (raw : String) (keepPaths : List String) :
    HostM Unit := do
  ExceptT.mk (ask .statConfig)
  preserve backed
  replaceConfig E O original raw keepPaths

def apply (command : EditServerConfig) : HostM Unit := do
  let (s, c) ← ofExcept (accept E O command)
  let (original, backed) ← readOriginal
  let current ← ofExcept (E.unmarshal original)
  match current with
  | none => throw "empty Hysteria configuration"
  | some current => do
    let previousDir := masqueradeDir current
    checkCertificate E current s.endpointHost
    let (c, activeDir) ← stageFiles E s c
    let raw ← ofExcept (newFile E c current s.endpointHost)
    if raw == original && !backed then healthy E O
    else install E O original backed raw [activeDir, previousDir]

inductive ApplyStatus where
  | failed | rejected | applied
  deriving DecidableEq

structure ServerConfigApplyResult where
  status : ApplyStatus
  nodeID : String
  desiredRevision : ℕ
  appliedRevision : ℕ
  error : String

def editServerConfig : Option EditServerConfig →
    Prog HostCall HostCall.Reply ServerConfigApplyResult
  | none => pure ⟨.rejected, "", 0, 0, "edit server config command is required"⟩
  | some command => do
    let result ← (apply E O command).run
    match result with
    | .error e => pure ⟨.failed, command.nodeID, command.revision, 0, e⟩
    | .ok () => pure ⟨.applied, command.nodeID, command.revision, command.revision, ""⟩

/-! ## The system -/

/-- The host, the committed configuration, the command of the apply under way and the texts it has
written so far, the last one first. -/
structure ApplyWorld where
  host : Host
  committed : Option String
  command : Option EditServerConfig
  writes : List String

/-- At the start the configuration there is, or a backup left behind, is the committed one. -/
def ApplyWorld.start (h : Host) : ApplyWorld := ⟨h, h.backup.or h.config, none, []⟩

/-- The removal of the backup commits the new configuration. After a rollback, when two texts have
been written, there is none. -/
def ApplyWorld.commit (w : ApplyWorld) : Option String :=
  match w.writes with
  | [raw] => some raw
  | _ => w.committed

def applySystem : System HostCall HostCall.Reply Outcome ApplyWorld Empty
    (Option EditServerConfig) ServerConfigApplyResult where
  perform c f w := ((c.perform f w.host).1,
    match c with
    | .stage content => { w with host := (c.perform f w.host).2, writes := content :: w.writes }
    | .removeBackup =>
      if f.ok then ⟨(c.perform f w.host).2, w.commit, w.command, []⟩ else w
    | c => { w with host := (c.perform f w.host).2 })
  act e _ := e.elim
  enter command w := some { w with command := command, writes := [] }
  prog := editServerConfig E O

def newConfig (command : EditServerConfig) (original : String) : Except String String := do
  let (s, c) ← accept E O command
  let c := if s.masqueradeFilesetID ≠ "" then
    withDir c (join managedDirectory s.masqueradeFilesetID) else c
  let current ← E.unmarshal original
  match current with
  | none => throw "empty Hysteria configuration"
  | some current => newFile E c current s.endpointHost

/-- The backup holds the committed configuration; without a backup the configuration file does. -/
def ApplyWorld.Kept (w : ApplyWorld) : Prop :=
  match w.host.backup with
  | some content => w.committed = some content
  | none => w.host.config = w.committed

/-- The first text an apply writes is what its command makes of the committed configuration; the
second is the committed configuration. -/
def ApplyWorld.Computed (w : ApplyWorld) : Prop :=
  match w.writes with
  | [] => True
  | [raw] => ∃ command original, w.command = some command ∧ w.committed = some original ∧
      newConfig E O command original = .ok raw
  | text :: _ => w.committed = some text

def InUse (h : Host) (id : String) : Prop :=
  ∃ content, (h.config = some content ∨ h.backup = some content) ∧
    ∃ current dir, E.unmarshal content = .ok (some current) ∧
      fileMasquerade current = some dir ∧ clean dir = join managedDirectory id

/-- A masquerade of type `file` names a directory below the managed one only together with the id
of a file set. -/
def NamesFileset (command : EditServerConfig) : Prop :=
  ∀ s c, command.serverConfig = some s → E.decode Hy2config.defaults s.settingsJSON = .ok c →
    c.masquerade.type = "file" →
    managedDirectory.toList ++ ['/'] <+: (clean c.masquerade.dir).toList →
    s.masqueradeFilesetID ≠ ""

def Environment.KeepsMasquerade : Prop :=
  ∀ current text, E.marshal current = .ok text →
    ∃ current', E.unmarshal text = .ok (some current') ∧
      fileMasquerade current' = fileMasquerade current

/-! ## What an apply keeps -/

variable {writes : List String} {original raw : String} {w w' : ApplyWorld} {c : HostCall}
  {Q : c.Reply → ApplyWorld → Prop} {content : String} {s : ServerConfig} {current : Object}

section

variable {E : Environment} {O : Options} {D : EditServerConfig → Prop}
  {command : EditServerConfig} {backed : Bool}

/-- The invariant: `D` holds of the command under way. -/
structure Inv (E : Environment) (O : Options) (D : EditServerConfig → Prop) (w : ApplyWorld) :
    Prop where
  kept : w.Kept
  computed : w.Computed E O
  command : ∀ command, w.command = some command → D command

def SetsKept (E : Environment) (D : EditServerConfig → Prop) (w w' : ApplyWorld) : Prop :=
  E.KeepsMasquerade → (∀ command, D command → NamesFileset E command) →
    ∀ id, validID id = true → w.host.HasSet id → ¬ w'.host.HasSet id → ¬ InUse E w.host id

/-- An apply runs alone and keeps the invariant at every call. -/
def applySetting (E : Environment) (O : Options) (D : EditServerConfig → Prop) :
    Setting HostCall HostCall.Reply Outcome ApplyWorld where
  perform := (applySystem E O).perform
  admits _ _ _ := True
  rely := Eq
  guar w w' := Inv E O D w' ∧ SetsKept E D w w'
  refl _ := rfl
  trans _ _ _ := Eq.trans

/-- `Q` holds after `x`, or the invariant if it fails. -/
abbrev Keeps (E : Environment) (O : Options) (D : EditServerConfig → Prop) {α : Type} (x : HostM α)
    (Q : α → ApplyWorld → Prop) (w : ApplyWorld) : Prop :=
  Safe (applySetting E O D) x.run (onOk Q fun _ => Inv E O D) w

section Keeps

variable {α β : Type} {Q : α → ApplyWorld → Prop}

theorem keeps_pure {a : α} (h : Q a w) : Keeps E O D (pure a) Q w :=
  Safe.ok fun _ hr => hr ▸ h

theorem keeps_throw {e : String} (h : Inv E O D w) : Keeps E O D (throw e) Q w :=
  Safe.fail fun _ hr => hr ▸ h

theorem keeps_check {x : Except String β} {g : β → HostM α} (hw : Inv E O D w)
    (h : ∀ b, x = .ok b → Keeps E O D (g b) Q w) : Keeps E O D (ofExcept x >>= g) Q w :=
  Safe.check h fun _ _ _ hr => hr ▸ hw

end Keeps

theorem safe_ask (h : ∀ f, (Inv E O D ((applySystem E O).perform c f w).2 ∧
        SetsKept E D w ((applySystem E O).perform c f w).2) ∧
      Q ((applySystem E O).perform c f w).1 ((applySystem E O).perform c f w).2) :
    Safe (applySetting E O D) (ask c) Q w := by
  refine Safe.ask ?_
  rintro _ rfl f -
  refine ⟨(h f).1, ?_⟩
  rintro _ rfl
  exact (h f).2

/-- Nothing changed but the managed directory. -/
structure SameView (w w' : ApplyWorld) : Prop where
  files : SameFiles w.host w'.host
  committed : w'.committed = w.committed
  command : w'.command = w.command
  writes : w'.writes = w.writes

theorem SameView.trans {w₁ w₂ w₃ : ApplyWorld} (h : SameView w₁ w₂) (h' : SameView w₂ w₃) :
    SameView w₁ w₃ where
  files := ⟨h'.files.config.trans h.files.config, h'.files.backup.trans h.files.backup,
    h'.files.pending.trans h.files.pending⟩
  committed := h'.committed.trans h.committed
  command := h'.command.trans h.command
  writes := h'.writes.trans h.writes

theorem Inv.of_sameView (h : Inv E O D w) (hw : SameView w w') :
    Inv E O D w' where
  kept := by
    have := h.kept
    unfold ApplyWorld.Kept at this ⊢
    rwa [hw.files.backup, hw.files.config, hw.committed]
  computed := by
    have := h.computed
    unfold ApplyWorld.Computed at this ⊢
    rwa [hw.writes, hw.committed, hw.command]
  command := by
    rw [hw.command]
    exact h.command

section Calls

variable {c : HostCall} {f : Outcome} {w : ApplyWorld}

theorem sameView_perform (hc : c.Quiet) : SameView w ((applySystem E O).perform c f w).2 := by
  cases c <;> first | exact hc.elim | exact ⟨HostCall.Quiet.sameFiles hc, rfl, rfl, rfl⟩

theorem host_perform : ((applySystem E O).perform c f w).2.host = (c.perform f w.host).2 := by
  cases c with
  | removeBackup =>
    change (ite _ _ _ : ApplyWorld).host = _
    split
    · rfl
    · rename_i hf
      simp [HostCall.perform, hf]
  | _ => rfl

theorem perform_stage (content : String) : (applySystem E O).perform (.stage content) f w =
    (if f.ok then .ok () else .error f.error,
      { w with
        host := { w.host with pending := if f.ok then some content else w.host.pending }
        writes := content :: w.writes }) := by
  cases hf : f.ok <;>
    simp [applySystem, HostCall.perform, HostCall.effect, HostCall.failure, hf]

theorem perform_replace (h : w.host.pending = some content) :
    (applySystem E O).perform .replace f w = if f.ok then
      (.ok (), { w with host := { w.host with config := some content, pending := none } })
      else (.error f.error, w) := by
  cases hf : f.ok <;>
    simp [applySystem, HostCall.perform, HostCall.effect, HostCall.failure, hf, h]

theorem perform_copyBackup (h : w.host.config = some content) :
    (applySystem E O).perform .copyBackup f w = if f.ok then
      (.ok (), { w with host := { w.host with backup := some content } })
      else (.error f.error, w) := by
  cases hf : f.ok <;>
    simp [applySystem, HostCall.perform, HostCall.effect, HostCall.failure, hf, h]

theorem perform_removeBackup : (applySystem E O).perform .removeBackup f w = if f.ok then
      (.ok (), ⟨{ w.host with backup := none }, w.commit, w.command, []⟩)
      else (.error f.error, w) := by
  cases hf : f.ok <;>
    simp [applySystem, HostCall.perform, HostCall.effect, HostCall.failure, hf]

theorem setsKept_perform (hc : ∀ paths, c ≠ .removeAll paths) :
    SetsKept E D w ((applySystem E O).perform c f w).2 := by
  intro _ _ id _ hset hgone
  rw [host_perform] at hgone
  exact absurd (hset.perform hc) hgone

end Calls

theorem safe_ask_keep (hc : ∀ paths, c ≠ .removeAll paths)
    (h : ∀ f, Inv E O D ((applySystem E O).perform c f w).2 ∧
      Q ((applySystem E O).perform c f w).1 ((applySystem E O).perform c f w).2) :
    Safe (applySetting E O D) (ask c) Q w :=
  safe_ask fun f => ⟨⟨(h f).1, setsKept_perform hc⟩, (h f).2⟩

/-- `I` holds with the invariant, whatever happens in the managed directory. -/
structure Stable (E : Environment) (O : Options) (D : EditServerConfig → Prop)
    (I : ApplyWorld → Prop) : Prop where
  view : ∀ w w', I w → SameView w w' → I w'
  inv : ∀ w, I w → Inv E O D w

section Quiet

variable {α β : Type} {I : ApplyWorld → Prop} (hI : Stable E O D I)

include hI

theorem safe_quiet {p : Prog HostCall HostCall.Reply α} (hp : Only HostCall.Quiet p) (hw : I w) :
    Safe (applySetting E O D) p (fun _ => I) w := by
  refine hp.safe (fun w w' h hr => hr ▸ h) (fun c f w hc _ h => ?_) hw
  have hview := sameView_perform (E := E) (O := O) (f := f) (w := w) hc
  exact ⟨⟨(hI.inv w h).of_sameView hview, setsKept_perform (O := O) hc.ne_removeAll⟩,
    hI.view w _ h hview⟩

theorem safe_quiet_then {x : HostM α} {g : α → HostM β} (hx : Only HostCall.Quiet x.run)
    {Q : β → ApplyWorld → Prop} (hw : I w) (hg : ∀ a w, I w → Keeps E O D (g a) Q w) :
    Keeps E O D (x >>= g) Q w := by
  refine Safe.andThen ((safe_quiet hI hx hw).mono ?_)
  rintro (e | a) w' h
  · exact hI.inv w' h
  · exact hg a w' h

end Quiet

theorem safe_ask_quiet (hc : c.Quiet) (hw : Inv E O D w)
    (h : ∀ f w', SameView w w' → Q (c.perform f w.host).1 w') :
    Safe (applySetting E O D) (ask c) Q w := by
  refine safe_ask fun f => ?_
  have hview := sameView_perform (E := E) (O := O) (f := f) (w := w) hc
  refine ⟨⟨hw.of_sameView hview, setsKept_perform (O := O) hc.ne_removeAll⟩, ?_⟩
  have hreply : ((applySystem E O).perform c f w).1 = (c.perform f w.host).1 := rfl
  rw [hreply]
  exact h f _ hview

/-! ### The parts -/

/-- After the reading: `original` is the committed configuration. -/
structure Reading (E : Environment) (O : Options) (D : EditServerConfig → Prop)
    (command : EditServerConfig) (original : String) (backed : Bool) (w : ApplyWorld) : Prop where
  inv : Inv E O D w
  command : w.command = some command
  writes : w.writes = []
  committed : w.committed = some original
  backup : w.host.backup = if backed then some original else none

/-- Before the reading. -/
structure Started (E : Environment) (O : Options) (D : EditServerConfig → Prop)
    (command : EditServerConfig) (w : ApplyWorld) : Prop where
  inv : Inv E O D w
  command : w.command = some command
  writes : w.writes = []

theorem safe_readOriginal (hw : Started E O D command w) :
    Keeps E O D readOriginal (fun r => Reading E O D command r.1 r.2) w := by
  have hread : ∀ w' b content, SameView w w' → w.committed = some content →
      w.host.backup = (if b = true then some content else none) →
      Reading E O D command content b w' := fun w' b content hview hcom hback =>
    ⟨hw.inv.of_sameView hview, hview.command.trans hw.command, hview.writes.trans hw.writes,
      hview.committed.trans hcom, hview.files.backup.trans hback⟩
  refine Safe.andThen (Safe.wrap (safe_ask_quiet (c := .readConfig) trivial hw.inv
    fun f w₁ h₁ => ?_))
  cases hconfig : (HostCall.readConfig.perform f w.host).1 with
  | error e => exact hw.inv.of_sameView h₁
  | ok original =>
    have hconfig := HostCall.config_of_readConfig hconfig
    refine Safe.andThen (Safe.map (safe_ask_quiet (c := .statBackup) trivial
      (hw.inv.of_sameView h₁) fun f₂ w₂ h₂ => ?_))
    have h₂ := h₁.trans h₂
    have hkept := hw.inv.kept
    rw [HostCall.perform_statBackup, h₁.files.backup]
    cases hbackup : w.host.backup with
    | none =>
      rw [ApplyWorld.Kept, hbackup] at hkept
      exact keeps_pure (hread w₂ false original h₂ (hkept.symm.trans hconfig) hbackup)
    | some content =>
      rw [ApplyWorld.Kept, hbackup] at hkept
      refine Safe.andThen (Safe.wrap (safe_ask_quiet (c := .readBackup) trivial
        (hw.inv.of_sameView h₂) fun f₃ w₃ h₃ => ?_))
      have h₃ := h₂.trans h₃
      cases hreply : (HostCall.readBackup.perform f₃ w₂.host).1 with
      | error e => exact hw.inv.of_sameView h₃
      | ok text =>
        have htext := HostCall.backup_of_readBackup hreply
        rw [h₂.files.backup, hbackup] at htext
        cases htext
        exact keeps_pure (hread w₃ true content h₃ hkept hbackup)

theorem Reading.stable : Stable E O D (Reading E O D command original backed) where
  view _ _ h hw := ⟨h.inv.of_sameView hw, hw.command.trans h.command, hw.writes.trans h.writes,
    hw.committed.trans h.committed, hw.files.backup.trans h.backup⟩
  inv _ h := h.inv

theorem only_checkCertificate (current : Object) (domain : String) :
    Only HostCall.Quiet (checkCertificate E current domain).run := by
  unfold checkCertificate
  split
  · exact Only.ok
  · refine Only.andThen (Only.wrap (Only.ask trivial)) fun raw => ?_
    split
    · exact Only.fail
    · refine Only.check fun verifyHostname _ => ?_
      exact Only.ofExcept

theorem only_healthy : Only HostCall.Quiet (healthy E O).run := by
  have hprobe : Only HostCall.Quiet (probe E O).run := by
    refine Only.andThen (Only.result (Only.ask trivial)) fun active => ?_
    split
    · exact Only.ok
    · split
      · exact Only.ok
      · refine Only.check fun _ _ => ?_
        exact Only.andThen (Only.result (Only.ask trivial)) fun _ => Only.ok
  have hloop : ∀ n stable, Only HostCall.Quiet (healthyLoop E O n stable).run := by
    intro n
    induction n with
    | zero => exact fun _ => Only.fail
    | succ n ih =>
      intro stable
      refine Only.andThen (Only.lift (Only.ask trivial)) fun alive => ?_
      split
      · refine Only.andThen hprobe fun ok => ?_
        split
        · split
          · exact Only.ok
          · exact ih _
        · exact ih _
      · exact Only.fail
  exact hloop 61 0

theorem only_restart : Only HostCall.Quiet (restart E O).run :=
  Only.andThen (Only.wrap (Only.ask trivial)) fun _ => only_healthy

theorem safe_stage (A : Archives) (id : String) (archive : List UInt8)
    (hw : Reading E O D command original backed w) :
    Keeps E O D (stage A id archive) (fun dir w => Reading E O D command original backed w ∧
      validID id = true ∧ dir = join managedDirectory id) w := by
  refine keeps_check hw.inv fun files hfiles => keeps_check hw.inv fun _ _ => ?_
  refine safe_quiet_then Reading.stable (only_safePath _) hw fun _ w₁ h₁ => ?_
  refine safe_quiet_then Reading.stable (only_safePath _) h₁ fun _ w₂ h₂ => ?_
  refine safe_quiet_then Reading.stable (only_isReady _ _ _) h₂ fun ready w₃ h₃ => ?_
  have hready : ∀ w, Reading E O D command original backed w →
      Keeps E O D (pure (join managedDirectory id)) (fun dir w =>
        Reading E O D command original backed w ∧ validID id = true ∧
          dir = join managedDirectory id) w := fun w hw =>
    keeps_pure ⟨hw, validID_of_verify hfiles, rfl⟩
  split
  · exact hready w₃ h₃
  · exact safe_quiet_then Reading.stable (only_installSet _ _ _ _) h₃ fun _ w₄ => hready w₄

/-- The staged set has a valid id, and its directory is that of the new settings. -/
theorem safe_stageFiles (s : ServerConfig) (c : Config)
    (hw : Reading E O D command original backed w) :
    Keeps E O D (stageFiles E s c) (fun r w => Reading E O D command original backed w ∧
      (s.masqueradeFilesetID ≠ "" ∧ validID s.masqueradeFilesetID = true ∧
          r.2 = join managedDirectory s.masqueradeFilesetID ∧ r.1 = withDir c r.2 ∨
        s.masqueradeFilesetID = "" ∧ r.1 = c)) w := by
  unfold stageFiles
  split
  · split
    · exact keeps_throw hw.inv
    · rename_i hid _
      refine Safe.seq (safe_stage _ _ _ hw) fun dir w₁ h₁ => ?_
      exact keeps_pure ⟨h₁.1, .inl ⟨hid, h₁.2.1, h₁.2.2, rfl⟩⟩
  · split
    · exact keeps_throw hw.inv
    · rename_i hid _
      exact keeps_pure ⟨hw, .inr ⟨not_not.1 hid, rfl⟩⟩

/-! ### The installation -/

/-- The backup holds the committed configuration, and the apply has written `writes`. -/
structure Guarded (E : Environment) (O : Options) (D : EditServerConfig → Prop)
    (original : String) (writes : List String) (w : ApplyWorld) : Prop where
  inv : Inv E O D w
  writes : w.writes = writes
  committed : w.committed = some original
  backup : w.host.backup = some original

theorem Guarded.of_sameView (h : Guarded E O D original writes w) (hw : SameView w w') :
    Guarded E O D original writes w' :=
  ⟨h.inv.of_sameView hw, hw.writes.trans h.writes, hw.committed.trans h.committed,
    hw.files.backup.trans h.backup⟩

theorem Guarded.mk' (hcommand : ∀ command, w.command = some command → D command)
    (hwrites : w.writes = writes)
    (hcommitted : w.committed = some original) (hbackup : w.host.backup = some original)
    (hcomputed : w.Computed E O) : Guarded E O D original writes w := by
  refine ⟨⟨?_, hcomputed, hcommand⟩, hwrites, hcommitted, hbackup⟩
  rw [ApplyWorld.Kept, hbackup]
  exact hcommitted

/-- One more text is written: the invariant holds if it is the right one. -/
theorem safe_write (content : String) {command : Option EditServerConfig}
    (hw : Guarded E O D original writes w) (hcommand : w.command = command)
    (hcontent : ∀ w' : ApplyWorld, w'.command = command → w'.committed = some original →
      w'.writes = content :: writes → w'.Computed E O) :
    Keeps E O D (write content) (fun _ w' => Guarded E O D original (content :: writes) w' ∧
      w'.command = command ∧ w'.host.config = some content) w := by
  have hquiet : Only HostCall.Quiet (ExceptT.mk (ask .createTemp) : HostM Unit).run :=
    Only.ask trivial
  refine safe_quiet_then (I := fun w => Guarded E O D original writes w ∧ w.command = command)
    ⟨fun _ _ h hv => ⟨h.1.of_sameView hv, hv.command.trans h.2⟩, fun _ h => h.1.inv⟩ hquiet
    ⟨hw, hcommand⟩ fun _ w₁ h₁ => ?_
  -- the attempt to stage counts as a write
  have hstaged : ∀ pending, Guarded E O D original (content :: writes)
      { w₁ with host := { w₁.host with pending := pending }, writes := content :: w₁.writes } := by
    intro pending
    have hwrites : content :: w₁.writes = content :: writes := by rw [h₁.1.writes]
    exact .mk' h₁.1.inv.command hwrites h₁.1.committed h₁.1.backup
      (hcontent _ h₁.2 h₁.1.committed hwrites)
  refine Safe.andThen (Safe.wrap (safe_ask_keep (c := .stage content) nofun fun f => ?_))
  rw [perform_stage]
  refine ⟨(hstaged _).inv, ?_⟩
  cases hf : f.ok with
  | false => exact (hstaged _).inv
  | true =>
    refine Safe.wrap (safe_ask_keep (c := .replace) nofun fun f' => ?_)
    rw [perform_replace rfl]
    cases hf' : f'.ok with
    | false => exact ⟨(hstaged _).inv, (hstaged _).inv⟩
    | true =>
      have h₂ := hstaged none
      have hdone : Guarded E O D original (content :: writes) { w₁ with
          host := { w₁.host with config := some content, pending := none },
          writes := content :: w₁.writes } :=
        .mk' h₂.inv.command h₂.writes h₂.committed h₂.backup h₂.inv.computed
      exact ⟨hdone.inv, hdone, h₁.2, rfl⟩

theorem safe_rollback (hw : Guarded E O D original [raw] w) :
    Keeps E O D (rollback E O original) (fun _ => Inv E O D) w := by
  have hwrite := safe_write original hw rfl fun w' _ hcom hwr => by
    rw [ApplyWorld.Computed, hwr]
    exact hcom
  refine Safe.andThen (Safe.wrap (hwrite.mono ?_))
  rintro (e | _) w₁ h₁
  · exact h₁
  refine safe_quiet_then (I := fun w => Guarded E O D original [original, raw] w ∧
      w.host.config = some original)
    ⟨fun _ _ h hv => ⟨h.1.of_sameView hv, hv.files.config.trans h.2⟩, fun _ h => h.1.inv⟩
    (Only.wrap only_restart) ⟨h₁.1, h₁.2.2⟩ fun _ w₂ h₂ => ?_
  refine Safe.andThen (Safe.result (safe_ask_keep (c := .removeBackup) nofun fun f => ?_))
  rw [perform_removeBackup]
  cases f.ok with
  | false => exact ⟨h₂.1.inv, keeps_throw h₂.1.inv⟩
  | true =>
    -- both texts were written, so the committed configuration stays
    have hinv : Inv E O D ⟨{ w₂.host with backup := none }, w₂.commit, w₂.command, []⟩ := by
      refine ⟨?_, trivial, h₂.1.inv.command⟩
      change w₂.host.config = w₂.commit
      rw [ApplyWorld.commit, h₂.1.writes, h₂.2]
      exact h₂.1.committed.symm
    exact ⟨hinv, keeps_throw hinv⟩

/-! ### The removal of file sets -/

theorem of_accept {c : Config} (h : accept E O command = .ok (s, c)) :
    command.serverConfig = some s ∧ E.decode Hy2config.defaults s.settingsJSON = .ok c := by
  unfold accept at h
  split at h
  · cases h
  · rename_i s' hs
    split at h
    · cases h
    · obtain ⟨c', hc, h⟩ := Except.bind_eq_ok.1 h
      obtain ⟨_, -, h⟩ := Except.bind_eq_ok.1 h
      split at h
      · cases h
        exact ⟨hs, hc⟩
      · cases h

theorem of_newConfig (h : newConfig E O command original = .ok raw) : ∃ s c current,
      accept E O command = .ok (s, c) ∧ newFile E (if s.masqueradeFilesetID ≠ "" then
        withDir c (join managedDirectory s.masqueradeFilesetID) else c) current s.endpointHost =
          .ok raw := by
  obtain ⟨⟨s, c⟩, hsc, h⟩ := Except.bind_eq_ok.1 h
  obtain ⟨current, -, h⟩ := Except.bind_eq_ok.1 h
  cases current with
  | none => cases h
  | some current => exact ⟨s, c, current, hsc, h⟩

theorem fileMasquerade_newFile {c : Config} {domain raw : String}
    (h : newFile E c current domain = .ok raw) (hyaml : E.KeepsMasquerade) :
    ∃ current', E.unmarshal raw = .ok (some current') ∧ fileMasquerade current' =
      if c.masquerade.type = "file" then some c.masquerade.dir else none := by
  obtain ⟨result, hresult, hraw⟩ := Except.bind_eq_ok.1 h
  obtain ⟨current', hun, heq⟩ := hyaml _ _ hraw
  exact ⟨current', hun, heq.trans (fileMasquerade_runtime hresult)⟩

/-- The file set in use after an apply is the one of its command. -/
theorem fileset_of_inUse {id : String} {h : Host} (hraw : newConfig E O command original = .ok raw)
    (hyaml : E.KeepsMasquerade) (hnames : NamesFileset E command)
    (hvalid : ∀ s, command.serverConfig = some s → s.masqueradeFilesetID ≠ "" →
      validID s.masqueradeFilesetID = true) (hconfig : h.config = some raw)
    (hbackup : h.backup = none) (hid : validID id = true) (huse : InUse E h id) :
    ∃ s, command.serverConfig = some s ∧ s.masqueradeFilesetID ≠ "" ∧
      join managedDirectory s.masqueradeFilesetID = join managedDirectory id := by
  obtain ⟨content, hcontent, current, dir, hcurrent, hdir, hclean⟩ := huse
  obtain rfl : raw = content := by
    rcases hcontent with hcontent | hcontent
    · exact Option.some.inj (hconfig.symm.trans hcontent)
    · rw [hbackup] at hcontent
      cases hcontent
  obtain ⟨s, c, _, haccept, hnew⟩ := of_newConfig hraw
  obtain ⟨hs, hc⟩ := of_accept haccept
  obtain ⟨current', hcurrent', hmasq⟩ := fileMasquerade_newFile hnew hyaml
  obtain rfl : current' = current :=
    Option.some.inj (Except.ok.inj (hcurrent'.symm.trans hcurrent))
  rw [hdir] at hmasq
  by_cases hfile : s.masqueradeFilesetID = ""
  · -- without a file set the masquerade is not below the managed directory
    rw [if_neg (not_not.2 hfile)] at hmasq
    split at hmasq
    · rename_i htype
      cases hmasq
      refine absurd hfile (hnames s c hs hc htype ?_)
      rw [hclean, toList_join_managed hid]
      exact ⟨id.toList, by simp⟩
    · cases hmasq
  · rw [if_pos hfile] at hmasq
    split at hmasq
    · cases hmasq
      exact ⟨s, hs, hfile, (clean_join_managed (hvalid s hs hfile)).symm.trans hclean⟩
    · cases hmasq

structure Committed (E : Environment) (O : Options) (D : EditServerConfig → Prop)
    (command : EditServerConfig) (raw : String) (w : ApplyWorld) : Prop where
  inv : Inv E O D w
  command : w.command = some command
  config : w.host.config = some raw
  backup : w.host.backup = none

theorem Committed.stable : Stable E O D (Committed E O D command raw) where
  view _ _ h hw := ⟨h.inv.of_sameView hw, hw.command.trans h.command,
    hw.files.config.trans h.config, hw.files.backup.trans h.backup⟩
  inv _ h := h.inv

theorem sameView_removeAll (paths : List String) {f : Outcome} :
    SameView w ((applySystem E O).perform (.removeAll paths) f w).2 := by
  cases hf : f.ok <;>
    exact ⟨by constructor <;> simp [applySystem, HostCall.perform, HostCall.effect, hf],
      rfl, rfl, rfl⟩

structure Planned (E : Environment) (O : Options) (command : EditServerConfig)
    (original raw : String) (keepPaths : List String) : Prop where
  raw : newConfig E O command original = .ok raw
  valid : ∀ s, command.serverConfig = some s → s.masqueradeFilesetID ≠ "" →
    validID s.masqueradeFilesetID = true
  keep : ∀ s, command.serverConfig = some s → s.masqueradeFilesetID ≠ "" →
    join managedDirectory s.masqueradeFilesetID ∈ keepPaths

theorem safe_cleanup {keepPaths : List String} (hw : Committed E O D command raw w)
    (hplan : Planned E O command original raw keepPaths) :
    Keeps E O D (cleanup keepPaths) (fun _ => Inv E O D) w := by
  have hlist : Only HostCall.Quiet
      (ExceptT.mk (ask .readDir) : HostM (Option (List (String × Bool)))).run := Only.ask trivial
  refine safe_quiet_then Committed.stable hlist hw fun listing w₁ h₁ => ?_
  cases listing with
  | none => exact keeps_pure h₁.inv
  | some entries =>
    refine Safe.forM (fun _ => Committed E O D command raw) ?_ (fun w h => h.inv) entries w₁ ?_
    · rintro ⟨name, isDir⟩ _ w h
      unfold removeSet
      split
      · exact keeps_pure h
      · rename_i hcond
        obtain ⟨hname, hkept⟩ : validID name = true ∧ name ∉ keptSets keepPaths := by
          simp only [Bool.or_eq_true, not_or, Bool.not_eq_true', List.contains_iff_mem] at hcond
          exact ⟨by simpa using hcond.1.2, hcond.2⟩
        refine safe_quiet_then Committed.stable (only_safePath _) h fun _ w₂ h₂ => ?_
        refine Safe.wrap (safe_ask fun f => ?_)
        have h₃ := Committed.stable.view _ _ h₂ (sameView_removeAll (E := E) (O := O) (f := f)
          [join managedDirectory name, join managedDirectory name ++ ".ready"])
        refine ⟨⟨h₃.inv, ?_⟩, ?_⟩
        · intro hyaml hD id hid hset hgone huse
          rw [host_perform] at hgone
          obtain rfl : id = name := by
            by_contra hne
            exact hgone (hset.removeAll hid hname hne)
          obtain ⟨s, hs, hfile, hjoin⟩ := fileset_of_inUse hplan.raw hyaml
            (hD command (h₂.inv.command command h₂.command)) hplan.valid h₂.config h₂.backup hid
            huse
          exact hkept (mem_keptSets hid (hjoin ▸ hplan.keep s hs hfile))
        · cases ((applySystem E O).perform (.removeAll [join managedDirectory name,
              join managedDirectory name ++ ".ready"]) f w₂).1 with
          | error e => exact h₃.inv
          | ok _ => exact h₃
    · rintro _ rfl
      exact h₁

section Install

variable {keepPaths : List String}

theorem safe_preserve (hw : Reading E O D command original backed w) :
    Keeps E O D (preserve backed)
      (fun _ w => Guarded E O D original [] w ∧ w.command = some command) w := by
  unfold preserve
  split
  · rename_i hbacked
    have hbackup := hw.backup
    rw [if_pos hbacked] at hbackup
    exact keeps_pure ⟨⟨hw.inv, hw.writes, hw.committed, hbackup⟩, hw.command⟩
  · rename_i hbacked
    have hbackup := hw.backup
    rw [if_neg hbacked] at hbackup
    have hkept := hw.inv.kept
    rw [ApplyWorld.Kept, hbackup] at hkept
    refine Safe.wrap (safe_ask_keep (c := .copyBackup) nofun fun f => ?_)
    rw [perform_copyBackup (hkept.trans hw.committed)]
    cases f.ok with
    | false => exact ⟨hw.inv, hw.inv⟩
    | true =>
      have hdone : Guarded E O D original []
          { w with host := { w.host with backup := some original } } :=
        .mk' hw.inv.command hw.writes hw.committed rfl hw.inv.computed
      exact ⟨hdone.inv, hdone, hw.command⟩

theorem safe_replaceConfig (hw : Guarded E O D original [] w) (hcommand : w.command = some command)
    (hplan : Planned E O command original raw keepPaths) :
    Keeps E O D (replaceConfig E O original raw keepPaths) (fun _ => Inv E O D) w := by
  have hwrite := safe_write raw hw hcommand fun w' hcmd hcom hwr => by
    rw [ApplyWorld.Computed, hwr]
    exact ⟨command, original, hcmd, hcom, hplan.raw⟩
  refine Safe.andThen (hwrite.mono ?_)
  rintro (e | _) w₁ h₁
  · exact h₁
  refine Safe.andThen (Safe.result ((safe_quiet (I := fun w => Guarded E O D original [raw] w ∧
    w.command = some command ∧ w.host.config = some raw) ⟨fun _ _ h hv =>
      ⟨h.1.of_sameView hv, hv.command.trans h.2.1, hv.files.config.trans h.2.2⟩,
    fun _ h => h.1.inv⟩ only_restart h₁).mono ?_))
  rintro (e | _) w₂ h₂
  · exact safe_rollback h₂.1
  refine Safe.andThen (Safe.wrap (safe_ask_keep (c := .removeBackup) nofun fun f => ?_))
  rw [perform_removeBackup]
  cases f.ok with
  | false => exact ⟨h₂.1.inv, h₂.1.inv⟩
  | true =>
    have hdone : Committed E O D command raw
        ⟨{ w₂.host with backup := none }, w₂.commit, w₂.command, []⟩ := by
      refine ⟨⟨?_, trivial, h₂.1.inv.command⟩, h₂.2.1, h₂.2.2, rfl⟩
      change w₂.host.config = w₂.commit
      rw [ApplyWorld.commit, h₂.1.writes, h₂.2.2]
    refine ⟨hdone.inv, Safe.andThen (Safe.result ((safe_cleanup hdone hplan).mono ?_))⟩
    rintro r w₃ h₃
    exact keeps_pure (by cases r <;> exact h₃)

theorem safe_install (hw : Reading E O D command original backed w)
    (hplan : Planned E O command original raw keepPaths) :
    Keeps E O D (install E O original backed raw keepPaths) (fun _ => Inv E O D) w := by
  have hstat : Only HostCall.Quiet (ExceptT.mk (ask .statConfig) : HostM Unit).run :=
    Only.ask trivial
  refine safe_quiet_then Reading.stable hstat hw fun _ w₁ h₁ => ?_
  exact Safe.seq (safe_preserve h₁) fun _ w₂ h₂ =>
    safe_replaceConfig h₂.1 h₂.2 hplan

end Install

/-! ### The whole apply -/

theorem newConfig_eq {c : Config} (hsc : accept E O command = .ok (s, c))
    (hcurrent : E.unmarshal original = .ok (some current)) :
    newConfig E O command original = newFile E (if s.masqueradeFilesetID ≠ "" then
      withDir c (join managedDirectory s.masqueradeFilesetID) else c) current s.endpointHost := by
  simp only [newConfig, hsc, hcurrent]
  rfl

theorem safe_apply (hw : Started E O D command w) :
    Keeps E O D (apply E O command) (fun _ => Inv E O D) w := by
  refine keeps_check hw.inv fun sc hsc => ?_
  obtain ⟨s, c⟩ := sc
  refine Safe.seq (safe_readOriginal hw) fun r w₁ h₁ => ?_
  obtain ⟨original, backed⟩ := r
  refine keeps_check h₁.inv fun current hcurrent => ?_
  cases current with
  | none => exact keeps_throw h₁.inv
  | some current =>
    refine safe_quiet_then Reading.stable (only_checkCertificate current s.endpointHost) h₁
      fun _ w₂ h₂ => ?_
    refine Safe.seq (safe_stageFiles s c h₂) fun r w₃ h₃ => ?_
    obtain ⟨c', activeDir⟩ := r
    obtain ⟨hread, hfiles⟩ := h₃
    refine keeps_check hread.inv fun raw hraw => ?_
    have hnew : newConfig E O command original = .ok raw := by
      rw [newConfig_eq hsc hcurrent, ← hraw]
      rcases hfiles with ⟨hid, -, hdir, hc⟩ | ⟨hid, hc⟩
      · rw [if_pos hid, ← hdir, ← hc]
      · rw [if_neg (not_not.2 hid), ← hc]
    have hfileset : ∀ s', command.serverConfig = some s' → s'.masqueradeFilesetID ≠ "" →
        validID s'.masqueradeFilesetID = true ∧
          join managedDirectory s'.masqueradeFilesetID = activeDir := by
      intro s' hs' hne
      obtain rfl : s = s' := Option.some.inj ((of_accept hsc).1.symm.trans hs')
      rcases hfiles with ⟨-, hid, hdir, -⟩ | ⟨hid, -⟩
      · exact ⟨hid, hdir.symm⟩
      · exact absurd hid hne
    split
    · refine (safe_quiet Reading.stable only_healthy hread).mono ?_
      rintro (e | _) w₄ h₄ <;> exact h₄.inv
    · refine safe_install hread ⟨hnew, fun s' hs' hne => (hfileset s' hs' hne).1,
        fun s' hs' hne => ?_⟩
      rw [(hfileset s' hs' hne).2]
      exact List.mem_cons_self

theorem safe_editServerConfig {command : Option EditServerConfig} (hinv : Inv E O D w)
    (hcommand : w.command = command) (hwrites : w.writes = []) :
    Safe (applySetting E O D) (editServerConfig E O command) (fun _ => Inv E O D) w := by
  have hpure : ∀ (r : ServerConfigApplyResult) (w : ApplyWorld), Inv E O D w →
      Safe (applySetting E O D) (pure r) (fun _ => Inv E O D) w := by
    refine fun r w hw => safe_done.2 fun w' hr => ?_
    obtain rfl : w = w' := hr
    exact hw
  cases command with
  | none => exact hpure _ w hinv
  | some command =>
    refine Safe.bind ((safe_apply ⟨hinv, hcommand, hwrites⟩).mono ?_)
    rintro (e | _) w₁ h₁ <;> exact hpure _ w₁ h₁

end

/-! ## Every run -/

/-- The commands of the run satisfy `D`. -/
def Commands (D : EditServerConfig → Prop)
    (_ : Solo.Config HostCall HostCall.Reply ApplyWorld ServerConfigApplyResult)
    (e : Solo.Event Outcome Empty (Option EditServerConfig)) : Prop :=
  ∀ command, e = .start (some command) → D command

variable (D : EditServerConfig → Prop)

theorem applySystem_sound :
    Solo.Sound (applySystem E O) (applySetting E O D) (Inv E O D) (Inv E O D) (fun _ _ => True)
      (Commands D) where
  perform := rfl
  act _ e := e.elim
  idle w w' h hr := by
    obtain rfl : w = w' := hr
    exact h
  crash w w' h hr := by
    obtain rfl : w = w' := hr
    exact h
  guar _ _ h := h.1
  start s command w hm hidle hw := by
    cases hw
    have hinv : Inv E O D { s.world with command := command, writes := [] } :=
      ⟨hidle.kept, trivial, fun command' h => hm command' (by rw [← h])⟩
    exact ⟨hinv, (safe_editServerConfig hinv rfl rfl).mono fun _ _ h => ⟨h, trivial⟩⟩
  call _ _ _ _ _ _ := trivial
  stop _ _ _ _ _ h := h

theorem inv_start (h : Host) : Inv E O D (ApplyWorld.start h) := by
  refine ⟨?_, trivial, fun _ hc => by cases hc⟩
  unfold ApplyWorld.Kept ApplyWorld.start
  cases hb : h.backup <;> rfl

variable {E O} in
theorem good_run {D : EditServerConfig → Prop} {h : Host}
    {es : List (Solo.Event Outcome Empty (Option EditServerConfig))}
    {s : Solo.Config HostCall HostCall.Reply ApplyWorld ServerConfigApplyResult}
    (hes : ∀ command, .start (some command) ∈ es → D command)
    (hs : runs (Solo.step (applySystem E O)) ⟨.start h, none⟩ es = some s) :
    Solo.Good (applySetting E O D) (Inv E O D) (Inv E O D) (fun _ _ => True) s := by
  refine (applySystem_sound E O D).runs (along_of_forall fun e he _ command hcommand => ?_) hs
    (inv_start E O D h)
  exact hes command (hcommand ▸ he)

namespace ApplySample

/-- Libraries for which a configuration is the directory of its masquerade. -/
def environment : Environment where
  settings := ⟨fun s => if s = "30s" then some (30 * 10 ^ 9) else some (10 ^ 9), fun _ => none,
    fun _ => false⟩
  archives := ⟨fun _ => "", fun _ => .ok [], fun _ => .ok ()⟩
  decode c _ := .ok c
  unmarshal text := .ok (some (match text.toList with
    | 'f' :: dir => [("masquerade", .object [("type", .text "file"),
        ("file", .object [("dir", .text (String.ofList dir))])])]
    | _ => []))
  marshal current := .ok (match fileMasquerade current with
    | some dir => "f" ++ dir
    | none => "")
  pemDecode := some
  parseCertificate _ := .ok fun _ => .ok ()
  newRequest _ := .ok ()

def options : Options := ⟨"n", "/etc/hysteria/config.yaml", ""⟩

def command : EditServerConfig := ⟨"n", 1, some ⟨"", "localhost", "", []⟩⟩

/-- A command is applied, with `n` calls that work. -/
def applied (n : ℕ) : List (Solo.Event Outcome Empty (Option EditServerConfig)) :=
  .start (some command) :: List.replicate n (.call ⟨true, "", ""⟩)

def run (h : Host) (es : List (Solo.Event Outcome Empty (Option EditServerConfig))) :
    Option (Solo.Config HostCall HostCall.Reply ApplyWorld ServerConfigApplyResult) :=
  runs (Solo.step (applySystem environment options)) ⟨.start h, none⟩ es

end ApplySample

/-- While a masquerade of type `file` names a managed directory only with the id of its file set,
no step removes the directory of a file set that is in use. -/
theorem filesets_in_use_kept (hyaml : E.KeepsMasquerade) (h : Host)
    (es : List (Solo.Event Outcome Empty (Option EditServerConfig)))
    (s s' : Solo.Config HostCall HostCall.Reply ApplyWorld ServerConfigApplyResult)
    (hes : ∀ command, .start (some command) ∈ es → NamesFileset E command)
    (hs : runs (Solo.step (applySystem E O)) ⟨.start h, none⟩ es = some s)
    (e : Solo.Event Outcome Empty (Option EditServerConfig))
    (hstep : Solo.step (applySystem E O) s e = some s')
    (id : String) (hid : validID id = true) (huse : InUse E s.world.host id)
    (hset : s.world.host.HasSet id) : s'.world.host.HasSet id := by
  have hgood := good_run hes hs
  cases e with
  | act e => exact e.elim
  | start command =>
    obtain ⟨w, task⟩ := s
    have hhost : s'.world.host = w.host := by
      match task, hstep with
      | none, hstep | some (.done _), hstep => exact (Option.some.inj hstep) ▸ rfl
    rwa [hhost]
  | call f =>
    have hguar := (applySystem_sound E O (NamesFileset E)).guar_of_call hgood nofun hstep
    by_contra hgone
    exact hguar.2 hyaml (fun _ h => h) id hid hset hgone huse
  | stop =>
    cases hstep
    exact hset

namespace FilesetSample

/-- A ZIP archive with an empty `index.html`. -/
def archive : List UInt8 :=
  [80, 75, 3, 4, 20, 0, 0, 0, 0, 0, 0, 0, 33, 0, 0, 0, 0, 0, 0, 0, 0, 0, 0, 0, 0, 0, 10, 0, 0, 0,
    105, 110, 100, 101, 120, 46, 104, 116, 109, 108, 80, 75, 1, 2, 20, 3, 20, 0, 0, 0, 0, 0, 0, 0,
    33, 0, 0, 0, 0, 0, 0, 0, 0, 0, 0, 0, 0, 0, 10, 0, 0, 0, 0, 0, 0, 0, 0, 0, 0, 0, 164, 129, 0, 0,
    0, 0, 105, 110, 100, 101, 120, 46, 104, 116, 109, 108, 80, 75, 5, 6, 0, 0, 0, 0, 1, 0, 1, 0, 56,
    0, 0, 0, 40, 0, 0, 0, 0, 0]

/-- Its SHA-256 digest. -/
def newID : String := "5f95df18560bf906edbd088899746c8ed6baaad5291dcfe080b7e493f079b509"

/-- The id of another set. -/
def unusedID : String := String.ofList (List.replicate 64 'b')

/-- The configuration at the start. -/
def oldConfig : Object := [("acme", .object [("domains", .list [.text "vpn.example.com"])])]

def oldText : String := "acme:\n    domains:\n        - vpn.example.com\n"

def settingsText : String :=
  "\x7b\"quic\": \x7b\"initStreamReceiveWindow\": 65536, \"maxStreamReceiveWindow\": 65536, " ++
    "\"initConnReceiveWindow\": 65536, \"maxConnReceiveWindow\": 65536\x7d, " ++
    "\"masquerade\": \x7b\"type\": \"file\", \"dir\": \"/srv/www\"\x7d, " ++
    "\"protect_internal\": false\x7d"

def settings : Config :=
  { defaults with
    quic := { defaults.quic with
      initStreamReceiveWindow := 65536, maxStreamReceiveWindow := 65536,
      initConnReceiveWindow := 65536, maxConnReceiveWindow := 65536 }
    masquerade := { defaults.masquerade with type := "file", dir := "/srv/www" }
    protectInternal := false }

/-- The settings with the new set, over the configuration at the start. -/
def changedConfig : Object :=
  withDomain ((withDir settings (join managedDirectory newID)).withMasquerade
    (settings.overlay oldConfig)) "vpn.example.com"

/-- As `yaml.Marshal` writes it. -/
def changedText : String := "\n".intercalate
  ["acl:", "    inline: []", "acme:", "    domains:", "        - vpn.example.com", "bandwidth:",
    "    disableLossCompensation: false", "    down: 0 bps", "    up: 0 bps", "congestion:",
    "    bbrProfile: standard", "    type: bbr", "disableUDP: false",
    "ignoreClientBandwidth: false", "listen: :443", "masquerade:", "    file:",
    "        dir: " ++ join managedDirectory newID, "    forceHTTPS: false", "    listenHTTP: \"\"",
    "    listenHTTPS: \"\"", "    proxy:", "        insecure: false", "        rewriteHost: true",
    "        url: \"\"", "        xForwarded: false", "    string:", "        content: \"\"",
    "        headers: \x7b\x7d", "        statusCode: 200", "    type: file", "outbounds:",
    "    - direct:", "        fastOpen: false", "        mode: auto", "      name: direct",
    "      type: direct", "quic:", "    disablePathMTUDiscovery: false",
    "    disableStatelessReset: false", "    initConnReceiveWindow: 65536",
    "    initStreamReceiveWindow: 65536", "    maxConnReceiveWindow: 65536",
    "    maxIdleTimeout: 30s", "    maxIncomingStreams: 1024", "    maxStreamReceiveWindow: 65536",
    "sniff:", "    enable: false", "    rewriteDomain: false", "    tcpPorts: all",
    "    timeout: 2s", "    udpPorts: all", "speedTest: false", "udpIdleTimeout: 60s", ""]

/-- The libraries, on the texts of the sample. -/
def environment : Environment where
  settings := ⟨fun s => ([("30s", 30), ("60s", 60), ("10s", 10), ("2s", 2)].lookup s).map
    (· * 10 ^ 9), fun _ => none, fun _ => false⟩
  archives := ⟨fun _ => newID, fun _ => .ok [⟨"index.html", ""⟩], fun _ => .ok ()⟩
  decode _ _ := .ok settings
  unmarshal text := .ok (some (if text = changedText then changedConfig else oldConfig))
  marshal current :=
    if fileMasquerade current = some (join managedDirectory newID) then .ok changedText
    else .error "json: unsupported value"
  pemDecode _ := none
  parseCertificate _ := .error "x509: malformed certificate"
  newRequest _ := .ok ()

theorem unmarshal_changedText : environment.unmarshal changedText = .ok (some changedConfig) :=
  congrArg (fun current => Except.ok (some current)) (if_pos rfl)

theorem keepsMasquerade : environment.KeepsMasquerade := by
  intro current text htext
  obtain ⟨hdir, rfl⟩ : fileMasquerade current = some (join managedDirectory newID) ∧
      changedText = text := by
    replace htext : (if fileMasquerade current = some (join managedDirectory newID) then
        .ok changedText else .error "json: unsupported value") = Except.ok text := htext
    split at htext
    · rename_i hdir
      exact ⟨hdir, Except.ok.inj htext⟩
    · cases htext
  refine ⟨changedConfig, unmarshal_changedText, ?_⟩
  rw [hdir]
  decide +kernel

def command : EditServerConfig := ⟨"n", 2, some ⟨settingsText, "vpn.example.com", newID, archive⟩⟩

/-- The new set, which is complete. -/
def ready : List (String × FileNode) :=
  [(managedDirectory ++ "/" ++ newID, .dir),
    (managedDirectory ++ "/" ++ newID ++ ".ready", .regular newID)]

def host : Host :=
  ⟨some oldText, none, none,
    (managedDirectory, .dir) :: (managedDirectory ++ "/" ++ unusedID, .dir) :: ready⟩

/-- The command is applied, up to the removal of the other set. -/
def events : List (Solo.Event Outcome Empty (Option EditServerConfig)) :=
  .start (some command) :: List.replicate 24 (.call ⟨true, "", ""⟩)

def replaced : Host := { host with config := some changedText }

def cleaned : Host := { replaced with managed := (managedDirectory, .dir) :: ready }

def run : Option (Solo.Config HostCall HostCall.Reply ApplyWorld ServerConfigApplyResult) :=
  runs (Solo.step (applySystem environment ApplySample.options)) ⟨.start host, none⟩ events

theorem run_eq : (run.bind fun s => (Solo.step (applySystem environment ApplySample.options) s
    (.call ⟨true, "", ""⟩)).map fun s' => (s.world.host, s'.world.host)) =
      some (replaced, cleaned) := by
  decide +kernel

theorem validID_newID : validID newID = true := by decide +kernel

theorem inUse_replaced : InUse environment replaced newID :=
  ⟨_, .inl rfl, changedConfig, join managedDirectory newID, unmarshal_changedText,
    by decide +kernel, clean_join_managed validID_newID⟩

theorem namesFileset_command : NamesFileset environment command := by
  intro s c hs _ _ _
  cases hs
  decide

end FilesetSample

open FilesetSample in
/-- The set of the configuration stays when the one that is not used is removed. -/
theorem filesets_in_use_kept_cleanup :
    ∃ s s', run = some s ∧
      Solo.step (applySystem environment ApplySample.options) s (.call ⟨true, "", ""⟩) = some s' ∧
      InUse environment s.world.host newID ∧ s.world.host.HasSet unusedID ∧
      ¬ s'.world.host.HasSet unusedID ∧ s'.world.host.HasSet newID := by
  obtain ⟨s, hs, hnext⟩ := Option.bind_eq_some_iff.1 run_eq
  obtain ⟨s', hstep, hhosts⟩ := Option.map_eq_some_iff.1 hnext
  obtain ⟨hworld, hworld'⟩ := Prod.mk.inj hhosts
  have huse : InUse environment s.world.host newID := hworld ▸ inUse_replaced
  refine ⟨s, s', hs, hstep, huse, ?_, ?_, ?_⟩
  · rw [hworld]
    unfold Host.HasSet
    decide +kernel
  · rw [hworld']
    unfold Host.HasSet
    decide +kernel
  · refine filesets_in_use_kept environment ApplySample.options keepsMasquerade host events s s' ?_
      hs _ hstep newID validID_newID huse ?_
    · intro command' hcommand
      obtain rfl : command' = command := by simpa [events] using hcommand
      exact namesFileset_command
    · rw [hworld]
      unfold Host.HasSet
      decide +kernel

end LazGate.Hysteria
