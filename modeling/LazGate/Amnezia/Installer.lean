import LazGate.Text

/-!
# The steps of an AmneziaWG installation

`ExecuteAWGStep` of `internal/server/provisioning/awg.go`, followed from message to message as
`AWGInstallHandler` does. The host, the clock and the store may answer anything. What is left of
the state is what decides about the steps; scripts, identities and the configuration of the node
are passed through.
-/

namespace LazGate.AWGInstall

/-! ## One step -/

inductive Step where
  | prepare
  | launch
  | poll
  | handoff
  | register
  | agent
  | verify
  | waitAgent
  | done
  deriving DecidableEq

/-- The kinds of errors that `retryableAWGSSH` looks for, and all others. -/
inductive ErrorKind where
  | connection
  | exitMissing
  | network
  | other
  deriving DecidableEq

structure CallError where
  kind : ErrorKind
  text : String

def retryableAWGSSH (err : Option CallError) : Bool := err.any (·.kind ≠ .other)

/-- `AWGState`; `hasSettings` says that `Input.Settings` is there. -/
structure State where
  hasSettings : Bool
  bootID : String
  runs : ℕ
  deadline : ℤ

/-- The state that `BootstrapAWG` makes. -/
def State.start (hasSettings : Bool) (deadline : ℤ) : State := ⟨hasSettings, "", 0, deadline⟩

structure NodeRuntime where
  agentStatus : String
  serviceStatus : String
  lastHeartbeatAt : Option ℤ

structure NodeConfig where
  configVersionMS : ℤ
  appliedConfigVersionMS : ℤ
  configErrorID : String

/-- What one step gets to see: the clock at its start, the output and the error of its host
command, the errors of what it does beside, the store, and the clock of `time.Since`. -/
structure Answers where
  now : ℤ
  run : String × Option CallError
  imported : Option CallError
  applied : Option CallError
  registered : Option CallError
  script : Option CallError
  runtime : Option NodeRuntime
  nodeConfig : Option NodeConfig
  later : ℤ

/-- `AWGStepResult`, with the wait in seconds. -/
structure StepResult where
  state : State
  next : Option Step
  wait : ℕ
  done : Bool

def failureCodes : List String :=
  ["UNSUPPORTED_OS", "UNSUPPORTED_KERNEL", "MISSING_KERNEL_HEADERS", "DKMS_BUILD_FAILED",
    "REBOOT_TIMEOUT", "SSH_CONNECTION_FAILED", "AWG_INTERFACE_FAILED",
    "FIREWALL_CONFIGURATION_FAILED", "AGENT_INSTALL_FAILED", "AGENT_CONNECTION_FAILED",
    "INSTALLER_FAILED"]

def awgFailureCode (step : Step) (err : CallError) : String :=
  (failureCodes.find? fun code => code.toList <:+: err.text.toList).getD <|
    match step with
    | .prepare => "INSTALLER_DOWNLOAD_FAILED"
    | .agent => "AGENT_INSTALL_FAILED"
    | .verify | .handoff => "AWG_INTERFACE_FAILED"
    | .waitAgent => "AGENT_CONNECTION_FAILED"
    | _ => "INSTALLER_FAILED"

/-- `strings.Fields`. -/
def fields (s : String) : List String :=
  ((s.toList.splitOnP isSpace).filter (· ≠ [])).map String.ofList

/-- The case of `awg.install.poll`. -/
def poll (a : Answers) (s : State) : StepResult × Option CallError :=
  if a.run.2.isSome then
    if retryableAWGSSH a.run.2 then (⟨s, some .poll, 10, false⟩, none)
    else (⟨s, none, 0, false⟩, a.run.2)
  else
    match fields a.run.1 with
    | [boot, step, code] =>
      -- the finish step removes the state file before it exits
      if (step = "absent" ∨ step = "99") ∧ code = "0" then (⟨s, some .handoff, 0, false⟩, none)
      else if boot ≠ s.bootID ∧ (step = "2" ∨ step = "3") then
        (⟨{ s with bootID := boot }, some .launch, 0, false⟩, none)
      else if code = "running" ∨ ((step = "2" ∨ step = "3") ∧ code = "1") then
        (⟨s, some .poll, 10, false⟩, none)
      else
        (⟨s, none, 0, false⟩, some ⟨.other, "INSTALLER_FAILED: step " ++ step ++ " exited " ++ code
          ++ "; inspect root-only installer journal"⟩)
    | _ => (⟨s, none, 0, false⟩, some ⟨.other, "INSTALLER_FAILED: malformed installer status"⟩)

def NodeRuntime.live (later : ℤ) (r : NodeRuntime) : Bool :=
  r.agentStatus == "online" && r.serviceStatus == "active" &&
    r.lastHeartbeatAt.any fun t => later - t ≤ 90 * 10 ^ 9

/-- The case of `awg.install.wait_agent`. -/
def waitAgent (a : Answers) (s : State) : StepResult × Option CallError :=
  if !a.runtime.any (·.live a.later) then (⟨s, some .waitAgent, 5, false⟩, none)
  else if s.hasSettings then
    match a.nodeConfig with
    | none => (⟨s, some .waitAgent, 5, false⟩, none)
    | some config =>
      if config.appliedConfigVersionMS < config.configVersionMS then
        if config.configErrorID ≠ "" then
          (⟨s, none, 0, false⟩, some ⟨.other, "AWG_INTERFACE_FAILED: settings were not applied"⟩)
        else (⟨s, some .waitAgent, 5, false⟩, none)
      else (⟨s, some .done, 0, false⟩, none)
  else (⟨s, some .done, 0, false⟩, none)

/-- The cases of `ExecuteAWGStep`: the result, the error, and how many host commands were run. -/
def perform (a : Answers) (s : State) : Step → (StepResult × Option CallError) × ℕ
  | .prepare =>
    ((⟨{ s with bootID := trimSpace a.run.1 }, some .launch, 0, false⟩, a.run.2), 1)
  | .launch =>
    ((⟨{ s with runs := if a.run.2.isNone then s.runs + 1 else s.runs }, some .poll, 10, false⟩,
      a.run.2), 1)
  | .poll => (poll a s, 1)
  | .handoff =>
    ((⟨s, some .register, 0, false⟩,
      a.run.2 <|> a.imported <|> if s.hasSettings then a.applied else none), 1)
  | .register => ((⟨s, some .agent, 0, false⟩, a.registered), 0)
  | .agent =>
    if a.script.isSome then ((⟨s, some .verify, 0, false⟩, a.script), 0)
    else ((⟨s, some .verify, 0, false⟩, a.run.2), 1)
  | .verify => ((⟨s, some .waitAgent, 0, false⟩, a.run.2), 1)
  | .waitAgent => (waitAgent a s, 0)
  | .done => ((⟨s, none, 0, true⟩, none), 0)

/-- What a step comes to, with the number of its host commands. -/
structure Outcome where
  result : StepResult
  error : Option String
  commands : ℕ

def executeAWGStep (a : Answers) (step : Step) (s : State) : Outcome :=
  if s.deadline < a.now then
    ⟨⟨s, none, 0, false⟩, some "REBOOT_TIMEOUT: provisioning deadline exceeded", 0⟩
  else if step = .launch ∧ 4 ≤ s.runs then
    ⟨⟨s, none, 0, false⟩, some "INSTALLER_FAILED: installer resume limit exceeded", 0⟩
  else
    let ((result, err), commands) := perform a s step
    if retryableAWGSSH err then ⟨{ result with next := some step, wait := 10 }, none, commands⟩
    else
      match err with
      | some e =>
        ⟨result, some (awgFailureCode step e ++ ": check the root-only host journal"), commands⟩
      | none => ⟨result, none, commands⟩

/-! ## From message to message -/

structure Visit where
  step : Step
  state : State
  answers : Answers

namespace Visit

def outcome (v : Visit) : Outcome := executeAWGStep v.answers v.step v.state

/-- The message that `Handle` enqueues next. -/
def following (v : Visit) : Option (Step × State) :=
  if v.outcome.error.isSome || v.outcome.result.done then none
  else v.outcome.result.next.map fun step => (step, v.outcome.result.state)

/-- The installer was launched without an error. -/
def launches (v : Visit) : Bool :=
  v.step = .launch && v.outcome.commands = 1 && v.answers.run.2.isNone

/-- The boot id, the step and the exit code that a poll has reported. -/
def polled (v : Visit) : Option (String × String × String) :=
  if v.step = .poll ∧ v.outcome.commands = 1 ∧ v.answers.run.2.isNone then
    match fields v.answers.run.1 with
    | [boot, step, code] => some (boot, step, code)
    | _ => none
  else none

/-- A poll after a reboot, in the middle of the installation. -/
def Rebooted (bootID : String) (v : Visit) : Prop :=
  ∃ boot step code, v.polled = some (boot, step, code) ∧ boot ≠ bootID ∧ (step = "2" ∨ step = "3")

def Finished (v : Visit) : Prop :=
  ∃ boot step, v.polled = some (boot, step, "0") ∧ (step = "absent" ∨ step = "99")

def Sees (hasSettings : Bool) (v : Visit) : Prop :=
  v.step = .waitAgent ∧ (∃ r, v.answers.runtime = some r ∧ r.live v.answers.later = true) ∧
    (hasSettings = true → ∃ config, v.answers.nodeConfig = some config ∧
      config.configVersionMS ≤ config.appliedConfigVersionMS)

end Visit

/-- The steps that are executed from a message on, for a sequence of answers. -/
def visits (step : Step) (s : State) : List Answers → List Visit
  | [] => []
  | a :: rest =>
    ⟨step, s, a⟩ ::
      match (Visit.mk step s a).following with
      | none => []
      | some (step', s') => visits step' s' rest

/-- How a message leads to the next one. -/
inductive Moves (v : Visit) : Step → State → Prop
  | again : v.launches = false → Moves v v.step v.state
  | prepared {step : Step} (boot : String) : v.step = .prepare → step = .prepare ∨ step = .launch →
    Moves v step { v.state with bootID := boot }
  | launched : v.launches = true → Moves v .poll { v.state with runs := v.state.runs + 1 }
  | finished : v.step = .poll → v.Finished → Moves v .handoff v.state
  | rebooted (boot : String) : v.step = .poll → v.Rebooted v.state.bootID →
    Moves v .launch { v.state with bootID := boot }
  | onward {step : Step} : v.step ≠ .prepare → v.step ≠ .launch →
    step ∈ [Step.register, .agent, .verify, .waitAgent] → Moves v step v.state
  | seen : v.Sees v.state.hasSettings → Moves v .done v.state

variable {v : Visit} {step : Step} {s : State}

theorem Visit.launches_of_ne (h : v.step ≠ .launch) : v.launches = false := by
  simp [launches, h]

/-- A step with a message after it was in time, and has succeeded or is to be tried again. -/
theorem Visit.following_cases (h : v.following = some (step, s)) :
    ∃ result err, perform v.answers v.state v.step = ((result, err), v.outcome.commands) ∧
      s = result.state ∧
      (retryableAWGSSH err = true ∧ step = v.step ∨ err = none ∧ result.next = some step) := by
  have hlate : ¬ v.state.deadline < v.answers.now := by
    intro hlate
    simp [following, outcome, executeAWGStep, hlate] at h
  have hlimit : ¬ (v.step = .launch ∧ 4 ≤ v.state.runs) := by
    intro hlimit
    simp [following, outcome, executeAWGStep, hlate, hlimit] at h
  obtain ⟨⟨⟨result, err⟩, commands⟩, hperform⟩ : ∃ r, perform v.answers v.state v.step = r :=
    ⟨_, rfl⟩
  refine ⟨result, err, ?_⟩
  simp only [following, outcome, executeAWGStep, if_neg hlate, if_neg hlimit, hperform] at h ⊢
  cases hretry : retryableAWGSSH err with
  | true =>
    simp only [hretry, if_true] at h ⊢
    obtain ⟨-, hnext⟩ := Option.ite_none_left_eq_some.1 h
    cases hnext
    exact ⟨trivial, rfl, .inl ⟨trivial, rfl⟩⟩
  | false =>
    cases err with
    | some e => simp [hretry] at h
    | none =>
      simp only [hretry, Bool.false_eq_true, if_false] at h ⊢
      obtain ⟨-, hnext⟩ := Option.ite_none_left_eq_some.1 h
      obtain ⟨next, hsome, hpair⟩ := Option.map_eq_some_iff.1 hnext
      cases hpair
      exact ⟨trivial, rfl, .inr ⟨trivial, hsome⟩⟩

variable {result : StepResult}

theorem moves_of_poll (hstep : v.step = .poll) (hcommands : v.outcome.commands = 1)
    (hr : poll v.answers v.state = (result, none))
    (hnext : result.next = some step) : Moves v step result.state := by
  have hagain : Moves v .poll v.state :=
    hstep ▸ Moves.again (Visit.launches_of_ne (by simp [hstep]))
  unfold poll at hr
  split at hr
  · rename_i hsome
    split at hr
    · cases hr
      cases hnext
      exact hagain
    · rw [(Prod.mk.inj hr).2] at hsome
      cases hsome
  · rename_i hrun
    have hpolled : v.polled = _ := if_pos ⟨hstep, hcommands, by simpa using hrun⟩
    split at hr
    · rename_i boot installed code hfields
      simp only [hfields] at hpolled
      split at hr
      · rename_i hfinished
        cases hr
        cases hnext
        exact .finished hstep ⟨boot, installed, hfinished.2 ▸ hpolled, hfinished.1⟩
      split at hr
      · rename_i hreboot
        cases hr
        cases hnext
        exact .rebooted boot hstep ⟨boot, installed, code, hpolled, hreboot⟩
      split at hr <;> cases hr
      cases hnext
      exact hagain
    · cases hr

theorem moves_of_waitAgent (hstep : v.step = .waitAgent)
    (hr : waitAgent v.answers v.state = (result, none)) (hnext : result.next = some step) :
    Moves v step result.state := by
  have hagain : Moves v .waitAgent v.state :=
    hstep ▸ Moves.again (Visit.launches_of_ne (by simp [hstep]))
  unfold waitAgent at hr
  split at hr
  · cases hr
    cases hnext
    exact hagain
  · rename_i hlive
    rw [Bool.not_eq_true, Bool.not_eq_false', Option.any_eq_true] at hlive
    obtain ⟨r, hruntime, hlive⟩ := hlive
    split at hr
    · split at hr
      · cases hr
        cases hnext
        exact hagain
      · rename_i config hconfig
        split at hr
        · split at hr <;> cases hr
          cases hnext
          exact hagain
        · rename_i happlied
          cases hr
          cases hnext
          exact .seen ⟨hstep, ⟨r, hruntime, hlive⟩, fun _ => ⟨config, hconfig, not_lt.1 happlied⟩⟩
    · rename_i hnone
      cases hr
      cases hnext
      exact .seen ⟨hstep, ⟨r, hruntime, hlive⟩, fun h => absurd h hnone⟩

theorem retryableAWGSSH_poll (a : Answers) (s : State) :
    retryableAWGSSH (poll a s).2 = false := by
  unfold poll
  repeat' split
  all_goals simp_all [retryableAWGSSH]

theorem retryableAWGSSH_waitAgent (a : Answers) (s : State) :
    retryableAWGSSH (waitAgent a s).2 = false := by
  unfold waitAgent
  repeat' split
  all_goals simp_all [retryableAWGSSH]

/-- Every message comes from the one before by one of the moves. -/
theorem moves_of_following (h : v.following = some (step, s)) : Moves v step s := by
  obtain ⟨result, err, hperform, rfl, hcase⟩ := Visit.following_cases h
  generalize hcommands : v.outcome.commands = commands at hperform
  -- the steps after the poll keep the state, whether they are to be tried again or not
  have hkeep : result.state = v.state → v.step ≠ .prepare → v.step ≠ .launch →
      (∀ next, result.next = some next → next ∈ [Step.register, .agent, .verify, .waitAgent]) →
      Moves v step result.state := by
    intro hstate hprepare hlaunch hlater
    rw [hstate]
    rcases hcase with ⟨-, rfl⟩ | ⟨-, hnext⟩
    · exact .again (Visit.launches_of_ne hlaunch)
    · exact .onward hprepare hlaunch (hlater step hnext)
  cases hstep : v.step with
  | prepare =>
    rw [hstep] at hperform
    cases hperform
    refine .prepared _ hstep ?_
    rcases hcase with ⟨-, rfl⟩ | ⟨-, hnext⟩
    · exact .inl hstep
    · cases hnext
      exact .inr rfl
  | launch =>
    rw [hstep] at hperform
    cases hperform
    rcases hcase with ⟨hretry, rfl⟩ | ⟨hnone, hnext⟩
    · have hsome : v.answers.run.2.isNone = false := by
        cases herr : v.answers.run.2 with
        | none => rw [herr] at hretry; cases hretry
        | some e => rfl
      simp only [hsome, Bool.false_eq_true, if_false]
      exact .again (by simp [Visit.launches, hsome])
    · cases hnext
      simp only [hnone, Option.isNone_none, if_true]
      exact .launched (by simp [Visit.launches, hstep, hcommands, hnone])
  | poll =>
    rw [hstep] at hperform
    obtain ⟨hr, rfl⟩ := Prod.mk.inj hperform
    rcases hcase with ⟨hretry, -⟩ | ⟨rfl, hnext⟩
    · cases hretry.symm.trans (hr ▸ retryableAWGSSH_poll v.answers v.state)
    · exact moves_of_poll hstep hcommands hr hnext
  | waitAgent =>
    rw [hstep] at hperform
    obtain ⟨hr, rfl⟩ := Prod.mk.inj hperform
    rcases hcase with ⟨hretry, -⟩ | ⟨rfl, hnext⟩
    · cases hretry.symm.trans (hr ▸ retryableAWGSSH_waitAgent v.answers v.state)
    · exact moves_of_waitAgent hstep hr hnext
  | done =>
    rw [hstep] at hperform
    cases hperform
    rcases hcase with ⟨hretry, -⟩ | ⟨-, hnext⟩
    · cases hretry
    · cases hnext
  | agent =>
    rw [hstep] at hperform
    simp only [perform] at hperform
    split at hperform <;> cases hperform <;>
      exact hkeep rfl (by simp [hstep]) (by simp [hstep]) (by simp)
  | handoff | register | verify =>
    rw [hstep] at hperform
    cases hperform
    exact hkeep rfl (by simp [hstep]) (by simp [hstep]) (by simp)

/-! ## Every installation -/

/-- What holds when a message is handled, after the steps `before` it. -/
structure Inv (hasSettings : Bool) (before : List Visit) (step : Step) (s : State) : Prop where
  settings : s.hasSettings = hasSettings
  runs : before.countP Visit.launches = s.runs
  few : s.runs ≤ 4
  /-- Since the last launch, the boot id is as it was or a poll has seen another one. -/
  boots : ∀ l₁ v l₂, before = l₁ ++ v :: l₂ → v.launches = true →
    (∃ p ∈ l₂, p.Rebooted v.state.bootID) ∨
      step ≠ .prepare ∧ step ≠ .launch ∧ s.bootID = v.state.bootID
  finished : step = .handoff → ∃ p ∈ before, p.Finished
  seen : step = .done → ∃ p ∈ before, p.Sees hasSettings

theorem Visit.runs_lt_of_launches (h : v.launches = true) : v.state.runs < 4 := by
  by_contra hruns
  simp only [launches, outcome, executeAWGStep, Bool.and_eq_true, decide_eq_true_eq] at h
  obtain ⟨⟨hstep, hcommands⟩, -⟩ := h
  split at hcommands
  · cases hcommands
  · rw [if_pos ⟨hstep, not_lt.1 hruns⟩] at hcommands
    cases hcommands

theorem Visit.step_of_launches (h : v.launches = true) : v.step = .launch := by
  by_contra hne
  rw [launches_of_ne hne] at h
  cases h

variable {hasSettings : Bool} {before : List Visit}

/-- The invariant after a step, from what the step has done. -/
theorem Inv.next (h : Inv hasSettings before v.step v.state)
    (hsettings : s.hasSettings = v.state.hasSettings)
    (hruns : s.runs = v.state.runs + if v.launches then 1 else 0) (hlaunch : v.launches = true →
      step ≠ .prepare ∧ step ≠ .launch ∧ s.bootID = v.state.bootID)
    (hboot : v.step ≠ .prepare → v.step ≠ .launch → v.Rebooted v.state.bootID ∨
      step ≠ .prepare ∧ step ≠ .launch ∧ s.bootID = v.state.bootID)
    (hfinished : step = .handoff → v.Finished ∨ v.step = .handoff)
    (hseen : step = .done → v.Sees hasSettings ∨ v.step = .done) :
    Inv hasSettings (before ++ [v]) step s where
  settings := hsettings.trans h.settings
  runs := by rw [List.countP_append, List.countP_singleton, h.runs, hruns]
  few := by
    have hfew := h.few
    rw [hruns]
    split
    · exact Visit.runs_lt_of_launches ‹_›
    · exact hfew
  boots l₁ w l₂ hsplit hw := by
    rcases l₂.eq_nil_or_concat' with rfl | ⟨l, x, rfl⟩
    · obtain ⟨-, hlast⟩ := List.append_inj' hsplit rfl
      cases hlast
      exact .inr (hlaunch hw)
    · rw [← List.cons_append, ← List.append_assoc] at hsplit
      obtain ⟨hbefore, hlast⟩ := List.append_inj' hsplit rfl
      cases hlast
      rcases h.boots l₁ w l hbefore hw with ⟨p, hp, hreboot⟩ | ⟨hprepare, hne, hid⟩
      · exact .inl ⟨p, List.mem_append_left _ hp, hreboot⟩
      · rcases hboot hprepare hne with hreboot | ⟨hprepare', hne', hid'⟩
        · exact .inl ⟨v, by simp, hid ▸ hreboot⟩
        · exact .inr ⟨hprepare', hne', hid'.trans hid⟩
  finished hstep := by
    rcases hfinished hstep with hv | hbefore
    · exact ⟨v, by simp, hv⟩
    · obtain ⟨p, hp, hfin⟩ := h.finished hbefore
      exact ⟨p, List.mem_append_left _ hp, hfin⟩
  seen hstep := by
    rcases hseen hstep with hv | hbefore
    · exact ⟨v, by simp, hv⟩
    · obtain ⟨p, hp, hsees⟩ := h.seen hbefore
      exact ⟨p, List.mem_append_left _ hp, hsees⟩

theorem Inv.moves (h : Inv hasSettings before v.step v.state) (hmove : Moves v step s) :
    Inv hasSettings (before ++ [v]) step s := by
  cases hmove with
  | again hidle =>
    refine h.next rfl (by simp [hidle]) (fun hl => ?_) (fun h₁ h₂ => .inr ⟨h₁, h₂, rfl⟩) .inr .inr
    rw [hidle] at hl
    cases hl
  | prepared boot hstep hnext =>
    have hidle : v.launches = false := Visit.launches_of_ne (by simp [hstep])
    refine h.next rfl (by simp [hidle]) (by simp [hidle]) (fun h₁ => absurd hstep h₁) ?_ ?_ <;>
      · rintro rfl
        simp at hnext
  | launched hl =>
    have hstep := Visit.step_of_launches hl
    exact h.next rfl (by simp [hl]) (fun _ => by simp) (fun _ h₂ => absurd hstep h₂) (by simp)
      (by simp)
  | finished hstep hfin =>
    have hidle : v.launches = false := Visit.launches_of_ne (by simp [hstep])
    exact h.next rfl (by simp [hidle]) (by simp [hidle]) (fun _ _ => .inr (by simp))
      (fun _ => .inl hfin) (by simp)
  | rebooted boot hstep hreboot =>
    have hidle : v.launches = false := Visit.launches_of_ne (by simp [hstep])
    exact h.next rfl (by simp [hidle]) (by simp [hidle]) (fun _ _ => .inl hreboot) (by simp)
      (by simp)
  | onward hprepare hlaunch hnext =>
    have hidle : v.launches = false := Visit.launches_of_ne hlaunch
    refine h.next rfl (by simp [hidle]) (by simp [hidle]) (fun _ _ => .inr ⟨?_, ?_, rfl⟩) ?_ ?_ <;>
      · rintro rfl
        simp at hnext
  | seen hsees =>
    have hidle : v.launches = false := Visit.launches_of_ne (by simp [hsees.1])
    exact h.next rfl (by simp [hidle]) (by simp [hidle]) (fun _ _ => .inr (by simp)) (by simp)
      (fun _ => .inl (h.settings ▸ hsees))

theorem Inv.visits (answers : List Answers) (h : Inv hasSettings before step s) {l₁ l₂ : List Visit}
    (hsplit : visits step s answers = l₁ ++ v :: l₂) :
    Inv hasSettings (before ++ l₁) v.step v.state := by
  induction answers generalizing before step s l₁ with
  | nil => simp [AWGInstall.visits] at hsplit
  | cons a rest ih =>
    rw [AWGInstall.visits] at hsplit
    cases l₁ with
    | nil =>
      cases (List.cons.inj hsplit).1
      simpa using h
    | cons w l =>
      obtain ⟨rfl, hrest⟩ := List.cons.inj hsplit
      split at hrest
      · simp at hrest
      · rename_i step' s' hfollowing
        have hnext := h.moves (v := ⟨step, s, a⟩) (moves_of_following hfollowing)
        simpa using ih hnext hrest

theorem Inv.start (hasSettings : Bool) (deadline : ℤ) :
    Inv hasSettings [] .prepare (.start hasSettings deadline) where
  settings := rfl
  runs := rfl
  few := by simp [State.start]
  boots l₁ v l₂ hsplit := by simp at hsplit
  finished h := by cases h
  seen h := by cases h

/-- Whatever the host, the clock and the store answer: at most four launches succeed, between two of
them a poll has seen another boot id in the middle of the installation, a step that starts after
the deadline runs no host command, the handoff comes after a poll that found the installer
finished, and the end after a wait that saw a live agent with the settings applied. -/
theorem installation_steps (hasSettings : Bool) (deadline : ℤ) (answers : List Answers) :
    (visits .prepare (.start hasSettings deadline) answers).countP Visit.launches ≤ 4 ∧
      (∀ l₁ v l₂ w l₃,
        visits .prepare (.start hasSettings deadline) answers = l₁ ++ v :: (l₂ ++ w :: l₃) →
        v.launches = true → w.launches = true → ∃ p ∈ l₂, p.Rebooted v.state.bootID) ∧
      (∀ v ∈ visits .prepare (.start hasSettings deadline) answers,
        v.state.deadline < v.answers.now → v.outcome.commands = 0) ∧
      ∀ l₁ v l₂, visits .prepare (.start hasSettings deadline) answers = l₁ ++ v :: l₂ →
        (v.step = .handoff → ∃ p ∈ l₁, p.Finished) ∧
        (v.step = .done → ∃ p ∈ l₁, p.Sees hasSettings) := by
  have hinv : ∀ l₁ v l₂, visits .prepare (.start hasSettings deadline) answers = l₁ ++ v :: l₂ →
      Inv hasSettings l₁ v.step v.state :=
    fun l₁ v l₂ hsplit => (Inv.start hasSettings deadline).visits answers hsplit
  refine ⟨?_, fun l₁ v l₂ w l₃ hsplit hv hw => ?_, fun v _ hlate => ?_, fun l₁ v l₂ hsplit => ?_⟩
  · rcases (visits .prepare (.start hasSettings deadline) answers).eq_nil_or_concat' with
      hnil | ⟨l, v, hlast⟩
    · simp [hnil]
    · have h := hinv l v [] hlast
      have hfew := h.few
      rw [hlast, List.countP_append, List.countP_singleton, h.runs]
      split
      · exact Visit.runs_lt_of_launches ‹_›
      · exact hfew
  · have h := hinv (l₁ ++ v :: l₂) w l₃ (by simpa using hsplit)
    rcases h.boots l₁ v l₂ rfl hv with hreboot | ⟨-, hne, -⟩
    · exact hreboot
    · exact absurd (Visit.step_of_launches hw) hne
  · simp [Visit.outcome, executeAWGStep, hlate]
  · have h := hinv l₁ v l₂ hsplit
    exact ⟨h.finished, h.seen⟩

end LazGate.AWGInstall
