import LazGate.Agent.Runtimes

/-!
# When a failed pass moves the cursor

A full pass writes the cursor inside the transaction that replaces the identity table, before it
removes credentials, prunes peers and saves the cursor again. `cursor_kept_iff` says that this is
the only way in which a pass that fails can have moved the cursor.
-/

namespace LazGate

open Prog

variable {P : Type}

/-- How a call of a single pass turns out; a manifest request gets any answer at all. -/
structure Choice (P : Type) where
  outcome : Outcome
  page : Except String (Manifest P)

def performAny : (c : SyncCall P) → Choice P → Agent → c.Reply × Agent
  | .agent c, f, a => c.perform f.outcome a
  | .authManifest _, f, a => (f.page, a)

abbrev SyncTrace (P : Type) : Type := Trace (SyncCall P) SyncCall.Reply

namespace SyncTrace

def failed : (Σ c : SyncCall P, c.Reply) → Bool
  | ⟨_, .error _⟩ => true
  | ⟨_, .ok _⟩ => false

def commit : (Σ c : SyncCall P, c.Reply) → Bool
  | ⟨.agent (.applyFullAuthSnapshot ..), .ok _⟩ => true
  | _ => false

/-- Some call failed after a full snapshot was committed. -/
def failsAfterCommit : SyncTrace P → Bool
  | [] => false
  | e :: es => (commit e && es.any failed) || failsAfterCommit es

/-- The `manifest_started_at` of the first page of the pass. -/
def firstPage : SyncTrace P → Option ℤ
  | [] => none
  | ⟨.authManifest _, .ok m⟩ :: _ => some m.manifestStartedAt
  | _ :: es => firstPage es

end SyncTrace

/-- A pass alone, from an agent's state and with the given outcomes of its calls. -/
def CredentialSync.pass (s : CredentialSync P) (pageSize : ℤ) (order : MapOrder) (fuel : ℕ)
    (full : Bool) (σ : ℕ → Choice P) (a : Agent) : Except String Unit × Agent × SyncTrace P :=
  (s.runOnce pageSize order fuel full).run.exec (recorded performAny) σ 0 (a, [])

/-- A failed pass has left the cursor alone, and a successful one has set it to the
`manifest_started_at` of its first page. -/
def CursorKept (a : Agent) : Except String Unit × Agent × SyncTrace P → Prop
  | (.error _, a', _) => a'.cursor = a.cursor
  | (.ok _, a', trace) => ∃ t, SyncTrace.firstPage trace = some t ∧ a'.cursor = some (.int t)

/-! ## What a call does to the record -/

variable {T : Agent → Prop} {c : AgentCall} {es : SyncTrace P}

section Calls

variable {c0 : Option StateValue} {t : ℤ} {w : Agent × SyncTrace P}

theorem failsAfterCommit_append (es : SyncTrace P) (e : Σ c : SyncCall P, c.Reply) :
    SyncTrace.failsAfterCommit (es ++ [e]) =
      (SyncTrace.failsAfterCommit es || (es.any SyncTrace.commit && SyncTrace.failed e)) := by
  induction es with
  | nil => simp [SyncTrace.failsAfterCommit]
  | cons x es ih =>
    simp only [List.cons_append, SyncTrace.failsAfterCommit, ih, List.any_append, List.any_cons,
      List.any_nil, Bool.or_false]
    cases SyncTrace.commit x <;> cases SyncTrace.failed e <;> simp

theorem firstPage_append_of_some (h : SyncTrace.firstPage es = some t) (fs : SyncTrace P) :
    SyncTrace.firstPage (es ++ fs) = some t := by
  induction es with
  | nil => cases h
  | cons x es ih =>
    rcases x with ⟨c | r, e | m⟩
    · exact ih h
    · exact ih h
    · exact ih h
    · exact h

theorem firstPage_append_of_none (h : SyncTrace.firstPage es = none) (fs : SyncTrace P) :
    SyncTrace.firstPage (es ++ fs) = SyncTrace.firstPage fs := by
  induction es with
  | nil => rfl
  | cons x es ih =>
    rcases x with ⟨c | r, e | m⟩
    · exact ih h
    · exact ih h
    · exact ih h
    · cases h

/-- No snapshot is committed yet and the cursor is the old one. -/
def Before (c0 : Option StateValue) (w : Agent × SyncTrace P) : Prop :=
  w.1.cursor = c0 ∧ w.2.any SyncTrace.commit = false

/-- A snapshot with the cursor `t` is committed and nothing has failed since. -/
def Committed (t : ℤ) (w : Agent × SyncTrace P) : Prop :=
  w.1.cursor = some (.int t) ∧ SyncTrace.firstPage w.2 = some t ∧
    w.2.any SyncTrace.commit = true ∧ SyncTrace.failsAfterCommit w.2 = false

/-- A snapshot with the cursor `t` is committed and then something has failed. -/
def Broken (t : ℤ) (w : Agent × SyncTrace P) : Prop :=
  w.1.cursor = some (.int t) ∧ SyncTrace.firstPage w.2 = some t ∧
    SyncTrace.failsAfterCommit w.2 = true

theorem Before.failsAfterCommit (h : Before c0 w) : SyncTrace.failsAfterCommit w.2 = false := by
  have hc := h.2
  generalize w.2 = es at hc
  induction es with
  | nil => rfl
  | cons x es ih =>
    simp only [List.any_cons, Bool.or_eq_false_iff] at hc
    simp [SyncTrace.failsAfterCommit, hc.1, ih hc.2]

/-- A call that does not write `sync_state`. -/
def AgentCall.keepsState : AgentCall → Bool
  | .setState .. | .applyFullAuthSnapshot .. => false
  | _ => true

theorem AgentCall.state_perform (hc : c.keepsState) (f : Outcome) (a : Agent) :
    (c.perform f a).2.state = a.state := by
  have heff : ∀ r a', c.effect a = .ok (r, a') → a'.state = a.state := by
    intro r a' h
    cases c <;> simp [effect, Except.map, keepsState] at h hc <;> grind
  rcases c.perform_cases f a with ⟨r, a', he, hp⟩ | ⟨e, r, a', -, he, hp⟩ | ⟨e, hp⟩
  · rw [hp]; exact heff r a' he
  · rw [hp]; exact heff r a' he
  · rw [hp]

theorem AgentCall.commit_eq_false (hc : c.keepsState) (r : (SyncCall.agent (P := P) c).Reply) :
    SyncTrace.commit (⟨.agent c, r⟩ : Σ c : SyncCall P, c.Reply) = false := by
  cases c <;> first | rfl | cases hc

/-- A call that does not write `sync_state` and keeps `T`. -/
def Plain (T : Agent → Prop) : SyncCall P → Prop
  | .agent c => c.keepsState ∧ ∀ f a, T a → T (c.perform f a).2
  | .authManifest _ => False

abbrev passSetting (P : Type) :
    Setting (SyncCall P) SyncCall.Reply (Choice P) (Agent × SyncTrace P) :=
  alone (recorded performAny)

variable {c : SyncCall P}

section

variable (hc : Plain T c)

include hc

section

variable (f : Choice P)

include f

theorem cursor_plain :
    (recorded performAny c f w).2.1.cursor = w.1.cursor := by
  rcases c with c | r
  · exact congrArg (·[authSyncCursorKey]?) (AgentCall.state_perform hc.1 f.outcome w.1)
  · exact hc.elim

theorem plain_keeps (hT : T w.1) : T (recorded performAny c f w).2.1 := by
  rcases c with c | r
  · exact hc.2 f.outcome w.1 hT
  · exact hc.elim

theorem Before.plain (h : Before c0 w) : Before c0 (recorded performAny c f w).2 := by
  refine ⟨(cursor_plain hc f).trans h.1, ?_⟩
  rcases c with c | r
  · simp [recorded, h.2, AgentCall.commit_eq_false hc.1]
  · exact hc.elim

/-- After the commit a plain call either succeeds and all is well, or fails. -/
theorem Committed.plain (h : Committed t w) :
    match (recorded performAny c f w).1 with
    | .ok _ => Committed t (recorded performAny c f w).2
    | .error _ => Broken t (recorded performAny c f w).2 := by
  have hcur := (cursor_plain hc f).trans h.1
  have hpage : SyncTrace.firstPage (recorded performAny c f w).2.2 = some t :=
    firstPage_append_of_some h.2.1 _
  have hany : (recorded performAny c f w).2.2.any SyncTrace.commit = true := by
    simp [recorded, h.2.2.1]
  have hfails : SyncTrace.failsAfterCommit (recorded performAny c f w).2.2 =
      SyncTrace.failed ⟨c, (recorded performAny c f w).1⟩ := by
    rw [recorded, failsAfterCommit_append, h.2.2.2, h.2.2.1]
    rfl
  rcases hr : (recorded performAny c f w).1 with e | r
  · exact ⟨hcur, hpage, by rw [hfails, hr]; rfl⟩
  · exact ⟨hcur, hpage, hany, by rw [hfails, hr]; rfl⟩

end

end

end Calls

/-! ## A pass over a disciplined store and runtime -/

/-- A store and a runtime that write `sync_state` only where the pass does, and whose removals of
credentials that satisfy `Good` fail only if a call of theirs fails. -/
structure Disciplined (s : CredentialSync P) (user : CredentialChange P → AuthUser)
    (Good : AuthUser → Prop) (T : Agent → Prop) : Prop where
  shape : s.Shape user (Plain T)
  upsert : ∀ u, Plain (P := P) T (.agent (.upsertAuthUser u))
  delete : ∀ id, Plain (P := P) T (.agent (.deleteAuthUser id))
  replace : ∀ keep key t f a, T a → T ((AgentCall.applyFullAuthSnapshot keep key t).perform f a).2
  remove : ∀ u t w, Good u → Committed t w ∧ T w.1 →
    Safe (passSetting P) (s.runtime.removeCredential u).run
      (onOk (fun _ w => Committed t w ∧ T w.1) fun _ => Broken t) w
  reconcile : ∀ keep t w, Committed t w ∧ T w.1 →
    Safe (passSetting P) (s.runtime.reconcileCredentials keep).run
      (onOk (fun _ w => Committed t w ∧ T w.1) fun _ => Broken t) w

variable {p : CredentialPass} {t : ℤ} {w : Agent × SyncTrace P} (order : MapOrder)

section Pass

variable {c0 : Option StateValue} {Good : AuthUser → Prop} {T : Agent → Prop}
  {s : CredentialSync P} {user : CredentialChange P → AuthUser}

/-- An open pass whose first page started at `t`: nothing is committed. -/
def InPass (c0 : Option StateValue) (Good : AuthUser → Prop) (T : Agent → Prop) (t : ℤ)
    (pass : CredentialPass) (w : Agent × SyncTrace P) : Prop :=
  (Before c0 w ∧ T w.1 ∧ SyncTrace.firstPage w.2 = some t) ∧
    (∀ u ∈ users pass.current, Good u) ∧ ∀ u ∈ users pass.removed, Good u

/-- A pass that failed: before the commit, or after it. -/
def Failed (c0 : Option StateValue) (w : Agent × SyncTrace P) : Prop :=
  Before c0 w ∨ ∃ t, Broken t w

def cursorOutline (c0 : Option StateValue) (Good : AuthUser → Prop) (T : Agent → Prop) :
    Outline (CredentialChange P) CredentialPass (Agent × SyncTrace P) where
  ready _ _ w := Before c0 w ∧ T w.1 ∧ (∀ u ∈ w.1.users.list, Good u) ∧
    SyncTrace.firstPage w.2 = none
  first _ _ r w := (Before c0 w ∧ T w.1 ∧ SyncTrace.firstPage w.2 = some r.manifestStartedAtMS) ∧
    ∀ u ∈ w.1.users.list, Good u
  mid _ _ _ _ p w := InPass c0 Good T p.passCursor p.pass w
  finished p w := SyncTrace.firstPage w.2 = some p.passCursor ∧
    (Before c0 w ∨ Committed p.passCursor w)
  failed := Failed c0

theorem Only.before {α : Type} {p : Prog (SyncCall P) SyncCall.Reply α} (hp : Only (Plain T) p)
    (h : Before c0 w) (hT : T w.1) (hpage : SyncTrace.firstPage w.2 = some t) :
    Safe (passSetting P) p
      (fun _ w => Before c0 w ∧ T w.1 ∧ SyncTrace.firstPage w.2 = some t) w := by
  refine Only.safe hp ?_ ?_ ⟨h, hT, hpage⟩
  · rintro w w' hw rfl
    exact hw
  · rintro c f w hc - ⟨hb, hT, hpage⟩
    exact ⟨trivial, hb.plain hc f, plain_keeps hc f hT, firstPage_append_of_some hpage _⟩

/-- A page is fetched without a change to the agent; the first one names the cursor. -/
theorem Before.fetch (h : Before c0 w) (request : Request) :
    Safe (passSetting P) (fetchSyncPage request).run (fun r w' => Before c0 w' ∧ w'.1 = w.1 ∧
      (∀ t, SyncTrace.firstPage w.2 = some t → SyncTrace.firstPage w'.2 = some t) ∧
      (SyncTrace.firstPage w.2 = none → ∀ x, r = .ok x →
        SyncTrace.firstPage w'.2 = some x.manifestStartedAtMS)) w := by
  refine fetchSyncPage_safe (Safe.ask_alone fun f => ?_)
  refine ⟨⟨h.1, ?_⟩, rfl, fun t ht => firstPage_append_of_some ht _, fun hn x hx => ?_⟩
  · simp [recorded, h.2, SyncTrace.commit]
  · rw [recorded, firstPage_append_of_none hn]
    rcases hm : f.page with e | m
    · rw [recorded, performAny, hm] at hx
      cases hx
    · rw [recorded, performAny, hm] at hx
      rw [performAny, hm, (decodeManifest_eq_ok hx).1]
      rfl

theorem InPass.plain {α : Type} {x : Sync P α} {pass : CredentialPass}
    (h : InPass c0 Good T t pass w) (hx : Only (Plain T) x.run) :
    Safe (passSetting P) (x >>= fun _ => pure pass : Sync P CredentialPass).run
      (onOk (InPass c0 Good T t) fun _ => Failed c0) w := by
  obtain ⟨⟨hb, hT, hpage⟩, hgood⟩ := h
  refine Safe.andThen ((Only.before hx hb hT hpage).mono ?_)
  rintro (e | a) w' hw'
  · exact .inl hw'.1
  · refine Safe.ok ?_
    rintro w'' rfl
    exact ⟨hw', hgood⟩

theorem mem_users_removing {id : String} {u : AuthUser} (h : u ∈ users (p.removing id).removed) :
    u ∈ users p.current ∨ u ∈ users p.removed := by
  obtain ⟨i, hi⟩ := mem_users.1 h
  rw [p.getElem?_removed_removing] at hi
  split at hi
  · rcases Option.or_eq_some_iff.1 hi with h | h
    · exact .inl (mem_users.2 ⟨i, h⟩)
    · exact .inr (mem_users.2 ⟨i, h.2⟩)
  · exact .inr (mem_users.2 ⟨i, hi⟩)

theorem mem_users_leaving {u : AuthUser} (h : u ∈ users p.leaving) :
    u ∈ users p.current ∨ u ∈ users p.removed := by
  rcases hp : p.full with - | -
  · rw [p.leaving_incremental hp] at h
    exact .inr h
  · obtain ⟨id, hid⟩ := mem_users.1 h
    rw [p.getElem?_leaving_full hp] at hid
    split at hid
    · exact .inr (mem_users.2 ⟨id, hid⟩)
    · rcases Option.or_eq_some_iff.1 hid with h | h
      · exact .inl (mem_users.2 ⟨id, h⟩)
      · exact .inr (mem_users.2 ⟨id, h.2⟩)

namespace Disciplined

variable (D : Disciplined s user Good T)
include D

theorem beginSyncPass (full : Bool) (h : Before c0 w ∧ T w.1 ∧ SyncTrace.firstPage w.2 = some t)
    (hgood : ∀ u ∈ w.1.users.list, Good u) :
    Safe (passSetting P) (s.beginSyncPass full).run
      (onOk (InPass c0 Good T t) fun _ => Failed c0) w := by
  unfold CredentialSync.beginSyncPass
  rw [D.shape.list]
  refine Safe.andThen (Safe.ask_alone fun f => ?_)
  have hplain : Plain (P := P) T (.agent .listAuthUsers) := ⟨rfl, fun f a hT => by
    rcases AgentCall.perform_listAuthUsers f a with h | ⟨e, h⟩ <;> rwa [h]⟩
  have hw : Before c0 (recorded performAny (.agent .listAuthUsers) f w).2 ∧
      T (recorded performAny (.agent .listAuthUsers) f w).2.1 ∧
      SyncTrace.firstPage (recorded performAny (.agent .listAuthUsers) f w).2.2 = some t :=
    ⟨h.1.plain hplain f, plain_keeps hplain f h.2.1, firstPage_append_of_some h.2.2 _⟩
  have hr : (recorded performAny (.agent .listAuthUsers) f w).1 = .ok w.1.users.list ∨
      ∃ e, (recorded performAny (.agent .listAuthUsers) f w).1 = .error e := by
    rcases AgentCall.perform_listAuthUsers f.outcome w.1 with h | ⟨e, h⟩
    · exact .inl (congrArg Prod.fst h)
    · exact .inr ⟨e, congrArg Prod.fst h⟩
  rcases hr with hr | ⟨e, hr⟩ <;> rw [hr]
  · refine Safe.ok ?_
    rintro w' rfl
    refine ⟨hw, fun u hu => hgood u ?_, by simp [mem_users]⟩
    rw [indexUsers_list] at hu
    exact hu
  · exact .inl hw.1

theorem applySyncChange (c : Change (CredentialChange P)) (h : InPass c0 Good T t p w) :
    Safe (passSetting P) (s.applySyncChange p c).run
      (onOk (InPass c0 Good T t) fun _ => Failed c0) w := by
  have hunless : ∀ {x : Sync P Unit}, Only (Plain T) x.run →
      Only (Plain T) (p.unlessFull x).run := by
    intro x hx
    unfold CredentialPass.unlessFull
    split
    · exact Only.ok
    · exact hx
  unfold CredentialSync.applySyncChange
  cases c.operation with
  | upsert =>
    obtain ⟨pre, hpre, heq⟩ := D.shape.apply c.payload
    have happly : Only (Plain T) (s.runtime.applyCredential c.payload).run := by
      rw [heq]
      exact Only.andThen hpre fun _ => Only.ok
    refine Safe.andThen ((Only.before happly h.1.1 h.1.2.1 h.1.2.2).mono ?_)
    rintro (e | u) w' hw'
    · exact .inl hw'.1
    · have hin : InPass c0 Good T t (p.keeping c.connectionID u) w' := ⟨hw', h.2⟩
      refine hin.plain (hunless ?_)
      rw [D.shape.upsert]
      exact Only.ask (D.upsert u)
  | delete =>
    have hin : InPass c0 Good T t (p.removing c.connectionID) w := by
      refine ⟨h.1, ?_, fun u hu => ?_⟩
      · rw [p.current_removing]
        exact h.2.1
      · exact (mem_users_removing hu).elim (h.2.1 u) (h.2.2 u)
    obtain ⟨pre, hpre, heq⟩ := D.shape.delete c.connectionID
    refine hin.plain (hunless ?_)
    rw [heq]
    exact Only.andThen hpre fun _ => Only.ask (D.delete _)

/-- The commit: the cursor moves exactly when the transaction succeeds. -/
theorem commitSnapshot (keep : Std.ExtTreeMap String AuthUser)
    (h : Before c0 w ∧ T w.1 ∧ SyncTrace.firstPage w.2 = some t) :
    Safe (passSetting P) (s.store.applyFullAuthSnapshot keep authSyncCursorKey t).run
      (onOk (fun _ w => Committed t w ∧ T w.1) fun _ => Failed c0) w := by
  obtain ⟨pre, hpre, heq⟩ := D.shape.snapshot keep authSyncCursorKey t
  rw [heq]
  refine Safe.andThen ((Only.before hpre h.1 h.2.1 h.2.2).mono ?_)
  rintro (e | ⟨⟩) w ⟨hb, hT, hpage⟩
  · exact .inl hb
  refine Safe.ask_alone fun f => ?_
  have hT' := D.replace (users keep) authSyncCursorKey t f.outcome w.1 hT
  rcases AgentCall.perform_applyFullAuthSnapshot (users keep) authSyncCursorKey t f.outcome w.1
    with ⟨rows, -, hp⟩ | ⟨e, hp⟩
  · simp only [recorded, performAny, hp] at hT' ⊢
    refine ⟨⟨?_, firstPage_append_of_some hpage _, ?_, ?_⟩, hT'⟩
    · simp [Agent.cursor]
    · simp [SyncTrace.commit]
    · simp [failsAfterCommit_append, hb.failsAfterCommit, hb.2]
  · simp only [recorded, performAny, hp]
    exact .inl ⟨hb.1, by simp [hb.2, SyncTrace.commit]⟩

theorem finishSyncPass {r : PassResult} (h : InPass c0 Good T r.manifestStartedAtMS p w) :
    Safe (passSetting P) (s.finishSyncPass order p r).run
      (onOk (fun _ w => SyncTrace.firstPage w.2 = some r.manifestStartedAtMS ∧
        (Before c0 w ∨ Committed r.manifestStartedAtMS w)) fun _ => Failed c0) w := by
  have hgood : ∀ u ∈ order.iterate (users p.leaving), Good u := fun u hu =>
    (mem_users_leaving ((order.perm _).mem_iff.1 hu)).elim (h.2.1 u) (h.2.2 u)
  unfold CredentialSync.finishSyncPass
  rcases hp : p.full with - | -
  · have hw : ∀ x : Sync P Unit, p.whenFull x = pure () := fun x => by
      simp [CredentialPass.whenFull, hp]
    rw [hw, hw]
    have honly : Only (Plain T) (pure () >>= fun _ =>
        (order.iterate (users p.leaving)).forM s.runtime.removeCredential >>= fun _ =>
          pure () : Sync P Unit).run :=
      Only.andThen Only.ok fun _ => Only.andThen (Only.forM D.shape.remove _) fun _ => Only.ok
    refine (Only.before honly h.1.1 h.1.2.1 h.1.2.2).mono ?_
    rintro (e | ⟨⟩) w hw'
    · exact .inl hw'.1
    · exact ⟨hw'.2.2, .inl hw'.1⟩
  · have hw : ∀ x : Sync P Unit, p.whenFull x = x := fun x => by
      simp [CredentialPass.whenFull, hp]
    rw [hw, hw]
    refine Safe.seq (D.commitSnapshot p.keep h.1) fun _ w hc => ?_
    refine Safe.andThen (Safe.forM
      (fun l w => (Committed r.manifestStartedAtMS w ∧ T w.1) ∧ ∀ u ∈ l, Good u) ?_ ?_ _ w ?_)
    · rintro u l w ⟨hc, hl⟩
      refine (D.remove u _ w (hl u List.mem_cons_self) hc).mono ?_
      rintro (e | ⟨⟩) w' hw'
      · exact .inr ⟨_, hw'⟩
      · exact ⟨hw', fun v hv => hl v (List.mem_cons_of_mem u hv)⟩
    · rintro w ⟨hc, -⟩
      refine (D.reconcile p.keep _ w hc).mono ?_
      rintro (e | ⟨⟩) w' hw'
      · exact .inr ⟨_, hw'⟩
      · exact ⟨hw'.1.2.1, .inr hw'.1⟩
    · rintro w' rfl
      exact ⟨hc, hgood⟩

theorem holds (pageSize : ℤ) (fuel : ℕ) :
    (cursorOutline c0 Good T).Holds (passSetting P) manifestSource (s.applier order) pageSize
      fuel where
  ready full since w h := by
    refine (h.1.fetch _).mono ?_
    rintro (e | r) w' ⟨hb, heq, -, hfirst⟩
    · exact .inl hb
    · exact ⟨.inl hb, fun _ => ⟨⟨hb, heq ▸ h.2.1, hfirst h.2.2.2 r rfl⟩, heq ▸ h.2.2.1⟩⟩
  first full since r w _ h := D.beginSyncPass _ h.1 h.2
  change n since short c cs p w h := D.applySyncChange c h
  spent since p w h := .inl h.1.1
  next n since p w h := by
    refine (h.1.1.fetch _).mono ?_
    rintro (e | r) w' ⟨hb, heq, hsome, -⟩
    · exact .inl hb
    · exact ⟨.inl hb, fun _ => ⟨⟨hb, heq ▸ h.1.2.1, hsome _ h.1.2.2⟩, h.2⟩⟩
  finish n since p w h := D.finishSyncPass order h

theorem saveCursor (hpage : SyncTrace.firstPage w.2 = some t) (h : Before c0 w ∨ Committed t w) :
    Safe (passSetting P) ((authCursor s.store).saveSyncCursor authSyncCursorKey t).run
      (onOk (fun _ w => w.1.cursor = some (.int t) ∧ SyncTrace.firstPage w.2 = some t ∧
        SyncTrace.failsAfterCommit w.2 = false) fun _ => Failed c0) w := by
  have hfails : SyncTrace.failsAfterCommit w.2 = false := h.elim (·.failsAfterCommit) (·.2.2.2)
  change Safe _ (s.store.setState authSyncCursorKey (.int t)).run _ w
  rw [D.shape.setState]
  refine Safe.ask_alone fun f => ?_
  rcases AgentCall.perform_setState authSyncCursorKey (.int t) f.outcome w.1 with hp | ⟨e, hp⟩
  · simp only [recorded, performAny, hp]
    refine ⟨by simp [Agent.cursor], firstPage_append_of_some hpage _, ?_⟩
    rw [failsAfterCommit_append, hfails]
    simp [SyncTrace.failed]
  · simp only [recorded, performAny, hp]
    rcases h with hb | hc
    · exact .inl ⟨hb.1, by simp [hb.2, SyncTrace.commit]⟩
    · refine .inr ⟨t, hc.1, firstPage_append_of_some hpage _, ?_⟩
      rw [failsAfterCommit_append, hc.2.2.1]
      simp [SyncTrace.failed]

/-- Every pass: how it ends, where the cursor is then, and what has failed. -/
theorem runOnce {a : Agent} (hT : T a) (hgood : ∀ u ∈ a.users.list, Good u) (pageSize : ℤ)
    (order : MapOrder) (fuel : ℕ) (full : Bool) :
    Safe (passSetting P) (s.runOnce pageSize order fuel full).run
      (onOk (fun _ w => ∃ t, w.1.cursor = some (.int t) ∧ SyncTrace.firstPage w.2 = some t ∧
        SyncTrace.failsAfterCommit w.2 = false) fun _ => Failed a.cursor) (a, []) := by
  have hb : Before a.cursor (a, ([] : SyncTrace P)) := ⟨rfl, rfl⟩
  refine CredentialSync.runOnce_safe ?_ fun _ => ?_
  · rintro e w rfl
    exact .inl hb
  refine (D.holds order _ fuel).runPass ?_ fun p w h => ?_
  · refine loadCursor_safe (D.shape.getState _) ?_ fun _ => Safe.ask_alone fun f => ?_
    · rintro - w rfl
      exact ⟨hb, hT, hgood, rfl⟩
    · have hagent : (recorded performAny (.agent (.getState authSyncCursorKey)) f (a, [])).2.1 =
          a := by
        rcases AgentCall.perform_getState authSyncCursorKey f.outcome a with h | ⟨e, h⟩ <;>
          exact congrArg Prod.snd h
      have hb' : Before a.cursor
          (recorded performAny (.agent (.getState authSyncCursorKey)) f (a, [])).2 :=
        ⟨by rw [hagent], rfl⟩
      rcases startFrom (recorded performAny (.agent (.getState authSyncCursorKey)) f (a, [])).1
        with e | r
      · exact .inl hb'
      · exact ⟨hb', by rwa [hagent], by rwa [hagent], rfl⟩
  · exact (D.saveCursor h.1 h.2).imp fun _ w hw => ⟨_, hw⟩

end Disciplined

end Pass

/-! ## The two protocols -/

theorem Committed.attempt (hc : Plain (P := P) T (.agent c)) (h : Committed t w ∧ T w.1) :
    Safe (passSetting P) (c.attempt (P := P)).run
      (onOk (fun _ w => Committed t w ∧ T w.1) fun _ => Broken t) w := by
  refine Safe.ask_alone fun f => ?_
  have hp := h.1.plain hc f
  have hT := plain_keeps hc f h.2
  rcases hr : (recorded performAny (.agent c) f w).1 with e | r
  · rw [hr] at hp
    exact hp
  · rw [hr] at hp
    exact ⟨hp, hT⟩

theorem hysteria_disciplined :
    Disciplined hysteriaSync toAuthUser (fun _ => True) fun _ => True where
  shape := hysteria_shape fun _ => ⟨rfl, fun _ _ _ => trivial⟩
  upsert _ := ⟨rfl, fun _ _ _ => trivial⟩
  delete _ := ⟨rfl, fun _ _ _ => trivial⟩
  replace _ _ _ _ _ _ := trivial
  remove u t w _ h := by
    rw [hysteria_removeCredential]
    split
    · refine Safe.ok ?_
      rintro w' rfl
      exact h
    · exact Committed.attempt (T := fun _ => True) ⟨rfl, fun _ _ _ => trivial⟩ h
  reconcile keep t w h := by
    refine Safe.ok ?_
    rintro w' rfl
    exact h

/-- No peer of the interface has a blank key. -/
def RuntimeKeysSet (a : Agent) : Prop := ∀ key ∈ a.runtime, trimSpace key ≠ ""

def NativeIDSet (u : AuthUser) : Prop := trimSpace u.nativeAuthID ≠ ""

theorem plain_runtime (hs : c.keepsState) (hset : ∀ key, c = .awgSetPeer key → trimSpace key ≠ "") :
    Plain (P := P) RuntimeKeysSet (.agent c) := by
  have heff : ∀ a r a', c.effect a = .ok (r, a') → RuntimeKeysSet a → RuntimeKeysSet a' := by
    intro a r a' he hT
    cases c with
    | awgSetPeer key =>
      cases he
      intro k hk
      rcases Std.ExtTreeSet.mem_insert.1 hk with hk | hk
      · exact Std.compare_eq_iff_eq.1 hk ▸ hset key rfl
      · exact hT k hk
    | awgRemovePeer key =>
      cases he
      exact fun k hk => hT k (Std.ExtTreeSet.mem_erase.1 hk).2
    | setState | applyFullAuthSnapshot => cases hs
    | _ =>
      simp [AgentCall.effect, Except.map] at he
      grind [RuntimeKeysSet]
  refine ⟨hs, fun f a hT => ?_⟩
  rcases c.perform_cases f a with ⟨r, a', he, hp⟩ | ⟨e, r, a', -, he, hp⟩ | ⟨e, hp⟩
  · rw [hp]
    exact heff a r a' he hT
  · rw [hp]
    exact heff a r a' he hT
  · rw [hp]
    exact hT

theorem allowsRemoval_runtime : AllowsRemoval (Plain (P := P) RuntimeKeysSet) where
  persist _ _ := plain_runtime rfl nofun
  remove _ := plain_runtime rfl nofun
  save := plain_runtime rfl nofun
  dump := plain_runtime rfl nofun
  prune _ := plain_runtime rfl nofun

theorem Committed.removePeer {key : String} (hkey : trimSpace key ≠ "")
    (h : Committed t w ∧ RuntimeKeysSet w.1) :
    Safe (passSetting P) (Facade.removePeer (P := P) key).run
      (onOk (fun _ w => Committed t w ∧ RuntimeKeysSet w.1) fun _ => Broken t) w := by
  unfold Facade.removePeer
  rw [if_neg hkey]
  refine Safe.seq (Committed.attempt (allowsRemoval_runtime.persist key {}) h) fun _ w h => ?_
  refine Safe.seq (Committed.attempt (allowsRemoval_runtime.remove key) h) fun _ w h => ?_
  exact Committed.attempt allowsRemoval_runtime.save h

theorem Committed.pruneRuntimePeers (desired : Std.ExtTreeSet String)
    (h : Committed t w ∧ RuntimeKeysSet w.1) :
    Safe (passSetting P) (Reconciler.pruneRuntimePeers (P := P) desired).run
      (onOk (fun _ w => Committed t w ∧ RuntimeKeysSet w.1) fun _ => Broken t) w := by
  refine Safe.andThen (Safe.ask_alone fun f => ?_)
  have hplain : Plain (P := P) RuntimeKeysSet (.agent .showDump) := plain_runtime rfl nofun
  have hcall := h.1.plain hplain f
  have hT := plain_keeps hplain f h.2
  have hr : (recorded performAny (.agent .showDump) f w).1 = .ok w.1.runtime.toList ∨
      ∃ e, (recorded performAny (.agent .showDump) f w).1 = .error e := by
    rcases AgentCall.perform_showDump f.outcome w.1 with h | ⟨e, h⟩
    · exact .inl (congrArg Prod.fst h)
    · exact .inr ⟨e, congrArg Prod.fst h⟩
  rcases hr with hr | ⟨e, hr⟩ <;> rw [hr] at hcall ⊢
  · refine Safe.forM (fun l w => (Committed t w ∧ RuntimeKeysSet w.1) ∧
      ∀ key ∈ l, trimSpace key ≠ "") ?_ (fun w hw => hw.1) _ _ ?_
    · rintro key l w ⟨hc, hl⟩
      have hrest : ∀ k ∈ l, trimSpace k ≠ "" := fun k hk => hl k (List.mem_cons_of_mem key hk)
      split
      · refine Safe.ok ?_
        rintro w' rfl
        exact ⟨hc, hrest⟩
      · refine (Committed.removePeer (hl key List.mem_cons_self) hc).imp fun _ w' hw' => ?_
        exact ⟨hw', hrest⟩
    · rintro w' rfl
      refine ⟨⟨hcall, hT⟩, fun key hkey => h.2 key ?_⟩
      rw [Std.ExtTreeSet.mem_toList, Std.ExtTreeSet.mem_ofList, List.contains_iff_mem] at hkey
      exact Std.ExtTreeSet.mem_toList.1 hkey
  · exact hcall

theorem amnezia_disciplined : Disciplined amneziaSync peerUser NativeIDSet RuntimeKeysSet where
  shape := amnezia_shape allowsRemoval_runtime (plain_runtime rfl nofun)
    (fun _ _ => plain_runtime rfl nofun)
    fun key hkey => plain_runtime rfl (by rintro k ⟨⟩; exact hkey)
  upsert _ := plain_runtime rfl nofun
  delete _ := plain_runtime rfl nofun
  replace keep key t f a hT := by
    rcases AgentCall.perform_applyFullAuthSnapshot keep key t f a with ⟨rows, -, h⟩ | ⟨e, h⟩ <;>
      rw [h] <;> exact hT
  remove u t w hu h := by
    rw [amnezia_removeCredential]
    unfold Reconciler.removePeer
    simp only [if_neg hu]
    refine Safe.wrap ((Committed.removePeer (by rwa [trimSpace_idem]) h).mono ?_)
    rintro (e | ⟨⟩) w' hw'
    · exact hw'
    · exact hw'
  reconcile keep t w h := Committed.pruneRuntimePeers _ h

/-! ## The theorem -/

/-- No call of the pass fails once a full snapshot is committed, or the cursor had the value of the
pass before it. -/
def CursorCondition (a : Agent) (x : Except String Unit × Agent × SyncTrace P) : Prop :=
  SyncTrace.failsAfterCommit x.2.2 = false ∨
    ∃ t, SyncTrace.firstPage x.2.2 = some t ∧ a.cursor = some (.int t)

theorem CursorKept.of_error {a : Agent} {x : Except String Unit × Agent × SyncTrace P} {e : String}
    (h : CursorKept a x) (hx : x.1 = .error e) : x.2.1.cursor = a.cursor := by
  obtain ⟨r, a', trace⟩ := x
  obtain rfl : r = .error e := hx
  exact h

theorem Disciplined.cursorKept_iff {s : CredentialSync P} {user : CredentialChange P → AuthUser}
    {Good : AuthUser → Prop}
    (D : Disciplined s user Good T) (pageSize : ℤ) (order : MapOrder) (fuel : ℕ)
    (full : Bool) (σ : ℕ → Choice P) (a : Agent) (hT : T a) (hgood : ∀ u ∈ a.users.list, Good u) :
    CursorKept a (s.pass pageSize order fuel full σ a) ↔
      CursorCondition a (s.pass pageSize order fuel full σ a) := by
  have h := exec_of_safe (S := passSetting P) (σ := σ) (n := 0) (fun _ _ _ => trivial)
    (D.runOnce hT hgood pageSize order fuel full)
  change onOk _ _ (s.pass pageSize order fuel full σ a).1
    (s.pass pageSize order fuel full σ a).2 at h
  generalize s.pass pageSize order fuel full σ a = x at h ⊢
  obtain ⟨e | ⟨⟩, a', trace⟩ := x
  · rcases h with hb | ⟨t, hcur, hpage, hfails⟩
    · exact iff_of_true hb.1 (.inl hb.failsAfterCommit)
    · simp only [CursorKept, CursorCondition] at hcur hpage hfails ⊢
      rw [hcur, hpage, hfails]
      simp [eq_comm]
  · obtain ⟨t, hcur, hpage, hfails⟩ := h
    exact iff_of_true ⟨t, hpage, hcur⟩ (.inl hfails)

/-- For every source, starting state and choice of failing calls, a pass keeps to the cursor rule
exactly if none of its calls fails after it has committed a full snapshot, or the cursor had that
value already. The rows and peers of an AmneziaWG agent have keys that are not blank. -/
theorem cursor_kept_iff (pageSize : ℤ) (order : MapOrder) (fuel : ℕ) (full : Bool) (a : Agent) :
    (∀ σ : ℕ → Choice HysteriaCredential,
      CursorKept a (hysteriaSync.pass pageSize order fuel full σ a) ↔
        CursorCondition a (hysteriaSync.pass pageSize order fuel full σ a)) ∧
    ∀ σ : ℕ → Choice AmneziaCredential, RuntimeKeysSet a → (∀ u ∈ a.users.list, NativeIDSet u) →
      (CursorKept a (amneziaSync.pass pageSize order fuel full σ a) ↔
        CursorCondition a (amneziaSync.pass pageSize order fuel full σ a)) :=
  ⟨fun σ => hysteria_disciplined.cursorKept_iff pageSize order fuel full σ a trivial
      fun _ _ => trivial,
    fun σ hT hgood => amnezia_disciplined.cursorKept_iff pageSize order fuel full σ a hT hgood⟩

/-- An agent with one peer, which has finished a pass that started at `5`. -/
def onePeer : Agent where
  users := AuthUsers.empty.put ⟨"c1", "key", "meta"⟩ rfl
  state := (∅ : Std.ExtTreeMap String StateValue).insert authSyncCursorKey (.int 5)
  snapshot := [{ publicKey := "key" }]
  runtime := (∅ : Std.ExtTreeSet String).insert "key"

/-- A full pass over an empty page started at `7`, whose third call fails: the transaction that
replaces the table. -/
def commitRefused (n : ℕ) : Choice AmneziaCredential :=
  ⟨if n = 2 then .refused "disk is full" else .ok, .ok ⟨7, true, [], ""⟩⟩

theorem cursor_kept_by_failed_pass :
    RuntimeKeysSet onePeer ∧ (∀ u ∈ onePeer.users.list, NativeIDSet u) ∧
      onePeer.cursor = some (.int 5) ∧
      (amneziaSync.pass 0 .sorted 0 true commitRefused onePeer).1 = .error "disk is full" ∧
      CursorKept onePeer (amneziaSync.pass 0 .sorted 0 true commitRefused onePeer) := by
  have hkeys : RuntimeKeysSet onePeer := by
    intro key hkey
    obtain rfl : "key" = key := by simpa [onePeer] using hkey
    decide +kernel
  have hids : ∀ u ∈ onePeer.users.list, NativeIDSet u := by
    unfold NativeIDSet
    decide +kernel
  refine ⟨hkeys, hids, by decide +kernel, by decide +kernel, ?_⟩
  exact ((cursor_kept_iff 0 .sorted 0 true onePeer).2 commitRefused hkeys hids).2
    (.inl (by decide +kernel))

/-- An agent that has stored one credential and never finished a pass. -/
def oneUser : Agent where
  users := AuthUsers.empty.put ⟨"c1", "c1", "meta"⟩ rfl
  state := ∅
  snapshot := []
  runtime := ∅

/-- A full pass over an empty page started at `7`, whose fourth call fails: the kick. -/
def kickRefused (n : ℕ) : Choice HysteriaCredential :=
  ⟨if n = 3 then .refused "kick failed" else .ok, .ok ⟨7, true, [], ""⟩⟩

theorem cursor_moved_by_failed_pass :
    (hysteriaSync.pass 0 .sorted 0 true kickRefused oneUser).1 = .error "kick failed" ∧
      oneUser.cursor = none ∧
      (hysteriaSync.pass 0 .sorted 0 true kickRefused oneUser).2.1.cursor = some (.int 7) ∧
      ¬ CursorKept oneUser (hysteriaSync.pass 0 .sorted 0 true kickRefused oneUser) := by
  have h : (hysteriaSync.pass 0 .sorted 0 true kickRefused oneUser).1 = .error "kick failed" ∧
      oneUser.cursor = none ∧
      (hysteriaSync.pass 0 .sorted 0 true kickRefused oneUser).2.1.cursor = some (.int 7) := by
    decide +kernel
  refine ⟨h.1, h.2.1, h.2.2, fun hkept => ?_⟩
  have hcur := hkept.of_error h.1
  rw [h.2.1, h.2.2] at hcur
  cases hcur

end LazGate
