import LazGate.Lib.Pool
import LazGate.Server.Auth.Admin

/-!
# An invite creates at most one administrator

`enrollAdmin` requests and revocations run side by side. An enrolment reads the invite, later
creates the rows of the administrator, and only then marks the invite as used. The record keeps
how far each enrolment has come and the profiles that were created.
-/

namespace LazGate

open Prog

/-! ## The system -/

inductive InviteRequest where
  | enroll (input : EnrollInput)
  | revoke (inviteID : String)

/-- How far an enrolment has come: it has read the invite, or it has also created the profile and
has not tried to mark the invite yet. -/
inductive EnrollStage where
  | read (invite : AdminInvite)
  | created (invite : AdminInvite)
  deriving DecidableEq

/-- A profile that was created from an invite; `marked` says how the marking of the invite by the
same request has ended. -/
structure Creation where
  invite : String
  request : ℕ
  profile : AdminProfile
  marked : Option Bool
  deriving DecidableEq

structure InviteLog where
  stages : Pool.Board EnrollStage
  created : List Creation

namespace InviteLog

def empty : InviteLog := ⟨.empty, []⟩

/-- The invite that the `i`-th request has read and has created nothing from. -/
def reading (l : InviteLog) (i : ℕ) : Option AdminInvite :=
  match l.stages i with
  | some (.read invite) => some invite
  | _ => none

def stageAfter (l : InviteLog) (i : ℕ) : (c : AuthCall) → c.Reply → Option EnrollStage
  | .getAdminInviteByTokenHash _, .ok invite => some (.read invite)
  | .createAdminProfile .., .ok _ =>
    match l.stages i with
    | some (.read invite) => some (.created invite)
    | e => e
  | .markAdminInviteUsed .., _ => none
  | _, _ => l.stages i

/-- The creations of the `i`-th request from the invite, with the result of its marking. -/
def markCreated (i : ℕ) (id : String) (ok : Bool) (created : List Creation) : List Creation :=
  Table.update (fun c => c.request == i && c.invite == id && c.marked.isNone)
    (fun c => { c with marked := some ok }) created

def createdAfter (l : InviteLog) (i : ℕ) : (c : AuthCall) → c.Reply → List Creation
  | .createAdminProfile .., .ok profile =>
    match l.stages i with
    | some (.read invite) => l.created ++ [⟨invite.id, i, profile, none⟩]
    | _ => l.created
  | .markAdminInviteUsed id _, reply => markCreated i id reply.isOk l.created
  | _, _ => l.created

/-- The record after a call of the `i`-th request. -/
def note (l : InviteLog) (i : ℕ) (c : AuthCall) (reply : c.Reply) : InviteLog where
  stages := l.stages.set i (l.stageAfter i c reply)
  created := l.createdAfter i c reply

end InviteLog

structure InviteWorld where
  auth : AuthWorld
  log : InviteLog

def inviteSystem (a : Authenticator) :
    PoolSystem AuthCall AuthCall.Reply AuthOutcome InviteWorld Empty InviteRequest Unit where
  perform i c f w := ((c.perform f w.auth).1,
    ⟨(c.perform f w.auth).2, w.log.note i c (c.perform f w.auth).1⟩)
  act e _ := e.elim
  enter i _ w := some { w with log := { w.log with stages := w.log.stages.set i none } }
  prog
    | .enroll input => (fun _ => ()) <$> Handler.serve (enrollAdmin a input)
    | .revoke inviteID => (fun _ => ()) <$> Handler.serve (revokeInvite inviteID)

/-! ## What an enrolment may call -/

def InviteLog.Allows (l : InviteLog) (i : ℕ) : AuthCall → Prop
  | .createAdminProfile .. => ∃ invite, l.stages i = some (.read invite)
  | .markAdminInviteUsed id _ => ∃ invite, l.stages i = some (.created invite) ∧ invite.id = id
  | _ => True

def inviteProtocol (a : Authenticator) : Pool.Protocol (inviteSystem a) where
  rely i w w' := w'.log.stages i = w.log.stages i
  refl _ _ := rfl
  trans _ _ _ _ h h' := h'.trans h
  conf i c w := w.log.Allows i c

def AuthCall.quiet : AuthCall → Bool
  | .getAdminInviteByTokenHash _ | .createAdminProfile .. | .markAdminInviteUsed .. => false
  | _ => true

variable {invite : AdminInvite} {w : InviteWorld} {c : AuthCall} {e : Option EnrollStage}

section Requests

variable (a : Authenticator) (K : ℕ → AuthCall → AuthOutcome → InviteWorld → Prop) {i : ℕ}

theorem AuthCall.quiet_allows (h : c.quiet = true) (l : InviteLog) :
    l.Allows i c := by
  cases c
  case getAdminInviteByTokenHash => cases h
  case createAdminProfile => cases h
  case markAdminInviteUsed => cases h
  all_goals trivial

theorem AuthCall.quiet_note (h : c.quiet = true) (l : InviteLog) (reply : c.Reply) :
    l.note i c reply = ⟨l.stages.set i (l.stages i), l.created⟩ := by
  cases c
  case getAdminInviteByTokenHash => cases h
  case createAdminProfile => cases h
  case markAdminInviteUsed => cases h
  all_goals rfl

theorem safe_quiet {α : Type} {p : Prog AuthCall AuthCall.Reply α}
    (hp : Only (fun c => c.quiet = true) p) (hw : w.log.stages i = e) :
    Safe ((inviteProtocol a).setting K i) p (fun _ w' => w'.log.stages i = e) w := by
  refine (inviteProtocol a).safe_only K hp (fun _ _ h hr => hr.trans h) ?_ hw
  intro c f w hc h
  refine ⟨AuthCall.quiet_allows hc _, ?_⟩
  change (w.log.note i c _).stages i = e
  rw [AuthCall.quiet_note hc, Pool.Board.set_self]
  exact h

theorem quiet_newID {ε : Type} : Only (fun c => c.quiet = true) (newID : AuthProg ε String).run :=
  Only.map (Only.ask rfl)

theorem quiet_now {ε : Type} : Only (fun c => c.quiet = true) (now : AuthProg ε Time).run :=
  Only.map (Only.ask rfl)

theorem quiet_issueNormalSession (identity : AuthIdentity) :
    Only (fun c => c.quiet = true) (a.issueNormalSession identity).run := by
  refine Only.andThen (Only.failAs (Only.ask rfl)) fun profile => ?_
  change Only _ (ite _ _ _)
  split
  · exact Only.fail
  · refine Only.andThen quiet_now fun t => Only.andThen (Only.ask rfl) fun _ =>
      Only.andThen (Only.ask rfl) fun _ => Only.andThen ?_ fun _ =>
        Only.andThen quiet_now fun _ => Only.ok
    exact Only.andThen quiet_newID fun _ => Only.andThen quiet_newID fun _ =>
      Only.andThen quiet_newID fun _ => Only.ask rfl

theorem safe_getInvite (w : InviteWorld) (tokenHash : String) :
    Safe ((inviteProtocol a).setting K i) (getAdminInviteByTokenHash tokenHash).run
      (onOk (fun invite w' => w'.log.stages i = some (.read invite)) fun _ _ => True) w := by
  refine (inviteProtocol a).safe_ask K fun w' _ => ⟨trivial, fun f _ w'' hr' => ?_⟩
  cases hreply : ((inviteSystem a).perform i (.getAdminInviteByTokenHash tokenHash) f w').1 with
  | error e => trivial
  | ok invite =>
    refine hr'.trans ((Pool.Board.set_self ..).trans ?_)
    change w'.log.stageAfter i _ ((inviteSystem a).perform i _ f w').1 = _
    rw [hreply]
    rfl

theorem safe_createAdminProfile (hw : w.log.stages i = some (.read invite))
    (profile : AdminProfile) :
    Safe ((inviteProtocol a).setting K i) (createAdminProfile profile).run
      (onOk (fun _ w' => w'.log.stages i = some (.created invite)) fun _ _ => True) w := by
  refine Safe.andThen ((safe_quiet a K quiet_newID hw).mono ?_)
  rintro (e | id) w₁ h₁
  · trivial
  refine (inviteProtocol a).safe_ask K fun w' hr => ⟨⟨invite, hr.trans h₁⟩, fun f _ w'' hr' => ?_⟩
  cases hreply : ((inviteSystem a).perform i (.createAdminProfile profile id) f w').1 with
  | error e => trivial
  | ok row =>
    refine hr'.trans ((Pool.Board.set_self ..).trans ?_)
    change w'.log.stageAfter i _ ((inviteSystem a).perform i _ f w').1 = _
    rw [hreply]
    simp only [InviteLog.stageAfter, hr.trans h₁]

theorem safe_createAdministrator (hw : w.log.stages i = some (.read invite))
    (login displayName hash : String) :
    Safe ((inviteProtocol a).setting K i) (createAdministrator login displayName hash invite).run
      (onOk (fun _ w' => w'.log.stages i = some (.created invite)) fun _ _ => True) w := by
  have hidentity : ∀ x, Only (fun c => c.quiet = true) (createAuthIdentity x).run :=
    fun x => Only.andThen quiet_newID fun _ => Only.ask rfl
  have hcredential : ∀ x, Only (fun c => c.quiet = true) (createAuthCredential x).run :=
    fun x => Only.andThen quiet_newID fun _ => Only.ask rfl
  refine Safe.andThen (Safe.failAs ((safe_quiet a K (hidentity _) hw).mono ?_))
  rintro (e | identity) w₁ h₁
  · trivial
  refine Safe.andThen (Safe.failAs ((safe_quiet a K (hcredential _) h₁).mono ?_))
  rintro (e | credential) w₂ h₂
  · trivial
  refine Safe.seq (Q := fun _ w' => w'.log.stages i = some (.created invite)) (Safe.failAs ?_)
    fun _ _ h => Safe.ok fun _ hr => hr.trans h
  refine (safe_createAdminProfile a K h₂ _).mono ?_
  rintro (e | profile) w₃ h₃ <;> exact h₃

theorem safe_enrollAdmin (w : InviteWorld) (input : EnrollInput) :
    Safe ((inviteProtocol a).setting K i) (enrollAdmin a input).run (fun _ _ => True) w := by
  refine Safe.andThen (Safe.failAs ((safe_getInvite a K w _).mono ?_))
  rintro (e | invite) w₁ h₁
  · trivial
  refine Safe.andThen ((safe_quiet a K quiet_now h₁).mono ?_)
  rintro (e | t) w₂ h₂
  · trivial
  change Safe _ (ite _ _ _) _ _
  split
  · exact Safe.fail fun _ _ => trivial
  change Safe _ (ite _ _ _) _ _
  split
  · change Safe _ (ite _ _ _) _ _
    split
    · exact Safe.fail fun _ _ => trivial
    refine Safe.andThen (Safe.result ((safe_quiet a K (Only.ask rfl) h₂).mono ?_))
    rintro (e | found) w₃ h₃
    · refine Safe.check (fun _ _ => ?_) fun _ _ _ _ => trivial
      refine Safe.andThen (Safe.failAs ((safe_quiet a K (Only.ask rfl) h₃).mono ?_))
      rintro (e | hash) w₄ h₄
      · trivial
      refine Safe.andThen ((safe_createAdministrator a K h₄ _ _ hash).mono ?_)
      rintro (e | identity) w₅ h₅
      · trivial
      refine Safe.andThen (Safe.failAs ((inviteProtocol a).safe_ask K fun w' hr =>
        ⟨⟨invite, hr.trans h₅, rfl⟩, fun f _ w'' _ => ?_⟩))
      cases hreply : ((inviteSystem a).perform i (.markAdminInviteUsed invite.id identity.id) f
        w').1 with
      | error e => trivial
      | ok v =>
        exact Safe.failAs ((safe_quiet a K (quiet_issueNormalSession a identity) rfl).mono
          fun _ _ _ => trivial)
    · exact Safe.fail fun _ _ => trivial
  · exact Safe.fail fun _ _ => trivial

end Requests

theorem inviteProtocol_kept (a : Authenticator)
    (K : ℕ → AuthCall → AuthOutcome → InviteWorld → Prop) : (inviteProtocol a).Kept K where
  act e := e.elim
  enter n q w w' he i hi := by
    cases he
    exact Pool.Board.set_of_ne _ hi.ne _
  call i c f w j hj _ _ := Pool.Board.set_of_ne _ hj _
  prog n q w w' he := by
    cases he
    have hserve : ∀ {α : Type} {h : Handler α} {w : InviteWorld},
        Safe ((inviteProtocol a).setting K n) h.run (fun _ _ => True) w →
        Safe ((inviteProtocol a).setting K n) ((fun _ => ()) <$> h.serve) (fun _ _ => True) w := by
      intro α h w hh
      refine Safe.map (Safe.bind (hh.mono fun r w₁ _ => ?_))
      exact (safe_quiet a K (Only.bind (Only.ask rfl) fun _ => Only.of_done _) rfl).mono
        fun _ _ _ => trivial
    cases q with
    | enroll input => exact hserve (safe_enrollAdmin a K _ input)
    | revoke inviteID =>
      have hquiet : Only (fun c => c.quiet = true) (revokeInvite inviteID).run :=
        Only.failAs (Only.ask rfl)
      exact hserve ((safe_quiet a K hquiet rfl).mono fun _ _ _ => trivial)

/-! ## One profile for each invite -/

def InviteClosed (id : String) (invites : List AdminInvite) : Prop :=
  ∀ v ∈ invites, v.id = id → v.status ≠ .active

instance (id : String) (invites : List AdminInvite) : Decidable (InviteClosed id invites) :=
  inferInstanceAs (Decidable (∀ v ∈ invites, v.id = id → v.status ≠ .active))

/-- Every profile that was created from the invite, except by the `i`-th request, is one whose
request has tried to mark the invite. -/
def Tried (id : String) (i : Option ℕ) (created : List Creation) : Prop :=
  ∀ c ∈ created, c.invite = id → some c.request ≠ i → c.marked ≠ none

instance (id : String) (i : Option ℕ) (created : List Creation) : Decidable (Tried id i created) :=
  inferInstanceAs (Decidable
    (∀ c ∈ created, c.invite = id → some c.request ≠ i → c.marked ≠ none))

/-- A profile is created only from an invite that is still active. From the creation on until the
invite is marked no other request creates a profile from it, marks it or revokes it, and the
marking itself does not fail. -/
def EnrollsAlone (i : ℕ) (c : AuthCall) (f : AuthOutcome) (w : InviteWorld) : Prop :=
  match c with
  | .createAdminProfile .. => ∀ invite ∈ w.log.reading i,
      ¬ InviteClosed invite.id w.auth.db.invites ∧ Tried invite.id none w.log.created
  | .markAdminInviteUsed id _ => f.fault = .none ∧ Tried id (some i) w.log.created
  | .revokeAdminInvite id => Tried id none w.log.created
  | _ => True

instance (i : ℕ) (c : AuthCall) (f : AuthOutcome) (w : InviteWorld) :
    Decidable (EnrollsAlone i c f w) := by
  cases c
  case createAdminProfile =>
    exact inferInstanceAs (Decidable (∀ invite ∈ w.log.reading i,
      ¬ InviteClosed invite.id w.auth.db.invites ∧ Tried invite.id none w.log.created))
  case markAdminInviteUsed id _ =>
    exact inferInstanceAs (Decidable (f.fault = .none ∧ Tried id (some i) w.log.created))
  case revokeAdminInvite id => exact inferInstanceAs (Decidable (Tried id none w.log.created))
  all_goals exact isTrue trivial

/-- The invariant. -/
structure InvitesKept (invites : List AdminInvite) (l : InviteLog) : Prop where
  stage : ∀ i invite, l.stages i = some (.created invite) →
    ∃ c ∈ l.created, c.request = i ∧ c.invite = invite.id ∧ c.marked = none
  /-- Until it is marked, the invite of a profile is active. -/
  pending : ∀ c ∈ l.created, c.marked = none → ¬ InviteClosed c.invite invites
  closed : ∀ c ∈ l.created, ∀ ok, c.marked = some ok → ok = true ∧ InviteClosed c.invite invites
  single : ∀ id, (l.created.countP fun c => c.invite == id) ≤ 1

section Invites

variable {invites : List AdminInvite} {l : InviteLog} {i : ℕ} {id : String}
  {f : AdminInvite → AdminInvite}

def closing (id : String) (f : AdminInvite → AdminInvite) (invites : List AdminInvite) :
    List AdminInvite :=
  Table.update (fun v => v.id == id && v.status == .active) f invites

theorem closed_closing (hf : ∀ v, (f v).status ≠ .active) :
    InviteClosed id (closing id f invites) := by
  intro v hv hvid
  obtain ⟨v₀, hv₀, rfl⟩ := Table.mem_update.1 hv
  split
  · exact hf v₀
  · rename_i hne
    intro hactive
    rw [if_neg hne] at hvid
    simp [hvid, hactive] at hne

theorem InviteClosed.closing (hf : ∀ v, (f v).status ≠ .active) {id' : String}
    (h : InviteClosed id' invites) : InviteClosed id' (closing id f invites) := by
  intro v hv hvid
  obtain ⟨v₀, hv₀, rfl⟩ := Table.mem_update.1 hv
  split
  · exact hf v₀
  · rename_i hne
    rw [if_neg hne] at hvid
    exact h v₀ hv₀ hvid

theorem not_closed_closing {id' : String} (hne : id' ≠ id) (h : ¬ InviteClosed id' invites) :
    ¬ InviteClosed id' (closing id f invites) := by
  intro hclosed
  refine h fun v hv hvid => ?_
  have hmem := Table.mem_update_of_mem (p := fun v => v.id == id && v.status == .active) (f := f) hv
  rw [if_neg (by simp [hvid, hne])] at hmem
  exact hclosed v hmem hvid

namespace InvitesKept

section

variable (h : InvitesKept invites l)

include h

theorem stay (he : ∀ invite, e = some (.created invite) → l.stages i = some (.created invite)) :
    InvitesKept invites ⟨l.stages.set i e, l.created⟩ where
  stage j invite hj := by
    refine h.stage j invite ?_
    rcases eq_or_ne j i with rfl | hji
    · exact he invite ((Pool.Board.set_self ..).symm.trans hj)
    · exact (Pool.Board.set_of_ne _ hji _).symm.trans hj
  pending := h.pending
  closed := h.closed
  single := h.single

theorem create (profile : AdminProfile) (hopen : ¬ InviteClosed invite.id invites)
    (htried : Tried invite.id none l.created) :
    InvitesKept invites ⟨l.stages.set i (some (.created invite)),
      l.created ++ [⟨invite.id, i, profile, none⟩]⟩ where
  stage j v hj := by
    rcases eq_or_ne j i with rfl | hji
    · have hv := (Pool.Board.set_self ..).symm.trans hj
      cases hv
      exact ⟨_, List.mem_append_right _ List.mem_cons_self, rfl, rfl, rfl⟩
    · obtain ⟨c, hc, hrest⟩ := h.stage j v ((Pool.Board.set_of_ne _ hji _).symm.trans hj)
      exact ⟨c, List.mem_append_left _ hc, hrest⟩
  pending c hc hm := by
    rcases List.mem_append.1 hc with hc | hc
    · exact h.pending c hc hm
    · obtain rfl := List.mem_singleton.1 hc
      exact hopen
  closed c hc ok hm := by
    rcases List.mem_append.1 hc with hc | hc
    · exact h.closed c hc ok hm
    · obtain rfl := List.mem_singleton.1 hc
      cases hm
  single id := by
    rw [List.countP_append]
    by_cases hid : invite.id = id
    · -- nothing was created from this invite before
      have hnone : (l.created.countP fun c => c.invite == id) = 0 := by
        rw [List.countP_eq_zero]
        intro c hc hci
        have hci : c.invite = invite.id := (eq_of_beq hci).trans hid.symm
        obtain ⟨ok, hok⟩ := Option.ne_none_iff_exists'.1
          (htried c hc hci (Option.some_ne_none _))
        exact hopen (hci ▸ (h.closed c hc ok hok).2)
      rw [hnone, Nat.zero_add]
      exact List.countP_le_length
    · rw [List.countP_cons_of_neg (by simpa using hid)]
      exact h.single id

theorem mark (hf : ∀ v, (f v).status ≠ .active) (htried : Tried id (some i) l.created) :
    InvitesKept (closing id f invites)
      ⟨l.stages.set i none, InviteLog.markCreated i id true l.created⟩ where
  stage j v hj := by
    rcases eq_or_ne j i with rfl | hji
    · have hv := (Pool.Board.set_self ..).symm.trans hj
      cases hv
    · obtain ⟨c, hc, hreq, hrest⟩ := h.stage j v ((Pool.Board.set_of_ne _ hji _).symm.trans hj)
      have hmem := Table.mem_update_of_mem
        (p := fun c => c.request == i && c.invite == id && c.marked.isNone)
        (f := fun c => { c with marked := some true }) hc
      rw [if_neg (by simp [hreq, hji])] at hmem
      exact ⟨c, hmem, hreq, hrest⟩
  pending c hc hm := by
    obtain ⟨c₀, hc₀, rfl⟩ := Table.mem_update.1 hc
    split at hm
    · cases hm
    · rename_i hne
      rw [if_neg hne]
      refine not_closed_closing ?_ (h.pending c₀ hc₀ hm)
      intro hid
      refine htried c₀ hc₀ hid (fun hreq => hne ?_) hm
      simp [Option.some.inj hreq, hid, hm]
  closed c hc ok hm := by
    obtain ⟨c₀, hc₀, rfl⟩ := Table.mem_update.1 hc
    split at hm
    · rename_i heq
      simp only [Bool.and_eq_true, beq_iff_eq] at heq
      rw [if_pos (by simpa using heq)]
      refine ⟨(Option.some.inj hm).symm, ?_⟩
      exact heq.1.2 ▸ closed_closing hf
    · rename_i hne
      rw [if_neg hne]
      exact ⟨(h.closed c₀ hc₀ ok hm).1, (h.closed c₀ hc₀ ok hm).2.closing hf⟩
  single id' := by
    rw [InviteLog.markCreated, Table.update, List.countP_map]
    refine (List.countP_congr fun c _ => ?_).trans_le (h.single id')
    rw [Function.comp_apply]
    split <;> rfl

theorem revoke (hf : ∀ v, (f v).status ≠ .active) (htried : Tried id none l.created) :
    InvitesKept (closing id f invites) ⟨l.stages.set i (l.stages i), l.created⟩ where
  stage := (h.stay fun _ he => he).stage
  pending c hc hm :=
    not_closed_closing (fun hid => htried c hc hid (Option.some_ne_none _) hm) (h.pending c hc hm)
  closed c hc ok hm := ⟨(h.closed c hc ok hm).1, (h.closed c hc ok hm).2.closing hf⟩
  single := h.single

end

end InvitesKept

end Invites

theorem AuthDB.closeInvite_cases (id : String) (f : AdminInvite → AdminInvite) (db : AuthDB)
    (hid : ∀ v, (f v).id = v.id) :
    (db.closeInvite id f).2.invites = closing id f db.invites ∧ (db.closeInvite id f).1.isOk ∨
      (db.closeInvite id f).2.invites = db.invites ∧ InviteClosed id db.invites := by
  rw [AuthDB.closeInvite]
  split
  · rename_i hany
    obtain ⟨v, hv, hactive⟩ := List.any_eq_true.1 hany
    -- the row is still there when it is read back
    have hmem := Table.mem_update_of_mem (p := fun v => v.id == id && v.status == .active)
      (f := f) hv
    rw [if_pos hactive] at hmem
    simp only [Bool.and_eq_true, beq_iff_eq] at hactive
    have hfind : ((closing id f db.invites).find? fun v => v.id == id).isSome :=
      List.find?_isSome.2 ⟨f v, hmem, beq_iff_eq.2 ((hid v).trans hactive.1)⟩
    obtain ⟨v', hv'⟩ := Option.isSome_iff_exists.1 hfind
    refine .inl ⟨rfl, ?_⟩
    change (orNotFound ((closing id f db.invites).find? fun v => v.id == id)).isOk = true
    rw [hv']
    rfl
  · rename_i hany
    refine .inr ⟨rfl, fun v hv hvid hactive => hany ?_⟩
    exact List.any_eq_true.2 ⟨v, hv, by simp [hvid, hactive]⟩

theorem AuthCall.perform_revokeAdminInvite (id : String) (f : AuthOutcome) (w : AuthWorld) :
    ((AuthCall.revokeAdminInvite id).perform f w).2.db = w.db ∨
      ((AuthCall.revokeAdminInvite id).perform f w).2.db = (w.db.revokeAdminInvite id).2 := by
  change ite _ _ _ = _ ∨ ite _ _ _ = _
  split
  · exact .inr rfl
  · exact .inl rfl

theorem InviteLog.note_create {l : InviteLog} {i : ℕ} (h : l.stages i = some (.read invite))
    (profile : AdminProfile) (id : String) (reply : Except String AdminProfile) :
    l.note i (.createAdminProfile profile id) reply =
      match reply with
      | .ok row => ⟨l.stages.set i (some (.created invite)),
          l.created ++ [⟨invite.id, i, row, none⟩]⟩
      | .error _ => ⟨l.stages.set i (l.stages i), l.created⟩ := by
  cases reply with
  | ok row => simp only [InviteLog.note, InviteLog.stageAfter, InviteLog.createdAfter, h]
  | error e => rfl

theorem InvitesKept.call {a : Authenticator} {i : ℕ} {f : AuthOutcome}
    (h : InvitesKept w.auth.db.invites w.log) (hk : EnrollsAlone i c f w) (hc : w.log.Allows i c) :
    InvitesKept ((inviteSystem a).perform i c f w).2.auth.db.invites
      ((inviteSystem a).perform i c f w).2.log := by
  change InvitesKept (c.perform f w.auth).2.db.invites (w.log.note i c (c.perform f w.auth).1)
  by_cases hinvites : c.writes = some .invites
  · cases c
    case markAdminInviteUsed id identityID =>
      obtain ⟨invite, hstage, rfl⟩ := hc
      obtain ⟨hfault, htried⟩ := hk
      obtain ⟨c, hc, -, hinv, hm⟩ := h.stage i invite hstage
      have hopen : ¬ InviteClosed invite.id w.auth.db.invites := hinv ▸ h.pending c hc hm
      have hperform : (AuthCall.markAdminInviteUsed invite.id identityID).perform f w.auth =
          ((w.auth.db.markAdminInviteUsed invite.id identityID).1,
            ⟨(w.auth.db.markAdminInviteUsed invite.id identityID).2,
              w.auth.clock + f.elapsed⟩) := by
        simp only [AuthCall.perform, AuthCall.takesPlace, hfault]
        rfl
      rw [hperform]
      rcases w.auth.db.closeInvite_cases invite.id
        (fun v => { v with status := .used, usedByIdentityID := identityID }) fun _ => rfl with
        ⟨hrows, hok⟩ | ⟨-, hclosed⟩
      · change InvitesKept (w.auth.db.closeInvite invite.id _).2.invites
          ⟨_, InviteLog.markCreated i invite.id
            (w.auth.db.closeInvite invite.id _).1.isOk w.log.created⟩
        rw [hrows, hok]
        exact h.mark (fun _ => by simp) htried
      · exact absurd hclosed hopen
    case revokeAdminInvite id =>
      have hnote : w.log.note i (.revokeAdminInvite id)
          ((AuthCall.revokeAdminInvite id).perform f w.auth).1 =
            ⟨w.log.stages.set i (w.log.stages i), w.log.created⟩ := rfl
      rw [hnote]
      rcases AuthCall.perform_revokeAdminInvite id f w.auth with he | he <;> rw [he]
      · exact h.stay fun _ hs => hs
      · rcases w.auth.db.closeInvite_cases id (fun v => { v with status := .revoked })
          fun _ => rfl with ⟨hrows, -⟩ | ⟨hrows, -⟩
        · rw [AuthDB.revokeAdminInvite, hrows]
          exact h.revoke (fun _ => by simp) hk
        · rw [AuthDB.revokeAdminInvite, hrows]
          exact h.stay fun _ hs => hs
    all_goals exact absurd hinvites (by simp [AuthCall.writes])
  · rw [(c.frame_perform f w.auth).invites hinvites]
    cases c
    case getAdminInviteByTokenHash tokenHash =>
      cases ((AuthCall.getAdminInviteByTokenHash tokenHash).perform f w.auth).1 with
      | error e => exact h.stay fun _ hs => hs
      | ok invite => exact h.stay (e := some (.read invite)) fun _ hs => by cases hs
    case createAdminProfile profile id =>
      obtain ⟨invite, hstage⟩ := hc
      have hreading : invite ∈ w.log.reading i := by
        simp only [InviteLog.reading, hstage, Option.mem_some_iff]
      rw [InviteLog.note_create hstage]
      cases ((AuthCall.createAdminProfile profile id).perform f w.auth).1 with
      | error e => exact h.stay fun _ hs => hs
      | ok row => exact h.create row (hk invite hreading).1 (hk invite hreading).2
    case markAdminInviteUsed => exact absurd rfl hinvites
    all_goals exact h.stay fun _ hs => hs

namespace InviteSample

def authenticator : Authenticator := ⟨.plain, 10 * minute⟩

/-- One invite with the token `t` and the code `C`. -/
def db : AuthDB :=
  { AuthDB.empty with invites := [⟨"v", "#t", "#C", .admin, .active, 100, ""⟩] }

def enroll (login : String) : InviteRequest := .enroll ⟨"t", "c", login, "", "s3cret!"⟩

/-- Calls of the `i`-th request; what is drawn at random has the number in it. -/
def calls (i n : ℕ) : List (Pool.Event AuthOutcome Empty InviteRequest) :=
  (List.range n).map fun k => .call i ⟨0, .none, toString i ++ "-" ++ toString k⟩

def config : Pool.Config AuthCall AuthCall.Reply InviteWorld Unit := ⟨⟨⟨db, 0⟩, .empty⟩, []⟩

def outcome (es : List (Pool.Event AuthOutcome Empty InviteRequest)) :
    Option (List (String × ℕ × Option Bool)) :=
  (runs (Pool.step (inviteSystem authenticator)) config es).map fun s =>
    s.world.log.created.map fun c => (c.invite, c.request, c.marked)

/-- Both requests read the invite while it is active. -/
def together : List (Pool.Event AuthOutcome Empty InviteRequest) :=
  [.start (enroll "ann"), .start (enroll "bob")] ++ calls 0 3 ++ calls 1 3 ++ calls 0 8 ++ calls 1 8

def inTurn : List (Pool.Event AuthOutcome Empty InviteRequest) :=
  [.start (enroll "ann"), .start (enroll "bob")] ++ calls 0 11 ++ calls 1 3

end InviteSample

end LazGate
