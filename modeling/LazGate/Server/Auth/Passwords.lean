import LazGate.Lib.Pool
import LazGate.Server.Auth.Client

/-!
# Passwords under concurrent requests

Logins, password changes, owner resets and recoveries run side by side, their store calls
interleaved in every way. A login reads the whole credential and later writes the whole row back.
-/

namespace LazGate

open Prog

/-! ## The requests -/

inductive PasswordRequest where
  | adminLogin (login password : String)
  | clientLogin (accountID password : String)
  | changePassword (changeToken newPassword : String)
  | resetPassword (principal : Principal) (id : String) (input : ResetPasswordInput)
  | recover (accountID recoveryCode newPassword : String)

namespace PasswordRequest

def attempt : PasswordRequest → Option String
  | .adminLogin _ password => some password
  | .clientLogin _ password => some password
  | _ => none

/-- The handler of the request, up to its response. -/
def prog (a : Authenticator) : PasswordRequest → Prog AuthCall AuthCall.Reply Unit
  | .adminLogin login password =>
    (fun _ => ()) <$> Handler.serve
      (orElse (unauthorized "unauthorized") (a.loginWithPassword login password))
  | .clientLogin accountID password =>
    (fun _ => ()) <$> Handler.serve (LazGate.clientLogin a.crypto accountID password)
  | .changePassword changeToken newPassword =>
    (fun _ => ()) <$> Handler.serve (failAs unauthorized (a.changePassword changeToken newPassword))
  | .resetPassword principal id input =>
    (fun _ => ()) <$> Handler.serve (resetAdminPassword a.crypto principal id input)
  | .recover accountID recoveryCode newPassword =>
    (fun _ => ()) <$> Handler.serve
      (LazGate.recover a.crypto accountID recoveryCode newPassword)

end PasswordRequest

/-! ## The record -/

/-- A call other than of the clock. -/
def AuthCall.movesOn : AuthCall → Bool
  | .now => false
  | _ => true

def AuthCall.responds : AuthCall → Bool
  | .respond _ => true
  | _ => false

/-- What the requests have done to each credential, by its id. -/
structure Tally where
  /-- The hash that the last password change, reset or recovery committed. -/
  committed : String → Option String
  /-- The attempts with a wrong password since the last right one or password change. -/
  wrong : String → ℕ
  /-- The lock times that these attempts have set. -/
  locks : String → List Time

namespace Tally

def reset (id : String) (t : Tally) : Tally :=
  { t with
    wrong := Function.update t.wrong id 0
    locks := Function.update t.locks id [] }

def commit (id hash : String) (t : Tally) : Tally :=
  { t.reset id with committed := Function.update t.committed id (some hash) }

/-- One more wrong password for the credential as it was read; `c` is the call that ends the
attempt. A lock time that differs from the one that was read was set by the attempt. -/
def miss (read : AuthCredential) (c : AuthCall) (t : Tally) : Tally :=
  { t with
    wrong := Function.update t.wrong read.id (t.wrong read.id + 1)
    locks := match c with
      | .updateAuthCredential written =>
        if written.lockedUntil = read.lockedUntil then t.locks
        else Function.update t.locks read.id (written.lockedUntil.toList ++ t.locks read.id)
      | _ => t.locks }

/-- The first call, other than of the clock, that a login makes after it has read the credential.
It ends an attempt on an active credential: a wrong password counts, and a right one that is not
refused ends the count. -/
def close (X : Crypto) (password : String) (read : AuthCredential) (c : AuthCall) (t : Tally) :
    Tally :=
  if read.status ≠ .active ∨ c.movesOn = false then t
  else if X.compareHashAndPassword read.secretHash password then
    if c.responds then t else t.reset read.id
  else t.miss read c

end Tally

structure PasswordLog where
  requests : ℕ → Option PasswordRequest
  /-- The credential that a login has read and has not made a call for since. -/
  reading : Pool.Board AuthCredential
  tally : Tally

namespace PasswordLog

/-- The password of the `i`-th request, if it is a login. -/
def attempt (l : PasswordLog) (i : ℕ) : Option String :=
  (l.requests i).bind PasswordRequest.attempt

def readingAfter (l : PasswordLog) (i : ℕ) : (c : AuthCall) → c.Reply → Option AuthCredential
  | .now, _ => l.reading i
  | .getAuthCredential .., .ok credential => if (l.attempt i).isSome then some credential else none
  | _, _ => none

def tallyAfter (X : Crypto) (l : PasswordLog) (i : ℕ) (c : AuthCall) (f : AuthOutcome)
    (reply : c.Reply) : Tally :=
  match l.attempt i with
  | some password =>
    match l.reading i with
    | none => l.tally
    | some read => l.tally.close X password read c
  | none =>
    match c, reply with
    | .updateAuthCredential credential, _ =>
      if AuthCall.takesPlace (.updateAuthCredential credential) f then
        l.tally.commit credential.id credential.secretHash
      else l.tally
    | .createAuthCredential .., .ok credential =>
      l.tally.commit credential.id credential.secretHash
    | _, _ => l.tally

/-- The record after a call of the `i`-th request. -/
def note (X : Crypto) (l : PasswordLog) (i : ℕ) (c : AuthCall) (f : AuthOutcome)
    (reply : c.Reply) : PasswordLog where
  requests := l.requests
  reading := l.reading.set i (l.readingAfter i c reply)
  tally := l.tallyAfter X i c f reply

/-- The record with the `i`-th request, which has just arrived. -/
def start (i : ℕ) (q : PasswordRequest) (l : PasswordLog) : PasswordLog :=
  { l with
    requests := Function.update l.requests i (some q)
    reading := l.reading.set i none }

def empty : PasswordLog := ⟨fun _ => none, .empty, ⟨fun _ => none, fun _ => 0, fun _ => []⟩⟩

end PasswordLog

structure PasswordWorld where
  auth : AuthWorld
  log : PasswordLog

/-- Any number of requests side by side. -/
def passwordSystem (a : Authenticator) :
    PoolSystem AuthCall AuthCall.Reply AuthOutcome PasswordWorld Empty PasswordRequest Unit where
  perform i c f w := ((c.perform f w.auth).1,
    ⟨(c.perform f w.auth).2, w.log.note a.crypto i c f (c.perform f w.auth).1⟩)
  act e _ := e.elim
  enter i q w := some { w with log := w.log.start i q }
  prog := PasswordRequest.prog a

/-! ## What a login may call -/

/-- The calls that may follow the read of a credential by a login with this password. -/
inductive Closes (X : Crypto) (password : String) (read : AuthCredential) : AuthCall → Prop
  | now : Closes X password read .now
  | inactive (r : Option HTTPError) (h : read.status ≠ .active) :
    Closes X password read (.respond r)
  | locked (e : HTTPError) (h : read.lockedUntil.isSome) :
    Closes X password read (.respond (some e))
  | right (hactive : read.status = .active)
    (h : X.compareHashAndPassword read.secretHash password = true) :
    Closes X password read
      (.updateAuthCredential { read with failedAttempts := 0, lockedUntil := none })
  | clean (c : AuthCall) (h : X.compareHashAndPassword read.secretHash password = true)
    (hfailed : read.failedAttempts = 0) (hlocked : read.lockedUntil = none)
    (hc : c = .newToken ∨ ∃ id, c = .getAdminProfile id) : Closes X password read c
  | wrong (hactive : read.status = .active)
    (h : X.compareHashAndPassword read.secretHash password = false)
    (hfew : read.failedAttempts + 1 < lockoutAttempts) :
    Closes X password read
      (.updateAuthCredential { read with failedAttempts := read.failedAttempts + 1 })
  | lock (u : Time) (hactive : read.status = .active)
    (h : X.compareHashAndPassword read.secretHash password = false)
    (hmany : lockoutAttempts ≤ read.failedAttempts + 1) (hnew : read.lockedUntil ≠ some u) :
    Closes X password read (.updateAuthCredential { read with
      failedAttempts := read.failedAttempts + 1
      lockedUntil := some u })

def Unlocks : AuthCall → Prop
  | .updateAuthCredential credential | .createAuthCredential credential _ =>
    credential.failedAttempts = 0 ∧ credential.lockedUntil = none
  | _ => True

/-- What the `i`-th request may call: a login writes a credential only after it has read it, and
any other request unlocks what it writes. -/
def Conforms (X : Crypto) (i : ℕ) (c : AuthCall) (w : PasswordWorld) : Prop :=
  match w.log.attempt i with
  | none => Unlocks c
  | some password =>
    match w.log.reading i with
    | none => c.writes ≠ some .credentials
    | some read => Closes X password read c

/-- A request counts on its own entries of the record, and on the clock. -/
structure PasswordRely (i : ℕ) (w w' : PasswordWorld) : Prop where
  request : w'.log.requests i = w.log.requests i
  reading : w'.log.reading i = w.log.reading i
  clock : w.auth.clock ≤ w'.auth.clock

def passwordProtocol (a : Authenticator) : Pool.Protocol (passwordSystem a) where
  rely := PasswordRely
  refl _ _ := ⟨rfl, rfl, le_refl _⟩
  trans _ _ _ _ h h' := ⟨h'.request.trans h.request, h'.reading.trans h.reading,
    h.clock.trans h'.clock⟩
  conf := Conforms a.crypto

/-! ## Logins keep to it -/

variable {α ε : Type} {f : AuthOutcome} {c : AuthCall} {credential read : AuthCredential}
  {w w' : PasswordWorld} {p : Prog AuthCall AuthCall.Reply α} {duration : Time}

section Logins

variable {a : Authenticator} {K : ℕ → AuthCall → AuthOutcome → PasswordWorld → Prop} (i : ℕ)
  (password : String)

/-- The `i`-th request is a login with this password and has nothing open. -/
structure Idle (w : PasswordWorld) : Prop where
  attempt : w.log.attempt i = some password
  reading : w.log.reading i = none

/-- The `i`-th request is a login with this password and has read the credential. -/
structure Opened (read : AuthCredential) (w : PasswordWorld) : Prop where
  attempt : w.log.attempt i = some password
  reading : w.log.reading i = some read

variable {i password}

theorem PasswordRely.attempt_eq (h : PasswordRely i w w') (ha : w.log.attempt i = some password) :
    w'.log.attempt i = some password := by
  rw [PasswordLog.attempt, h.request]
  exact ha

theorem Idle.rely (h : Idle i password w) (hr : PasswordRely i w w') : Idle i password w' :=
  ⟨hr.attempt_eq h.attempt, hr.reading.trans h.reading⟩

theorem Opened.rely (h : Opened i password read w) (hr : PasswordRely i w w') :
    Opened i password read w' :=
  ⟨hr.attempt_eq h.attempt, hr.reading.trans h.reading⟩

/-- The calls of a login that neither read nor write a credential. -/
def aside (c : AuthCall) : Prop :=
  c.writes ≠ some .credentials ∧ ∀ id type, c ≠ .getAuthCredential id type

theorem readingAfter_aside {l : PasswordLog} (h : aside c) (hn : l.reading i = none)
    (reply : c.Reply) : l.readingAfter i c reply = none := by
  cases c
  case now => exact hn
  case getAuthCredential id type => exact absurd rfl (h.2 id type)
  all_goals rfl

theorem reading_perform (c : AuthCall) (f : AuthOutcome) (w : PasswordWorld) :
    ((passwordSystem a).perform i c f w).2.log.reading i =
      w.log.readingAfter i c (c.perform f w.auth).1 := Pool.Board.set_self ..

theorem Idle.call (h : Idle i password w) (hc : aside c) :
    (passwordProtocol a).conf i c w ∧ Idle i password ((passwordSystem a).perform i c f w).2 := by
  refine ⟨?_, h.attempt, ?_⟩
  · simp only [passwordProtocol, Conforms, h.attempt, h.reading]
    exact hc.1
  · rw [reading_perform]
    exact readingAfter_aside hc h.reading _

theorem Idle.safe (hp : Only aside p) (hw : Idle i password w) :
    Safe ((passwordProtocol a).setting K i) p (fun _ => Idle i password) w :=
  (passwordProtocol a).safe_only K hp (fun _ _ h hr => h.rely hr) (fun _ _ _ hc h => h.call hc) hw

theorem Opened.close {Q : c.Reply → PasswordWorld → Prop} (h : Opened i password read w)
    (hc : Closes a.crypto password read c)
    (hidle : ∀ (l : PasswordLog) reply, l.readingAfter i c reply = none)
    (hq : ∀ r w, Idle i password w → Q r w) :
    Safe ((passwordProtocol a).setting K i) (ask c) Q w := by
  refine (passwordProtocol a).safe_ask K fun w' hr => ⟨?_, fun f _ w'' hr' => hq _ _ ?_⟩
  · simp only [passwordProtocol, Conforms, (h.rely hr).attempt, (h.rely hr).reading]
    exact hc
  · refine Idle.rely (w := ((passwordSystem a).perform i c f w').2) ⟨(h.rely hr).attempt, ?_⟩ hr'
    rw [reading_perform, hidle]

theorem Opened.now (h : Opened i password read w) :
    Safe ((passwordProtocol a).setting K i) (LazGate.now : AuthProg ε Time).run
      (onOk (fun t w' => Opened i password read w' ∧ w.auth.clock ≤ t ∧ t ≤ w'.auth.clock)
        fun _ _ => False) w := by
  refine Safe.map ((passwordProtocol a).safe_ask K fun w' hr => ⟨?_, fun f _ w'' hr' => ?_⟩)
  · simp only [passwordProtocol, Conforms, (h.rely hr).attempt, (h.rely hr).reading]
    exact .now
  · have hopen : Opened i password read ((passwordSystem a).perform i .now f w').2 := by
      refine ⟨(h.rely hr).attempt, ?_⟩
      rw [reading_perform]
      exact (h.rely hr).reading
    have hreply : ((passwordSystem a).perform i .now f w').1 =
        ((passwordSystem a).perform i .now f w').2.auth.clock := AuthCall.perform_now f w'.auth
    refine ⟨hopen.rely hr', ?_, hreply.trans_le hr'.clock⟩
    exact (hr.clock.trans (AuthCall.clock_le_perform .now f w'.auth)).trans_eq hreply.symm

/-- The read of the credential. -/
theorem Idle.getAuthCredential (h : Idle i password w) (id : String) (type : AuthCredentialType) :
    Safe ((passwordProtocol a).setting K i) (LazGate.getAuthCredential id type).run
      (onOk (fun read => Opened i password read) fun _ => Idle i password) w := by
  refine (passwordProtocol a).safe_ask K fun w' hr => ⟨?_, fun f _ w'' hr' => ?_⟩
  · simp only [passwordProtocol, Conforms, (h.rely hr).attempt, (h.rely hr).reading]
    exact fun hw => by cases hw
  · have hatt := (h.rely hr).attempt
    have hread := reading_perform (a := a) (i := i) (.getAuthCredential id type) f w'
    cases hreply : ((passwordSystem a).perform i (.getAuthCredential id type) f w').1 with
    | ok read =>
      refine Opened.rely (w := ((passwordSystem a).perform i (.getAuthCredential id type) f w').2)
        ⟨hatt, ?_⟩ hr'
      rw [hread]
      change w'.log.readingAfter i _ ((passwordSystem a).perform i _ f w').1 = _
      rw [hreply, PasswordLog.readingAfter, hatt]
      rfl
    | error e =>
      refine Idle.rely (w := ((passwordSystem a).perform i (.getAuthCredential id type) f w').2)
        ⟨hatt, ?_⟩ hr'
      rw [hread]
      change w'.log.readingAfter i _ ((passwordSystem a).perform i _ f w').1 = _
      rw [hreply]
      rfl

section

variable (h : Opened i password read w)

include h

/-- Whether the credential is locked; if it is not, a lock that it has is over. -/
theorem Opened.isLocked :
    Safe ((passwordProtocol a).setting K i) (LazGate.isLocked read : AuthProg ε Bool).run
      (onOk (fun locked w' => Opened i password read w' ∧ (locked → read.lockedUntil.isSome) ∧
        (locked = false → ∀ u ∈ read.lockedUntil, u ≤ w'.auth.clock)) fun _ _ => False) w := by
  rw [LazGate.isLocked]
  cases hl : read.lockedUntil with
  | none =>
    exact Safe.ok fun w' hr => ⟨h.rely hr, fun hf => absurd hf Bool.false_ne_true,
      fun _ u hu => absurd hu (by simp)⟩
  | some u =>
    refine Safe.seq (h.now) fun t w' ht => Safe.ok fun w'' hr =>
      ⟨ht.1.rely hr, fun _ => rfl, fun hlt u' hu' => ?_⟩
    cases hu'
    exact ((not_lt.1 (of_decide_eq_false hlt)).trans ht.2.2).trans hr.clock

theorem Opened.clear (hactive : read.status = .active)
    (hright : a.crypto.compareHashAndPassword read.secretHash password = true) :
    Safe ((passwordProtocol a).setting K i)
      (updateAuthCredential { read with failedAttempts := 0, lockedUntil := none }).run
      (fun _ => Idle i password) w :=
  h.close (.right hactive hright) (fun _ _ => rfl) fun _ _ hi => hi

theorem Opened.recordFailure (hd : 0 < duration) (hactive : read.status = .active)
    (hwrong : a.crypto.compareHashAndPassword read.secretHash password = false)
    (hover : ∀ u ∈ read.lockedUntil, u ≤ w.auth.clock) :
    Safe ((passwordProtocol a).setting K i)
      (LazGate.recordFailure lockoutAttempts duration read).run (fun _ => Idle i password) w := by
  rw [LazGate.recordFailure]
  split
  · rename_i hmany
    refine Safe.andThen (Safe.mono (h.now) ?_)
    rintro (e | t) w' ht
    · exact ht.elim
    · refine ht.1.close (.lock _ hactive hwrong hmany ?_) (fun _ _ => rfl) fun _ _ hi => hi
      intro hl
      -- a lock that is over by now is not the one that is being set
      have hle := (hover _ hl).trans ht.2.1
      exact absurd hle (not_le.2 (Int.lt_add_of_pos_right t hd))
  · rename_i hfew
    exact h.close (.wrong hactive hwrong (not_le.1 hfew)) (fun _ _ => rfl) fun _ _ hi => hi

end

theorem only_aside (hw : c.writes ≠ some .credentials)
    (hg : ∀ id type, c ≠ .getAuthCredential id type) :
    Only (R := AuthCall.Reply) aside (ask c) :=
  Only.ask ⟨hw, hg⟩

theorem only_now : Only aside (LazGate.now : AuthProg ε Time).run :=
  Only.map (only_aside (by simp [AuthCall.writes]) (by simp))

theorem only_newID : Only aside (newID : AuthProg ε String).run :=
  Only.map (only_aside (by simp [AuthCall.writes]) (by simp))

theorem only_newToken : Only aside newToken.run :=
  only_aside (by simp [AuthCall.writes]) (by simp)

theorem only_createAuthSession (session : AuthSession) :
    Only aside (createAuthSession session).run :=
  Only.andThen only_newID fun _ => Only.andThen only_newID fun _ => Only.andThen only_newID
    fun _ => only_aside (by simp [AuthCall.writes]) (by simp)

theorem only_createStrongSession (X : Crypto) (identity : AuthIdentity) (accountID : String) :
    Only aside (createStrongSession X identity accountID).run :=
  Only.andThen only_newToken fun _ => Only.andThen only_newToken fun _ => Only.andThen only_now
    fun _ => Only.andThen (only_createAuthSession _) fun _ => Only.ok

/-- The login has been granted: it has nothing open, or what is open needs no write. -/
def Granted (a : Authenticator) (i : ℕ) (password : String) (w : PasswordWorld) : Prop :=
  Idle i password w ∨ ∃ read, Opened i password read w ∧
    a.crypto.compareHashAndPassword read.secretHash password = true ∧
    read.failedAttempts = 0 ∧ read.lockedUntil = none

theorem Granted.call (h : Granted a i password w)
    (hc : c = .newToken ∨ ∃ id, c = .getAdminProfile id) :
    Safe ((passwordProtocol a).setting K i) (ask c) (fun _ => Idle i password) w := by
  have haside : aside c := by
    rcases hc with rfl | ⟨id, rfl⟩ <;> exact ⟨by simp [AuthCall.writes], by simp⟩
  rcases h with h | ⟨read, h, hright, hfailed, hlocked⟩
  · exact h.safe (Only.ask haside)
  · refine h.close (.clean c hright hfailed hlocked hc) (fun _ _ => ?_) fun _ _ hi => hi
    rcases hc with rfl | ⟨id, rfl⟩ <;> rfl

/-- The handler is about to respond: it has nothing open, or what is open allows the response. -/
def Answerable (i : ℕ) (password : String) (refused : Bool) (w : PasswordWorld) : Prop :=
  Idle i password w ∨ ∃ read, Opened i password read w ∧
    (read.status ≠ .active ∨ refused ∧ read.lockedUntil.isSome)

/-- `x` ends with an answer, or with a refusal. -/
abbrev Answers (a : Authenticator) (K : ℕ → AuthCall → AuthOutcome → PasswordWorld → Prop) (i : ℕ)
    (password : String) (x : AuthProg ε α) (w : PasswordWorld) : Prop :=
  Safe ((passwordProtocol a).setting K i) x.run
    (onOk (fun _ => Answerable i password false) fun _ => Answerable i password true) w

section

variable (h : Granted a i password w)

include h

theorem Granted.issueNormalSession (identity : AuthIdentity) :
    Safe ((passwordProtocol a).setting K i) (a.issueNormalSession identity).run
      (fun _ => Idle i password) w := by
  refine Safe.andThen (Safe.failAs ((h.call (.inr ⟨_, rfl⟩)).mono ?_))
  rintro (e | profile) w' hi
  · exact hi
  · change Safe _ (ite _ _ _) _ _
    split
    · exact hi.safe Only.fail
    · exact hi.safe (Only.andThen only_now fun _ => Only.andThen only_newToken fun _ =>
        Only.andThen only_newToken fun _ => Only.andThen (only_createAuthSession _) fun _ =>
          Only.andThen only_now fun _ => Only.ok)

theorem Granted.completeLogin (identity : AuthIdentity) :
    Safe ((passwordProtocol a).setting K i) (a.completeLogin identity).run
      (fun _ => Idle i password) w := by
  rw [Authenticator.completeLogin]
  split
  · refine Safe.andThen ((h.call (.inl rfl)).mono ?_)
    rintro (e | token) w' hi
    · exact hi
    · exact hi.safe (Only.andThen only_now fun _ =>
        Only.andThen (only_createAuthSession _) fun _ => Only.ok)
  · refine Safe.andThen ((h.issueNormalSession identity).mono ?_)
    rintro (e | result) w' hi
    · exact hi
    · exact hi.safe Only.ok

theorem Granted.rely (hr : PasswordRely i w w') : Granted a i password w' := by
  rcases h with h | ⟨read, h, hrest⟩
  · exact .inl (h.rely hr)
  · exact .inr ⟨read, h.rely hr, hrest⟩

end

section

variable (h : Opened i password read w)

include h

theorem Opened.clearFailures (hactive : read.status = .active)
    (hright : a.crypto.compareHashAndPassword read.secretHash password = true) :
    Safe ((passwordProtocol a).setting K i) (Authenticator.clearFailures read).run
      (fun _ => Granted a i password) w := by
  rw [Authenticator.clearFailures]
  split
  · exact (h.clear hactive hright).mono fun _ _ hi => .inl hi
  · rename_i hclean
    simp only [not_or, ne_eq, not_not, Bool.not_eq_true, Option.isSome_eq_false_iff,
      Option.isNone_iff_eq_none] at hclean
    exact Safe.ok fun w' hr => .inr ⟨read, h.rely hr, hright, hclean.1, hclean.2⟩

theorem Opened.refuse (hd : 0 < duration) (hactive : read.status = .active)
    (hwrong : a.crypto.compareHashAndPassword read.secretHash password = false)
    (hover : ∀ u ∈ read.lockedUntil, u ≤ w.auth.clock) (e : String) :
    Answers a K i password (do
      ignoring (LazGate.recordFailure lockoutAttempts duration read)
      throw e : AuthM α) w := by
  refine Safe.andThen (Safe.mono (safe_ignoring (fun _ _ h hr => Idle.rely h hr)
    (h.recordFailure hd hactive hwrong hover)) ?_)
  rintro (e' | _) w' hi
  · exact hi.elim
  · exact Safe.fail fun w'' hr => .inl (hi.rely hr)

/-- A login that is granted has nothing open; one that is refused may leave a locked or inactive
credential open. -/
theorem Opened.checkPassword (hactive : read.status = .active) (identity : AuthIdentity) :
    Answers a K i password (a.checkPassword identity read password) w := by
  refine Safe.andThen (Safe.mono (h.isLocked) ?_)
  rintro (e | _ | _) w' hl
  · exact hl.elim
  · simp only [onOk_ok, Bool.false_eq_true, if_false]
    split
    · rename_i hright
      refine Safe.andThen (Safe.mono (safe_ignoring (fun _ _ h hr => Granted.rely h hr)
        (hl.1.clearFailures hactive hright)) ?_)
      rintro (e | _) w' hg
      · exact hg.elim
      · refine (hg.completeLogin identity).mono ?_
        rintro (e | outcome) w'' hi <;> exact .inl hi
    · rename_i hwrong
      exact hl.1.refuse (show (0 : Time) < lockoutDuration by decide) hactive
        (by simpa using hwrong) (hl.2.2 rfl) _
  · exact Safe.fail fun w'' hr => .inr ⟨read, hl.1.rely hr, .inr ⟨rfl, hl.2.1 rfl⟩⟩

theorem Opened.checkStrongPassword (hactive : read.status = .active) (account : Account)
    (identity : AuthIdentity) :
    Answers a K i password (checkStrongPassword a.crypto account identity read password) w := by
  refine Safe.andThen (Safe.mono (h.isLocked) ?_)
  rintro (e | _ | _) w' hl
  · exact hl.elim
  · simp only [onOk_ok, Bool.false_eq_true, if_false]
    split
    · rename_i hright
      refine Safe.andThen (Safe.mono (safe_ignoring (fun _ _ h hr => Idle.rely h hr)
        (hl.1.clear hactive hright)) ?_)
      rintro (e | _) w' hi
      · exact hi.elim
      · refine (hi.safe (only_createStrongSession _ _ _)).mono ?_
        rintro (e | granted) w'' hi <;> exact .inl hi
    · rename_i hwrong
      exact hl.1.refuse (show (0 : Time) < strongLockDuration by decide) hactive
        (by simpa using hwrong) (hl.2.2 rfl) _
  · exact Safe.fail fun w'' hr => .inr ⟨read, hl.1.rely hr, .inr ⟨rfl, hl.2.1 rfl⟩⟩

end

theorem Idle.loginWithPassword (h : Idle i password w) (login : String) :
    Answers a K i password (a.loginWithPassword login password) w := by
  refine Safe.andThen (Safe.failAs ((h.safe (only_aside
    (c := .findActiveAdminIdentityByLogin (trimSpace login)) (by simp [AuthCall.writes])
    (by simp))).mono ?_))
  rintro (e | identity) w' hi
  · exact .inl hi
  change Safe _ (ite _ _ _) _ _
  split
  · exact Safe.fail fun w'' hr => .inl (hi.rely hr)
  refine Safe.andThen (Safe.failAs ((hi.getAuthCredential identity.id .password).mono ?_))
  rintro (e | read) w'' ho
  · exact .inl ho
  change Safe _ (ite _ _ _) _ _
  split
  · rename_i hinactive
    exact Safe.fail fun w₃ hr => .inr ⟨read, ho.rely hr, .inl hinactive⟩
  · rename_i hactive
    exact ho.checkPassword (not_not.1 hactive) identity

theorem Idle.loginStrongUser (h : Idle i password w) (account : Account) :
    Answers a K i password (loginStrongUser a.crypto account password) w := by
  refine Safe.andThen ((h.safe (only_aside
    (c := .findActiveUserIdentityByAccountID account.id) (by simp [AuthCall.writes])
    (by simp))).mono ?_)
  rintro (e | identity) w' hi
  · exact .inl hi
  refine Safe.andThen ((hi.getAuthCredential identity.id .password).mono ?_)
  rintro (e | read) w'' ho
  · exact .inl ho
  change Safe _ (ite _ _ _) _ _
  split
  · rename_i hinactive
    exact Safe.ok fun w₃ hr => .inr ⟨read, ho.rely hr, .inl hinactive⟩
  · rename_i hactive
    refine Safe.andThen ((ho.checkStrongPassword (not_not.1 hactive) account
      identity).weaken ?_)
    rintro (e | granted) w₃ hs
    · exact hs w₃ (Setting.refl _ _)
    · exact Safe.ok hs

theorem Answerable.respond {refused : Bool} (h : Answerable i password refused w)
    {r : Option HTTPError} (hr : refused → r.isSome) :
    Safe ((passwordProtocol a).setting K i) (ask (.respond r)) (fun _ _ => True) w := by
  rcases h with h | ⟨read, h, hinactive | ⟨href, hlocked⟩⟩
  · exact (h.safe (only_aside (by simp [AuthCall.writes]) (by simp))).mono
      fun _ _ _ => trivial
  · exact h.close (.inactive r hinactive) (fun _ _ => rfl) fun _ _ _ => trivial
  · obtain ⟨e, rfl⟩ := Option.isSome_iff_exists.1 (hr href)
    exact h.close (.locked e hlocked) (fun _ _ => rfl) fun _ _ _ => trivial

theorem safe_servePassword (password : String) {h : Handler α} (hh : Answers a K i password h w) :
    Safe ((passwordProtocol a).setting K i) ((fun _ => ()) <$> h.serve) (fun _ _ => True) w := by
  refine Safe.map (Safe.bind (hh.mono ?_))
  rintro (e | x) w' hs
  · refine Safe.bind (Safe.mono (hs.respond fun _ => rfl) ?_)
    exact fun _ _ _ => safe_done.2 fun _ _ => trivial
  · refine Safe.bind (Safe.mono (hs.respond fun hf => absurd hf Bool.false_ne_true) ?_)
    exact fun _ _ _ => safe_done.2 fun _ _ => trivial

end Logins

/-! ## The other requests keep to it -/

variable (a : Authenticator)

section Unlocks

theorem unlocks_of_aside (h : Only aside p) :
    Only Unlocks p := by
  refine h.mono fun c hc => ?_
  cases c
  case updateAuthCredential => exact absurd rfl hc.1
  case createAuthCredential => exact absurd rfl hc.1
  all_goals trivial

theorem unlocks_withPassword (credential : AuthCredential) (hash : String) :
    Only Unlocks (updateAuthCredential (credential.withPassword hash)).run := Only.ask ⟨rfl, rfl⟩

theorem unlocks_issueNormalSession (identity : AuthIdentity) :
    Only Unlocks (a.issueNormalSession identity).run := by
  refine Only.andThen (Only.failAs (Only.ask trivial)) fun profile => ?_
  split
  · exact Only.fail
  · exact unlocks_of_aside (Only.andThen only_now fun _ => Only.andThen only_newToken fun _ =>
      Only.andThen only_newToken fun _ => Only.andThen (only_createAuthSession _) fun _ =>
        Only.andThen only_now fun _ => Only.ok)

theorem unlocks_changePassword (changeToken newPassword : String) :
    Only Unlocks (a.changePassword changeToken newPassword).run := by
  refine Only.andThen (Only.failAs (Only.ask trivial)) fun session => ?_
  refine Only.andThen (unlocks_of_aside only_now) fun t => ?_
  split
  · exact Only.fail
  refine Only.andThen (Only.failAs (Only.ask trivial)) fun identity => ?_
  split
  · exact Only.fail
  refine Only.check fun _ _ => ?_
  refine Only.andThen (Only.ask trivial) fun hash => ?_
  refine Only.andThen (Only.ask trivial) fun credential => ?_
  refine Only.andThen (unlocks_withPassword _ _) fun _ => ?_
  refine Only.andThen (Only.ask trivial) fun _ => ?_
  refine Only.andThen (only_ignoring (Only.ask trivial)) fun _ => ?_
  exact unlocks_issueNormalSession a _

theorem unlocks_updateAdminPasswordCredential (credential : AuthCredential) (password : String) :
    Only Unlocks (updateAdminPasswordCredential credential password).run := by
  refine Only.andThen (Only.failAs (Only.ask trivial)) fun hash => ?_
  exact Only.andThen (Only.failAs (unlocks_withPassword _ _)) fun _ => Only.ok

theorem unlocks_adminIdentityProfile (id : String) :
    Only Unlocks (adminIdentityProfile id).run := by
  refine Only.andThen (Only.failAs (Only.ask trivial)) fun identity => ?_
  split
  · exact Only.fail
  · exact Only.andThen (Only.failAs (Only.ask trivial)) fun _ => Only.ok

section

variable (X : Crypto)

include X

theorem unlocks_changeOwnAdminPassword (identity : AuthIdentity)
    (sessionID currentPassword newPassword : String) :
    Only Unlocks
      (changeOwnAdminPassword X identity sessionID currentPassword newPassword).run := by
  refine Only.andThen (Only.failAs (Only.ask trivial)) fun credential => ?_
  split
  case isFalse => exact Only.fail
  refine Only.check fun _ _ => ?_
  refine Only.andThen (unlocks_updateAdminPasswordCredential _ _) fun _ => ?_
  refine Only.andThen (Only.failAs (Only.ask trivial)) fun _ => ?_
  split <;> exact only_ignoring (Only.ask trivial)

theorem unlocks_ownerResetAdminPassword (identity : AuthIdentity) (password : String) :
    Only Unlocks (ownerResetAdminPassword X identity password).run := by
  refine Only.check fun _ _ => ?_
  refine Only.andThen (Only.failAs (Only.ask trivial)) fun credential => ?_
  refine Only.andThen (unlocks_updateAdminPasswordCredential _ _) fun _ => ?_
  refine Only.andThen (Only.failAs (Only.ask trivial)) fun _ => ?_
  exact only_ignoring (Only.ask trivial)

theorem unlocks_resetAdminPassword (principal : Principal) (id : String)
    (input : ResetPasswordInput) :
    Only Unlocks (resetAdminPassword X principal id input).run := by
  refine Only.andThen (unlocks_adminIdentityProfile id) fun x => ?_
  obtain ⟨identity, profile⟩ := x
  change Only Unlocks (ite _ _ _)
  split
  · exact unlocks_changeOwnAdminPassword X identity _ _ _
  · split
    · exact Only.fail
    · exact unlocks_ownerResetAdminPassword X identity _

theorem unlocks_setupStrongUser (account : Account) (password : String) :
    Only Unlocks (setupStrongUser X account password).run := by
  refine Only.check fun _ _ => ?_
  refine Only.andThen ?_ fun identity => ?_
  · refine Only.andThen (Only.result (Only.ask trivial)) fun found => ?_
    cases found with
    | ok identity => exact Only.ok
    | error e =>
      change Only Unlocks (ite _ _ _)
      split
      · exact Only.andThen (unlocks_of_aside only_newID) fun _ =>
          Only.ask trivial
      · exact Only.fail
  refine Only.andThen (Only.ask trivial) fun hash => ?_
  refine Only.andThen ?_ fun _ => unlocks_of_aside (only_createStrongSession _ _ _)
  refine Only.andThen (Only.result (Only.ask trivial)) fun found => ?_
  cases found with
  | ok credential => exact unlocks_withPassword _ _
  | error e =>
    change Only Unlocks (ite _ _ _)
    split
    · exact Only.andThen (unlocks_of_aside only_newID) fun _ => Only.ask ⟨rfl, rfl⟩
    · exact Only.fail

theorem unlocks_recover (accountID recoveryCode newPassword : String) :
    Only Unlocks (recover X accountID recoveryCode newPassword).run := by
  refine Only.andThen (Only.failAs (Only.ask trivial)) fun account => ?_
  refine Only.andThen (Only.failAs (Only.ask trivial)) fun identity => ?_
  refine Only.andThen (Only.map (Only.ask trivial)) fun codes => ?_
  cases codes.find? (matchesCode X recoveryCode) with
  | none => exact Only.fail
  | some code =>
    refine Only.andThen (only_ignoring (Only.ask trivial)) fun _ => ?_
    refine Only.andThen (only_ignoring (Only.ask trivial)) fun _ => ?_
    refine Only.andThen (Only.failAs (unlocks_setupStrongUser _ _ _)) fun x => ?_
    refine Only.andThen (Only.failAs (Only.ask trivial)) fun _ => ?_
    refine Only.andThen (Only.failAs ?_) fun _ => Only.ok
    exact Only.andThen (unlocks_of_aside only_newID) fun _ =>
      Only.ask trivial

end

end Unlocks

theorem passwordProtocol_kept (K : ℕ → AuthCall → AuthOutcome → PasswordWorld → Prop) :
    (passwordProtocol a).Kept K where
  act e := e.elim
  enter n q w w' he i hi := by
    cases he
    exact ⟨Function.update_of_ne hi.ne _ _, Pool.Board.set_of_ne _ hi.ne _, le_refl _⟩
  call i c f w j hj _ _ :=
    ⟨rfl, Pool.Board.set_of_ne _ hj _, AuthCall.clock_le_perform c f w.auth⟩
  prog n q w w' he := by
    cases he
    have hreq : (w.log.start n q).requests n = some q := Function.update_self ..
    have hread : (w.log.start n q).reading n = none := Pool.Board.set_self ..
    have hidle : ∀ password, q.attempt = some password →
        Idle n password { w with log := w.log.start n q } := by
      intro password hp
      exact ⟨by rw [PasswordLog.attempt, hreq]; exact hp, hread⟩
    have hfree : q.attempt = none → Only Unlocks ((passwordSystem a).prog q) →
        Safe ((passwordProtocol a).setting K n) ((passwordSystem a).prog q) (fun _ _ => True)
          { w with log := w.log.start n q } := by
      intro hq hp
      refine Safe.mono ((passwordProtocol a).safe_only K hp (I := fun w => w.log.attempt n = none)
        ?_ ?_ ?_) fun _ _ _ => trivial
      · intro w w' h hr
        rw [PasswordLog.attempt, hr.request]
        exact h
      · intro c f w hc h
        refine ⟨?_, h⟩
        simp only [passwordProtocol, Conforms, h]
        exact hc
      · rw [PasswordLog.attempt, hreq]
        exact hq
    cases q with
    | adminLogin login password =>
      refine safe_servePassword password
        (Safe.failAs (((hidle password rfl).loginWithPassword login).mono ?_))
      rintro (e | x) w' h <;> exact h
    | clientLogin accountID password =>
      refine safe_servePassword password (Safe.andThen (Safe.failAs (((hidle password rfl).safe
        (only_aside (c := .getAccount accountID) (by simp [AuthCall.writes]) (by simp))).mono ?_)))
      rintro (e | account) w' hi
      · exact .inl hi
      · refine Safe.failAs ((hi.loginStrongUser account).mono ?_)
        rintro (e | x) w'' h <;> exact h
    | changePassword changeToken newPassword =>
      exact hfree rfl (Only.map (only_serve (Only.failAs (unlocks_changePassword a _ _))
        fun _ => trivial))
    | resetPassword principal id input =>
      exact hfree rfl (Only.map (only_serve (unlocks_resetAdminPassword _ _ _ _) fun _ => trivial))
    | recover accountID recoveryCode newPassword =>
      exact hfree rfl (Only.map (only_serve (unlocks_recover _ _ _ _) fun _ => trivial))

/-! ## What a call does -/

/-- The table after `updateAuthCredential`. -/
def written (credential : AuthCredential) (credentials : List AuthCredential) :
    List AuthCredential :=
  Table.update (fun c => c.id == credential.id) (AuthDB.setCredential credential) credentials

theorem perform_updateAuthCredential (credential : AuthCredential) (f : AuthOutcome)
    (w : AuthWorld) :
    ((AuthCall.updateAuthCredential credential).perform f w).2.db.credentials =
      if (AuthCall.updateAuthCredential credential).takesPlace f then
        written credential w.db.credentials
      else w.db.credentials :=
  apply_ite AuthDB.credentials _ _ _

/-- A credential is created, or the table stays as it is. -/
theorem perform_createAuthCredential (credential : AuthCredential) (id : String) (f : AuthOutcome)
    (w : AuthWorld) :
    (∃ row, ((AuthCall.createAuthCredential credential id).perform f w).1 = .ok row ∧
      ((AuthCall.createAuthCredential credential id).perform f w).2.db.credentials =
        w.db.credentials ++ [row] ∧ (∀ c ∈ w.db.credentials, c.id ≠ row.id) ∧
      row.failedAttempts = credential.failedAttempts ∧
      row.lockedUntil = credential.lockedUntil) ∨
    (∃ e, ((AuthCall.createAuthCredential credential id).perform f w).1 = .error e) ∧
      ((AuthCall.createAuthCredential credential id).perform f w).2.db.credentials =
        w.db.credentials := by
  obtain ⟨elapsed, fault, text⟩ := f
  cases fault with
  | early | late => exact .inr ⟨⟨_, rfl⟩, rfl⟩
  | none =>
    have heff : (AuthCall.createAuthCredential credential id).perform ⟨elapsed, .none, text⟩ w =
        ((w.db.createAuthCredential credential id).1,
          ⟨(w.db.createAuthCredential credential id).2, w.clock + elapsed⟩) := rfl
    rw [heff, AuthDB.createAuthCredential]
    split
    · exact .inr ⟨⟨_, rfl⟩, rfl⟩
    · rename_i hnew
      refine .inl ⟨_, rfl, rfl, fun c hc he => hnew ?_, rfl, rfl⟩
      exact List.any_eq_true.2 ⟨c, hc, by simp [he]⟩

variable {id password : String}

theorem getAuthCredential_mem {type : AuthCredentialType} {w : AuthWorld}
    (h : ((AuthCall.getAuthCredential id type).perform f w).1 = .ok read) :
    read ∈ w.db.credentials := by
  obtain ⟨elapsed, fault, text⟩ := f
  cases fault with
  | early | late => cases h
  | none =>
    have h' : w.db.getAuthCredential id type = .ok read := h
    exact List.mem_of_find?_eq_some (orNotFound_eq_ok.1 h')

theorem Tally.close_now (X : Crypto) (password : String) (read : AuthCredential) (t : Tally) :
    t.close X password read .now = t := if_pos (.inr rfl)

variable {X : Crypto}

/-- What a call of the `i`-th request that conforms does to the credentials, to what the request
has open, and to the tally. -/
theorem Conforms.cases {i : ℕ} (h : Conforms X i c w)
    {P : List AuthCredential → Option AuthCredential → Tally → Prop}
    (hidle : ∀ r, r = none ∨ r = w.log.reading i → P w.auth.db.credentials r w.log.tally)
    (hread : ∀ read ∈ w.auth.db.credentials, P w.auth.db.credentials (some read) w.log.tally)
    (hclose : ∀ password read, w.log.attempt i = some password → w.log.reading i = some read →
      Closes X password read c → c.writes = none → c ≠ .now →
      P w.auth.db.credentials none (w.log.tally.close X password read c))
    (hlogin : ∀ password read credential, w.log.attempt i = some password →
      w.log.reading i = some read → c = .updateAuthCredential credential →
      Closes X password read (.updateAuthCredential credential) →
      P (if c.takesPlace f then written credential w.auth.db.credentials
        else w.auth.db.credentials) none (w.log.tally.close X password read c))
    (hchange : ∀ credential, w.log.attempt i = none → c = .updateAuthCredential credential →
      credential.failedAttempts = 0 ∧ credential.lockedUntil = none →
      P (written credential w.auth.db.credentials) none
        (w.log.tally.commit credential.id credential.secretHash))
    (hcreate : ∀ credential, (∀ c ∈ w.auth.db.credentials, c.id ≠ credential.id) →
      credential.failedAttempts = 0 → credential.lockedUntil = none →
      P (w.auth.db.credentials ++ [credential]) none
        (w.log.tally.commit credential.id credential.secretHash)) :
    P (c.perform f w.auth).2.db.credentials (w.log.readingAfter i c (c.perform f w.auth).1)
      (w.log.tallyAfter X i c f (c.perform f w.auth).1) := by
  have hframe := (c.frame_perform f w.auth).credentials
  cases ha : w.log.attempt i with
  | none =>
    have hc := h
    simp only [Conforms, ha] at hc
    simp only [PasswordLog.tallyAfter, ha]
    cases c
    case updateAuthCredential credential =>
      rw [perform_updateAuthCredential]
      by_cases ht : (AuthCall.updateAuthCredential credential).takesPlace f
      · simp only [ht, if_true]
        exact hchange credential ha rfl hc
      · simp only [ht]
        exact hidle none (.inl rfl)
    case createAuthCredential credential id =>
      rcases perform_createAuthCredential credential id f w.auth with
        ⟨row, hrow, hdb, hnew, hun⟩ | ⟨⟨e, he⟩, hdb⟩
      · rw [hrow, hdb]
        exact hcreate row hnew (by rw [hun.1]; exact hc.1) (by rw [hun.2]; exact hc.2)
      · rw [he, hdb]
        exact hidle none (.inl rfl)
    case getAuthCredential id type =>
      rw [hframe (by simp [AuthCall.writes])]
      cases ((AuthCall.getAuthCredential id type).perform f w.auth).1 with
      | error e => exact hidle none (.inl rfl)
      | ok read =>
        refine hidle _ (.inl ?_)
        simp only [PasswordLog.readingAfter, ha]
        rfl
    case now =>
      rw [hframe (by simp [AuthCall.writes])]
      exact hidle _ (.inr rfl)
    all_goals
      rw [hframe (by simp [AuthCall.writes])]
      exact hidle none (.inl rfl)
  | some password =>
    have hc := h
    simp only [Conforms, ha] at hc
    cases hr : w.log.reading i with
    | none =>
      rw [hr] at hc
      rw [hframe hc]
      simp only [PasswordLog.tallyAfter, ha, hr]
      cases c
      case getAuthCredential id type =>
        cases hrep : ((AuthCall.getAuthCredential id type).perform f w.auth).1 with
        | error e => exact hidle none (.inl rfl)
        | ok read =>
          simp only [PasswordLog.readingAfter, ha]
          exact hread read (getAuthCredential_mem hrep)
      case now => exact hidle _ (.inr rfl)
      all_goals exact hidle none (.inl rfl)
    | some read =>
      rw [hr] at hc
      simp only [PasswordLog.tallyAfter, ha, hr]
      have hc' := hc
      cases hc with
      | now =>
        rw [Tally.close_now, hframe (by simp [AuthCall.writes])]
        exact hidle _ (.inr rfl)
      | inactive | locked =>
        rw [hframe (by simp [AuthCall.writes])]
        exact hclose password read ha hr hc' rfl (by simp)
      | clean c _ _ _ hc =>
        rcases hc with rfl | ⟨id, rfl⟩ <;> rw [hframe (by simp [AuthCall.writes])] <;>
          exact hclose password read ha hr hc' rfl (by simp)
      | right | wrong | lock =>
        rw [perform_updateAuthCredential]
        exact hlogin password read _ ha hr rfl hc'

/-- A login writes back the credential that it has read, with the hash that it has read. -/
theorem Closes.written_eq (h : Closes X password read (.updateAuthCredential credential)) :
    credential.id = read.id ∧ credential.secretHash = read.secretHash := by
  cases h with
  | right | wrong | lock => exact ⟨rfl, rfl⟩
  | clean _ _ _ _ hc => rcases hc with hc | ⟨id, hc⟩ <;> cases hc

variable {credentials : List AuthCredential}

theorem mem_written {credential c : AuthCredential} (h : c ∈ written credential credentials) :
    ∃ c₀ ∈ credentials, c.id = c₀.id ∧
      (c₀.id = credential.id ∧ c = AuthDB.setCredential credential c₀ ∨
        c₀.id ≠ credential.id ∧ c = c₀) := by
  obtain ⟨c₀, hc₀, rfl⟩ := Table.mem_update.1 h
  refine ⟨c₀, hc₀, ?_⟩
  split <;> rename_i hid
  · exact ⟨rfl, .inl ⟨eq_of_beq hid, rfl⟩⟩
  · exact ⟨rfl, .inr ⟨fun he => hid (beq_iff_eq.2 he), rfl⟩⟩

theorem exists_mem_written (credential : AuthCredential) {c : AuthCredential}
    (h : c ∈ credentials) :
    ∃ c' ∈ written credential credentials, c'.id = c.id := by
  refine ⟨_, Table.mem_update_of_mem h, ?_⟩
  split <;> rfl

/-! ## A password change is not undone -/

/-- No other request than the `i`-th has the credential with this id open. -/
def Unread (id : String) (w : PasswordWorld) (i : ℕ) : Prop :=
  w.log.reading.Others i fun read => read.id ≠ id

instance (id : String) (w : PasswordWorld) (i : ℕ) : Decidable (Unread id w i) :=
  inferInstanceAs (Decidable (w.log.reading.Others i fun read => read.id ≠ id))

def AuthCall.updated : AuthCall → Option AuthCredential
  | .updateAuthCredential credential => some credential
  | _ => none

/-- Where a request that is not a login writes a credential, no login has it open. -/
def ChangesAlone (i : ℕ) (c : AuthCall) (_ : AuthOutcome) (w : PasswordWorld) : Prop :=
  ∀ credential ∈ c.updated, w.log.attempt i = none → Unread credential.id w i

instance (i : ℕ) (c : AuthCall) (f : AuthOutcome) (w : PasswordWorld) :
    Decidable (ChangesAlone i c f w) :=
  inferInstanceAs (Decidable (∀ credential ∈ c.updated, w.log.attempt i = none →
    Unread credential.id w i))

/-- The hash that was committed last is stored, and a login that has the credential open has read
it. -/
structure PasswordsKept (credentials : List AuthCredential) (reading : Pool.Board AuthCredential)
    (tally : Tally) : Prop where
  stored : ∀ c ∈ credentials, ∀ h, tally.committed c.id = some h → c.secretHash = h
  known : ∀ i read, reading i = some read → ∃ c ∈ credentials, c.id = read.id
  read : ∀ i read, reading i = some read → ∀ h, tally.committed read.id = some h →
    read.secretHash = h

theorem Tally.commit_committed (id hash : String) (t : Tally) :
    (t.commit id hash).committed = Function.update t.committed id (some hash) := rfl

theorem Tally.close_committed (t : Tally) (X : Crypto) (password : String) (read : AuthCredential)
    (c : AuthCall) : (t.close X password read c).committed = t.committed := by
  rw [close]
  split
  · rfl
  · split
    · split <;> rfl
    · rfl

variable {r : Option AuthCredential} {tally' : Tally}

namespace PasswordsKept

variable {credentials : List AuthCredential} {reading : Pool.Board AuthCredential} {tally : Tally}
  {i : ℕ}

section

variable (h : PasswordsKept credentials reading tally)

include h

theorem keep (hr : r = none ∨ r = reading i) :
    PasswordsKept credentials (reading.set i r) tally where
  stored := h.stored
  known j read hj := h.known j read (Pool.Board.of_set_kept hr hj)
  read j read hj := h.read j read (Pool.Board.of_set_kept hr hj)

theorem forget :
    PasswordsKept credentials (reading.set i none) tally := h.keep (.inl rfl)

theorem open_ (hread : read ∈ credentials) :
    PasswordsKept credentials (reading.set i (some read)) tally where
  stored := h.stored
  known j read' hj := by
    rcases Pool.Board.of_set hj with hj | ⟨-, hj⟩
    · exact ⟨read, hread, by rw [Option.some.inj hj]⟩
    · exact h.known j read' hj
  read j read' hj := by
    rcases Pool.Board.of_set hj with hj | ⟨-, hj⟩
    · cases hj
      exact h.stored read hread
    · exact h.read j read' hj

theorem write (hi : reading i = some read) (hid : credential.id = read.id)
    (hhash : credential.secretHash = read.secretHash) :
    PasswordsKept (written credential credentials) reading tally where
  stored c hc hash hcom := by
    obtain ⟨c₀, hc₀, hid₀, ⟨he, rfl⟩ | ⟨-, rfl⟩⟩ := mem_written hc
    · rw [hid₀, he, hid] at hcom
      exact hhash.trans (h.read i read hi hash hcom)
    · exact h.stored c hc₀ hash hcom
  known j read' hj := by
    obtain ⟨c, hc, hid'⟩ := h.known j read' hj
    obtain ⟨c', hc', he⟩ := exists_mem_written credential hc
    exact ⟨c', hc', he.trans hid'⟩
  read := h.read

/-- A credential that no login has open is given a new hash. -/
theorem commit {credentials' : List AuthCredential} {id hash : String}
    (hrow : ∀ c ∈ credentials', c.id = id ∧ c.secretHash = hash ∨ c.id ≠ id ∧ c ∈ credentials)
    (hsub : ∀ c ∈ credentials, ∃ c' ∈ credentials', c'.id = c.id)
    (hother : ∀ j, j ≠ i → ∀ read, reading j = some read → read.id ≠ id) :
    PasswordsKept credentials' (reading.set i none) (tally.commit id hash) where
  stored c hc hash' hcom := by
    rw [Tally.commit_committed] at hcom
    rcases hrow c hc with ⟨hid, hh⟩ | ⟨hid, hc₀⟩
    · rw [hid, Function.update_self] at hcom
      exact hh.trans (Option.some.inj hcom)
    · rw [Function.update_of_ne hid] at hcom
      exact h.stored c hc₀ hash' hcom
  known j read hj := by
    rcases Pool.Board.of_set hj with hj | ⟨-, hj⟩
    · cases hj
    · obtain ⟨c, hc, hid⟩ := h.known j read hj
      obtain ⟨c', hc', he⟩ := hsub c hc
      exact ⟨c', hc', he.trans hid⟩
  read j read hj hash' hcom := by
    rcases Pool.Board.of_set hj with hj | ⟨hji, hj⟩
    · cases hj
    · rw [Tally.commit_committed, Function.update_of_ne (hother j hji read hj)] at hcom
      exact h.read j read hj hash' hcom

theorem tally_eq (ht : tally'.committed = tally.committed) :
    PasswordsKept credentials reading tally' where
  stored := by
    rw [ht]
    exact h.stored
  known := h.known
  read := by
    rw [ht]
    exact h.read

end

end PasswordsKept

theorem PasswordsKept.call {i : ℕ}
    (h : PasswordsKept w.auth.db.credentials w.log.reading w.log.tally)
    (hk : ChangesAlone i c f w) (hc : Conforms X i c w) :
    PasswordsKept (c.perform f w.auth).2.db.credentials
      (w.log.note X i c f (c.perform f w.auth).1).reading
      (w.log.note X i c f (c.perform f w.auth).1).tally := by
  refine hc.cases (P := fun C r T => PasswordsKept C (w.log.reading.set i r) T)
    ?_ ?_ ?_ ?_ ?_ ?_
  · intro r hr
    exact h.keep hr
  · intro read hread
    exact h.open_ hread
  · intro password read _ _ _ _ _
    exact h.forget.tally_eq (Tally.close_committed ..)
  · intro password read credential _ hr _ hclose
    have hcommitted := w.log.tally.close_committed X password read c
    split
    · exact (h.write hr hclose.written_eq.1 hclose.written_eq.2).forget.tally_eq hcommitted
    · exact h.forget.tally_eq hcommitted
  · intro credential ha hcall _
    have hun : Unread credential.id w i := hk credential (by rw [hcall]; rfl) ha
    refine h.commit ?_ (fun c hc => exists_mem_written credential hc)
      (fun j hj read hr => hun.apply hj hr)
    intro c hc
    obtain ⟨c₀, hc₀, hid₀, ⟨he, rfl⟩ | ⟨he, rfl⟩⟩ := mem_written hc
    · exact .inl ⟨hid₀.trans he, rfl⟩
    · exact .inr ⟨he, hc₀⟩
  · intro credential hnew _ _
    refine h.commit ?_ (fun c hc => ⟨c, List.mem_append_left _ hc, rfl⟩) ?_
    · intro c hc
      rcases List.mem_append.1 hc with hc | hc
      · exact .inr ⟨hnew c hc, hc⟩
      · obtain rfl := List.mem_singleton.1 hc
        exact .inl ⟨rfl, rfl⟩
    · intro j _ read hj he
      obtain ⟨c, hc, hid⟩ := h.known j read hj
      exact hnew c hc (hid.trans he)

/-- While no password is changed between the read and the write of a login, the stored hash is the
one that was committed last. -/
theorem password_change_kept (a : Authenticator) (w : AuthWorld)
    (es : List (Pool.Event AuthOutcome Empty PasswordRequest))
    (s : Pool.Config AuthCall AuthCall.Reply PasswordWorld Unit)
    (halone : Along (Pool.step (passwordSystem a)) (Pool.Calls ChangesAlone) ⟨⟨w, .empty⟩, []⟩ es)
    (hs : runs (Pool.step (passwordSystem a)) ⟨⟨w, .empty⟩, []⟩ es = some s) :
    ∀ c ∈ s.world.auth.db.credentials, ∀ hash, s.world.log.tally.committed c.id = some hash →
      c.secretHash = hash := by
  have h := (passwordProtocol_kept a ChangesAlone).runs
    (I := fun w => PasswordsKept w.auth.db.credentials w.log.reading w.log.tally)
    (fun e => e.elim) ?_ (fun i c f w h hk hc => h.call hk hc) halone hs ?_
  · exact h.stored
  · rintro n q w w' h he
    cases he
    exact h.forget
  · exact ⟨fun c _ hash hh => absurd hh (by simp [PasswordLog.empty]),
      fun i read hr => absurd hr.symm (Option.some_ne_none read),
      fun i read hr => absurd hr.symm (Option.some_ne_none read)⟩

namespace PasswordSample

def authenticator : Authenticator := ⟨.plain, 10 * minute⟩

/-- The administrator `root` with the password `old`, and an owner. -/
def db : AuthDB :=
  { AuthDB.empty with
    identities := [⟨"i", .admin, "root", "root", "", .active, false⟩]
    credentials := [⟨"c", "i", .password, "#old", 0, none, .active⟩]
    profiles := [⟨"p", "i", .admin, .active⟩] }

def login (password : String) : PasswordRequest := .adminLogin "root" password

/-- The owner gives `root` the password `n3w-pass`. -/
def reset : PasswordRequest :=
  .resetPassword ⟨"owner", .owner, "o", ""⟩ "i" ⟨"n3w-pass", "", ""⟩

/-- The calls of the `i`-th request. -/
def calls (i n : ℕ) : List (Pool.Event AuthOutcome Empty PasswordRequest) :=
  List.replicate n (.call i ⟨0, .none, "#n3w-pass"⟩)

/-- The hashes that are stored, and the one that was committed last. -/
def outcome (es : List (Pool.Event AuthOutcome Empty PasswordRequest)) :
    Option (List String × Option String) :=
  (runs (Pool.step (passwordSystem authenticator)) ⟨⟨⟨db, 0⟩, .empty⟩, []⟩ es).map fun s =>
    (s.world.auth.db.credentials.map AuthCredential.secretHash, s.world.log.tally.committed "c")

end PasswordSample

open PasswordSample in
/-- A login with a wrong password reads the credential, the owner resets the password, and the
login writes the old hash back. -/
theorem password_change_undone :
    outcome ([.start (login "wrong")] ++ calls 0 2 ++ [.start reset] ++ calls 1 5 ++ calls 0 1) =
      some (["#old"], some "#n3w-pass") := by
  decide +kernel

open PasswordSample in
/-- The same requests one after the other. -/
theorem password_change_kept_serial :
    ∃ s, runs (Pool.step (passwordSystem authenticator)) ⟨⟨⟨db, 0⟩, .empty⟩, []⟩
        ([.start reset] ++ calls 0 5 ++ [.start (login "wrong")] ++ calls 1 3) = some s ∧
      s.world.log.tally.committed "c" = some "#n3w-pass" ∧
      ∀ c ∈ s.world.auth.db.credentials, ∀ hash,
        s.world.log.tally.committed c.id = some hash → c.secretHash = hash := by
  have hout : outcome ([.start reset] ++ calls 0 5 ++ [.start (login "wrong")] ++ calls 1 3) =
      some (["#n3w-pass"], some "#n3w-pass") := by decide +kernel
  obtain ⟨s, hs, hcom⟩ := Option.map_eq_some_iff.1 hout
  exact ⟨s, hs, (Prod.mk.inj hcom).2,
    password_change_kept authenticator ⟨db, 0⟩ _ s (by decide +kernel) hs⟩

/-! ## Wrong passwords lock -/

/-- No call fails, and where a request writes a credential no other request has it open. -/
def WritesAlone (i : ℕ) (c : AuthCall) (f : AuthOutcome) (w : PasswordWorld) : Prop :=
  f.fault = .none ∧ ∀ credential ∈ c.updated, Unread credential.id w i

instance (i : ℕ) (c : AuthCall) (f : AuthOutcome) (w : PasswordWorld) :
    Decidable (WritesAlone i c f w) :=
  inferInstanceAs (Decidable (f.fault = .none ∧
    ∀ credential ∈ c.updated, Unread credential.id w i))

/-- The count of wrong passwords for a credential row: a lock was set by one of them, and while
there is none they are all counted and too few. -/
structure Counted (tally : Tally) (c : AuthCredential) : Prop where
  set : ∀ u, c.lockedUntil = some u → u ∈ tally.locks c.id
  counted : c.lockedUntil = none → tally.wrong c.id ≤ c.failedAttempts
  few : c.lockedUntil = none → lockoutAttempts ≤ c.failedAttempts → tally.wrong c.id = 0

/-- The credential with the id `id` is counted, and what is open of it is as it is stored. -/
structure LocksKept (id : String) (credentials : List AuthCredential)
    (reading : Pool.Board AuthCredential) (tally : Tally) : Prop where
  keyed : Table.Keyed AuthCredential.id credentials
  counted : ∀ c ∈ credentials, c.id = id → Counted tally c
  current : ∀ i read, reading i = some read → read ∈ credentials

theorem Tally.reset_wrong_self (id : String) (t : Tally) : (t.reset id).wrong id = 0 :=
  Function.update_self ..

/-- What the tally says of a credential other than `id` is not changed. -/
def Tally.AgreesOff (id : String) (t t' : Tally) : Prop :=
  ∀ id', id' ≠ id → t'.wrong id' = t.wrong id' ∧ t'.locks id' = t.locks id'

theorem Tally.agrees_reset (id : String) (t : Tally) : t.AgreesOff id (t.reset id) := by
  intro id' hne
  exact ⟨Function.update_of_ne hne _ _, Function.update_of_ne hne _ _⟩

theorem Tally.agrees_miss (read : AuthCredential) (c : AuthCall) (t : Tally) :
    t.AgreesOff read.id (t.miss read c) := by
  intro id' hne
  refine ⟨Function.update_of_ne hne _ _, ?_⟩
  cases c
  case updateAuthCredential credential =>
    simp only [miss]
    split
    · rfl
    · exact Function.update_of_ne hne _ _
  all_goals rfl

theorem Tally.agrees_close (X : Crypto) (password : String) (read : AuthCredential) (c : AuthCall)
    (t : Tally) : t.AgreesOff read.id (t.close X password read c) := by
  rw [close]
  split
  · exact fun _ _ => ⟨rfl, rfl⟩
  · split
    · split
      · exact fun _ _ => ⟨rfl, rfl⟩
      · exact t.agrees_reset read.id
    · exact t.agrees_miss read c

variable {t : Tally}

theorem Counted.off {t' : Tally} {c : AuthCredential} (h : Counted t c) (ht : t.AgreesOff id t')
    (hid : c.id ≠ id) : Counted t' c := by
  obtain ⟨hw, hl⟩ := ht c.id hid
  exact ⟨by rw [hl]; exact h.set, by rw [hw]; exact h.counted, by rw [hw]; exact h.few⟩

theorem counted_of_unlocked {c : AuthCredential} (hlocked : c.lockedUntil = none)
    (hwrong : t.wrong c.id = 0) : Counted t c where
  set u hu := by
    rw [hlocked] at hu
    cases hu
  counted _ := hwrong.trans_le (Nat.zero_le _)
  few _ _ := hwrong

theorem Counted.close (h : Counted t read) (hc : Closes X password read c) (hw : c.writes = none)
    (hnow : c ≠ .now) : Counted (t.close X password read c) read := by
  cases hc with
  | now => exact absurd rfl hnow
  | inactive r hinactive =>
    rw [Tally.close, if_pos (.inl hinactive)]
    exact h
  | locked e hlocked =>
    obtain ⟨u, hu⟩ := Option.isSome_iff_exists.1 hlocked
    rw [Tally.close]
    split
    · exact h
    · split
      · exact h
      · refine ⟨h.set, fun hn => ?_, fun hn => ?_⟩ <;> rw [hu] at hn <;> cases hn
  | clean c hright hfailed hnone hcall =>
    have hresponds : c.responds = false := by
      rcases hcall with rfl | ⟨id, rfl⟩ <;> rfl
    by_cases hs : read.status ≠ .active ∨ c.movesOn = false
    · rw [Tally.close, if_pos hs]
      exact h
    · rw [Tally.close, if_neg hs, if_pos hright, hresponds, if_neg Bool.false_ne_true]
      exact counted_of_unlocked hnone (Tally.reset_wrong_self _ _)
  | right | wrong | lock => cases hw

/-- The end of an attempt with the write of the row. -/
theorem Counted.write (h : Counted t read)
    (hc : Closes X password read (.updateAuthCredential credential)) :
    Counted (t.close X password read (.updateAuthCredential credential))
      (AuthDB.setCredential credential read) := by
  cases hc with
  | clean _ _ _ _ hcall => rcases hcall with hcall | ⟨id, hcall⟩ <;> cases hcall
  | right hactive hright =>
    rw [Tally.close, if_neg (by simp [hactive, AuthCall.movesOn]), if_pos hright,
      if_neg (by simp [AuthCall.responds])]
    exact counted_of_unlocked rfl (Tally.reset_wrong_self _ _)
  | wrong hactive hwrong hfew =>
    rw [Tally.close, if_neg (by simp [hactive, AuthCall.movesOn]), if_neg (by simp [hwrong])]
    constructor
    · simpa [Tally.miss, AuthDB.setCredential] using h.set
    · intro hn
      simpa [Tally.miss, AuthDB.setCredential] using h.counted hn
    · intro _ hmany
      exact absurd hfew (not_lt.2 hmany)
  | lock u hactive hwrong hmany hnew =>
    rw [Tally.close, if_neg (by simp [hactive, AuthCall.movesOn]), if_neg (by simp [hwrong])]
    constructor
    · intro u' hu'
      obtain rfl : u = u' := Option.some.inj hu'
      simp [Tally.miss, AuthDB.setCredential, Ne.symm hnew]
    · intro hn
      cases hn
    · intro hn
      cases hn

namespace LocksKept

variable {id : String} {credentials : List AuthCredential} {reading : Pool.Board AuthCredential}
  {tally : Tally} {i : ℕ}

section

variable (h : LocksKept id credentials reading tally)

include h

theorem keep (hr : r = none ∨ r = reading i) :
    LocksKept id credentials (reading.set i r) tally where
  keyed := h.keyed
  counted := h.counted
  current j read hj := h.current j read (Pool.Board.of_set_kept hr hj)

theorem forget :
    LocksKept id credentials (reading.set i none) tally := h.keep (.inl rfl)

theorem open_ (hread : read ∈ credentials) :
    LocksKept id credentials (reading.set i (some read)) tally where
  keyed := h.keyed
  counted := h.counted
  current j read' hj := by
    rcases Pool.Board.of_set hj with hj | ⟨-, hj⟩
    · exact Option.some.inj hj ▸ hread
    · exact h.current j read' hj

theorem close (hi : reading i = some read) (hc : Closes X password read c) (hw : c.writes = none)
    (hnow : c ≠ .now) :
    LocksKept id credentials reading (tally.close X password read c) where
  keyed := h.keyed
  counted r hr hid := by
    by_cases he : r.id = read.id
    · obtain rfl := h.keyed.eq_of_mem hr (h.current i read hi) he
      exact (h.counted r hr hid).close hc hw hnow
    · exact (h.counted r hr hid).off (Tally.agrees_close _ _ _ _ _) he
  current := h.current

theorem write (hoff : tally.AgreesOff credential.id tally')
    (hrow : ∀ c ∈ credentials, c.id = credential.id → c.id = id →
      Counted tally' (AuthDB.setCredential credential c))
    (hother : ∀ j, j ≠ i → ∀ read, reading j = some read → read.id ≠ credential.id) :
    LocksKept id (written credential credentials) (reading.set i none) tally' where
  keyed := h.keyed.update fun _ => rfl
  counted c hc hid := by
    obtain ⟨c₀, hc₀, hid₀, ⟨he, rfl⟩ | ⟨he, rfl⟩⟩ := mem_written hc
    · exact hrow c₀ hc₀ he (hid₀.symm.trans hid)
    · exact (h.counted c hc₀ hid).off hoff he
  current j read hj := by
    rcases Pool.Board.of_set hj with hj | ⟨hji, hj⟩
    · cases hj
    · have hne := hother j hji read hj
      have hmem := Table.mem_update_of_mem (p := fun c => c.id == credential.id)
        (f := AuthDB.setCredential credential) (h.current j read hj)
      rwa [if_neg (by simpa using hne)] at hmem

theorem insert (hnew : ∀ c ∈ credentials, c.id ≠ credential.id)
    (hlocked : credential.lockedUntil = none) :
    LocksKept id (credentials ++ [credential]) reading
      (tally.commit credential.id credential.secretHash) where
  keyed := h.keyed.insert hnew
  counted c hc hid := by
    rcases List.mem_append.1 hc with hc | hc
    · exact (h.counted c hc hid).off (tally.agrees_reset credential.id) (hnew c hc)
    · obtain rfl := List.mem_singleton.1 hc
      exact counted_of_unlocked hlocked (Tally.reset_wrong_self _ _)
  current j read hj := List.mem_append_left _ (h.current j read hj)

end

theorem call (h : LocksKept id w.auth.db.credentials w.log.reading w.log.tally)
    (hk : WritesAlone i c f w) (hc : Conforms X i c w) :
    LocksKept id (c.perform f w.auth).2.db.credentials
      (w.log.note X i c f (c.perform f w.auth).1).reading
      (w.log.note X i c f (c.perform f w.auth).1).tally := by
  refine hc.cases (P := fun C r T => LocksKept id C (w.log.reading.set i r) T)
    ?_ ?_ ?_ ?_ ?_ ?_
  · intro r hr
    exact h.keep hr
  · intro read hread
    exact h.open_ hread
  · intro password read _ hr hclose hw hnow
    exact (h.close hr hclose hw hnow).forget
  · intro password read credential _ hr hcall hclose
    subst hcall
    have hid := hclose.written_eq.1
    have htakes : (AuthCall.updateAuthCredential credential).takesPlace f = true := by
      rw [AuthCall.takesPlace, hk.1]
    have hun : Unread credential.id w i := hk.2 credential rfl
    rw [if_pos htakes]
    refine h.write ?_ ?_ fun j hj read' hr' => hun.apply hj hr'
    · rw [hid]
      exact Tally.agrees_close _ _ _ _ _
    · intro r hr' he hid'
      obtain rfl := h.keyed.eq_of_mem hr' (h.current i read hr) (he.trans hid)
      exact (h.counted r hr' hid').write hclose
  · intro credential _ hcall hunlocked
    have hun : Unread credential.id w i := hk.2 credential (by rw [hcall]; rfl)
    refine h.write (w.log.tally.agrees_reset credential.id) ?_ fun j hj read' hr' =>
      hun.apply hj hr'
    intro r _ he _
    refine counted_of_unlocked hunlocked.2 ?_
    change (w.log.tally.reset credential.id).wrong r.id = 0
    rw [he]
    exact Tally.reset_wrong_self _ _
  · intro credential hnew _ hlocked
    exact (h.insert hnew hlocked).forget

end LocksKept

/-- While no two requests have the credential open at a write, ten wrong passwords for a credential
that was not locked have locked it. -/
theorem wrong_passwords_lock (a : Authenticator) (w : AuthWorld) (id : String)
    (hkeyed : Table.Keyed AuthCredential.id w.db.credentials)
    (hunlocked : ∀ c ∈ w.db.credentials, c.id = id → c.lockedUntil = none)
    (es : List (Pool.Event AuthOutcome Empty PasswordRequest))
    (s : Pool.Config AuthCall AuthCall.Reply PasswordWorld Unit)
    (halone : Along (Pool.step (passwordSystem a)) (Pool.Calls WritesAlone) ⟨⟨w, .empty⟩, []⟩ es)
    (hs : runs (Pool.step (passwordSystem a)) ⟨⟨w, .empty⟩, []⟩ es = some s) :
    ∀ c ∈ s.world.auth.db.credentials, c.id = id →
      (lockoutAttempts ≤ s.world.log.tally.wrong id ∨
        strongLockAttempts ≤ s.world.log.tally.wrong id) →
      ∃ u ∈ s.world.log.tally.locks id, c.lockedUntil = some u := by
  have h := (passwordProtocol_kept a WritesAlone).runs
    (I := fun w => LocksKept id w.auth.db.credentials w.log.reading w.log.tally)
    (fun e => e.elim) ?_ (fun i c f w h hk hc => h.call hk hc) halone hs ?_
  · intro c hc hid hmany
    have hmany : lockoutAttempts ≤ s.world.log.tally.wrong id := hmany.elim (fun h => h) fun h => h
    have hcount := h.counted c hc hid
    cases hl : c.lockedUntil with
    | some u => exact ⟨u, hid ▸ hcount.set u hl, rfl⟩
    | none =>
      have hle := hcount.counted hl
      have hzero := hcount.few hl (by
        rw [hid] at hle
        exact hmany.trans hle)
      rw [hid] at hzero
      rw [hzero] at hmany
      exact absurd hmany (by decide)
  · rintro n q w w' h he
    cases he
    exact h.forget
  · refine ⟨hkeyed, fun c hc hid => counted_of_unlocked (hunlocked c hc hid) rfl, ?_⟩
    exact fun i read hr => absurd hr.symm (Option.some_ne_none read)

namespace PasswordSample

/-- Ten logins with a wrong password that all read the credential before any of them writes it. -/
def together : List (Pool.Event AuthOutcome Empty PasswordRequest) :=
  (List.range 10).flatMap (fun i => .start (login "wrong") :: calls i 2) ++
    (List.range 10).flatMap fun i => calls i 2

/-- Ten logins with a wrong password one after the other; the last one reads the clock. -/
def inTurn : List (Pool.Event AuthOutcome Empty PasswordRequest) :=
  (List.range 9).flatMap (fun i => .start (login "wrong") :: calls i 4) ++
    .start (login "wrong") :: calls 9 5

def lockOutcome (es : List (Pool.Event AuthOutcome Empty PasswordRequest)) :
    Option (List (Option Time) × ℕ) :=
  (runs (Pool.step (passwordSystem authenticator)) ⟨⟨⟨db, 0⟩, .empty⟩, []⟩ es).map fun s =>
    (s.world.auth.db.credentials.map AuthCredential.lockedUntil, s.world.log.tally.wrong "c")

end PasswordSample

open PasswordSample in
/-- Ten wrong passwords have been answered, and the credential is not locked. -/
theorem wrong_passwords_unlocked : lockOutcome together = some ([none], 10) := by
  decide +kernel

open PasswordSample in
theorem wrong_passwords_lock_in_turn :
    ∃ s, runs (Pool.step (passwordSystem authenticator)) ⟨⟨⟨db, 0⟩, .empty⟩, []⟩ inTurn = some s ∧
      s.world.log.tally.wrong "c" = 10 ∧ ∀ c ∈ s.world.auth.db.credentials, c.id = "c" →
        ∃ u ∈ s.world.log.tally.locks "c", c.lockedUntil = some u := by
  have hout : lockOutcome inTurn = some ([some (15 * minute)], 10) := by decide +kernel
  obtain ⟨s, hs, hw⟩ := Option.map_eq_some_iff.1 hout
  have hwrong : s.world.log.tally.wrong "c" = 10 := (Prod.mk.inj hw).2
  refine ⟨s, hs, hwrong, fun c hc hid => ?_⟩
  exact wrong_passwords_lock authenticator ⟨db, 0⟩ "c" (List.nodup_singleton _)
    (by decide +kernel) inTurn
    s (by decide +kernel) hs c hc hid (.inl (by rw [hwrong]; decide))

end LazGate
