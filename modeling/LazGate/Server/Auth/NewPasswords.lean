import LazGate.Server.Auth.Refresh

/-!
# Logging in with a new password

What a request that sets a password leaves behind for the login after it. Administrators set one by
enrolling, by a reset of an owner, by a change of their own and by the change that a login demands;
clients by the setup and by a recovery. Some of these store the password without the blanks around
it. The logins compare it as it is given.
-/

namespace LazGate

open Prog

/-! ## The requests -/

/-- A request that sets a password. -/
inductive NewPassword where
  | enroll (input : EnrollInput)
  | reset (principal : Principal) (id : String) (input : ResetPasswordInput)
  | change (changeToken newPassword : String)
  | setup (accountID password : String)
  | recover (accountID recoveryCode newPassword : String)

namespace NewPassword

def prog (a : Authenticator) : NewPassword → Handler Unit
  | .enroll input => do
    let _ ← enrollAdmin a input
  | .reset principal id input => resetAdminPassword a.crypto principal id input
  | .change changeToken newPassword => do
    let _ ← failAs unauthorized (a.changePassword changeToken newPassword)
  | .setup accountID password => do
    let _ ← setupPassword a.crypto accountID password
  | .recover accountID recoveryCode newPassword => do
    let _ ← LazGate.recover a.crypto accountID recoveryCode newPassword

/-- The text that is accepted as the new password. A reset of the own password and one by an owner
take it from different fields. -/
def password : NewPassword → String
  | .enroll input => input.password
  | .reset principal id input => if id = principal.identityID then input.newPassword
      else input.password
  | .change _ newPassword => newPassword
  | .setup _ password => password
  | .recover _ _ newPassword => newPassword

/-- The check of an administrator's login: whose login and password these are. -/
def verifyAdmin (a : Authenticator) (login password : String) : AuthM AuthIdentity := do
  let identity ← orElse errInvalidCredentials (findActiveAdminIdentityByLogin (trimSpace login))
  if identity.status ≠ .active then throw errInvalidCredentials
  else do
    let credential ← orElse errInvalidCredentials (getAuthCredential identity.id .password)
    if credential.status ≠ .active then throw errInvalidCredentials
    else do
      let locked ← isLocked credential
      if locked then throw errInvalidCredentials
      else if a.crypto.compareHashAndPassword credential.secretHash password then do
        ignoring (Authenticator.clearFailures credential)
        return identity
      else do
        ignoring (Authenticator.recordFailedLogin credential)
        throw errInvalidCredentials

/-- The check of a client's login. A credential that is not active belongs to nobody. -/
def verifyStrongUser (X : Crypto) (account : Account) (password : String) :
    AuthM (Option AuthIdentity) := do
  let identity ← findActiveUserIdentityByAccountID account.id
  let credential ← getAuthCredential identity.id .password
  if credential.status ≠ .active then return none
  else do
    let locked ← isLocked credential
    if locked then throw "temporarily locked"
    else if X.compareHashAndPassword credential.secretHash password then do
      ignoring (updateAuthCredential { credential with failedAttempts := 0, lockedUntil := none })
      return some identity
    else do
      ignoring (recordFailure strongLockAttempts strongLockDuration credential)
      throw "invalid credentials"

/-- A login of an administrator is its check, and what follows for the one it has found. -/
theorem loginWithPassword_eq (a : Authenticator) (login password : String) :
    a.loginWithPassword login password = verifyAdmin a login password >>= a.completeLogin := by
  simp only [Authenticator.loginWithPassword, verifyAdmin, bind_assoc]
  refine bind_congr fun identity => ?_
  split
  · rfl
  simp only [bind_assoc]
  refine bind_congr fun credential => ?_
  split
  · rfl
  simp only [Authenticator.checkPassword, bind_assoc]
  refine bind_congr fun locked => ?_
  split
  · rfl
  split
  · simp only [bind_assoc, pure_bind]
  · simp only [bind_assoc]
    exact bind_congr fun _ => rfl

/-- Likewise for a client. -/
theorem loginStrongUser_eq (X : Crypto) (account : Account) (password : String) :
    loginStrongUser X account password = verifyStrongUser X account password >>= fun
      | none => return none
      | some identity => do
        let granted ← createStrongSession X identity account.id
        return some granted := by
  simp only [loginStrongUser, verifyStrongUser, bind_assoc]
  refine bind_congr fun identity => bind_congr fun credential => ?_
  split
  · rfl
  simp only [checkStrongPassword, bind_assoc]
  refine bind_congr fun locked => ?_
  split
  · rfl
  split
  · simp only [bind_assoc, pure_bind]
  · simp only [bind_assoc]
    exact bind_congr fun _ => rfl

/-- The check of a login finds the administrator `id`. -/
def AdminPasses (a : Authenticator) (id login password : String) (w : AuthWorld) : Prop :=
  ∀ σ : Script, ∃ identity : AuthIdentity, identity.id = id ∧
    (eval answer (verifyAdmin a login password).run (w, σ)).1 = .ok identity

/-- The check of a login finds the client with this account. -/
def ClientPasses (X : Crypto) (accountID password : String) (w : AuthWorld) : Prop :=
  ∃ account, w.db.getAccount accountID = .ok account ∧ ∀ (clock : Time) (σ : Script),
    ∃ identity, (eval answer (verifyStrongUser X account password).run (⟨w.db, clock⟩, σ)).1 =
      .ok (some identity)

/-- The login that belongs to the request, made from `w`, passes in `w'`. -/
def Passes (a : Authenticator) (w w' : AuthWorld) (q : NewPassword) : Prop :=
  match q with
  | .enroll input => ∃ id, ∀ login, trimSpace login = trimSpace input.login →
      AdminPasses a id login q.password w'
  | .reset _ id _ => ∀ identity, w.db.getAuthIdentity id = .ok identity →
      ∀ login, trimSpace login = identity.login → AdminPasses a id login q.password w'
  | .change changeToken _ => ∀ session identity,
      w.db.toSessionTables.getAuthSessionByTokenHash (a.crypto.hash changeToken) = some session →
      w.db.getAuthIdentity session.identityID = .ok identity → identity.kind = .admin →
      ∀ login, trimSpace login = identity.login →
        AdminPasses a session.identityID login q.password w'
  | .setup accountID _ | .recover accountID _ _ => ClientPasses a.crypto accountID q.password w'

/-- Where the password is stored without the blanks around it there are none, and a password is
reset for an administrator that is not deleted. No login is made for one that is stored with blanks
around its name. -/
def Plain (w : AuthWorld) (q : NewPassword) : Prop :=
  match q with
  | .enroll _ => trimSpace q.password = q.password
  | .reset _ id _ => ∀ identity, w.db.getAuthIdentity id = .ok identity →
      trimSpace identity.login = identity.login →
      trimSpace q.password = q.password ∧ identity.status = .active
  | _ => True

/-! ## Runs -/

/-- A hash that is made for a password is good for this one only. -/
def HashExact (X : Crypto) (f : AuthOutcome) : AuthCall → Prop
  | .generateFromPassword password =>
    ∀ p, X.compareHashAndPassword f.text p = true ↔ p = password
  | _ => True

/-- A request alone, whose calls may fail. -/
abbrev exactly (X : Crypto) : Setting AuthCall AuthCall.Reply AuthOutcome AuthWorld :=
  solo AuthCall.perform fun c f _ => HashExact X f c

end NewPassword

variable (c : AuthCall) (f : AuthOutcome)

theorem AuthCall.perform_cases (w : AuthWorld) :
    c.perform f w = ((c.effect (w.clock + f.elapsed) f.text w.db).1,
      ⟨(c.effect (w.clock + f.elapsed) f.text w.db).2, w.clock + f.elapsed⟩) ∨
    c.failed = some (c.perform f w).1 := by
  obtain ⟨elapsed, fault, text⟩ := f
  cases hfailed : c.failed with
  | none =>
    left
    cases fault <;> simp [AuthCall.perform, AuthCall.takesPlace, hfailed]
  | some r =>
    cases fault with
    | none => exact .inl rfl
    | early | late => exact .inr (by simp [AuthCall.perform, hfailed])

theorem AuthCall.accounts_effect (now : Time) (text : String) (db : AuthDB) :
    (c.effect now text db).2.accounts = db.accounts := by
  cases c
  case createAuthIdentity => simp only [effect, AuthDB.createAuthIdentity]; split <;> rfl
  case updateAuthIdentity => simp only [effect, AuthDB.updateAuthIdentity]; split <;> rfl
  case createAuthCredential => simp only [effect, AuthDB.createAuthCredential]; split <;> rfl
  case createAuthSession => simp only [effect]; split <;> rfl
  case createAuthRecoveryCode => simp only [effect, AuthDB.createAuthRecoveryCode]; split <;> rfl
  case createAdminProfile => simp only [effect, AuthDB.createAdminProfile]; split <;> rfl
  case markAdminInviteUsed =>
    simp only [effect, AuthDB.markAdminInviteUsed, AuthDB.closeInvite]; split <;> rfl
  case revokeAdminInvite =>
    simp only [effect, AuthDB.revokeAdminInvite, AuthDB.closeInvite]; split <;> rfl
  all_goals rfl

theorem AuthCall.accounts_perform (w : AuthWorld) :
    (c.perform f w).2.db.accounts = w.db.accounts := by
  change (if c.takesPlace f then (c.effect (w.clock + f.elapsed) f.text w.db).2
    else w.db).accounts = w.db.accounts
  split
  · exact c.accounts_effect _ _ _
  · rfl

variable {account : Account} {identity : AuthIdentity} {credential : AuthCredential}
  {id login p : String} {w : AuthWorld} {db' : AuthDB} (a : Authenticator) {m : Bool} {ε : Type}
  {x : AuthProg ε α} {e : HTTPError} (accountID : String)

namespace NewPassword

section Rules

variable {X : Crypto} {α β : Type}

/-- The assertion on the end of a request that may also be refused. -/
def ifOk {ε : Type} (P : AuthWorld → Prop) : Except ε α → AuthWorld → Prop :=
  onOk (fun _ => P) fun _ _ => True

theorem safe_ask {c : AuthCall} {Q : c.Reply → AuthWorld → Prop}
    (hfail : match c.failed with | none => True | some r => ∀ w', Q r w')
    (hok : ∀ f, HashExact X f c → Q (c.effect (w.clock + f.elapsed) f.text w.db).1
      ⟨(c.effect (w.clock + f.elapsed) f.text w.db).2, w.clock + f.elapsed⟩) :
    Safe (exactly X) (Prog.ask c) Q w := by
  refine Safe.ask_solo fun f hf => ?_
  rcases c.perform_cases f w with h | h
  · rw [h]
    exact hok f hf
  · rw [h] at hfail
    exact hfail _

def Aside (c : AuthCall) : Prop :=
  match c.writes with
  | some .identities | some .credentials => False
  | _ => True

/-- The part of the database that a login looks at. -/
def Same (db db' : AuthDB) : Prop :=
  db'.accounts = db.accounts ∧ db'.identities = db.identities ∧ db'.credentials = db.credentials

theorem same_perform {c : AuthCall} (h : Aside c) (f : AuthOutcome) (w : AuthWorld) :
    Same w.db (c.perform f w).2.db := by
  have hframe := c.frame_perform f w
  refine ⟨c.accounts_perform f w, hframe.identities fun hw => ?_, hframe.credentials fun hw => ?_⟩
  · rw [Aside, hw] at h
    exact h
  · rw [Aside, hw] at h
    exact h

theorem Same.trans {db₁ db₂ db₃ : AuthDB} (h : Same db₁ db₂) (h' : Same db₂ db₃) : Same db₁ db₃ :=
  ⟨h'.1.trans h.1, h'.2.1.trans h.2.1, h'.2.2.trans h.2.2⟩

theorem safe_aside (hx : Only Aside x.run) (w : AuthWorld) :
    Safe (exactly X) x.run (ifOk fun w' => Same w.db w'.db) w := by
  refine (hx.safe (I := fun w' : AuthWorld => Same w.db w'.db) ?_ ?_ ⟨rfl, rfl, rfl⟩).mono ?_
  · rintro w₁ w₂ h rfl
    exact h
  · intro c f w' hc _ h
    exact ⟨trivial, h.trans (same_perform hc f w')⟩
  · rintro (e | r) w' hs
    · trivial
    · exact hs

end Rules

/-! ## What a login needs to find -/

/-- The password of the identity is `stored`, and nothing else. -/
def Ready (X : Crypto) (identityID stored : String) (db : AuthDB) : Prop :=
  ∃ credential, db.getAuthCredential identityID .password = .ok credential ∧
    credential.status = .active ∧ credential.lockedUntil = none ∧
    ∀ p, X.compareHashAndPassword credential.secretHash p = true ↔ p = stored

def AdminReady (X : Crypto) (id login stored : String) (db : AuthDB) : Prop :=
  ∃ identity, db.findActiveAdminIdentityByLogin login = .ok identity ∧ identity.id = id ∧
    Ready X id stored db

/-- The login is not that of the administrator `id`. -/
def Gone (id login : String) (db : AuthDB) : Prop :=
  ∀ found, db.findActiveAdminIdentityByLogin login = .ok found → found.id ≠ id

/-- What is left for an administrator whose password is replaced. -/
def Replaced (X : Crypto) (identity : AuthIdentity) (stored : String) (db : AuthDB) : Prop :=
  if identity.status = .active then AdminReady X identity.id identity.login stored db
  else Gone identity.id identity.login db

def ClientReady (X : Crypto) (accountID stored : String) (db : AuthDB) : Prop :=
  ∃ account identity, db.getAccount accountID = .ok account ∧
    db.findActiveUserIdentityByAccountID account.id = .ok identity ∧
    Ready X identity.id stored db

section Ready

variable {X : Crypto} {p : String} {db db' : AuthDB}

theorem Ready.same (h : Ready X id p db) (hs : Same db db') : Ready X id p db' := by
  obtain ⟨credential, hget, hrest⟩ := h
  refine ⟨credential, ?_, hrest⟩
  rw [AuthDB.getAuthCredential, hs.2.2]
  exact hget

theorem AdminReady.same (h : AdminReady X id login p db) (hs : Same db db') :
    AdminReady X id login p db' := by
  obtain ⟨identity, hfind, hid, hready⟩ := h
  refine ⟨identity, ?_, hid, hready.same hs⟩
  rw [AuthDB.findActiveAdminIdentityByLogin, hs.2.1]
  exact hfind

theorem AdminReady.exists_same (h : ∃ id, AdminReady X id login p db) (hs : Same db db') :
    ∃ id, AdminReady X id login p db' := by
  obtain ⟨id, h⟩ := h
  exact ⟨id, h.same hs⟩

theorem Replaced.same (h : Replaced X identity p db) (hs : Same db db') :
    Replaced X identity p db' := by
  unfold Replaced at h ⊢
  split
  · rename_i hactive
    rw [if_pos hactive] at h
    exact h.same hs
  · rename_i hactive
    rw [if_neg hactive] at h
    intro found hfind
    rw [AuthDB.findActiveAdminIdentityByLogin, hs.2.1] at hfind
    exact h found hfind

theorem ClientReady.same {accountID : String} (h : ClientReady X accountID p db)
    (hs : Same db db') : ClientReady X accountID p db' := by
  obtain ⟨account, identity, haccount, hfind, hready⟩ := h
  refine ⟨account, identity, ?_, ?_, hready.same hs⟩
  · rw [AuthDB.getAccount, hs.1]
    exact haccount
  · rw [AuthDB.findActiveUserIdentityByAccountID, hs.2.1]
    exact hfind

end Ready

section Logins

variable (w : AuthWorld) (σ : Script)

theorem eval_findAdmin (login : String) :
    eval answer (findActiveAdminIdentityByLogin login).run (w, σ) =
      (w.db.findActiveAdminIdentityByLogin login, ⟨w.db, w.clock + (σ 0).elapsed⟩, σ.rest) := rfl

theorem eval_findUser :
    eval answer (findActiveUserIdentityByAccountID accountID).run (w, σ) =
      (w.db.findActiveUserIdentityByAccountID accountID, ⟨w.db, w.clock + (σ 0).elapsed⟩,
        σ.rest) := rfl

theorem eval_getAuthCredential (id : String) (type : AuthCredentialType) :
    eval answer (getAuthCredential id type).run (w, σ) =
      (w.db.getAuthCredential id type, ⟨w.db, w.clock + (σ 0).elapsed⟩, σ.rest) := rfl

theorem eval_ignoring {V α : Type} {reply : (c : AuthCall) → V → c.Reply × V} (x : AuthM α)
    (s : V) :
    eval reply (ignoring x : AuthProg ε Unit).run s = (.ok (), (eval reply x.run s).2) := by
  rw [ignoring, eval_andThen, eval_result]
  rfl

theorem eval_orElse {α : Type} (e : ε) (x : AuthM α) (s : AuthWorld × Script) :
    eval answer (orElse e x).run s =
      ((eval answer x.run s).1.mapError fun _ => e, (eval answer x.run s).2) :=
  eval_failAs _ _

end Logins

section

variable {a : Authenticator} {stored : String}

theorem AdminReady.eval_verifyAdmin (h : AdminReady a.crypto id (trimSpace login) stored w.db) :
    ∃ identity : AuthIdentity, identity.id = id ∧ ∀ p σ,
      (eval answer (verifyAdmin a login p).run (w, σ)).1 =
        if p = stored then .ok identity else .error errInvalidCredentials := by
  obtain ⟨identity, hfind, hid, credential, hget, hactive, hlocked, hcompare⟩ := h
  have hstatus : identity.status = .active := by
    have hrow := List.find?_some (orNotFound_eq_ok.1 hfind)
    simp only [Bool.and_eq_true, beq_iff_eq] at hrow
    exact hrow.2
  refine ⟨identity, hid, fun p σ => ?_⟩
  rw [verifyAdmin, eval_andThen, eval_orElse, eval_findAdmin, hfind]
  dsimp only [Except.mapError]
  rw [if_neg (by simp [hstatus]), eval_andThen, eval_orElse, eval_getAuthCredential, hid]
  simp only [hget, Except.mapError]
  rw [if_neg (by simp [hactive]), eval_andThen, isLocked, hlocked, eval_pure]
  dsimp only
  rw [if_neg (by simp)]
  by_cases hp : p = stored
  · rw [if_pos ((hcompare p).2 hp), if_pos hp, eval_andThen, eval_ignoring]
    rfl
  · rw [if_neg (mt (hcompare p).1 hp), if_neg hp, eval_andThen, eval_ignoring]
    rfl

theorem AdminReady.passes (h : AdminReady a.crypto id (trimSpace login) stored w.db) :
    AdminPasses a id login stored w := by
  obtain ⟨identity, hid, heval⟩ := h.eval_verifyAdmin
  exact fun σ => ⟨identity, hid, by rw [heval, if_pos rfl]⟩

theorem AdminReady.eq_of_passes {id' : String}
    (h : AdminReady a.crypto id (trimSpace login) stored w.db)
    (hpasses : AdminPasses a id' login p w) : p = stored := by
  obtain ⟨identity, -, heval⟩ := h.eval_verifyAdmin
  obtain ⟨found, -, hfound⟩ := hpasses fun _ => ⟨0, ""⟩
  by_contra hp
  rw [heval, if_neg hp] at hfound
  cases hfound

/-- The check finds nobody but the administrator with this login. -/
theorem find_of_verifyAdmin {s : AuthWorld × Script}
    (h : (eval answer (verifyAdmin a login p).run s).1 = .ok identity) :
    s.1.db.findActiveAdminIdentityByLogin (trimSpace login) = .ok identity := by
  obtain ⟨found, _, hfind, h⟩ := eval_andThen_ok (Prod.ext h rfl)
  have hfind : s.1.db.findActiveAdminIdentityByLogin (trimSpace login) = .ok found := by
    rw [eval_orElse, eval_findAdmin] at hfind
    cases hdb : s.1.db.findActiveAdminIdentityByLogin (trimSpace login) with
    | error e =>
      rw [hdb] at hfind
      cases congrArg Prod.fst hfind
    | ok i =>
      rw [hdb] at hfind
      exact congrArg Prod.fst hfind
  split at h
  · cases congrArg Prod.fst h
  obtain ⟨credential, _, -, h⟩ := eval_andThen_ok h
  split at h
  · cases congrArg Prod.fst h
  obtain ⟨locked, _, -, h⟩ := eval_andThen_ok h
  split at h
  · cases congrArg Prod.fst h
  split at h
  · obtain ⟨_, _, -, h⟩ := eval_andThen_ok h
    exact hfind.trans (congrArg Prod.fst h)
  · obtain ⟨_, _, -, h⟩ := eval_andThen_ok h
    cases congrArg Prod.fst h

theorem Gone.not_passes (h : Gone id (trimSpace login) w.db) : ¬ AdminPasses a id login p w := by
  intro hpasses
  obtain ⟨found, hid, hfound⟩ := hpasses fun _ => ⟨0, ""⟩
  exact h found (find_of_verifyAdmin hfound) hid

end

theorem ClientReady.passes {X : Crypto} {accountID p : String}
    (h : ClientReady X accountID p w.db) : ClientPasses X accountID p w := by
  obtain ⟨account, identity, haccount, hfind, credential, hget, hactive, hlocked, hcompare⟩ := h
  refine ⟨account, haccount, fun clock σ => ⟨identity, ?_⟩⟩
  rw [verifyStrongUser, eval_andThen, eval_findUser, hfind]
  dsimp only
  rw [eval_andThen, eval_getAuthCredential, hget]
  dsimp only
  rw [if_neg (by simp [hactive]), eval_andThen, isLocked, hlocked, eval_pure]
  dsimp only
  rw [if_neg (by simp), if_pos ((hcompare p).2 rfl), eval_andThen, eval_ignoring]
  rfl

/-! ## The writes -/

section Writes

variable {X : Crypto} {p hash : String} {db : AuthDB}

section

variable (hget : db.getAuthCredential id .password = .ok credential)

include hget

theorem get_updateAuthCredential (hash : String) :
    ∃ c, (db.updateAuthCredential (credential.withPassword hash)).2.getAuthCredential id
        .password = .ok c ∧ c.status = .active ∧ c.lockedUntil = none ∧ c.secretHash = hash := by
  have hfind := orNotFound_eq_ok.1 hget
  have hrow := List.find?_some hfind
  simp only [Bool.and_eq_true, beq_iff_eq, bne_iff_ne] at hrow
  obtain ⟨c, -, hc⟩ := Table.find?_update (p := fun c => c.id == credential.id)
    (f := AuthDB.setCredential (credential.withPassword hash)) hfind (beq_self_eq_true _)
    (by simp [AuthDB.setCredential, AuthCredential.withPassword, hrow.1.1])
  exact ⟨_, orNotFound_eq_ok.2 hc, rfl, rfl, rfl⟩

theorem ready_updateAuthCredential
    (hhash : ∀ q, X.compareHashAndPassword hash q = true ↔ q = p) :
    Ready X id p (db.updateAuthCredential (credential.withPassword hash)).2 := by
  obtain ⟨c, hc, hactive, hlocked, rfl⟩ := get_updateAuthCredential hget hash
  exact ⟨c, hc, hactive, hlocked, hhash⟩

end

theorem ready_createAuthCredential {id newID : String} {c : AuthCredential}
    (h : db.createAuthCredential ⟨"", id, .password, hash, 0, none, .active⟩ newID = (.ok c, db'))
    (hhash : ∀ q, X.compareHashAndPassword hash q = true ↔ q = p) : Ready X id p db' := by
  rw [AuthDB.createAuthCredential] at h
  split at h
  · cases h
  · rename_i hnone
    cases h
    simp only [AuthCredential.withDefaults, List.any_eq_true, not_exists, not_and, Bool.or_eq_true,
      Bool.and_eq_true, not_or, beq_iff_eq, bne_iff_ne] at hnone
    refine ⟨AuthCredential.withDefaults ⟨"", id, .password, hash, 0, none, .active⟩ newID,
      orNotFound_eq_ok.2 ?_, rfl, rfl, hhash⟩
    rw [List.find?_append, List.find?_eq_none.2, Option.none_or]
    · simp [AuthCredential.withDefaults]
    · intro c hc
      have := (hnone c hc).2
      simp only [Bool.and_eq_true, beq_iff_eq, bne_iff_ne]
      tauto

theorem id_of_getAuthIdentity (hget : db.getAuthIdentity id = .ok identity) : identity.id = id := by
  have hrow := List.find?_some (orNotFound_eq_ok.1 hget)
  exact eq_of_beq hrow

theorem id_of_not_loginTaken (h : db.loginTaken id login = false) {i : AuthIdentity}
    (hi : i ∈ db.identities) (hkind : i.kind = .admin)
    (hlogin : i.login = login) (hactive : i.status = .active) : i.id = id := by
  by_contra hne
  have hi' := List.any_eq_false.1 h i hi
  simp [hne, hkind, hlogin, hactive] at hi'

theorem find_createAuthIdentity {login displayName newID : String}
    (h : db.createAuthIdentity ⟨"", .admin, login, displayName, "", .active, false⟩
      newID = (.ok identity, db')) : db'.findActiveAdminIdentityByLogin login = .ok identity := by
  rw [AuthDB.createAuthIdentity] at h
  split at h
  · cases h
  · rename_i hnone
    obtain ⟨hrow, rfl⟩ := Prod.mk.inj h
    cases hrow
    rw [Bool.not_eq_true, Bool.or_eq_false_iff] at hnone
    obtain ⟨hid, htaken⟩ := hnone
    refine orNotFound_eq_ok.2 ?_
    rw [List.find?_append, List.find?_eq_none.2, Option.none_or]
    · simp [AuthIdentity.withDefaults]
    · intro i hi
      simp only [Bool.and_eq_true, beq_iff_eq]
      rintro ⟨⟨hkind, hlogin⟩, hactive⟩
      have hsame := id_of_not_loginTaken htaken hi hkind hlogin hactive
      exact absurd (beq_iff_eq.2 hsame) (List.any_eq_false.1 hid i hi)

/-- An administrator whose row is written back is found by the login. -/
theorem find_updateAuthIdentity {identity read : AuthIdentity}
    (hget : db.getAuthIdentity identity.id = .ok identity) (hkind : identity.kind = .admin)
    (hactive : identity.status = .active)
    (h : db.updateAuthIdentity { identity with mustChangePassword := m } = (.ok read, db')) :
    ∃ found, db'.findActiveAdminIdentityByLogin identity.login = .ok found ∧
      found.id = identity.id := by
  have hfind := orNotFound_eq_ok.1 hget
  have hmem := List.mem_of_find?_eq_some hfind
  rw [AuthDB.updateAuthIdentity] at h
  split at h
  · cases h
  · rename_i hnone
    obtain ⟨-, rfl⟩ := Prod.mk.inj h
    have hany : (db.identities.any fun i => i.id == identity.id && i.kind == .admin) = true :=
      List.any_eq_true.2 ⟨identity, hmem, by simp [hkind]⟩
    have htaken : db.loginTaken identity.id identity.login = false := by
      simpa [hany, hactive] using hnone
    generalize hrows : Table.update (fun i => i.id == identity.id)
      (AuthDB.setIdentity { identity with mustChangePassword := m }) db.identities = rows
    have hwritten :
        AuthDB.setIdentity { identity with mustChangePassword := m } identity ∈ rows := by
      rw [← hrows]
      have hm := Table.mem_update_of_mem (p := fun i => i.id == identity.id)
        (f := AuthDB.setIdentity { identity with mustChangePassword := m }) hmem
      simpa using hm
    cases hf : rows.find? (fun i => i.kind == .admin && i.login == identity.login &&
        i.status == .active) with
    | none =>
      have hnot := List.find?_eq_none.1 hf _ hwritten
      simp [AuthDB.setIdentity, hkind, hactive] at hnot
    | some found =>
      refine ⟨found, orNotFound_eq_ok.2 hf, ?_⟩
      have hrow := List.find?_some hf
      simp only [Bool.and_eq_true, beq_iff_eq] at hrow
      have hfound := List.mem_of_find?_eq_some hf
      rw [← hrows] at hfound
      obtain ⟨r, hr, hrf⟩ := Table.mem_update.1 hfound
      split at hrf
      · rename_i hid
        rw [← hrf]
        exact eq_of_beq hid
      · subst hrf
        exact id_of_not_loginTaken htaken hr hrow.1.1 hrow.1.2 hrow.2

/-- One that is not active is written back as it was. -/
theorem gone_updateAuthIdentity {identity read : AuthIdentity}
    (hactive : identity.status ≠ .active)
    (h : db.updateAuthIdentity { identity with mustChangePassword := m } = (.ok read, db')) :
    Gone identity.id identity.login db' := by
  intro found hfind hid
  rw [AuthDB.updateAuthIdentity] at h
  split at h
  · cases h
  obtain ⟨-, rfl⟩ := Prod.mk.inj h
  have hfind := orNotFound_eq_ok.1 hfind
  have hrow := List.find?_some hfind
  simp only [Bool.and_eq_true, beq_iff_eq] at hrow
  obtain ⟨r, -, hrf⟩ := Table.mem_update.1 (List.mem_of_find?_eq_some hfind)
  split at hrf
  · rw [← hrf] at hrow
    exact hactive hrow.2
  · rename_i hne
    subst hrf
    exact hne (beq_iff_eq.2 hid)

end Writes

/-! ## The requests, one after the other -/

section Aside

variable {ε : Type}

theorem aside_now : Only Aside (LazGate.now : AuthProg ε Time).run := Only.lift (Only.ask trivial)

theorem aside_newID : Only Aside (newID : AuthProg ε String).run := Only.lift (Only.ask trivial)

theorem aside_createAuthSession (session : AuthSession) :
    Only Aside (createAuthSession session).run :=
  Only.andThen aside_newID fun _ => Only.andThen aside_newID fun _ =>
    Only.andThen aside_newID fun _ => Only.ask trivial

theorem aside_issueNormalSession (identity : AuthIdentity) :
    Only Aside (a.issueNormalSession identity).run := by
  refine Only.andThen (Only.failAs (Only.ask trivial)) fun profile => ?_
  split
  · exact Only.fail
  · exact Only.andThen aside_now fun _ => Only.andThen (Only.ask trivial) fun _ =>
      Only.andThen (Only.ask trivial) fun _ => Only.andThen (aside_createAuthSession _) fun _ =>
        Only.andThen aside_now fun _ => Only.ok

theorem aside_createStrongSession (X : Crypto) (identity : AuthIdentity) (accountID : String) :
    Only Aside (createStrongSession X identity accountID).run :=
  Only.andThen (Only.ask trivial) fun _ => Only.andThen (Only.ask trivial) fun _ =>
    Only.andThen aside_now fun _ => Only.andThen (aside_createAuthSession _) fun _ => Only.ok

end Aside

section Requests

variable {X : Crypto} {α : Type}

theorem safe_rest (hx : Only Aside x.run) {P : AuthDB → Prop}
    (hP : ∀ db db', P db → Same db db' → P db') (h : P w.db) :
    Safe (exactly X) x.run (ifOk fun w' => P w'.db) w := by
  refine (safe_aside hx w).mono ?_
  rintro (e | r) w' hs
  · trivial
  · exact hP _ _ h hs

theorem safe_any (p : Prog AuthCall AuthCall.Reply α) (w : AuthWorld) :
    Safe (exactly X) p (fun _ _ => True) w :=
  (Only.of_forall (K := fun _ => True) (fun _ => trivial) p).safe (fun _ _ _ _ => trivial)
    (fun _ _ _ _ _ _ => ⟨trivial, trivial⟩) trivial

theorem safe_generate {password : String} :
    Safe (exactly X) (orElse e (generateFromPassword password)).run
      (onOk (fun hash w' => w'.db = w.db ∧
        ∀ p, X.compareHashAndPassword hash p = true ↔ p = password) fun _ _ => True) w := by
  exact Safe.failAs (safe_ask (fun _ => trivial) fun f hf => ⟨rfl, hf⟩)

theorem safe_createAdministrator {login displayName hash p : String} {invite : AdminInvite}
    (hhash : ∀ q, X.compareHashAndPassword hash q = true ↔ q = p) :
    Safe (exactly X) (createAdministrator login displayName hash invite).run
      (ifOk fun w' => ∃ id, AdminReady X id login p w'.db) w := by
  refine Safe.andThen (Safe.failAs (Safe.andThen (Safe.map (safe_ask trivial fun f _ => ?_))))
  refine safe_ask (fun _ => trivial) fun f' _ => ?_
  simp only [AuthCall.effect]
  cases hcreate : w.db.createAuthIdentity ⟨"", .admin, login, displayName, "", .active, false⟩
    f.text with | mk r db₁ =>
  cases r with
  | error e => trivial
  | ok identity =>
  have hfind := find_createAuthIdentity hcreate
  refine Safe.andThen (Safe.failAs (Safe.andThen (Safe.map (safe_ask trivial fun f _ => ?_))))
  refine safe_ask (fun _ => trivial) fun f' _ => ?_
  simp only [AuthCall.effect]
  cases hcred : db₁.createAuthCredential ⟨"", identity.id, .password, hash, 0, none, .active⟩
    f.text with | mk r db₂ =>
  cases r with
  | error e => trivial
  | ok credential =>
  have hids : db₂.identities = db₁.identities := by
    have hframe := (AuthCall.createAuthCredential
      ⟨"", identity.id, .password, hash, 0, none, .active⟩ f.text).frame_effect 0 "" db₁
    rw [AuthCall.effect, hcred] at hframe
    exact hframe.identities (by simp [AuthCall.writes])
  have hready : ∃ id, AdminReady X id login p db₂ := by
    refine ⟨identity.id, identity, ?_, rfl, ready_createAuthCredential hcred hhash⟩
    rw [AuthDB.findActiveAdminIdentityByLogin, hids]
    exact hfind
  exact safe_rest (Only.andThen (Only.failAs (Only.andThen aside_newID fun _ =>
    Only.ask trivial)) fun _ => Only.ok) (P := fun db => ∃ id, AdminReady X id login p db)
    (fun _ _ => AdminReady.exists_same) hready

theorem safe_enroll (input : EnrollInput) (w : AuthWorld) :
    Safe (exactly a.crypto) (enrollAdmin a input).run
      (ifOk fun w' => ∃ id, AdminReady a.crypto id (trimSpace input.login)
        (trimSpace input.password) w'.db) w := by
  refine Safe.andThen (Safe.failAs (safe_ask (fun _ => trivial) fun f _ => ?_))
  simp only [AuthCall.effect]
  cases w.db.getAdminInviteByTokenHash (a.crypto.hash (trimSpace input.inviteToken)) with
  | error e => trivial
  | ok invite =>
  refine Safe.andThen (Safe.map (safe_ask trivial fun f' _ => ?_))
  simp only [onOk_ok]
  split
  · exact Safe.fail fun _ _ => trivial
  split
  · split
    · exact Safe.fail fun _ _ => trivial
    refine Safe.seq (safe_aside (Only.result (Only.ask trivial)) _) fun found w₁ _ => ?_
    cases found with
    | ok identity => exact Safe.fail fun _ _ => trivial
    | error e =>
      refine Safe.check (fun _ _ => ?_) fun _ _ _ _ => trivial
      refine Safe.seq safe_generate fun hash w₂ hw₂ => ?_
      refine Safe.seq (safe_createAdministrator hw₂.2) fun identity w₃ hw₃ => ?_
      exact safe_rest (Only.andThen (Only.failAs (Only.ask trivial)) fun _ =>
        Only.failAs (aside_issueNormalSession a identity))
        (P := fun db => ∃ id, AdminReady a.crypto id (trimSpace input.login)
          (trimSpace input.password) db) (fun _ _ => AdminReady.exists_same) hw₃
  · exact Safe.fail fun _ _ => trivial

theorem safe_updateAdminPasswordCredential {id password : String}
    (hget : w.db.getAuthCredential id .password = .ok credential) :
    Safe (exactly X) (updateAdminPasswordCredential credential password).run
      (ifOk fun w' => Ready X id (trimSpace password) w'.db ∧
        w'.db.identities = w.db.identities) w := by
  refine Safe.seq safe_generate fun hash w₁ hw₁ => ?_
  refine Safe.andThen (Safe.failAs (safe_ask (fun _ => trivial) fun f _ => ?_))
  have hready : Ready X id (trimSpace password)
      (w₁.db.updateAuthCredential (credential.withPassword hash)).2 :=
    ready_updateAuthCredential (hw₁.1 ▸ hget) hw₁.2
  simp only [AuthCall.effect]
  cases (w₁.db.updateAuthCredential (credential.withPassword hash)).1 with
  | error e => trivial
  | ok c =>
    have hids : w₁.db.identities = w.db.identities := congrArg AuthDB.identities hw₁.1
    refine Safe.ok ?_
    rintro _ rfl
    exact ⟨hready, hids⟩

/-- The administrator is written back, and is found with the password if it is active. -/
theorem safe_updateAuthIdentity {stored : String} (hready : Ready X identity.id stored w.db)
    (hget : w.db.getAuthIdentity identity.id = .ok identity) (hkind : identity.kind = .admin) :
    Safe (exactly X) (updateAuthIdentity { identity with mustChangePassword := m }).run
      (ifOk fun w' => Replaced X identity stored w'.db) w := by
  refine safe_ask (fun _ => trivial) fun f _ => ?_
  simp only [AuthCall.effect]
  cases hupdate : w.db.updateAuthIdentity { identity with mustChangePassword := m } with
  | mk r db₁ =>
  cases r with
  | error e => trivial
  | ok read =>
    change Replaced X identity stored db₁
    rw [Replaced]
    split
    case isFalse hactive => exact gone_updateAuthIdentity hactive hupdate
    case isTrue hactive =>
    obtain ⟨found, hfind, hid⟩ := find_updateAuthIdentity hget hkind hactive hupdate
    have hcredentials : db₁.credentials = w.db.credentials := by
      have hframe := (AuthCall.updateAuthIdentity
        { identity with mustChangePassword := m }).frame_effect 0 "" w.db
      rw [AuthCall.effect, hupdate] at hframe
      exact hframe.credentials (by simp [AuthCall.writes])
    refine ⟨found, hfind, hid, ?_⟩
    obtain ⟨credential, hcredential, hrest⟩ := hready
    refine ⟨credential, ?_, hrest⟩
    rw [AuthDB.getAuthCredential, hcredentials]
    exact hcredential

theorem safe_replacePassword {password : String} {x : Handler Unit} (hx : Only Aside x.run)
    {db : AuthDB} (hdb : w.db = db)
    (hcredential : db.getAuthCredential identity.id .password = .ok credential)
    (hget : db.getAuthIdentity identity.id = .ok identity) (hkind : identity.kind = .admin) :
    Safe (exactly X) (do
      updateAdminPasswordCredential credential password
      let _ ← orElse e (updateAuthIdentity { identity with mustChangePassword := m })
      x : Handler Unit).run (ifOk fun w' => Replaced X identity (trimSpace password) w'.db) w := by
  subst hdb
  refine Safe.seq (safe_updateAdminPasswordCredential hcredential) fun _ w₁ hw₁ => ?_
  have hget₁ : w₁.db.getAuthIdentity identity.id = .ok identity := by
    rw [AuthDB.getAuthIdentity, hw₁.2]
    exact hget
  refine Safe.andThen (Safe.failAs
    ((safe_updateAuthIdentity hw₁.1 hget₁ hkind).mono ?_))
  rintro (e | _) w₂ hw₂
  · trivial
  exact safe_rest hx (fun _ _ h hs => h.same hs) hw₂

theorem safe_reset (principal : Principal) (id : String) (input : ResetPasswordInput)
    (w : AuthWorld) :
    Safe (exactly a.crypto) (resetAdminPassword a.crypto principal id input).run
      (ifOk fun w' => ∃ identity, w.db.getAuthIdentity id = .ok identity ∧
        Replaced a.crypto identity (trimSpace (NewPassword.reset principal id input).password)
          w'.db) w := by
  rw [password]
  refine Safe.andThen (Safe.andThen (Safe.failAs (safe_ask (fun _ => trivial) fun f _ => ?_)))
  simp only [AuthCall.effect]
  cases hget : w.db.getAuthIdentity id with
  | error e => trivial
  | ok identity =>
  obtain rfl := id_of_getAuthIdentity hget
  simp only [Except.mapError, onOk_ok]
  split
  · exact Safe.fail fun _ _ => trivial
  rename_i hkind
  rw [not_not] at hkind
  refine Safe.andThen (Safe.failAs (safe_ask (fun _ => trivial) fun f' _ => ?_))
  simp only [AuthCall.effect]
  cases w.db.getAdminProfile identity.id with
  | error e => trivial
  | ok profile =>
  refine Safe.ok ?_
  rintro _ rfl
  simp only [onOk_ok]
  split
  · refine Safe.andThen (Safe.failAs (safe_ask (fun _ => trivial) fun f _ => ?_))
    simp only [AuthCall.effect]
    cases hcredential : w.db.getAuthCredential identity.id .password with
    | error e => trivial
    | ok credential =>
    simp only [Except.mapError, onOk_ok]
    split
    · refine Safe.check (fun _ _ => ?_) fun _ _ _ _ => trivial
      refine (safe_replacePassword ?_ ?_ hcredential hget hkind).mono ?_
      · split
        · exact only_ignoring (Only.ask trivial)
        · exact only_ignoring (Only.ask trivial)
      · rfl
      · rintro (e | _) w' hw'
        · trivial
        · exact ⟨identity, rfl, hw'⟩
    · exact Safe.fail fun _ _ => trivial
  split
  · exact Safe.fail fun _ _ => trivial
  · refine Safe.check (fun _ _ => ?_) fun _ _ _ _ => trivial
    refine Safe.andThen (Safe.failAs (safe_ask (fun _ => trivial) fun f _ => ?_))
    simp only [AuthCall.effect]
    cases hcredential : w.db.getAuthCredential identity.id .password with
    | error e => trivial
    | ok credential =>
    simp only [Except.mapError, onOk_ok]
    refine (safe_replacePassword ?_ ?_ hcredential hget hkind).mono ?_
    · exact only_ignoring (Only.ask trivial)
    · rfl
    · rintro (e | _) w' hw'
      · trivial
      · exact ⟨identity, rfl, hw'⟩

theorem safe_change (changeToken newPassword : String) (w : AuthWorld) :
    Safe (exactly a.crypto) (a.changePassword changeToken newPassword).run
      (ifOk fun w' => ∀ session identity,
        w.db.toSessionTables.getAuthSessionByTokenHash (a.crypto.hash changeToken) =
          some session → w.db.getAuthIdentity session.identityID = .ok identity →
        identity.kind = .admin →
          AdminReady a.crypto identity.id identity.login newPassword w'.db) w := by
  refine Safe.andThen (Safe.failAs (safe_ask (fun _ => trivial) fun f _ => ?_))
  simp only [AuthCall.effect]
  cases w.db.toSessionTables.getAuthSessionByTokenHash (a.crypto.hash changeToken) with
  | none => trivial
  | some session =>
  refine Safe.andThen (Safe.map (safe_ask trivial fun f' _ => ?_))
  simp only [onOk_ok]
  split
  · exact Safe.fail fun _ _ => trivial
  refine Safe.andThen (Safe.failAs (safe_ask (fun _ => trivial) fun f _ => ?_))
  simp only [AuthCall.effect]
  cases hget : w.db.getAuthIdentity session.identityID with
  | error e => trivial
  | ok identity =>
  have hid := id_of_getAuthIdentity hget
  simp only [Except.mapError, onOk_ok]
  split
  · exact Safe.fail fun _ _ => trivial
  rename_i hstatus
  have hactive : identity.status = .active := by
    by_contra hne
    exact hstatus (.inl hne)
  refine Safe.check (fun _ _ => ?_) fun _ _ _ _ => trivial
  refine Safe.andThen (safe_ask (fun _ => trivial) fun f hhash => ?_)
  refine Safe.andThen (safe_ask (fun _ => trivial) fun f' _ => ?_)
  simp only [AuthCall.effect]
  cases hcredential : w.db.getAuthCredential identity.id .password with
  | error e => trivial
  | ok credential =>
  have hready := ready_updateAuthCredential (X := a.crypto) hcredential hhash
  refine Safe.andThen (safe_ask (fun _ => trivial) fun f'' _ => ?_)
  simp only [AuthCall.effect]
  cases (w.db.updateAuthCredential (credential.withPassword f.text)).1 with
  | error e => trivial
  | ok c =>
  by_cases hkind : identity.kind = .admin
  · have hget' : w.db.getAuthIdentity identity.id = .ok identity := hid ▸ hget
    refine Safe.seq (safe_updateAuthIdentity
      (w := ⟨(w.db.updateAuthCredential (credential.withPassword f.text)).2, _⟩) hready hget' hkind)
      fun _ w₁ hw₁ => ?_
    rw [Replaced, if_pos hactive] at hw₁
    refine (safe_rest (P := AdminReady a.crypto identity.id identity.login newPassword)
      (Only.andThen (only_ignoring (Only.ask trivial)) fun _ => aside_issueNormalSession a _)
      (fun _ _ h hs => h.same hs) hw₁).mono ?_
    rintro (e | _) w₂ hw₂
    · trivial
    · rintro _ identity' ⟨⟩ hget' -
      obtain rfl := Except.ok.inj (hget.symm.trans hget')
      exact hw₂
  · refine (safe_any _ _).mono ?_
    rintro (e | _) w₁ -
    · trivial
    · rintro _ identity' ⟨⟩ hget' hadmin
      obtain rfl := Except.ok.inj (hget.symm.trans hget')
      exact absurd hadmin hkind

/-- The identity of the account is found by the login after it. -/
theorem safe_findOrCreateUserIdentity :
    Safe (exactly X) (findOrCreateUserIdentity account).run
      (onOk (fun identity w' => w'.db.accounts = w.db.accounts ∧
        w'.db.findActiveUserIdentityByAccountID account.id = .ok identity) fun _ _ => True) w := by
  refine Safe.andThen (Safe.result (safe_ask (fun _ => Safe.fail fun _ _ => trivial) fun f _ => ?_))
  simp only [AuthCall.effect, onOk_ok]
  cases hfind : w.db.findActiveUserIdentityByAccountID account.id with
  | ok identity =>
    refine Safe.ok ?_
    rintro _ rfl
    exact ⟨rfl, hfind⟩
  | error e =>
    dsimp only
    split
    · refine Safe.andThen (Safe.map (safe_ask trivial fun f _ => ?_))
      refine safe_ask (fun _ => trivial) fun f' _ => ?_
      simp only [AuthCall.effect]
      have hnone : w.db.identities.find? (fun i =>
          i.kind == .user && i.accountID == account.id && i.status == .active) = none := by
        cases hf : w.db.identities.find? (fun i =>
          i.kind == .user && i.accountID == account.id && i.status == .active) with
        | none => rfl
        | some i =>
          rw [AuthDB.findActiveUserIdentityByAccountID, hf] at hfind
          cases hfind
      rw [AuthDB.createAuthIdentity]
      split
      · trivial
      · refine ⟨rfl, orNotFound_eq_ok.2 ?_⟩
        rw [List.find?_append, hnone, Option.none_or]
        simp [AuthIdentity.withDefaults]
    · exact Safe.fail fun _ _ => trivial

theorem safe_setStrongPassword {hash p : String}
    (hhash : ∀ q, X.compareHashAndPassword hash q = true ↔ q = p) :
    Safe (exactly X) (setStrongPassword identity hash).run
      (ifOk fun w' => Ready X identity.id p w'.db ∧ w'.db.accounts = w.db.accounts ∧
        w'.db.identities = w.db.identities) w := by
  refine Safe.andThen (Safe.result (safe_ask (fun _ => Safe.fail fun _ _ => trivial) fun f _ => ?_))
  simp only [AuthCall.effect, onOk_ok]
  cases hget : w.db.getAuthCredential identity.id .password with
  | ok credential =>
    refine safe_ask (fun _ => trivial) fun f' _ => ?_
    have hready := ready_updateAuthCredential (X := X) hget hhash
    simp only [AuthCall.effect]
    cases (w.db.updateAuthCredential (credential.withPassword hash)).1 with
    | error e => trivial
    | ok c => exact ⟨hready, rfl, rfl⟩
  | error e =>
    dsimp only
    split
    · refine Safe.andThen (Safe.map (safe_ask trivial fun f _ => ?_))
      refine safe_ask (fun _ => trivial) fun f' _ => ?_
      simp only [AuthCall.effect]
      have haccounts := (AuthCall.createAuthCredential
        ⟨"", identity.id, .password, hash, 0, none, .active⟩ f.text).accounts_effect 0 "" w.db
      have hframe := (AuthCall.createAuthCredential
        ⟨"", identity.id, .password, hash, 0, none, .active⟩ f.text).frame_effect 0 "" w.db
      rw [AuthCall.effect] at haccounts hframe
      cases hcreate : w.db.createAuthCredential
        ⟨"", identity.id, .password, hash, 0, none, .active⟩ f.text with | mk r db₁ =>
      cases r with
      | error e => trivial
      | ok c =>
        rw [hcreate] at haccounts hframe
        exact ⟨ready_createAuthCredential hcreate hhash, haccounts,
          hframe.identities (by simp [AuthCall.writes])⟩
    · exact Safe.fail fun _ _ => trivial

theorem safe_setupStrongUser {accountID password : String}
    (haccount : w.db.getAccount accountID = .ok account) :
    Safe (exactly X) (setupStrongUser X account password).run
      (ifOk fun w' => ClientReady X accountID password w'.db) w := by
  refine Safe.check (fun _ _ => ?_) fun _ _ _ _ => trivial
  refine Safe.seq safe_findOrCreateUserIdentity fun identity w₁ hw₁ => ?_
  refine Safe.andThen (safe_ask (fun _ => trivial) fun f hhash => ?_)
  refine Safe.seq (safe_setStrongPassword hhash) fun _ w₂ ⟨hready, haccounts, hids⟩ => ?_
  refine safe_rest (aside_createStrongSession X identity account.id) (fun _ _ h hs => h.same hs) ?_
  refine ⟨account, identity, ?_, ?_, hready⟩
  · rw [AuthDB.getAccount, haccounts.trans hw₁.1]
    exact haccount
  · rw [AuthDB.findActiveUserIdentityByAccountID, hids]
    exact hw₁.2

theorem safe_issueRecoveryCode {accountID password : String}
    (haccount : w.db.getAccount accountID = .ok account)
    {x : RawTokens × AuthSession → Handler String} (hx : ∀ s, Only Aside (x s).run) :
    Safe (exactly X)
      (failAs clientSessionError (setupStrongUser X account password) >>= x).run
      (ifOk fun w' => ClientReady X accountID password w'.db) w := by
  refine Safe.andThen (Safe.failAs ((safe_setupStrongUser haccount).mono ?_))
  rintro (e | s) w₁ hw₁
  · trivial
  exact safe_rest (hx s) (fun _ _ h hs => h.same hs) hw₁

theorem aside_createRecoveryCode (X : Crypto) (s : RawTokens × AuthSession) :
    Only Aside (do
      let recoveryCode ← orElse (internalError "internal error") newRecoveryCode
      let _ ← failAs storeError
        (createAuthRecoveryCode ⟨"", s.2.identityID, X.hash recoveryCode, .active⟩)
      return recoveryCode : Handler String).run :=
  Only.andThen (Only.failAs (Only.ask trivial)) fun _ => Only.andThen (Only.failAs
    (Only.andThen aside_newID fun _ => Only.ask trivial)) fun _ => Only.ok

theorem safe_setup (password : String) (w : AuthWorld) :
    Safe (exactly X) (setupPassword X accountID password).run
      (ifOk fun w' => ClientReady X accountID password w'.db) w := by
  refine Safe.andThen (Safe.failAs (safe_ask (fun _ => trivial) fun f _ => ?_))
  simp only [AuthCall.effect]
  cases haccount : w.db.getAccount accountID with
  | error e => trivial
  | ok account =>
  have htaken : Only Aside
      (hasStrongPasswordCredential account.id : AuthProg HTTPError Bool).run := by
    refine Only.andThen (Only.result (Only.ask trivial)) fun found => ?_
    cases found with
    | error e => exact Only.ok
    | ok identity =>
      refine Only.andThen (Only.result (Only.ask trivial)) fun credential => ?_
      cases credential with
      | error | ok => exact Only.ok
  refine Safe.seq (safe_aside htaken _) fun taken w₁ hw₁ => ?_
  have haccount₁ : w₁.db.getAccount accountID = .ok account := by
    rw [AuthDB.getAccount, hw₁.1]
    exact haccount
  split
  · exact Safe.fail fun _ _ => trivial
  · exact safe_issueRecoveryCode haccount₁ (aside_createRecoveryCode X)

theorem safe_recovery (recoveryCode newPassword : String) (w : AuthWorld) :
    Safe (exactly X) (LazGate.recover X accountID recoveryCode newPassword).run
      (ifOk fun w' => ClientReady X accountID newPassword w'.db) w := by
  refine Safe.andThen (Safe.failAs (safe_ask (fun _ => trivial) fun f _ => ?_))
  simp only [AuthCall.effect]
  cases haccount : w.db.getAccount accountID with
  | error e => trivial
  | ok account =>
  refine Safe.seq (safe_aside (Only.failAs (Only.ask
    (c := AuthCall.findActiveUserIdentityByAccountID account.id) trivial)) _)
    fun identity w₁ hw₁ => ?_
  refine Safe.seq (safe_aside (Only.lift
    (Only.ask (c := AuthCall.listAuthRecoveryCodes identity.id) trivial)) _) fun codes w₂ hw₂ => ?_
  split
  · exact Safe.fail fun _ _ => trivial
  rename_i code _
  refine Safe.seq (safe_aside (only_ignoring (Only.ask trivial)) _) fun _ w₃ hw₃ => ?_
  refine Safe.seq (safe_aside (only_ignoring (Only.ask trivial)) _) fun _ w₄ hw₄ => ?_
  have haccount₄ : w₄.db.getAccount accountID = .ok account := by
    rw [AuthDB.getAccount, (((hw₁.trans hw₂).trans hw₃).trans hw₄).1]
    exact haccount
  exact safe_issueRecoveryCode haccount₄ (aside_createRecoveryCode X)

end Requests

theorem passes_reset_iff {principal : Principal} {input : ResetPasswordInput} {w' : AuthWorld}
    (hget : w.db.getAuthIdentity id = .ok identity)
    (h : Replaced a.crypto identity (trimSpace (reset principal id input).password) w'.db) :
    (reset principal id input).Passes a w w' ↔ (reset principal id input).Plain w := by
  obtain rfl := id_of_getAuthIdentity hget
  rw [Replaced] at h
  constructor
  · intro hpasses found hfound hlogin
    obtain rfl := Except.ok.inj (hget.symm.trans hfound)
    have hpass := hpasses identity hget identity.login hlogin
    rw [← hlogin] at h
    split at h
    · rename_i hactive
      exact ⟨(h.eq_of_passes hpass).symm, hactive⟩
    · exact absurd hpass h.not_passes
  · intro hplain found hfound login hlogin
    obtain rfl := Except.ok.inj (hget.symm.trans hfound)
    obtain ⟨htrim, hactive⟩ := hplain identity hget (by rw [← hlogin, trimSpace_idem])
    rw [if_pos hactive, htrim, ← hlogin] at h
    exact h.passes

/-- After a request that is accepted its login passes just with a password that is stored as it
is. -/
theorem safe_prog (q : NewPassword) (w : AuthWorld) :
    Safe (exactly a.crypto) (q.prog a).run (ifOk fun w' => q.Passes a w w' ↔ q.Plain w) w := by
  cases q with
  | enroll input =>
    refine Safe.seq (safe_enroll a input w) fun _ w₁ hw₁ => ?_
    refine Safe.ok ?_
    rintro _ rfl
    obtain ⟨id, hready⟩ := hw₁
    constructor
    · rintro ⟨_, hpasses⟩
      exact (hready.eq_of_passes (hpasses input.login rfl)).symm
    · intro (hplain : trimSpace input.password = input.password)
      rw [hplain] at hready
      exact ⟨id, fun login hlogin => AdminReady.passes (hlogin ▸ hready)⟩
  | reset principal id input =>
    refine (safe_reset a principal id input w).mono ?_
    rintro (e | _) w₁ hw₁
    · trivial
    obtain ⟨identity, hget, hreplaced⟩ := hw₁
    exact passes_reset_iff a hget hreplaced
  | change changeToken newPassword =>
    refine Safe.andThen (Safe.failAs ((safe_change a changeToken newPassword w).mono ?_))
    rintro (e | _) w₁ hw₁
    · trivial
    refine Safe.ok ?_
    rintro _ rfl
    refine iff_of_true ?_ trivial
    intro session identity hsession hget hkind login hlogin
    exact id_of_getAuthIdentity hget ▸
      AdminReady.passes (hlogin ▸ hw₁ session identity hsession hget hkind)
  | setup accountID password =>
    refine Safe.seq (safe_setup accountID password w) fun _ w₁ hw₁ => ?_
    refine Safe.ok ?_
    rintro _ rfl
    exact iff_of_true hw₁.passes trivial
  | recover accountID recoveryCode newPassword =>
    refine Safe.seq (safe_recovery accountID recoveryCode newPassword w) fun _ w₁ hw₁ => ?_
    refine Safe.ok ?_
    rintro _ rfl
    exact iff_of_true hw₁.passes trivial

end NewPassword

open NewPassword in
/-- A password that was accepted passes at the login just if it has no blanks around it where these
are cut off, and belongs to an administrator that is not deleted. -/
theorem accepted_password_passes_iff (a : Authenticator) (q : NewPassword) (w : AuthWorld)
    (σ : ℕ → AuthOutcome) (hhashes : Turns (exactly a.crypto) σ (q.prog a).run 0 w)
    (haccepted : ((q.prog a).run.exec AuthCall.perform σ 0 w).1 = .ok ()) :
    q.Passes a w ((q.prog a).run.exec AuthCall.perform σ 0 w).2 ↔ q.Plain w := by
  have h := exec_of_turns hhashes (safe_prog a q w)
  rw [show (exactly a.crypto).perform = AuthCall.perform from rfl, haccepted] at h
  exact h

namespace NewPasswordSample

open NewPassword

/-- The check of `HashExact` for the stand-in. -/
def plainExact (f : AuthOutcome) : AuthCall → Bool
  | .generateFromPassword password => f.text == "#" ++ password
  | _ => true

theorem plainExact_iff (c : AuthCall) :
    plainExact f c = true ↔ HashExact .plain f c := by
  cases c
  case generateFromPassword password =>
    constructor
    · intro h p
      have htext : f.text = "#" ++ password := eq_of_beq h
      change (f.text == "#" ++ p) = true ↔ p = password
      rw [beq_iff_eq, htext, String.append_right_inj, eq_comm]
    · intro h
      exact (h password).2 rfl
  all_goals exact iff_of_true rfl trivial

instance (σ : ℕ → AuthOutcome) (p : Prog AuthCall AuthCall.Reply (Except HTTPError Unit))
    (n : ℕ) (w : AuthWorld) : Decidable (Turns (exactly .plain) σ p n w) :=
  decidableTurns _ σ (fun c f _ => decidable_of_iff _ (plainExact_iff f c)) p n w

def authenticator : Authenticator := ⟨.plain, 10 * minute⟩

def world : AuthWorld where
  db :=
    { AuthDB.empty with
      identities := [⟨"i", .admin, "root", "", "", .active, false⟩,
        ⟨"j", .admin, "kim", "", "", .deleted, false⟩]
      credentials := [⟨"c", "i", .password, "#old", 0, none, .active⟩,
        ⟨"d", "j", .password, "#old", 0, none, .active⟩]
      profiles := [⟨"p", "i", .owner, .active⟩, ⟨"q", "j", .admin, .deleted⟩]
      invites := [⟨"v", "#invite", "#CODE", .admin, .active, minute, ""⟩] }
  clock := 0

def root : Principal := ⟨"root", .owner, "i", "s"⟩

/-- Nothing fails, and what is drawn at random is the hash of the password, as it is stored, with
the number of the call after it where this is no hash. -/
def outcomes (stored : String) (hashAt : ℕ) (n : ℕ) : AuthOutcome :=
  ⟨0, .none, "#" ++ stored ++ if n = hashAt then "" else toString n⟩

/-- How the request ends, and how the login after it with the given password. -/
def outcome (q : NewPassword) (stored : String) (hashAt : ℕ) (login password : String) :
    Except HTTPError Unit × Bool :=
  let x := (q.prog authenticator).run.exec AuthCall.perform (outcomes stored hashAt) 0 world
  (x.1, (eval answer (authenticator.loginWithPassword login password).run
    (x.2, fun n => ⟨0, "t" ++ toString n⟩)).1.toOption.isSome)

end NewPasswordSample

open NewPassword NewPasswordSample in
theorem accepted_password_passes_root :
    outcome (.reset root "i" ⟨"", "s3cret!", "old"⟩) "s3cret!" 3 "root" "s3cret!" =
      (.ok (), true) ∧
    (NewPassword.reset root "i" ⟨"", "s3cret!", "old"⟩).Passes authenticator world
      (((NewPassword.reset root "i" ⟨"", "s3cret!", "old"⟩).prog authenticator).run.exec
        AuthCall.perform (outcomes "s3cret!" 3) 0 world).2 := by
  have hhashes : Turns (exactly .plain) (outcomes "s3cret!" 3)
      ((NewPassword.reset root "i" ⟨"", "s3cret!", "old"⟩).prog authenticator).run 0 world := by
    decide +kernel
  refine ⟨by decide +kernel, (accepted_password_passes_iff authenticator _ world _ hhashes
    (by decide +kernel)).2 ?_⟩
  intro identity hget _
  cases hget
  exact ⟨by decide +kernel, rfl⟩

open NewPassword NewPasswordSample in
/-- A password with a blank before it is accepted by an enrollment, by an owner and by a change of
the own password, and is refused by the login, which accepts it without the blank. For a deleted
administrator a password is accepted that is never of use. -/
theorem accepted_password_refused :
    (outcome (.enroll ⟨"invite", "code", "ann", "", " s3cret!"⟩) "s3cret!" 3 "ann" " s3cret!" =
        (.ok (), false) ∧
      outcome (.enroll ⟨"invite", "code", "ann", "", " s3cret!"⟩) "s3cret!" 3 "ann" "s3cret!" =
        (.ok (), true)) ∧
    (outcome (.reset root "i" ⟨"", " s3cret!", "old"⟩) "s3cret!" 3 "root" " s3cret!" =
        (.ok (), false) ∧
      outcome (.reset root "i" ⟨"", " s3cret!", "old"⟩) "s3cret!" 3 "root" "s3cret!" =
        (.ok (), true)) ∧
    outcome (.reset root "j" ⟨"s3cret!", "", ""⟩) "s3cret!" 3 "kim" "s3cret!" =
      (.ok (), false) := by
  decide +kernel

end LazGate
