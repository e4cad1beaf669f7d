import LazGate.Text
import LazGate.Server.Auth.Store

/-!
# Administrator authentication

`internal/server/adminauth/auth.go` and the handlers of
`internal/server/transport/http/admin/{admins,invites}.go` as programs of store calls. A handler
is modelled from the point on at which its input is decoded and its caller is known.
-/

namespace LazGate

/-- Cryptography and Unicode, which the handlers take from libraries. -/
structure Crypto where
  /-- `commontokens.Hash`: the SHA-256 sum in hexadecimal. -/
  hash : String → String
  /-- `bcrypt.CompareHashAndPassword` of a stored hash and a password finds no error. -/
  compareHashAndPassword : String → String → Bool
  /-- The signature of the CSRF tokens of administrators. -/
  csrfSignature : String → String
  /-- The signature for a purpose of the cookies of clients. -/
  sign : String → String → String
  /-- `unicode.IsLetter`. -/
  isLetter : Char → Bool
  /-- `unicode.IsDigit`. -/
  isDigit : Char → Bool
  /-- `unicode.ToLower`. -/
  toLower : Char → Char
  /-- `unicode.ToUpper`. -/
  toUpper : Char → Char
  /-- `strings.EqualFold`. -/
  equalFold : String → String → Bool

namespace Crypto

variable (X : Crypto)

/-- `strings.ToLower`. -/
def lower (s : String) : String := String.ofList (s.toList.map X.toLower)

/-- `strings.ToUpper`. -/
def upper (s : String) : String := String.ofList (s.toList.map X.toUpper)

end Crypto

/-- A stand-in for ASCII texts in which a hash is the text with a mark before it. -/
def Crypto.plain : Crypto where
  hash text := "#" ++ text
  compareHashAndPassword hash password := hash == "#" ++ password
  csrfSignature text := text
  sign purpose text := purpose ++ text
  isLetter := Char.isAlpha
  isDigit := Char.isDigit
  toLower := Char.toLower
  toUpper := Char.toUpper
  equalFold s t := s.toLower == t.toLower

/-- A text `subject:expires:signature`. Where a text of any other shape is refused there is
none. -/
structure SignedText where
  subject : String
  expires : ℤ
  signature : String
  deriving DecidableEq

def SignedText.payload (t : SignedText) : String := t.subject ++ ":" ++ toString t.expires

def SignedText.text (t : SignedText) : String := t.payload ++ ":" ++ t.signature

/-- `time.Time.Unix`. -/
def unix (t : Time) : ℤ := t / second

/-- A program that makes calls and may fail with an error of type `ε`. -/
abbrev AuthProg (ε α : Type) : Type := ExceptT ε (Prog AuthCall AuthCall.Reply) α

abbrev Handler (α : Type) : Type := AuthProg HTTPError α

/-! ## The store methods as programs -/

section Methods

variable {ε : Type}

def now : AuthProg ε Time := ExceptT.lift (Prog.ask AuthCall.now)

def newID : AuthProg ε String := ExceptT.lift (Prog.ask AuthCall.newID)

def newToken : AuthM String := ExceptT.mk (Prog.ask AuthCall.newToken)

def newRecoveryCode : AuthM String := ExceptT.mk (Prog.ask AuthCall.newRecoveryCode)

def generateFromPassword (password : String) : AuthM String :=
  ExceptT.mk (Prog.ask (AuthCall.generateFromPassword password))

def getAccount (id : String) : AuthM Account := ExceptT.mk (Prog.ask (AuthCall.getAccount id))

def getAuthIdentity (id : String) : AuthM AuthIdentity :=
  ExceptT.mk (Prog.ask (AuthCall.getAuthIdentity id))

def findActiveAdminIdentityByLogin (login : String) : AuthM AuthIdentity :=
  ExceptT.mk (Prog.ask (AuthCall.findActiveAdminIdentityByLogin login))

def findActiveUserIdentityByAccountID (accountID : String) : AuthM AuthIdentity :=
  ExceptT.mk (Prog.ask (AuthCall.findActiveUserIdentityByAccountID accountID))

def createAuthIdentity (identity : AuthIdentity) : AuthM AuthIdentity := do
  let id ← newID
  ExceptT.mk (Prog.ask (AuthCall.createAuthIdentity identity id))

def updateAuthIdentity (identity : AuthIdentity) : AuthM AuthIdentity :=
  ExceptT.mk (Prog.ask (AuthCall.updateAuthIdentity identity))

def getAuthCredential (identityID : String) (type : AuthCredentialType) : AuthM AuthCredential :=
  ExceptT.mk (Prog.ask (AuthCall.getAuthCredential identityID type))

def createAuthCredential (credential : AuthCredential) : AuthM AuthCredential := do
  let id ← newID
  ExceptT.mk (Prog.ask (AuthCall.createAuthCredential credential id))

def updateAuthCredential (credential : AuthCredential) : AuthM AuthCredential :=
  ExceptT.mk (Prog.ask (AuthCall.updateAuthCredential credential))

def createAuthSession (session : AuthSession) : AuthM AuthSession := do
  let sessionID ← newID
  let tokenID ← newID
  let familyID ← newID
  ExceptT.mk (Prog.ask (AuthCall.createAuthSession session sessionID tokenID familyID))

def getAuthSessionByTokenHash (tokenHash : String) : AuthM AuthSession :=
  ExceptT.mk (Prog.ask (AuthCall.getAuthSessionByTokenHash tokenHash))

def getActiveAuthSessionByTokenHash (tokenHash : String) : AuthM AuthSession :=
  ExceptT.mk (Prog.ask (AuthCall.getActiveAuthSessionByTokenHash tokenHash))

def getAuthSessionByRefreshHashForRotation (refreshHash : String) (grace : Time) :
    AuthM AuthSession :=
  ExceptT.mk (Prog.ask (AuthCall.getAuthSessionByRefreshHashForRotation refreshHash grace))

def rotateAuthRefreshToken (oldRefreshHash : String) (new : NewTokens) (grace : Time) :
    AuthM RefreshTokenRotation := do
  let tokenID ← newID
  ExceptT.mk (Prog.ask (AuthCall.rotateAuthRefreshToken oldRefreshHash new grace tokenID))

def revokeAuthSessionsByIdentityID (identityID : String) : AuthM Unit :=
  ExceptT.mk (Prog.ask (AuthCall.revokeAuthSessionsByIdentityID identityID))

def revokeOtherAuthSessionsByIdentityID (identityID keepSessionID : String) : AuthM Unit :=
  ExceptT.mk (Prog.ask (AuthCall.revokeOtherAuthSessionsByIdentityID identityID keepSessionID))

def createAuthRecoveryCode (code : AuthRecoveryCode) : AuthM AuthRecoveryCode := do
  let id ← newID
  ExceptT.mk (Prog.ask (AuthCall.createAuthRecoveryCode code id))

def listAuthRecoveryCodes (identityID : String) : AuthProg ε (List AuthRecoveryCode) :=
  ExceptT.lift (Prog.ask (AuthCall.listAuthRecoveryCodes identityID))

def markAuthRecoveryCodeUsed (id : String) : AuthM AuthRecoveryCode :=
  ExceptT.mk (Prog.ask (AuthCall.markAuthRecoveryCodeUsed id))

def getAdminProfile (identityID : String) : AuthM AdminProfile :=
  ExceptT.mk (Prog.ask (AuthCall.getAdminProfile identityID))

def createAdminProfile (profile : AdminProfile) : AuthM AdminProfile := do
  let id ← newID
  ExceptT.mk (Prog.ask (AuthCall.createAdminProfile profile id))

def updateAdminProfile (profile : AdminProfile) : AuthM AdminProfile :=
  ExceptT.mk (Prog.ask (AuthCall.updateAdminProfile profile))

def listAdminIdentityProfiles : AuthProg ε (List AdminIdentityProfile) :=
  ExceptT.lift (Prog.ask AuthCall.listAdminIdentityProfiles)

def getAdminInviteByTokenHash (tokenHash : String) : AuthM AdminInvite :=
  ExceptT.mk (Prog.ask (AuthCall.getAdminInviteByTokenHash tokenHash))

def markAdminInviteUsed (inviteID identityID : String) : AuthM AdminInvite :=
  ExceptT.mk (Prog.ask (AuthCall.markAdminInviteUsed inviteID identityID))

def revokeAdminInvite (inviteID : String) : AuthM AdminInvite :=
  ExceptT.mk (Prog.ask (AuthCall.revokeAdminInvite inviteID))

/-- The program with any error answered as `e`. -/
def orElse {α : Type} (e : ε) (x : AuthM α) : AuthProg ε α := failAs (fun _ => e) x

def ignoring {α : Type} (x : AuthM α) : AuthProg ε Unit := do
  let _ ← attemptResult x
  return ()

end Methods

def Handler.serve {α : Type} (h : Handler α) : Prog AuthCall AuthCall.Reply (Except HTTPError α) :=
  do
    let r ← h.run
    let _ ← Prog.ask (AuthCall.respond (match r with | .ok _ => none | .error e => some e))
    return r

section Rules

open Prog

variable {F W α ε : Type} {S : Setting AuthCall AuthCall.Reply F W} {K : AuthCall → Prop}

theorem safe_ignoring {x : AuthM α} {I : W → Prop} {w : W}
    (hrely : ∀ w w', I w → S.rely w w' → I w') (h : Safe S x.run (fun _ => I) w) :
    Safe S (ignoring x : AuthProg ε Unit).run (onOk (fun _ => I) fun _ _ => False) w := by
  refine Safe.andThen (Safe.result (h.mono ?_))
  exact fun _ w' hw' => Safe.ok fun w'' hr => hrely w' w'' hw' hr

theorem only_ignoring {x : AuthM α} (h : Only K x.run) :
    Only K (ignoring x : AuthProg ε Unit).run :=
  Only.andThen (Only.result h) fun _ => Only.ok

theorem only_serve {h : Handler α} (hh : Only K h.run) (hr : ∀ r, K (.respond r)) :
    Only K h.serve :=
  Only.bind hh fun _ => Only.bind (Only.ask (hr _)) fun _ => Only.of_done _

end Rules

/-! ## Passwords -/

def passwordMinLength : ℕ := 6

def weakPasswords : List String :=
  ["admin", "password", "123456", "12345678", "qwerty", "letmein"]

def hasRequiredPasswordComposition (X : Crypto) (password : String) : Bool :=
  password.toList.any X.isLetter &&
    password.toList.any (fun c => !X.isLetter c && X.isDigit c) &&
    password.toList.any (fun c => !X.isLetter c && !X.isDigit c)

/-- `ValidateAdminPassword`; `validateUserPassword` of the clients makes the same checks. -/
def validateAdminPassword (X : Crypto) (login password : String) : Except String Unit :=
  let password := trimSpace password
  if password.utf8ByteSize < passwordMinLength then
    .error ("password must be at least " ++ toString passwordMinLength ++ " characters")
  else if weakPasswords.contains (X.lower password) ||
      X.equalFold (trimSpace login) password then
    .error "password is too weak"
  else if !hasRequiredPasswordComposition X password then
    .error "password must include at least one letter, one digit, and one symbol"
  else .ok ()

def isLocked {ε : Type} (credential : AuthCredential) : AuthProg ε Bool :=
  match credential.lockedUntil with
  | none => pure false
  | some u => do
    let t ← now
    return decide (t < u)

/-- Whether the access token of the session has expired by now. -/
def isExpired {ε : Type} (session : AuthSession) : AuthProg ε Bool :=
  match session.expiresAt with
  | none => pure false
  | some u => do
    let t ← now
    return decide (u < t)

/-- The credential after one more wrong password, locked from the `attempts`-th one on. -/
def recordFailure (attempts : ℕ) (duration : Time) (credential : AuthCredential) :
    AuthM AuthCredential :=
  if attempts ≤ credential.failedAttempts + 1 then do
    let t ← now
    updateAuthCredential { credential with
      failedAttempts := credential.failedAttempts + 1
      lockedUntil := some (t + duration) }
  else updateAuthCredential { credential with failedAttempts := credential.failedAttempts + 1 }

def AuthCredential.withPassword (credential : AuthCredential) (hash : String) : AuthCredential :=
  { credential with
    secretHash := hash
    failedAttempts := 0
    lockedUntil := none
    status := .active }

/-! ## The authenticator -/

def errInvalidCredentials : String := "invalid credentials"

def lockoutAttempts : ℕ := 10

def lockoutDuration : Time := 15 * minute

def accessTTL : Time := 10 * minute

def refreshTTL : Time := 40 * minute

def refreshAbsoluteTTL : Time := 6 * 60 * minute

def csrfTTL : Time := accessTTL

def refreshReuseGrace : Time := 10 * second

structure Authenticator where
  crypto : Crypto
  sessionTTL : Time

structure Principal where
  name : String
  role : AdminRole
  identityID : String
  sessionID : String
  deriving DecidableEq

structure LoginResult where
  principal : Principal
  session : AuthSession
  sessionToken : String
  refreshToken : String
  csrfToken : SignedText
  deriving DecidableEq

inductive LoginOutcome where
  | session (result : LoginResult)
  | passwordChangeRequired (changeToken sessionID : String)
  deriving DecidableEq

namespace Authenticator

variable (a : Authenticator)

def newCSRFToken (sessionID : String) (at' : Time) : SignedText :=
  let token : SignedText := ⟨sessionID, unix (at' + csrfTTL), ""⟩
  { token with signature := a.crypto.csrfSignature token.payload }

/-- `ValidateCSRF` at an instant. -/
def validateCSRF (session : AuthSession) (token : Option SignedText) (at' : Time) : Bool :=
  match token with
  | none => false
  | some token => token.subject == session.id && !decide (token.expires < unix at') &&
      token.signature == a.crypto.csrfSignature token.payload

def principalOf (identity : AuthIdentity) (profile : AdminProfile) (sessionID : String) :
    Principal :=
  ⟨identity.login, profile.role, identity.id, sessionID⟩

/-- `AuthenticateSessionRequest` for the value of the session cookie. -/
def authenticateSession (cookie : String) : AuthM (Principal × AuthSession) :=
  if trimSpace cookie = "" then throw errInvalidCredentials
  else do
    let session ← orElse errInvalidCredentials
      (getActiveAuthSessionByTokenHash (a.crypto.hash cookie))
    let expired ← isExpired session
    if expired then do
      ignoring (revokeAuthSessionsByIdentityID session.identityID)
      throw errInvalidCredentials
    else do
      let identity ← orElse errInvalidCredentials (getAuthIdentity session.identityID)
      if identity.status ≠ .active ∨ identity.mustChangePassword then throw errInvalidCredentials
      else do
        let profile ← orElse errInvalidCredentials (getAdminProfile identity.id)
        if profile.status ≠ .active then throw errInvalidCredentials
        else return (principalOf identity profile session.id, session)

def issueNormalSession (identity : AuthIdentity) : AuthM LoginResult := do
  let profile ← orElse errInvalidCredentials (getAdminProfile identity.id)
  if profile.status ≠ .active then throw errInvalidCredentials
  else do
    let t ← now
    let sessionToken ← newToken
    let refreshToken ← newToken
    let session ← createAuthSession {
      id := ""
      identityID := identity.id
      accountID := identity.accountID
      tokenHash := a.crypto.hash sessionToken
      refreshTokenHash := a.crypto.hash refreshToken
      refreshExpiresAt := some (t + refreshTTL)
      refreshAbsoluteUntil := some (t + refreshAbsoluteTTL)
      status := .active
      expiresAt := some (t + a.sessionTTL) }
    let t ← now
    return ⟨principalOf identity profile session.id, session, sessionToken, refreshToken,
      a.newCSRFToken session.id t⟩

/-- The end of a login with the right password. -/
def completeLogin (identity : AuthIdentity) : AuthM LoginOutcome :=
  if identity.mustChangePassword then do
    let changeToken ← newToken
    let t ← now
    let limited ← createAuthSession {
      id := ""
      identityID := identity.id
      accountID := ""
      tokenHash := a.crypto.hash changeToken
      refreshTokenHash := ""
      refreshExpiresAt := none
      refreshAbsoluteUntil := none
      status := .held
      expiresAt := some (t + 15 * minute) }
    return .passwordChangeRequired changeToken limited.id
  else do
    let result ← a.issueNormalSession identity
    return .session result

def recordFailedLogin (credential : AuthCredential) : AuthM AuthCredential :=
  recordFailure lockoutAttempts lockoutDuration credential

/-- The credential after the right password; it is written only if there is something to clear. -/
def clearFailures (credential : AuthCredential) : AuthM AuthCredential :=
  if credential.failedAttempts ≠ 0 ∨ credential.lockedUntil.isSome then
    updateAuthCredential { credential with failedAttempts := 0, lockedUntil := none }
  else pure credential

/-- `LoginWithPassword` from the point on at which the credential has been read. -/
def checkPassword (identity : AuthIdentity) (credential : AuthCredential) (password : String) :
    AuthM LoginOutcome := do
  let locked ← isLocked credential
  if locked then throw errInvalidCredentials
  else if a.crypto.compareHashAndPassword credential.secretHash password then do
    ignoring (clearFailures credential)
    a.completeLogin identity
  else do
    ignoring (recordFailedLogin credential)
    throw errInvalidCredentials

def loginWithPassword (login password : String) : AuthM LoginOutcome := do
  let identity ← orElse errInvalidCredentials (findActiveAdminIdentityByLogin (trimSpace login))
  if identity.status ≠ .active then throw errInvalidCredentials
  else do
    let credential ← orElse errInvalidCredentials (getAuthCredential identity.id .password)
    if credential.status ≠ .active then throw errInvalidCredentials
    else a.checkPassword identity credential password

def changePassword (changeToken newPassword : String) : AuthM LoginResult := do
  let session ← orElse errInvalidCredentials
    (getAuthSessionByTokenHash (a.crypto.hash changeToken))
  let t ← now
  if session.status ≠ .held ∨ (session.expiresAt.isSome ∧ after t session.expiresAt) then
    throw errInvalidCredentials
  else do
    let identity ← orElse errInvalidCredentials (getAuthIdentity session.identityID)
    if identity.status ≠ .active ∨ identity.mustChangePassword = false then
      throw errInvalidCredentials
    else do
      ofExcept (validateAdminPassword a.crypto identity.login newPassword)
      let hash ← generateFromPassword newPassword
      let credential ← getAuthCredential identity.id .password
      let _ ← updateAuthCredential (credential.withPassword hash)
      let identity := { identity with mustChangePassword := false }
      let _ ← updateAuthIdentity identity
      ignoring (revokeAuthSessionsByIdentityID identity.id)
      a.issueNormalSession identity

def refresh (rawRefreshToken : String) (csrfToken : Option SignedText) : AuthM LoginResult := do
  let t ← now
  let refreshHash := a.crypto.hash rawRefreshToken
  let sessionToken ← newToken
  let refreshToken ← newToken
  let session ← orElse errInvalidCredentials
    (getAuthSessionByRefreshHashForRotation refreshHash refreshReuseGrace)
  if session.refreshTokenHash = "" ∨ after t session.refreshExpiresAt ∨
      after t session.refreshAbsoluteUntil then throw errInvalidCredentials
  else do
    let t' ← now
    if a.validateCSRF session csrfToken t' then do
      let identity ← orElse errInvalidCredentials (getAuthIdentity session.identityID)
      if identity.status ≠ .active ∨ identity.mustChangePassword then throw errInvalidCredentials
      else do
        let profile ← orElse errInvalidCredentials (getAdminProfile identity.id)
        if profile.status ≠ .active then throw errInvalidCredentials
        else do
          let rotation ← rotateAuthRefreshToken refreshHash
            ⟨a.crypto.hash sessionToken, some (t + a.sessionTTL), a.crypto.hash refreshToken,
              some (t + refreshTTL)⟩ refreshReuseGrace
          let t ← now
          return ⟨principalOf identity profile rotation.session.id, rotation.session, sessionToken,
            refreshToken, a.newCSRFToken rotation.session.id t⟩
    else throw errInvalidCredentials

end Authenticator

/-! ## The handlers for administrators -/

/-- `httpx.Error(w, http.StatusUnauthorized, …)` and the like. -/
def unauthorized (message : String) : HTTPError := ⟨401, message⟩

def badRequest (message : String) : HTTPError := ⟨400, message⟩

def conflict (message : String) : HTTPError := ⟨409, message⟩

def internalError (message : String) : HTTPError := ⟨500, message⟩

def missing (message : String) : HTTPError := ⟨404, message⟩

def adminIdentityProfile (id : String) : Handler (AuthIdentity × AdminProfile) := do
  let identity ← orElse (missing "admin not found") (getAuthIdentity id)
  if identity.kind ≠ .admin then throw (missing "admin not found")
  else do
    let profile ← orElse (missing "admin profile not found") (getAdminProfile identity.id)
    return (identity, profile)

def isActiveOwner (role : AdminRole) (identityStatus profileStatus : Status) : Bool :=
  role == .owner && identityStatus == .active && profileStatus == .active

def activeOwners (targetID : String) (targetRole : AdminRole)
    (identityStatus profileStatus : Status) (items : List AdminIdentityProfile) : ℕ :=
  items.countP fun item =>
    if item.identity.id = targetID then isActiveOwner targetRole identityStatus profileStatus
    else isActiveOwner item.profile.role item.identity.status item.profile.status

def preventLastActiveOwner (targetID : String) (targetRole : AdminRole)
    (identityStatus profileStatus : Status) : Handler Unit :=
  if isActiveOwner targetRole identityStatus profileStatus then pure ()
  else do
    let items ← listAdminIdentityProfiles
    if activeOwners targetID targetRole identityStatus profileStatus items = 0 then
      throw (badRequest "cannot remove the last active owner")
    else pure ()

/-- `model.AdminRole` of a text that `validAdminRole` accepts. -/
def adminRole (text : String) : Option AdminRole :=
  if text = "owner" then some .owner
  else if text = "admin" then some .admin
  else if text = "viewer" then some .viewer
  else none

def adminStatus (text : String) : Option Status :=
  if text = "active" then some .active
  else if text = "deleted" then some .deleted
  else none

structure UpdateAdminInput where
  role : Option String
  status : Option String
  displayName : Option String
  deriving DecidableEq

/-- The rows with the changes of the request. -/
def UpdateAdminInput.apply (input : UpdateAdminInput) (identity : AuthIdentity)
    (profile : AdminProfile) : Except HTTPError (AuthIdentity × AdminProfile) := do
  let profile ← match input.role with
    | none => pure profile
    | some text =>
      match adminRole (trimSpace text) with
      | none => .error (badRequest "invalid role")
      | some role => pure { profile with role := role }
  let (identity, profile) ← match input.status with
    | none => pure (identity, profile)
    | some text =>
      match adminStatus (trimSpace text) with
      | none => .error (badRequest "invalid status")
      | some status => pure ({ identity with status := status }, { profile with status := status })
  return match input.displayName with
    | none => (identity, profile)
    | some text => ({ identity with displayName := trimSpace text }, profile)

def updateAdmin (id : String) (input : UpdateAdminInput) :
    Handler (AuthIdentity × AdminProfile) := do
  let (identity, profile) ← adminIdentityProfile id
  let (identity, profile) ← ofExcept (input.apply identity profile)
  preventLastActiveOwner identity.id profile.role identity.status profile.status
  let updatedIdentity ← orElse (internalError "failed to update admin identity")
    (updateAuthIdentity identity)
  let updatedProfile ← orElse (internalError "failed to update admin profile")
    (updateAdminProfile profile)
  ignoring (revokeAuthSessionsByIdentityID identity.id)
  return (updatedIdentity, updatedProfile)

def updateAdminPasswordCredential (credential : AuthCredential) (password : String) :
    Handler Unit := do
  let hash ← orElse (internalError "failed to hash password")
    (generateFromPassword (trimSpace password))
  let _ ← orElse (internalError "failed to update credential")
    (updateAuthCredential (credential.withPassword hash))
  return ()

/-- `changeOwnAdminPassword` of the caller, whose session is `sessionID` if there is one. -/
def changeOwnAdminPassword (X : Crypto) (identity : AuthIdentity) (sessionID : String)
    (currentPassword newPassword : String) : Handler Unit := do
  let credential ← orElse (missing "credential not found") (getAuthCredential identity.id .password)
  if X.compareHashAndPassword credential.secretHash currentPassword then do
    ofExcept ((validateAdminPassword X identity.login newPassword).mapError badRequest)
    updateAdminPasswordCredential credential newPassword
    let _ ← orElse (internalError "failed to update admin identity")
      (updateAuthIdentity { identity with mustChangePassword := false })
    if sessionID = "" then ignoring (revokeAuthSessionsByIdentityID identity.id)
    else ignoring (revokeOtherAuthSessionsByIdentityID identity.id sessionID)
  else throw (unauthorized "current password is invalid")

def ownerResetAdminPassword (X : Crypto) (identity : AuthIdentity) (password : String) :
    Handler Unit := do
  ofExcept ((validateAdminPassword X identity.login password).mapError badRequest)
  let credential ← orElse (missing "credential not found") (getAuthCredential identity.id .password)
  updateAdminPasswordCredential credential password
  let _ ← orElse (internalError "failed to update admin identity")
    (updateAuthIdentity { identity with mustChangePassword := true })
  ignoring (revokeAuthSessionsByIdentityID identity.id)

structure ResetPasswordInput where
  password : String
  newPassword : String
  currentPassword : String
  deriving DecidableEq

/-- `resetAdminPassword`: an administrator changes the own password, an owner resets one of
another. -/
def resetAdminPassword (X : Crypto) (principal : Principal) (id : String)
    (input : ResetPasswordInput) : Handler Unit := do
  let (identity, _) ← adminIdentityProfile id
  if identity.id = principal.identityID then
    changeOwnAdminPassword X identity principal.sessionID input.currentPassword input.newPassword
  else if principal.role ≠ .owner then throw ⟨403, "owner role required"⟩
  else ownerResetAdminPassword X identity input.password

structure EnrollInput where
  inviteToken : String
  inviteCode : String
  login : String
  displayName : String
  password : String
  deriving DecidableEq

def normalizeInviteCode (X : Crypto) (value : String) : String := X.upper (trimSpace value)

/-- The rows of a new administrator. They are committed one by one, before the invite is marked. -/
def createAdministrator (login displayName hash : String) (invite : AdminInvite) :
    Handler AuthIdentity := do
  let identity ← orElse (conflict "admin login already exists") (createAuthIdentity
    ⟨"", .admin, login, displayName, "", .active, false⟩)
  let _ ← orElse (internalError "failed to create credential") (createAuthCredential
    ⟨"", identity.id, .password, hash, 0, none, .active⟩)
  let _ ← orElse (internalError "failed to create admin profile") (createAdminProfile
    ⟨"", identity.id, invite.role, .active⟩)
  return identity

def enrollAdmin (a : Authenticator) (input : EnrollInput) : Handler LoginResult := do
  let invite ← orElse (unauthorized "invite is invalid or expired")
    (getAdminInviteByTokenHash (a.crypto.hash (trimSpace input.inviteToken)))
  let t ← now
  if invite.status ≠ .active ∨ invite.expiresAt ≤ t then
    throw (unauthorized "invite is invalid or expired")
  else if a.crypto.compareHashAndPassword invite.codeHash
      (normalizeInviteCode a.crypto input.inviteCode) then
    let login := trimSpace input.login
    if login = "" then throw (badRequest "login is required")
    else do
      let found ← attemptResult (findActiveAdminIdentityByLogin login)
      match found with
      | .ok _ => throw (conflict "admin login already exists")
      | .error _ => do
        ofExcept ((validateAdminPassword a.crypto login input.password).mapError badRequest)
        let displayName :=
          if trimSpace input.displayName = "" then login else trimSpace input.displayName
        let hash ← orElse (internalError "failed to hash password")
          (generateFromPassword (trimSpace input.password))
        let identity ← createAdministrator login displayName hash invite
        let _ ← orElse (internalError "failed to mark invite used")
          (markAdminInviteUsed invite.id identity.id)
        orElse (internalError "failed to issue session") (a.issueNormalSession identity)
  else throw (unauthorized "invite code is invalid")

def revokeInvite (inviteID : String) : Handler AdminInvite :=
  orElse (missing "invite not found or not active") (revokeAdminInvite inviteID)

end LazGate
