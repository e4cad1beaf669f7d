import LazGate.Server.Auth.Admin

/-!
# Client authentication

The handlers of `internal/server/transport/http/client/{session,strong_auth}.go` as programs of
store calls. They are modelled from the point on at which the portal token and the lite cookie of
the request have been checked.
-/

namespace LazGate

def strongCookiePurpose : String := "strong-user-cookie-v1"

def strongRefreshPurpose : String := "strong-user-refresh-v1"

def strongCSRFPurpose : String := "strong-user-csrf-v1"

def strongSessionTTL : Time := 10 * minute

def strongRefreshTTL : Time := 40 * minute

def strongRefreshAbsoluteTTL : Time := 6 * 60 * minute

def strongLockAttempts : ℕ := 10

def strongLockDuration : Time := 15 * minute

def validateUserPassword (X : Crypto) (login password : String) : Except String Unit :=
  validateAdminPassword X login password

structure RawTokens where
  session : String
  refresh : String
  deriving DecidableEq

def createStrongSession (X : Crypto) (identity : AuthIdentity) (accountID : String) :
    AuthM (RawTokens × AuthSession) := do
  let raw ← newToken
  let refresh ← newToken
  let t ← now
  let session ← createAuthSession {
    id := ""
    identityID := identity.id
    accountID := accountID
    tokenHash := X.hash raw
    refreshTokenHash := X.hash refresh
    refreshExpiresAt := some (t + strongRefreshTTL)
    refreshAbsoluteUntil := some (t + strongRefreshAbsoluteTTL)
    status := .active
    expiresAt := some (t + strongSessionTTL) }
  return (⟨raw, refresh⟩, session)

def findOrCreateUserIdentity (account : Account) : AuthM AuthIdentity := do
  let found ← attemptResult (findActiveUserIdentityByAccountID account.id)
  match found with
  | .ok identity => return identity
  | .error e =>
    if e = errNotFound then
      createAuthIdentity ⟨"", .user, account.username, "", account.id, .active, false⟩
    else throw e

def setStrongPassword (identity : AuthIdentity) (hash : String) : AuthM AuthCredential := do
  let found ← attemptResult (getAuthCredential identity.id .password)
  match found with
  | .ok credential => updateAuthCredential (credential.withPassword hash)
  | .error e =>
    if e = errNotFound then
      createAuthCredential ⟨"", identity.id, .password, hash, 0, none, .active⟩
    else throw e

def setupStrongUser (X : Crypto) (account : Account) (password : String) :
    AuthM (RawTokens × AuthSession) := do
  ofExcept (validateUserPassword X account.username password)
  let identity ← findOrCreateUserIdentity account
  let hash ← generateFromPassword password
  let _ ← setStrongPassword identity hash
  createStrongSession X identity account.id

/-- `loginStrongUser` from the point on at which the credential has been read. -/
def checkStrongPassword (X : Crypto) (account : Account) (identity : AuthIdentity)
    (credential : AuthCredential) (password : String) : AuthM (RawTokens × AuthSession) := do
  let locked ← isLocked credential
  if locked then throw "temporarily locked"
  else if X.compareHashAndPassword credential.secretHash password then do
    ignoring (updateAuthCredential { credential with failedAttempts := 0, lockedUntil := none })
    createStrongSession X identity account.id
  else do
    ignoring (recordFailure strongLockAttempts strongLockDuration credential)
    throw "invalid credentials"

/-- `loginStrongUser`. For a credential that is not active it returns no error and no session. -/
def loginStrongUser (X : Crypto) (account : Account) (password : String) :
    AuthM (Option (RawTokens × AuthSession)) := do
  let identity ← findActiveUserIdentityByAccountID account.id
  let credential ← getAuthCredential identity.id .password
  if credential.status ≠ .active then return none
  else do
    let granted ← checkStrongPassword X account identity credential password
    return some granted

/-! ## The handlers -/

/-- `httpx.StoreError`, for the errors that the authentication store can give. -/
def storeError (e : String) : HTTPError :=
  if e = errNotFound then missing "not found" else internalError "internal error"

/-- `writeClientSessionError`, likewise. -/
def clientSessionError (e : String) : HTTPError :=
  if e = errNotFound then missing "not found" else badRequest "request failed"

/-- `login`. -/
def clientLogin (X : Crypto) (accountID password : String) :
    Handler (Option (RawTokens × AuthSession)) := do
  let account ← failAs storeError (getAccount accountID)
  failAs clientSessionError (loginStrongUser X account password)

def hasStrongPasswordCredential {ε : Type} (accountID : String) : AuthProg ε Bool := do
  let found ← attemptResult (findActiveUserIdentityByAccountID accountID)
  match found with
  | .error _ => return false
  | .ok identity => do
    let credential ← attemptResult (getAuthCredential identity.id .password)
    match credential with
    | .error _ => return false
    | .ok credential =>
      return credential.status == .active && trimSpace credential.secretHash != ""

def setupPassword (X : Crypto) (accountID password : String) : Handler String := do
  let account ← failAs storeError (getAccount accountID)
  let taken ← hasStrongPasswordCredential account.id
  if taken then throw (conflict "password is already set; use login or recovery")
  else do
    let (_, session) ← failAs clientSessionError (setupStrongUser X account password)
    let recoveryCode ← orElse (internalError "internal error") newRecoveryCode
    let _ ← failAs storeError
      (createAuthRecoveryCode ⟨"", session.identityID, X.hash recoveryCode, .active⟩)
    return recoveryCode

def recoveryCodeHash (X : Crypto) (code : String) : String := X.hash (X.upper (trimSpace code))

/-- A recovery code that the request may use. -/
def matchesCode (X : Crypto) (recoveryCode : String) (code : AuthRecoveryCode) : Bool :=
  code.status == .active && code.codeHash == recoveryCodeHash X recoveryCode

/-- What `recover` does once a code has matched. Errors of marking the code and of revoking the
sessions are ignored. -/
def recoverWith (X : Crypto) (account : Account) (identity : AuthIdentity)
    (code : AuthRecoveryCode) (newPassword : String) : Handler String := do
  ignoring (markAuthRecoveryCodeUsed code.id)
  ignoring (revokeAuthSessionsByIdentityID identity.id)
  let (_, session) ← failAs clientSessionError (setupStrongUser X account newPassword)
  let recoveryCode ← orElse (internalError "internal error") newRecoveryCode
  let _ ← failAs storeError
    (createAuthRecoveryCode ⟨"", session.identityID, X.hash recoveryCode, .active⟩)
  return recoveryCode

def recover (X : Crypto) (accountID recoveryCode newPassword : String) : Handler String := do
  let account ← failAs storeError (getAccount accountID)
  let identity ← failAs storeError (findActiveUserIdentityByAccountID account.id)
  let codes ← listAuthRecoveryCodes identity.id
  match codes.find? (matchesCode X recoveryCode) with
  | none => throw (unauthorized "invalid credentials")
  | some code => recoverWith X account identity code newPassword

/-! ## Cookies -/

def signedValue (X : Crypto) (purpose subject : String) (expiresAt : ℤ) : SignedText :=
  let value : SignedText := ⟨subject, expiresAt, ""⟩
  { value with signature := X.sign purpose value.payload }

/-- `validateSignedCookie` at an instant. -/
def validateSignedCookie (X : Crypto) (purpose : String) (value : SignedText) (at' : Time) :
    Bool :=
  !decide (value.expires < unix at') && value.signature == X.sign purpose value.payload

def newStrongCSRF (X : Crypto) (cookieValue : String) (at' : Time) : SignedText :=
  signedValue X strongCSRFPurpose (X.hash cookieValue) (unix (at' + strongSessionTTL))

/-- `validateStrongCSRF` at an instant. -/
def validateStrongCSRF (X : Crypto) (cookieValue : String) (csrf : Option SignedText)
    (at' : Time) : Bool :=
  match csrf with
  | none => false
  | some csrf => csrf.subject == X.hash cookieValue &&
      validateSignedCookie X strongCSRFPurpose csrf at'

/-- The cookies and the CSRF token that a response sets. A refresh cookie is set only for a raw
token that is not empty. -/
structure StrongCookies where
  access : SignedText
  refresh : Option SignedText
  csrf : SignedText
  deriving DecidableEq

def issueStrongCookie {ε : Type} (X : Crypto) (tokens : RawTokens) : AuthProg ε StrongCookies := do
  let t ← now
  let access := signedValue X strongCookiePurpose (X.hash tokens.session)
    (unix (t + strongSessionTTL))
  let t' ← now
  let refresh := if tokens.refresh = "" then none
    else some (signedValue X strongRefreshPurpose (X.hash tokens.refresh)
      (unix (t' + strongRefreshTTL)))
  let t'' ← now
  return ⟨access, refresh, newStrongCSRF X access.text t''⟩

structure StrongAuthContext where
  identity : AuthIdentity
  session : AuthSession
  account : Account
  deriving DecidableEq

/-- `strongContextFromSessionIgnoringAccessExpiry`. -/
def strongContextIgnoringAccessExpiry (session : AuthSession) : AuthM StrongAuthContext :=
  if session.status ≠ .active then throw errInvalidCredentials
  else do
    let identity ← orElse errInvalidCredentials (getAuthIdentity session.identityID)
    if identity.kind ≠ .user ∨ identity.status ≠ .active then throw errInvalidCredentials
    else do
      let account ← orElse errInvalidCredentials (getAccount identity.accountID)
      if account.status ≠ .active then throw errInvalidCredentials
      else return ⟨identity, session, account⟩

/-- `strongContextFromSession`, for a session that the lookup found active. -/
def strongContextFromSession (session : AuthSession) : AuthM StrongAuthContext := do
  let expired ← isExpired session
  if session.status ≠ .active ∨ expired then do
    if session.identityID = "" then throw errInvalidCredentials
    else do
      ignoring (revokeAuthSessionsByIdentityID session.identityID)
      throw errInvalidCredentials
  else strongContextIgnoringAccessExpiry session

/-- `authenticateStrong` for the access cookie and, where the route requires it, the CSRF token. -/
def authenticateStrong (X : Crypto) (cookie : SignedText) (csrf : Option (Option SignedText)) :
    AuthM StrongAuthContext := do
  let session ← orElse errInvalidCredentials (getActiveAuthSessionByTokenHash cookie.subject)
  let t ← now
  if validateSignedCookie X strongCookiePurpose cookie t &&
      (match csrf with | none => true | some csrf => validateStrongCSRF X cookie.text csrf t) then
    strongContextFromSession session
  else throw errInvalidCredentials

/-- What a request for new tokens carries. -/
structure RefreshRequest where
  refreshCookie : Option SignedText
  accessCookie : Option String
  csrf : Option SignedText
  deriving DecidableEq

/-- The grace window of the client handler. -/
def strongReuseGrace : Time := 10 * second

/-- The end of `refresh`, after a rotation that succeeded. -/
def finishStrong (X : Crypto) (rotation : RefreshTokenRotation) (rawSession rawRefresh : String)
    (t : Time) : Handler (StrongCookies × AuthSession) :=
  let session := rotation.session
  if session.refreshTokenHash = "" ∨ after t session.refreshExpiresAt ∨
      after t session.refreshAbsoluteUntil then throw (unauthorized "unauthorized")
  else do
    let _ ← orElse (unauthorized "unauthorized") (strongContextIgnoringAccessExpiry session)
    let rawRefresh := if rotation.graceRefreshToken.isSome then "" else rawRefresh
    let cookies ← issueStrongCookie X ⟨rawSession, rawRefresh⟩
    return (cookies, session)

/-- `refresh` once the cookies have been checked; `t` is the instant of the request. -/
def refreshStrong (X : Crypto) (refreshHash : String) (t : Time) :
    Handler (StrongCookies × AuthSession) := do
  let session ← orElse (unauthorized "unauthorized")
    (getAuthSessionByRefreshHashForRotation refreshHash strongReuseGrace)
  if session.refreshTokenHash = "" ∨ after t session.refreshExpiresAt ∨
      after t session.refreshAbsoluteUntil then throw (unauthorized "unauthorized")
  else do
    let rawSession ← orElse (internalError "internal error") newToken
    let rawRefresh ← orElse (internalError "internal error") newToken
    let rotation ← orElse (unauthorized "unauthorized") (rotateAuthRefreshToken refreshHash
      ⟨X.hash rawSession, some (t + strongSessionTTL), X.hash rawRefresh,
        some (t + strongRefreshTTL)⟩ strongReuseGrace)
    finishStrong X rotation rawSession rawRefresh t

/-- `refresh`. -/
def clientRefresh (X : Crypto) (r : RefreshRequest) : Handler (StrongCookies × AuthSession) := do
  match r.refreshCookie with
  | none => throw (unauthorized "refresh token required")
  | some cookie => do
    let t₀ ← now
    if validateSignedCookie X strongRefreshPurpose cookie t₀ ∧ cookie.subject ≠ "" then do
      let t ← now
      match r.accessCookie with
      | none => throw ⟨403, "strong session and csrf required"⟩
      | some access => do
        let t' ← now
        if validateStrongCSRF X access r.csrf t' then refreshStrong X cookie.subject t
        else throw ⟨403, "strong session and csrf required"⟩
    else throw (unauthorized "refresh token required")

end LazGate
