import LazGate.Server.Auth.Sessions

/-!
# The authentication store

The rows of the authentication database with the store methods of
`internal/server/storage/sqlite.go`, and the calls that the handlers make: these methods, the
clock, and what is drawn at random.

Each method is one atomic call. `AuthCall.perform` adds how a call turns out: how much time has
passed since the call before it, and whether it fails.
-/

namespace LazGate

/-! ## The rows -/

inductive AuthIdentityKind where
  | admin
  | user
  deriving DecidableEq

structure AuthIdentity where
  id : String
  kind : AuthIdentityKind
  login : String
  displayName : String
  accountID : String
  status : Status
  mustChangePassword : Bool
  deriving DecidableEq

/-- The row that is inserted for it. -/
def AuthIdentity.withDefaults (identity : AuthIdentity) (newID : String) : AuthIdentity :=
  { identity with
    id := if identity.id = "" then newID else identity.id
    status := if identity.status = .unset then .active else identity.status }

inductive AuthCredentialType where
  | password
  deriving DecidableEq

structure AuthCredential where
  id : String
  identityID : String
  type : AuthCredentialType
  secretHash : String
  failedAttempts : ℕ
  lockedUntil : Option Time
  status : Status
  deriving DecidableEq

/-- The row that is inserted for it. -/
def AuthCredential.withDefaults (credential : AuthCredential) (newID : String) : AuthCredential :=
  { credential with
    id := if credential.id = "" then newID else credential.id
    status := if credential.status = .unset then .active else credential.status }

structure AuthRecoveryCode where
  id : String
  identityID : String
  codeHash : String
  status : Status
  deriving DecidableEq

/-- The row that is inserted for it. -/
def AuthRecoveryCode.withDefaults (code : AuthRecoveryCode) (newID : String) : AuthRecoveryCode :=
  { code with
    id := if code.id = "" then newID else code.id
    status := if code.status = .unset then .active else code.status }

inductive AdminRole where
  | owner
  | admin
  | viewer
  deriving DecidableEq

structure AdminProfile where
  id : String
  identityID : String
  role : AdminRole
  status : Status
  deriving DecidableEq

/-- The row that is inserted for it. -/
def AdminProfile.withDefaults (profile : AdminProfile) (newID : String) : AdminProfile :=
  { profile with
    id := if profile.id = "" then newID else profile.id
    status := if profile.status = .unset then .active else profile.status }

/-- A row of the list of admins. -/
structure AdminIdentityProfile where
  identity : AuthIdentity
  profile : AdminProfile
  deriving DecidableEq

inductive AdminInviteStatus where
  | active
  | used
  | revoked
  deriving DecidableEq

structure AdminInvite where
  id : String
  tokenHash : String
  codeHash : String
  role : AdminRole
  status : AdminInviteStatus
  expiresAt : Time
  usedByIdentityID : String
  deriving DecidableEq

/-- The tables; accounts are kept in the main database. -/
structure AuthDB extends SessionTables where
  accounts : List Account
  identities : List AuthIdentity
  credentials : List AuthCredential
  recoveryCodes : List AuthRecoveryCode
  profiles : List AdminProfile
  invites : List AdminInvite
  deriving DecidableEq

namespace AuthDB

def empty : AuthDB where
  toSessionTables := .empty
  accounts := []
  identities := []
  credentials := []
  recoveryCodes := []
  profiles := []
  invites := []

/-! ## The store methods -/

def getAccount (id : String) (db : AuthDB) : Except String Account :=
  orNotFound (db.accounts.find? fun a => a.id == id)

def getAuthIdentity (id : String) (db : AuthDB) : Except String AuthIdentity :=
  orNotFound (db.identities.find? fun i => i.id == id)

def findActiveAdminIdentityByLogin (login : String) (db : AuthDB) : Except String AuthIdentity :=
  orNotFound (db.identities.find? fun i =>
    i.kind == .admin && i.login == login && i.status == .active)

def findActiveUserIdentityByAccountID (accountID : String) (db : AuthDB) :
    Except String AuthIdentity :=
  orNotFound (db.identities.find? fun i =>
    i.kind == .user && i.accountID == accountID && i.status == .active)

/-- Another active admin with this login, which the unique index on admin logins refuses. -/
def loginTaken (id login : String) (db : AuthDB) : Bool :=
  db.identities.any fun i =>
    i.id != id && i.kind == .admin && i.status == .active && i.login == login

def createAuthIdentity (identity : AuthIdentity) (newID : String) (db : AuthDB) :
    Except String AuthIdentity × AuthDB :=
  let row := identity.withDefaults newID
  if (db.identities.any fun i => i.id == row.id) ||
      (row.kind == .admin && row.status == .active && db.loginTaken row.id row.login) then
    (.error errUnique, db)
  else (.ok row, { db with identities := db.identities ++ [row] })

/-- The columns that `UpdateAuthIdentity` sets. -/
def setIdentity (identity row : AuthIdentity) : AuthIdentity :=
  { row with
    login := identity.login
    displayName := identity.displayName
    accountID := identity.accountID
    status := identity.status
    mustChangePassword := identity.mustChangePassword }

def updateAuthIdentity (identity : AuthIdentity) (db : AuthDB) :
    Except String AuthIdentity × AuthDB :=
  if (db.identities.any fun i => i.id == identity.id && i.kind == .admin) &&
      identity.status == .active && db.loginTaken identity.id identity.login then
    (.error errUnique, db)
  else
    let db' := { db with
      identities := Table.update (fun i => i.id == identity.id) (setIdentity identity)
        db.identities }
    (db'.getAuthIdentity identity.id, db')

def getAuthCredential (identityID : String) (type : AuthCredentialType) (db : AuthDB) :
    Except String AuthCredential :=
  orNotFound (db.credentials.find? fun c =>
    c.identityID == identityID && c.type == type && c.status != .deleted)

/-- The unique index on the credentials that are not deleted, and the primary key. -/
def createAuthCredential (credential : AuthCredential) (newID : String) (db : AuthDB) :
    Except String AuthCredential × AuthDB :=
  let row := credential.withDefaults newID
  if db.credentials.any fun c => c.id == row.id || (row.status != .deleted &&
      c.identityID == row.identityID && c.type == row.type && c.status != .deleted) then
    (.error errUnique, db)
  else (.ok row, { db with credentials := db.credentials ++ [row] })

/-- The columns that `UpdateAuthCredential` sets. -/
def setCredential (credential row : AuthCredential) : AuthCredential :=
  { row with
    secretHash := credential.secretHash
    failedAttempts := credential.failedAttempts
    lockedUntil := credential.lockedUntil
    status := credential.status }

def updateAuthCredential (credential : AuthCredential) (db : AuthDB) :
    Except String AuthCredential × AuthDB :=
  let db' := { db with
    credentials := Table.update (fun c => c.id == credential.id) (setCredential credential)
      db.credentials }
  (db'.getAuthCredential credential.identityID credential.type, db')

def createAuthRecoveryCode (code : AuthRecoveryCode) (newID : String) (db : AuthDB) :
    Except String AuthRecoveryCode × AuthDB :=
  let row := code.withDefaults newID
  if db.recoveryCodes.any fun c => c.id == row.id then (.error errUnique, db)
  else (.ok row, { db with recoveryCodes := db.recoveryCodes ++ [row] })

def listAuthRecoveryCodes (identityID : String) (db : AuthDB) : List AuthRecoveryCode :=
  db.recoveryCodes.filter fun c => c.identityID == identityID

def markAuthRecoveryCodeUsed (id : String) (db : AuthDB) :
    Except String AuthRecoveryCode × AuthDB :=
  let db' := { db with
    recoveryCodes := Table.update (fun c => c.id == id) (fun c => { c with status := .deleted })
      db.recoveryCodes }
  (orNotFound (db'.recoveryCodes.find? fun c => c.id == id), db')

def getAdminProfile (identityID : String) (db : AuthDB) : Except String AdminProfile :=
  orNotFound (db.profiles.find? fun p => p.identityID == identityID)

def createAdminProfile (profile : AdminProfile) (newID : String) (db : AuthDB) :
    Except String AdminProfile × AuthDB :=
  let row := profile.withDefaults newID
  if db.profiles.any fun p => p.id == row.id || p.identityID == row.identityID then
    (.error errUnique, db)
  else (.ok row, { db with profiles := db.profiles ++ [row] })

def updateAdminProfile (profile : AdminProfile) (db : AuthDB) :
    Except String AdminProfile × AuthDB :=
  let db' := { db with
    profiles := Table.update (fun p => p.id == profile.id)
      (fun p => { p with role := profile.role, status := profile.status }) db.profiles }
  (db'.getAdminProfile profile.identityID, db')

def listAdminIdentityProfiles (db : AuthDB) : List AdminIdentityProfile :=
  (db.identities.filter fun i => i.kind == .admin).flatMap fun i =>
    (db.profiles.filter fun p => p.identityID == i.id).map fun p => ⟨i, p⟩

def getAdminInvite (id : String) (db : AuthDB) : Except String AdminInvite :=
  orNotFound (db.invites.find? fun v => v.id == id)

def getAdminInviteByTokenHash (tokenHash : String) (db : AuthDB) : Except String AdminInvite :=
  orNotFound (db.invites.find? fun v => v.tokenHash == tokenHash)

def closeInvite (inviteID : String) (f : AdminInvite → AdminInvite) (db : AuthDB) :
    Except String AdminInvite × AuthDB :=
  if db.invites.any fun v => v.id == inviteID && v.status == .active then
    let db' := { db with
      invites := Table.update (fun v => v.id == inviteID && v.status == .active) f db.invites }
    (db'.getAdminInvite inviteID, db')
  else (.error errNotFound, db)

def markAdminInviteUsed (inviteID identityID : String) :
    AuthDB → Except String AdminInvite × AuthDB :=
  closeInvite inviteID fun v => { v with status := .used, usedByIdentityID := identityID }

def revokeAdminInvite (inviteID : String) : AuthDB → Except String AdminInvite × AuthDB :=
  closeInvite inviteID fun v => { v with status := .revoked }

end AuthDB

/-! ## The calls -/

/-- What a refused request is answered with. -/
structure HTTPError where
  status : ℕ
  message : String
  deriving DecidableEq

inductive AuthCall where
  | now
  | newID
  /-- `commontokens.New`. -/
  | newToken
  /-- `newStrongRecoveryCode`. -/
  | newRecoveryCode
  /-- `bcrypt.GenerateFromPassword`. -/
  | generateFromPassword (password : String)
  | getAccount (id : String)
  | getAuthIdentity (id : String)
  | findActiveAdminIdentityByLogin (login : String)
  | findActiveUserIdentityByAccountID (accountID : String)
  | createAuthIdentity (identity : AuthIdentity) (newID : String)
  | updateAuthIdentity (identity : AuthIdentity)
  | getAuthCredential (identityID : String) (type : AuthCredentialType)
  | createAuthCredential (credential : AuthCredential) (newID : String)
  | updateAuthCredential (credential : AuthCredential)
  | createAuthSession (session : AuthSession) (sessionID tokenID familyID : String)
  | getAuthSessionByTokenHash (tokenHash : String)
  | getActiveAuthSessionByTokenHash (tokenHash : String)
  | getAuthSessionByRefreshHashForRotation (refreshHash : String) (grace : Time)
  | rotateAuthRefreshToken (oldRefreshHash : String) (new : NewTokens) (grace : Time)
      (tokenID : String)
  | revokeAuthSessionsByIdentityID (identityID : String)
  | revokeOtherAuthSessionsByIdentityID (identityID keepSessionID : String)
  | createAuthRecoveryCode (code : AuthRecoveryCode) (newID : String)
  | listAuthRecoveryCodes (identityID : String)
  | markAuthRecoveryCodeUsed (id : String)
  | getAdminProfile (identityID : String)
  | createAdminProfile (profile : AdminProfile) (newID : String)
  | updateAdminProfile (profile : AdminProfile)
  | listAdminIdentityProfiles
  | getAdminInviteByTokenHash (tokenHash : String)
  | markAdminInviteUsed (inviteID identityID : String)
  | revokeAdminInvite (inviteID : String)
  /-- The response is written. -/
  | respond (refused : Option HTTPError)

namespace AuthCall

/-- The answer to a call. -/
@[reducible] def Reply : AuthCall → Type
  | .now => Time
  | .newID => String
  | .newToken | .newRecoveryCode | .generateFromPassword _ => Except String String
  | .getAccount _ => Except String Account
  | .getAuthIdentity _ | .findActiveAdminIdentityByLogin _ | .findActiveUserIdentityByAccountID _
  | .createAuthIdentity .. | .updateAuthIdentity _ => Except String AuthIdentity
  | .getAuthCredential .. | .createAuthCredential .. | .updateAuthCredential _ =>
    Except String AuthCredential
  | .createAuthSession .. | .getAuthSessionByTokenHash _ | .getActiveAuthSessionByTokenHash _
  | .getAuthSessionByRefreshHashForRotation .. => Except String AuthSession
  | .rotateAuthRefreshToken .. => Except String RefreshTokenRotation
  | .revokeAuthSessionsByIdentityID _ | .revokeOtherAuthSessionsByIdentityID .. =>
    Except String Unit
  | .createAuthRecoveryCode .. | .markAuthRecoveryCodeUsed _ => Except String AuthRecoveryCode
  | .listAuthRecoveryCodes _ => List AuthRecoveryCode
  | .getAdminProfile _ | .createAdminProfile .. | .updateAdminProfile _ =>
    Except String AdminProfile
  | .listAdminIdentityProfiles => List AdminIdentityProfile
  | .getAdminInviteByTokenHash _ | .markAdminInviteUsed .. | .revokeAdminInvite _ =>
    Except String AdminInvite
  | .respond _ => Unit

/-- What a call does at the instant `now`; `text` is what is drawn at random. -/
def effect (now : Time) (text : String) : (c : AuthCall) → AuthDB → c.Reply × AuthDB
  | .now, db => (now, db)
  | .newID, db => (text, db)
  | .newToken, db => (.ok text, db)
  | .newRecoveryCode, db => (.ok text, db)
  | .generateFromPassword _, db => (.ok text, db)
  | .getAccount id, db => (db.getAccount id, db)
  | .getAuthIdentity id, db => (db.getAuthIdentity id, db)
  | .findActiveAdminIdentityByLogin login, db => (db.findActiveAdminIdentityByLogin login, db)
  | .findActiveUserIdentityByAccountID id, db => (db.findActiveUserIdentityByAccountID id, db)
  | .createAuthIdentity identity id, db => db.createAuthIdentity identity id
  | .updateAuthIdentity identity, db => db.updateAuthIdentity identity
  | .getAuthCredential id type, db => (db.getAuthCredential id type, db)
  | .createAuthCredential credential id, db => db.createAuthCredential credential id
  | .updateAuthCredential credential, db => db.updateAuthCredential credential
  | .createAuthSession session sessionID tokenID familyID, db =>
    match db.toSessionTables.createAuthSession session sessionID tokenID familyID with
    | .error e => (.error e, db)
    | .ok (s, t) => (.ok s, { db with toSessionTables := t })
  | .getAuthSessionByTokenHash h, db =>
    (orNotFound (db.toSessionTables.getAuthSessionByTokenHash h), db)
  | .getActiveAuthSessionByTokenHash h, db =>
    (orNotFound (db.toSessionTables.getActiveAuthSessionByTokenHash h), db)
  | .getAuthSessionByRefreshHashForRotation h grace, db =>
    (orNotFound (db.toSessionTables.getAuthSessionByRefreshHashForRotation now h grace), db)
  | .rotateAuthRefreshToken old new grace tokenID, db =>
    let x := db.toSessionTables.rotateAuthRefreshToken now old new grace tokenID
    (x.1, { db with toSessionTables := x.2 })
  | .revokeAuthSessionsByIdentityID id, db =>
    (.ok (), { db with toSessionTables := db.toSessionTables.revokeAuthSessionsByIdentityID id })
  | .revokeOtherAuthSessionsByIdentityID id keep, db =>
    (.ok (), { db with
      toSessionTables := db.toSessionTables.revokeOtherAuthSessionsByIdentityID id keep })
  | .createAuthRecoveryCode code id, db => db.createAuthRecoveryCode code id
  | .listAuthRecoveryCodes id, db => (db.listAuthRecoveryCodes id, db)
  | .markAuthRecoveryCodeUsed id, db => db.markAuthRecoveryCodeUsed id
  | .getAdminProfile id, db => (db.getAdminProfile id, db)
  | .createAdminProfile profile id, db => db.createAdminProfile profile id
  | .updateAdminProfile profile, db => db.updateAdminProfile profile
  | .listAdminIdentityProfiles, db => (db.listAdminIdentityProfiles, db)
  | .getAdminInviteByTokenHash h, db => (db.getAdminInviteByTokenHash h, db)
  | .markAdminInviteUsed id identityID, db => db.markAdminInviteUsed id identityID
  | .revokeAdminInvite id, db => db.revokeAdminInvite id
  | .respond _, db => ((), db)

def errDriver : String := "driver: bad connection"

/-- The answer of a call that fails, if it can fail. A failed list query is an empty list. -/
def failed : (c : AuthCall) → Option c.Reply
  | .now | .newID | .respond _ => none
  | .listAuthRecoveryCodes _ => some []
  | .listAdminIdentityProfiles => some []
  | .newToken | .newRecoveryCode | .generateFromPassword _ => some (.error errDriver)
  | .getAccount _ => some (.error errDriver)
  | .getAuthIdentity _ | .findActiveAdminIdentityByLogin _ | .findActiveUserIdentityByAccountID _
  | .createAuthIdentity .. | .updateAuthIdentity _ => some (.error errDriver)
  | .getAuthCredential .. | .createAuthCredential .. | .updateAuthCredential _ =>
    some (.error errDriver)
  | .createAuthSession .. | .getAuthSessionByTokenHash _ | .getActiveAuthSessionByTokenHash _
  | .getAuthSessionByRefreshHashForRotation .. => some (.error errDriver)
  | .rotateAuthRefreshToken .. => some (.error errDriver)
  | .revokeAuthSessionsByIdentityID _ | .revokeOtherAuthSessionsByIdentityID .. =>
    some (.error errDriver)
  | .createAuthRecoveryCode .. | .markAuthRecoveryCodeUsed _ => some (.error errDriver)
  | .getAdminProfile _ | .createAdminProfile .. | .updateAdminProfile _ => some (.error errDriver)
  | .getAdminInviteByTokenHash _ | .markAdminInviteUsed .. | .revokeAdminInvite _ =>
    some (.error errDriver)

/-- A method that reads the row back after it was written, and may fail in between. -/
def readsBack : AuthCall → Bool
  | .updateAuthIdentity _ | .updateAuthCredential _ | .markAuthRecoveryCodeUsed _
  | .updateAdminProfile _ | .markAdminInviteUsed .. | .revokeAdminInvite _ => true
  | _ => false

end AuthCall

/-- How a call turns out. -/
structure AuthOutcome where
  elapsed : ℕ
  fault : Fault
  text : String
  deriving DecidableEq

structure AuthWorld where
  db : AuthDB
  clock : Time
  deriving DecidableEq

namespace AuthCall

/-- The call changes the database as its effect says. -/
def takesPlace (c : AuthCall) (f : AuthOutcome) : Bool :=
  match f.fault with
  | .none => true
  | .early => c.failed.isNone
  | .late => c.failed.isNone || c.readsBack

def perform (c : AuthCall) (f : AuthOutcome) (w : AuthWorld) : c.Reply × AuthWorld :=
  let now := w.clock + f.elapsed
  let x := c.effect now f.text w.db
  (if f.fault = .none then x.1 else c.failed.getD x.1,
    ⟨if c.takesPlace f then x.2 else w.db, now⟩)

end AuthCall

/-! ## What a call leaves alone -/

inductive AuthTable where
  | sessions
  | identities
  | credentials
  | recoveryCodes
  | profiles
  | invites
  deriving DecidableEq

variable (c : AuthCall) (f : AuthOutcome) (w : AuthWorld)

namespace AuthCall

def writes : AuthCall → Option AuthTable
  | .createAuthIdentity .. | .updateAuthIdentity _ => some .identities
  | .createAuthCredential .. | .updateAuthCredential _ => some .credentials
  | .createAuthSession .. | .rotateAuthRefreshToken .. | .revokeAuthSessionsByIdentityID _
  | .revokeOtherAuthSessionsByIdentityID .. => some .sessions
  | .createAuthRecoveryCode .. | .markAuthRecoveryCodeUsed _ => some .recoveryCodes
  | .createAdminProfile .. | .updateAdminProfile _ => some .profiles
  | .markAdminInviteUsed .. | .revokeAdminInvite _ => some .invites
  | _ => none

structure Frame (written : Option AuthTable) (db db' : AuthDB) : Prop where
  identities : written ≠ some .identities → db'.identities = db.identities
  credentials : written ≠ some .credentials → db'.credentials = db.credentials
  recoveryCodes : written ≠ some .recoveryCodes → db'.recoveryCodes = db.recoveryCodes
  profiles : written ≠ some .profiles → db'.profiles = db.profiles
  invites : written ≠ some .invites → db'.invites = db.invites

theorem Frame.refl (written : Option AuthTable) (db : AuthDB) : Frame written db db :=
  ⟨fun _ => rfl, fun _ => rfl, fun _ => rfl, fun _ => rfl, fun _ => rfl⟩

theorem frame_closeInvite (id : String) (f : AdminInvite → AdminInvite) (db : AuthDB) :
    Frame (some .invites) db (db.closeInvite id f).2 := by
  rw [AuthDB.closeInvite]
  split
  · exact ⟨fun _ => rfl, fun _ => rfl, fun _ => rfl, fun _ => rfl, fun h => absurd rfl h⟩
  · exact .refl _ _

theorem frame_effect (now : Time) (text : String) (db : AuthDB) :
    Frame c.writes db (c.effect now text db).2 := by
  cases c
  case createAuthIdentity identity id =>
    simp only [effect, AuthDB.createAuthIdentity]
    split
    · exact .refl _ _
    · exact ⟨fun h => absurd rfl h, fun _ => rfl, fun _ => rfl, fun _ => rfl, fun _ => rfl⟩
  case updateAuthIdentity identity =>
    simp only [effect, AuthDB.updateAuthIdentity]
    split
    · exact .refl _ _
    · exact ⟨fun h => absurd rfl h, fun _ => rfl, fun _ => rfl, fun _ => rfl, fun _ => rfl⟩
  case createAuthCredential credential id =>
    simp only [effect, AuthDB.createAuthCredential]
    split
    · exact .refl _ _
    · exact ⟨fun _ => rfl, fun h => absurd rfl h, fun _ => rfl, fun _ => rfl, fun _ => rfl⟩
  case updateAuthCredential credential =>
    exact ⟨fun _ => rfl, fun h => absurd rfl h, fun _ => rfl, fun _ => rfl, fun _ => rfl⟩
  case createAuthSession session sessionID tokenID familyID =>
    simp only [effect]
    split
    · exact .refl _ _
    · exact ⟨fun _ => rfl, fun _ => rfl, fun _ => rfl, fun _ => rfl, fun _ => rfl⟩
  case createAuthRecoveryCode code id =>
    simp only [effect, AuthDB.createAuthRecoveryCode]
    split
    · exact .refl _ _
    · exact ⟨fun _ => rfl, fun _ => rfl, fun h => absurd rfl h, fun _ => rfl, fun _ => rfl⟩
  case markAuthRecoveryCodeUsed id =>
    exact ⟨fun _ => rfl, fun _ => rfl, fun h => absurd rfl h, fun _ => rfl, fun _ => rfl⟩
  case createAdminProfile profile id =>
    simp only [effect, AuthDB.createAdminProfile]
    split
    · exact .refl _ _
    · exact ⟨fun _ => rfl, fun _ => rfl, fun _ => rfl, fun h => absurd rfl h, fun _ => rfl⟩
  case updateAdminProfile profile =>
    exact ⟨fun _ => rfl, fun _ => rfl, fun _ => rfl, fun h => absurd rfl h, fun _ => rfl⟩
  case markAdminInviteUsed id identityID => exact frame_closeInvite _ _ _
  case revokeAdminInvite id => exact frame_closeInvite _ _ _
  all_goals exact ⟨fun _ => rfl, fun _ => rfl, fun _ => rfl, fun _ => rfl, fun _ => rfl⟩

theorem frame_perform :
    Frame c.writes w.db (c.perform f w).2.db := by
  change Frame c.writes w.db
    (if c.takesPlace f then (c.effect (w.clock + f.elapsed) f.text w.db).2 else w.db)
  split
  · exact c.frame_effect _ _ _
  · exact .refl _ _

theorem perform_now :
    (AuthCall.now.perform f w).1 = (AuthCall.now.perform f w).2.clock :=
  ite_self _

theorem clock_le_perform :
    w.clock ≤ (c.perform f w).2.clock :=
  Int.le_add_of_nonneg_right (Int.natCast_nonneg _)

end AuthCall

/-- The programs of the handlers. -/
abbrev AuthM (α : Type) : Type := Attempt AuthCall AuthCall.Reply α

end LazGate
