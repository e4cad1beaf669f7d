import LazGate.Lib.Runs
import LazGate.Lib.Table
import LazGate.Server.Model

/-!
# Sessions and refresh tokens

The tables `auth_sessions` and `auth_refresh_tokens` with the transactions of
`internal/server/storage/sqlite.go` that write them, and the state machine they make up.
-/

namespace LazGate

/-! ## Instants -/

/-- An instant in nanoseconds since the Unix epoch. Where Go has a zero `time.Time` and the
table a null, there is no instant. -/
abbrev Time : Type := ℤ

def second : Time := 1000000000

def minute : Time := 60 * second

/-- `t.After(u)`; the zero time is before every other. -/
def after (t : Time) : Option Time → Bool
  | none => true
  | some u => u < t

/-- What follows the seconds in the stored text of an instant: the fraction without its trailing
zeros, which is left out when it is zero. -/
def fractionText (t : Time) : List Char :=
  let digits := Nat.toDigits 10 (t % second).toNat
  let fraction := (List.replicate (9 - digits.length) '0' ++ digits).rdropWhile (· == '0')
  if fraction = [] then ['Z'] else '.' :: fraction ++ ['Z']

/-- `a <= b` as the database compares the stored texts of two instants. Up to the seconds the text
has a fixed width, so that its order is the one of time. -/
def stampLE (a b : Time) : Bool :=
  a / second < b / second || (a / second == b / second && !(fractionText b < fractionText a))

/-- Within a second the order of the texts is not the one of time. -/
example : stampLE 120000000 100000000 = true := by decide

/-! ## The rows -/

structure AuthSession where
  id : String
  identityID : String
  accountID : String
  tokenHash : String
  refreshTokenHash : String
  refreshExpiresAt : Option Time
  refreshAbsoluteUntil : Option Time
  status : Status
  expiresAt : Option Time
  deriving DecidableEq

inductive AuthRefreshTokenStatus where
  | active
  | rotated
  | revoked
  | reused
  deriving DecidableEq

structure AuthRefreshToken where
  id : String
  tokenHash : String
  sessionID : String
  identityID : String
  familyID : String
  status : AuthRefreshTokenStatus
  expiresAt : Option Time
  absoluteExpiresAt : Option Time
  rotatedAt : Option Time
  deriving DecidableEq

/-- `graceRefreshToken` is there when `Grace` is set. -/
structure RefreshTokenRotation where
  session : AuthSession
  refreshToken : AuthRefreshToken
  graceRefreshToken : Option AuthRefreshToken
  deriving DecidableEq

/-- The tokens that a rotation puts in the place of the old ones. -/
structure NewTokens where
  tokenHash : String
  expiresAt : Option Time
  refreshHash : String
  refreshExpiresAt : Option Time
  deriving DecidableEq

def AuthSession.renew (s : AuthSession) (new : NewTokens) : AuthSession :=
  { s with
    tokenHash := new.tokenHash
    expiresAt := new.expiresAt
    refreshTokenHash := new.refreshHash
    refreshExpiresAt := new.refreshExpiresAt }

structure SessionTables where
  sessions : List AuthSession
  refreshTokens : List AuthRefreshToken
  deriving DecidableEq

variable {rotation : RefreshTokenRotation} {id tokenID : String} {new : NewTokens}
  {oldToken r : AuthRefreshToken} {s session : AuthSession} {t t' : SessionTables}
  {f : AuthSession → AuthSession} {p : AuthSession → Bool}

namespace SessionTables

def empty : SessionTables := ⟨[], []⟩

/-! ## The transactions -/

/-- `insert into auth_sessions`, with its unique columns. -/
def insertSession (s : AuthSession) (t : SessionTables) : Except String SessionTables :=
  if t.sessions.any fun r => r.id == s.id || r.tokenHash == s.tokenHash then .error errUnique
  else .ok { t with sessions := t.sessions ++ [s] }

/-- `insert into auth_refresh_tokens`, with its unique columns. -/
def insertRefreshToken (r : AuthRefreshToken) (t : SessionTables) : Except String SessionTables :=
  if t.refreshTokens.any fun r' => r'.id == r.id || r'.tokenHash == r.tokenHash then
    .error errUnique
  else .ok { t with refreshTokens := t.refreshTokens ++ [r] }

def firstToken (s : AuthSession) (tokenID familyID : String) : AuthRefreshToken where
  id := tokenID
  tokenHash := s.refreshTokenHash
  sessionID := s.id
  identityID := s.identityID
  familyID := familyID
  status := .active
  expiresAt := s.refreshExpiresAt
  absoluteExpiresAt := s.refreshAbsoluteUntil
  rotatedAt := none

/-- The session with the defaults of `CreateAuthSession`. -/
def newSession (session : AuthSession) (sessionID : String) : AuthSession :=
  { session with
    id := if session.id = "" then sessionID else session.id
    status := if session.status = .unset then .active else session.status }

/-- The transaction of `CreateAuthSession`, with the ids it draws. -/
def createAuthSession (session : AuthSession) (sessionID tokenID familyID : String)
    (t : SessionTables) : Except String (AuthSession × SessionTables) := do
  let s := newSession session sessionID
  let t ← t.insertSession s
  if s.refreshTokenHash = "" then return (s, t)
  let t ← t.insertRefreshToken (firstToken s tokenID familyID)
  return (s, t)

/-- `update auth_sessions set token_hash = …, refresh_token_hash = …`. -/
def setTokens (id : String) (new : NewTokens) (t : SessionTables) : Except String SessionTables :=
  if t.sessions.any fun r => r.id != id && r.tokenHash == new.tokenHash then .error errUnique
  else .ok { t with
    sessions := Table.update (fun s => s.id == id) (fun s => s.renew new) t.sessions }

def supersede (session : AuthSession) (oldToken : AuthRefreshToken) (now : Time)
    (t : SessionTables) : SessionTables :=
  { t with
    refreshTokens := Table.update
      (fun r => r.sessionID == session.id && r.status == .active && r.id != oldToken.id)
      (fun r => { r with status := .revoked })
      (Table.update (fun r => r.id == oldToken.id)
        (fun r => { r with status := .rotated, rotatedAt := some now }) t.refreshTokens) }

/-- The token that takes the place of a rotated one, of the same family and deadline. -/
def nextToken (session : AuthSession) (oldToken : AuthRefreshToken) (new : NewTokens)
    (tokenID : String) : AuthRefreshToken where
  id := tokenID
  tokenHash := new.refreshHash
  sessionID := session.id
  identityID := session.identityID
  familyID := oldToken.familyID
  status := .active
  expiresAt := new.refreshExpiresAt
  absoluteExpiresAt := oldToken.absoluteExpiresAt
  rotatedAt := none

/-- The branch of `RotateAuthRefreshToken` for an active token. -/
def rotateActive (session : AuthSession) (oldToken : AuthRefreshToken) (now : Time)
    (new : NewTokens) (tokenID : String) (t : SessionTables) :
    Except String (RefreshTokenRotation × SessionTables) := do
  let t ← (t.supersede session oldToken now).setTokens session.id new
  let newToken := nextToken session oldToken new tokenID
  let t ← t.insertRefreshToken newToken
  return (⟨session.renew new, newToken, none⟩, t)

/-- The answer for a token that was rotated within the grace window: the session with its current
token. -/
def graceToken (session : AuthSession) (oldToken : AuthRefreshToken) (t : SessionTables) :
    Except String RefreshTokenRotation :=
  match t.refreshTokens.reverse.find? fun r => r.sessionID == session.id && r.status == .active with
  | none => .error errNotFound
  | some current => .ok ⟨{ session with
      refreshTokenHash := current.tokenHash
      refreshExpiresAt := current.expiresAt }, oldToken, some current⟩

def reuse (session : AuthSession) (oldToken : AuthRefreshToken) (t : SessionTables) :
    SessionTables where
  sessions := Table.update (fun r => r.id == session.id)
    (fun r => { r with status := .deleted }) t.sessions
  refreshTokens := Table.update (fun r => r.familyID == oldToken.familyID)
    (fun r => { r with status := if r.id = oldToken.id then .reused else .revoked })
    t.refreshTokens

def inGrace (now grace : Time) (r : AuthRefreshToken) : Bool :=
  r.status == .rotated && match r.rotatedAt with
    | none => false
    | some rotated => !decide (rotated + grace < now)

/-- The transaction of `RotateAuthRefreshToken` at the instant `now`, with the id it draws. A
failed statement rolls everything back; the reaction to reuse is committed. -/
def rotateAuthRefreshToken (now : Time) (oldRefreshHash : String) (new : NewTokens)
    (grace : Time) (tokenID : String) (t : SessionTables) :
    Except String RefreshTokenRotation × SessionTables :=
  match t.refreshTokens.find? fun r => r.tokenHash == oldRefreshHash with
  | none => (.error errNotFound, t)
  | some oldToken =>
    match t.sessions.find? fun s => s.id == oldToken.sessionID with
    | none => (.error errNotFound, t)
    | some session =>
      if session.status ≠ .active then (.error errNotFound, t)
      else if oldToken.status = .active then
        match t.rotateActive session oldToken now new tokenID with
        | .error e => (.error e, t)
        | .ok (rotation, t') => (.ok rotation, t')
      else if inGrace now grace oldToken then (t.graceToken session oldToken, t)
      else (.error errNotFound, t.reuse session oldToken)

/-- The rows that `RevokeAuthSessionsByIdentityID` and `RevokeOtherAuthSessionsByIdentityID`
write: the sessions of the identity and their tokens, except for the session `keep`. -/
def revoke (identityID : String) (keep : Option String) (t : SessionTables) : SessionTables where
  sessions := Table.update
    (fun s => s.identityID == identityID && some s.id != keep && s.status != .deleted)
    (fun s => { s with status := .deleted }) t.sessions
  refreshTokens := Table.update
    (fun r => r.identityID == identityID && some r.sessionID != keep &&
      (r.status == .active || r.status == .rotated))
    (fun r => { r with status := .revoked }) t.refreshTokens

def revokeAuthSessionsByIdentityID (identityID : String) (t : SessionTables) : SessionTables :=
  t.revoke identityID none

def revokeOtherAuthSessionsByIdentityID (identityID keepSessionID : String) (t : SessionTables) :
    SessionTables :=
  t.revoke identityID (some keepSessionID)

/-! ## The lookups -/

def getAuthSessionByTokenHash (tokenHash : String) (t : SessionTables) : Option AuthSession :=
  t.sessions.find? fun s => s.tokenHash == tokenHash

def getActiveAuthSessionByTokenHash (tokenHash : String) (t : SessionTables) :
    Option AuthSession :=
  t.sessions.find? fun s => s.tokenHash == tokenHash && s.status == .active

/-- The condition on the token in the query of `GetAuthSessionByRefreshHashForRotation`. The
instant of the rotation is compared by its stored text. -/
def rotatable (now grace : Time) (r : AuthRefreshToken) : Bool :=
  r.status == .active || (r.status == .rotated && match r.rotatedAt with
    | none => false
    | some rotated => stampLE (now - grace) rotated)

def getAuthSessionByRefreshHashForRotation (now : Time) (refreshHash : String) (grace : Time)
    (t : SessionTables) : Option AuthSession :=
  t.sessions.find? fun s => s.status == .active && t.refreshTokens.any fun r =>
    r.sessionID == s.id && r.tokenHash == refreshHash && rotatable now grace r

/-! ## Consistency -/

/-- What every transaction keeps. -/
structure Consistent (t : SessionTables) : Prop where
  ids : Table.Keyed AuthSession.id t.sessions
  hashes : Table.Keyed AuthSession.tokenHash t.sessions
  refreshIDs : Table.Keyed AuthRefreshToken.id t.refreshTokens
  refreshHashes : Table.Keyed AuthRefreshToken.tokenHash t.refreshTokens
  owned : ∀ r ∈ t.refreshTokens, ∃ s ∈ t.sessions, s.id = r.sessionID ∧
    s.identityID = r.identityID ∧ s.refreshAbsoluteUntil = r.absoluteExpiresAt
  family : ∀ r ∈ t.refreshTokens, ∀ r' ∈ t.refreshTokens, r.sessionID = r'.sessionID →
    r.familyID = r'.familyID
  named : ∀ s ∈ t.sessions, ∀ r ∈ t.refreshTokens, r.sessionID = s.id → r.status = .active →
    s.refreshTokenHash = r.tokenHash ∧ s.refreshExpiresAt = r.expiresAt

theorem consistent_empty : empty.Consistent where
  ids := List.nodup_nil
  hashes := List.nodup_nil
  refreshIDs := List.nodup_nil
  refreshHashes := List.nodup_nil
  owned _ hr := absurd hr List.not_mem_nil
  family _ hr := absurd hr List.not_mem_nil
  named _ hs := absurd hs List.not_mem_nil

theorem insertSession_ok (h : t.insertSession s = .ok t') :
    t' = { t with sessions := t.sessions ++ [s] } ∧
      ∀ r ∈ t.sessions, r.id ≠ s.id ∧ r.tokenHash ≠ s.tokenHash := by
  obtain ⟨hnew, h⟩ := Except.guard_eq_ok.1 h
  simp only [List.any_eq_true, Bool.or_eq_true, beq_iff_eq, not_exists, not_and, not_or] at hnew
  exact ⟨(Except.ok.inj h).symm, hnew⟩

theorem insertRefreshToken_ok (h : t.insertRefreshToken r = .ok t') :
    t' = { t with refreshTokens := t.refreshTokens ++ [r] } ∧
      ∀ r' ∈ t.refreshTokens, r'.id ≠ r.id ∧ r'.tokenHash ≠ r.tokenHash := by
  obtain ⟨hnew, h⟩ := Except.guard_eq_ok.1 h
  simp only [List.any_eq_true, Bool.or_eq_true, beq_iff_eq, not_exists, not_and, not_or] at hnew
  exact ⟨(Except.ok.inj h).symm, hnew⟩

theorem setTokens_ok (h : t.setTokens id new = .ok t') :
    t' = { t with
      sessions := Table.update (fun s => s.id == id) (fun s => s.renew new) t.sessions } ∧
      ∀ s ∈ t.sessions, s.id ≠ id → s.tokenHash ≠ new.tokenHash := by
  obtain ⟨hnew, h⟩ := Except.guard_eq_ok.1 h
  simp only [List.any_eq_true, Bool.and_eq_true, bne_iff_ne, beq_iff_eq, not_exists,
    not_and] at hnew
  exact ⟨(Except.ok.inj h).symm, hnew⟩

/-- The statement takes a token out of use and keeps the rest of the row. -/
def Retires (f : AuthRefreshToken → AuthRefreshToken) : Prop :=
  ∀ r, f r = { r with status := (f r).status, rotatedAt := (f r).rotatedAt } ∧
    (f r).status ≠ .active

def SetsStatus (f : AuthSession → AuthSession) : Prop :=
  ∀ s, f s = { s with status := (f s).status }

variable {now : Time}

namespace Consistent

variable {t t' : SessionTables}

section

variable (h : t.Consistent)

include h

theorem insertSession (hs : t.insertSession s = .ok t') :
    t'.Consistent ∧ s ∈ t'.sessions ∧ ∀ r ∈ t'.refreshTokens, r.sessionID ≠ s.id := by
  obtain ⟨rfl, hnew⟩ := insertSession_ok hs
  have hfree : ∀ r ∈ t.refreshTokens, r.sessionID ≠ s.id := by
    intro r hr heq
    obtain ⟨s', hs', hid, -⟩ := h.owned r hr
    exact (hnew s' hs').1 (hid.trans heq)
  refine ⟨{ h with ids := ?_, hashes := ?_, owned := ?_, named := ?_ }, ?_, hfree⟩
  · exact h.ids.insert fun s' hs' => (hnew s' hs').1
  · exact h.hashes.insert fun s' hs' => (hnew s' hs').2
  · intro r hr
    obtain ⟨s', hs', hrest⟩ := h.owned r hr
    exact ⟨s', List.mem_append_left _ hs', hrest⟩
  · intro s' hs' r hr hid hact
    rcases List.mem_append.1 hs' with hs' | hs'
    · exact h.named s' hs' r hr hid hact
    · rw [List.mem_singleton.1 hs'] at hid
      exact absurd hid (hfree r hr)
  · exact List.mem_append_right _ (List.mem_singleton_self s)

/-- A new token of a session that names it. -/
theorem insertRefreshToken (hs : s ∈ t.sessions) (hid : s.id = r.sessionID)
    (hident : s.identityID = r.identityID) (habs : s.refreshAbsoluteUntil = r.absoluteExpiresAt)
    (hfam : ∀ r' ∈ t.refreshTokens, r'.sessionID = r.sessionID → r'.familyID = r.familyID)
    (hname : s.refreshTokenHash = r.tokenHash ∧ s.refreshExpiresAt = r.expiresAt)
    (hr : t.insertRefreshToken r = .ok t') : t'.Consistent := by
  obtain ⟨rfl, hnew⟩ := insertRefreshToken_ok hr
  refine { h with refreshIDs := ?_, refreshHashes := ?_, owned := ?_, family := ?_, named := ?_ }
  · exact h.refreshIDs.insert fun r' hr' => (hnew r' hr').1
  · exact h.refreshHashes.insert fun r' hr' => (hnew r' hr').2
  · intro r' hr'
    rcases List.mem_append.1 hr' with hr' | hr'
    · exact h.owned r' hr'
    · rw [List.mem_singleton.1 hr']
      exact ⟨s, hs, hid, hident, habs⟩
  · intro r₁ h₁ r₂ h₂ heq
    rcases List.mem_append.1 h₁ with h₁ | h₁ <;> rcases List.mem_append.1 h₂ with h₂ | h₂
    · exact h.family r₁ h₁ r₂ h₂ heq
    · rw [List.mem_singleton.1 h₂] at heq ⊢
      exact hfam r₁ h₁ heq
    · rw [List.mem_singleton.1 h₁] at heq ⊢
      exact (hfam r₂ h₂ heq.symm).symm
    · rw [List.mem_singleton.1 h₁, List.mem_singleton.1 h₂]
  · intro s' hs' r' hr' hid' hact
    rcases List.mem_append.1 hr' with hr' | hr'
    · exact h.named s' hs' r' hr' hid' hact
    · rw [List.mem_singleton.1 hr'] at hid' ⊢
      rw [h.ids.eq_of_mem hs' hs (hid'.symm.trans hid.symm)]
      exact hname

theorem retire {p : AuthRefreshToken → Bool} {f : AuthRefreshToken → AuthRefreshToken}
    (hf : Retires f) :
    { t with refreshTokens := Table.update p f t.refreshTokens }.Consistent := by
  -- every row of the new table comes from one that agrees with it in all but the status
  have hrow : ∀ r ∈ Table.update p f t.refreshTokens, ∃ r₀ ∈ t.refreshTokens,
      r.tokenHash = r₀.tokenHash ∧ r.sessionID = r₀.sessionID ∧ r.identityID = r₀.identityID ∧
        r.familyID = r₀.familyID ∧ r.expiresAt = r₀.expiresAt ∧
        r.absoluteExpiresAt = r₀.absoluteExpiresAt ∧
        (r.status = .active → r₀.status = .active) := by
    intro r hr
    obtain ⟨r₀, hr₀, rfl⟩ := Table.mem_update.1 hr
    refine ⟨r₀, hr₀, ?_⟩
    split
    · have hact := (hf r₀).2
      rw [(hf r₀).1] at hact ⊢
      exact ⟨rfl, rfl, rfl, rfl, rfl, rfl, fun ha => absurd ha hact⟩
    · exact ⟨rfl, rfl, rfl, rfl, rfl, rfl, id⟩
  refine { h with refreshIDs := ?_, refreshHashes := ?_, owned := ?_, family := ?_, named := ?_ }
  · exact h.refreshIDs.update fun r => by rw [(hf r).1]
  · exact h.refreshHashes.update fun r => by rw [(hf r).1]
  · intro r hr
    obtain ⟨r₀, hr₀, -, hsess, hident, -, -, habs, -⟩ := hrow r hr
    rw [hsess, hident, habs]
    exact h.owned r₀ hr₀
  · intro r hr r' hr' heq
    obtain ⟨r₀, hr₀, -, hsess, -, hfam, -⟩ := hrow r hr
    obtain ⟨r₁, hr₁, -, hsess', -, hfam', -⟩ := hrow r' hr'
    rw [hfam, hfam']
    exact h.family r₀ hr₀ r₁ hr₁ (by rw [← hsess, ← hsess', heq])
  · intro s hs r hr hid hact
    obtain ⟨r₀, hr₀, hhash, hsess, -, -, hexp, -, hact₀⟩ := hrow r hr
    rw [hhash, hexp]
    exact h.named s hs r₀ hr₀ (hsess.symm.trans hid) (hact₀ hact)

theorem setStatus (hf : SetsStatus f) :
    { t with sessions := Table.update p f t.sessions }.Consistent := by
  refine { h with ids := ?_, hashes := ?_, owned := ?_, named := ?_ }
  · exact h.ids.update fun s => by rw [hf s]
  · exact h.hashes.update fun s => by rw [hf s]
  · intro r hr
    obtain ⟨s, hs, hrest⟩ := h.owned r hr
    refine ⟨_, Table.mem_update_of_mem hs, ?_⟩
    split
    · rw [hf s]
      exact hrest
    · exact hrest
  · intro s hs r hr hid hact
    obtain ⟨s₀, hs₀, rfl⟩ := Table.mem_update.1 hs
    split at hid <;> rename_i hp <;> simp only [hp, if_true, if_false, Bool.false_eq_true]
    · rw [hf s₀] at hid ⊢
      exact h.named s₀ hs₀ r hr hid hact
    · exact h.named s₀ hs₀ r hr hid hact

theorem setTokens (hact : ∀ r ∈ t.refreshTokens, r.sessionID = id → r.status ≠ .active)
    (ht : t.setTokens id new = .ok t') : t'.Consistent := by
  obtain ⟨rfl, hnew⟩ := setTokens_ok ht
  refine { h with ids := ?_, hashes := ?_, owned := ?_, named := ?_ }
  · exact h.ids.update fun s => rfl
  · exact h.ids.assign h.hashes (fun _ => rfl) hnew
  · intro r hr
    obtain ⟨s, hs, hrest⟩ := h.owned r hr
    refine ⟨_, Table.mem_update_of_mem hs, ?_⟩
    split <;> exact hrest
  · intro s hs r hr hid ha
    obtain ⟨s₀, hs₀, rfl⟩ := Table.mem_update.1 hs
    split at hid <;> rename_i hp <;> simp only [hp, if_true, if_false, Bool.false_eq_true]
    · exact absurd ha (hact r hr (hid.trans (eq_of_beq hp)))
    · exact h.named s₀ hs₀ r hr hid ha

theorem createAuthSession {sessionID tokenID familyID : String}
    (ht : t.createAuthSession session sessionID tokenID familyID = .ok (s, t')) :
    t'.Consistent := by
  obtain ⟨t₁, h₁, ht⟩ := Except.bind_eq_ok.1 ht
  obtain ⟨hc, hs, hfree⟩ := h.insertSession h₁
  split at ht
  · cases ht
    exact hc
  · obtain ⟨t₂, h₂, ht⟩ := Except.bind_eq_ok.1 ht
    cases ht
    exact hc.insertRefreshToken hs rfl rfl rfl (fun r hr he => absurd he (hfree r hr))
      ⟨rfl, rfl⟩ h₂

theorem supersede (session : AuthSession) (oldToken : AuthRefreshToken) (now : Time) :
    (t.supersede session oldToken now).Consistent ∧
      ∀ r ∈ (t.supersede session oldToken now).refreshTokens, r.sessionID = session.id →
        r.status ≠ .active := by
  constructor
  · have h₁ := h.retire (p := fun r => r.id == oldToken.id)
      (f := fun r => { r with status := .rotated, rotatedAt := some now })
      fun r => ⟨rfl, by simp⟩
    exact h₁.retire (f := fun r => { r with status := .revoked }) fun r => ⟨rfl, by simp⟩
  · intro r hr hid hact
    obtain ⟨r₁, hr₁, rfl⟩ := Table.mem_update.1 hr
    obtain ⟨r₀, -, rfl⟩ := Table.mem_update.1 hr₁
    by_cases ho : r₀.id = oldToken.id
    · simp [ho] at hact
    · by_cases hs : r₀.sessionID = session.id <;> by_cases ha : r₀.status = .active <;>
        simp_all

theorem rotateActive (hs : session ∈ t.sessions) (ho : oldToken ∈ t.refreshTokens)
    (hid : session.id = oldToken.sessionID)
    (ht : t.rotateActive session oldToken now new tokenID = .ok (rotation, t')) :
    t'.Consistent := by
  obtain ⟨t₁, h₁, ht⟩ := Except.bind_eq_ok.1 ht
  obtain ⟨t₂, h₂, ht⟩ := Except.bind_eq_ok.1 ht
  cases ht
  obtain ⟨hc, hnone⟩ := h.supersede session oldToken now
  have hc₁ := hc.setTokens hnone h₁
  obtain ⟨rfl, -⟩ := setTokens_ok h₁
  have habs : session.refreshAbsoluteUntil = oldToken.absoluteExpiresAt := by
    obtain ⟨s, hs', hid', -, habs⟩ := h.owned oldToken ho
    rwa [h.ids.eq_of_mem hs' hs (hid'.trans hid.symm)] at habs
  have hfam : ∀ r ∈ (t.supersede session oldToken now).refreshTokens, r.sessionID = session.id →
      r.familyID = oldToken.familyID := by
    intro r hr he
    obtain ⟨r₁, hr₁, rfl⟩ := Table.mem_update.1 hr
    obtain ⟨r₀, hr₀, rfl⟩ := Table.mem_update.1 hr₁
    have hrow := h.family r₀ hr₀ oldToken ho
    split_ifs at he ⊢ <;> exact hrow (he.trans hid)
  have hrow := Table.mem_update_of_mem (p := fun s => s.id == session.id)
    (f := fun s => s.renew new) hs
  rw [if_pos (beq_self_eq_true session.id)] at hrow
  exact hc₁.insertRefreshToken (r := nextToken session oldToken new tokenID) hrow rfl rfl habs hfam
    ⟨rfl, rfl⟩ h₂

theorem reuse (session : AuthSession) (oldToken : AuthRefreshToken) :
    (t.reuse session oldToken).Consistent := by
  have h₁ := h.setStatus (p := fun s => s.id == session.id)
    (f := fun s => { s with status := .deleted }) fun s => rfl
  refine h₁.retire (f := fun r => { r with
    status := if r.id = oldToken.id then .reused else .revoked }) fun r => ⟨rfl, ?_⟩
  change (if r.id = oldToken.id then AuthRefreshTokenStatus.reused else .revoked) ≠ .active
  split <;> simp

theorem revoke (identityID : String) (keep : Option String) :
    (t.revoke identityID keep).Consistent := by
  have h₁ := h.setStatus (f := fun s => { s with status := .deleted })
    (p := fun s => s.identityID == identityID && some s.id != keep && s.status != .deleted)
    fun s => rfl
  exact h₁.retire (f := fun r => { r with status := .revoked }) fun r => ⟨rfl, by simp⟩

end

end Consistent

theorem rotateActive_session
    (ht : t.rotateActive session oldToken now new tokenID = .ok (rotation, t')) :
    rotation.session = session.renew new := by
  obtain ⟨t₁, -, ht⟩ := Except.bind_eq_ok.1 ht
  obtain ⟨t₂, -, ht⟩ := Except.bind_eq_ok.1 ht
  cases ht
  rfl

theorem graceToken_session (ht : t.graceToken session oldToken = .ok rotation) :
    rotation.session.id = session.id := by
  rw [graceToken] at ht
  split at ht
  · cases ht
  · cases ht
    rfl

/-- What a rotation does, branch by branch. -/
theorem rotate_cases (t : SessionTables) (now : Time) (oldRefreshHash : String) (new : NewTokens)
    (grace : Time) (tokenID : String)
    {P : Except String RefreshTokenRotation × SessionTables → Prop} (hfail : ∀ e, P (.error e, t))
    (hactive : ∀ s ∈ t.sessions, ∀ r ∈ t.refreshTokens, s.id = r.sessionID →
      r.tokenHash = oldRefreshHash → s.status = .active → r.status = .active →
      ∀ rotation t', t.rotateActive s r now new tokenID = .ok (rotation, t') →
        P (.ok rotation, t'))
    (hgrace : ∀ s ∈ t.sessions, ∀ r ∈ t.refreshTokens, s.id = r.sessionID →
      r.tokenHash = oldRefreshHash → s.status = .active → inGrace now grace r = true →
      P (t.graceToken s r, t))
    (hreuse : ∀ s ∈ t.sessions, ∀ r ∈ t.refreshTokens, s.id = r.sessionID →
      r.tokenHash = oldRefreshHash → s.status = .active → r.status ≠ .active →
      inGrace now grace r = false → P (.error errNotFound, t.reuse s r)) :
    P (t.rotateAuthRefreshToken now oldRefreshHash new grace tokenID) := by
  rw [rotateAuthRefreshToken]
  split
  · exact hfail _
  rename_i r hr
  have hrm := List.mem_of_find?_eq_some hr
  have hrh : r.tokenHash = oldRefreshHash := by simpa using List.find?_some hr
  split
  · exact hfail _
  rename_i s hs
  have hsm := List.mem_of_find?_eq_some hs
  have hid : s.id = r.sessionID := by simpa using List.find?_some hs
  split
  · exact hfail _
  rename_i hstatus
  have hstatus := not_not.1 hstatus
  split
  · rename_i hact
    split
    · exact hfail _
    · rename_i rotation t' ht
      exact hactive s hsm r hrm hid hrh hstatus hact rotation t' ht
  · rename_i hact
    split
    · rename_i hg
      exact hgrace s hsm r hrm hid hrh hstatus hg
    · rename_i hg
      exact hreuse s hsm r hrm hid hrh hstatus hact (Bool.not_eq_true _ ▸ hg)

/-! ## Runs of transactions -/

/-- A transaction on the tables, with what it reads from outside. -/
inductive Op where
  | create (session : AuthSession) (sessionID tokenID familyID : String)
  | rotate (now : Time) (oldRefreshHash : String) (new : NewTokens) (grace : Time)
      (tokenID : String)
  | revokeAll (identityID : String)
  | revokeOther (identityID keepSessionID : String)

/-- The tables after a transaction; one that fails leaves them as they were. -/
def apply (t : SessionTables) : Op → SessionTables
  | .create session sessionID tokenID familyID =>
    match t.createAuthSession session sessionID tokenID familyID with
    | .error _ => t
    | .ok (_, t') => t'
  | .rotate now oldRefreshHash new grace tokenID =>
    (t.rotateAuthRefreshToken now oldRefreshHash new grace tokenID).2
  | .revokeAll identityID => t.revokeAuthSessionsByIdentityID identityID
  | .revokeOther identityID keepSessionID =>
    t.revokeOtherAuthSessionsByIdentityID identityID keepSessionID

def run (t : SessionTables) (ops : List Op) : SessionTables := ops.foldl apply t

theorem Consistent.apply (h : t.Consistent) (op : Op) : (t.apply op).Consistent := by
  cases op with
  | create session sessionID tokenID familyID =>
    rw [SessionTables.apply]
    split
    · exact h
    · rename_i s t' ht
      exact h.createAuthSession ht
  | rotate now oldRefreshHash new grace tokenID =>
    refine t.rotate_cases now oldRefreshHash new grace tokenID (P := fun x => x.2.Consistent)
      (fun _ => h) ?_ (fun _ _ _ _ _ _ _ _ => h) ?_
    · intro s hs r hr hid _ _ _ rotation t' ht
      exact h.rotateActive hs hr hid ht
    · intro s _ r _ _ _ _ _ _
      exact h.reuse s r
  | revokeAll identityID => exact h.revoke identityID none
  | revokeOther identityID keepSessionID => exact h.revoke identityID (some keepSessionID)

theorem Consistent.run (h : t.Consistent) (ops : List Op) : (t.run ops).Consistent := by
  induction ops generalizing t with
  | nil => exact h
  | cons op ops ih => exact ih (h.apply op)

/-! ## Deleted sessions -/

def Deleted (id : String) (t : SessionTables) : Prop :=
  ∃ s ∈ t.sessions, s.id = id ∧ s.status = .deleted

instance (id : String) (t : SessionTables) : Decidable (t.Deleted id) :=
  inferInstanceAs (Decidable (∃ s ∈ t.sessions, s.id = id ∧ s.status = .deleted))

namespace Deleted

variable {id : String} {t t' : SessionTables}

section

variable (h : t.Deleted id)

include h

theorem update (ht : t'.sessions = Table.update p f t.sessions) (hid : ∀ s, (f s).id = s.id)
    (hf : ∀ s, s.status = .deleted → (f s).status = .deleted) : t'.Deleted id := by
  obtain ⟨s, hs, hsid, hdel⟩ := h
  refine ⟨_, ht ▸ Table.mem_update_of_mem hs, ?_⟩
  split
  · exact ⟨(hid s).trans hsid, hf s hdel⟩
  · exact ⟨hsid, hdel⟩

theorem insertSession (hs : t.insertSession s = .ok t') : t'.Deleted id := by
  obtain ⟨rfl, -⟩ := insertSession_ok hs
  obtain ⟨s', hs', hrest⟩ := h
  exact ⟨s', List.mem_append_left _ hs', hrest⟩

theorem insertRefreshToken (hr : t.insertRefreshToken r = .ok t') : t'.Deleted id := by
  obtain ⟨rfl, -⟩ := insertRefreshToken_ok hr
  exact h

theorem createAuthSession {sessionID tokenID familyID : String}
    (ht : t.createAuthSession session sessionID tokenID familyID = .ok (s, t')) :
    t'.Deleted id := by
  obtain ⟨t₁, h₁, ht⟩ := Except.bind_eq_ok.1 ht
  split at ht
  · cases ht
    exact h.insertSession h₁
  · obtain ⟨t₂, h₂, ht⟩ := Except.bind_eq_ok.1 ht
    cases ht
    exact (h.insertSession h₁).insertRefreshToken h₂

theorem rotateActive (ht : t.rotateActive session oldToken now new tokenID = .ok (rotation, t')) :
    t'.Deleted id := by
  obtain ⟨t₁, h₁, ht⟩ := Except.bind_eq_ok.1 ht
  obtain ⟨t₂, h₂, ht⟩ := Except.bind_eq_ok.1 ht
  cases ht
  obtain ⟨rfl, -⟩ := setTokens_ok h₁
  refine Deleted.insertRefreshToken ?_ h₂
  exact h.update (f := fun s => s.renew new) rfl (fun _ => rfl) fun _ hs => hs

theorem apply (op : Op) : (t.apply op).Deleted id := by
  cases op with
  | create session sessionID tokenID familyID =>
    rw [SessionTables.apply]
    split
    · exact h
    · rename_i s t' ht
      exact h.createAuthSession ht
  | rotate now oldRefreshHash new grace tokenID =>
    refine t.rotate_cases now oldRefreshHash new grace tokenID (P := fun x => x.2.Deleted id)
      (fun _ => h) ?_ (fun _ _ _ _ _ _ _ _ => h) ?_
    · intro s _ r _ _ _ _ _ rotation t' ht
      exact h.rotateActive ht
    · intro s _ r _ _ _ _ _ _
      exact h.update rfl (fun _ => rfl) fun _ _ => rfl
  | revokeAll | revokeOther => exact h.update rfl (fun _ => rfl) fun _ _ => rfl

theorem run (ops : List Op) : (t.run ops).Deleted id := by
  induction ops generalizing t with
  | nil => exact h
  | cons op ops ih => exact ih (h.apply op)

theorem not_active (hc : t.Consistent) (hs : s ∈ t.sessions) (hact : s.status = .active) :
    s.id ≠ id := by
  rintro rfl
  obtain ⟨s', hs', hid, hdel⟩ := h
  rw [hc.ids.eq_of_mem hs' hs hid, hact] at hdel
  cases hdel

end

end Deleted

/-! ## The state machine -/

def activeTokens (id : String) (t : SessionTables) : List AuthRefreshToken :=
  t.refreshTokens.filter fun r => r.sessionID == id && r.status == .active

/-- The rules of the state machine: a session has at most one active token, the one its row names
while it is active, and all its tokens are of one family and end with the session. -/
structure Machine (t : SessionTables) : Prop where
  one : ∀ s ∈ t.sessions, (t.activeTokens s.id).length ≤ 1
  named : ∀ s ∈ t.sessions, s.status = .active → ∀ r ∈ t.activeTokens s.id,
    s.refreshTokenHash = r.tokenHash
  family : ∀ r ∈ t.refreshTokens, ∀ r' ∈ t.refreshTokens, r.sessionID = r'.sessionID →
    r.familyID = r'.familyID
  deadline : ∀ r ∈ t.refreshTokens, ∃ s ∈ t.sessions, s.id = r.sessionID ∧
    r.absoluteExpiresAt = s.refreshAbsoluteUntil

structure Gone (id : String) (t : SessionTables) : Prop where
  byToken : ∀ hash s, t.getActiveAuthSessionByTokenHash hash = some s → s.id ≠ id
  byRefreshToken : ∀ now hash grace s,
    t.getAuthSessionByRefreshHashForRotation now hash grace = some s → s.id ≠ id
  rotated : ∀ now hash new grace tokenID rotation,
    (t.rotateAuthRefreshToken now hash new grace tokenID).1 = .ok rotation →
      rotation.session.id ≠ id

theorem mem_activeTokens :
    r ∈ t.activeTokens id ↔ r ∈ t.refreshTokens ∧ r.sessionID = id ∧ r.status = .active := by
  simp [activeTokens]

theorem Consistent.machine (h : t.Consistent) : t.Machine where
  one s hs := by
    refine Table.length_le_one ((List.Nodup.of_map _ h.refreshIDs).filter _) fun r hr r' hr' => ?_
    obtain ⟨hr, hid, hact⟩ := mem_activeTokens.1 hr
    obtain ⟨hr', hid', hact'⟩ := mem_activeTokens.1 hr'
    exact h.refreshHashes.eq_of_mem hr hr'
      ((h.named s hs r hr hid hact).1.symm.trans (h.named s hs r' hr' hid' hact').1)
  named s hs _ r hr := by
    obtain ⟨hr, hid, hact⟩ := mem_activeTokens.1 hr
    exact (h.named s hs r hr hid hact).1
  family := h.family
  deadline r hr := by
    obtain ⟨s, hs, hid, -, habs⟩ := h.owned r hr
    exact ⟨s, hs, hid, habs.symm⟩

theorem Deleted.gone (h : t.Deleted id) (hc : t.Consistent) :
    t.Gone id where
  byToken hash s hs := by
    have hp : s.tokenHash = hash ∧ s.status = .active := by simpa using List.find?_some hs
    exact h.not_active hc (List.mem_of_find?_eq_some hs) hp.2
  byRefreshToken now hash grace s hs := by
    have hp := List.find?_some hs
    simp only [Bool.and_eq_true, beq_iff_eq] at hp
    exact h.not_active hc (List.mem_of_find?_eq_some hs) hp.1
  rotated now hash new grace tokenID := by
    refine t.rotate_cases now hash new grace tokenID
      (P := fun x => ∀ rotation, x.1 = .ok rotation → rotation.session.id ≠ id) ?_ ?_ ?_ ?_
    · rintro e rotation ⟨⟩
    · intro s hs r _ _ _ hact _ rotation t' ht rotation' heq
      have hid : rotation.session.id = s.id := by rw [rotateActive_session ht]; rfl
      rw [← Except.ok.inj heq, hid]
      exact h.not_active hc hs hact
    · intro s hs r _ _ _ hact _ rotation heq
      rw [graceToken_session heq]
      exact h.not_active hc hs hact
    · rintro _ _ _ _ _ _ _ _ _ rotation ⟨⟩

/-- For every sequence of session transactions: the rules of the state machine hold, and a session
that was deleted at some point is never found or rotated afterwards. -/
theorem sessions_follow_machine (ops later : List Op) : (empty.run ops).Machine ∧
      ∀ id, (empty.run ops).Deleted id → ((empty.run ops).run later).Gone id := by
  have hc := consistent_empty.run ops
  exact ⟨hc.machine, fun id hid => (hid.run later).gone (hc.run later)⟩

end SessionTables

end LazGate
