import LazGate.Lib.Eval
import LazGate.Server.Auth.Client

/-!
# Refreshing a session

What a request for new tokens does, for an administrator and for a client, when no store call
fails.
-/

namespace LazGate

open Prog

/-! ## Runs in which every call succeeds -/

/-- What a call that succeeds leaves open: the time since the call before it, and what is drawn at
random. -/
structure Draw where
  elapsed : ℕ
  text : String
  deriving DecidableEq

abbrev Script : Type := ℕ → Draw

def Script.rest (σ : Script) : Script := fun n => σ (n + 1)

/-- The instant of the `n`-th call. -/
def clockAt (w : AuthWorld) (σ : Script) : ℕ → Time
  | 0 => w.clock + (σ 0).elapsed
  | n + 1 => clockAt w σ n + (σ (n + 1)).elapsed

theorem clockAt_mono (w : AuthWorld) (σ : Script) {m n : ℕ} (h : m ≤ n) :
    clockAt w σ m ≤ clockAt w σ n := by
  induction n with
  | zero =>
    obtain rfl := Nat.le_zero.1 h
    exact le_refl _
  | succ n ih =>
    rcases Nat.le_succ_iff.1 h with h | rfl
    · exact (ih h).trans (Int.le_add_of_nonneg_right (Int.natCast_nonneg _))
    · exact le_refl _

theorem clock_le_clockAt (w : AuthWorld) (σ : Script) (n : ℕ) : w.clock ≤ clockAt w σ n := by
  have h : w.clock ≤ clockAt w σ 0 := Int.le_add_of_nonneg_right (Int.natCast_nonneg _)
  exact h.trans (clockAt_mono w σ (Nat.zero_le n))

def AuthCall.succeed (c : AuthCall) (d : Draw) (w : AuthWorld) : c.Reply × AuthWorld :=
  c.perform ⟨d.elapsed, .none, d.text⟩ w

/-- The calls of a request that runs alone and succeeds with each of them. -/
abbrev answer : (c : AuthCall) → AuthWorld × Script → c.Reply × (AuthWorld × Script) :=
  scripted AuthCall.succeed

variable (id : String)

section Calls

variable {ε : Type} (w : AuthWorld) (σ : Script)

theorem eval_now : eval answer (now : AuthProg ε Time).run (w, σ) =
    (.ok (w.clock + (σ 0).elapsed), ⟨w.db, w.clock + (σ 0).elapsed⟩, σ.rest) := rfl

theorem eval_newToken : eval answer newToken.run (w, σ) =
    (.ok (σ 0).text, ⟨w.db, w.clock + (σ 0).elapsed⟩, σ.rest) := rfl

theorem eval_getAccount : eval answer (getAccount id).run (w, σ) =
    (w.db.getAccount id, ⟨w.db, w.clock + (σ 0).elapsed⟩, σ.rest) := rfl

theorem eval_getAuthIdentity : eval answer (getAuthIdentity id).run (w, σ) =
    (w.db.getAuthIdentity id, ⟨w.db, w.clock + (σ 0).elapsed⟩, σ.rest) := rfl

theorem eval_getAdminProfile : eval answer (getAdminProfile id).run (w, σ) =
    (w.db.getAdminProfile id, ⟨w.db, w.clock + (σ 0).elapsed⟩, σ.rest) := rfl

theorem eval_getActive (hash : String) :
    eval answer (getActiveAuthSessionByTokenHash hash).run (w, σ) =
      (orNotFound (w.db.toSessionTables.getActiveAuthSessionByTokenHash hash),
        ⟨w.db, w.clock + (σ 0).elapsed⟩, σ.rest) := rfl

theorem eval_lookup (hash : String) (grace : Time) :
    eval answer (getAuthSessionByRefreshHashForRotation hash grace).run (w, σ) =
      (orNotFound (w.db.toSessionTables.getAuthSessionByRefreshHashForRotation
          (w.clock + (σ 0).elapsed) hash grace),
        ⟨w.db, w.clock + (σ 0).elapsed⟩, σ.rest) := rfl

theorem eval_rotate (hash : String) (new : NewTokens) (grace : Time) :
    eval answer (rotateAuthRefreshToken hash new grace).run (w, σ) =
      let x := w.db.toSessionTables.rotateAuthRefreshToken
        (w.clock + (σ 0).elapsed + (σ 1).elapsed) hash new grace (σ 0).text
      (x.1, ⟨{ w.db with toSessionTables := x.2 }, w.clock + (σ 0).elapsed + (σ 1).elapsed⟩,
        σ.rest.rest) := rfl

end Calls

/-! ## The lookup and the rotation for a stored token -/

variable {hash : String}

namespace SessionTables

variable {t : SessionTables} {r : AuthRefreshToken} {s : AuthSession}

theorem lookup_some {now grace : Time}
    (h : t.getAuthSessionByRefreshHashForRotation now hash grace = some s) :
    s ∈ t.sessions ∧ s.status = .active ∧ ∃ r ∈ t.refreshTokens, s.id = r.sessionID ∧
      r.tokenHash = hash ∧ rotatable now grace r = true := by
  have hp := List.find?_some h
  simp only [Bool.and_eq_true, beq_iff_eq, List.any_eq_true] at hp
  obtain ⟨hact, r, hr, ⟨hid, hh⟩, hsel⟩ := hp
  exact ⟨List.mem_of_find?_eq_some h, hact, r, hr, hid.symm, hh, hsel⟩

section

variable (h : t.Consistent) (hr : r ∈ t.refreshTokens) (hs : s ∈ t.sessions)
  (hid : s.id = r.sessionID)

include h hr hs hid

theorem Consistent.eq_of_lookup {s' : AuthSession} {now grace : Time}
    (hf : t.getAuthSessionByRefreshHashForRotation now r.tokenHash grace = some s') :
    s' = s ∧ rotatable now grace r = true := by
  obtain ⟨hs', -, r', hr', hid', hh, hsel⟩ := lookup_some hf
  obtain rfl := h.refreshHashes.eq_of_mem hr' hr hh
  exact ⟨h.ids.eq_of_mem hs' hs (hid'.trans hid.symm), hsel⟩

theorem Consistent.lookup (hact : s.status = .active) {now grace : Time}
    (hsel : rotatable now grace r = true) :
    t.getAuthSessionByRefreshHashForRotation now r.tokenHash grace = some s := by
  cases hf : t.getAuthSessionByRefreshHashForRotation now r.tokenHash grace with
  | none =>
    rw [getAuthSessionByRefreshHashForRotation, List.find?_eq_none] at hf
    refine absurd ?_ (hf s hs)
    simp only [Bool.and_eq_true, beq_iff_eq, List.any_eq_true]
    exact ⟨hact, r, hr, ⟨hid.symm, rfl⟩, hsel⟩
  | some s' => rw [(h.eq_of_lookup hr hs hid hf).1]

theorem Consistent.rotate (hact : s.status = .active) (now : Time) (new : NewTokens) (grace : Time)
    (tokenID : String) :
    t.rotateAuthRefreshToken now r.tokenHash new grace tokenID =
      if r.status = .active then
        match t.rotateActive s r now new tokenID with
        | .error e => (.error e, t)
        | .ok (rotation, t') => (.ok rotation, t')
      else if inGrace now grace r then (t.graceToken s r, t)
      else (.error errNotFound, t.reuse s r) := by
  have hsess : t.sessions.find? (fun s' => s'.id == r.sessionID) = some s := by
    rw [← hid]
    exact h.ids.find?_eq hs
  rw [rotateAuthRefreshToken, h.refreshHashes.find?_eq hr]
  simp only [hsess]
  exact if_neg (not_not_intro hact)

end

end SessionTables

def AuthDB.withSessions (db : AuthDB) (t : SessionTables) : AuthDB :=
  { db with toSessionTables := t }

/-- The lookup of a request, which is its fourth call, selects the session. -/
abbrev AuthWorld.Selects (w : AuthWorld) (σ : Script) (hash : String) (grace : Time)
    (session : AuthSession) : Prop :=
  w.db.toSessionTables.getAuthSessionByRefreshHashForRotation (clockAt w σ 3) hash grace =
    some session

/-- The request was refused and has changed nothing. -/
def Refused {ε α : Type} (w : AuthWorld) (x : Except ε α × (AuthWorld × Script)) : Prop :=
  ∃ e, x.1 = .error e ∧ x.2.1.db = w.db

/-- The session may still be refreshed by a request of the instant `t`. -/
structure AuthSession.Refreshable (s : AuthSession) (t : Time) : Prop where
  named : s.refreshTokenHash ≠ ""
  unexpired : after t s.refreshExpiresAt = false
  within : after t s.refreshAbsoluteUntil = false

variable {t t' : Time} {s : AuthSession}

theorem not_refreshable_iff :
    (s.refreshTokenHash = "" ∨ after t s.refreshExpiresAt ∨ after t s.refreshAbsoluteUntil) ↔
      ¬ s.Refreshable t := by
  constructor
  · rintro (h | h | h) hs
    · exact hs.named h
    · exact absurd (hs.unexpired.symm.trans h) Bool.false_ne_true
    · exact absurd (hs.within.symm.trans h) Bool.false_ne_true
  · intro h
    by_contra hn
    simp only [not_or, Bool.not_eq_true] at hn
    exact h ⟨hn.1, hn.2.1, hn.2.2⟩

/-! ## The administrator's request -/

structure AuthDB.Admits (db : AuthDB) (session : AuthSession) (identity : AuthIdentity)
    (profile : AdminProfile) : Prop where
  identityFound : db.getAuthIdentity session.identityID = .ok identity
  identityActive : identity.status = .active
  settled : identity.mustChangePassword = false
  profileFound : db.getAdminProfile identity.id = .ok profile
  profileActive : profile.status = .active

/-- The request passes every check between the lookup and the rotation. -/
structure Authenticator.Allows (a : Authenticator) (csrf : Option SignedText) (w : AuthWorld)
    (σ : Script) (session : AuthSession) (identity : AuthIdentity) (profile : AdminProfile) :
    Prop where
  refreshable : session.Refreshable (clockAt w σ 0)
  csrfValid : a.validateCSRF session csrf (clockAt w σ 4) = true
  admits : w.db.Admits session identity profile

namespace Authenticator

variable (a : Authenticator) {raw : String} {csrf : Option SignedText} {w : AuthWorld}
  {σ : Script} {session : AuthSession} {identity : AuthIdentity} {profile : AdminProfile}

def draws (w : AuthWorld) (σ : Script) : NewTokens where
  tokenHash := a.crypto.hash (σ 1).text
  expiresAt := some (clockAt w σ 0 + a.sessionTTL)
  refreshHash := a.crypto.hash (σ 2).text
  refreshExpiresAt := some (clockAt w σ 0 + refreshTTL)

/-- The rotation that the request makes once its checks have passed. -/
def rotation (raw : String) (w : AuthWorld) (σ : Script) :
    Except String RefreshTokenRotation × SessionTables :=
  w.db.toSessionTables.rotateAuthRefreshToken (clockAt w σ 8) (a.crypto.hash raw) (a.draws w σ)
    refreshReuseGrace (σ 7).text

theorem refresh_of_allows (hf : w.Selects σ (a.crypto.hash raw) refreshReuseGrace session)
    (h : a.Allows csrf w σ session identity profile) :
    (eval answer (a.refresh raw csrf).run (w, σ)).2.1.db =
        w.db.withSessions (a.rotation raw w σ).2 ∧
      (eval answer (a.refresh raw csrf).run (w, σ)).1 = (a.rotation raw w σ).1.map fun x =>
        ⟨principalOf identity profile x.session.id, x.session, (σ 1).text, (σ 2).text,
          a.newCSRFToken x.session.id (clockAt w σ 9)⟩ := by
  have h₁ := h.csrfValid
  have h₂ := h.refreshable
  simp only [AuthWorld.Selects, clockAt] at hf h₁ h₂
  simp only [refresh, eval_andThen, eval_now, eval_newToken, eval_lookup, orElse, eval_failAs,
    Script.rest, hf, h₁, not_refreshable_iff, h₂, orNotFound, Except.mapError, Nat.reduceAdd,
    not_true, if_false, if_true, eval_getAuthIdentity, h.admits.identityFound,
    h.admits.identityActive, h.admits.settled, eval_getAdminProfile, h.admits.profileFound,
    h.admits.profileActive, ne_eq, Bool.false_eq_true, or_self, eval_rotate, eval_pure]
  simp only [rotation, draws, clockAt, Nat.reduceAdd]
  generalize SessionTables.rotateAuthRefreshToken _ _ _ _ _ _ = x
  rcases x with ⟨e | x, t⟩ <;> exact ⟨rfl, rfl⟩

/-- A request that fails a check changes nothing. -/
theorem refresh_of_not_allows (h : ∀ session identity profile,
      w.Selects σ (a.crypto.hash raw) refreshReuseGrace session →
        ¬ a.Allows csrf w σ session identity profile) :
    Refused w (eval answer (a.refresh raw csrf).run (w, σ)) := by
  simp only [refresh, eval_andThen, eval_now, eval_newToken, eval_lookup, orElse, eval_failAs,
    Script.rest, Nat.reduceAdd]
  cases hf : w.db.toSessionTables.getAuthSessionByRefreshHashForRotation (clockAt w σ 3)
    (a.crypto.hash raw) refreshReuseGrace with
  | none =>
    simp only [clockAt, Nat.reduceAdd] at hf
    rw [hf]
    exact ⟨_, rfl, rfl⟩
  | some session =>
    have hn := fun identity profile => h session identity profile hf
    simp only [clockAt, Nat.reduceAdd] at hf
    simp only [hf, orNotFound, Except.mapError]
    split
    · exact ⟨_, rfl, rfl⟩
    rename_i hlive
    simp only [eval_andThen, eval_now]
    split
    case isFalse => exact ⟨_, rfl, rfl⟩
    rename_i hcsrf
    simp only [eval_andThen, eval_failAs, eval_getAuthIdentity]
    cases hi : w.db.getAuthIdentity session.identityID with
    | error e => exact ⟨_, rfl, rfl⟩
    | ok identity =>
      simp only [Except.mapError]
      split
      · exact ⟨_, rfl, rfl⟩
      rename_i hident
      simp only [eval_andThen, eval_failAs, eval_getAdminProfile]
      cases hp : w.db.getAdminProfile identity.id with
      | error e => exact ⟨_, rfl, rfl⟩
      | ok profile =>
        simp only [Except.mapError]
        split
        · exact ⟨_, rfl, rfl⟩
        rename_i hprofile
        rw [not_refreshable_iff, not_not] at hlive
        simp only [not_or, Bool.not_eq_true, ne_eq, not_not] at hident hprofile
        exact absurd ⟨hlive, hcsrf, hi, hident.1, hident.2, hp, hprofile⟩ (hn identity profile)

/-- What a request that succeeds has done. -/
theorem refresh_ok {result : LoginResult}
    (h : (eval answer (a.refresh raw csrf).run (w, σ)).1 = .ok result) :
    ∃ session identity profile x,
      w.Selects σ (a.crypto.hash raw) refreshReuseGrace session ∧
      a.Allows csrf w σ session identity profile ∧ (a.rotation raw w σ).1 = .ok x ∧
      result = ⟨principalOf identity profile x.session.id, x.session, (σ 1).text, (σ 2).text,
        a.newCSRFToken x.session.id (clockAt w σ 9)⟩ := by
  by_cases hn : ∀ session identity profile,
      w.Selects σ (a.crypto.hash raw) refreshReuseGrace session →
      ¬ a.Allows csrf w σ session identity profile
  · obtain ⟨e, he, -⟩ := a.refresh_of_not_allows hn
    cases he.symm.trans h
  · push Not at hn
    obtain ⟨session, identity, profile, hf, ha⟩ := hn
    rw [(a.refresh_of_allows hf ha).2] at h
    cases hx : (a.rotation raw w σ).1 with
    | error e =>
      rw [hx] at h
      cases h
    | ok x =>
      rw [hx] at h
      exact ⟨session, identity, profile, x, hf, ha, rfl, (Except.ok.inj h).symm⟩

end Authenticator

/-! ## The client's request -/

structure RefreshRequest.Valid (X : Crypto) (q : RefreshRequest) (w : AuthWorld) (σ : Script)
    (cookie : SignedText) (access : String) : Prop where
  refreshCookie : q.refreshCookie = some cookie
  cookieValid : validateSignedCookie X strongRefreshPurpose cookie (clockAt w σ 0) = true
  subject : cookie.subject ≠ ""
  accessCookie : q.accessCookie = some access
  csrfValid : validateStrongCSRF X access q.csrf (clockAt w σ 2) = true

structure AuthDB.Serves (db : AuthDB) (session : AuthSession) (identity : AuthIdentity)
    (account : Account) : Prop where
  active : session.status = .active
  identityFound : db.getAuthIdentity session.identityID = .ok identity
  kind : identity.kind = .user
  identityActive : identity.status = .active
  accountFound : db.getAccount identity.accountID = .ok account
  accountActive : account.status = .active

theorem AuthDB.serves_withSessions {db : AuthDB} {t : SessionTables} {session : AuthSession}
    {identity : AuthIdentity} {account : Account} :
    (db.withSessions t).Serves session identity account ↔ db.Serves session identity account :=
  ⟨fun h => { h with }, fun h => { h with }⟩

variable {x : RefreshTokenRotation}

section Client

variable (X : Crypto) {q : RefreshRequest} {w : AuthWorld} {σ : Script} {cookie : SignedText}
  {access : String} {session : AuthSession} {identity : AuthIdentity} {account : Account}

def strongDraws (w : AuthWorld) (σ : Script) : NewTokens where
  tokenHash := X.hash (σ 4).text
  expiresAt := some (clockAt w σ 1 + strongSessionTTL)
  refreshHash := X.hash (σ 5).text
  refreshExpiresAt := some (clockAt w σ 1 + strongRefreshTTL)

/-- The rotation that the request makes once its checks have passed. -/
def strongRotation (refreshHash : String) (w : AuthWorld) (σ : Script) :
    Except String RefreshTokenRotation × SessionTables :=
  w.db.toSessionTables.rotateAuthRefreshToken (clockAt w σ 7) refreshHash (strongDraws X w σ)
    strongReuseGrace (σ 6).text

/-- The cookies of a response for a rotation, issued at the given instants. -/
def strongCookies (rotation : RefreshTokenRotation) (rawSession rawRefresh : String)
    (t t' t'' : Time) : StrongCookies :=
  let access := signedValue X strongCookiePurpose (X.hash rawSession) (unix (t + strongSessionTTL))
  let raw := if rotation.graceRefreshToken.isSome then "" else rawRefresh
  let refresh := if raw = "" then none
    else some (signedValue X strongRefreshPurpose (X.hash raw) (unix (t' + strongRefreshTTL)))
  ⟨access, refresh, newStrongCSRF X access.text t''⟩

theorem eval_context (h : w.db.Serves session identity account) :
    eval answer (strongContextIgnoringAccessExpiry session).run (w, σ) =
      (.ok ⟨identity, session, account⟩,
        ⟨w.db, w.clock + (σ 0).elapsed + (σ 1).elapsed⟩, σ.rest.rest) := by
  simp only [strongContextIgnoringAccessExpiry, h.active, ne_eq, not_true, if_false, eval_andThen,
    orElse, eval_failAs, eval_getAuthIdentity, h.identityFound, Except.mapError, h.kind,
    h.identityActive, or_self, eval_getAccount, h.accountFound, h.accountActive, eval_pure]
  rfl

theorem eval_context_of_not (h : ∀ identity account, ¬ w.db.Serves session identity account) :
    Refused w (eval answer (strongContextIgnoringAccessExpiry session).run (w, σ)) := by
  simp only [strongContextIgnoringAccessExpiry]
  split
  · exact ⟨_, rfl, rfl⟩
  rename_i hact
  simp only [eval_andThen, orElse, eval_failAs, eval_getAuthIdentity]
  cases hi : w.db.getAuthIdentity session.identityID with
  | error e => exact ⟨_, rfl, rfl⟩
  | ok identity =>
    simp only [Except.mapError]
    split
    · exact ⟨_, rfl, rfl⟩
    rename_i hident
    simp only [eval_andThen, eval_failAs, eval_getAccount]
    cases ha : w.db.getAccount identity.accountID with
    | error e => exact ⟨_, rfl, rfl⟩
    | ok account =>
      simp only [Except.mapError]
      split
      · exact ⟨_, rfl, rfl⟩
      rename_i haccount
      simp only [not_or, ne_eq, not_not] at hact hident haccount
      exact absurd ⟨hact, hi, hident.1, hident.2, ha, haccount⟩ (h identity account)

theorem eval_finish (rawSession rawRefresh : String) (hx : x.session.Refreshable t)
    (h : w.db.Serves x.session identity account) :
    (eval answer (finishStrong X x rawSession rawRefresh t).run (w, σ)).1 =
      .ok (strongCookies X x rawSession rawRefresh (clockAt w σ 2) (clockAt w σ 3)
        (clockAt w σ 4), x.session) := by
  simp only [finishStrong, not_refreshable_iff, hx, not_true, if_false, eval_andThen, orElse,
    eval_failAs, eval_context h, Except.mapError]
  rfl

theorem eval_finish_of_not (rawSession rawRefresh : String)
    (h : ∀ identity account, x.session.Refreshable t →
      ¬ w.db.Serves x.session identity account) :
    Refused w (eval answer (finishStrong X x rawSession rawRefresh t).run (w, σ)) := by
  simp only [finishStrong]
  split
  · exact ⟨_, rfl, rfl⟩
  · rename_i hx
    rw [not_refreshable_iff, not_not] at hx
    obtain ⟨e, he, hdb⟩ := eval_context_of_not (σ := σ) fun identity account =>
      h identity account hx
    simp only [eval_andThen, orElse, eval_failAs, he, Except.mapError]
    exact ⟨_, rfl, hdb⟩

/-- A request that fails a check before the rotation changes nothing. -/
theorem clientRefresh_of_not_valid (h : ∀ cookie access session, q.Valid X w σ cookie access →
      w.Selects σ cookie.subject strongReuseGrace session → ¬ session.Refreshable (clockAt w σ 1)) :
    Refused w (eval answer (clientRefresh X q).run (w, σ)) := by
  simp only [clientRefresh]
  cases hc : q.refreshCookie with
  | none => exact ⟨_, rfl, rfl⟩
  | some cookie =>
    simp only [eval_andThen, eval_now]
    split
    case isFalse => exact ⟨_, rfl, rfl⟩
    rename_i hcookie
    simp only [eval_andThen, eval_now]
    cases ha : q.accessCookie with
    | none => exact ⟨_, rfl, rfl⟩
    | some access =>
      simp only [eval_andThen, eval_now]
      split
      case isFalse => exact ⟨_, rfl, rfl⟩
      rename_i hcsrf
      have hv : q.Valid X w σ cookie access := ⟨hc, hcookie.1, hcookie.2, ha, hcsrf⟩
      simp only [refreshStrong, eval_andThen, orElse, eval_failAs, eval_lookup, Script.rest,
        Nat.reduceAdd]
      cases hf : w.db.toSessionTables.getAuthSessionByRefreshHashForRotation (clockAt w σ 3)
        cookie.subject strongReuseGrace with
      | none =>
        simp only [clockAt, Nat.reduceAdd] at hf
        rw [hf]
        exact ⟨_, rfl, rfl⟩
      | some session =>
        have hn := h cookie access session hv hf
        simp only [clockAt, Nat.reduceAdd] at hf hn
        simp only [hf, orNotFound, Except.mapError, not_refreshable_iff, hn, not_false_iff, if_true]
        exact ⟨_, rfl, rfl⟩

section Rotation

variable (hq : q.Valid X w σ cookie access)
  (hf : w.Selects σ cookie.subject strongReuseGrace session)
  (hs : session.Refreshable (clockAt w σ 1))

include hq hf hs

theorem clientRefresh_of_valid :
    eval answer (clientRefresh X q).run (w, σ) =
      match strongRotation X cookie.subject w σ with
      | (.error _, t) => (.error (unauthorized "unauthorized"),
          ⟨w.db.withSessions t, clockAt w σ 7⟩, fun n => σ (n + 8))
      | (.ok x, t) => eval answer (finishStrong X x (σ 4).text (σ 5).text (clockAt w σ 1)).run
          (⟨w.db.withSessions t, clockAt w σ 7⟩, fun n => σ (n + 8)) := by
  have h₁ := hq.cookieValid
  have h₂ := hq.csrfValid
  simp only [AuthWorld.Selects, clockAt] at hf h₁ h₂ hs
  simp only [clientRefresh, refreshStrong, hq.refreshCookie, hq.accessCookie, h₁, h₂, hq.subject,
    eval_andThen, eval_now, eval_newToken, eval_lookup, orElse, eval_failAs, Script.rest, hf,
    not_refreshable_iff, hs, orNotFound, Except.mapError, Nat.reduceAdd, not_true, if_false,
    if_true, ne_eq, not_false_iff, and_self, eval_rotate]
  simp only [strongRotation, strongDraws, clockAt, Nat.reduceAdd]
  generalize SessionTables.rotateAuthRefreshToken _ _ _ _ _ _ = x
  rcases x with ⟨e | x, t⟩
  · rfl
  · rfl

theorem clientRefresh_of_error {e : String}
    (h : (strongRotation X cookie.subject w σ).1 = .error e) :
    (eval answer (clientRefresh X q).run (w, σ)).1 = .error (unauthorized "unauthorized") ∧
      (eval answer (clientRefresh X q).run (w, σ)).2.1.db =
        w.db.withSessions (strongRotation X cookie.subject w σ).2 := by
  rw [clientRefresh_of_valid X hq hf hs]
  generalize strongRotation X cookie.subject w σ = x at h
  obtain ⟨r, t⟩ := x
  obtain rfl : r = .error e := h
  exact ⟨rfl, rfl⟩

theorem clientRefresh_of_rotated (h : (strongRotation X cookie.subject w σ).1 = .ok x) :
    eval answer (clientRefresh X q).run (w, σ) =
      eval answer (finishStrong X x (σ 4).text (σ 5).text (clockAt w σ 1)).run
        (⟨w.db.withSessions (strongRotation X cookie.subject w σ).2, clockAt w σ 7⟩,
          fun n => σ (n + 8)) := by
  rw [clientRefresh_of_valid X hq hf hs]
  generalize strongRotation X cookie.subject w σ = y at h
  obtain ⟨r, t⟩ := y
  obtain rfl : r = .ok x := h
  rfl

end Rotation

/-- What a request that succeeds has done. -/
theorem clientRefresh_ok {result : StrongCookies × AuthSession}
    (h : (eval answer (clientRefresh X q).run (w, σ)).1 = .ok result) :
    ∃ cookie access session x, q.Valid X w σ cookie access ∧
      w.Selects σ cookie.subject strongReuseGrace session ∧
      (strongRotation X cookie.subject w σ).1 = .ok x ∧
      (∃ identity account, w.db.Serves x.session identity account) ∧
      result = (strongCookies X x (σ 4).text (σ 5).text (clockAt w σ 10) (clockAt w σ 11)
        (clockAt w σ 12), x.session) := by
  by_cases hv : ∀ cookie access session, q.Valid X w σ cookie access →
      w.Selects σ cookie.subject strongReuseGrace session → ¬ session.Refreshable (clockAt w σ 1)
  · obtain ⟨e, he, -⟩ := clientRefresh_of_not_valid X hv
    cases he.symm.trans h
  · push Not at hv
    obtain ⟨cookie, access, session, hq, hf, hs⟩ := hv
    cases hx : (strongRotation X cookie.subject w σ).1 with
    | error e => cases (clientRefresh_of_error X hq hf hs hx).1.symm.trans h
    | ok x =>
      refine ⟨cookie, access, session, x, hq, hf, hx, ?_⟩
      rw [clientRefresh_of_rotated X hq hf hs hx] at h
      by_cases hn : ∀ identity account, x.session.Refreshable (clockAt w σ 1) →
          ¬ w.db.Serves x.session identity account
      · obtain ⟨e, he, -⟩ := eval_finish_of_not X (σ 4).text (σ 5).text (t := clockAt w σ 1)
          (w := ⟨w.db.withSessions (strongRotation X cookie.subject w σ).2, clockAt w σ 7⟩)
          (σ := fun n => σ (n + 8)) fun identity account hx hs =>
            hn identity account hx (AuthDB.serves_withSessions.1 hs)
        cases he.symm.trans h
      · push Not at hn
        obtain ⟨identity, account, hlive, hserves⟩ := hn
        refine ⟨⟨identity, account, hserves⟩, ?_⟩
        have hend := eval_finish X (σ 4).text (σ 5).text
          (w := ⟨w.db.withSessions (strongRotation X cookie.subject w σ).2, clockAt w σ 7⟩)
          (σ := fun n => σ (n + 8)) hlive (AuthDB.serves_withSessions.2 hserves)
        exact Except.ok.inj (h.symm.trans hend)

end Client

/-! ## Reuse of a rotated token -/

/-- A request for new tokens. -/
inductive RefreshCall where
  | admin (a : Authenticator) (raw : String) (csrf : Option SignedText)
  | client (X : Crypto) (q : RefreshRequest)

namespace RefreshCall

def presented : RefreshCall → Option String
  | .admin a raw _ => some (a.crypto.hash raw)
  | .client _ q => q.refreshCookie.map SignedText.subject

def grace : RefreshCall → Time
  | .admin .. => refreshReuseGrace
  | .client .. => strongReuseGrace

def tablesAfter (w : AuthWorld) (σ : Script) : RefreshCall → SessionTables
  | .admin a raw csrf => (eval answer (a.refresh raw csrf).run (w, σ)).2.1.db.toSessionTables
  | .client X q => (eval answer (clientRefresh X q).run (w, σ)).2.1.db.toSessionTables

/-- The lookup selects the token, and the request passes its other checks. -/
def Reaches (w : AuthWorld) (σ : Script) (s : AuthSession) (r : AuthRefreshToken) :
    RefreshCall → Prop
  | .admin a _ csrf =>
    SessionTables.rotatable (clockAt w σ 3) refreshReuseGrace r = true ∧
      ∃ identity profile, a.Allows csrf w σ s identity profile
  | .client X q =>
    SessionTables.rotatable (clockAt w σ 3) strongReuseGrace r = true ∧
      s.Refreshable (clockAt w σ 1) ∧ ∃ cookie access, q.Valid X w σ cookie access

end RefreshCall

namespace SessionTables

structure Detected (s : AuthSession) (r : AuthRefreshToken) (t : SessionTables) : Prop where
  family : ∀ r' ∈ t.refreshTokens, r'.familyID = r.familyID →
    r'.status = .revoked ∨ r'.status = .reused
  session : t.Deleted s.id

variable {t : SessionTables} {r : AuthRefreshToken} {s : AuthSession}

theorem detected_reuse (hs : s ∈ t.sessions) : (t.reuse s r).Detected s r where
  family r' hr' hfam := by
    obtain ⟨r₀, -, rfl⟩ := Table.mem_update.1 hr'
    split at hfam <;> rename_i hp
    · rw [if_pos hp]
      by_cases he : r₀.id = r.id
      · exact .inr (if_pos he)
      · exact .inl (if_neg he)
    · exact absurd (beq_iff_eq.2 hfam) hp
  session := by
    refine ⟨_, Table.mem_update_of_mem hs, ?_⟩
    rw [if_pos (beq_self_eq_true s.id)]
    exact ⟨rfl, rfl⟩

theorem not_detected (h : t.Consistent) (hs : s ∈ t.sessions) (hact : s.status = .active) :
    ¬ t.Detected s r :=
  fun hd => hd.session.not_active h hs hact rfl

theorem Consistent.rotate_reused (h : t.Consistent) (hr : r ∈ t.refreshTokens) (hs : s ∈ t.sessions)
    (hid : s.id = r.sessionID) (hact : s.status = .active)
    (hrot : r.status = .rotated) {rotated now grace : Time} (hat : r.rotatedAt = some rotated)
    (hlate : rotated + grace < now) (new : NewTokens) (tokenID : String) :
    t.rotateAuthRefreshToken now r.tokenHash new grace tokenID =
      (.error errNotFound, t.reuse s r) := by
  rw [h.rotate hr hs hid hact]
  simp [hrot, inGrace, hat, hlate]

end SessionTables

/-- The reuse of a rotated token is answered exactly if the lookup still selects the token. -/
theorem reuse_detected_iff (ops : List SessionTables.Op) (call : RefreshCall) (w : AuthWorld)
    (σ : Script) (hw : w.db.toSessionTables = SessionTables.empty.run ops) {s : AuthSession}
    {r : AuthRefreshToken} (hs : s ∈ w.db.sessions) (hr : r ∈ w.db.refreshTokens)
    (hid : s.id = r.sessionID) (hact : s.status = .active) (hrot : r.status = .rotated)
    {rotated : Time} (hat : r.rotatedAt = some rotated) (hlate : rotated + call.grace < w.clock)
    (hp : call.presented = some r.tokenHash) :
    (call.tablesAfter w σ).Detected s r ↔ call.Reaches w σ s r := by
  have hc : w.db.toSessionTables.Consistent := hw ▸ SessionTables.consistent_empty.run ops
  have hlate' : ∀ n, rotated + call.grace < clockAt w σ n := fun n =>
    hlate.trans_le (clock_le_clockAt w σ n)
  cases call with
  | admin a raw csrf =>
    obtain hh : a.crypto.hash raw = r.tokenHash := Option.some.inj hp
    constructor
    · intro hd
      by_contra hn
      have hna : ∀ session identity profile,
          w.Selects σ (a.crypto.hash raw) refreshReuseGrace session →
          ¬ a.Allows csrf w σ session identity profile := by
        intro session identity profile hf ha
        rw [hh] at hf
        obtain ⟨rfl, hsel⟩ := hc.eq_of_lookup hr hs hid hf
        exact hn ⟨hsel, identity, profile, ha⟩
      obtain ⟨e, -, hdb⟩ := a.refresh_of_not_allows hna
      rw [RefreshCall.tablesAfter, hdb] at hd
      exact SessionTables.not_detected hc hs hact hd
    · rintro ⟨hsel, identity, profile, ha⟩
      have hf := hc.lookup hr hs hid hact hsel
      rw [← hh] at hf
      have hrot' : a.rotation raw w σ =
          (.error errNotFound, w.db.toSessionTables.reuse s r) := by
        rw [Authenticator.rotation, hh]
        exact hc.rotate_reused hr hs hid hact hrot hat (hlate' 8) _ _
      rw [RefreshCall.tablesAfter, (a.refresh_of_allows hf ha).1, hrot']
      exact SessionTables.detected_reuse hs
  | client X q =>
    obtain ⟨cookie, hcookie, hh⟩ := Option.map_eq_some_iff.1 hp
    constructor
    · intro hd
      by_contra hn
      have hna : ∀ cookie access session, q.Valid X w σ cookie access →
          w.Selects σ cookie.subject strongReuseGrace session →
          ¬ session.Refreshable (clockAt w σ 1) := by
        intro cookie' access session hq hf hlive
        obtain rfl : cookie' = cookie := Option.some.inj (hq.refreshCookie.symm.trans hcookie)
        rw [hh] at hf
        obtain ⟨rfl, hsel⟩ := hc.eq_of_lookup hr hs hid hf
        exact hn ⟨hsel, hlive, cookie', access, hq⟩
      obtain ⟨e, -, hdb⟩ := clientRefresh_of_not_valid X hna
      rw [RefreshCall.tablesAfter, hdb] at hd
      exact SessionTables.not_detected hc hs hact hd
    · rintro ⟨hsel, hlive, cookie', access, hq⟩
      obtain rfl : cookie' = cookie := Option.some.inj (hq.refreshCookie.symm.trans hcookie)
      have hf := hc.lookup hr hs hid hact hsel
      rw [← hh] at hf
      have hrot' : strongRotation X cookie'.subject w σ =
          (.error errNotFound, w.db.toSessionTables.reuse s r) := by
        rw [strongRotation, hh]
        exact hc.rotate_reused hr hs hid hact hrot hat (hlate' 7) _ _
      rw [RefreshCall.tablesAfter,
        (clientRefresh_of_error X hq hf hlive (congrArg Prod.fst hrot')).2, hrot']
      exact SessionTables.detected_reuse hs

namespace RefreshSample

/-- The SHA-256 digests of the tokens. -/
def digest : String → String
  | "access" => "a0561fd649cdb6baa784055f051bad796ea0afef17fca38219549deeba4e8c1a"
  | "access2" => "084c90dc1638bc4bf16f5e68b430dc061500ececb60bbc17b93267cb56e55101"
  | "refresh" => "d6cc0a088c07683c65cd266860cab8d94b3a1937b17420d9da30ca299c09fb77"
  | "refresh2" => "178911c1e275300555622aacaca092be91dcfcc832b584723a6c1fc101d2368a"
  | "t1" => "628b49d96dcde97a430dd4f597705899e09a968f793491e4b704cae33a40dc02"
  | "t2" => "c44474038d459e40e4714afefa7bf8dae9f9834b22f5e8ec1dd434ecb62b512e"
  | text => "#" ++ text

def authenticator : Authenticator := ⟨{ Crypto.plain with hash := digest }, 10 * minute⟩

/-- A session of the identity `i` at the start of the epoch. -/
def session : AuthSession where
  id := "s"
  identityID := "i"
  accountID := "c"
  tokenHash := digest "access"
  refreshTokenHash := digest "refresh"
  refreshExpiresAt := some (40 * minute)
  refreshAbsoluteUntil := some (360 * minute)
  status := .active
  expiresAt := some (10 * minute)

/-- Its token is rotated after 1.1 seconds. -/
def ops : List SessionTables.Op :=
  [.create session "" "r" "f",
    .rotate 1100000000 (digest "refresh") ⟨digest "access2", some (10 * minute),
      digest "refresh2", some (40 * minute)⟩ refreshReuseGrace "r2"]

def db : AuthDB :=
  { AuthDB.empty with
    toSessionTables := SessionTables.empty.run ops
    identities := [⟨"i", .admin, "root", "root", "", .active, false⟩]
    profiles := [⟨"p", "i", .owner, .active⟩] }

/-- The rotated token presented again. -/
def call : RefreshCall := .admin authenticator "refresh" (some (authenticator.newCSRFToken "s" 0))

def draws : Script := fun n => ⟨0, "t" ++ toString n⟩

def token : AuthRefreshToken := ⟨"r", digest "refresh", "s", "i", "f", .rotated,
  some (40 * minute), some (360 * minute), some 1100000000⟩

def stored : AuthSession :=
  { session with tokenHash := digest "access2", refreshTokenHash := digest "refresh2" }

end RefreshSample

open RefreshSample in
/-- Presented 100 seconds later, the token is refused and nothing is revoked. -/
theorem reuse_undetected :
    stored ∈ db.sessions ∧ token ∈ db.refreshTokens ∧ stored.id = token.sessionID ∧
      stored.status = .active ∧ token.status = .rotated ∧ token.rotatedAt = some 1100000000 ∧
      1100000000 + call.grace < 100 * second ∧ call.presented = some token.tokenHash ∧
      ¬ (call.tablesAfter ⟨db, 100 * second⟩ draws).Detected stored token := by
  refine ⟨by decide +kernel, by decide +kernel, rfl, rfl, rfl, rfl, by decide +kernel, rfl, ?_⟩
  intro h
  exact absurd h.session (by decide +kernel)

open RefreshSample in
/-- Presented 10.02 seconds later, the text of the instant still selects the token. -/
theorem reuse_detected_within_second :
    (call.tablesAfter ⟨db, 11120000000⟩ draws).Detected stored token := by
  refine (reuse_detected_iff ops call ⟨db, 11120000000⟩ draws rfl (s := stored) (r := token)
    (by decide +kernel) (by decide +kernel) rfl rfl rfl rfl (by decide +kernel) rfl).2 ?_
  refine ⟨by decide +kernel, ⟨"i", .admin, "root", "root", "", .active, false⟩,
    ⟨"p", "i", .owner, .active⟩, ?_⟩
  exact ⟨⟨by decide, by decide +kernel, by decide +kernel⟩, by decide +kernel,
    ⟨rfl, rfl, rfl, rfl, rfl⟩⟩

/-! ## What the tokens that are handed out are good for -/

variable {new : NewTokens} {tokenID : String}

namespace SessionTables

variable {t : SessionTables} {s : AuthSession} {r : AuthRefreshToken}

/-- Tokens that are not stored yet. -/
structure Unused (new : NewTokens) (tokenID : String) (t : SessionTables) : Prop where
  tokenHash : ∀ s ∈ t.sessions, s.tokenHash ≠ new.tokenHash
  id : ∀ r ∈ t.refreshTokens, r.id ≠ tokenID
  refreshHash : ∀ r ∈ t.refreshTokens, r.tokenHash ≠ new.refreshHash

theorem rotateActive_of_unused (h : t.Unused new tokenID) (s : AuthSession) (r : AuthRefreshToken)
    (now : Time) :
    ∃ t', t.rotateActive s r now new tokenID =
      .ok (⟨s.renew new, nextToken s r new tokenID, none⟩, t') := by
  have hset : ∃ t₁, (t.supersede s r now).setTokens s.id new = .ok t₁ ∧
      t₁.refreshTokens = (t.supersede s r now).refreshTokens := by
    rw [setTokens, if_neg]
    · exact ⟨_, rfl, rfl⟩
    · simp only [List.any_eq_true, Bool.and_eq_true, beq_iff_eq, not_exists, not_and]
      exact fun s' hs' _ => h.tokenHash s' hs'
  obtain ⟨t₁, ht₁, htok⟩ := hset
  have hins : ∃ t₂, t₁.insertRefreshToken (nextToken s r new tokenID) = .ok t₂ := by
    rw [insertRefreshToken, if_neg]
    · exact ⟨_, rfl⟩
    · simp only [List.any_eq_true, Bool.or_eq_true, beq_iff_eq, not_exists, not_and, htok]
      intro r' hr'
      obtain ⟨r₁, hr₁, rfl⟩ := Table.mem_update.1 hr'
      obtain ⟨r₀, hr₀, rfl⟩ := Table.mem_update.1 hr₁
      have h₀ := not_or.2 ⟨h.id r₀ hr₀, h.refreshHash r₀ hr₀⟩
      split <;> split <;> exact h₀
  obtain ⟨t₂, ht₂⟩ := hins
  exact ⟨t₂, Except.bind_eq_ok.2 ⟨t₁, ht₁, Except.bind_eq_ok.2 ⟨t₂, ht₂, rfl⟩⟩⟩

theorem Consistent.graceToken_eq (h : t.Consistent) (hs : s ∈ t.sessions)
    (hx : t.graceToken s r = .ok x) :
    x.session = s ∧ x.graceRefreshToken.isSome := by
  rw [graceToken] at hx
  split at hx
  · cases hx
  · rename_i current hf
    cases hx
    have hp := List.find?_some hf
    simp only [Bool.and_eq_true, beq_iff_eq] at hp
    have hn := h.named s hs current (List.mem_reverse.1 (List.mem_of_find?_eq_some hf)) hp.1 hp.2
    refine ⟨?_, rfl⟩
    rw [← hn.1, ← hn.2]

theorem Consistent.getActive (h : t.Consistent) (hs : s ∈ t.sessions) (hact : s.status = .active) :
    t.getActiveAuthSessionByTokenHash s.tokenHash = some s := by
  cases hf : t.getActiveAuthSessionByTokenHash s.tokenHash with
  | none =>
    rw [getActiveAuthSessionByTokenHash, List.find?_eq_none] at hf
    exact absurd (by simp [hact]) (hf s hs)
  | some s' =>
    have hp := List.find?_some hf
    simp only [Bool.and_eq_true, beq_iff_eq] at hp
    rw [h.hashes.eq_of_mem (List.mem_of_find?_eq_some hf) hs hp.1]

def Current (hash : String) (t : SessionTables) : Prop :=
  ∃ r ∈ t.refreshTokens, r.tokenHash = hash ∧ r.status = .active

/-- A rotation that succeeds after the lookup: it stores the new tokens if the presented one is
current, and nothing otherwise. -/
theorem Consistent.rotate_ok (h : t.Consistent) {now now' grace : Time}
    (hf : t.getAuthSessionByRefreshHashForRotation now hash grace = some s)
    (hx : (t.rotateAuthRefreshToken now' hash new grace tokenID).1 = .ok x) :
    (t.Current hash ∧ x.session = s.renew new ∧ x.graceRefreshToken = none) ∨
      (¬ t.Current hash ∧ x.session = s ∧ x.graceRefreshToken.isSome) := by
  obtain ⟨hs, hact, r, hr, hid, rfl, -⟩ := lookup_some hf
  rw [h.rotate hr hs hid hact] at hx
  by_cases hra : r.status = .active
  · rw [if_pos hra] at hx
    split at hx
    · cases hx
    · rename_i rotation t' ht
      obtain rfl : rotation = x := Except.ok.inj hx
      obtain ⟨t₁, -, ht⟩ := Except.bind_eq_ok.1 ht
      obtain ⟨t₂, -, ht⟩ := Except.bind_eq_ok.1 ht
      cases ht
      exact .inl ⟨⟨r, hr, rfl, hra⟩, rfl, rfl⟩
  · have hnot : ¬ t.Current r.tokenHash := by
      rintro ⟨r', hr', hh, hact'⟩
      obtain rfl := h.refreshHashes.eq_of_mem hr' hr hh
      exact hra hact'
    rw [if_neg hra] at hx
    split at hx
    · exact .inr ⟨hnot, h.graceToken_eq hs hx⟩
    · cases hx

end SessionTables

def AuthSession.expiredAt (s : AuthSession) (t : Time) : Bool :=
  match s.expiresAt with
  | none => false
  | some u => u < t

theorem eval_isExpired {w : AuthWorld} {σ : Script} (h : s.expiredAt (clockAt w σ 0) = false) :
    ∃ t σ', eval answer (isExpired s : AuthM Bool).run (w, σ) = (.ok false, ⟨w.db, t⟩, σ') := by
  rw [AuthSession.expiredAt] at h
  rw [isExpired]
  cases hu : s.expiresAt with
  | none => exact ⟨_, _, rfl⟩
  | some u =>
    rw [hu] at h
    have h' : decide (u < w.clock + (σ 0).elapsed) = false := h
    simp only [eval_andThen, eval_now, h', eval_pure]
    exact ⟨_, _, rfl⟩

/-- What is promised of the tokens that a request draws and of their hashes. -/
structure Crypto.Fresh (X : Crypto) (t : SessionTables) (sessionToken refreshToken : String) :
    Prop where
  hash_ne : ∀ text, X.hash text ≠ ""
  nonblank : trimSpace sessionToken ≠ ""
  refresh_ne : refreshToken ≠ ""
  unused : ∀ s ∈ t.sessions, s.tokenHash ≠ X.hash sessionToken

/-- The session is stored as it was returned, and its current refresh token with it. -/
structure SessionTables.Holds (s : AuthSession) (t : SessionTables) : Prop where
  consistent : t.Consistent
  session : s ∈ t.sessions
  token : ∃ r ∈ t.refreshTokens, s.id = r.sessionID ∧ r.status = .active

/-- The session token authenticates the session until it expires or is revoked, and the refresh
token is accepted by the next refresh. -/
structure Authenticator.Works (a : Authenticator) (result : LoginResult) : Prop where
  authenticates : ∀ (v : AuthWorld) (τ : Script) (identity : AuthIdentity)
    (profile : AdminProfile), v.db.toSessionTables.Consistent → result.session ∈ v.db.sessions →
    v.db.Admits result.session identity profile →
    result.session.expiredAt (clockAt v τ 1) = false →
    (eval answer (a.authenticateSession result.sessionToken).run (v, τ)).1 =
      .ok (principalOf identity profile result.session.id, result.session)
  refreshes : ∀ (v : AuthWorld) (τ : Script) (identity : AuthIdentity) (profile : AdminProfile),
    v.db.toSessionTables.Holds result.session → v.db.Admits result.session identity profile →
    after (clockAt v τ 0) result.session.refreshExpiresAt = false →
    after (clockAt v τ 0) result.session.refreshAbsoluteUntil = false →
    unix (clockAt v τ 4) ≤ result.csrfToken.expires →
    v.db.toSessionTables.Unused (a.draws v τ) (τ 7).text →
    ∃ next, (eval answer (a.refresh result.refreshToken (some result.csrfToken)).run (v, τ)).1 =
      .ok next

variable {r : AuthRefreshToken}

namespace Authenticator

variable (a : Authenticator) {v : AuthWorld} {τ : Script} {s : AuthSession}
  {identity : AuthIdentity} {profile : AdminProfile} {cookie : String}

theorem authenticate_ok (hc : v.db.toSessionTables.Consistent) (hs : s ∈ v.db.sessions)
    (hact : s.status = .active) (hh : s.tokenHash = a.crypto.hash cookie)
    (hb : trimSpace cookie ≠ "") (ha : v.db.Admits s identity profile)
    (he : s.expiredAt (clockAt v τ 1) = false) :
    (eval answer (a.authenticateSession cookie).run (v, τ)).1 =
      .ok (principalOf identity profile s.id, s) := by
  have hf := hc.getActive hs hact
  rw [hh] at hf
  simp only [authenticateSession, hb, if_false, eval_andThen, orElse, eval_failAs, eval_getActive,
    hf, orNotFound, Except.mapError]
  obtain ⟨t, σ', hexp⟩ := eval_isExpired (w := ⟨v.db, v.clock + (τ 0).elapsed⟩) (σ := τ.rest) he
  simp only [hexp, Bool.false_eq_true, if_false, eval_andThen, eval_failAs, eval_getAuthIdentity,
    ha.identityFound, Except.mapError, ha.identityActive, ha.settled, ne_eq, not_true, or_self,
    eval_getAdminProfile, ha.profileFound, ha.profileActive, eval_pure]

theorem authenticate_unknown (cookie : String)
    (hn : ∀ s ∈ v.db.sessions, s.tokenHash ≠ a.crypto.hash cookie) :
    ∃ e, (eval answer (a.authenticateSession cookie).run (v, τ)).1 = .error e := by
  have hf : v.db.toSessionTables.getActiveAuthSessionByTokenHash (a.crypto.hash cookie) = none := by
    rw [SessionTables.getActiveAuthSessionByTokenHash, List.find?_eq_none]
    intro s hs
    simp [hn s hs]
  rw [authenticateSession]
  split
  · exact ⟨_, rfl⟩
  · simp only [eval_andThen, orElse, eval_failAs, eval_getActive, hf, orNotFound, Except.mapError]
    exact ⟨_, rfl⟩

theorem validateCSRF_new (h : unix t' ≤ (a.newCSRFToken s.id t).expires) :
    a.validateCSRF s (some (a.newCSRFToken s.id t)) t' = true := by
  simp only [validateCSRF, Bool.and_eq_true, beq_iff_eq, Bool.not_eq_true', decide_eq_false_iff_not,
    not_lt]
  exact ⟨⟨rfl, h⟩, rfl⟩

/-- A refresh token that is current and a fresh CSRF token are accepted. -/
theorem refresh_accepted {raw : String} {csrf : SignedText} (hc : v.db.toSessionTables.Consistent)
    (hs : s ∈ v.db.sessions) (hr : r ∈ v.db.refreshTokens)
    (hid : s.id = r.sessionID) (hact : s.status = .active) (hra : r.status = .active)
    (hh : r.tokenHash = a.crypto.hash raw) (ha : a.Allows (some csrf) v τ s identity profile)
    (hu : v.db.toSessionTables.Unused (a.draws v τ) (τ 7).text) :
    ∃ next, (eval answer (a.refresh raw (some csrf)).run (v, τ)).1 = .ok next := by
  have hsel : SessionTables.rotatable (clockAt v τ 3) refreshReuseGrace r = true := by
    simp [SessionTables.rotatable, hra]
  have hf := hc.lookup hr hs hid hact hsel
  rw [hh] at hf
  obtain ⟨t', ht'⟩ := SessionTables.rotateActive_of_unused hu s r (clockAt v τ 8)
  have hrot : (a.rotation raw v τ).1 = .ok ⟨s.renew (a.draws v τ),
      SessionTables.nextToken s r (a.draws v τ) (τ 7).text, none⟩ := by
    rw [rotation, ← hh, hc.rotate hr hs hid hact, if_pos hra, ht']
  rw [(a.refresh_of_allows hf ha).2, hrot]
  exact ⟨_, rfl⟩

variable {raw : String} {csrf : Option SignedText} {w : AuthWorld} {σ : Script}
  {result : LoginResult}

section

variable (hc : w.db.toSessionTables.Consistent)
  (hfresh : a.crypto.Fresh w.db.toSessionTables (σ 1).text (σ 2).text)
  (h : (eval answer (a.refresh raw csrf).run (w, σ)).1 = .ok result)

include hc hfresh h

theorem works_of_current (hcur : w.db.toSessionTables.Current (a.crypto.hash raw)) :
    a.Works result := by
  obtain ⟨session, identity, profile, x, hf, ha, hx, rfl⟩ := a.refresh_ok h
  have hact : session.status = .active := (SessionTables.lookup_some hf).2.1
  obtain ⟨-, hsess, -⟩ | ⟨hn, -⟩ := hc.rotate_ok hf hx
  case inr => exact absurd hcur hn
  constructor
  · intro v τ identity profile hcv hs hadm hexp
    refine a.authenticate_ok hcv hs ?_ ?_ hfresh.nonblank hadm hexp
    · rw [hsess]
      exact hact
    · rw [hsess]
      rfl
  · intro v τ identity profile hv hadm hexp habs hcsrf hu
    obtain ⟨r, hr, hid, hra⟩ := hv.token
    have hact' : x.session.status = .active := by
      rw [hsess]
      exact hact
    have hnamed : x.session.refreshTokenHash = a.crypto.hash (σ 2).text := by
      rw [hsess]
      rfl
    have hh := (hv.consistent.named _ hv.session r hr hid.symm hra).1
    refine a.refresh_accepted hv.consistent hv.session hr hid hact' hra (hh.symm.trans hnamed)
      ⟨⟨?_, hexp, habs⟩, a.validateCSRF_new hcsrf, hadm⟩ hu
    rw [hnamed]
    exact hfresh.hash_ne _

theorem not_works_of_not_current (hcur : ¬ w.db.toSessionTables.Current (a.crypto.hash raw)) :
    ¬ a.Works result := by
  obtain ⟨session, identity, profile, x, hf, ha, hx, rfl⟩ := a.refresh_ok h
  obtain ⟨hn, -⟩ | ⟨-, hsess, -⟩ := hc.rotate_ok hf hx
  · exact absurd hn hcur
  intro hw
  -- nothing was stored, so the token is unknown at an instant before the session expires
  have hauth := hw.authenticates ⟨w.db, session.expiresAt.getD 0⟩ (fun _ => ⟨0, ""⟩) identity
    profile hc ?_ ?_ ?_
  · obtain ⟨e, he⟩ := a.authenticate_unknown (v := ⟨w.db, session.expiresAt.getD 0⟩)
      (τ := fun _ => ⟨0, ""⟩) (σ 1).text hfresh.unused
    cases he.symm.trans hauth
  · rw [hsess]
    exact (SessionTables.lookup_some hf).1
  · rw [hsess]
    exact ha.admits
  · rw [hsess, AuthSession.expiredAt]
    cases session.expiresAt with
    | none => rfl
    | some u => simp [clockAt]

end

end Authenticator

/-- The access cookie authenticates the session until it expires or is revoked, with and without
the CSRF token, and a refresh cookie is accepted by the next refresh. -/
structure StrongWorks (X : Crypto) (result : StrongCookies × AuthSession) : Prop where
  authenticates : ∀ (v : AuthWorld) (τ : Script) (identity : AuthIdentity) (account : Account),
    ∀ csrf ∈ [none, some (some result.1.csrf)], v.db.toSessionTables.Consistent →
    result.2 ∈ v.db.sessions → v.db.Serves result.2 identity account →
    result.2.expiredAt (clockAt v τ 2) = false →
    (eval answer (authenticateStrong X result.1.access csrf).run (v, τ)).1 =
      .ok ⟨identity, result.2, account⟩
  refreshes : ∀ (v : AuthWorld) (τ : Script) (identity : AuthIdentity) (account : Account),
    ∀ cookie, result.1.refresh = some cookie → v.db.toSessionTables.Holds result.2 →
    v.db.Serves result.2 identity account →
    after (clockAt v τ 1) result.2.refreshExpiresAt = false →
    after (clockAt v τ 1) result.2.refreshAbsoluteUntil = false →
    unix (clockAt v τ 2) ≤ result.1.csrf.expires →
    v.db.toSessionTables.Unused (strongDraws X v τ) (τ 6).text →
    ∃ next, (eval answer (clientRefresh X
      ⟨some cookie, some result.1.access.text, some result.1.csrf⟩).run (v, τ)).1 = .ok next

section Strong

variable (X : Crypto) {v : AuthWorld} {τ : Script} {s : AuthSession} {identity : AuthIdentity}
  {account : Account} {cookie : SignedText} {csrf : Option (Option SignedText)}

theorem authenticateStrong_ok (hc : v.db.toSessionTables.Consistent) (hs : s ∈ v.db.sessions)
    (hh : s.tokenHash = cookie.subject) (hserves : v.db.Serves s identity account)
    (hcookie : validateSignedCookie X strongCookiePurpose cookie (clockAt v τ 1) = true)
    (hcsrf : ∀ c ∈ csrf, validateStrongCSRF X cookie.text c (clockAt v τ 1) = true)
    (he : s.expiredAt (clockAt v τ 2) = false) :
    (eval answer (authenticateStrong X cookie csrf).run (v, τ)).1 =
      .ok ⟨identity, s, account⟩ := by
  have hf := hc.getActive hs hserves.active
  rw [hh] at hf
  obtain ⟨t, σ', hexp⟩ := eval_isExpired
    (w := ⟨v.db, v.clock + (τ 0).elapsed + (τ 1).elapsed⟩) (σ := τ.rest.rest) he
  simp only [authenticateStrong, eval_andThen, orElse, eval_failAs, eval_getActive, hf, orNotFound,
    Except.mapError, eval_now, Script.rest, Nat.reduceAdd]
  rw [if_pos]
  · simp only [strongContextFromSession, eval_andThen, hexp, hserves.active, ne_eq, not_true,
      Bool.false_eq_true, or_self, if_false]
    rw [eval_context (w := ⟨v.db, t⟩) hserves]
  · rw [Bool.and_eq_true]
    refine ⟨hcookie, ?_⟩
    cases csrf with
    | none => rfl
    | some c => exact hcsrf c rfl

theorem authenticateStrong_unknown (cookie : SignedText) (csrf : Option (Option SignedText))
    (hn : ∀ s ∈ v.db.sessions, s.tokenHash ≠ cookie.subject) :
    ∃ e, (eval answer (authenticateStrong X cookie csrf).run (v, τ)).1 = .error e := by
  have hf : v.db.toSessionTables.getActiveAuthSessionByTokenHash cookie.subject = none := by
    rw [SessionTables.getActiveAuthSessionByTokenHash, List.find?_eq_none]
    intro s hs
    simp [hn s hs]
  simp only [authenticateStrong, eval_andThen, orElse, eval_failAs, eval_getActive, hf,
    orNotFound, Except.mapError]
  exact ⟨_, rfl⟩

theorem validateSignedCookie_signed {purpose subject : String} {expires : ℤ}
    (h : unix t ≤ expires) :
    validateSignedCookie X purpose (signedValue X purpose subject expires) t = true := by
  simp only [validateSignedCookie, Bool.and_eq_true, beq_iff_eq, Bool.not_eq_true',
    decide_eq_false_iff_not, not_lt]
  exact ⟨h, rfl⟩

theorem validateStrongCSRF_new {text : String} (h : unix t' ≤ (newStrongCSRF X text t).expires) :
    validateStrongCSRF X text (some (newStrongCSRF X text t)) t' = true := by
  simp only [validateStrongCSRF, Bool.and_eq_true, beq_iff_eq]
  exact ⟨rfl, validateSignedCookie_signed X h⟩

theorem unix_mono (h : t ≤ t') : unix t ≤ unix t' :=
  Int.ediv_le_ediv (by decide) h

/-- A refresh cookie of a current token is accepted. -/
theorem clientRefresh_accepted {q : RefreshRequest} {access : String}
    (hc : v.db.toSessionTables.Consistent) (hs : s ∈ v.db.sessions) (hr : r ∈ v.db.refreshTokens)
    (hid : s.id = r.sessionID) (hra : r.status = .active) (hh : r.tokenHash = cookie.subject)
    (hq : q.Valid X v τ cookie access) (hlive : s.Refreshable (clockAt v τ 1))
    (hserves : v.db.Serves s identity account) (hne : ∀ text, X.hash text ≠ "")
    (hu : v.db.toSessionTables.Unused (strongDraws X v τ) (τ 6).text) :
    ∃ next, (eval answer (clientRefresh X q).run (v, τ)).1 = .ok next := by
  have hsel : SessionTables.rotatable (clockAt v τ 3) strongReuseGrace r = true := by
    simp [SessionTables.rotatable, hra]
  have hf := hc.lookup hr hs hid hserves.active hsel
  rw [hh] at hf
  obtain ⟨t', ht'⟩ := SessionTables.rotateActive_of_unused hu s r (clockAt v τ 7)
  have hrot : (strongRotation X cookie.subject v τ).1 = .ok ⟨s.renew (strongDraws X v τ),
      SessionTables.nextToken s r (strongDraws X v τ) (τ 6).text, none⟩ := by
    rw [strongRotation, ← hh, hc.rotate hr hs hid hserves.active, if_pos hra, ht']
  rw [clientRefresh_of_rotated X hq hf hlive hrot]
  have hserves' : (v.db.withSessions (strongRotation X cookie.subject v τ).2).Serves
      (s.renew (strongDraws X v τ)) identity account := { hserves with }
  refine ⟨_, eval_finish X (τ 4).text (τ 5).text
    (w := ⟨v.db.withSessions (strongRotation X cookie.subject v τ).2, clockAt v τ 7⟩) ?_ hserves'⟩
  exact ⟨hne _, decide_eq_false (not_lt.2 (Int.le_add_of_nonneg_right (by decide))), hlive.within⟩

variable {q : RefreshRequest} {w : AuthWorld} {σ : Script} {result : StrongCookies × AuthSession}

section

variable (hc : w.db.toSessionTables.Consistent)
  (hfresh : X.Fresh w.db.toSessionTables (σ 4).text (σ 5).text)
  (h : (eval answer (clientRefresh X q).run (w, σ)).1 = .ok result)
  (hcookie : q.refreshCookie = some cookie)

include hc hfresh h hcookie

theorem strongWorks_of_current (hcur : w.db.toSessionTables.Current cookie.subject) :
    StrongWorks X result := by
  obtain ⟨cookie', access, session, x, hq, hf, hx, -, rfl⟩ := clientRefresh_ok X h
  obtain rfl : cookie' = cookie := Option.some.inj (hq.refreshCookie.symm.trans hcookie)
  obtain ⟨-, hsess, hgrace⟩ | ⟨hn, -⟩ := hc.rotate_ok hf hx
  case inr => exact absurd hcur hn
  have hnamed : x.session.refreshTokenHash = X.hash (σ 5).text := by
    rw [hsess]
    rfl
  -- the cookies are issued after the instant from which the lifetimes of the session count
  have hlater : ∀ {t ttl : Time} {n : ℕ}, 1 ≤ n → ¬ clockAt w σ 1 + ttl < t →
      unix t ≤ unix (clockAt w σ n + ttl) := by
    intro t ttl n hn ht
    exact unix_mono ((not_lt.1 ht).trans (Int.add_le_add_right (clockAt_mono w σ hn) ttl))
  constructor
  · intro v τ identity account csrf hcsrf hcv hs hserves he
    have hexp : ∀ n, 1 ≤ n → unix (clockAt v τ 1) ≤ unix (clockAt w σ n + strongSessionTTL) := by
      intro n hn
      rw [hsess] at he
      have h12 : clockAt v τ 1 ≤ clockAt v τ 2 := clockAt_mono v τ (by decide)
      refine (unix_mono h12).trans (hlater hn ?_)
      exact of_decide_eq_false he
    refine authenticateStrong_ok X hcv hs ?_ hserves (validateSignedCookie_signed X ?_) ?_ he
    · rw [hsess]
      rfl
    · exact hexp 10 (by decide)
    · intro c hc
      rcases List.mem_pair.1 hcsrf with rfl | rfl
      · cases hc
      · cases hc
        exact validateStrongCSRF_new X (hexp 12 (by decide))
  · intro v τ identity account cookie'' hset hv hserves hexp habs hcsrf hu
    obtain ⟨r, hr, hid, hra⟩ := hv.token
    have hh := (hv.consistent.named _ hv.session r hr hid.symm hra).1
    have hcookie'' : cookie'' = signedValue X strongRefreshPurpose (X.hash (σ 5).text)
        (unix (clockAt w σ 11 + strongRefreshTTL)) := by
      simp only [strongCookies, hgrace, Option.isSome_none, Bool.false_eq_true, if_false,
        hfresh.refresh_ne] at hset
      exact (Option.some.inj hset).symm
    have hsubject : cookie''.subject = X.hash (σ 5).text := by
      rw [hcookie'']
      rfl
    refine clientRefresh_accepted X hv.consistent hv.session hr hid hra
      (hh.symm.trans (hnamed.trans hsubject.symm))
      ⟨rfl, ?_, ?_, rfl, validateStrongCSRF_new X hcsrf⟩ ⟨?_, hexp, habs⟩ hserves hfresh.hash_ne hu
    · rw [hcookie'']
      rw [hsess] at hexp
      have h01 : clockAt v τ 0 ≤ clockAt v τ 1 := clockAt_mono v τ (by decide)
      refine validateSignedCookie_signed X ((unix_mono h01).trans (hlater (by decide) ?_))
      exact of_decide_eq_false hexp
    · rw [hsubject]
      exact hfresh.hash_ne _
    · rw [hnamed]
      exact hfresh.hash_ne _

theorem not_strongWorks_of_not_current (hcur : ¬ w.db.toSessionTables.Current cookie.subject) :
    ¬ StrongWorks X result := by
  obtain ⟨cookie', access, session, x, hq, hf, hx, ⟨identity, account, hserves⟩, rfl⟩ :=
    clientRefresh_ok X h
  obtain rfl : cookie' = cookie := Option.some.inj (hq.refreshCookie.symm.trans hcookie)
  obtain ⟨hn, -⟩ | ⟨-, hsess, -⟩ := hc.rotate_ok hf hx
  · exact absurd hn hcur
  intro hw
  have hauth := hw.authenticates ⟨w.db, session.expiresAt.getD 0⟩ (fun _ => ⟨0, ""⟩) identity
    account none List.mem_cons_self hc ?_ hserves ?_
  · obtain ⟨e, he⟩ := authenticateStrong_unknown X (v := ⟨w.db, session.expiresAt.getD 0⟩)
      (τ := fun _ => ⟨0, ""⟩) (strongCookies X x (σ 4).text (σ 5).text (clockAt w σ 10)
        (clockAt w σ 11) (clockAt w σ 12)).access none hfresh.unused
    cases he.symm.trans hauth
  · rw [hsess]
    exact (SessionTables.lookup_some hf).1
  · rw [hsess, AuthSession.expiredAt]
    cases session.expiresAt with
    | none => rfl
    | some u => simp [clockAt]

end

end Strong

/-- The tokens of a refresh that succeeds work exactly if the presented token was the current one
of its session, and not a rotated one within the grace window. -/
theorem refreshed_tokens_work_iff (ops : List SessionTables.Op) (w : AuthWorld) (σ : Script)
    (hw : w.db.toSessionTables = SessionTables.empty.run ops) :
    (∀ (a : Authenticator) (raw : String) (csrf : Option SignedText) (result : LoginResult),
      a.crypto.Fresh w.db.toSessionTables (σ 1).text (σ 2).text →
      (eval answer (a.refresh raw csrf).run (w, σ)).1 = .ok result →
      (a.Works result ↔ w.db.toSessionTables.Current (a.crypto.hash raw))) ∧
    ∀ (X : Crypto) (q : RefreshRequest) (cookie : SignedText)
      (result : StrongCookies × AuthSession),
      X.Fresh w.db.toSessionTables (σ 4).text (σ 5).text → q.refreshCookie = some cookie →
      (eval answer (clientRefresh X q).run (w, σ)).1 = .ok result →
      (StrongWorks X result ↔ w.db.toSessionTables.Current cookie.subject) := by
  have hc : w.db.toSessionTables.Consistent := hw ▸ SessionTables.consistent_empty.run ops
  constructor
  · intro a raw csrf result hfresh h
    constructor
    · intro hworks
      by_contra hcur
      exact a.not_works_of_not_current hc hfresh h hcur hworks
    · exact a.works_of_current hc hfresh h
  · intro X q cookie result hfresh hcookie h
    constructor
    · intro hworks
      by_contra hcur
      exact not_strongWorks_of_not_current X hc hfresh h hcookie hcur hworks
    · exact strongWorks_of_current X hc hfresh h hcookie

namespace RefreshSample

def csrf : Option SignedText := some (authenticator.newCSRFToken "s" 0)

/-- The rotated token presented again 0.9 seconds after its rotation. -/
def again : Except String LoginResult × (AuthWorld × Script) :=
  eval answer (authenticator.refresh "refresh" csrf).run (⟨db, 2 * second⟩, draws)

/-- The current token presented at that instant. -/
def current : Except String LoginResult × (AuthWorld × Script) :=
  eval answer (authenticator.refresh "refresh2" csrf).run (⟨db, 2 * second⟩, draws)

theorem fresh : authenticator.crypto.Fresh db.toSessionTables (draws 1).text (draws 2).text where
  hash_ne text h := by
    replace h : digest text = "" := h
    unfold digest at h
    split at h
    iterate 6 exact absurd h (by decide)
    simpa using congrArg String.toList h
  nonblank := by decide +kernel
  refresh_ne := by decide +kernel
  unused := by decide +kernel

end RefreshSample

open RefreshSample in
/-- Within the grace window the request succeeds, and neither of its tokens is accepted. -/
theorem grace_tokens_refused :
    ∃ result, again.1 = .ok result ∧
      (eval answer (authenticator.authenticateSession result.sessionToken).run again.2).1 =
        .error errInvalidCredentials ∧
      (eval answer (authenticator.refresh result.refreshToken (some result.csrfToken)).run
        again.2).1 = .error errInvalidCredentials :=
  ⟨⟨⟨"root", .owner, "i", "s"⟩, stored, "t1", "t2", authenticator.newCSRFToken "s" (2 * second)⟩,
    by decide +kernel, by decide +kernel, by decide +kernel⟩

open RefreshSample in
theorem current_tokens_work : ∃ result, current.1 = .ok result ∧ authenticator.Works result := by
  have h : current.1 = .ok ⟨⟨"root", .owner, "i", "s"⟩,
      stored.renew (authenticator.draws ⟨db, 2 * second⟩ draws), "t1", "t2",
      authenticator.newCSRFToken "s" (2 * second)⟩ := by decide +kernel
  refine ⟨_, h, ?_⟩
  refine ((refreshed_tokens_work_iff ops ⟨db, 2 * second⟩ draws rfl).1 authenticator "refresh2" csrf
    _ fresh h).2 ?_
  exact ⟨⟨"r2", digest "refresh2", "s", "i", "f", .active, some (40 * minute),
    some (360 * minute), none⟩, by decide +kernel, rfl, rfl⟩

end LazGate
