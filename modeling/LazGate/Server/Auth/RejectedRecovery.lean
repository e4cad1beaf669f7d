import LazGate.Server.Auth.NewPasswords
import LazGate.Server.Auth.Recovery

/-!
# Recoveries that are rejected

`recover` marks the code and revokes the sessions before it looks at the new password. What a
request leaves behind that ends with an error depends on where it has failed. The calls that it
makes up to the password are always the same ones, so this can be said of the outcomes in turn.
-/

namespace LazGate

open Prog

variable {account : Account} {c : AuthCall} {f : AuthOutcome} {code : AuthRecoveryCode}
  {identity : AuthIdentity} {db : AuthDB} {X : Crypto} {accountID recoveryCode newPassword : String}

namespace RejectedRecovery

/-- The call puts the new password into its row. -/
def setsPassword (c : AuthCall) (f : AuthOutcome) (db : AuthDB) : Bool :=
  c.takesPlace f && match c with
    | .createAuthCredential credential id =>
      (db.createAuthCredential credential id).1.toOption.isSome
    | .updateAuthCredential _ => true
    | _ => false

/-- The database, and whether the new password is written. -/
abbrev World : Type := AuthWorld × Bool

def perform (c : AuthCall) (f : AuthOutcome) (w : World) : c.Reply × World :=
  ((c.perform f w.1).1, (c.perform f w.1).2, w.2 || setsPassword c f w.1.db)

/-- The request with the outcomes `σ` of its calls, and what it leaves behind. -/
def run (X : Crypto) (accountID recoveryCode newPassword : String) (w : AuthWorld)
    (σ : ℕ → AuthOutcome) : Except HTTPError String × World × (ℕ → AuthOutcome) :=
  eval (scripted perform) (LazGate.recover X accountID recoveryCode newPassword).run
    ((w, false), σ)

/-! ## The condition -/

/-- The request finds the account, its identity and a code that matches. -/
structure Reaches (X : Crypto) (accountID recoveryCode : String) (db : AuthDB)
    (σ : ℕ → AuthOutcome) (account : Account) (identity : AuthIdentity) (code : AuthRecoveryCode) :
    Prop where
  reads : ∀ n < 3, (σ n).fault = .none
  found : db.getAccount accountID = .ok account
  known : db.findActiveUserIdentityByAccountID account.id = .ok identity
  matched : (db.listAuthRecoveryCodes identity.id).find? (matchesCode X recoveryCode) = some code

/-- The code is not marked, and no session is revoked. -/
def Untaken (identity : AuthIdentity) (db : AuthDB) (σ : ℕ → AuthOutcome) : Prop :=
  (σ 3).fault = .early ∧ ((σ 4).fault ≠ .none ∨
    db.toSessionTables.revokeAuthSessionsByIdentityID identity.id = db.toSessionTables)

/-- The row of the password is written. For an identity that has none it gets an id that is not
taken. -/
def WritesRow (identity : AuthIdentity) (hash : String) (db : AuthDB) (σ : ℕ → AuthOutcome) :
    Prop :=
  (σ 0).fault = .none ∧
    match db.getAuthCredential identity.id .password with
    | .ok _ => (σ 1).fault ≠ .early
    | .error _ => (σ 2).fault = .none ∧ ∀ row ∈ db.credentials, row.id ≠
      (AuthCredential.withDefaults ⟨"", identity.id, .password, hash, 0, none, .active⟩
        (σ 1).text).id

/-- The password is written: it passes the rules, and no call fails up to its row. -/
def Writes (X : Crypto) (newPassword : String) (account : Account) (identity : AuthIdentity)
    (db : AuthDB) (σ : ℕ → AuthOutcome) : Prop :=
  validateUserPassword X account.username newPassword = .ok () ∧ (σ 0).fault = .none ∧
    (σ 1).fault = .none ∧ WritesRow identity (σ 1).text db fun n => σ (n + 2)

/-- A request that comes to mark a code leaves it and the sessions alone, or writes the password. -/
def Harmless (X : Crypto) (accountID recoveryCode newPassword : String) (db : AuthDB)
    (σ : ℕ → AuthOutcome) : Prop :=
  ∀ account identity code, Reaches X accountID recoveryCode db σ account identity code →
    Untaken identity db σ ∨ Writes X newPassword account identity db fun n => σ (n + 5)

/-! ## Calls -/

section Calls

variable {α : Type} {w : AuthWorld} {written : Bool} {σ : ℕ → AuthOutcome}

theorem eval_ask (c : AuthCall) :
    eval (scripted perform) (Prog.ask c) ((w, written), σ) =
      ((c.perform (σ 0) w).1, ((c.perform (σ 0) w).2, written || setsPassword c (σ 0) w.db),
        fun n => σ (n + 1)) := rfl

theorem perform_of_none (h : f.fault = .none) (w : AuthWorld) :
    c.perform f w = ((c.effect (w.clock + f.elapsed) f.text w.db).1,
      ⟨(c.effect (w.clock + f.elapsed) f.text w.db).2, w.clock + f.elapsed⟩) := by
  simp [AuthCall.perform, AuthCall.takesPlace, h]

theorem reply_of_fault {r : c.Reply} (hr : c.failed = some r) (h : f.fault ≠ .none)
    (w : AuthWorld) : (c.perform f w).1 = r := by
  simp [AuthCall.perform, h, hr]

theorem db_perform (h : c.writes = none) (f : AuthOutcome) (w : AuthWorld) :
    (c.perform f w).2.db = w.db := by
  change (if c.takesPlace f then (c.effect (w.clock + f.elapsed) f.text w.db).2 else w.db) = w.db
  split
  · cases c <;> first | rfl | cases h
  · rfl

theorem setsPassword_of_writes (h : c.writes ≠ some .credentials) :
    setsPassword c f db = false := by
  cases c
  case createAuthCredential => exact absurd rfl h
  case updateAuthCredential => exact absurd rfl h
  all_goals exact Bool.and_false _

/-- Once it is written it stays so. -/
theorem eval_written (p : Prog AuthCall AuthCall.Reply α) {s : World × (ℕ → AuthOutcome)}
    (h : s.1.2 = true) : (eval (scripted perform) p s).2.1.2 = true :=
  eval_keeps (K := fun _ => True) (I := fun s : World × (ℕ → AuthOutcome) => s.1.2 = true)
    (fun _ _ _ h => by simp [scripted, perform, h]) (Only.of_forall (fun _ => trivial) p) h

theorem eval_read (hc : c.writes = none) :
    eval (scripted perform) (Prog.ask c) ((w, written), σ) =
      ((c.perform (σ 0) w).1, (⟨w.db, w.clock + (σ 0).elapsed⟩, written), fun n => σ (n + 1)) := by
  have hdb : (c.perform (σ 0) w).2 = ⟨w.db, w.clock + (σ 0).elapsed⟩ :=
    congrArg (AuthWorld.mk · (w.clock + (σ 0).elapsed)) (db_perform hc (σ 0) w)
  rw [eval_ask, hdb, setsPassword_of_writes (by simp [hc]), Bool.or_false]

variable (w written σ) (id : String)

theorem eval_getAccount :
    eval (scripted perform) (getAccount id).run ((w, written), σ) =
      (if (σ 0).fault = .none then w.db.getAccount id else .error AuthCall.errDriver,
        (⟨w.db, w.clock + (σ 0).elapsed⟩, written), fun n => σ (n + 1)) :=
  eval_read (c := .getAccount id) rfl

theorem eval_findUser :
    eval (scripted perform) (findActiveUserIdentityByAccountID id).run ((w, written), σ) =
      (if (σ 0).fault = .none then w.db.findActiveUserIdentityByAccountID id
          else .error AuthCall.errDriver,
        (⟨w.db, w.clock + (σ 0).elapsed⟩, written), fun n => σ (n + 1)) :=
  eval_read (c := .findActiveUserIdentityByAccountID id) rfl

theorem eval_getAuthCredential :
    eval (scripted perform) (getAuthCredential id .password).run ((w, written), σ) =
      (if (σ 0).fault = .none then w.db.getAuthCredential id .password
        else .error AuthCall.errDriver,
        (⟨w.db, w.clock + (σ 0).elapsed⟩, written), fun n => σ (n + 1)) :=
  eval_read (c := .getAuthCredential id .password) rfl

theorem eval_generateFromPassword (password : String) :
    eval (scripted perform) (generateFromPassword password).run ((w, written), σ) =
      (if (σ 0).fault = .none then .ok (σ 0).text else .error AuthCall.errDriver,
        (⟨w.db, w.clock + (σ 0).elapsed⟩, written), fun n => σ (n + 1)) :=
  eval_read (c := .generateFromPassword password) rfl

theorem eval_newID :
    eval (scripted perform) (newID : AuthM String).run ((w, written), σ) =
      (.ok (σ 0).text, (⟨w.db, w.clock + (σ 0).elapsed⟩, written), fun n => σ (n + 1)) := by
  have hreply : (AuthCall.newID.perform (σ 0) w).1 = (σ 0).text := by
    cases hf : (σ 0).fault <;> simp [AuthCall.perform, hf, AuthCall.failed, AuthCall.effect]
  refine (eval_map _ _).trans ?_
  rw [eval_read rfl, hreply]

theorem eval_listAuthRecoveryCodes :
    eval (scripted perform)
      (listAuthRecoveryCodes id : Handler (List AuthRecoveryCode)).run ((w, written), σ) =
      (.ok (if (σ 0).fault = .none then w.db.listAuthRecoveryCodes id else []),
        (⟨w.db, w.clock + (σ 0).elapsed⟩, written), fun n => σ (n + 1)) := by
  refine (eval_map _ _).trans ?_
  rw [eval_read rfl]
  rfl

/-- A write that is not about passwords. -/
theorem eval_write (hc : c.writes ≠ some .credentials) :
    (eval (scripted perform) (Prog.ask c) ((w, written), σ)).2 =
      ((⟨if c.takesPlace (σ 0) then (c.effect (w.clock + (σ 0).elapsed) (σ 0).text w.db).2
          else w.db, w.clock + (σ 0).elapsed⟩, written), fun n => σ (n + 1)) := by
  rw [eval_ask, setsPassword_of_writes hc, Bool.or_false]
  rfl

end Calls

/-! ## After the mark -/

/-- The run has written the password if `P` holds, and has failed before it changes anything
otherwise. -/
structure Ends {ε α : Type} (P : Prop) (db : AuthDB)
    (r : Except ε α × World × (ℕ → AuthOutcome)) : Prop where
  written : P → r.2.1.2 = true
  failed : ¬ P → (∃ e, r.1 = .error e) ∧ r.2.1.2 = false ∧ r.2.1.1.db = db

section Ends

variable {ε ε' α β : Type} {P : Prop} {s : World × (ℕ → AuthOutcome)} {x : AuthProg ε α}

theorem Ends.andThen (h : Ends P db (eval (scripted perform) x.run s)) (g : α → AuthProg ε β) :
    Ends P db (eval (scripted perform) (x >>= g).run s) := by
  rw [eval_andThen]
  rcases hx : eval (scripted perform) x.run s with ⟨e | a, s'⟩
  · rw [hx] at h
    exact ⟨h.written, fun hP => ⟨⟨e, rfl⟩, (h.failed hP).2⟩⟩
  · rw [hx] at h
    refine ⟨fun hP => eval_written _ (h.written hP), fun hP => ?_⟩
    obtain ⟨⟨e, he⟩, -⟩ := h.failed hP
    cases he

theorem Ends.failAs (h : Ends P db (eval (scripted perform) x.run s)) (g : ε → ε') :
    Ends P db (eval (scripted perform) (failAs g x).run s) := by
  rw [eval_failAs]
  refine ⟨h.written, fun hP => ?_⟩
  obtain ⟨⟨e, he⟩, hrest⟩ := h.failed hP
  exact ⟨⟨g e, by rw [he]; rfl⟩, hrest⟩

theorem Ends.fail (hP : ¬ P) (hdb : s.1.1.db = db) (hunset : s.1.2 = false) (e : ε) :
    Ends P db ((.error e : Except ε α), s) :=
  ⟨fun h => absurd h hP, fun _ => ⟨⟨e, rfl⟩, hunset, hdb⟩⟩

theorem Ends.congr {Q : Prop} {r : Except ε α × World × (ℕ → AuthOutcome)} (h : Ends P db r)
    (hPQ : Q ↔ P) : Ends Q db r :=
  ⟨fun hQ => h.written (hPQ.1 hQ), fun hQ => h.failed (mt hPQ.2 hQ)⟩

end Ends

section Setup

variable {w : AuthWorld} {σ : ℕ → AuthOutcome}

/-- A credential is created for an identity that has none, if its id is new. -/
theorem create_ok_iff {identityID newID e : String}
    (hget : db.getAuthCredential identityID .password = .error e) (hash : String) :
    (db.createAuthCredential ⟨"", identityID, .password, hash, 0, none, .active⟩
        newID).1.toOption.isSome = true ↔
      ∀ row ∈ db.credentials, row.id ≠ (AuthCredential.withDefaults
        ⟨"", identityID, .password, hash, 0, none, .active⟩ newID).id := by
  have hnone : ∀ row ∈ db.credentials, ¬ (row.identityID = identityID ∧
      row.type = .password ∧ row.status ≠ .deleted) := by
    intro row hrow hother
    rw [AuthDB.getAuthCredential] at hget
    cases hf : db.credentials.find? (fun c => c.identityID == identityID &&
        c.type == .password && c.status != .deleted) with
    | none => simpa [hother] using List.find?_eq_none.1 hf row hrow
    | some c =>
      rw [hf] at hget
      cases hget
  rw [AuthDB.createAuthCredential]
  split
  · rename_i htaken
    obtain ⟨row, hrow, htaken⟩ := List.any_eq_true.1 htaken
    have hother := hnone row hrow
    refine iff_of_false (by simp [Except.toOption]) fun hnew => ?_
    have hid := hnew row hrow
    simp only [AuthCredential.withDefaults, Bool.or_eq_true, Bool.and_eq_true, beq_iff_eq,
      bne_iff_ne] at hid htaken
    tauto
  · rename_i hfree
    refine iff_of_true rfl fun row hrow hid => hfree (List.any_eq_true.2 ⟨row, hrow, ?_⟩)
    rw [beq_iff_eq.2 hid, Bool.true_or]

theorem ends_updateAuthCredential (credential : AuthCredential) (hdb : w.db = db) :
    Ends ((σ 0).fault ≠ .early) db
      (eval (scripted perform) (updateAuthCredential credential).run ((w, false), σ)) := by
  subst hdb
  change Ends _ w.db (eval (scripted perform)
    (Prog.ask (AuthCall.updateAuthCredential credential)) ((w, false), σ))
  rw [eval_ask]
  constructor
  · intro hfault
    cases hf : (σ 0).fault
    case early => exact absurd hf hfault
    all_goals simp [setsPassword, AuthCall.takesPlace, hf, AuthCall.readsBack]
  · intro hfault
    rw [not_not] at hfault
    refine ⟨⟨AuthCall.errDriver, reply_of_fault rfl (by simp [hfault]) w⟩, ?_, ?_⟩
    · simp [setsPassword, AuthCall.takesPlace, hfault, AuthCall.failed]
    · simp [AuthCall.perform, AuthCall.takesPlace, hfault, AuthCall.failed]

theorem ends_createAuthCredential {hash e : String} (hdb : w.db = db)
    (hget : db.getAuthCredential identity.id .password = .error e) :
    Ends ((σ 1).fault = .none ∧ ∀ row ∈ db.credentials, row.id ≠ (AuthCredential.withDefaults
        ⟨"", identity.id, .password, hash, 0, none, .active⟩ (σ 0).text).id) db
      (eval (scripted perform) (createAuthCredential
        ⟨"", identity.id, .password, hash, 0, none, .active⟩).run ((w, false), σ)) := by
  subst hdb
  rw [← create_ok_iff hget]
  generalize hrow : (⟨"", identity.id, .password, hash, 0, none, .active⟩ : AuthCredential) = row
  rw [createAuthCredential, eval_andThen, eval_newID]
  change Ends _ w.db (eval (scripted perform)
    (Prog.ask (AuthCall.createAuthCredential row (σ 0).text))
      ((⟨w.db, w.clock + (σ 0).elapsed⟩, false), fun n => σ (n + 1)))
  rw [eval_ask]
  constructor
  · rintro ⟨hfault, hok⟩
    simp [setsPassword, AuthCall.takesPlace, hfault, hok]
  · intro hnot
    by_cases hfault : (σ 1).fault = .none
    · have herror : ∃ e, w.db.createAuthCredential row (σ 0).text = (.error e, w.db) := by
        rw [AuthDB.createAuthCredential] at hnot ⊢
        split
        · exact ⟨_, rfl⟩
        · rename_i hfree
          rw [if_neg hfree] at hnot
          exact absurd ⟨hfault, rfl⟩ hnot
      obtain ⟨e, he⟩ := herror
      refine ⟨⟨e, ?_⟩, ?_, ?_⟩
      · simp [perform_of_none, hfault, AuthCall.effect, he]
      · simp [setsPassword, he, Except.toOption]
      · simp [perform_of_none, hfault, AuthCall.effect, he]
    · have hplace : (AuthCall.createAuthCredential row (σ 0).text).takesPlace (σ 1) = false := by
        cases hf : (σ 1).fault
        case none => exact absurd hf hfault
        all_goals simp [AuthCall.takesPlace, hf, AuthCall.failed, AuthCall.readsBack]
      refine ⟨⟨AuthCall.errDriver, reply_of_fault rfl hfault _⟩, ?_, ?_⟩
      · simp [setsPassword, hplace]
      · simp [AuthCall.perform, hplace]

theorem ends_setStrongPassword (identity : AuthIdentity) (hash : String) (hdb : w.db = db) :
    Ends (WritesRow identity hash db σ) db
      (eval (scripted perform) (setStrongPassword identity hash).run ((w, false), σ)) := by
  subst hdb
  rw [setStrongPassword, eval_andThen, eval_result, eval_getAuthCredential]
  dsimp only
  by_cases hread : (σ 0).fault = .none
  · simp only [if_pos hread]
    cases hget : w.db.getAuthCredential identity.id .password with
    | ok credential =>
      refine (ends_updateAuthCredential (credential.withPassword hash) ?_).congr ?_
      · rfl
      · simp [WritesRow, hread, hget]
    | error e =>
      have he : e = errNotFound := by
        rw [AuthDB.getAuthCredential] at hget
        cases hf : w.db.credentials.find? (fun c => c.identityID == identity.id &&
            c.type == .password && c.status != .deleted) with
        | none =>
          rw [hf] at hget
          exact (Except.error.inj hget).symm
        | some c =>
          rw [hf] at hget
          cases hget
      dsimp only
      rw [if_pos he]
      refine (ends_createAuthCredential ?_ hget).congr ?_
      · rfl
      · simp [WritesRow, hread, hget]
  · simp only [if_neg hread]
    rw [if_neg (by decide)]
    refine Ends.fail ?_ ?_ ?_ AuthCall.errDriver
    · exact fun h => hread h.1
    · rfl
    · rfl

theorem ends_setupStrongUser {password : String} (hdb : w.db = db)
    (hfind : db.findActiveUserIdentityByAccountID account.id = .ok identity) :
    Ends (Writes X password account identity db σ) db
      (eval (scripted perform) (setupStrongUser X account password).run ((w, false), σ)) := by
  subst hdb
  rw [setupStrongUser, eval_andThen, eval_ofExcept]
  cases hrules : validateUserPassword X account.username password with
  | error e =>
    refine Ends.fail ?_ ?_ ?_ e
    · rintro ⟨hvalid, -⟩
      exact nomatch hrules.symm.trans hvalid
    · rfl
    · rfl
  | ok _ =>
  dsimp only
  rw [eval_andThen, findOrCreateUserIdentity, eval_andThen, eval_result, eval_findUser, hfind]
  by_cases hread : (σ 0).fault = .none
  · simp only [if_pos hread]
    rw [eval_pure]
    dsimp only
    rw [eval_andThen, eval_generateFromPassword]
    by_cases hhash : (σ 1).fault = .none
    · simp only [Nat.zero_add, if_pos hhash]
      refine ((ends_setStrongPassword identity (σ 1).text ?_).andThen _).congr ?_
      · rfl
      · simp [Writes, hrules, hread, hhash]
    · simp only [Nat.zero_add, if_neg hhash]
      refine Ends.fail ?_ ?_ ?_ AuthCall.errDriver
      · exact fun h => hhash h.2.2.1
      · rfl
      · rfl
  · simp only [if_neg hread]
    rw [if_neg (by decide)]
    refine Ends.fail ?_ ?_ ?_ AuthCall.errDriver
    · exact fun h => hread h.2.1
    · rfl
    · rfl

end Setup

/-! ## The request -/

section Request

variable {w : AuthWorld} {σ : ℕ → AuthOutcome}

/-- The database once the code is marked and the sessions are revoked. -/
def taken (code : AuthRecoveryCode) (identity : AuthIdentity) (db : AuthDB) (f f' : AuthOutcome) :
    AuthDB :=
  let marked := if (AuthCall.markAuthRecoveryCodeUsed code.id).takesPlace f then
    (db.markAuthRecoveryCodeUsed code.id).2 else db
  if (AuthCall.revokeAuthSessionsByIdentityID identity.id).takesPlace f' then
    { marked with
      toSessionTables := marked.toSessionTables.revokeAuthSessionsByIdentityID identity.id }
  else marked

theorem same_taken (f f' : AuthOutcome) : NewPassword.Same db (taken code identity db f f') := by
  rw [taken]
  split <;> split <;> exact ⟨rfl, rfl, rfl⟩

theorem recoveryCodes_taken (f f' : AuthOutcome) :
    (taken code identity db f f').recoveryCodes =
      if f.fault = .early then db.recoveryCodes
      else (db.markAuthRecoveryCodeUsed code.id).2.recoveryCodes := by
  have hmark : (AuthCall.markAuthRecoveryCodeUsed code.id).takesPlace f =
      !decide (f.fault = .early) := by
    cases hf : f.fault <;> simp [AuthCall.takesPlace, hf, AuthCall.failed, AuthCall.readsBack]
  by_cases hearly : f.fault = .early <;> rw [taken] <;> split <;> simp [hmark, hearly]

theorem taken_of_early {f : AuthOutcome} (h : f.fault = .early) (f' : AuthOutcome) :
    taken code identity db f f' = if f'.fault = .none then
      { db with
        toSessionTables := db.toSessionTables.revokeAuthSessionsByIdentityID identity.id }
      else db := by
  cases hf : f'.fault <;>
    simp [taken, AuthCall.takesPlace, h, hf, AuthCall.failed, AuthCall.readsBack]

theorem taken_eq_iff (identity : AuthIdentity) (σ : ℕ → AuthOutcome)
    (hcode : code ∈ db.recoveryCodes)
    (hactive : code.status = .active) :
    taken code identity db (σ 3) (σ 4) = db ↔ Untaken identity db σ := by
  rw [Untaken]
  by_cases hearly : (σ 3).fault = .early
  · rw [taken_of_early hearly]
    split
    · rename_i hnone
      refine ⟨fun h => ⟨hearly, .inr (congrArg AuthDB.toSessionTables h)⟩, ?_⟩
      rintro ⟨-, hfault | hrevoke⟩
      · exact absurd hnone hfault
      · rw [hrevoke]
    · rename_i hfault
      exact iff_of_true rfl ⟨hearly, .inl hfault⟩
  · -- the row of the code is active before and deleted after
    refine iff_of_false (fun h => ?_) fun h => hearly h.1
    have hcodes := (recoveryCodes_taken (σ 3) (σ 4)).symm.trans (congrArg AuthDB.recoveryCodes h)
    rw [if_neg hearly] at hcodes
    have hrow := List.map_inj_left.1 (hcodes.trans (List.map_id _).symm) code hcode
    simp only [beq_self_eq_true, if_true, id] at hrow
    have hstatus := congrArg AuthRecoveryCode.status hrow
    rw [hactive] at hstatus
    cases hstatus

theorem ends_recoverWith (code : AuthRecoveryCode) (newPassword : String) (hdb : w.db = db)
    (hfind : db.findActiveUserIdentityByAccountID account.id = .ok identity) :
    Ends (Writes X newPassword account identity db fun n => σ (n + 2))
      (taken code identity db (σ 0) (σ 1))
      (eval (scripted perform) (recoverWith X account identity code newPassword).run
        ((w, false), σ)) := by
  subst hdb
  have hsame : NewPassword.Same w.db (taken code identity w.db (σ 0) (σ 1)) := same_taken _ _
  have hwrites : Writes X newPassword account identity w.db (fun n => σ (n + 2)) ↔
      Writes X newPassword account identity (taken code identity w.db (σ 0) (σ 1))
        fun n => σ (n + 2) := by
    rw [Writes, Writes, WritesRow, WritesRow, AuthDB.getAuthCredential, AuthDB.getAuthCredential,
      hsame.2.2]
  rw [recoverWith, eval_andThen, NewPassword.eval_ignoring, show
      (markAuthRecoveryCodeUsed code.id).run =
        Prog.ask (AuthCall.markAuthRecoveryCodeUsed code.id) from rfl,
    eval_write w false σ (by simp [AuthCall.writes])]
  dsimp only
  rw [eval_andThen, NewPassword.eval_ignoring, show
      (revokeAuthSessionsByIdentityID identity.id).run =
        Prog.ask (AuthCall.revokeAuthSessionsByIdentityID identity.id) from rfl,
    eval_write _ false _ (by simp [AuthCall.writes])]
  dsimp only
  refine (((ends_setupStrongUser ?_ ?_).failAs _).andThen _).congr hwrites
  · rfl
  · rw [AuthDB.findActiveUserIdentityByAccountID, hsame.2.1]
    exact hfind

/-- A request finds a code and goes on with it, or ends before it has written anything. -/
theorem run_cases (X : Crypto) (accountID recoveryCode newPassword : String) (w : AuthWorld)
    (σ : ℕ → AuthOutcome) :
    (∃ account identity code clock, Reaches X accountID recoveryCode w.db σ account identity code ∧
      run X accountID recoveryCode newPassword w σ =
        eval (scripted perform) (recoverWith X account identity code newPassword).run
          ((⟨w.db, clock⟩, false), fun n => σ (n + 3))) ∨
    (∀ account identity code, ¬ Reaches X accountID recoveryCode w.db σ account identity code) ∧
      (run X accountID recoveryCode newPassword w σ).2.1.1.db = w.db := by
  rw [run, LazGate.recover, eval_andThen, eval_failAs, eval_getAccount]
  by_cases h₀ : (σ 0).fault = .none
  swap
  · rw [if_neg h₀]
    exact .inr ⟨fun _ _ _ hr => h₀ (hr.reads 0 (by decide)), rfl⟩
  rw [if_pos h₀]
  cases haccount : w.db.getAccount accountID with
  | error e => exact .inr ⟨fun _ _ _ hr => (nomatch haccount.symm.trans hr.found), rfl⟩
  | ok account =>
  dsimp only [Except.mapError]
  rw [eval_andThen, eval_failAs, eval_findUser]
  by_cases h₁ : (σ 1).fault = .none
  swap
  · rw [if_neg h₁]
    exact .inr ⟨fun _ _ _ hr => h₁ (hr.reads 1 (by decide)), rfl⟩
  rw [if_pos h₁]
  cases hfind : w.db.findActiveUserIdentityByAccountID account.id with
  | error e =>
    refine .inr ⟨fun account' _ _ hr => ?_, rfl⟩
    obtain rfl := Except.ok.inj (haccount.symm.trans hr.found)
    exact nomatch hfind.symm.trans hr.known
  | ok identity =>
  dsimp only [Except.mapError]
  rw [eval_andThen, eval_listAuthRecoveryCodes]
  dsimp only
  have hsame : ∀ account' identity' code, Reaches X accountID recoveryCode w.db σ account'
      identity' code → (σ 2).fault = .none ∧
        (w.db.listAuthRecoveryCodes identity.id).find? (matchesCode X recoveryCode) =
          some code := by
    intro account' identity' code hr
    obtain rfl := Except.ok.inj (haccount.symm.trans hr.found)
    obtain rfl := Except.ok.inj (hfind.symm.trans hr.known)
    exact ⟨hr.reads 2 (by decide), hr.matched⟩
  by_cases h₂ : (σ 2).fault = .none
  swap
  · simp only [Nat.zero_add, Nat.reduceAdd, if_neg h₂]
    exact .inr ⟨fun _ _ _ hr => h₂ (hsame _ _ _ hr).1, rfl⟩
  simp only [Nat.zero_add, Nat.reduceAdd, if_pos h₂]
  cases hcode : (w.db.listAuthRecoveryCodes identity.id).find? (matchesCode X recoveryCode) with
  | none => exact .inr ⟨fun _ _ _ hr => (nomatch hcode.symm.trans (hsame _ _ _ hr).2), rfl⟩
  | some code =>
    refine .inl ⟨account, identity, code, _, ⟨fun n hn => ?_, haccount, hfind, hcode⟩, rfl⟩
    interval_cases n <;> assumption

/-- What a request finds is determined. -/
theorem harmless_iff (hr : Reaches X accountID recoveryCode db σ account identity code) :
    Harmless X accountID recoveryCode newPassword db σ ↔
      Untaken identity db σ ∨ Writes X newPassword account identity db fun n => σ (n + 5) := by
  refine ⟨fun h => h account identity code hr, fun h account' identity' _ hr' => ?_⟩
  obtain rfl := Except.ok.inj (hr.found.symm.trans hr'.found)
  obtain rfl := Except.ok.inj (hr.known.symm.trans hr'.known)
  exact h

end Request

end RejectedRecovery

open RejectedRecovery in
/-- A recovery that is rejected before the new password is written changes nothing just if it finds
no code, or fails to mark it and revokes nothing, or comes to write the password. -/
theorem rejected_recovery_iff (X : Crypto) (accountID recoveryCode newPassword : String)
    (w : AuthWorld) (σ : ℕ → AuthOutcome) :
    (∀ e, (run X accountID recoveryCode newPassword w σ).1 = .error e →
        (run X accountID recoveryCode newPassword w σ).2.1.2 = false →
        (run X accountID recoveryCode newPassword w σ).2.1.1.db = w.db) ↔
      Harmless X accountID recoveryCode newPassword w.db σ := by
  rcases run_cases X accountID recoveryCode newPassword w σ with
    ⟨account, identity, code, clock, hr, hrun⟩ | ⟨hr, hdb⟩
  · have hends := ends_recoverWith (X := X) (w := ⟨w.db, clock⟩) (σ := fun n => σ (n + 3)) code
      newPassword rfl hr.known
    rw [← hrun] at hends
    have hcode := List.find?_some hr.matched
    rw [matchesCode, Bool.and_eq_true, beq_iff_eq] at hcode
    have htaken := taken_eq_iff identity σ
      (List.mem_of_mem_filter (List.mem_of_find?_eq_some hr.matched)) hcode.1
    rw [harmless_iff hr, ← htaken]
    constructor
    · intro h
      by_cases hwrites : Writes X newPassword account identity w.db fun n => σ (n + 5)
      · exact .inr hwrites
      · obtain ⟨⟨e, he⟩, hunset, hdb⟩ := hends.failed hwrites
        exact .inl (hdb.symm.trans (h e he hunset))
    · intro h e _ hunset
      have hnot : ¬ Writes X newPassword account identity w.db fun n => σ (n + 5) := fun hwrites =>
        Bool.noConfusion (hunset.symm.trans (hends.written hwrites))
      exact (hends.failed hnot).2.2.trans (h.resolve_right hnot)
  · exact iff_of_true (fun _ _ _ => hdb) fun account identity code h =>
      absurd h (hr account identity code)

namespace RejectedRecoverySample

open RejectedRecovery

/-- One account with the recovery code `CODE` and a session. -/
def world : AuthWorld where
  db := { RecoverySample.db with
    sessions := [⟨"s", "i", "a", "#t", "", none, none, .active, none⟩] }
  clock := 0

/-- Every call succeeds but the `failing`-th. -/
def outcomes (failing : Option ℕ) (n : ℕ) : AuthOutcome :=
  ⟨0, if failing = some n then .early else .none, toString n⟩

/-- How a request ends, what it leaves of the codes and sessions, and whether it has written the
password. -/
def left (recoveryCode newPassword : String) (failing : Option ℕ) :
    Except HTTPError String × List Status × List Status × Bool :=
  let x := run .plain "a" recoveryCode newPassword world (outcomes failing)
  (x.1, x.2.1.1.db.recoveryCodes.map (·.status), x.2.1.1.db.sessions.map (·.status), x.2.1.2)

end RejectedRecoverySample

open RejectedRecovery RejectedRecoverySample in
/-- A password that is too short, and a password that cannot be hashed: the code is used and the
sessions are gone. A wrong code changes nothing. -/
theorem rejected_recovery_uses_code :
    left "code" "weak" none =
      (.error (badRequest "request failed"), [.deleted], [.deleted], false) ∧
    left "code" "s3cret!" (some 6) =
      (.error (badRequest "request failed"), [.deleted], [.deleted], false) ∧
    left "other" "s3cret!" none =
      (.error (unauthorized "invalid credentials"), [.active], [.active], false) := by
  decide +kernel

end LazGate
