import LazGate.Lib.Pool
import LazGate.Server.Auth.Client

/-!
# A recovery code works at most once

`recover` requests run side by side. A request lists the codes of the identity, looks for the one
that was presented, and marks it as used with a statement that does not look at its status. The
record keeps the requests whose code was found, and what they have done since.
-/

namespace LazGate

open Prog

/-! ## The system -/

structure RecoverRequest where
  accountID : String
  recoveryCode : String
  newPassword : String

/-- A request that has passed the code check: the row that it has found, whether it has marked it,
and whether it has set a new password. -/
structure Passage where
  request : ℕ
  accountID : String
  recoveryCode : String
  code : AuthRecoveryCode
  marked : Bool
  passwordSet : Bool
  deriving DecidableEq

structure RecoverLog where
  requests : ℕ → Option RecoverRequest
  passages : List Passage

namespace RecoverLog

def empty : RecoverLog := ⟨fun _ => none, []⟩

/-- The passage of the `i`-th request if it finds its code among these. -/
def passage (X : Crypto) (l : RecoverLog) (i : ℕ) (codes : List AuthRecoveryCode) :
    Option Passage :=
  (l.requests i).bind fun q =>
    (codes.find? (matchesCode X q.recoveryCode)).map fun code =>
      ⟨i, q.accountID, q.recoveryCode, code, false, false⟩

def withPassword (i : ℕ) (passages : List Passage) : List Passage :=
  Table.update (fun p => p.request == i) (fun p => { p with passwordSet := true }) passages

def withMark (i : ℕ) (id : String) (passages : List Passage) : List Passage :=
  Table.update (fun p => p.request == i && p.code.id == id) (fun p => { p with marked := true })
    passages

def passagesAfter (X : Crypto) (l : RecoverLog) (i : ℕ) (f : AuthOutcome) :
    (c : AuthCall) → c.Reply → List Passage
  | .listAuthRecoveryCodes _, codes => l.passages ++ (l.passage X i codes).toList
  | .markAuthRecoveryCodeUsed id, _ => withMark i id l.passages
  | .updateAuthCredential credential, _ =>
    if AuthCall.takesPlace (.updateAuthCredential credential) f then withPassword i l.passages
    else l.passages
  | .createAuthCredential .., .ok _ => withPassword i l.passages
  | _, _ => l.passages

end RecoverLog

structure RecoverWorld where
  auth : AuthWorld
  log : RecoverLog

def recoverSystem (X : Crypto) :
    PoolSystem AuthCall AuthCall.Reply AuthOutcome RecoverWorld Empty RecoverRequest Unit where
  perform i c f w := ((c.perform f w.auth).1, ⟨(c.perform f w.auth).2,
    { w.log with passages := w.log.passagesAfter X i f c (c.perform f w.auth).1 }⟩)
  act e _ := e.elim
  enter i q w := some { w with
    log := { w.log with requests := Function.update w.log.requests i (some q) } }
  prog q := (fun _ => ()) <$> Handler.serve
    (LazGate.recover X q.accountID q.recoveryCode q.newPassword)

/-! ## What a request may call -/

def RecoverWorld.Allows (w : RecoverWorld) (i : ℕ) : AuthCall → Prop
  | .listAuthRecoveryCodes id => ∃ q identity, w.log.requests i = some q ∧
      w.auth.db.findActiveUserIdentityByAccountID q.accountID = .ok identity ∧ identity.id = id
  | .updateAuthIdentity _ => False
  | _ => True

/-- A request counts on its own entry of the record, and on the identity of an account staying the
same. -/
structure RecoverRely (i : ℕ) (w w' : RecoverWorld) : Prop where
  request : w'.log.requests i = w.log.requests i
  identity : ∀ accountID identity,
    w.auth.db.findActiveUserIdentityByAccountID accountID = .ok identity →
    w'.auth.db.findActiveUserIdentityByAccountID accountID = .ok identity

def recoverProtocol (X : Crypto) : Pool.Protocol (recoverSystem X) where
  rely := RecoverRely
  refl _ _ := ⟨rfl, fun _ _ h => h⟩
  trans _ _ _ _ h h' := ⟨h'.request.trans h.request,
    fun accountID identity hi => h'.identity _ _ (h.identity accountID identity hi)⟩
  conf i c w := w.Allows i c

variable {identity : AuthIdentity} {accountID : String}

theorem AuthDB.find_createAuthIdentity {db : AuthDB}
    (h : db.findActiveUserIdentityByAccountID accountID = .ok identity) (x : AuthIdentity)
    (id : String) :
    (db.createAuthIdentity x id).2.findActiveUserIdentityByAccountID accountID = .ok identity := by
  rw [AuthDB.createAuthIdentity]
  split
  · exact h
  · refine orNotFound_eq_ok.2 ?_
    rw [List.find?_append, orNotFound_eq_ok.1 h]
    rfl

variable {w : RecoverWorld} {c : AuthCall} {i : ℕ}

theorem RecoverWorld.Allows.find_perform (hc : w.Allows i c) (f : AuthOutcome)
    (h : w.auth.db.findActiveUserIdentityByAccountID accountID = .ok identity) :
    (c.perform f w.auth).2.db.findActiveUserIdentityByAccountID accountID = .ok identity := by
  by_cases hw : c.writes = some .identities
  · cases c
    case createAuthIdentity x id =>
      change AuthDB.findActiveUserIdentityByAccountID accountID (ite _ _ _) = _
      split
      · exact AuthDB.find_createAuthIdentity h x id
      · exact h
    case updateAuthIdentity x => exact hc.elim
    all_goals exact absurd hw (by simp [AuthCall.writes])
  · rw [AuthDB.findActiveUserIdentityByAccountID, (c.frame_perform f w.auth).identities hw]
    exact h

/-- The calls that may be made anywhere. -/
def AuthCall.elsewhere : AuthCall → Bool
  | .listAuthRecoveryCodes _ | .updateAuthIdentity _ => false
  | _ => true

variable {f : AuthOutcome} {id : String}

section Requests

variable (X : Crypto) (K : ℕ → AuthCall → AuthOutcome → RecoverWorld → Prop) {i : ℕ}

theorem AuthCall.elsewhere_allows (h : c.elsewhere = true) (w : RecoverWorld) : w.Allows i c := by
  cases c
  case listAuthRecoveryCodes => cases h
  case updateAuthIdentity => cases h
  all_goals trivial

theorem safe_elsewhere {α : Type} {p : Prog AuthCall AuthCall.Reply α}
    (hp : Only (fun c => c.elsewhere = true) p) (w : RecoverWorld) :
    Safe ((recoverProtocol X).setting K i) p (fun _ _ => True) w :=
  (recoverProtocol X).safe_only K hp (fun _ _ _ _ => trivial)
    (fun _ _ _ hc _ => ⟨AuthCall.elsewhere_allows hc _, trivial⟩) trivial

theorem elsewhere_newID {ε : Type} :
    Only (fun c => c.elsewhere = true) (newID : AuthProg ε String).run :=
  Only.map (Only.ask rfl)

theorem elsewhere_createStrongSession (identity : AuthIdentity) (accountID : String) :
    Only (fun c => c.elsewhere = true) (createStrongSession X identity accountID).run := by
  refine Only.andThen (Only.ask rfl) fun _ => Only.andThen (Only.ask rfl) fun _ =>
    Only.andThen (Only.map (Only.ask rfl)) fun _ => Only.andThen ?_ fun _ => Only.ok
  exact Only.andThen elsewhere_newID fun _ => Only.andThen elsewhere_newID fun _ =>
    Only.andThen elsewhere_newID fun _ => Only.ask rfl

theorem elsewhere_setupStrongUser (account : Account) (password : String) :
    Only (fun c => c.elsewhere = true) (setupStrongUser X account password).run := by
  refine Only.check fun _ _ => Only.andThen ?_ fun identity =>
    Only.andThen (Only.ask rfl) fun hash => Only.andThen ?_ fun _ =>
      elsewhere_createStrongSession X identity account.id
  · refine Only.andThen (Only.result (Only.ask rfl)) ?_
    rintro (e | found)
    · change Only _ (ite _ _ _)
      split
      · exact Only.andThen elsewhere_newID fun _ => Only.ask rfl
      · exact Only.fail
    · exact Only.ok
  · refine Only.andThen (Only.result (Only.ask rfl)) ?_
    rintro (e | found)
    · change Only _ (ite _ _ _)
      split
      · exact Only.andThen elsewhere_newID fun _ => Only.ask rfl
      · exact Only.fail
    · exact Only.ask rfl

theorem elsewhere_recoverWith (account : Account) (identity : AuthIdentity)
    (code : AuthRecoveryCode) (newPassword : String) :
    Only (fun c => c.elsewhere = true)
      (recoverWith X account identity code newPassword).run := by
  refine Only.andThen (only_ignoring (Only.ask rfl)) fun _ =>
    Only.andThen (only_ignoring (Only.ask rfl)) fun _ =>
      Only.andThen (Only.failAs (elsewhere_setupStrongUser X account newPassword)) ?_
  rintro ⟨tokens, session⟩
  refine Only.andThen (Only.failAs (Only.ask rfl)) fun _ => Only.andThen (Only.failAs ?_)
    fun _ => Only.ok
  exact Only.andThen elsewhere_newID fun _ => Only.ask rfl

theorem AuthCall.getAccount_id {w : AuthWorld} {account : Account}
    (h : ((AuthCall.getAccount id).perform f w).1 = .ok account) : account.id = id := by
  obtain ⟨elapsed, fault, text⟩ := f
  cases fault with
  | early | late => cases h
  | none =>
    have h' : w.db.getAccount id = .ok account := h
    have hid := List.find?_some (orNotFound_eq_ok.1 h')
    exact eq_of_beq hid

theorem AuthCall.findActiveUser_eq {w : AuthWorld}
    (h : ((AuthCall.findActiveUserIdentityByAccountID id).perform f w).1 = .ok identity) :
    w.db.findActiveUserIdentityByAccountID id = .ok identity := by
  obtain ⟨elapsed, fault, text⟩ := f
  cases fault with
  | early | late => cases h
  | none => exact h

theorem safe_recover {q : RecoverRequest} (hw : w.log.requests i = some q) :
    Safe ((recoverProtocol X).setting K i)
      (LazGate.recover X q.accountID q.recoveryCode q.newPassword).run (fun _ _ => True) w := by
  refine Safe.andThen (Safe.failAs ((recoverProtocol X).safe_ask K fun w₁ hr₁ =>
    ⟨trivial, fun f₁ _ w₁' hr₁' => ?_⟩))
  have h₁ : w₁'.log.requests i = some q := hr₁'.request.trans (hr₁.request.trans hw)
  cases hreply : ((recoverSystem X).perform i (.getAccount q.accountID) f₁ w₁).1 with
  | error e => trivial
  | ok account =>
  have hid : account.id = q.accountID := AuthCall.getAccount_id hreply
  refine Safe.andThen (Safe.failAs ((recoverProtocol X).safe_ask K fun w₂ hr₂ =>
    ⟨trivial, fun f₂ _ w₂' hr₂' => ?_⟩))
  have h₂ : w₂'.log.requests i = some q := hr₂'.request.trans (hr₂.request.trans h₁)
  cases hfound : ((recoverSystem X).perform i (.findActiveUserIdentityByAccountID account.id) f₂
    w₂).1 with
  | error e => trivial
  | ok identity =>
  have hfind : w₂'.auth.db.findActiveUserIdentityByAccountID q.accountID = .ok identity := by
    refine hr₂'.identity _ _ ?_
    refine RecoverWorld.Allows.find_perform (i := i)
      (c := .findActiveUserIdentityByAccountID account.id) trivial f₂ ?_
    exact hid ▸ AuthCall.findActiveUser_eq hfound
  refine Safe.andThen (Safe.map ((recoverProtocol X).safe_ask K fun w₃ hr₃ =>
    ⟨⟨q, identity, hr₃.request.trans h₂, hr₃.identity _ _ hfind, rfl⟩, fun f₃ _ w₃' _ => ?_⟩))
  simp only [onOk_ok]
  split
  · exact Safe.fail fun _ _ => trivial
  · exact safe_elsewhere X K (elsewhere_recoverWith X _ _ _ _) _

end Requests

theorem recoverProtocol_kept (X : Crypto) (K : ℕ → AuthCall → AuthOutcome → RecoverWorld → Prop) :
    (recoverProtocol X).Kept K where
  act e := e.elim
  enter n q w w' he i hi := by
    cases he
    exact ⟨Function.update_of_ne hi.ne _ _, fun _ _ h => h⟩
  call i c f w j hj _ hc := ⟨rfl, fun _ _ h => hc.find_perform f h⟩
  prog n q w w' he := by
    cases he
    refine Safe.map (Safe.bind (Safe.mono (safe_recover X K (Function.update_self ..)) ?_))
    intro r w₁ _
    exact safe_elsewhere X K (Only.bind (Only.ask rfl) fun _ => Only.of_done _) w₁

/-! ## Codes are used once -/

def SameCode (r r' : AuthRecoveryCode) : Prop :=
  r.identityID = r'.identityID ∧ r.codeHash = r'.codeHash

instance (r r' : AuthRecoveryCode) : Decidable (SameCode r r') :=
  inferInstanceAs (Decidable (r.identityID = r'.identityID ∧ r.codeHash = r'.codeHash))

/-- Where a request lists the codes of an identity, every request that has found one of them has
marked it; the marking is not lost; and a new code is not one that the identity had before. -/
def RecoversAlone (_ : ℕ) (c : AuthCall) (f : AuthOutcome) (w : RecoverWorld) : Prop :=
  match c with
  | .listAuthRecoveryCodes id => ∀ p ∈ w.log.passages, p.code.identityID = id → p.marked = true
  | .markAuthRecoveryCodeUsed _ => f.fault ≠ .early
  | .createAuthRecoveryCode code _ => ∀ r ∈ w.auth.db.recoveryCodes, ¬ SameCode r code
  | _ => True

instance (i : ℕ) (c : AuthCall) (f : AuthOutcome) (w : RecoverWorld) :
    Decidable (RecoversAlone i c f w) := by
  apply AuthCall.casesOn (motive := fun c => Decidable (RecoversAlone i c f w)) c <;> intros <;>
    dsimp only [RecoversAlone] <;> infer_instance

/-- The invariant on the codes. -/
structure CodesKept (X : Crypto) (codes : List AuthRecoveryCode) (passages : List Passage) :
    Prop where
  presented : ∀ p ∈ passages, p.code.codeHash = recoveryCodeHash X p.recoveryCode
  stored : ∀ p ∈ passages, ∃ r ∈ codes, SameCode r p.code
  unique : ∀ r ∈ codes, ∀ r' ∈ codes, r.status = .active → r'.status = .active →
    SameCode r r' → r = r'
  /-- A code that was found and is still active has still to be marked. -/
  pending : ∀ p ∈ passages, ∀ r ∈ codes, SameCode r p.code → r.status = .active →
    p.marked = false ∧ r = p.code
  single : ∀ r, (passages.countP fun p => SameCode p.code r) ≤ 1

variable {p : Passage}

namespace CodesKept

variable {X : Crypto} {codes : List AuthRecoveryCode} {passages : List Passage}

section

variable (h : CodesKept X codes passages)

include h

theorem pass (hmem : p.code ∈ codes) (hactive : p.code.status = .active) (hm : p.marked = false)
    (hhash : p.code.codeHash = recoveryCodeHash X p.recoveryCode)
    (halone : ∀ p' ∈ passages, p'.code.identityID = p.code.identityID → p'.marked = true) :
    CodesKept X codes (passages ++ [p]) where
  presented p' hp' := by
    rcases List.mem_append.1 hp' with hp' | hp'
    · exact h.presented p' hp'
    · obtain rfl := List.mem_singleton.1 hp'
      exact hhash
  stored p' hp' := by
    rcases List.mem_append.1 hp' with hp' | hp'
    · exact h.stored p' hp'
    · obtain rfl := List.mem_singleton.1 hp'
      exact ⟨_, hmem, rfl, rfl⟩
  unique := h.unique
  pending p' hp' r hr hsame hract := by
    rcases List.mem_append.1 hp' with hp' | hp'
    · exact h.pending p' hp' r hr hsame hract
    · obtain rfl := List.mem_singleton.1 hp'
      exact ⟨hm, h.unique r hr _ hmem hract hactive hsame⟩
  single r := by
    rw [List.countP_append]
    by_cases hr : SameCode p.code r
    · -- the code is active, so nobody who found it before can have marked it
      have hnone : (passages.countP fun p' => SameCode p'.code r) = 0 := by
        rw [List.countP_eq_zero]
        intro p' hp' hsame
        have hsame : SameCode p'.code r := of_decide_eq_true hsame
        have hid : p'.code.identityID = p.code.identityID := hsame.1.trans hr.1.symm
        have hpend := h.pending p' hp' p.code hmem
          ⟨hid.symm, hr.2.trans hsame.2.symm⟩ hactive
        exact Bool.false_ne_true (hpend.1.symm.trans (halone p' hp' hid))
      rw [hnone, Nat.zero_add]
      exact List.countP_le_length
    · rw [List.countP_cons_of_neg (by simpa using hr)]
      exact h.single r

theorem single_update {g : Passage → Bool} {f : Passage → Passage} (hf : ∀ p, (f p).code = p.code)
    (r : AuthRecoveryCode) :
    ((Table.update g f passages).countP fun p => SameCode p.code r) ≤ 1 := by
  rw [Table.update, List.countP_map]
  refine (List.countP_congr fun p _ => ?_).trans_le (h.single r)
  rw [Function.comp_apply]
  split
  · rw [hf]
  · rfl

theorem setPassword (i : ℕ) :
    CodesKept X codes (RecoverLog.withPassword i passages) where
  presented p hp := by
    obtain ⟨p₀, hp₀, rfl⟩ := Table.mem_update.1 hp
    split <;> exact h.presented p₀ hp₀
  stored p hp := by
    obtain ⟨p₀, hp₀, rfl⟩ := Table.mem_update.1 hp
    split <;> exact h.stored p₀ hp₀
  unique := h.unique
  pending p hp := by
    obtain ⟨p₀, hp₀, rfl⟩ := Table.mem_update.1 hp
    split <;> exact h.pending p₀ hp₀
  single := h.single_update fun _ => rfl

theorem mark (i : ℕ) (id : String) :
    CodesKept X
      (Table.update (fun c => c.id == id) (fun c => { c with status := .deleted }) codes)
      (RecoverLog.withMark i id passages) where
  presented p hp := by
    obtain ⟨p₀, hp₀, rfl⟩ := Table.mem_update.1 hp
    split <;> exact h.presented p₀ hp₀
  stored p hp := by
    obtain ⟨p₀, hp₀, rfl⟩ := Table.mem_update.1 hp
    obtain ⟨r, hr, hsame⟩ := h.stored p₀ hp₀
    refine ⟨_, Table.mem_update_of_mem hr, ?_⟩
    split <;> split <;> exact hsame
  unique r hr r' hr' hact hact' hsame := by
    obtain ⟨r₀, hr₀, rfl⟩ := Table.mem_update.1 hr
    obtain ⟨r₀', hr₀', rfl⟩ := Table.mem_update.1 hr'
    split at hact
    · cases hact
    split at hact'
    · cases hact'
    rename_i hne hne'
    rw [if_neg hne, if_neg hne'] at hsame ⊢
    exact h.unique r₀ hr₀ r₀' hr₀' hact hact' hsame
  pending p hp r hr hsame hact := by
    obtain ⟨p₀, hp₀, rfl⟩ := Table.mem_update.1 hp
    obtain ⟨r₀, hr₀, rfl⟩ := Table.mem_update.1 hr
    split at hact
    · cases hact
    rename_i hne
    rw [if_neg hne] at hsame ⊢
    have hsame₀ : SameCode r₀ p₀.code := by
      split at hsame <;> exact hsame
    obtain ⟨hm, hcode⟩ := h.pending p₀ hp₀ r₀ hr₀ hsame₀ hact
    -- the passage is not one of those that are being marked
    have hother : ¬ (p₀.request == i && p₀.code.id == id) = true := by
      intro heq
      rw [← hcode, Bool.and_eq_true] at heq
      exact hne heq.2
    rw [if_neg hother]
    exact ⟨hm, hcode⟩
  single := h.single_update fun _ => rfl

theorem insert {row : AuthRecoveryCode} (hfresh : ∀ r ∈ codes, ¬ SameCode r row) :
    CodesKept X (codes ++ [row]) passages where
  presented := h.presented
  stored p hp := by
    obtain ⟨r, hr, hsame⟩ := h.stored p hp
    exact ⟨r, List.mem_append_left _ hr, hsame⟩
  unique r hr r' hr' hact hact' hsame := by
    rcases List.mem_append.1 hr with hold | hnew <;>
      rcases List.mem_append.1 hr' with hold' | hnew'
    · exact h.unique r hold r' hold' hact hact' hsame
    · obtain rfl := List.mem_singleton.1 hnew'
      exact absurd hsame (hfresh r hold)
    · obtain rfl := List.mem_singleton.1 hnew
      exact absurd ⟨hsame.1.symm, hsame.2.symm⟩ (hfresh r' hold')
    · exact (List.mem_singleton.1 hnew).trans (List.mem_singleton.1 hnew').symm
  pending p hp r hr hsame hact := by
    rcases List.mem_append.1 hr with hr | hr
    · exact h.pending p hp r hr hsame hact
    · obtain rfl := List.mem_singleton.1 hr
      obtain ⟨r₀, hr₀, hsame₀⟩ := h.stored p hp
      exact absurd ⟨hsame₀.1.trans hsame.1.symm, hsame₀.2.trans hsame.2.symm⟩ (hfresh r₀ hr₀)
  single := h.single

end

end CodesKept

theorem AuthCall.mem_listAuthRecoveryCodes {w : AuthWorld} {code : AuthRecoveryCode}
    (h : code ∈ ((AuthCall.listAuthRecoveryCodes id).perform f w).1) :
    code ∈ w.db.recoveryCodes ∧ code.identityID = id := by
  obtain ⟨elapsed, fault, text⟩ := f
  cases fault with
  | early | late => exact absurd h List.not_mem_nil
  | none =>
    have h' : code ∈ w.db.listAuthRecoveryCodes id := h
    exact ⟨(List.mem_filter.1 h').1, eq_of_beq (List.mem_filter.1 h').2⟩

theorem AuthCall.perform_createAuthRecoveryCode (code : AuthRecoveryCode) (id : String)
    (f : AuthOutcome) (w : AuthWorld) :
    ((AuthCall.createAuthRecoveryCode code id).perform f w).2.db.recoveryCodes =
        w.db.recoveryCodes ∨
      ((AuthCall.createAuthRecoveryCode code id).perform f w).2.db.recoveryCodes =
        w.db.recoveryCodes ++ [code.withDefaults id] := by
  change AuthDB.recoveryCodes (ite _ _ _) = _ ∨ AuthDB.recoveryCodes (ite _ _ _) = _
  split
  · change (w.db.createAuthRecoveryCode code id).2.recoveryCodes = _ ∨
      (w.db.createAuthRecoveryCode code id).2.recoveryCodes = _
    rw [AuthDB.createAuthRecoveryCode]
    split
    · exact .inl rfl
    · exact .inr rfl
  · exact .inl rfl

variable {X : Crypto} {l : RecoverLog}

theorem RecoverLog.passage_eq_some {codes : List AuthRecoveryCode}
    (h : l.passage X i codes = some p) :
    ∃ q code, l.requests i = some q ∧ code ∈ codes ∧ matchesCode X q.recoveryCode code = true ∧
      p = ⟨i, q.accountID, q.recoveryCode, code, false, false⟩ := by
  obtain ⟨q, hq, hp⟩ := Option.bind_eq_some_iff.1 h
  obtain ⟨code, hfind, rfl⟩ := Option.map_eq_some_iff.1 hp
  exact ⟨q, code, hq, List.mem_of_find?_eq_some hfind, List.find?_some hfind, rfl⟩

structure RecoveryKept (X : Crypto) (w : RecoverWorld) : Prop where
  codes : CodesKept X w.auth.db.recoveryCodes w.log.passages
  identity : ∀ p ∈ w.log.passages, ∃ identity,
    w.auth.db.findActiveUserIdentityByAccountID p.accountID = .ok identity ∧
      identity.id = p.code.identityID

theorem CodesKept.call (h : CodesKept X w.auth.db.recoveryCodes w.log.passages)
    (hk : RecoversAlone i c f w) :
    CodesKept X ((recoverSystem X).perform i c f w).2.auth.db.recoveryCodes
      ((recoverSystem X).perform i c f w).2.log.passages := by
  change CodesKept X (c.perform f w.auth).2.db.recoveryCodes
    (w.log.passagesAfter X i f c (c.perform f w.auth).1)
  by_cases hcodes : c.writes = some .recoveryCodes
  · cases c
    case createAuthRecoveryCode code id =>
      rcases AuthCall.perform_createAuthRecoveryCode code id f w.auth with he | he <;> rw [he]
      · exact h
      · exact h.insert hk
    case markAuthRecoveryCodeUsed id =>
      have htakes : AuthCall.takesPlace (.markAuthRecoveryCodeUsed id) f = true := by
        obtain ⟨elapsed, fault, text⟩ := f
        cases fault with
        | none => rfl
        | early => exact absurd rfl hk
        | late => rfl
      have hdb : ((AuthCall.markAuthRecoveryCodeUsed id).perform f w.auth).2.db =
          (w.auth.db.markAuthRecoveryCodeUsed id).2 := if_pos htakes
      rw [hdb]
      exact h.mark i id
    all_goals exact absurd hcodes (by simp [AuthCall.writes])
  · rw [(c.frame_perform f w.auth).recoveryCodes hcodes]
    cases c
    case listAuthRecoveryCodes id =>
      change CodesKept X _ (w.log.passages ++ (w.log.passage X i
        ((AuthCall.listAuthRecoveryCodes id).perform f w.auth).1).toList)
      cases hp : w.log.passage X i ((AuthCall.listAuthRecoveryCodes id).perform f w.auth).1 with
      | none => simpa using h
      | some p =>
        obtain ⟨q, code, -, hmem, hmatch, rfl⟩ := RecoverLog.passage_eq_some hp
        obtain ⟨hstored, hid⟩ := AuthCall.mem_listAuthRecoveryCodes hmem
        rw [matchesCode, Bool.and_eq_true, beq_iff_eq, beq_iff_eq] at hmatch
        refine h.pass hstored hmatch.1 rfl hmatch.2 fun p' hp' hp'id => ?_
        exact hk p' hp' (hp'id.trans hid)
    case markAuthRecoveryCodeUsed => exact absurd rfl hcodes
    case updateAuthCredential credential =>
      change CodesKept X _ (ite _ _ _)
      split
      · exact h.setPassword i
      · exact h
    case createAuthCredential credential id =>
      cases ((AuthCall.createAuthCredential credential id).perform f w.auth).1 with
      | error e => exact h
      | ok row => exact h.setPassword i
    all_goals exact h

/-- Only a list of codes adds a passage; the other calls change no account and no code of one. -/
theorem mem_passagesAfter {reply : c.Reply} (hc : ∀ id, c ≠ .listAuthRecoveryCodes id)
    (h : p ∈ l.passagesAfter X i f c reply) :
    ∃ p₀ ∈ l.passages, p.accountID = p₀.accountID ∧ p.code = p₀.code := by
  have hstay : p ∈ l.passages → ∃ p₀ ∈ l.passages, p.accountID = p₀.accountID ∧ p.code = p₀.code :=
    fun hp => ⟨p, hp, rfl, rfl⟩
  have hupdate : ∀ {g : Passage → Bool} {u : Passage → Passage}, p ∈ Table.update g u l.passages →
      (∀ p, (u p).accountID = p.accountID ∧ (u p).code = p.code) →
      ∃ p₀ ∈ l.passages, p.accountID = p₀.accountID ∧ p.code = p₀.code := by
    intro g u hp hu
    obtain ⟨p₀, hp₀, rfl⟩ := Table.mem_update.1 hp
    refine ⟨p₀, hp₀, ?_⟩
    split
    · exact hu p₀
    · exact ⟨rfl, rfl⟩
  cases c
  case listAuthRecoveryCodes id => exact absurd rfl (hc id)
  case markAuthRecoveryCodeUsed id => exact hupdate h fun _ => ⟨rfl, rfl⟩
  case updateAuthCredential credential =>
    change p ∈ ite _ _ _ at h
    split at h
    · exact hupdate h fun _ => ⟨rfl, rfl⟩
    · exact hstay h
  case createAuthCredential credential id =>
    cases reply with
    | error e => exact hstay h
    | ok row => exact hupdate h fun _ => ⟨rfl, rfl⟩
  all_goals exact hstay h

theorem RecoveryKept.call (h : RecoveryKept X w) (hk : RecoversAlone i c f w) (hc : w.Allows i c) :
    RecoveryKept X ((recoverSystem X).perform i c f w).2 where
  codes := h.codes.call hk
  identity p hp := by
    have hold : ∀ p₀ ∈ w.log.passages, p.accountID = p₀.accountID → p.code = p₀.code →
        ∃ identity, (c.perform f w.auth).2.db.findActiveUserIdentityByAccountID p.accountID =
          .ok identity ∧ identity.id = p.code.identityID := by
      intro p₀ hp₀ haccount hcode
      obtain ⟨identity, hfind, hid⟩ := h.identity p₀ hp₀
      rw [haccount, hcode]
      exact ⟨identity, hc.find_perform f hfind, hid⟩
    by_cases hlist : ∃ id, c = .listAuthRecoveryCodes id
    · obtain ⟨id, rfl⟩ := hlist
      rcases List.mem_append.1 hp with hp | hp
      · exact hold p hp rfl rfl
      · obtain ⟨q, code, hq, hmem, -, rfl⟩ := RecoverLog.passage_eq_some (Option.mem_toList.1 hp)
        obtain ⟨q', identity, hq', hfind, hid⟩ := hc
        obtain rfl := Option.some.inj (hq'.symm.trans hq)
        refine ⟨identity, ?_, hid.trans (AuthCall.mem_listAuthRecoveryCodes hmem).2.symm⟩
        exact RecoverWorld.Allows.find_perform (i := i)
          (c := .listAuthRecoveryCodes id) ⟨q', identity, hq', hfind, hid⟩ f hfind
    · obtain ⟨p₀, hp₀, haccount, hcode⟩ := mem_passagesAfter (fun id he => hlist ⟨id, he⟩) hp
      exact hold p₀ hp₀ haccount hcode

/-- A request that set a new password with a text for the code of an account. -/
def Passage.sets (X : Crypto) (accountID recoveryCode : String) (p : Passage) : Bool :=
  p.accountID == accountID &&
    recoveryCodeHash X p.recoveryCode == recoveryCodeHash X recoveryCode && p.passwordSet

/-- Two requests with texts for one code of one account are two passages for one code. -/
theorem RecoveryKept.single (h : RecoveryKept X w) (accountID recoveryCode : String) :
    w.log.passages.countP (Passage.sets X accountID recoveryCode) ≤ 1 := by
  by_cases hany : ∃ p ∈ w.log.passages, p.sets X accountID recoveryCode = true
  · obtain ⟨p, hp, hsets⟩ := hany
    simp only [Passage.sets, Bool.and_eq_true, beq_iff_eq] at hsets
    refine (List.countP_mono_left fun p' hp' heq => ?_).trans (h.codes.single p.code)
    simp only [Passage.sets, Bool.and_eq_true, beq_iff_eq] at heq
    obtain ⟨identity, hfind, hid⟩ := h.identity p hp
    obtain ⟨identity', hfind', hid'⟩ := h.identity p' hp'
    rw [heq.1.1, ← hsets.1.1, hfind] at hfind'
    cases hfind'
    refine decide_eq_true ⟨hid'.symm.trans hid, ?_⟩
    rw [h.codes.presented p hp, h.codes.presented p' hp', heq.1.2, hsets.1.2]
  · have hzero : w.log.passages.countP (Passage.sets X accountID recoveryCode) = 0 :=
      List.countP_eq_zero.2 fun p hp hsets => hany ⟨p, hp, hsets⟩
    rw [hzero]
    exact Nat.zero_le 1

/-- While nobody looks for a code between another request's search and its marking, of the requests
with texts for one code of one account at most one sets a new password. -/
theorem recovery_code_works_once (X : Crypto) (w : AuthWorld)
    (hunique : ∀ r ∈ w.db.recoveryCodes, ∀ r' ∈ w.db.recoveryCodes, r.status = .active →
      r'.status = .active → SameCode r r' → r = r')
    (es : List (Pool.Event AuthOutcome Empty RecoverRequest))
    (s : Pool.Config AuthCall AuthCall.Reply RecoverWorld Unit)
    (halone : Along (Pool.step (recoverSystem X)) (Pool.Calls RecoversAlone) ⟨⟨w, .empty⟩, []⟩ es)
    (hs : runs (Pool.step (recoverSystem X)) ⟨⟨w, .empty⟩, []⟩ es = some s)
    (accountID recoveryCode : String) :
    s.world.log.passages.countP (Passage.sets X accountID recoveryCode) ≤ 1 := by
  have h := (recoverProtocol_kept X RecoversAlone).runs (I := RecoveryKept X) (fun e => e.elim) ?_
    (fun i c f w h hk hc => h.call hk hc) halone hs ?_
  · exact h.single accountID recoveryCode
  · rintro n q w w' h he
    cases he
    exact ⟨h.codes, h.identity⟩
  · exact ⟨⟨fun p hp => absurd hp List.not_mem_nil, fun p hp => absurd hp List.not_mem_nil, hunique,
      fun p hp => absurd hp List.not_mem_nil, fun _ => Nat.zero_le 1⟩,
      fun p hp => absurd hp List.not_mem_nil⟩

namespace RecoverySample

/-- One account with the recovery code `CODE`. -/
def db : AuthDB :=
  { AuthDB.empty with
    accounts := [⟨"a", "ann", .active⟩]
    identities := [⟨"i", .user, "ann", "", "a", .active, false⟩]
    credentials := [⟨"c", "i", .password, "#old", 0, none, .active⟩]
    recoveryCodes := [⟨"r", "i", "#CODE", .active⟩] }

def request (recoveryCode newPassword : String) : RecoverRequest :=
  ⟨"a", recoveryCode, newPassword⟩

/-- Calls of the `i`-th request; what is drawn at random has the number in it. -/
def calls (i n : ℕ) : List (Pool.Event AuthOutcome Empty RecoverRequest) :=
  (List.range n).map fun k => .call i ⟨0, .none, toString i ++ "-" ++ toString k⟩

def config : Pool.Config AuthCall AuthCall.Reply RecoverWorld Unit := ⟨⟨⟨db, 0⟩, .empty⟩, []⟩

def outcome (es : List (Pool.Event AuthOutcome Empty RecoverRequest)) :
    Option (List (ℕ × String × String × Bool)) :=
  (runs (Pool.step (recoverSystem .plain)) config es).map fun s =>
    s.world.log.passages.map fun p => (p.request, p.accountID, p.recoveryCode, p.passwordSet)

/-- Both requests list the codes before either of them marks the one that they find. -/
def together : List (Pool.Event AuthOutcome Empty RecoverRequest) :=
  [.start (request "code" "s3cret!"), .start (request "code" "0ther-one")] ++ calls 0 3 ++
    calls 1 3 ++ calls 0 6 ++ calls 1 6

def inTurn : List (Pool.Event AuthOutcome Empty RecoverRequest) :=
  [.start (request "code" "s3cret!"), .start (request " CODE" "0ther-one")] ++ calls 0 9 ++
    calls 1 4

end RecoverySample

open RecoverySample in
theorem recovery_code_works_twice :
    outcome together = some [(0, "a", "code", true), (1, "a", "code", true)] := by
  decide +kernel

open RecoverySample in
/-- One after the other: the second request, with another text for it, does not find the code. -/
theorem recovery_code_works_once_in_turn :
    ∃ s, runs (Pool.step (recoverSystem .plain)) config inTurn = some s ∧
      s.world.log.passages.length = 1 ∧
      s.world.log.passages.countP (Passage.sets .plain "a" " CODE") ≤ 1 := by
  have hout : outcome inTurn = some [(0, "a", "code", true)] := by decide +kernel
  obtain ⟨s, hs, hpassed⟩ := Option.map_eq_some_iff.1 hout
  refine ⟨s, hs, ?_, recovery_code_works_once .plain ⟨db, 0⟩ (by decide) inTurn s
    (by decide +kernel) hs "a" " CODE"⟩
  have hlen := congrArg List.length hpassed
  rwa [List.length_map] at hlen

end LazGate
