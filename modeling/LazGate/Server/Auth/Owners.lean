import LazGate.Lib.Pool
import LazGate.Server.Auth.Admin

/-!
# There is always an active owner

`updateAdmin` requests run side by side. Each checks that an active owner remains and then writes
the identity and the profile with two statements, any of which may fail.
-/

namespace LazGate

open Prog

/-! ## The system -/

structure UpdateAdminRequest where
  id : String
  input : UpdateAdminInput

/-- The database, and the requests that have made a call and have not responded yet. -/
structure OwnerWorld where
  auth : AuthWorld
  underWay : Pool.Board Unit

def underWayAfter : AuthCall → Option Unit
  | .respond _ => none
  | _ => some ()

def ownerSystem :
    PoolSystem AuthCall AuthCall.Reply AuthOutcome OwnerWorld Empty UpdateAdminRequest Unit where
  perform i c f w := ((c.perform f w.auth).1,
    ⟨(c.perform f w.auth).2, w.underWay.set i (underWayAfter c)⟩)
  act e _ := e.elim
  enter i _ w := some { w with underWay := w.underWay.set i none }
  prog q := (fun _ => ()) <$> Handler.serve (updateAdmin q.id q.input)

def AuthDB.IsOwner (db : AuthDB) (i : AuthIdentity) : Prop :=
  i ∈ db.identities ∧ i.kind = .admin ∧ i.status = .active ∧
    ∃ p ∈ db.profiles, p.identityID = i.id ∧ p.role = .owner ∧ p.status = .active

/-- The profiles are told apart by their ids, and there is an active owner. -/
structure AuthDB.Owned (db : AuthDB) : Prop where
  keyed : Table.Keyed AdminProfile.id db.profiles
  owner : ∃ i, db.IsOwner i

/-- There is an active owner other than the administrator `id`. -/
def AuthDB.OwnedBeside (id : String) (db : AuthDB) : Prop :=
  ∃ i, i.id ≠ id ∧ db.IsOwner i

def AuthCall.writesAdmin (c : AuthCall) : Prop :=
  c.writes = some .identities ∨ c.writes = some .profiles

instance (c : AuthCall) : Decidable c.writesAdmin :=
  inferInstanceAs (Decidable (c.writes = some .identities ∨ c.writes = some .profiles))

/-- Where a request writes an identity or a profile, no other request is under way. -/
def UpdatesAlone (i : ℕ) (c : AuthCall) (_ : AuthOutcome) (w : OwnerWorld) : Prop :=
  c.writesAdmin → w.underWay.Others i fun _ => False

instance (i : ℕ) (c : AuthCall) (f : AuthOutcome) (w : OwnerWorld) :
    Decidable (UpdatesAlone i c f w) :=
  inferInstanceAs (Decidable (c.writesAdmin → w.underWay.Others i fun _ => False))

/-! ## What a write may do to the owners -/

section Writes

variable {db db' : AuthDB} {id : String} {i : AuthIdentity}

theorem AuthDB.IsOwner.congr (h : db.IsOwner i) (hi : db'.identities = db.identities)
    (hp : db'.profiles = db.profiles) : db'.IsOwner i := by
  rw [IsOwner, hi, hp]
  exact h

theorem AuthDB.Owned.congr (h : db.Owned) (hi : db'.identities = db.identities)
    (hp : db'.profiles = db.profiles) : db'.Owned := by
  obtain ⟨i, ho⟩ := h.owner
  exact ⟨hp ▸ h.keyed, i, ho.congr hi hp⟩

theorem AuthDB.IsOwner.updateIdentity (h : db.IsOwner i) (x : AuthIdentity) (hne : i.id ≠ x.id) :
    (db.updateAuthIdentity x).2.IsOwner i := by
  rw [AuthDB.updateAuthIdentity]
  split
  · exact h
  · obtain ⟨hi, hrest⟩ := h
    have hmem := Table.mem_update_of_mem (p := fun i => i.id == x.id) (f := AuthDB.setIdentity x) hi
    rw [if_neg (by simpa using hne)] at hmem
    exact ⟨hmem, hrest⟩

theorem AuthDB.Owned.updateIdentity (h : db.Owned) {x : AuthIdentity}
    (hx : x.status = .active ∨ db.OwnedBeside x.id) : (db.updateAuthIdentity x).2.Owned := by
  have hprofiles : (db.updateAuthIdentity x).2.profiles = db.profiles := by
    rw [AuthDB.updateAuthIdentity]
    split <;> rfl
  refine ⟨hprofiles ▸ h.keyed, ?_⟩
  rcases hx with hx | ⟨i, hne, ho⟩
  · obtain ⟨i, ho⟩ := h.owner
    by_cases he : i.id = x.id
    · -- the owner itself is written, and stays active
      rw [AuthDB.updateAuthIdentity]
      split
      · exact ⟨i, ho⟩
      · have hmem := Table.mem_update_of_mem (p := fun i => i.id == x.id)
          (f := AuthDB.setIdentity x) ho.1
        rw [if_pos (beq_iff_eq.2 he)] at hmem
        exact ⟨AuthDB.setIdentity x i, hmem, ho.2.1, hx, ho.2.2.2⟩
    · exact ⟨i, ho.updateIdentity x he⟩
  · exact ⟨i, ho.updateIdentity x hne⟩

theorem AuthDB.IsOwner.updateProfile (h : db.IsOwner i)
    (hkeyed : Table.Keyed AdminProfile.id db.profiles) {p x : AdminProfile} (hp : p ∈ db.profiles)
    (hid : p.id = x.id) (hne : i.id ≠ p.identityID) : (db.updateAdminProfile x).2.IsOwner i := by
  obtain ⟨hi, hkind, hact, p₀, hp₀, hown, hrest⟩ := h
  have hne₀ : p₀.id ≠ x.id := by
    intro he
    obtain rfl := hkeyed.eq_of_mem hp₀ hp (he.trans hid.symm)
    exact hne hown.symm
  have hmem := Table.mem_update_of_mem (p := fun p => p.id == x.id)
    (f := fun p => { p with role := x.role, status := x.status }) hp₀
  rw [if_neg (by simpa using hne₀)] at hmem
  exact ⟨hi, hkind, hact, p₀, hmem, hown, hrest⟩

theorem AuthDB.Owned.updateProfile (h : db.Owned) {p x : AdminProfile} (hp : p ∈ db.profiles)
    (hid : p.id = x.id) (hx : (x.role = .owner ∧ x.status = .active ∧
      ∃ i ∈ db.identities, i.id = p.identityID ∧ i.kind = .admin ∧ i.status = .active) ∨
      db.OwnedBeside p.identityID) : (db.updateAdminProfile x).2.Owned := by
  refine ⟨h.keyed.update fun _ => rfl, ?_⟩
  rcases hx with ⟨hrole, hstatus, i, hi, hown, hkind, hact⟩ | ⟨i, hne, ho⟩
  · have hmem := Table.mem_update_of_mem (p := fun p => p.id == x.id)
      (f := fun p => { p with role := x.role, status := x.status }) hp
    rw [if_pos (beq_iff_eq.2 hid)] at hmem
    exact ⟨i, hi, hkind, hact, _, hmem, hown.symm, hrole, hstatus⟩
  · exact ⟨i, ho.updateProfile h.keyed hp hid hne⟩

end Writes

/-! ## Each request keeps an owner -/

/-- While a request is under way it counts on the identities and the profiles. -/
structure OwnerRely (i : ℕ) (w w' : OwnerWorld) : Prop where
  underWay : w'.underWay i = w.underWay i
  identities : w.underWay i = some () → w'.auth.db.identities = w.auth.db.identities
  profiles : w.underWay i = some () → w'.auth.db.profiles = w.auth.db.profiles

theorem OwnerRely.trans {i : ℕ} {w₁ w₂ w₃ : OwnerWorld} (h : OwnerRely i w₁ w₂)
    (h' : OwnerRely i w₂ w₃) : OwnerRely i w₁ w₃ where
  underWay := h'.underWay.trans h.underWay
  identities hu := (h'.identities (h.underWay.trans hu)).trans (h.identities hu)
  profiles hu := (h'.profiles (h.underWay.trans hu)).trans (h.profiles hu)

/-- A request makes a call only where the call keeps an owner, also if it fails. -/
def ownerProtocol : Pool.Protocol ownerSystem where
  rely := OwnerRely
  refl _ _ := ⟨rfl, fun _ => rfl, fun _ => rfl⟩
  trans _ _ _ _ := OwnerRely.trans
  conf _ c w := ∀ f, w.auth.db.Owned → (c.perform f w.auth).2.db.Owned

variable {f : AuthOutcome}

theorem AuthCall.owned_of_not_writesAdmin {c : AuthCall} (h : ¬ c.writesAdmin) {w : AuthWorld}
    (hw : w.db.Owned) : (c.perform f w).2.db.Owned :=
  hw.congr ((c.frame_perform f w).identities fun he => h (.inl he))
    ((c.frame_perform f w).profiles fun he => h (.inr he))

variable {id : String}

theorem AuthCall.getAuthIdentity_mem {w : AuthWorld} {identity : AuthIdentity}
    (h : ((AuthCall.getAuthIdentity id).perform f w).1 = .ok identity) :
    identity ∈ ((AuthCall.getAuthIdentity id).perform f w).2.db.identities := by
  obtain ⟨elapsed, fault, text⟩ := f
  cases fault with
  | early | late => cases h
  | none =>
    have h' : w.db.getAuthIdentity id = .ok identity := h
    exact List.mem_of_find?_eq_some (orNotFound_eq_ok.1 h')

theorem AuthCall.getAdminProfile_mem {w : AuthWorld} {profile : AdminProfile}
    (h : ((AuthCall.getAdminProfile id).perform f w).1 = .ok profile) :
    profile ∈ w.db.profiles ∧ profile.identityID = id := by
  obtain ⟨elapsed, fault, text⟩ := f
  cases fault with
  | early | late => cases h
  | none =>
    have h' : w.db.getAdminProfile id = .ok profile := h
    have hfind := orNotFound_eq_ok.1 h'
    have hid := List.find?_some hfind
    exact ⟨List.mem_of_find?_eq_some hfind, eq_of_beq hid⟩

variable {target : AuthIdentity} {new : AdminProfile} {role : AdminRole}
  {identityStatus profileStatus : Status} {w w' : OwnerWorld}

section Requests

variable {i : ℕ} {identity : AuthIdentity} {profile : AdminProfile}

/-- The request is under way, and the rows that it has read are still there. -/
structure Chosen (i : ℕ) (identity : AuthIdentity) (profile : AdminProfile) (w : OwnerWorld) :
    Prop where
  underWay : w.underWay i = some ()
  kind : identity.kind = .admin
  owner : profile.identityID = identity.id
  identity_mem : identity ∈ w.auth.db.identities
  profile_mem : profile ∈ w.auth.db.profiles

theorem Chosen.rely (h : Chosen i identity profile w) (hr : OwnerRely i w w') :
    Chosen i identity profile w' where
  underWay := hr.underWay.trans h.underWay
  kind := h.kind
  owner := h.owner
  identity_mem := hr.identities h.underWay ▸ h.identity_mem
  profile_mem := hr.profiles h.underWay ▸ h.profile_mem

theorem AuthDB.OwnedBeside.rely (h : w.auth.db.OwnedBeside id) (hu : w.underWay i = some ())
    (hr : OwnerRely i w w') :
    w'.auth.db.OwnedBeside id := by
  obtain ⟨i, hne, ho⟩ := h
  exact ⟨i, hne, ho.congr (hr.identities hu) (hr.profiles hu)⟩

theorem safe_not_writesAdmin {α : Type} {p : Prog AuthCall AuthCall.Reply α}
    (hp : Only (fun c => ¬ c.writesAdmin) p) (w : OwnerWorld) :
    Safe (ownerProtocol.setting UpdatesAlone i) p (fun _ _ => True) w :=
  ownerProtocol.safe_only UpdatesAlone hp (fun _ _ _ _ => trivial)
    (fun _ _ _ hc _ => ⟨fun _ => AuthCall.owned_of_not_writesAdmin hc, trivial⟩) trivial

theorem safe_read {c : AuthCall} (hc : ¬ c.writesAdmin) {Q : c.Reply → OwnerWorld → Prop}
    (h : ∀ w', OwnerRely i w w' → ∀ f w'', OwnerRely i (ownerSystem.perform i c f w').2 w'' →
      Q (ownerSystem.perform i c f w').1 w'') :
    Safe (ownerProtocol.setting UpdatesAlone i) (ask c) Q w :=
  ownerProtocol.safe_ask UpdatesAlone fun w' hr =>
    ⟨fun _ => AuthCall.owned_of_not_writesAdmin hc, fun f _ => h w' hr f⟩

theorem safe_adminIdentityProfile (id : String) (w : OwnerWorld) :
    Safe (ownerProtocol.setting UpdatesAlone i) (adminIdentityProfile id).run
      (onOk (fun x => Chosen i x.1 x.2) fun _ _ => True) w := by
  refine Safe.seq (Q := fun identity w => w.underWay i = some () ∧
    identity ∈ w.auth.db.identities) (Safe.failAs ?_) fun identity w₁ h₁ => ?_
  · refine safe_read (by simp [AuthCall.writesAdmin, AuthCall.writes]) fun w' _ f w'' hr => ?_
    have hu : (ownerSystem.perform i (.getAuthIdentity id) f w').2.underWay i = some () :=
      Pool.Board.set_self ..
    cases hreply : (ownerSystem.perform i (.getAuthIdentity id) f w').1 with
    | error e => trivial
    | ok identity =>
      refine ⟨hr.underWay.trans hu, ?_⟩
      rw [hr.identities hu]
      exact AuthCall.getAuthIdentity_mem hreply
  · change Safe _ (ite _ _ _) _ _
    split
    · exact Safe.fail fun _ _ => trivial
    · rename_i hkind
      refine Safe.seq (Q := fun profile => Chosen i identity profile) (Safe.failAs ?_)
        fun profile w₂ h₂ => Safe.ok fun _ hr => h₂.rely hr
      refine safe_read (by simp [AuthCall.writesAdmin, AuthCall.writes]) fun w' hr f w'' hr' => ?_
      cases hreply : (ownerSystem.perform i (.getAdminProfile identity.id) f w').1 with
      | error e => trivial
      | ok profile =>
        have hread := AuthCall.getAdminProfile_mem hreply
        refine Chosen.rely (w := (ownerSystem.perform i (.getAdminProfile identity.id) f w').2)
          ⟨Pool.Board.set_self .., not_not.1 hkind, hread.2, ?_, ?_⟩ hr'
        · change identity ∈ (AuthCall.perform _ f w'.auth).2.db.identities
          rw [(AuthCall.frame_perform _ f w'.auth).identities (by simp [AuthCall.writes]),
            hr.identities h₁.1]
          exact h₁.2
        · change profile ∈ (AuthCall.perform _ f w'.auth).2.db.profiles
          rw [(AuthCall.frame_perform _ f w'.auth).profiles (by simp [AuthCall.writes])]
          exact hread.1

/-- The request may write its rows: they are those of an active owner, or there is another one. -/
def Guarded (target : AuthIdentity) (new : AdminProfile) (w : OwnerWorld) : Prop :=
  isActiveOwner new.role target.status new.status = true ∨ w.auth.db.OwnedBeside target.id

section

variable (hnot : isActiveOwner role identityStatus profileStatus = false)

include hnot

theorem ownedBeside_of_activeOwners {db : AuthDB}
    (h : activeOwners id role identityStatus profileStatus db.listAdminIdentityProfiles ≠ 0) :
    db.OwnedBeside id := by
  obtain ⟨item, hitem, hcount⟩ := List.countP_pos_iff.1 (Nat.pos_of_ne_zero h)
  split at hcount
  · rw [hnot] at hcount
    cases hcount
  · rename_i hne
    obtain ⟨i, hi, hp⟩ := List.mem_flatMap.1 hitem
    obtain ⟨p, hmem, rfl⟩ := List.mem_map.1 hp
    simp only [List.mem_filter, beq_iff_eq] at hi hmem
    simp only [isActiveOwner, Bool.and_eq_true, beq_iff_eq] at hcount
    exact ⟨i, hne, hi.1, hi.2, hcount.1.2, p, hmem.1, hmem.2, hcount.1.1, hcount.2⟩

theorem AuthCall.ownedBeside_of_list {w : AuthWorld}
    (h : activeOwners id role identityStatus profileStatus
      (AuthCall.listAdminIdentityProfiles.perform f w).1 ≠ 0) :
    (AuthCall.listAdminIdentityProfiles.perform f w).2.db.OwnedBeside id := by
  obtain ⟨elapsed, fault, text⟩ := f
  cases fault with
  | early | late => exact absurd rfl h
  | none => exact ownedBeside_of_activeOwners hnot h

end

theorem Chosen.preventLastActiveOwner (h : Chosen i identity profile w) (target : AuthIdentity)
    (new : AdminProfile) :
    Safe (ownerProtocol.setting UpdatesAlone i)
      (LazGate.preventLastActiveOwner target.id new.role target.status new.status).run
      (onOk (fun _ w' => Chosen i identity profile w' ∧ Guarded target new w') fun _ _ => True)
      w := by
  rw [LazGate.preventLastActiveOwner]
  split
  · rename_i howner
    exact Safe.ok fun _ hr => ⟨h.rely hr, .inl howner⟩
  · rename_i hnot
    refine Safe.seq (Q := fun items w' => Chosen i identity profile w' ∧
      (activeOwners target.id new.role target.status new.status items ≠ 0 →
        Guarded target new w')) (Safe.map ?_) fun items w₁ h₁ => ?_
    · refine safe_read (by simp [AuthCall.writesAdmin, AuthCall.writes]) fun w' hr f w'' hr' => ?_
      have hchosen : Chosen i identity profile
          (ownerSystem.perform i .listAdminIdentityProfiles f w').2 := by
        have hframe := AuthCall.frame_perform .listAdminIdentityProfiles f w'.auth
        have h' := h.rely hr
        refine ⟨Pool.Board.set_self .., h'.kind, h'.owner, ?_, ?_⟩
        · exact hframe.identities (by decide) ▸ h'.identity_mem
        · exact hframe.profiles (by decide) ▸ h'.profile_mem
      refine ⟨hchosen.rely hr', fun hcount => .inr ?_⟩
      refine AuthDB.OwnedBeside.rely (i := i) ?_ hchosen.underWay hr'
      exact AuthCall.ownedBeside_of_list (Bool.eq_false_iff.2 hnot) hcount
    · change Safe _ (ite _ _ _) _ _
      split
      · exact Safe.fail fun _ _ => trivial
      · rename_i hcount
        refine Safe.ok fun w' hr => ⟨h₁.1.rely hr, ?_⟩
        exact (h₁.2 hcount).imp id fun hb => hb.rely h₁.1.underWay hr

structure Halfway (i : ℕ) (target : AuthIdentity) (profile new : AdminProfile) (w : OwnerWorld) :
    Prop where
  underWay : w.underWay i = some ()
  profile_mem : profile ∈ w.auth.db.profiles
  guarded : (new.role = .owner ∧ new.status = .active ∧
    ∃ row ∈ w.auth.db.identities, row.id = target.id ∧ row.kind = .admin ∧ row.status = .active) ∨
    w.auth.db.OwnedBeside target.id

theorem Halfway.rely (h : Halfway i target profile new w) (hr : OwnerRely i w w') :
    Halfway i target profile new w' where
  underWay := hr.underWay.trans h.underWay
  profile_mem := hr.profiles h.underWay ▸ h.profile_mem
  guarded := by
    rw [hr.identities h.underWay]
    exact h.guarded.imp id fun hb => hb.rely h.underWay hr

theorem AuthCall.perform_updateAuthIdentity (x : AuthIdentity) (f : AuthOutcome) (w : AuthWorld) :
    ((AuthCall.updateAuthIdentity x).perform f w).2.db = w.db ∨
      ((AuthCall.updateAuthIdentity x).perform f w).2.db = (w.db.updateAuthIdentity x).2 := by
  change ite _ _ _ = _ ∨ ite _ _ _ = _
  split
  · exact .inr rfl
  · exact .inl rfl

theorem AuthCall.updateAuthIdentity_ok {x row : AuthIdentity} {w : AuthWorld}
    (h : ((AuthCall.updateAuthIdentity x).perform f w).1 = .ok row) :
    ((AuthCall.updateAuthIdentity x).perform f w).2.db.identities =
      Table.update (fun i => i.id == x.id) (AuthDB.setIdentity x) w.db.identities := by
  obtain ⟨elapsed, fault, text⟩ := f
  cases fault with
  | early | late => cases h
  | none =>
    change (w.db.updateAuthIdentity x).1 = .ok row at h
    change (w.db.updateAuthIdentity x).2.identities = _
    rw [AuthDB.updateAuthIdentity] at h ⊢
    split at h
    · cases h
    · rename_i hfree
      rw [if_neg hfree]

theorem isActiveOwner_iff :
    isActiveOwner role identityStatus profileStatus = true ↔
      role = .owner ∧ identityStatus = .active ∧ profileStatus = .active := by
  simp [isActiveOwner, and_assoc]

theorem Chosen.updateAuthIdentity (h : Chosen i identity profile w) (hid : target.id = identity.id)
    (hg : Guarded target new w) :
    Safe (ownerProtocol.setting UpdatesAlone i) (LazGate.updateAuthIdentity target).run
      (onOk (fun _ => Halfway i target profile new) fun _ _ => True) w := by
  refine ownerProtocol.safe_ask UpdatesAlone fun w' hr => ?_
  have h' := h.rely hr
  have hg' : Guarded target new w' := hg.imp id fun hb => hb.rely h.underWay hr
  refine ⟨fun f how => ?_, fun f _ w'' hr' => ?_⟩
  · have hx : target.status = .active ∨ w'.auth.db.OwnedBeside target.id :=
      hg'.imp (fun ho => (isActiveOwner_iff.1 ho).2.1) id
    rcases AuthCall.perform_updateAuthIdentity target f w'.auth with he | he <;> rw [he]
    · exact how
    · exact how.updateIdentity hx
  · cases hreply : (ownerSystem.perform i (.updateAuthIdentity target) f w').1 with
    | error e => trivial
    | ok row =>
      have hrows := AuthCall.updateAuthIdentity_ok hreply
      have hprofiles := (AuthCall.frame_perform (.updateAuthIdentity target) f w'.auth).profiles
        (by simp [AuthCall.writes])
      refine Halfway.rely (w := (ownerSystem.perform i (.updateAuthIdentity target) f w').2)
        ⟨Pool.Board.set_self .., hprofiles ▸ h'.profile_mem, ?_⟩ hr'
      rcases hg' with ho | ⟨o, hne, ho⟩
      · obtain ⟨hrole, hactive, hstatus⟩ := isActiveOwner_iff.1 ho
        have hmem := Table.mem_update_of_mem (p := fun i => i.id == target.id)
          (f := AuthDB.setIdentity target) h'.identity_mem
        rw [if_pos (beq_iff_eq.2 hid.symm), ← hrows] at hmem
        exact .inl ⟨hrole, hstatus, _, hmem, hid.symm, h'.kind, hactive⟩
      · refine .inr ⟨o, hne, ?_⟩
        rcases AuthCall.perform_updateAuthIdentity target f w'.auth with he | he
        · exact he ▸ ho
        · exact he ▸ ho.updateIdentity target hne

theorem Halfway.updateAdminProfile (h : Halfway i target profile new w) (hid : profile.id = new.id)
    (hown : profile.identityID = target.id) :
    Safe (ownerProtocol.setting UpdatesAlone i) (LazGate.updateAdminProfile new).run
      (fun _ _ => True) w := by
  refine ownerProtocol.safe_ask UpdatesAlone fun w' hr => ⟨fun f how => ?_, fun _ _ _ _ => trivial⟩
  have h' := h.rely hr
  change AuthDB.Owned (ite _ _ _)
  split
  · refine how.updateProfile h'.profile_mem hid ?_
    rw [hown]
    exact h'.guarded
  · exact how

theorem UpdateAdminInput.apply_ok {input : UpdateAdminInput}
    (h : input.apply identity profile = .ok (target, new)) :
    target.id = identity.id ∧ new.id = profile.id := by
  obtain ⟨role, status, displayName⟩ := input
  simp only [UpdateAdminInput.apply] at h
  -- each of the three fields is absent, refused or set
  repeat' split at h
  all_goals cases h <;> exact ⟨rfl, rfl⟩

theorem safe_updateAdmin (id : String) (input : UpdateAdminInput) (w : OwnerWorld) :
    Safe (ownerProtocol.setting UpdatesAlone i) (updateAdmin id input).run (fun _ _ => True) w := by
  refine Safe.andThen ((safe_adminIdentityProfile id w).mono ?_)
  rintro (e | ⟨identity, profile⟩) w₁ h₁
  · trivial
  refine Safe.check ?_ fun _ _ _ _ => trivial
  rintro ⟨target, new⟩ happly
  obtain ⟨hid, hpid⟩ := UpdateAdminInput.apply_ok happly
  refine Safe.andThen ((h₁.preventLastActiveOwner target new).mono ?_)
  rintro (e | _) w₂ h₂
  · trivial
  refine Safe.andThen (Safe.failAs ((h₂.1.updateAuthIdentity hid h₂.2).mono ?_))
  rintro (e | row) w₃ h₃
  · trivial
  refine Safe.andThen (Safe.failAs
    ((h₃.updateAdminProfile hpid.symm (h₂.1.owner.trans hid.symm)).mono ?_))
  rintro (e | row') w₄ _
  · trivial
  refine (safe_not_writesAdmin (Only.andThen (only_ignoring ?_) fun _ => Only.ok) w₄)
  exact Only.ask (by simp [AuthCall.writesAdmin, AuthCall.writes])

end Requests

theorem ownerProtocol_kept : ownerProtocol.Kept UpdatesAlone where
  act e := e.elim
  enter n q w w' he i hi := by
    cases he
    exact ⟨Pool.Board.set_of_ne _ hi.ne _, fun _ => rfl, fun _ => rfl⟩
  call i c f w j hj hk _ := by
    have hframe := c.frame_perform f w.auth
    refine ⟨Pool.Board.set_of_ne _ hj _, fun hu => hframe.identities ?_,
      fun hu => hframe.profiles ?_⟩
    · exact fun hw => (hk (.inl hw)).apply hj hu
    · exact fun hw => (hk (.inr hw)).apply hj hu
  prog n q w w' he := by
    refine Safe.map (Safe.bind ((safe_updateAdmin q.id q.input w').mono ?_))
    intro r w₁ _
    refine safe_not_writesAdmin (Only.bind (Only.ask ?_) fun _ => Only.of_done _) w₁
    simp [AuthCall.writesAdmin, AuthCall.writes]

/-- While no request writes with another one under way, there is always an active owner. -/
theorem active_owner_remains (w : AuthWorld) (hkeyed : Table.Keyed AdminProfile.id w.db.profiles)
    (howner : ∃ i, w.db.IsOwner i) (es : List (Pool.Event AuthOutcome Empty UpdateAdminRequest))
    (s : Pool.Config AuthCall AuthCall.Reply OwnerWorld Unit)
    (halone : Along (Pool.step ownerSystem) (Pool.Calls UpdatesAlone) ⟨⟨w, .empty⟩, []⟩ es)
    (hs : runs (Pool.step ownerSystem) ⟨⟨w, .empty⟩, []⟩ es = some s) :
    ∃ i, s.world.auth.db.IsOwner i := by
  have h := ownerProtocol_kept.runs (I := fun w => w.auth.db.Owned) (fun e => e.elim) ?_
    (fun i c f w h _ hc => hc f h) halone hs ⟨hkeyed, howner⟩
  · exact h.owner
  · rintro n q w w' h he
    cases he
    exact h

namespace OwnerSample

def db : AuthDB :=
  { AuthDB.empty with
    identities := [⟨"a", .admin, "ann", "", "", .active, false⟩,
      ⟨"b", .admin, "bob", "", "", .active, false⟩]
    profiles := [⟨"p", "a", .owner, .active⟩, ⟨"q", "b", .owner, .active⟩] }

def demote (id : String) : UpdateAdminRequest := ⟨id, some "viewer", none, none⟩

def calls (i n : ℕ) : List (Pool.Event AuthOutcome Empty UpdateAdminRequest) :=
  List.replicate n (.call i ⟨0, .none, ""⟩)

def config : Pool.Config AuthCall AuthCall.Reply OwnerWorld Unit := ⟨⟨⟨db, 0⟩, .empty⟩, []⟩

/-- The roles that are stored at the end. -/
def roles (es : List (Pool.Event AuthOutcome Empty UpdateAdminRequest)) : Option (List AdminRole) :=
  (runs (Pool.step ownerSystem) config es).map fun s =>
    s.world.auth.db.profiles.map AdminProfile.role

/-- Both requests have listed the admins before either of them writes. -/
def together : List (Pool.Event AuthOutcome Empty UpdateAdminRequest) :=
  [.start (demote "a"), .start (demote "b")] ++ calls 0 3 ++ calls 1 3 ++ calls 0 4 ++ calls 1 4

def inTurn : List (Pool.Event AuthOutcome Empty UpdateAdminRequest) :=
  [.start (demote "a"), .start (demote "b")] ++ calls 0 7 ++ calls 1 4

end OwnerSample

open OwnerSample in
/-- Two owners are demoted at once: each request still sees the other owner. -/
theorem active_owner_lost :
    ∃ s, runs (Pool.step ownerSystem) config together = some s ∧
      ¬ ∃ i, s.world.auth.db.IsOwner i := by
  have hroles : roles together = some [.viewer, .viewer] := by decide +kernel
  obtain ⟨s, hs, hr⟩ := Option.map_eq_some_iff.1 hroles
  refine ⟨s, hs, ?_⟩
  rintro ⟨i, _, _, _, p, hp, _, hrole, _⟩
  have hmem : p.role ∈ [AdminRole.viewer, .viewer] := hr ▸ List.mem_map_of_mem hp
  rw [hrole] at hmem
  simp at hmem

open OwnerSample in
/-- One after the other: the second request is refused. -/
theorem active_owner_remains_in_turn :
    ∃ s, runs (Pool.step ownerSystem) config inTurn = some s ∧ ∃ i, s.world.auth.db.IsOwner i := by
  have hroles : roles inTurn = some [.viewer, .owner] := by decide +kernel
  obtain ⟨s, hs, _⟩ := Option.map_eq_some_iff.1 hroles
  have howner : ∃ i, db.IsOwner i :=
    ⟨_, List.mem_cons_self, rfl, rfl, _, List.mem_cons_self, rfl, rfl, rfl⟩
  exact ⟨s, hs, active_owner_remains ⟨db, 0⟩ (by decide) howner inTurn s (by decide +kernel) hs⟩

end LazGate
