import LazGate.Agent.Calls
import LazGate.Agent.Engine

/-!
# Credential sync

`internal/agent/common/credential_sync.go`: the sync pass over the identity table and a credential
runtime. What differs between the protocols is the store and the runtime it is given.
-/

namespace LazGate

variable {P : Type}

structure AuthStore (P : Type) where
  getState : String → Sync P (Option StateValue)
  setState : String → StateValue → Sync P Unit
  listAuthUsers : Sync P (List AuthUser)
  upsertAuthUser : AuthUser → Sync P Unit
  deleteAuthUser : String → Sync P Unit
  applyFullAuthSnapshot : Std.ExtTreeMap String AuthUser → String → ℤ → Sync P Unit

structure CredentialRuntime (P : Type) where
  applyCredential : CredentialChange P → Sync P AuthUser
  removeCredential : AuthUser → Sync P Unit
  reconcileCredentials : Std.ExtTreeMap String AuthUser → Sync P Unit

/-- The values of a map, in key order. -/
def users (m : Std.ExtTreeMap String AuthUser) : List AuthUser := m.toList.map (·.2)

def indexUsers (l : List AuthUser) : Std.ExtTreeMap String AuthUser :=
  l.foldl (fun m u => m.insert u.connectionID u) ∅

def databaseStore : AuthStore P where
  getState key := (AgentCall.getState key).attempt
  setState key value := (AgentCall.setState key value).attempt
  listAuthUsers := AgentCall.listAuthUsers.attempt
  upsertAuthUser user := (AgentCall.upsertAuthUser user).attempt
  deleteAuthUser id := (AgentCall.deleteAuthUser id).attempt
  applyFullAuthSnapshot keep key cursorMS :=
    (AgentCall.applyFullAuthSnapshot (users keep) key cursorMS).attempt

/-- A change of a page, as the engine gets it. -/
def decodeChange (c : CredentialChange P) : Change (CredentialChange P) where
  connectionID := c.connectionID
  operation := if c.op = .upsert then .upsert else .delete
  updatedAtMS := 0
  payload := c

def decodeManifest (manifest : Manifest P) : Except String (Response (CredentialChange P)) :=
  if manifest.error ≠ "" then
    .error ("auth manifest rejected: " ++ manifest.error)
  else
    .ok ⟨manifest.manifestStartedAt, manifest.full, sortChanges (manifest.changes.map decodeChange)⟩

/-- `ManifestSource.FetchSyncPage`. -/
def fetchSyncPage (request : Request) : Sync P (Response (CredentialChange P)) := do
  ofExcept (decodeManifest (← authManifest request))

def manifestSource : Source (SyncCall P) SyncCall.Reply (CredentialChange P) where
  fetchSyncPage := fetchSyncPage

def authSyncCursorKey : String := "last_applied_auth_manifest_started_at"

def Agent.cursor (a : Agent) : Option StateValue := a.state[authSyncCursorKey]?

/-- `strconv.ParseInt(raw, 10, 64)` on a value of `sync_state`. -/
def parseStateInt : StateValue → Except String ℤ
  | .int v => .ok v
  | .text s => .error ("strconv.ParseInt: parsing " ++ s.quote ++ ": invalid syntax")

def authCursor (store : AuthStore P) : CursorStore (SyncCall P) SyncCall.Reply where
  loadSyncCursor key := do
    match ← store.getState key with
    | none => return none
    | some raw => return some (← ofExcept (parseStateInt raw))
  saveSyncCursor key v := store.setState key (.int v)

structure CredentialPass where
  full : Bool
  current : Std.ExtTreeMap String AuthUser
  keep : Std.ExtTreeMap String AuthUser
  removed : Std.ExtTreeMap String AuthUser

/-- The order in which Go happens to iterate over a map. -/
structure MapOrder where
  iterate : List AuthUser → List AuthUser
  perm : ∀ l, (iterate l).Perm l

/-- Maps in key order. -/
def MapOrder.sorted : MapOrder := ⟨id, fun _ => .refl _⟩

/-- What a pass removes at its end: the rows of deleted connections, and in a full pass also the
rows that no page has named. -/
def CredentialPass.leaving (p : CredentialPass) : Std.ExtTreeMap String AuthUser :=
  if p.full then p.removed ∪ p.current.filter fun id _ => !p.keep.contains id else p.removed

/-- Runs `x` only in a full pass. -/
def CredentialPass.whenFull (p : CredentialPass) (x : Sync P Unit) : Sync P Unit :=
  if p.full then x else pure ()

/-- Runs `x` only in an incremental pass. -/
def CredentialPass.unlessFull (p : CredentialPass) (x : Sync P Unit) : Sync P Unit :=
  if p.full then pure () else x

def CredentialPass.keeping (p : CredentialPass) (id : String) (u : AuthUser) : CredentialPass :=
  { p with keep := p.keep.insert id u }

/-- The pass after a delete; only a row that was there is to be removed. -/
def CredentialPass.removing (p : CredentialPass) (id : String) : CredentialPass :=
  match p.current[id]? with
  | some u => { p with removed := p.removed.insert id u }
  | none => p

structure CredentialSync (P : Type) where
  store : AuthStore P
  runtime : CredentialRuntime P

namespace CredentialSync

variable (s : CredentialSync P)

def beginSyncPass (full : Bool) : Sync P CredentialPass := do
  let users ← s.store.listAuthUsers
  return ⟨full, indexUsers users, ∅, ∅⟩

def applySyncChange (p : CredentialPass) (c : Change (CredentialChange P)) :
    Sync P CredentialPass :=
  match c.operation with
  | .upsert => do
    let u ← s.runtime.applyCredential c.payload
    p.unlessFull (s.store.upsertAuthUser u)
    return p.keeping c.connectionID u
  | .delete => do
    p.unlessFull (s.store.deleteAuthUser c.connectionID)
    return p.removing c.connectionID

/-- Closes the pass. The removals come after the identity table was replaced. -/
def finishSyncPass (order : MapOrder) (p : CredentialPass) (r : PassResult) : Sync P Unit := do
  p.whenFull (s.store.applyFullAuthSnapshot p.keep authSyncCursorKey r.manifestStartedAtMS)
  (order.iterate (users p.leaving)).forM s.runtime.removeCredential
  p.whenFull (s.runtime.reconcileCredentials p.keep)

def applier (order : MapOrder) :
    Applier (SyncCall P) SyncCall.Reply (CredentialChange P) CredentialPass where
  beginSyncPass := s.beginSyncPass
  applySyncChange := s.applySyncChange
  finishSyncPass := s.finishSyncPass order

def engine (pageSize : ℤ) (order : MapOrder) :
    Engine (SyncCall P) SyncCall.Reply (CredentialChange P) CredentialPass where
  cursorKey := authSyncCursorKey
  pageSize := pageSize
  cursors := some (authCursor s.store)
  source := some manifestSource
  applier := some (s.applier order)

/-- `RunOnce`, with the page size and the bounds of the model as parameters; the code leaves the
page size at `0`, which stands for the default. -/
def runOnce (pageSize : ℤ) (order : MapOrder) (fuel : ℕ) (full : Bool) : Sync P Unit :=
  (s.engine pageSize order).run fuel full

end CredentialSync

/-! ## The maps of a pass -/

namespace CredentialPass

variable (p : CredentialPass) (id : String) (u : AuthUser)

@[simp] theorem full_removing : (p.removing id).full = p.full := by
  unfold removing; split <;> rfl

@[simp] theorem current_removing : (p.removing id).current = p.current := by
  unfold removing; split <;> rfl

@[simp] theorem keep_removing : (p.removing id).keep = p.keep := by
  unfold removing; split <;> rfl

theorem getElem?_keep_keeping (i : String) :
    (p.keeping id u).keep[i]? = if i = id then some u else p.keep[i]? := by
  simp only [keeping, Std.ExtTreeMap.getElem?_insert, Std.compare_eq_iff_eq, eq_comm (a := id)]

theorem getElem?_removed_removing (i : String) : (p.removing id).removed[i]? =
      if i = id then p.current[i]?.or p.removed[i]? else p.removed[i]? := by
  unfold removing
  split <;> rename_i h
  · simp only [Std.ExtTreeMap.getElem?_insert, Std.compare_eq_iff_eq, eq_comm (a := id)]
    split <;> simp_all
  · split <;> simp_all

end CredentialPass

variable {m : Std.ExtTreeMap String AuthUser} {u : AuthUser}

theorem mem_users : u ∈ users m ↔ ∃ id : String, m[id]? = some u := by
  simp [users, Std.ExtTreeMap.mem_toList_iff_getElem?_eq_some]

variable {l : List AuthUser}

theorem foldl_insert_eq_some {id : String} (hl : (l.map (·.connectionID)).Nodup) :
    (l.foldl (fun m u => m.insert u.connectionID u) m)[id]? = some u ↔
      (u ∈ l ∧ u.connectionID = id) ∨ (id ∉ l.map (·.connectionID) ∧ m[id]? = some u) := by
  induction l generalizing m with
  | nil => simp
  | cons v l ih =>
    rw [List.map_cons, List.nodup_cons] at hl
    rw [List.foldl_cons, ih hl.2, Std.ExtTreeMap.getElem?_insert]
    simp only [Std.compare_eq_iff_eq]
    grind

theorem nodup_map_connectionID
    (hm : ∀ (id : String) (u : AuthUser), m[id]? = some u → u.connectionID = id) :
    ((users m).map (·.connectionID)).Nodup := by
  have hkeys : (users m).map (·.connectionID) = m.toList.map (·.1) := by
    rw [users, List.map_map]
    refine List.map_congr_left fun ⟨id, u⟩ h => ?_
    exact hm id u (Std.ExtTreeMap.mem_toList_iff_getElem?_eq_some.1 h)
  rw [hkeys, List.Nodup, List.pairwise_map]
  refine Std.ExtTreeMap.distinct_keys_toList.imp fun h => ?_
  simpa using h

theorem getElem?_indexUsers (hl : (l.map (·.connectionID)).Nodup) {id : String} :
    (indexUsers l)[id]? = some u ↔ u ∈ l ∧ u.connectionID = id := by
  rw [indexUsers, foldl_insert_eq_some hl]
  simp

@[simp] theorem indexUsers_list (t : AuthUsers) : indexUsers t.list = t.rows := by
  refine Std.ExtTreeMap.ext_getElem? fun id => ?_
  refine Option.ext fun u => ?_
  rw [getElem?_indexUsers (l := t.list) (nodup_map_connectionID t.keyed), AuthUsers.mem_list]
  constructor
  · rintro ⟨hu, rfl⟩
    exact hu
  · intro hu
    have := t.keyed id u hu
    exact ⟨this ▸ hu, this⟩

theorem rows_of_replace_users {keep : Std.ExtTreeMap String AuthUser}
    (hkeep : ∀ (id : String) (u : AuthUser), keep[id]? = some u →
    u.connectionID = id) {rows : AuthUsers} (h : AuthUsers.replace (users keep) = .ok rows) :
    rows.rows = keep := by
  refine Std.ExtTreeMap.ext_getElem? fun id => Option.ext fun u => ?_
  rw [AuthUsers.rows_of_replace h, mem_users]
  constructor
  · rintro ⟨⟨i, hi⟩, rfl⟩
    rwa [hkeep i u hi]
  · exact fun hu => ⟨⟨id, hu⟩, hkeep id u hu⟩

variable {p : CredentialPass}

theorem CredentialPass.getElem?_leaving_full (hp : p.full = true) (id : String) :
    p.leaving[id]? = if id ∈ p.keep then p.removed[id]? else p.current[id]?.or p.removed[id]? := by
  rw [leaving, if_pos hp, Std.ExtTreeMap.getElem?_union, Std.ExtTreeMap.getElem?_filter']
  by_cases h : id ∈ p.keep
  · simp [h, Std.ExtTreeMap.contains_iff_mem.2 h]
  · have hc : p.keep.contains id = false := by
      rw [← Bool.not_eq_true, Std.ExtTreeMap.contains_iff_mem]
      exact h
    rw [if_neg h, hc]
    cases p.current[id]? <;> simp

theorem CredentialPass.leaving_incremental (hp : p.full = false) :
    p.leaving = p.removed := by
  simp [leaving, hp]

/-! ## Pages -/

theorem decodeManifest_eq_ok {m : Manifest P} {r : Response (CredentialChange P)}
    (h : decodeManifest m = .ok r) : r.manifestStartedAtMS = m.manifestStartedAt ∧
      r.full = m.full ∧ r.changes.Perm (m.changes.map decodeChange) := by
  obtain ⟨-, h⟩ := Except.guard_eq_ok.1 h
  cases h
  exact ⟨rfl, rfl, sortChanges_perm _⟩

theorem fetchSyncPage_safe {F W : Type} {S : Setting (SyncCall P) SyncCall.Reply F W}
    {request : Request} {Q : Except String (Response (CredentialChange P)) → W → Prop} {w : W}
    (h : Prog.Safe S (Prog.ask (SyncCall.authManifest request))
      (fun m => Q (Except.bind m decodeManifest)) w) :
    Prog.Safe S (fetchSyncPage request).run Q w := by
  refine Prog.Safe.andThen (h.weaken ?_)
  rintro (e | m) w' hm
  · exact hm w' (S.refl w')
  · change Prog.Safe S (ofExcept (decodeManifest m) : Sync P _).run Q w'
    change ∀ w'', S.rely w' w'' → Q (decodeManifest m) w'' at hm
    rcases hd : decodeManifest m with e | r
    · exact Prog.Safe.fail (hd ▸ hm)
    · exact Prog.Safe.ok (hd ▸ hm)

/-- What the stored value of the cursor makes of an incremental pass. -/
def startFrom : Except String (Option StateValue) → Except String (Bool × ℤ)
  | .error e => .error e
  | .ok none => .ok (true, 0)
  | .ok (some raw) => (parseStateInt raw).map fun cursor => (false, cursor)

/-- Loading the cursor is one call for an incremental pass, and none for a full one. -/
theorem loadCursor_safe {F W : Type} {S : Setting (SyncCall P) SyncCall.Reply F W}
    {store : AuthStore P} {key : String} {full : Bool} {Q : Except String (Bool × ℤ) → W → Prop}
    {w : W} (hstore : store.getState key = (AgentCall.getState key).attempt)
    (hfull : full = true → ∀ w', S.rely w w' → Q (.ok (true, 0)) w')
    (hload : full = false → Prog.Safe S (Prog.ask (SyncCall.agent (.getState key)))
      (fun r => Q (startFrom r)) w) :
    Prog.Safe S (loadCursor (authCursor store) key full).run Q w := by
  cases full with
  | true => exact Prog.Safe.ok (hfull rfl)
  | false =>
    simp only [loadCursor, authCursor, hstore, Bool.false_eq_true, if_false]
    refine Prog.Safe.andThen (Prog.Safe.andThen ((hload rfl).weaken ?_))
    rintro (e | raw) w' hr
    · exact hr w' (S.refl w')
    rcases raw with - | raw
    · refine Prog.Safe.ok fun w'' h => Prog.Safe.ok fun w3 h3 => ?_
      exact hr w3 (S.trans _ _ _ h h3)
    · cases raw with
      | int v =>
        refine Prog.Safe.ok fun w'' h => Prog.Safe.ok fun w3 h3 => ?_
        exact hr w3 (S.trans _ _ _ h h3)
      | text s => exact Prog.Safe.fail hr

theorem CredentialSync.runOnce_safe {F W : Type} {S : Setting (SyncCall P) SyncCall.Reply F W}
    {s : CredentialSync P} {pageSize : ℤ} {order : MapOrder} {fuel : ℕ} {full : Bool}
    {Q : Except String Unit → W → Prop} {w : W} (hbad : ∀ e w', S.rely w w' → Q (.error e) w')
    (hrun : validatePageSize (normalizePageSize pageSize) = .ok () →
      Prog.Safe S (runPass (authCursor s.store) manifestSource (s.applier order)
        authSyncCursorKey (normalizePageSize pageSize) fuel full).run Q w) :
    Prog.Safe S (s.runOnce pageSize order fuel full).run Q w := by
  have heq : s.runOnce pageSize order fuel full =
      ofExcept (validatePageSize (normalizePageSize pageSize)) >>= fun _ =>
        runPass (authCursor s.store) manifestSource (s.applier order) authSyncCursorKey
          (normalizePageSize pageSize) fuel full := rfl
  rw [heq]
  rcases hv : validatePageSize (normalizePageSize pageSize) with e | ⟨⟩
  · exact Prog.Safe.fail (hbad e)
  · exact hrun hv

end LazGate
