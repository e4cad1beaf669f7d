import LazGate.Protocol.Sync

/-!
# The agent's identity table and sync state

The tables `auth_users` and `sync_state` of `internal/agent/common/store`. An `AuthUsers` value
carries the constraints of its table, so every statement that changes it either keeps them or is
refused.
-/

namespace LazGate

structure AuthUser where
  connectionID : String
  nativeAuthID : String
  nativeMeta : String
  deriving DecidableEq

/-- The table `auth_users`: `connection_id` is the primary key and `native_auth_id` is unique. -/
@[ext] structure AuthUsers where
  rows : Std.ExtTreeMap String AuthUser
  keyed : ∀ (id : String) (u : AuthUser), rows[id]? = some u → u.connectionID = id
  unique : ∀ (i j : String) (u v : AuthUser), rows[i]? = some u → rows[j]? = some v →
    u.nativeAuthID = v.nativeAuthID → i = j

variable {id : String}

theorem mem_iff_exists_getElem? {rows : Std.ExtTreeMap String AuthUser} :
    id ∈ rows ↔ ∃ u, rows[id]? = some u := by
  rw [Std.ExtTreeMap.mem_iff_isSome_getElem?, Option.isSome_iff_exists]

variable {keep : List AuthUser} {t t' : AuthUsers} {u : AuthUser}

namespace AuthUsers

def empty : AuthUsers := ⟨∅, by simp, by simp⟩

/-- Some row of another connection has the native id of `u`. -/
def taken (t : AuthUsers) (u : AuthUser) : Bool :=
  t.rows.toList.any fun r => r.1 ≠ u.connectionID && r.2.nativeAuthID = u.nativeAuthID

theorem taken_eq_false (h : t.taken u = false) {v : AuthUser} (hv : t.rows[id]? = some v)
    (hn : v.nativeAuthID = u.nativeAuthID) :
    id = u.connectionID := by
  by_contra hid
  have hmem := Std.ExtTreeMap.mem_toList_iff_getElem?_eq_some.2 hv
  have := List.any_eq_false.1 h _ hmem
  simp [hid, hn] at this

/-- The row `u` in place of the row of its connection. -/
def put (t : AuthUsers) (u : AuthUser) (h : t.taken u = false) : AuthUsers where
  rows := t.rows.insert u.connectionID u
  keyed := by
    intro id v hv
    rw [Std.ExtTreeMap.getElem?_insert] at hv
    split at hv
    · cases hv
      simpa using ‹compare u.connectionID id = .eq›
    · exact t.keyed id v hv
  unique := by
    intro i j v w hv hw hn
    rw [Std.ExtTreeMap.getElem?_insert] at hv hw
    simp only [Std.compare_eq_iff_eq] at hv hw
    split at hv <;> split at hw
    · simp_all
    · cases hv
      simp_all [taken_eq_false h hw hn.symm]
    · cases hw
      simp_all [taken_eq_false h hv hn]
    · exact t.unique i j v w hv hw hn

def errNativeTaken : String :=
  "constraint failed: UNIQUE constraint failed: auth_users.native_auth_id (2067)"

def errConnectionTaken : String :=
  "constraint failed: UNIQUE constraint failed: auth_users.connection_id (1555)"

/-- `UpsertAuthUser`. -/
def upsert (t : AuthUsers) (u : AuthUser) : Except String AuthUsers :=
  if h : t.taken u = false then .ok (t.put u h) else .error errNativeTaken

/-- The plain insert of `ApplyFullAuthSnapshot`, which does not replace a row. -/
def insert (t : AuthUsers) (u : AuthUser) : Except String AuthUsers :=
  if t.rows.contains u.connectionID then .error errConnectionTaken else t.upsert u

/-- `DeleteAuthUser`. -/
def delete (t : AuthUsers) (id : String) : AuthUsers where
  rows := t.rows.erase id
  keyed i u hu := by
    rw [Std.ExtTreeMap.getElem?_erase] at hu
    split at hu
    · cases hu
    · exact t.keyed i u hu
  unique i j u v hu hv hn := by
    rw [Std.ExtTreeMap.getElem?_erase] at hu hv
    split at hu <;> split at hv <;> try simp_all
    exact t.unique i j u v hu hv hn

/-- `ListAuthUsers`, in the order of the connection ids. -/
def list (t : AuthUsers) : List AuthUser := t.rows.toList.map (·.2)

/-- The rows written by `ApplyFullAuthSnapshot`, which empties the table first. -/
def replace (keep : List AuthUser) : Except String AuthUsers := keep.foldlM insert empty

/-! ## What the statements do -/

theorem rows_of_upsert (h : t.upsert u = .ok t') (id : String) :
    t'.rows[id]? = if id = u.connectionID then some u else t.rows[id]? := by
  unfold upsert at h
  split at h
  · cases h
    simp only [put, Std.ExtTreeMap.getElem?_insert, Std.compare_eq_iff_eq, eq_comm (a := id)]
  · cases h

theorem mem_rows_of_upsert (h : t.upsert u = .ok t') :
    id ∈ t'.rows ↔ id = u.connectionID ∨ id ∈ t.rows := by
  rw [mem_iff_exists_getElem?, mem_iff_exists_getElem?, rows_of_upsert h]
  split
  · simp [*]
  · simp [*]

theorem upsert_eq_ok
    (h : ∀ id v, t.rows[id]? = some v → v.nativeAuthID = u.nativeAuthID → id = u.connectionID) :
    ∃ t', t.upsert u = .ok t' := by
  have hfree : t.taken u = false := by
    refine List.any_eq_false.2 fun ⟨id, v⟩ hv => ?_
    have := h id v (Std.ExtTreeMap.mem_toList_iff_getElem?_eq_some.1 hv)
    simp only [ne_eq, decide_not, Bool.and_eq_true, Bool.not_eq_eq_eq_not, Bool.not_true,
      decide_eq_false_iff_not, decide_eq_true_eq, not_and]
    exact fun hne hn => hne (this hn)
  exact ⟨_, dif_pos hfree⟩

@[simp] theorem rows_delete (t : AuthUsers) (i id : String) :
    (t.delete i).rows[id]? = if id = i then none else t.rows[id]? := by
  simp only [delete, Std.ExtTreeMap.getElem?_erase, Std.compare_eq_iff_eq, eq_comm (a := id)]

theorem mem_rows_delete {i : String} : id ∈ (t.delete i).rows ↔ id ≠ i ∧ id ∈ t.rows := by
  rw [mem_iff_exists_getElem?, mem_iff_exists_getElem?, rows_delete]
  split
  · simp [*]
  · simp [*]

@[simp] theorem rows_empty (id : String) : empty.rows[id]? = none := by simp [empty]

theorem mem_list : u ∈ t.list ↔ t.rows[u.connectionID]? = some u := by
  simp only [list, List.mem_map, Prod.exists, exists_eq_right,
    Std.ExtTreeMap.mem_toList_iff_getElem?_eq_some]
  constructor
  · rintro ⟨id, hu⟩
    rwa [t.keyed id u hu]
  · exact fun hu => ⟨_, hu⟩

theorem insert_eq_ok :
    t.insert u = .ok t' ↔ t.rows[u.connectionID]? = none ∧ t.upsert u = .ok t' := by
  unfold insert
  rw [Std.ExtTreeMap.contains_eq_isSome_getElem?]
  rcases t.rows[u.connectionID]? with - | v <;> simp

/-- After a series of inserts the table has its old rows and the new ones. -/
theorem rows_of_foldlM_insert (h : keep.foldlM insert t = .ok t') (id : String) (u : AuthUser) :
    t'.rows[id]? = some u ↔ t.rows[id]? = some u ∨ u ∈ keep ∧ u.connectionID = id := by
  induction keep generalizing t with
  | nil =>
    cases h
    simp
  | cons v keep ih =>
    rw [List.foldlM_cons] at h
    rcases hv : t.insert v with e | t₁
    · simp [hv, bind, Except.bind] at h
    · rw [hv] at h
      obtain ⟨hnone, hup⟩ := insert_eq_ok.1 hv
      rw [ih h, rows_of_upsert hup, List.mem_cons]
      split <;> rename_i hid
      · subst hid
        simp only [Option.some.injEq, hnone, reduceCtorEq, false_or]
        constructor
        · rintro (rfl | ⟨hu, hid⟩)
          · exact ⟨.inl rfl, rfl⟩
          · exact ⟨.inr hu, hid⟩
        · rintro ⟨rfl | hu, hid⟩
          · exact .inl rfl
          · exact .inr ⟨hu, hid⟩
      · constructor
        · rintro (hu | ⟨hu, hid⟩)
          · exact .inl hu
          · exact .inr ⟨.inr hu, hid⟩
        · rintro (hu | ⟨rfl | hu, hid'⟩)
          · exact .inl hu
          · exact absurd hid'.symm hid
          · exact .inr ⟨hu, hid'⟩

theorem rows_of_replace (h : replace keep = .ok t) (id : String) (u : AuthUser) :
    t.rows[id]? = some u ↔ u ∈ keep ∧ u.connectionID = id := by
  simpa using rows_of_foldlM_insert h id u

section

variable (hkeep : keep.Pairwise fun u v =>
  u.connectionID ≠ v.connectionID ∧ u.nativeAuthID ≠ v.nativeAuthID)

include hkeep

/-- Rows with distinct keys and distinct native ids are accepted. -/
theorem foldlM_insert_eq_ok (hnew : ∀ u ∈ keep, ∀ v ∈ t.list,
      v.connectionID ≠ u.connectionID ∧ v.nativeAuthID ≠ u.nativeAuthID) :
    ∃ t', keep.foldlM insert t = .ok t' := by
  induction keep generalizing t with
  | nil => exact ⟨t, rfl⟩
  | cons u keep ih =>
    obtain ⟨hu, hkeep⟩ := List.pairwise_cons.1 hkeep
    have hrow : ∀ id v, t.rows[id]? = some v → v ∈ t.list := fun id v hv =>
      mem_list.2 (by rwa [t.keyed id v hv])
    obtain ⟨t₁, ht₁⟩ := upsert_eq_ok (t := t) (u := u) fun id v hv hn =>
      absurd hn (hnew u List.mem_cons_self v (hrow id v hv)).2
    have hnone : t.rows[u.connectionID]? = none := by
      rcases hv : t.rows[u.connectionID]? with - | v
      · rfl
      · exact absurd (t.keyed _ v hv) (hnew u List.mem_cons_self v (hrow _ v hv)).1
    rw [List.foldlM_cons, insert_eq_ok.2 ⟨hnone, ht₁⟩]
    refine ih hkeep fun v hv x hx => ?_
    rw [mem_list, rows_of_upsert ht₁] at hx
    split at hx
    · cases hx
      exact hu v hv
    · exact hnew v (List.mem_cons_of_mem u hv) x (mem_list.2 hx)

theorem replace_eq_ok :
    ∃ t, replace keep = .ok t :=
  foldlM_insert_eq_ok hkeep fun u _ v hv => by simp [mem_list] at hv

end

end AuthUsers

end LazGate
