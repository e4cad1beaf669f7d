import Mathlib

/-!
# The credential sync protocol

Pages of credential changes, as `internal/protocol` has them: requests, changes and responses, the
order of the changes of a page, and the checks that both sides make on a page.
-/

namespace LazGate

def defaultPageSize : ℤ := 100

def maxPageSize : ℤ := 1000

inductive Operation where
  | upsert
  | delete
  deriving DecidableEq

structure Request where
  full : Bool
  sinceManifestStartedAtMS : ℤ
  pageSize : ℤ
  fromConnectionID : String
  deriving DecidableEq

structure Change (T : Type) where
  connectionID : String
  operation : Operation
  updatedAtMS : ℤ
  payload : T
  deriving DecidableEq

structure Response (T : Type) where
  manifestStartedAtMS : ℤ
  full : Bool
  changes : List (Change T)
  deriving DecidableEq

def errInvalidPageSize : String := "invalid sync page_size"

def errInvalidConnectionID : String := "invalid sync connection_id"

def errUnsortedChanges : String := "sync changes must be sorted by connection_id"

variable {T : Type}

/-- The order of two changes in a page. -/
def Change.le (a b : Change T) : Prop := a.connectionID ≤ b.connectionID

instance : DecidableRel (Change.le (T := T)) := fun a b =>
  inferInstanceAs (Decidable (a.connectionID ≤ b.connectionID))

def sortChanges (changes : List (Change T)) : List (Change T) := changes.insertionSort Change.le

def normalizePageSize (pageSize : ℤ) : ℤ := if pageSize = 0 then defaultPageSize else pageSize

def validatePageSize (pageSize : ℤ) : Except String Unit :=
  if pageSize < 1 ∨ pageSize > maxPageSize then
    .error (errInvalidPageSize ++ ": got " ++ toString pageSize ++ ", want 1.." ++
      toString maxPageSize)
  else .ok ()

/-- The scan of `validateResponse` over the ids of a page, after the id `previous`. -/
def validateOrder : String → List (Change T) → Except String Unit
  | _, [] => .ok ()
  | previous, change :: changes =>
    if change.connectionID = "" then .error errInvalidConnectionID
    else if previous ≠ "" ∧ change.connectionID ≤ previous then .error errUnsortedChanges
    else validateOrder change.connectionID changes

def validateResponse (response : Response T) (pageSize : ℤ) : Except String Unit := do
  validatePageSize pageSize
  if (response.changes.length : ℤ) > pageSize then
    throw (errInvalidPageSize ++ ": response has " ++ toString response.changes.length ++
      " changes for page_size " ++ toString pageSize)
  validateOrder "" response.changes

/-! ## What the checks accept -/

variable {pageSize : ℤ}

theorem validatePageSize_eq_ok :
    validatePageSize pageSize = .ok () ↔ 1 ≤ pageSize ∧ pageSize ≤ 1000 := by
  unfold validatePageSize maxPageSize
  split
  · simp only [reduceCtorEq, false_iff]
    omega
  · simp only [true_iff]
    omega

theorem empty_lt {s : String} (h : s ≠ "") : "" < s := by
  rw [String.lt_iff_toList_lt]
  rcases hs : s.toList with - | ⟨c, cs⟩
  · exact absurd (String.toList_inj.1 (by simpa using hs)) h
  · simp

theorem not_lt_empty (s : String) : ¬ s < "" := by
  rw [String.lt_iff_toList_lt]
  simp

/-- Ids of a page: strictly increasing and all after `previous`, so none of them is empty. -/
def Ascending (previous : String) (ids : List String) : Prop :=
  ids.Pairwise (· < ·) ∧ ∀ id ∈ ids, previous < id

variable {previous : String}

theorem ascending_nil : Ascending previous [] := by simp [Ascending]

theorem ascending_cons {id : String} {ids : List String} :
    Ascending previous (id :: ids) ↔ previous < id ∧ Ascending id ids := by
  unfold Ascending
  simp only [List.pairwise_cons, List.mem_cons, forall_eq_or_imp]
  constructor
  · rintro ⟨⟨h1, h2⟩, h3, -⟩
    exact ⟨h3, h2, h1⟩
  · rintro ⟨h3, h2, h1⟩
    exact ⟨⟨h1, h2⟩, h3, fun x hx => h3.trans (h1 x hx)⟩

variable {changes : List (Change T)}

theorem validateOrder_eq_ok :
    validateOrder previous changes = .ok () ↔
      Ascending previous (changes.map (·.connectionID)) := by
  induction changes generalizing previous with
  | nil => simp [validateOrder, ascending_nil]
  | cons c cs ih =>
    rw [List.map_cons, ascending_cons, ← ih, validateOrder]
    by_cases hc : c.connectionID = ""
    · rw [if_pos hc]
      exact iff_of_false nofun fun h => not_lt_empty _ (hc ▸ h.1)
    rw [if_neg hc]
    by_cases hle : previous ≠ "" ∧ c.connectionID ≤ previous
    · rw [if_pos hle]
      exact iff_of_false nofun fun h => not_le.2 h.1 hle.2
    · rw [if_neg hle]
      have hlt : previous < c.connectionID := by
        by_cases hp : previous = ""
        · exact hp ▸ empty_lt hc
        · exact not_le.1 fun h => hle ⟨hp, h⟩
      exact ⟨fun h => ⟨hlt, h⟩, fun h => h.2⟩

theorem validateResponse_eq_ok {response : Response T} :
    validateResponse response pageSize = .ok () ↔
      (1 ≤ pageSize ∧ pageSize ≤ 1000) ∧ (response.changes.length : ℤ) ≤ pageSize ∧
        Ascending "" (response.changes.map (·.connectionID)) := by
  rw [← validateOrder_eq_ok, ← validatePageSize_eq_ok]
  unfold validateResponse
  rcases validatePageSize pageSize with e | ⟨⟩
  · simp [bind, Except.bind]
  · by_cases hlen : (response.changes.length : ℤ) > pageSize
    · simp [bind, Except.bind, hlen, throw, throwThe, MonadExceptOf.throw, not_le.2 hlen]
    · simp [bind, Except.bind, hlen, not_lt.1 hlen]

/-! ## The order of a page -/

theorem sortChanges_perm (changes : List (Change T)) : (sortChanges changes).Perm changes :=
  List.perm_insertionSort _ _

theorem sortChanges_eq_self (h : Ascending previous (changes.map (·.connectionID))) :
    sortChanges changes = changes := by
  refine List.Pairwise.insertionSort_eq ?_
  have := h.1
  rw [List.pairwise_map] at this
  exact this.imp fun hab => le_of_lt hab

end LazGate
