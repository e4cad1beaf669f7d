import LazGate.Lib.Pool
import LazGate.Server.Connections

/-!
# Self-service connections

`internal/server/clientselfservice/service.go`: the effective policy of an account, and the creation
and deletion of connections by their owner.
-/

namespace LazGate

/-! ## The service -/

def errForbidden : String := "forbidden"

def errConnectionLimitReached : String := "connection limit reached"

def connectionLimitUnlimited : ℤ := -1

structure EffectiveConnectionPolicy where
  allowedNodeIDs : List String
  connectionLimit : ℤ
  deriving DecidableEq

def assignedTags (tags : List PolicyTag) (assignments : List AccountPolicyTag) : List PolicyTag :=
  assignments.filterMap fun a =>
    tags.reverse.find? fun tag => tag.status == .active && tag.id == a.tagID

def raiseLimit (limit : ℤ) (tag : PolicyTag) : ℤ :=
  if tag.connectionLimit = connectionLimitUnlimited then connectionLimitUnlimited
  else if limit ≠ connectionLimitUnlimited ∧ limit < tag.connectionLimit then tag.connectionLimit
  else limit

/-- The policy that the rows make up; without a tag there is none. The ids of the nodes are in no
fixed order in the source. -/
def policyOf (tags : List PolicyTag) (assignments : List AccountPolicyTag) :
    EffectiveConnectionPolicy :=
  let assigned := assignedTags tags assignments
  if assigned = [] then ⟨[], 0⟩
  else ⟨(assigned.flatMap fun tag => (tag.allowedNodeIDs.map trimSpace).filter (· ≠ "")).dedup,
    assigned.foldl raiseLimit 0⟩

structure CreateConnectionInput where
  accountID : String
  connectionName : String
  nodeIDs : List String
  deriving DecidableEq

namespace SelfService

open Store

def effectivePolicy (accountID : String) : StoreM EffectiveConnectionPolicy := do
  let tags ← ExceptT.lift (Prog.ask StoreCall.listPolicyTags)
  let assignments ← ExceptT.lift (Prog.ask (StoreCall.listAccountPolicyTags accountID))
  return policyOf tags assignments

def checkConnectionLimit (accountID : String) (limit : ℤ) (requested : ℕ) : StoreM Unit :=
  if limit = connectionLimitUnlimited then pure ()
  else do
    let active ← ExceptT.mk (Prog.ask (StoreCall.countActiveConnectionsForAccount accountID))
    if limit < (active + requested : ℕ) then throw errConnectionLimitReached else pure ()

def allowedNodes (policy : EffectiveConnectionPolicy) (requested : List String) :
    StoreM (List Node) :=
  let wanted := ((requested.map trimSpace).filter (· ≠ "")).dedup
  if wanted = [] then throw "node_ids are required"
  else do
    let nodes ← listNodes
    let out := nodes.filter fun node => node.status == .active &&
      policy.allowedNodeIDs.contains node.id && wanted.contains node.id &&
      enrollmentProtocolForNode node != .unset
    if out.length ≠ wanted.length then throw errForbidden else return out

/-- The connections are created one after the other, also after one has failed. -/
def createOn (R : Rendering) (account : Account) (name : String) (nodes : List Node) :
    StoreM (List (Except String ConnectionResult)) :=
  nodes.foldlM (fun results node => do
    let created ← attemptResult (Connections.createEnrollmentConnection R node account name)
    return results ++ [created]) []

def createConnections (R : Rendering) (input : CreateConnectionInput) :
    StoreM (List (Except String ConnectionResult)) := do
  let account ← Store.getAccount input.accountID
  if account.status ≠ .active then throw errForbidden
  else if trimSpace input.connectionName = "" then throw "connection_name is required"
  else do
    let policy ← effectivePolicy account.id
    if policy.connectionLimit = 0 then throw errForbidden
    else do
      let nodes ← allowedNodes policy input.nodeIDs
      checkConnectionLimit account.id policy.connectionLimit nodes.length
      createOn R account (trimSpace input.connectionName) nodes

def deleteConnection (accountID connectionID : String) : StoreM Connection := do
  let account ← Store.getAccount accountID
  if account.status ≠ .active then throw errForbidden
  else do
    let connection ← getConnection (trimSpace connectionID)
    if connection.accountID ≠ account.id ∨ connection.desiredStatus = .deleted then
      throw errForbidden
    else do
      let nodes ← listNodes
      match nodes.reverse.find? fun node => node.id == connection.nodeID with
      | none => throw "node not found"
      | some node => Connections.deleteConnection connection node

section Only

open Prog Connections

variable {L : StoreCall → Prop} (hL : ∀ c, StoreCall.Quiet c → L c)

include hL

theorem only_allowedNodes (policy : EffectiveConnectionPolicy) (requested : List String) :
    Only L (allowedNodes policy requested).run := by
  unfold allowedNodes
  dsimp only
  split
  · exact Only.fail
  refine Only.andThen (Only.lift (Only.ask (hL .listNodes ⟨rfl, nofun⟩))) fun nodes => ?_
  split
  · exact Only.fail
  · exact Only.ok

theorem only_checkConnectionLimit (accountID : String) (limit : ℤ) (requested : ℕ) :
    Only L (checkConnectionLimit accountID limit requested).run := by
  unfold checkConnectionLimit
  split
  · exact Only.ok
  refine Only.andThen
    (Only.ask (hL (.countActiveConnectionsForAccount _) ⟨rfl, nofun⟩)) fun active => ?_
  split
  · exact Only.fail
  · exact Only.ok

theorem only_createConnections (hinsert : ∀ bundle, L (.insertBundle bundle)) (R : Rendering)
    (input : CreateConnectionInput) : Only L (createConnections R input).run := by
  refine Only.andThen (Only.ask (hL (.getAccount _) ⟨rfl, nofun⟩)) fun account => ?_
  split
  · exact Only.fail
  split
  · exact Only.fail
  refine Only.andThen ?_ fun policy => ?_
  · refine Only.andThen (Only.lift (Only.ask (hL .listPolicyTags ⟨rfl, nofun⟩))) fun tags => ?_
    refine Only.andThen
      (Only.lift (Only.ask (hL (.listAccountPolicyTags _) ⟨rfl, nofun⟩))) fun assignments => ?_
    exact Only.ok
  split
  · exact Only.fail
  refine Only.andThen (only_allowedNodes hL policy _) fun nodes => ?_
  refine Only.andThen (only_checkConnectionLimit hL _ _ _) fun _ => ?_
  refine Only.foldlM (fun node _ _ => Only.andThen (Only.result ?_) fun _ => Only.ok) _
  exact only_createEnrollmentConnection hL hinsert R node account _

theorem only_deleteConnection (hdel : ∀ id t, L (.setDesiredStatus id .deleted t))
    (hfin : ∀ candidates applied, L (.finalize candidates applied))
    (accountID connectionID : String) : Only L (deleteConnection accountID connectionID).run := by
  refine Only.andThen (Only.ask (hL (.getAccount _) ⟨rfl, nofun⟩)) fun account => ?_
  split
  · exact Only.fail
  refine Only.andThen (Only.ask (hL (.getConnection _) ⟨rfl, nofun⟩)) fun connection => ?_
  split
  · exact Only.fail
  refine Only.andThen (Only.lift (Only.ask (hL .listNodes ⟨rfl, nofun⟩))) fun nodes => ?_
  split
  · exact Only.fail
  · exact only_changeStatus hL (hdel _) hfin _ true

end Only

end SelfService

/-! ## The policy -/

theorem foldl_raiseLimit_unlimited (tags : List PolicyTag) :
    tags.foldl raiseLimit connectionLimitUnlimited = connectionLimitUnlimited := by
  induction tags with
  | nil => rfl
  | cons tag tags ih =>
    have hstep : raiseLimit connectionLimitUnlimited tag = connectionLimitUnlimited := by
      simp [raiseLimit]
    rw [List.foldl_cons, hstep, ih]

variable {tag : PolicyTag}

theorem foldl_raiseLimit_of_unlimited {tags : List PolicyTag} (hmem : tag ∈ tags)
    (htag : tag.connectionLimit = connectionLimitUnlimited) (limit : ℤ) :
    tags.foldl raiseLimit limit = connectionLimitUnlimited := by
  obtain ⟨before, rest, rfl⟩ := List.append_of_mem hmem
  rw [List.foldl_append, List.foldl_cons, raiseLimit, if_pos htag]
  exact foldl_raiseLimit_unlimited rest

/-- Otherwise the limit is the largest one. -/
theorem foldl_raiseLimit_finite {tags : List PolicyTag}
    (h : ∀ tag ∈ tags, tag.connectionLimit ≠ connectionLimitUnlimited) {limit : ℤ}
    (hlimit : 0 ≤ limit) :
    limit ≤ tags.foldl raiseLimit limit ∧
      (∀ tag ∈ tags, tag.connectionLimit ≤ tags.foldl raiseLimit limit) ∧
      (tags.foldl raiseLimit limit = limit ∨
        ∃ tag ∈ tags, tags.foldl raiseLimit limit = tag.connectionLimit) := by
  induction tags generalizing limit with
  | nil => exact ⟨le_refl _, by simp, .inl rfl⟩
  | cons tag tags ih =>
    rw [List.forall_mem_cons] at h
    have hne : limit ≠ connectionLimitUnlimited := by
      intro he
      rw [he] at hlimit
      exact absurd hlimit (by decide)
    have hstep : raiseLimit limit tag = max limit tag.connectionLimit := by
      rw [raiseLimit, if_neg h.1]
      split
      · rename_i hlt
        exact (max_eq_right hlt.2.le).symm
      · rename_i hnot
        exact (max_eq_left (not_lt.1 fun hlt => hnot ⟨hne, hlt⟩)).symm
    have hraised : 0 ≤ raiseLimit limit tag := hstep ▸ hlimit.trans (le_max_left _ _)
    obtain ⟨hle, hall, hex⟩ := ih h.2 hraised
    rw [List.foldl_cons]
    rw [hstep] at hle hall hex ⊢
    refine ⟨(le_max_left _ _).trans hle, ?_, ?_⟩
    · rw [List.forall_mem_cons]
      exact ⟨(le_max_right _ _).trans hle, hall⟩
    · rcases hex with hex | ⟨t, ht, hex⟩
      · rcases max_choice limit tag.connectionLimit with hm | hm
        · exact .inl (hex.trans hm)
        · exact .inr ⟨tag, List.mem_cons_self, hex.trans hm⟩
      · exact .inr ⟨t, List.mem_cons_of_mem _ ht, hex⟩

def OneTagPerID (tags : List PolicyTag) : Prop :=
  ∀ tag ∈ tags, ∀ tag' ∈ tags, tag.id = tag'.id → tag = tag'

instance (tags : List PolicyTag) : Decidable (OneTagPerID tags) :=
  inferInstanceAs (Decidable (∀ _ ∈ _, ∀ _ ∈ _, _ → _))

theorem mem_assignedTags {tags : List PolicyTag} (hid : OneTagPerID tags)
    {assignments : List AccountPolicyTag} :
    tag ∈ assignedTags tags assignments ↔
      tag ∈ tags ∧ tag.status = .active ∧ ∃ a ∈ assignments, a.tagID = tag.id := by
  rw [assignedTags, List.mem_filterMap]
  constructor
  · rintro ⟨a, ha, hfind⟩
    have hmem := List.mem_reverse.1 (List.mem_of_find?_eq_some hfind)
    have htag := List.find?_some hfind
    rw [Bool.and_eq_true, beq_iff_eq, beq_iff_eq] at htag
    exact ⟨hmem, htag.1, a, ha, htag.2.symm⟩
  · rintro ⟨hmem, hactive, a, ha, htag⟩
    refine ⟨a, ha, ?_⟩
    cases hfind : tags.reverse.find? fun tag => tag.status == .active && tag.id == a.tagID with
    | none =>
      rw [List.find?_eq_none] at hfind
      refine absurd ?_ (hfind tag (List.mem_reverse.2 hmem))
      rw [Bool.and_eq_true, beq_iff_eq, beq_iff_eq]
      exact ⟨hactive, htag.symm⟩
    | some tag' =>
      have hmem' := List.mem_reverse.1 (List.mem_of_find?_eq_some hfind)
      have htag' := List.find?_some hfind
      rw [Bool.and_eq_true, beq_iff_eq, beq_iff_eq] at htag'
      rw [hid tag' hmem' tag hmem (htag'.2.trans htag)]

theorem OneTagPerID.subset {tags tags' : List PolicyTag} (hid : OneTagPerID tags)
    (hsub : tags' ⊆ tags) : OneTagPerID tags' :=
  fun tag htag tag' htag' => hid tag (hsub htag) tag' (hsub htag')

theorem assignedTags_subset {tags tags' : List PolicyTag} (hid : OneTagPerID tags)
    {assignments assignments' : List AccountPolicyTag} (ht : tags' ⊆ tags)
    (ha : assignments' ⊆ assignments) :
    assignedTags tags' assignments' ⊆ assignedTags tags assignments := by
  intro tag hmem
  obtain ⟨htag, hactive, a, hassigned, hkey⟩ := (mem_assignedTags (hid.subset ht)).1 hmem
  exact (mem_assignedTags hid).2 ⟨ht htag, hactive, a, ha hassigned, hkey⟩

theorem connectionLimit_policyOf (tags : List PolicyTag) (assignments : List AccountPolicyTag) :
    (policyOf tags assignments).connectionLimit =
      (assignedTags tags assignments).foldl raiseLimit 0 := by
  rw [policyOf]
  split
  · rename_i hnil
    rw [hnil]
    rfl
  · rfl

theorem mem_allowedNodeIDs_policyOf {tags : List PolicyTag} {assignments : List AccountPolicyTag}
    {id : String} :
    id ∈ (policyOf tags assignments).allowedNodeIDs ↔
      id ≠ "" ∧ ∃ tag ∈ assignedTags tags assignments, ∃ n ∈ tag.allowedNodeIDs,
        trimSpace n = id := by
  rw [policyOf]
  split
  · rename_i hnil
    simp [hnil]
  · simp only [List.mem_dedup, List.mem_flatMap, List.mem_filter, List.mem_map, decide_eq_true_eq]
    constructor
    · rintro ⟨tag, htag, hn, hne⟩
      exact ⟨hne, tag, htag, hn⟩
    · rintro ⟨hne, tag, htag, hn⟩
      exact ⟨tag, htag, hn, hne⟩

/-- A limit is at most another one, where no limit is the largest. -/
def LimitLE (limit limit' : ℤ) : Prop :=
  limit' = connectionLimitUnlimited ∨ limit ≠ connectionLimitUnlimited ∧ limit ≤ limit'

theorem LimitLE.antisymm {limit limit' : ℤ} (h : LimitLE limit limit') (h' : LimitLE limit' limit) :
    limit = limit' := by
  rcases h with h | ⟨hne, hle⟩ <;> rcases h' with h' | ⟨hne', hle'⟩
  · exact h'.trans h.symm
  · exact absurd h hne'
  · exact absurd h' hne
  · exact le_antisymm hle hle'

theorem foldl_raiseLimit_le {tags tags' : List PolicyTag} (hsub : tags' ⊆ tags) :
    LimitLE (tags'.foldl raiseLimit 0) (tags.foldl raiseLimit 0) := by
  by_cases hunlimited : ∃ tag ∈ tags, tag.connectionLimit = connectionLimitUnlimited
  · obtain ⟨tag, hmem, htag⟩ := hunlimited
    exact .inl (foldl_raiseLimit_of_unlimited hmem htag 0)
  · have hno : ∀ tag ∈ tags, tag.connectionLimit ≠ connectionLimitUnlimited :=
      fun tag hmem htag => hunlimited ⟨tag, hmem, htag⟩
    obtain ⟨hle, hall, -⟩ := foldl_raiseLimit_finite hno (le_refl 0)
    obtain ⟨hle', -, hex⟩ :=
      foldl_raiseLimit_finite (fun tag hmem => hno tag (hsub hmem)) (le_refl 0)
    refine .inr ⟨fun he => ?_, ?_⟩
    · rw [he] at hle'
      exact absurd hle' (by decide)
    · rcases hex with hex | ⟨tag, hmem, hex⟩
      · rw [hex]
        exact hle
      · rw [hex]
        exact hall tag (hsub hmem)

theorem policyOf_le {tags tags' : List PolicyTag} (hid : OneTagPerID tags)
    {assignments assignments' : List AccountPolicyTag} (ht : tags' ⊆ tags)
    (ha : assignments' ⊆ assignments) :
    LimitLE (policyOf tags' assignments').connectionLimit
        (policyOf tags assignments).connectionLimit ∧
      (policyOf tags' assignments').allowedNodeIDs ⊆
        (policyOf tags assignments).allowedNodeIDs := by
  have hsub := assignedTags_subset hid ht ha
  constructor
  · rw [connectionLimit_policyOf, connectionLimit_policyOf]
    exact foldl_raiseLimit_le hsub
  · intro id hmem
    obtain ⟨hne, tag, htag, hn⟩ := mem_allowedNodeIDs_policyOf.1 hmem
    exact mem_allowedNodeIDs_policyOf.2 ⟨hne, tag, hsub htag, hn⟩

/-- The tags of an account are merged in its favour. The tags are those of the rows that are active
and assigned. -/
theorem policy_merges (tags : List PolicyTag) (assignments : List AccountPolicyTag)
    (hid : OneTagPerID tags) :
    let policy := policyOf tags assignments
    let Assigned := fun tag : PolicyTag =>
      tag ∈ tags ∧ tag.status = .active ∧ ∃ a ∈ assignments, a.tagID = tag.id
    ((∃ tag, Assigned tag ∧ tag.connectionLimit = connectionLimitUnlimited) →
      policy.connectionLimit = connectionLimitUnlimited) ∧
    ((¬ ∃ tag, Assigned tag ∧ tag.connectionLimit = connectionLimitUnlimited) →
      0 ≤ policy.connectionLimit ∧
      (∀ tag, Assigned tag → tag.connectionLimit ≤ policy.connectionLimit) ∧
      (policy.connectionLimit = 0 ∨
        ∃ tag, Assigned tag ∧ policy.connectionLimit = tag.connectionLimit)) ∧
    (∀ id, id ∈ policy.allowedNodeIDs ↔
      id ≠ "" ∧ ∃ tag, Assigned tag ∧ ∃ n ∈ tag.allowedNodeIDs, trimSpace n = id) ∧
    (∀ tags' assignments', (∀ tag, tag ∈ tags' ↔ tag ∈ tags) →
      (∀ a, a ∈ assignments' ↔ a ∈ assignments) →
      (policyOf tags' assignments').connectionLimit = policy.connectionLimit ∧
        ∀ id, id ∈ (policyOf tags' assignments').allowedNodeIDs ↔ id ∈ policy.allowedNodeIDs) ∧
    ∀ a before after, assignments = before ++ after →
      LimitLE policy.connectionLimit
          (policyOf tags (before ++ a :: after)).connectionLimit ∧
        policy.allowedNodeIDs ⊆ (policyOf tags (before ++ a :: after)).allowedNodeIDs := by
  intro policy Assigned
  have hassigned : ∀ tag, tag ∈ assignedTags tags assignments ↔ Assigned tag :=
    fun tag => mem_assignedTags hid
  have hlimit : policy.connectionLimit = (assignedTags tags assignments).foldl raiseLimit 0 :=
    connectionLimit_policyOf tags assignments
  refine ⟨?_, ?_, ?_, ?_, ?_⟩
  · rintro ⟨tag, htag, hunlimited⟩
    rw [hlimit]
    exact foldl_raiseLimit_of_unlimited ((hassigned tag).2 htag) hunlimited 0
  · intro hno
    rw [hlimit]
    obtain ⟨hle, hall, hex⟩ := foldl_raiseLimit_finite
      (fun tag hmem htag => hno ⟨tag, (hassigned tag).1 hmem, htag⟩) (le_refl 0)
    refine ⟨hle, fun tag htag => hall tag ((hassigned tag).2 htag), ?_⟩
    rcases hex with hex | ⟨tag, hmem, hex⟩
    · exact .inl hex
    · exact .inr ⟨tag, (hassigned tag).1 hmem, hex⟩
  · intro id
    rw [mem_allowedNodeIDs_policyOf]
    simp only [hassigned]
  · intro tags' assignments' ht ha
    have hle := policyOf_le hid (fun tag => (ht tag).1) (fun a => (ha a).1)
    have hge := policyOf_le (hid.subset fun tag => (ht tag).1) (fun tag => (ht tag).2)
      (fun a => (ha a).2)
    exact ⟨hle.1.antisymm hge.1, fun id => ⟨@hle.2 id, @hge.2 id⟩⟩
  · rintro a before after rfl
    refine policyOf_le hid (List.Subset.refl tags) ?_
    intro b hb
    rcases List.mem_append.1 hb with hb | hb
    · exact List.mem_append_left _ hb
    · exact List.mem_append_right _ (List.mem_cons_of_mem a hb)

namespace PolicySample

def tags : List PolicyTag :=
  [⟨"a", ["n", " m "], 2, .active⟩, ⟨"b", ["n"], 5, .active⟩, ⟨"c", [], -1, .deleted⟩]

def assignments : List AccountPolicyTag := [⟨"u", "b"⟩, ⟨"u", "c"⟩]

end PolicySample

open PolicySample in
theorem policy_merges_one_more :
    policyOf PolicySample.tags assignments = ⟨["n"], 5⟩ ∧
      policyOf PolicySample.tags (⟨"u", "a"⟩ :: assignments) = ⟨["m", "n"], 5⟩ ∧
      LimitLE (policyOf PolicySample.tags assignments).connectionLimit
        (policyOf PolicySample.tags (⟨"u", "a"⟩ :: assignments)).connectionLimit := by
  refine ⟨by decide +kernel, by decide +kernel, ?_⟩
  have h := policy_merges PolicySample.tags assignments (by decide)
  exact (h.2.2.2.2 ⟨"u", "a"⟩ [] assignments rfl).1

end LazGate
