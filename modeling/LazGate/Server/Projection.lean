import LazGate.Server.Model
import LazGate.Agent.Runtimes

/-!
# The server's manifest pages

`internal/server/agentprotocol`: the stored projector, which filters, sorts and cuts the stored
connections of a node into one page of changes, the response built from it, and the manifest that
is sent. The two change builders are those of the Hysteria and the AmneziaWG adapter.

`listSyncChanges_eq` and `buildResponse_eq` say what a page is: the first connections, in the order
of their ids, that come after the requested id and pass the filter.
-/

namespace LazGate

/-- The effective desired state of one credential. -/
structure StoredConnection (M : Type) where
  connectionID : String
  active : Bool
  updatedAtMS : ℤ
  material : M
  deriving DecidableEq

structure Query where
  full : Bool
  sinceManifestStartedAtMS : ℤ
  fromConnectionID : String
  pageSize : ℤ

/-- The stored connections of a node, and the change that reports one of them. -/
structure StoredConnectionProjector (M T : Type) where
  source : String → Except String (List (StoredConnection M))
  builder : StoredConnection M → Except String T

section Projector

variable {M T : Type}

/-- The order of `ListSyncChanges`. -/
def StoredConnection.le (a b : StoredConnection M) : Prop := a.connectionID ≤ b.connectionID

instance : DecidableRel (StoredConnection.le (M := M)) := fun a b =>
  inferInstanceAs (Decidable (a.connectionID ≤ b.connectionID))

/-- The filter of a page: a full one lists what is active, an incremental one what has changed. -/
def selects (full : Bool) (since : ℤ) (c : StoredConnection M) : Bool :=
  if full then c.active else !(c.updatedAtMS ≤ 0 || c.updatedAtMS < since)

/-- The change that reports `c`. -/
def changeOf (c : StoredConnection M) (payload : T) : Change T where
  connectionID := c.connectionID
  operation := if c.active then .upsert else .delete
  updatedAtMS := c.updatedAtMS
  payload := payload

/-- The loop of `ListSyncChanges`. -/
def projectRows (builder : StoredConnection M → Except String T) (query : Query) :
    List (StoredConnection M) → List (Change T) → Except String (List (Change T))
  | [], changes => .ok changes
  | c :: cs, changes =>
    if c.connectionID = "" then .error errInvalidConnectionID
    else if query.fromConnectionID ≠ "" ∧ c.connectionID ≤ query.fromConnectionID then
      projectRows builder query cs changes
    else if !selects query.full query.sinceManifestStartedAtMS c then
      projectRows builder query cs changes
    else
      match builder c with
      | .error e => .error e
      | .ok payload =>
        let changes := changes ++ [changeOf c payload]
        if (changes.length : ℤ) = query.pageSize then .ok changes
        else projectRows builder query cs changes

namespace StoredConnectionProjector

def listSyncChanges (p : StoredConnectionProjector M T) (query : Query) :
    Except String (List (Change T)) := do
  let credentials ← p.source query.fromConnectionID
  projectRows p.builder query (credentials.insertionSort StoredConnection.le) []

/-- `BuildResponse`, with the clock reading it takes before it lists the connections. -/
def buildResponse (p : StoredConnectionProjector M T) (request : Request) (now : ℤ) :
    Except String (Response T) := do
  validatePageSize request.pageSize
  let changes ← p.listSyncChanges ⟨request.full, request.sinceManifestStartedAtMS,
    request.fromConnectionID, request.pageSize⟩
  let changes := (sortChanges changes).take request.pageSize.toNat
  let response : Response T := ⟨now, request.full, changes⟩
  validateResponse response request.pageSize
  return response

end StoredConnectionProjector

/-- `ManifestHandler.Handle`: a request without a cursor is a full one, and an error becomes the
error text of the manifest. -/
def handleManifest {P : Type} (p : StoredConnectionProjector M (CredentialChange P))
    (request : Request) (now : ℤ) : Manifest P :=
  let full := request.full || request.sinceManifestStartedAtMS = 0
  match p.buildResponse { request with full := full } now with
  | .error e => ⟨0, full, [], e⟩
  | .ok response =>
    ⟨response.manifestStartedAtMS, response.full, response.changes.map (·.payload), ""⟩

end Projector

/-! ## The two adapters -/

def buildHysteriaCredentialChange (c : StoredConnection String) :
    Except String (CredentialChange HysteriaCredential) :=
  if !c.active then .ok ⟨c.connectionID, .delete, ⟨""⟩⟩
  else if c.material = "" then .error "active Hysteria credential has no password hash"
  else .ok ⟨c.connectionID, .upsert, ⟨c.material⟩⟩

def defaultPersistentKeepalive : ℤ := 25

def buildAmneziaCredentialChange (c : StoredConnection AmneziaWGSyncMaterial) :
    Except String (CredentialChange AmneziaCredential) :=
  if !c.active then .ok ⟨c.material.connectionID, .delete, ⟨"", "", "", "", 0⟩⟩
  else
    let desiredStatus := if c.material.desiredStatus = .unset then .active
      else c.material.desiredStatus
    let keepalive := if c.material.persistentKeepalive < 0 then defaultPersistentKeepalive
      else c.material.persistentKeepalive
    .ok ⟨c.material.connectionID, .upsert, {
      publicKey := trimSpace c.material.material.clientPublicKey
      presharedKey := trimSpace c.material.material.presharedKey
      assignedIPv4 := trimSpace c.material.material.assignedIPv4
      desiredStatus := desiredStatus.text
      persistentKeepalive := keepalive.toNat % 2 ^ 32 }⟩

/-- A row of `ListHysteriaSyncConnections`; the material is the password hash. -/
def hysteriaStored (r : SyncRow String) : StoredConnection String where
  connectionID := r.id
  active := r.accountStatus = .active && r.desiredStatus = .active && r.material ≠ ""
  updatedAtMS := r.desiredVersionMS
  material := r.material

/-- A row of `ListAmneziaWGSyncConnections`, which reads the node configuration first. -/
def amneziaStored (persistentKeepalive : ℤ) (r : SyncRow AmneziaWGConnectionMaterial) :
    StoredConnection AmneziaWGSyncMaterial where
  connectionID := r.id
  active := r.accountStatus = .active && r.desiredStatus = .active && r.material.connectionID ≠ ""
  updatedAtMS := r.desiredVersionMS
  material := ⟨persistentKeepalive, r.id, r.desiredStatus, r.material⟩

/-! ## What a page is -/

variable {builder : StoredConnection M → Except String T} {changes : List (Change T)}
  {l rows : List (StoredConnection M)} {request : Request} {query : Query}

section Pages

variable {M T : Type}

/-- The rows of the query for one page: those after an id, in the order of their ids. -/
def listStored (rows : List (StoredConnection M)) (fromID : String) :
    List (StoredConnection M) :=
  (rows.filter fun c => fromID < c.connectionID).insertionSort StoredConnection.le

/-- The projector over the given rows of a node. -/
def storedProjector (rows : List (StoredConnection M))
    (builder : StoredConnection M → Except String T) : StoredConnectionProjector M T where
  source fromID := .ok (listStored rows fromID)
  builder := builder

/-- Rows with strictly ascending ids. -/
def InIDOrder (rows : List (StoredConnection M)) : Prop :=
  rows.Pairwise fun a b => a.connectionID < b.connectionID

/-- All rows that pass the filter, in the order of their ids. -/
def selection (rows : List (StoredConnection M)) (full : Bool) (since : ℤ) :
    List (StoredConnection M) :=
  (rows.insertionSort StoredConnection.le).filter (selects full since)

def report (builder : StoredConnection M → Except String T) (c : StoredConnection M) :
    Except String (Change T) :=
  (builder c).map (changeOf c)

theorem inIDOrder_insertionSort (h : (rows.map (·.connectionID)).Nodup) :
    InIDOrder (rows.insertionSort StoredConnection.le) := by
  have hsorted : (rows.insertionSort StoredConnection.le).Pairwise StoredConnection.le := by
    have : IsTrans (StoredConnection M) StoredConnection.le := ⟨fun _ _ _ => le_trans⟩
    have : Std.Total (StoredConnection.le (M := M)) := ⟨fun _ _ => le_total _ _⟩
    exact List.pairwise_insertionSort _ _
  have hnodup : ((rows.insertionSort StoredConnection.le).map (·.connectionID)).Nodup :=
    ((List.perm_insertionSort _ _).map _).nodup_iff.2 h
  rw [List.Nodup, List.pairwise_map] at hnodup
  exact (hsorted.and hnodup).imp fun hab => lt_of_le_of_ne hab.1 hab.2

theorem InIDOrder.eq_of_perm {l l' : List (StoredConnection M)} (h : InIDOrder l)
    (h' : InIDOrder l') (hp : l.Perm l') : l = l' :=
  hp.eq_of_pairwise (fun _ _ _ _ hab hba => absurd hba (lt_asymm hab)) h h'

theorem inIDOrder_selection (h : (rows.map (·.connectionID)).Nodup) (full : Bool) (since : ℤ) :
    InIDOrder (selection rows full since) :=
  (inIDOrder_insertionSort h).filter _

theorem mem_selection {rows : List (StoredConnection M)} {full : Bool} {since : ℤ}
    {c : StoredConnection M} : c ∈ selection rows full since ↔ c ∈ rows ∧ selects full since c := by
  rw [selection, List.mem_filter, (List.perm_insertionSort _ _).mem_iff]

/-- What the loop of a page goes through: sorting and filtering can change places. -/
theorem filter_listStored (h : (rows.map (·.connectionID)).Nodup) (full : Bool) (since : ℤ)
    (fromID : String) :
    ((listStored rows fromID).insertionSort StoredConnection.le).filter (selects full since) =
      (selection rows full since).filter fun c => fromID < c.connectionID := by
  have hfilter : ((rows.filter fun c => fromID < c.connectionID).map (·.connectionID)).Nodup :=
    h.sublist (List.filter_sublist.map _)
  have hlist : ((listStored rows fromID).map (·.connectionID)).Nodup :=
    ((List.perm_insertionSort _ _).map _).nodup_iff.2 hfilter
  refine InIDOrder.eq_of_perm ((inIDOrder_insertionSort hlist).filter _)
    ((inIDOrder_selection h full since).filter _) ?_
  have hleft : ((listStored rows fromID).insertionSort StoredConnection.le).Perm
      (rows.filter fun c => fromID < c.connectionID) :=
    (List.perm_insertionSort _ _).trans (List.perm_insertionSort _ _)
  have hright : (selection rows full since).Perm (rows.filter (selects full since)) :=
    (List.perm_insertionSort _ _).filter _
  refine (hleft.filter _).trans ?_
  rw [List.filter_comm]
  exact (hright.filter _).symm

/-- After the last row of a first part come the rows of the second part. -/
theorem InIDOrder.filter_after {l A B : List (StoredConnection M)} {fromID : String}
    (h : InIDOrder l) (hl : (l.filter fun c => fromID < c.connectionID) = A ++ B)
    (c : StoredConnection M) (hc : A.getLast? = some c) :
    (l.filter fun d => c.connectionID < d.connectionID) = B := by
  obtain ⟨A', rfl⟩ := List.getLast?_eq_some_iff.1 hc
  have hord : InIDOrder (A' ++ [c] ++ B) := hl ▸ h.filter _
  have hmem : c ∈ l.filter fun d => fromID < d.connectionID := by
    rw [hl]
    simp
  have hfrom : fromID < c.connectionID := by simpa using (List.mem_filter.1 hmem).2
  -- the rows after `c` are among those after `fromID`, where `c` splits the list
  have hsplit : (l.filter fun d => c.connectionID < d.connectionID) =
      (A' ++ [c] ++ B).filter fun d => c.connectionID < d.connectionID := by
    rw [← hl, List.filter_filter]
    refine List.filter_congr fun d _ => ?_
    by_cases hd : c.connectionID < d.connectionID
    · simp [hd, hfrom.trans hd]
    · simp [hd]
  rw [InIDOrder, List.pairwise_append] at hord
  have hbefore : ∀ d ∈ A' ++ [c], ¬ c.connectionID < d.connectionID := by
    intro d hd
    rcases List.mem_append.1 hd with hd | hd
    · have := (List.pairwise_append.1 hord.1).2.2 d hd c (by simp)
      exact lt_asymm this
    · simp [List.mem_singleton.1 hd]
  have hafter : ∀ d ∈ B, c.connectionID < d.connectionID := fun d hd =>
    hord.2.2 c (by simp) d hd
  rw [hsplit, List.filter_append, List.filter_eq_nil_iff.2 (by simpa using hbefore),
    List.filter_eq_self.2 (by simpa using hafter), List.nil_append]

/-- The loop of a page: it reports the selected rows until the page is full. -/
theorem projectRows_eq (builder : StoredConnection M → Except String T)
    {l : List (StoredConnection M)} (hid : ∀ c ∈ l, query.fromConnectionID < c.connectionID)
    {changes : List (Change T)} (hlen : (changes.length : ℤ) < query.pageSize) :
    projectRows builder query l changes =
      (((l.filter (selects query.full query.sinceManifestStartedAtMS)).take
        (query.pageSize.toNat - changes.length)).mapM (report builder)).map (changes ++ ·) := by
  induction l generalizing changes with
  | nil => simp [projectRows, Except.map, pure, Except.pure]
  | cons c l ih =>
    have hc := hid c List.mem_cons_self
    have hl : ∀ d ∈ l, query.fromConnectionID < d.connectionID := fun d hd =>
      hid d (List.mem_cons_of_mem c hd)
    have hne : c.connectionID ≠ "" := fun h => not_lt_empty _ (h ▸ hc)
    rw [projectRows, if_neg hne, if_neg fun h => not_le.2 hc h.2]
    by_cases hs : selects query.full query.sinceManifestStartedAtMS c
    · simp only [hs, Bool.not_true, Bool.false_eq_true, if_false, List.filter_cons_of_pos]
      obtain ⟨n, hn⟩ : ∃ n, query.pageSize.toNat - changes.length = n + 1 :=
        ⟨query.pageSize.toNat - changes.length - 1, by omega⟩
      rw [hn, List.take_succ_cons, List.mapM_cons]
      rcases hb : builder c with e | payload
      · simp [report, hb, Except.map, bind, Except.bind]
      · have hrep : report builder c = .ok (changeOf c payload) := by simp [report, hb, Except.map]
        by_cases hfull : ((changes ++ [changeOf c payload]).length : ℤ) = query.pageSize
        · have hn0 : n = 0 := by
            rw [List.length_append, List.length_singleton] at hfull
            omega
          simp only [hfull, if_true, hrep, hn0, List.take_zero, List.mapM_nil]
          rfl
        · simp only [hfull, if_false, hrep]
          rw [List.length_append, List.length_singleton] at hfull
          rw [ih hl (by rw [List.length_append, List.length_singleton]; omega)]
          have hn' : query.pageSize.toNat - (changes ++ [changeOf c payload]).length = n := by
            rw [List.length_append, List.length_singleton]
            omega
          rw [hn']
          generalize List.mapM (report builder) _ = r
          rcases r with e | cs <;> simp [Except.map, bind, Except.bind, pure, Except.pure]
    · simp only [hs, Bool.not_false, if_true]
      rw [ih hl hlen, List.filter_cons_of_neg hs]

theorem listSyncChanges_eq {rows : List (StoredConnection M)}
    (h : (rows.map (·.connectionID)).Nodup) (builder : StoredConnection M → Except String T)
    (hsize : 1 ≤ query.pageSize) :
    (storedProjector rows builder).listSyncChanges query =
      (((selection rows query.full query.sinceManifestStartedAtMS).filter fun c =>
        query.fromConnectionID < c.connectionID).take query.pageSize.toNat).mapM
          (report builder) := by
  have hid : ∀ c ∈ (listStored rows query.fromConnectionID).insertionSort StoredConnection.le,
      query.fromConnectionID < c.connectionID := by
    intro c hc
    have hc' : c ∈ rows.filter fun c => query.fromConnectionID < c.connectionID :=
      (List.perm_insertionSort _ _).mem_iff.1 ((List.perm_insertionSort _ _).mem_iff.1 hc)
    exact of_decide_eq_true (List.mem_filter.1 hc').2
  have hlen : (([] : List (Change T)).length : ℤ) < query.pageSize := by
    rw [List.length_nil]
    omega
  have hloop := projectRows_eq builder hid hlen
  rw [filter_listStored h, List.length_nil, Nat.sub_zero] at hloop
  refine hloop.trans ?_
  generalize List.mapM (report builder) _ = r
  rcases r with e | cs <;> rfl

theorem mapM_report_eq_ok (h : l.mapM (report builder) = .ok changes) :
    List.Forall₂ (fun c change => report builder c = .ok change) l changes := by
  induction l generalizing changes with
  | nil =>
    cases h
    exact .nil
  | cons c l ih =>
    rw [List.mapM_cons] at h
    rcases hc : report builder c with e | change
    · rw [hc] at h
      cases h
    · rw [hc] at h
      rcases hl : l.mapM (report builder) with e | cs
      · rw [hl] at h
        cases h
      · rw [hl] at h
        cases h
        exact .cons hc (ih hl)

theorem connectionID_of_report {builder : StoredConnection M → Except String T}
    {c : StoredConnection M} {change : Change T} (h : report builder c = .ok change) :
    change.connectionID = c.connectionID ∧
      change.operation = (if c.active then .upsert else .delete) ∧
      builder c = .ok change.payload := by
  obtain ⟨payload, hb, rfl⟩ := Except.map_eq_ok.1 h
  exact ⟨rfl, rfl, hb⟩

theorem map_connectionID_of_forall₂
    (h : List.Forall₂ (fun c change => report builder c = .ok change) l changes) :
    changes.map (·.connectionID) = l.map (·.connectionID) := by
  induction h with
  | nil => rfl
  | cons hc _ ih => rw [List.map_cons, List.map_cons, ih, (connectionID_of_report hc).1]

def pageRows (rows : List (StoredConnection M)) (request : Request) : List (StoredConnection M) :=
  ((selection rows request.full request.sinceManifestStartedAtMS).filter fun c =>
    request.fromConnectionID < c.connectionID).take request.pageSize.toNat

theorem ascending_page (h : (rows.map (·.connectionID)).Nodup)
    (hf : List.Forall₂ (fun c change => report builder c = .ok change) (pageRows rows request)
      changes) :
    Ascending "" (changes.map (·.connectionID)) := by
  rw [map_connectionID_of_forall₂ hf]
  constructor
  · rw [List.pairwise_map]
    exact ((inIDOrder_selection h _ _).filter _).take
  · intro id hid
    obtain ⟨c, hc, rfl⟩ := List.mem_map.1 hid
    have hfrom := of_decide_eq_true (List.mem_filter.1 (List.mem_of_mem_take hc)).2
    exact empty_lt fun h0 => not_lt_empty _ (h0 ▸ hfrom)

theorem validateResponse_page {rows : List (StoredConnection M)}
    (h : (rows.map (·.connectionID)).Nodup) {builder : StoredConnection M → Except String T}
    (hsize : validatePageSize request.pageSize = .ok ())
    {changes : List (Change T)}
    (hf : List.Forall₂ (fun c change => report builder c = .ok change) (pageRows rows request)
      changes) (now : ℤ) (full : Bool) :
    validateResponse (⟨now, full, changes⟩ : Response T) request.pageSize = .ok () := by
  have hbounds := validatePageSize_eq_ok.1 hsize
  refine validateResponse_eq_ok.2 ⟨hbounds, ?_, ascending_page h hf⟩
  have hlen : changes.length ≤ request.pageSize.toNat := by
    rw [← hf.length_eq]
    exact List.length_take_le _ _
  exact (Int.le_toNat (by omega)).1 hlen

/-- `BuildResponse` over stored rows: sorting and cutting the page again changes nothing, and the
check of the page never fails. -/
theorem buildResponse_eq {rows : List (StoredConnection M)} (h : (rows.map (·.connectionID)).Nodup)
    (builder : StoredConnection M → Except String T)
    (request : Request) (hsize : validatePageSize request.pageSize = .ok ()) (now : ℤ) :
    (storedProjector rows builder).buildResponse request now =
      ((pageRows rows request).mapM (report builder)).map fun changes =>
        ⟨now, request.full, changes⟩ := by
  have hlist : (storedProjector rows builder).listSyncChanges ⟨request.full,
      request.sinceManifestStartedAtMS, request.fromConnectionID, request.pageSize⟩ =
      (pageRows rows request).mapM (report builder) :=
    listSyncChanges_eq h builder (validatePageSize_eq_ok.1 hsize).1
  unfold StoredConnectionProjector.buildResponse
  rw [hsize, hlist]
  rcases hm : (pageRows rows request).mapM (report builder) with e | changes
  · rfl
  have hf := mapM_report_eq_ok hm
  have hpage : (sortChanges changes).take request.pageSize.toNat = changes := by
    rw [sortChanges_eq_self (ascending_page h hf), List.take_of_length_le]
    rw [← hf.length_eq]
    exact List.length_take_le _ _
  simp only [bind, Except.bind, hpage, validateResponse_page h hsize hf, Except.map]
  rfl

end Pages

end LazGate
