import LazGate.Server.Projection

/-!
# The two ends of a protocol

A protocol joins the sync of its agent to the projection of its server. What the two agree on is
the row of `auth_users` that an active connection stands for.
-/

namespace LazGate

open Prog

variable {P M N : Type}

/-- A call that writes neither `auth_users` nor `sync_state`. -/
def AgentCall.keepsTables : AgentCall → Bool
  | .setState .. | .upsertAuthUser _ | .deleteAuthUser _ | .applyFullAuthSnapshot .. => false
  | _ => true

/-- A call on the agent's machine that leaves its tables alone. -/
def Quiet : SyncCall P → Prop
  | .agent c => c.keepsTables
  | .authManifest _ => False

theorem AgentCall.tables_perform {c : AgentCall} (hc : c.keepsTables) (f : Outcome) (a : Agent) :
    (c.perform f a).2.users = a.users ∧ (c.perform f a).2.state = a.state := by
  have heff : ∀ r a', c.effect a = .ok (r, a') → a'.users = a.users ∧ a'.state = a.state := by
    intro r a' h
    cases c <;> simp [effect, Except.map, keepsTables] at h hc <;> grind
  rcases c.perform_cases f a with ⟨r, a', he, hp⟩ | ⟨e, r, a', -, he, hp⟩ | ⟨e, hp⟩
  · rw [hp]
    exact heff r a' he
  · rw [hp]
    exact heff r a' he
  · rw [hp]
    exact ⟨rfl, rfl⟩

/-- A protocol: the sync of the agent, and what the server makes of a row. The projection also reads
a setting of the node. -/
structure Adapter (P M N : Type) where
  sync : CredentialSync P
  stored : ℤ → SyncRow M → StoredConnection N
  builder : StoredConnection N → Except String (CredentialChange P)
  /-- The change that reports a connection. -/
  change : StoredConnection N → CredentialChange P
  /-- The row that an upsert writes. -/
  userOf : CredentialChange P → AuthUser
  /-- The row that an active connection stands for. -/
  user : SyncRow M → AuthUser
  active : SyncRow M → Bool
  shape : sync.Shape userOf Quiet
  stored_id : ∀ g r, (stored g r).connectionID = r.id
  stored_active : ∀ g r, (stored g r).active = active r
  stored_version : ∀ g r, (stored g r).updatedAtMS = r.desiredVersionMS
  builder_stored : ∀ g r, builder (stored g r) = .ok (change (stored g r))
  change_id : ∀ g r, (change (stored g r)).connectionID = r.id
  change_op : ∀ g r, (change (stored g r)).op = if active r then .upsert else .delete
  userOf_change : ∀ g r, active r → userOf (change (stored g r)) = user r
  user_id : ∀ r, (user r).connectionID = r.id

def hysteriaChange (c : StoredConnection String) : CredentialChange HysteriaCredential :=
  if c.active then ⟨c.connectionID, .upsert, ⟨c.material⟩⟩ else ⟨c.connectionID, .delete, ⟨""⟩⟩

def hysteriaAdapter : Adapter HysteriaCredential String String where
  sync := hysteriaSync
  stored _ := hysteriaStored
  builder := buildHysteriaCredentialChange
  change := hysteriaChange
  userOf := toAuthUser
  user r := ⟨r.id, r.id, hysteriaMeta r.material⟩
  active r := r.accountStatus = .active && r.desiredStatus = .active && r.material ≠ ""
  shape := hysteria_shape fun _ => rfl
  stored_id _ _ := rfl
  stored_active _ _ := rfl
  stored_version _ _ := rfl
  builder_stored g r := by
    unfold buildHysteriaCredentialChange hysteriaChange
    by_cases h : (hysteriaStored r).active
    · have hm : (hysteriaStored r).material ≠ "" := by
        simp only [hysteriaStored, Bool.and_eq_true, decide_eq_true_eq] at h
        exact h.2
      simp [h, hm]
    · simp [h]
  change_id g r := by
    unfold hysteriaChange
    split <;> rfl
  change_op g r := by
    unfold hysteriaChange
    change (if (hysteriaStored r).active then _ else _ : CredentialChange _).op =
      if (hysteriaStored r).active then _ else _
    split <;> rfl
  userOf_change g r h := by
    have h' : (hysteriaStored r).active = true := h
    simp only [hysteriaChange, h', if_true]
    rfl
  user_id _ := rfl

def amneziaChange (c : StoredConnection AmneziaWGSyncMaterial) :
    CredentialChange AmneziaCredential :=
  if c.active then
    ⟨c.material.connectionID, .upsert, {
      publicKey := trimSpace c.material.material.clientPublicKey
      presharedKey := trimSpace c.material.material.presharedKey
      assignedIPv4 := trimSpace c.material.material.assignedIPv4
      desiredStatus := "active"
      persistentKeepalive := (if c.material.persistentKeepalive < 0 then
        defaultPersistentKeepalive else c.material.persistentKeepalive).toNat % 2 ^ 32 }⟩
  else ⟨c.material.connectionID, .delete, ⟨"", "", "", "", 0⟩⟩

theorem quiet_allowsRemoval : AllowsRemoval (Quiet (P := P)) :=
  ⟨fun _ _ => rfl, fun _ => rfl, rfl, rfl, fun _ => rfl⟩

def amneziaAdapter :
    Adapter AmneziaCredential AmneziaWGConnectionMaterial AmneziaWGSyncMaterial where
  sync := amneziaSync
  stored := amneziaStored
  builder := buildAmneziaCredentialChange
  change := amneziaChange
  userOf := peerUser
  user r := ⟨r.id, trimSpace r.material.clientPublicKey, "\x7b\x7d"⟩
  active r := r.accountStatus = .active && r.desiredStatus = .active && r.material.connectionID ≠ ""
  shape := amnezia_shape quiet_allowsRemoval rfl (fun _ _ => rfl) fun _ _ => rfl
  stored_id _ _ := rfl
  stored_active _ _ := rfl
  stored_version _ _ := rfl
  builder_stored g r := by
    unfold buildAmneziaCredentialChange amneziaChange
    by_cases h : (amneziaStored g r).active
    · have hs : (amneziaStored g r).material.desiredStatus = .active := by
        simp only [amneziaStored, Bool.and_eq_true, decide_eq_true_eq] at h
        exact h.1.2
      simp only [h, Bool.not_true, Bool.false_eq_true, if_false, if_true, hs]
      rfl
    · simp [h]
  change_id g r := by
    unfold amneziaChange
    split <;> rfl
  change_op g r := by
    unfold amneziaChange
    change (if (amneziaStored g r).active then _ else _ : CredentialChange _).op =
      if (amneziaStored g r).active then _ else _
    split <;> rfl
  userOf_change g r h := by
    have h' : (amneziaStored g r).active = true := h
    simp only [amneziaChange, h', if_true]
    rfl
  user_id _ := rfl

/-! ## The pages of a node -/

structure NodeConnections (M : Type) where
  rows : List (StoredConnection M)
  distinct : (rows.map (·.connectionID)).Nodup
  nonempty : ∀ c ∈ rows, c.connectionID ≠ ""

structure NodeRows (M : Type) where
  rows : List (SyncRow M)
  distinct : (rows.map (·.id)).Nodup
  nonempty : ∀ r ∈ rows, r.id ≠ ""

def NodeRows.connections (n : NodeRows M) (A : Adapter P M N) (g : ℤ) : NodeConnections N where
  rows := n.rows.map (A.stored g)
  distinct := by
    have : (n.rows.map (A.stored g)).map (·.connectionID) = n.rows.map (·.id) := by
      rw [List.map_map]
      exact List.map_congr_left fun r _ => A.stored_id g r
    rw [this]
    exact n.distinct
  nonempty := by
    intro c hc
    obtain ⟨r, hr, rfl⟩ := List.mem_map.1 hc
    rw [A.stored_id]
    exact n.nonempty r hr

/-- The table has a row for each active connection of the node, with its current material, and no
other row. -/
def HoldsActive (A : Adapter P M N) (rows : List (SyncRow M)) (users : AuthUsers) : Prop :=
  ∀ (id : String) (u : AuthUser),
    users.rows[id]? = some u ↔ ∃ r ∈ rows, A.active r ∧ r.id = id ∧ A.user r = u

theorem mapM_report_of_total {T : Type} {builder : StoredConnection M → Except String T}
    (payload : StoredConnection M → T) {l : List (StoredConnection M)}
    (hb : ∀ c ∈ l, builder c = .ok (payload c)) :
    l.mapM (report builder) = .ok (l.map fun c => changeOf c (payload c)) := by
  induction l with
  | nil => rfl
  | cons c l ih =>
    have hc : report builder c = .ok (changeOf c (payload c)) := by
      simp [report, hb c List.mem_cons_self, Except.map]
    rw [List.mapM_cons, hc, ih fun d hd => hb d (List.mem_cons_of_mem c hd)]
    rfl

/-- The changes of one page, as the engine of the agent gets them. -/
def Adapter.page (A : Adapter P M N) (n : NodeRows M) (g : ℤ) (request : Request) :
    List (Change (CredentialChange P)) :=
  (pageRows (n.connections A g).rows request).map fun c => decodeChange (A.change c)

variable {rows : List (StoredConnection N)}

theorem mem_pageRows {request : Request} {c : StoredConnection N} (h : c ∈ pageRows rows request) :
    c ∈ rows ∧ selects request.full request.sinceManifestStartedAtMS c ∧
      request.fromConnectionID < c.connectionID := by
  have hfilter := List.mem_filter.1 (List.mem_of_mem_take h)
  have hsel := mem_selection.1 hfilter.1
  exact ⟨hsel.1, hsel.2, of_decide_eq_true hfilter.2⟩

theorem inIDOrder_pageRows (h : (rows.map (·.connectionID)).Nodup) (request : Request) :
    InIDOrder (pageRows rows request) :=
  ((inIDOrder_selection h _ _).filter _).take

section Page

variable (A : Adapter P M N) (n : NodeRows M) (g : ℤ) (request : Request)

theorem Adapter.mem_pageRows {c : StoredConnection N}
    (h : c ∈ pageRows (n.connections A g).rows request) :
    ∃ r ∈ n.rows, c = A.stored g r ∧
      selects request.full request.sinceManifestStartedAtMS (A.stored g r) ∧
      request.fromConnectionID < r.id := by
  obtain ⟨hmem, hsel, hfrom⟩ := LazGate.mem_pageRows h
  obtain ⟨r, hr, rfl⟩ := List.mem_map.1 hmem
  exact ⟨r, hr, rfl, hsel, A.stored_id g r ▸ hfrom⟩

theorem Adapter.map_connectionID_page : (A.page n g request).map (·.connectionID) =
      (pageRows (n.connections A g).rows request).map (·.connectionID) := by
  rw [page, List.map_map]
  refine List.map_congr_left fun c hc => ?_
  obtain ⟨r, -, rfl, -⟩ := A.mem_pageRows n g request hc
  change (A.change (A.stored g r)).connectionID = _
  rw [A.change_id, A.stored_id]

theorem Adapter.ascending_page :
    Ascending request.fromConnectionID ((A.page n g request).map (·.connectionID)) := by
  rw [A.map_connectionID_page]
  constructor
  · rw [List.pairwise_map]
    exact inIDOrder_pageRows (n.connections A g).distinct request
  · intro id hid
    obtain ⟨c, hc, rfl⟩ := List.mem_map.1 hid
    exact (LazGate.mem_pageRows hc).2.2

theorem Adapter.mem_page {c : Change (CredentialChange P)} (h : c ∈ A.page n g request) :
    ∃ r ∈ n.rows, c = decodeChange (A.change (A.stored g r)) ∧
      selects request.full request.sinceManifestStartedAtMS (A.stored g r) := by
  obtain ⟨c, hc, rfl⟩ := List.mem_map.1 h
  obtain ⟨r, hr, rfl, hsel, -⟩ := A.mem_pageRows n g request hc
  exact ⟨r, hr, rfl, hsel⟩

/-- A page leaves out only rows that come after all of it, and then it has the full size. -/
theorem Adapter.mem_page_or_after {r : SyncRow M} (hr : r ∈ n.rows)
    (hsel : selects request.full request.sinceManifestStartedAtMS (A.stored g r))
    (hfrom : request.fromConnectionID < r.id) :
    r.id ∈ (A.page n g request).map (·.connectionID) ∨
      (request.pageSize.toNat ≤ (A.page n g request).length ∧
        ∀ c ∈ A.page n g request, c.connectionID < r.id) := by
  have hmem : A.stored g r ∈ (selection (n.connections A g).rows request.full
      request.sinceManifestStartedAtMS).filter
        fun c => request.fromConnectionID < c.connectionID := by
    refine List.mem_filter.2 ⟨mem_selection.2 ⟨List.mem_map_of_mem hr, hsel⟩, ?_⟩
    rw [A.stored_id]
    exact decide_eq_true hfrom
  have hord : InIDOrder ((selection (n.connections A g).rows request.full
      request.sinceManifestStartedAtMS).filter
        fun c => request.fromConnectionID < c.connectionID) :=
    (inIDOrder_selection (n.connections A g).distinct _ _).filter _
  have hids := A.map_connectionID_page n g request
  unfold pageRows at hids
  generalize (selection (n.connections A g).rows request.full
    request.sinceManifestStartedAtMS).filter
      (fun c => request.fromConnectionID < c.connectionID) = l at hmem hord hids
  rw [← List.take_append_drop request.pageSize.toNat l] at hmem hord
  rcases List.mem_append.1 hmem with h | h
  · left
    rw [hids, ← A.stored_id g r]
    exact List.mem_map_of_mem h
  · right
    have hlen : (A.page n g request).length = (l.take request.pageSize.toNat).length := by
      simpa using congrArg List.length hids
    refine ⟨?_, fun c hc => ?_⟩
    · have := List.length_pos_of_mem h
      rw [List.length_drop] at this
      rw [hlen, List.length_take]
      omega
    · have hc' : c.connectionID ∈ (l.take request.pageSize.toNat).map (·.connectionID) :=
        hids ▸ List.mem_map_of_mem hc
      obtain ⟨d, hd, hdc⟩ := List.mem_map.1 hc'
      rw [← hdc, ← A.stored_id g r]
      exact (List.pairwise_append.1 hord).2.2 d hd _ h

/-- What is sent is what is read: a request is answered with its page. -/
theorem decode_handleManifest {request : Request}
    (hsize : validatePageSize request.pageSize = .ok ()) (now : ℤ) :
    decodeManifest (handleManifest (storedProjector (n.connections A g).rows A.builder) request
      now) =
      .ok ⟨now, request.full || request.sinceManifestStartedAtMS = 0, A.page n g { request with
        full := request.full || request.sinceManifestStartedAtMS = 0 }⟩ := by
  generalize hfull : (request.full || decide (request.sinceManifestStartedAtMS = 0)) = full
  have hbuild := buildResponse_eq (n.connections A g).distinct A.builder
    { request with full := full } hsize now
  rw [mapM_report_of_total A.change fun c hc => ?_] at hbuild
  · unfold handleManifest
    simp only [hfull, hbuild, Except.map]
    unfold decodeManifest
    simp only [ne_eq, not_true_eq_false, if_false, List.map_map]
    congr 2
    exact sortChanges_eq_self (A.ascending_page n g { request with full := full })
  · obtain ⟨r, -, rfl, -⟩ := A.mem_pageRows n g _ hc
    exact A.builder_stored g r

end Page

end LazGate
