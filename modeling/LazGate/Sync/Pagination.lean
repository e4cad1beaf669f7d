import LazGate.Sync.Adapter
import LazGate.Agent.CursorSafety

/-!
# Pages against one big read

`Engine.run` asks `BuildResponse` for page after page. While nothing changes on the server this is
the same program as a pass that reads all selected connections at once, whatever applies the
changes: `run_eq_oneRead`. A full pass of either agent then leaves exactly the active connections in
the identity table.
-/

namespace LazGate

open Prog

variable {C : Type} {R : C → Type} {M N T P : Type}

/-- `BuildResponse` over the stored connections of a node as the source of pages; `clock` is the
time at which it answers a request. -/
def storedSource (node : NodeConnections M) (builder : StoredConnection M → Except String T)
    (clock : Request → ℤ) : Source C R T where
  fetchSyncPage request :=
    ofExcept ((storedProjector node.rows builder).buildResponse request (clock request))

/-- All that a pass has to apply, in one page. -/
def wholeResponse (node : NodeConnections M) (payload : StoredConnection M → T)
    (clock : Request → ℤ) (pageSize : ℤ) (full : Bool) (since : ℤ) : Response T where
  manifestStartedAtMS := clock ⟨full, since, pageSize, ""⟩
  full := full
  changes := (selection node.rows full since).map fun c => changeOf c (payload c)

def oneRead (cursors : CursorStore C R) (applier : Applier C R T P) (key : String)
    (read : Bool → ℤ → Response T) (full : Bool) : Attempt C R Unit := do
  let (full, since) ← loadCursor cursors key full
  let p ← openPass applier full (read full since)
  let p ← (read full since).changes.foldlM (applyChange applier) p
  applier.finishSyncPass p.pass ⟨p.full, p.passCursor, p.seen⟩
  cursors.saveSyncCursor key p.passCursor

/-! ## The loop -/

/-- The loop variables after the changes with the given ids. -/
def Progress.after (p : Progress P) (ids : List String) (pass : P) : Progress P :=
  { p with
    seen := ids.foldl (fun seen id => seen.insert id) p.seen
    fromConnectionID := ids.getLast?.getD p.fromConnectionID
    pass := pass }

theorem Progress.after_cons (p : Progress P) (id : String) (ids : List String) (x y : P) :
    (p.advance id x).after ids y = p.after (id :: ids) y := by
  rcases ids with - | ⟨i, ids⟩
  · rfl
  · simp [after, advance, List.getLast?_cons]

theorem foldlM_applyChange (applier : Applier C R T P) (changes : List (Change T))
    (p : Progress P) :
    changes.foldlM (applyChange applier) p = do
      let pass ← changes.foldlM applier.applySyncChange p.pass
      return p.after (changes.map (·.connectionID)) pass := by
  induction changes generalizing p with
  | nil => rfl
  | cons c cs ih =>
    simp only [List.foldlM_cons, applyChange, bind_assoc, pure_bind, ih, List.map_cons,
      Progress.after_cons]
    rfl

section Loop

variable (node : NodeConnections M) {builder : StoredConnection M → Except String T}
  {payload : StoredConnection M → T} {clock : Request → ℤ} {pageSize : ℤ}
  {applier : Applier C R T P}

theorem fetchPage_storedSource (hb : ∀ c ∈ node.rows, builder c = .ok (payload c))
    (hsize : validatePageSize pageSize = .ok ()) (full : Bool) (since : ℤ) (fromID : String) :
    fetchPage (C := C) (R := R) (storedSource node builder clock) full since pageSize fromID =
      pure ⟨clock ⟨full, since, pageSize, fromID⟩, full,
        (pageRows node.rows ⟨full, since, pageSize, fromID⟩).map
          fun c => changeOf c (payload c)⟩ := by
  have hrows : ∀ c ∈ pageRows node.rows ⟨full, since, pageSize, fromID⟩,
      builder c = .ok (payload c) := fun c hc =>
    hb c (mem_selection.1 (List.mem_of_mem_filter (List.mem_of_mem_take hc))).1
  have hmap := mapM_report_of_total payload hrows
  have hvalid := validateResponse_page node.distinct hsize (mapM_report_eq_ok hmap)
    (clock ⟨full, since, pageSize, fromID⟩) full
  have hbuild := buildResponse_eq node.distinct builder
    ⟨full, since, pageSize, fromID⟩ hsize (clock ⟨full, since, pageSize, fromID⟩)
  rw [hmap] at hbuild
  unfold fetchPage storedSource
  simp only [hbuild, Except.map, Attempt.ofExcept_ok, pure_bind, hvalid]

theorem getLast?_take {l : List (StoredConnection M)} {n : ℕ} (hn : 1 ≤ n) (hl : n ≤ l.length) :
    ∃ c, (l.take n).getLast? = some c := by
  refine Option.isSome_iff_exists.1 (List.getLast?_isSome.2 fun h => ?_)
  rcases List.take_eq_nil_iff.1 h with h | h
  · omega
  · rw [h, List.length_nil] at hl
    omega

/-- The loop: from a page that starts the rows still to come, it applies all of them. -/
theorem pages_eq_foldlM (hb : ∀ c ∈ node.rows, builder c = .ok (payload c))
    (hsize : validatePageSize pageSize = .ok ()) (full : Bool) (since : ℤ) (fuel : ℕ) :
    ∀ (fromID : String) (now : ℤ) (rest : List (StoredConnection M)) (p : Progress P),
      ((selection node.rows full since).filter fun c => fromID < c.connectionID) = rest →
      rest.length ≤ fuel → p.full = full →
      pages (storedSource node builder clock) applier since pageSize fuel
        ⟨now, full, (rest.take pageSize.toNat).map fun c => changeOf c (payload c)⟩ p =
      (rest.map fun c => changeOf c (payload c)).foldlM (applyChange applier) p := by
  have hbounds := validatePageSize_eq_ok.1 hsize
  induction fuel with
  | zero =>
    intro fromID now rest p hrest hlen hp
    obtain rfl : rest = [] := List.length_eq_zero_iff.1 (by omega)
    unfold pages
    have hshort : ((([] : List (StoredConnection M)).take pageSize.toNat).map
        fun c => changeOf c (payload c)).length < pageSize := by simp; omega
    simp only [hshort, if_true, bind_pure]
    simp
  | succ fuel ih =>
    intro fromID now rest p hrest hlen hp
    unfold pages
    by_cases hshort : rest.length < pageSize.toNat
    · -- the last page: it has all the rows
      have htake : rest.take pageSize.toNat = rest := List.take_of_length_le hshort.le
      have hlt : ((rest.map fun c => changeOf c (payload c)).length : ℤ) < pageSize := by
        rw [List.length_map]
        omega
      simp only [htake, hlt, if_true, bind_pure]
    · have hlt : ¬ (((rest.take pageSize.toNat).map
          fun c => changeOf c (payload c)).length : ℤ) < pageSize := by
        rw [List.length_map, List.length_take]
        omega
      obtain ⟨c, hc⟩ := getLast?_take (l := rest) (n := pageSize.toNat) (by omega) (by omega)
      have hnext : ((selection node.rows full since).filter
          fun d => c.connectionID < d.connectionID) = rest.drop pageSize.toNat :=
        (inIDOrder_selection node.distinct full since).filter_after
          (hrest.trans (List.take_append_drop pageSize.toNat rest).symm) c hc
      have hlast : (((rest.take pageSize.toNat).map fun c => changeOf c (payload c)).map
          (·.connectionID)).getLast? = some c.connectionID := by
        rw [List.map_map, List.getLast?_map, hc]
        rfl
      have hsplit : (rest.map fun c => changeOf c (payload c)) =
          (rest.take pageSize.toNat).map (fun c => changeOf c (payload c)) ++
            (rest.drop pageSize.toNat).map fun c => changeOf c (payload c) := by
        rw [← List.map_append, List.take_append_drop]
      rw [hsplit, List.foldlM_append, foldlM_applyChange]
      simp only [bind_assoc, pure_bind, hlt, if_false]
      congr 1
      funext pass
      have hfrom : (p.after (((rest.take pageSize.toNat).map fun c => changeOf c (payload c)).map
          (·.connectionID)) pass).fromConnectionID = c.connectionID := by
        rw [Progress.after, hlast]
        rfl
      have hfull : (p.after (((rest.take pageSize.toNat).map fun c => changeOf c (payload c)).map
          (·.connectionID)) pass).full = full := hp
      rw [hfrom, hfull, fetchPage_storedSource node hb hsize, pure_bind]
      simp only [pageRows, hnext]
      exact ih c.connectionID _ _ _ hnext (by rw [List.length_drop]; omega) hfull

theorem filter_selection (full : Bool) (since : ℤ) :
    ((selection node.rows full since).filter fun c => "" < c.connectionID) =
      selection node.rows full since := by
  refine List.filter_eq_self.2 fun c hc => decide_eq_true ?_
  exact empty_lt (node.nonempty c (mem_selection.1 hc).1)

/-- A run over pages is the run that reads everything at once, for every applier and every store of
the cursor. -/
theorem run_eq_oneRead (clock : Request → ℤ) (hb : ∀ c ∈ node.rows, builder c = .ok (payload c))
    (hsize : validatePageSize pageSize = .ok ()) (cursors : CursorStore C R)
    (applier : Applier C R T P) (key : String) (full : Bool) {fuel : ℕ}
    (hfuel : node.rows.length ≤ fuel) :
    (⟨key, pageSize, some cursors, some (storedSource node builder clock), some applier⟩ :
      Engine C R T P).run fuel full =
      oneRead cursors applier key (wholeResponse node payload clock pageSize) full := by
  have hbounds := validatePageSize_eq_ok.1 hsize
  have hnorm : normalizePageSize pageSize = pageSize := if_neg (by omega)
  have hlen : ∀ full since, (selection node.rows full since).length ≤ fuel := by
    intro full since
    refine le_trans (List.length_filter_le _ _) ?_
    rwa [(List.perm_insertionSort _ _).length_eq]
  unfold Engine.run oneRead
  simp only [hnorm, hsize, Attempt.ofExcept_ok, pure_bind]
  unfold runPass
  congr 1
  funext x
  obtain ⟨full, since⟩ := x
  simp only [fetchPage_storedSource node hb hsize, pure_bind, openPass, wholeResponse, bind_assoc,
    pageRows, filter_selection]
  congr 1
  funext pass
  rw [pages_eq_foldlM node hb hsize full since fuel "" _ _ _ (filter_selection node full since)
    (hlen full since) (Bool.or_self full)]

end Loop

/-! ## The identity table after a full pass -/

/-- A run that no one interferes with; if `strict`, one whose calls all succeed. -/
def undisturbed (P : Type) (strict : Bool) :
    Setting (SyncCall P) SyncCall.Reply (Choice P) Agent :=
  { alone performAny with admits := fun _ f _ => strict = true → f.outcome = .ok }

/-- The operations of a sync on an undisturbed agent, where `E` tells whether they may fail. -/
structure TableOps (s : CredentialSync P) (userOf : CredentialChange P → AuthUser)
    (strict : Bool) (E : Prop) : Prop where
  list : ∀ w, Safe (undisturbed P strict) s.store.listAuthUsers.run
    (onOk (fun _ _ => True) fun _ _ => E) w
  apply : ∀ c w, Safe (undisturbed P strict) (s.runtime.applyCredential c).run
    (onOk (fun u _ => u = userOf c) fun _ _ => E) w
  snapshot : ∀ keep t w, (E ∨ ∃ rows, AuthUsers.replace (users keep) = .ok rows) →
    Safe (undisturbed P strict) (s.store.applyFullAuthSnapshot keep authSyncCursorKey t).run
      (onOk (fun _ w => AuthUsers.replace (users keep) = .ok w.users) fun _ _ => E) w
  remove : ∀ u w, Safe (undisturbed P strict) (s.runtime.removeCredential u).run
    (onOk (fun _ w' => w'.users = w.users) fun _ _ => E) w
  reconcile : ∀ keep w, Safe (undisturbed P strict) (s.runtime.reconcileCredentials keep).run
    (onOk (fun _ w' => w'.users = w.users) fun _ _ => E) w
  save : ∀ t w, Safe (undisturbed P strict)
    ((authCursor s.store).saveSyncCursor authSyncCursorKey t).run
      (onOk (fun _ w' => w'.users = w.users) fun _ _ => E) w

/-- The rows that the changes of a full pass leave. -/
def keepOf (userOf : CredentialChange P → AuthUser) (changes : List (Change (CredentialChange P))) :
    Std.ExtTreeMap String AuthUser :=
  changes.foldl (fun keep c => keep.insert c.connectionID (userOf c.payload)) ∅

variable {order : MapOrder}

namespace TableOps

variable {s : CredentialSync P} {userOf : CredentialChange P → AuthUser} {strict : Bool}
  {E : Prop} (O : TableOps s userOf strict E)
include O

theorem applyChanges {changes : List (Change (CredentialChange P))}
    (hup : ∀ c ∈ changes, c.operation = .upsert) {p : Progress CredentialPass}
    (hp : p.pass.full = true) (hkeep : p.pass.keep = ∅) (w : Agent) :
    Safe (undisturbed P strict) (changes.foldlM (applyChange (s.applier order)) p).run
      (onOk (fun p' _ => p'.pass.full = true ∧ p'.pass.keep = keepOf userOf changes)
        fun _ _ => E) w := by
  refine Safe.foldlM (fun rest p _ => p.pass.full = true ∧ ∃ done, done ++ rest = changes ∧
    p.pass.keep = keepOf userOf done) ?_ ?_ changes p w ?_
  · rintro c rest p w ⟨hp, done, hdone, hkeep⟩
    have hc : c.operation = .upsert := hup c (hdone ▸ by simp)
    refine Safe.andThen ?_
    change Safe _ (s.applySyncChange p.pass c).run _ w
    simp only [CredentialSync.applySyncChange, hc, CredentialPass.unlessFull, hp, if_true]
    refine Safe.seq (O.apply c.payload w) fun u w' hu => ?_
    obtain rfl : u = userOf c.payload := hu
    refine Safe.ok fun w'' _ => Safe.ok fun w3 _ => ⟨hp, done ++ [c], by simpa using hdone, ?_⟩
    simp [Progress.advance, CredentialPass.keeping, hkeep, keepOf]
  · rintro p w ⟨hp, done, hdone, hkeep⟩
    rw [List.append_nil] at hdone
    exact ⟨hp, hdone ▸ hkeep⟩
  · rintro w' -
    exact ⟨hp, [], rfl, hkeep⟩

theorem finish {p : CredentialPass} (hp : p.full = true) (r : PassResult)
    (hreplace : E ∨ ∃ rows, AuthUsers.replace (users p.keep) = .ok rows) (w : Agent) :
    Safe (undisturbed P strict) (s.finishSyncPass order p r).run
      (onOk (fun _ w => AuthUsers.replace (users p.keep) = .ok w.users) fun _ _ => E) w := by
  have hwhen : ∀ x : Sync P Unit, p.whenFull x = x := fun x => by
    simp [CredentialPass.whenFull, hp]
  unfold CredentialSync.finishSyncPass
  rw [hwhen, hwhen]
  refine Safe.seq (O.snapshot p.keep r.manifestStartedAtMS w hreplace) fun _ w hw => ?_
  refine Safe.andThen (Safe.forM
    (fun _ w => AuthUsers.replace (users p.keep) = .ok w.users) ?_ ?_ _ w ?_)
  · intro u l w hw
    exact (O.remove u w).imp fun _ w' hw' => hw.trans (congrArg Except.ok (Eq.symm hw'))
  · intro w hw
    exact (O.reconcile p.keep w).imp fun _ w' hw' => hw.trans (congrArg Except.ok (Eq.symm hw'))
  · rintro w' rfl
    exact hw

/-- A full pass over one page of upserts: the table is what the page says. -/
theorem oneRead (order : MapOrder) {read : Bool → ℤ → Response (CredentialChange P)}
    (hup : ∀ c ∈ (read true 0).changes, c.operation = .upsert) (hreplace : E ∨ ∃ rows,
      AuthUsers.replace (users (keepOf userOf (read true 0).changes)) = .ok rows) (w : Agent) :
    Safe (undisturbed P strict)
      (oneRead (authCursor s.store) (s.applier order) authSyncCursorKey read true).run
      (onOk (fun _ w => AuthUsers.replace (users (keepOf userOf (read true 0).changes)) =
        .ok w.users) fun _ _ => E) w := by
  unfold LazGate.oneRead
  refine Safe.andThen (Safe.ok ?_)
  rintro w' rfl
  refine Safe.andThen (Safe.andThen (Safe.andThen ((O.list w).mono ?_)))
  rintro (e | l) w1 hl
  · exact hl
  refine Safe.ok fun w2 _ => Safe.ok fun w3 _ => ?_
  refine Safe.seq (O.applyChanges hup rfl rfl w3) fun p w4 hp => ?_
  refine Safe.seq (O.finish hp.1 _ (hp.2 ▸ hreplace) w4) fun _ w5 hw => ?_
  refine (O.save p.passCursor w5).imp fun _ w6 hw6 => ?_
  rw [← hp.2]
  exact hw.trans (congrArg Except.ok (Eq.symm hw6))

end TableOps

section Instances

variable {strict : Bool}

theorem Safe.ask_undisturbed {c : SyncCall P} {Q : c.Reply → Agent → Prop} {w : Agent}
    (h : ∀ f : Choice P, (strict = true → f.outcome = .ok) →
      Q (performAny c f w).1 (performAny c f w).2) :
    Safe (undisturbed P strict) (Prog.ask c) Q w := by
  refine Safe.ask ?_
  rintro w' rfl f hf
  refine ⟨trivial, ?_⟩
  rintro w'' rfl
  exact h f hf

theorem Only.keepsUsers {α : Type} {p : Prog (SyncCall P) SyncCall.Reply α} (hp : Only Quiet p)
    (w : Agent) : Safe (undisturbed P strict) p (fun _ w' => w'.users = w.users) w := by
  refine Only.safe hp ?_ ?_ rfl
  · rintro w1 w2 hw rfl
    exact hw
  · rintro (c | r) f w1 hc - hw
    · exact ⟨trivial, (AgentCall.tables_perform hc f.outcome w1).1.trans hw⟩
    · exact hc.elim

/-- The operations of both protocols, whichever calls fail. -/
theorem Adapter.tableOps (A : Adapter P M N) : TableOps A.sync A.userOf false True where
  list w := by
    rw [A.shape.list]
    refine Safe.ask_undisturbed fun f _ => ?_
    generalize (performAny _ f w).1 = r
    cases r <;> exact trivial
  apply c w := by
    obtain ⟨pre, hpre, heq⟩ := A.shape.apply c
    rw [heq]
    refine Safe.andThen ((Only.keepsUsers hpre w).mono ?_)
    rintro (e | ⟨⟩) w' -
    · exact trivial
    · exact Safe.ok fun _ _ => rfl
  snapshot keep t w _ := by
    obtain ⟨pre, hpre, heq⟩ := A.shape.snapshot keep authSyncCursorKey t
    rw [heq]
    refine Safe.andThen ((Only.keepsUsers hpre w).mono ?_)
    rintro (e | ⟨⟩) w' -
    · exact trivial
    refine Safe.ask_undisturbed fun f _ => ?_
    rcases AgentCall.perform_applyFullAuthSnapshot (users keep) authSyncCursorKey t f.outcome w'
      with ⟨rows, hrows, hp⟩ | ⟨e, hp⟩
    · simp only [performAny, hp]
      exact hrows
    · simp only [performAny, hp]
      exact trivial
  remove u w := by
    refine (Only.keepsUsers (A.shape.remove u) w).mono ?_
    rintro (e | ⟨⟩) w' hw'
    · exact trivial
    · exact hw'
  reconcile keep w := by
    refine (Only.keepsUsers (A.shape.reconcile keep) w).mono ?_
    rintro (e | ⟨⟩) w' hw'
    · exact trivial
    · exact hw'
  save t w := by
    change Safe _ (A.sync.store.setState authSyncCursorKey (.int t)).run _ w
    rw [A.shape.setState]
    refine Safe.ask_undisturbed fun f _ => ?_
    rcases AgentCall.perform_setState authSyncCursorKey (.int t) f.outcome w with hp | ⟨e, hp⟩
    · simp only [performAny, hp]
      rfl
    · simp only [performAny, hp]
      exact trivial

theorem hysteria_tableOps : TableOps hysteriaSync toAuthUser true False where
  list w := Safe.ask_undisturbed fun f hf => by
    simp only [performAny, hf rfl]
    exact trivial
  apply c w := Safe.ok fun _ _ => rfl
  snapshot keep t w h := Safe.ask_undisturbed fun f hf => by
    obtain ⟨rows, hrows⟩ := h.resolve_left id
    simp only [performAny, hf rfl, AgentCall.perform, AgentCall.effect, hrows, Except.map]
    rfl
  remove u w := by
    rw [hysteria_removeCredential]
    split
    · exact Safe.ok fun w' h => h ▸ rfl
    · refine Safe.ask_undisturbed fun f hf => ?_
      simp only [performAny, hf rfl]
      rfl
  reconcile _ w := Safe.ok fun w' h => h ▸ rfl
  save t w := Safe.ask_undisturbed fun f hf => by
    simp only [performAny, hf rfl]
    rfl

end Instances

variable {u : AuthUser}

section FullPass

variable (A : Adapter P M N) (n : NodeRows M) (g : ℤ)

/-- The rows that a full pass writes, one for each selected connection. -/
def pageUsers : List AuthUser :=
  (selection (n.connections A g).rows true 0).map fun c => A.userOf (A.change c)

theorem mem_pageUsers :
    u ∈ pageUsers A n g ↔ ∃ r ∈ n.rows, A.active r ∧ A.user r = u := by
  simp only [pageUsers, List.mem_map, mem_selection, NodeRows.connections, selects, if_true]
  constructor
  · rintro ⟨-, ⟨⟨r, hr, rfl⟩, hact⟩, rfl⟩
    rw [A.stored_active] at hact
    exact ⟨r, hr, hact, (A.userOf_change g r hact).symm⟩
  · rintro ⟨r, hr, hact, rfl⟩
    exact ⟨_, ⟨⟨r, hr, rfl⟩, by rwa [A.stored_active]⟩, A.userOf_change g r hact⟩

theorem connectionID_userOf_change {c : StoredConnection N}
    (hc : c ∈ selection (n.connections A g).rows true 0) :
    (A.userOf (A.change c)).connectionID = c.connectionID := by
  obtain ⟨hmem, hact⟩ := mem_selection.1 hc
  obtain ⟨r, -, rfl⟩ := List.mem_map.1 hmem
  rw [selects, if_pos rfl, A.stored_active] at hact
  rw [A.userOf_change g r hact, A.user_id, A.stored_id]

theorem nodup_pageUsers : ((pageUsers A n g).map (·.connectionID)).Nodup := by
  have hmap : (pageUsers A n g).map (·.connectionID) =
      (selection (n.connections A g).rows true 0).map (·.connectionID) := by
    rw [pageUsers, List.map_map]
    exact List.map_congr_left fun c hc => connectionID_userOf_change A n g hc
  rw [hmap, List.Nodup, List.pairwise_map]
  exact (inIDOrder_selection (n.connections A g).distinct true 0).imp fun h => ne_of_lt h

theorem keepOf_wholeResponse (clock : Request → ℤ) (pageSize : ℤ) :
    keepOf A.userOf (wholeResponse (n.connections A g) A.change clock pageSize true 0).changes =
      indexUsers (pageUsers A n g) := by
  simp only [keepOf, wholeResponse, indexUsers, pageUsers, List.foldl_map]
  refine List.foldl_ext _ _ _ fun keep c hc => ?_
  rw [connectionID_userOf_change A n g hc]
  rfl

theorem mem_users_indexUsers {l : List AuthUser} (hl : (l.map (·.connectionID)).Nodup) : u ∈ users
    (indexUsers l) ↔ u ∈ l := by
  simp [mem_users, getElem?_indexUsers hl]

theorem holdsActive_of_replace {t : AuthUsers}
    (h : AuthUsers.replace (users (indexUsers (pageUsers A n g))) = .ok t) :
    HoldsActive A n.rows t := by
  intro id u
  rw [AuthUsers.rows_of_replace h, mem_users_indexUsers (nodup_pageUsers A n g), mem_pageUsers]
  constructor
  · rintro ⟨⟨r, hr, hact, rfl⟩, rfl⟩
    exact ⟨r, hr, hact, (A.user_id r).symm, rfl⟩
  · rintro ⟨r, hr, hact, rfl, rfl⟩
    exact ⟨⟨r, hr, hact, rfl⟩, A.user_id r⟩

/-- The engine of the agent with `BuildResponse` as its source. -/
def Adapter.storedEngine (pageSize : ℤ) (order : MapOrder) (clock : Request → ℤ) :
    Engine (SyncCall P) SyncCall.Reply (CredentialChange P) CredentialPass :=
  { A.sync.engine pageSize order with
    source := some (storedSource (n.connections A g) A.builder clock) }

/-- A full pass: if it succeeds, the table has exactly the active connections; and it does succeed
if nothing can fail. -/
theorem fullPass_safe {strict : Bool} {E : Prop} (O : TableOps A.sync A.userOf strict E)
    (hreplace : E ∨ ∃ rows, AuthUsers.replace (users (indexUsers (pageUsers A n g))) = .ok rows)
    {pageSize : ℤ} (hsize : validatePageSize pageSize = .ok ()) (order : MapOrder)
    (clock : Request → ℤ) {fuel : ℕ} (hfuel : n.rows.length ≤ fuel) (w : Agent) :
    Safe (undisturbed P strict)
      ((A.storedEngine n g pageSize order clock).run fuel true).run
      (onOk (fun _ w => HoldsActive A n.rows w.users) fun _ _ => E) w := by
  have hb : ∀ c ∈ (n.connections A g).rows, A.builder c = .ok (A.change c) := by
    intro c hc
    obtain ⟨r, -, rfl⟩ := List.mem_map.1 hc
    exact A.builder_stored g r
  have hlen : (n.connections A g).rows.length ≤ fuel := by
    simpa [NodeRows.connections] using hfuel
  have hrun := run_eq_oneRead (n.connections A g) clock hb hsize
    (authCursor A.sync.store) (A.sync.applier order) authSyncCursorKey true hlen
  have hup : ∀ c ∈ (wholeResponse (n.connections A g) A.change clock pageSize true 0).changes,
      c.operation = .upsert := by
    intro c hc
    obtain ⟨d, hd, rfl⟩ := List.mem_map.1 hc
    have hact := (mem_selection.1 hd).2
    rw [selects, if_pos rfl] at hact
    simp [changeOf, hact]
  have hone := O.oneRead order hup
    (by rwa [keepOf_wholeResponse]) w
  rw [keepOf_wholeResponse] at hone
  change Safe _ (Engine.run (⟨authSyncCursorKey, pageSize, some (authCursor A.sync.store),
    some (storedSource (n.connections A g) A.builder clock),
    some (A.sync.applier order)⟩ : Engine _ _ _ _) fuel true).run _ w
  rw [hrun]
  exact hone.imp fun _ w' hw => holdsActive_of_replace A n g hw

/-- A full pass alone, from an agent's state and with the given outcomes of its calls. -/
def Adapter.fullPass (pageSize : ℤ) (order : MapOrder) (clock : Request → ℤ) (fuel : ℕ)
    (σ : ℕ → Choice P) (a : Agent) : Except String Unit × Agent :=
  ((A.storedEngine n g pageSize order clock).run fuel true).run.exec performAny σ 0 a

end FullPass

theorem hysteria_replace_eq_ok (n : NodeRows String) (g : ℤ) :
    ∃ rows, AuthUsers.replace (users (indexUsers (pageUsers hysteriaAdapter n g))) = .ok rows := by
  have hnodup := nodup_pageUsers hysteriaAdapter n g
  have hids : ((users (indexUsers (pageUsers hysteriaAdapter n g))).map (·.connectionID)).Nodup :=
    nodup_map_connectionID fun id u h => ((getElem?_indexUsers hnodup).1 h).2
  have hnative : ∀ u ∈ users (indexUsers (pageUsers hysteriaAdapter n g)),
      u.nativeAuthID = u.connectionID := by
    intro u hu
    rw [mem_users_indexUsers hnodup, mem_pageUsers] at hu
    obtain ⟨r, -, -, rfl⟩ := hu
    rfl
  refine AuthUsers.replace_eq_ok ?_
  rw [List.Nodup, List.pairwise_map] at hids
  refine hids.imp_of_mem fun {u v} hu hv hne => ⟨hne, ?_⟩
  rwa [hnative u hu, hnative v hv]

/-- While the stored connections do not change, paging makes no difference: for every store of the
cursor and every applier, a run is the pass that applies the list of selected connections, sorted by
their ids, as one page. A full pass of an agent that succeeds leaves exactly the active connections
in `auth_users`, and a Hysteria pass does succeed if its calls do. -/
theorem pages_equal_one_read :
    (∀ (C : Type) (R : C → Type) (M T P : Type) (node : NodeConnections M)
      (builder : StoredConnection M → Except String T) (payload : StoredConnection M → T)
      (clock : Request → ℤ) (pageSize : ℤ) (cursors : CursorStore C R) (applier : Applier C R T P)
      (key : String) (full : Bool) (fuel : ℕ),
      (∀ c ∈ node.rows, builder c = .ok (payload c)) → 1 ≤ pageSize → pageSize ≤ 1000 →
      node.rows.length ≤ fuel →
      Engine.run ⟨key, pageSize, some cursors, some (storedSource node builder clock),
        some applier⟩ fuel full =
        oneRead cursors applier key (wholeResponse node payload clock pageSize) full) ∧
    (∀ (P M N : Type) (A : Adapter P M N) (n : NodeRows M) (g pageSize : ℤ) (order : MapOrder)
      (clock : Request → ℤ) (fuel : ℕ) (σ : ℕ → Choice P) (a : Agent),
      1 ≤ pageSize → pageSize ≤ 1000 → n.rows.length ≤ fuel →
      (A.fullPass n g pageSize order clock fuel σ a).1 = .ok () →
      HoldsActive A n.rows (A.fullPass n g pageSize order clock fuel σ a).2.users) ∧
    ∀ (n : NodeRows String) (g pageSize : ℤ) (order : MapOrder) (clock : Request → ℤ) (fuel : ℕ)
      (σ : ℕ → Choice HysteriaCredential) (a : Agent),
      1 ≤ pageSize → pageSize ≤ 1000 → n.rows.length ≤ fuel → (∀ i, (σ i).outcome = .ok) →
      (hysteriaAdapter.fullPass n g pageSize order clock fuel σ a).1 = .ok () := by
  refine ⟨?_, ?_, ?_⟩
  · intro C R M T P node builder payload clock pageSize cursors applier key full fuel hb h1 h2 hfuel
    exact run_eq_oneRead node clock hb (validatePageSize_eq_ok.2 ⟨h1, h2⟩) cursors applier key full
      hfuel
  · intro P M N A n g pageSize order clock fuel σ a h1 h2 hfuel hok
    have h := exec_of_safe (S := undisturbed P false) (σ := σ) (n := 0) (fun _ _ _ => nofun)
      (fullPass_safe A n g A.tableOps (.inl trivial) (validatePageSize_eq_ok.2 ⟨h1, h2⟩) order
        clock hfuel a)
    change onOk _ _ (A.fullPass n g pageSize order clock fuel σ a).1 _ at h
    rw [hok] at h
    exact h
  · intro n g pageSize order clock fuel σ a h1 h2 hfuel hσ
    have h := exec_of_safe (S := undisturbed HysteriaCredential true) (σ := σ) (n := 0)
      (fun _ i _ _ => hσ i)
      (fullPass_safe hysteriaAdapter n g hysteria_tableOps (.inr (hysteria_replace_eq_ok n g))
        (validatePageSize_eq_ok.2 ⟨h1, h2⟩) order clock hfuel a)
    change onOk _ _ (hysteriaAdapter.fullPass n g pageSize order clock fuel σ a).1 _ at h
    rcases hx : (hysteriaAdapter.fullPass n g pageSize order clock fuel σ a).1 with e | ⟨⟩
    · rw [hx] at h
      exact h.elim
    · rfl

/-- Three connections of an AmneziaWG node, the second one on hold. -/
def threePeers : NodeRows AmneziaWGConnectionMaterial where
  rows := [⟨"c2", .held, 5, .active, ⟨"c2", "key2", "", "10.8.1.3"⟩⟩,
    ⟨"c1", .active, 3, .active, ⟨"c1", "key1 ", "", "10.8.1.2"⟩⟩,
    ⟨"c3", .active, 4, .active, ⟨"c3", "key3", "", "10.8.1.4"⟩⟩]
  distinct := by decide
  nonempty := by decide

/-- A full pass over them in pages of one, on an agent that still has a peer of `c2`. -/
theorem pages_equal_one_read_threePeers :
    (amneziaAdapter.fullPass threePeers 25 1 .sorted (fun _ => 9) 3 (fun _ => ⟨.ok, .error ""⟩)
      ⟨AuthUsers.empty.put ⟨"c2", "key2", "\x7b\x7d"⟩ rfl, ∅, [⟨"key2", none, none, none, none⟩],
        {"key2"}⟩).1 = .ok () ∧
      HoldsActive amneziaAdapter threePeers.rows
        (amneziaAdapter.fullPass threePeers 25 1 .sorted (fun _ => 9) 3
          (fun _ => ⟨.ok, .error ""⟩) ⟨AuthUsers.empty.put ⟨"c2", "key2", "\x7b\x7d"⟩ rfl, ∅,
            [⟨"key2", none, none, none, none⟩], {"key2"}⟩).2.users := by
  have hok : (amneziaAdapter.fullPass threePeers 25 1 .sorted (fun _ => 9) 3
      (fun _ => ⟨.ok, .error ""⟩) ⟨AuthUsers.empty.put ⟨"c2", "key2", "\x7b\x7d"⟩ rfl, ∅,
        [⟨"key2", none, none, none, none⟩], {"key2"}⟩).1 = .ok () := by
    decide +kernel
  refine ⟨hok, ?_⟩
  exact pages_equal_one_read.2.1 _ _ _ amneziaAdapter threePeers 25 1 .sorted _ 3 _ _
    (by decide) (by decide) (by decide) hok

end LazGate
