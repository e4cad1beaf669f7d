import LazGate.Sync.System

/-!
# Convergence of the identity table

The invariant of all runs: where `auth_users` differs from what the server wants, the version of the
connection is not below the cursor, so the next incremental pass will report it. A pass goes through
the ids in order; what it has passed over and what still differs has changed since its first page.
-/

namespace LazGate

open Prog

variable {P M N : Type} (A : Adapter P M N)

/-- The row that the agent should have for a connection. -/
def wanted (s : ServerRows M) (id : String) : Option AuthUser :=
  (s.rows[id]?).bind fun r => if A.active r then some (A.user r) else none

def Differs (rows : Std.ExtTreeMap String AuthUser) (w : World M) (id : String) : Prop :=
  rows[id]? ≠ wanted A w.server id

/-- What differs has a version of at least `v`. -/
def CaughtUp (v : ℤ) (w : World M) : Prop :=
  ∀ id, Differs A w.agent.users.rows w id →
    ∃ r, w.server.rows[id]? = some r ∧ v ≤ r.desiredVersionMS

/-- The cursor is the time of a page, and what differs is not below it. -/
def Tracked (w : World M) : Prop :=
  ∀ x, w.agent.cursor = some x → ∃ v ∈ w.built, x = .int v ∧ CaughtUp A v w

variable {id : String} {s : ServerRows M}

theorem wanted_congr {s' : ServerRows M} (h : s'.rows[id]? = s.rows[id]?) :
    wanted A s' id = wanted A s id := by
  simp only [wanted, h]

variable {r : SyncRow M}

theorem wanted_of_row (h : s.rows[r.id]? = some r) :
    wanted A s r.id = if A.active r then some (A.user r) else none := by
  simp [wanted, h]

variable {A} in
theorem selects_of_le (hr : s.rows[id]? = some r) {since : ℤ} (hle : since ≤ r.desiredVersionMS)
    (g : ℤ) :
    selects false since (A.stored g r) := by
  have hpos := s.versioned id r hr
  simp only [selects, Bool.false_eq_true, if_false, A.stored_version, Bool.not_eq_true',
    Bool.or_eq_false_iff, decide_eq_false_iff_not]
  omega

/-! ## What the server does meanwhile -/

/-- The tables of the agent stay as they are. A connection is untouched, or it is marked as changed
and its version is above every page built so far. -/
structure Rely (w w' : World M) : Prop where
  users : w'.agent.users = w.agent.users
  state : w'.agent.state = w.agent.state
  built : w'.built = w.built
  row : ∀ id : String,
    (w'.server.rows[id]? = w.server.rows[id]? ∧ (id ∈ w'.dirty ↔ id ∈ w.dirty)) ∨
      (id ∈ w'.dirty ∧ ∃ r, w'.server.rows[id]? = some r ∧
        ∀ t ∈ w.built, t ≤ r.desiredVersionMS)
  steady : ∀ id ∈ w'.steady, id ∈ w.steady ∧
    ((∃ r, w.server.rows[id]? = some r ∧ A.active r) →
      ∃ r, w'.server.rows[id]? = some r ∧ A.active r)

variable {rows : Std.ExtTreeMap String AuthUser}

namespace Rely

variable {A} {w w' w'' : World M}

theorem refl (w : World M) : Rely A w w :=
  ⟨rfl, rfl, rfl, fun _ => .inl ⟨rfl, Iff.rfl⟩, fun _ h => ⟨h, id⟩⟩

section

variable (h : Rely A w w')

include h

theorem trans (h' : Rely A w' w'') : Rely A w w'' := by
  refine ⟨h'.users.trans h.users, h'.state.trans h.state, h'.built.trans h.built, fun id => ?_,
    fun id hid => ?_⟩
  · rcases h'.row id with ⟨hrow', hdirty'⟩ | ⟨hdirty', r, hr, hv⟩
    · rcases h.row id with ⟨hrow, hdirty⟩ | ⟨hdirty, r, hr, hv⟩
      · exact .inl ⟨hrow'.trans hrow, hdirty'.trans hdirty⟩
      · exact .inr ⟨hdirty'.2 hdirty, r, hrow'.trans hr, hv⟩
    · exact .inr ⟨hdirty', r, hr, h.built ▸ hv⟩
  · have h1 := h'.steady id hid
    have h2 := h.steady id h1.1
    exact ⟨h2.1, fun hact => h1.2 (h2.2 hact)⟩

theorem cursor : w'.agent.cursor = w.agent.cursor :=
  congrArg (·[authSyncCursorKey]?) h.state

theorem differs (hd : Differs A rows w' id) :
    (Differs A rows w id ∧ w'.server.rows[id]? = w.server.rows[id]? ∧
      (id ∈ w'.dirty ↔ id ∈ w.dirty)) ∨
      (id ∈ w'.dirty ∧ ∃ r, w'.server.rows[id]? = some r ∧
        ∀ t ∈ w.built, t ≤ r.desiredVersionMS) := by
  rcases h.row id with ⟨hrow, hdirty⟩ | hnew
  · exact .inl ⟨fun heq => hd (heq.trans (wanted_congr A hrow).symm), hrow, hdirty⟩
  · exact .inr hnew

theorem caughtUp {v : ℤ} (hv : v ∈ w.built) (hc : CaughtUp A v w) :
    CaughtUp A v w' := by
  intro id hd
  rw [h.users] at hd
  rcases h.differs hd with ⟨hd, hrow, -⟩ | ⟨-, r, hr, hb⟩
  · obtain ⟨r, hr, hle⟩ := hc id hd
    exact ⟨r, hrow.trans hr, hle⟩
  · exact ⟨r, hr, hb v hv⟩

theorem tracked (ht : Tracked A w) : Tracked A w' := by
  intro x hx
  rw [h.cursor] at hx
  obtain ⟨v, hv, rfl, hc⟩ := ht x hx
  exact ⟨v, h.built ▸ hv, rfl, h.caughtUp hv hc⟩

end

theorem commit (hv : ∀ t ∈ w.built, t ≤ r.desiredVersionMS) (h : w.commit A r = some w') :
    Rely A w w' := by
  obtain ⟨hagent, hbuilt, hrow, hdirty, hsteady⟩ := commit_eq_some h
  refine ⟨by rw [hagent], by rw [hagent], hbuilt, fun id => ?_, fun id hid => ?_⟩
  · by_cases hid : id = r.id
    · exact .inr ⟨(hdirty id).2 (.inl hid), r, by rw [hrow, if_pos hid], hv⟩
    · exact .inl ⟨by rw [hrow, if_neg hid], by rw [hdirty]; simp [hid]⟩
  · obtain ⟨hold, hact⟩ := (hsteady id).1 hid
    refine ⟨hold, fun ⟨q, hq, hqa⟩ => ?_⟩
    by_cases hid : id = r.id
    · exact ⟨r, by rw [hrow, if_pos hid], hact hid⟩
    · exact ⟨q, by rw [hrow, if_neg hid]; exact hq, hqa⟩

theorem quiet {c : AgentCall} (hc : c.keepsTables) (f : Served) (w : World M) :
    Rely A w (World.perform A (.agent c) f w).2 :=
  { refl w with
    users := (AgentCall.tables_perform hc f.outcome w.agent).1
    state := (AgentCall.tables_perform hc f.outcome w.agent).2 }

end Rely

variable {A} in
theorem Tracked.serve {w : World M} (h : Tracked A w) (request : Request) (now : ℤ) :
    Tracked A (w.serve request now) := by
  intro x hx
  obtain ⟨v, hv, rfl, hc⟩ := h x hx
  exact ⟨v, List.mem_cons_of_mem now hv, rfl, hc⟩

def passing : Passing A where
  admits _ _ := True
  rely := Rely A
  inv := Tracked A
  refl := Rely.refl
  trans _ _ _ := Rely.trans
  stable _ _ := Rely.tracked
  serve _ request now h := h.serve request now

variable {A}

theorem Only.keeps {α : Type} {x : Sync P α} (hx : Only Quiet x.run) {I : World M → Prop}
    (hI : (passing A).Within I) {w : World M} (hw : I w) : (passing A).Keeps x (fun _ => I) w := by
  refine (Only.safe hx (fun w w' h hr => hI.stable w w' hr h) ?_ hw).mono ?_
  · rintro (c | r) f w hc - h
    · have h' := hI.stable _ _ (Rely.quiet hc f w) h
      exact ⟨hI.inv _ h', h'⟩
    · exact hc.elim
  · rintro (e | a) w' h
    · exact hI.inv _ h
    · exact h

/-! ## An open pass -/

variable {users' : AuthUsers} {c : Change (CredentialChange P)}
  {keep' : Std.ExtTreeMap String AuthUser} {cs : List (Change (CredentialChange P))} {pageSize : ℤ}

section Open

/-- The rows that a pass is working on: those of the table, or in a full pass those it will put in
their place. -/
def shadow (full : Bool) (keep : Std.ExtTreeMap String AuthUser) (w : World M) :
    Std.ExtTreeMap String AuthUser :=
  if full then keep else w.agent.users.rows

variable (A)

/-- An open pass from `since`, whose first page started at `t`. The ids up to `fromID` are done, and
of the rest those in `pend` are still to come. -/
structure Open (full : Bool) (since t : ℤ) (pend : String → Prop) (fromID : String)
    (keep : Std.ExtTreeMap String AuthUser) (w : World M) : Prop where
  tracked : Tracked A w
  time : t ∈ w.built
  cursor : full = false → w.agent.cursor = some (.int since) ∧ since ≠ 0
  changed : ∀ id ∈ w.dirty, ∃ r, w.server.rows[id]? = some r ∧ t ≤ r.desiredVersionMS ∧
    (full = false → since ≤ r.desiredVersionMS)
  keyed : full = true → ∀ (id : String) (u : AuthUser), keep[id]? = some u →
    u.connectionID = id ∧ ¬ fromID < id
  rest : ∀ id, Differs A (shadow full keep w) w id → id ∈ w.dirty ∨ pend id
  active : ∀ id ∈ w.steady, ∃ r, w.server.rows[id]? = some r ∧ A.active r
  steady : ∀ id ∈ w.steady, full = true ∧ (id ∈ keep ∨ pend id)

/-- The changes report rows of the server, unless these have changed since. -/
def Told (full : Bool) (cs : List (Change (CredentialChange P))) (w : World M) : Prop :=
  ∀ c ∈ cs, ∃ g r, c = decodeChange (A.change (A.stored g r)) ∧ (full = true → A.active r) ∧
    (w.server.rows[r.id]? = some r ∨ r.id ∈ w.dirty)

variable {A} {full : Bool} {since t : ℤ} {pend pend' : String → Prop} {fromID : String}
  {keep : Std.ExtTreeMap String AuthUser} {w w' : World M}

theorem Told.rely (h : Told A full cs w) (hr : Rely A w w') : Told A full cs w' := by
  intro c hc
  obtain ⟨g, r, rfl, hact, htold⟩ := h c hc
  refine ⟨g, r, rfl, hact, ?_⟩
  rcases hr.row r.id with ⟨hrow, hdirty⟩ | ⟨hdirty, -⟩
  · exact htold.imp hrow.trans hdirty.2
  · exact .inr hdirty

/-- The ids of a page that are still to come: those of its remaining changes, and, unless the page
is the last one, those after it. -/
def Pending (short : Bool) (cs : List (Change (CredentialChange P))) (fromID id : String) : Prop :=
  id ∈ cs.map (·.connectionID) ∨
    (short = false ∧ fromID < id ∧ ∀ c ∈ cs, c.connectionID < id)

theorem Pending.of_cons {short : Bool} {fromID id : String} (h : Pending short (c :: cs) fromID id)
    (hid : id ≠ c.connectionID) :
    Pending short cs c.connectionID id := by
  rcases h with h | ⟨hs, -, hc⟩
  · exact .inl ((List.mem_cons.1 h).resolve_left hid)
  · exact .inr ⟨hs, hc c List.mem_cons_self, fun d hd => hc d (List.mem_cons_of_mem c hd)⟩

theorem not_pending_nil {fromID : String} :
    ¬ Pending (P := P) true [] fromID id := by
  rintro (h | ⟨h, -⟩) <;> cases h

namespace Open

section

variable (h : Open A full since t pend fromID keep w)

include h

theorem mono (hp : ∀ id, pend id → pend' id) :
    Open A full since t pend' fromID keep w :=
  { h with
    rest := fun id hd => (h.rest id hd).imp_right (hp id)
    steady := fun id hid => ⟨(h.steady id hid).1, (h.steady id hid).2.imp_right (hp id)⟩ }

theorem rely (hr : Rely A w w') :
    Open A full since t pend fromID keep w' where
  tracked := hr.tracked h.tracked
  time := hr.built ▸ h.time
  cursor hf := hr.cursor ▸ h.cursor hf
  changed id hid := by
    rcases hr.row id with ⟨hrow, hdirty⟩ | ⟨-, r, hrow, hb⟩
    · rw [hrow]
      exact h.changed id (hdirty.1 hid)
    · refine ⟨r, hrow, hb t h.time, fun hf => hb since ?_⟩
      obtain ⟨v, hv, hx, -⟩ := h.tracked _ (h.cursor hf).1
      cases hx
      exact hv
  keyed := h.keyed
  rest id hd := by
    have hsh : shadow full keep w' = shadow full keep w := by
      simp only [shadow, hr.users]
    rw [hsh] at hd
    rcases hr.differs hd with ⟨hd, -, hdirty⟩ | ⟨hdirty, -⟩
    · exact (h.rest id hd).imp_left hdirty.2
    · exact .inl hdirty
  active id hid := (hr.steady id hid).2 (h.active id (hr.steady id hid).1)
  steady id hid := h.steady id (hr.steady id hid).1

theorem selected (hd : Differs A (shadow full keep w) w id) (hid : fromID < id) :
    ∃ r, w.server.rows[id]? = some r ∧ ∀ g, selects full since (A.stored g r) := by
  cases full with
  | true =>
    have hkeep : keep[id]? = none := by
      rcases hu : keep[id]? with - | u
      · rfl
      · exact absurd hid (h.keyed rfl id u hu).2
    rcases hr : w.server.rows[id]? with - | r
    · simp [Differs, shadow, hkeep, wanted, hr] at hd
    · refine ⟨r, rfl, fun g => ?_⟩
      rw [selects, if_pos rfl, A.stored_active]
      by_contra hact
      simp [Differs, shadow, hkeep, wanted, hr, hact] at hd
  | false =>
    obtain ⟨v, -, hx, hcaught⟩ := h.tracked _ (h.cursor rfl).1
    cases hx
    obtain ⟨r, hr, hle⟩ := hcaught id hd
    exact ⟨r, hr, selects_of_le hr hle⟩

theorem selected_steady (hid : id ∈ w.steady) :
    ∃ r, w.server.rows[id]? = some r ∧ ∀ g, selects full since (A.stored g r) := by
  obtain ⟨r, hr, hact⟩ := h.active id hid
  refine ⟨r, hr, fun g => ?_⟩
  rw [(h.steady id hid).1, selects, if_pos rfl, A.stored_active]
  exact hact

end

/-- A page lists every row after `fromID` that passes the filter, or the pass will go on before
it. -/
theorem pending_of_selects (hsize : validatePageSize pageSize = .ok ()) (g : ℤ)
    (hr : w.server.rows[id]? = some r)
    (hsel : selects full since (A.stored g r)) (hfrom : fromID < id) :
    Pending ((A.page w.server.node g ⟨full, since, pageSize, fromID⟩).length < pageSize)
      (A.page w.server.node g ⟨full, since, pageSize, fromID⟩) fromID id := by
  have hbounds := validatePageSize_eq_ok.1 hsize
  obtain rfl := w.server.keyed id r hr
  rcases A.mem_page_or_after w.server.node g ⟨full, since, pageSize, fromID⟩
    (ServerRows.mem_node.2 hr) hsel hfrom with hmem | ⟨hlen, hafter⟩
  · exact .inl hmem
  · refine .inr ⟨decide_eq_false ?_, hfrom, hafter⟩
    simp only at hlen
    omega

theorem fill (h : Open A full since t (fromID < ·) fromID keep w)
    (hsize : validatePageSize pageSize = .ok ()) (g : ℤ) :
    Open A full since t (Pending
      ((A.page w.server.node g ⟨full, since, pageSize, fromID⟩).length < pageSize)
      (A.page w.server.node g ⟨full, since, pageSize, fromID⟩) fromID) fromID keep w := by
  refine { h with rest := fun id hd => ?_, steady := fun id hid => ?_ }
  · rcases h.rest id hd with hdirty | hfrom
    · exact .inl hdirty
    · obtain ⟨r, hr, hsel⟩ := h.selected hd hfrom
      exact .inr (pending_of_selects hsize g hr (hsel g) hfrom)
  · obtain ⟨hf, hkeep | hfrom⟩ := h.steady id hid
    · exact ⟨hf, .inl hkeep⟩
    · obtain ⟨r, hr, hsel⟩ := h.selected_steady hid
      exact ⟨hf, .inr (pending_of_selects hsize g hr (hsel g) hfrom)⟩

theorem serve (h : Open A full since t pend fromID keep w) (request : Request)
    (hfrom : request.fromConnectionID ≠ "") (now : ℤ) :
    Open A full since t pend fromID keep (w.serve request now) := by
  have hdirty : (w.serve request now).dirty = w.dirty := by simp [World.serve, hfrom]
  refine { h with tracked := ?_, time := ?_, changed := ?_, rest := ?_ }
  · intro x hx
    obtain ⟨v, hv, rfl, hc⟩ := h.tracked x hx
    exact ⟨v, List.mem_cons_of_mem now hv, rfl, hc⟩
  · exact List.mem_cons_of_mem now h.time
  · intro id hid
    exact h.changed id (hdirty ▸ hid)
  · intro id hd
    rw [hdirty]
    exact h.rest id hd

end Open

variable (A) in
/-- A pass that is about to ask for its first page. -/
structure Ready (full : Bool) (since : ℤ) (w : World M) : Prop where
  tracked : Tracked A w
  cursor : full = false → w.agent.cursor = some (.int since)
  active : ∀ id ∈ w.steady, ∃ r, w.server.rows[id]? = some r ∧ A.active r
  steady : ∀ id ∈ w.steady, full = true

theorem Ready.rely (h : Ready A full since w) (hr : Rely A w w') : Ready A full since w' where
  tracked := hr.tracked h.tracked
  cursor hf := hr.cursor ▸ h.cursor hf
  active id hid := (hr.steady id hid).2 (h.active id (hr.steady id hid).1)
  steady id hid := h.steady id (hr.steady id hid).1

/-- The first page opens the pass; no id is done yet. -/
theorem Ready.first (h : Ready A full since w) (request : Request)
    (hfrom : request.fromConnectionID = "") (now : ℤ) :
    Open A (full || since = 0) since now ("" < ·) "" ∅ (w.serve request now) where
  tracked := h.tracked.serve request now
  time := List.mem_cons_self
  cursor hf := by
    rw [Bool.or_eq_false_iff, decide_eq_false_iff_not] at hf
    exact ⟨h.cursor hf.1, hf.2⟩
  changed id hid := by simp [World.serve, hfrom] at hid
  keyed _ id u hu := by simp at hu
  rest id hd := by
    right
    -- only ids that the server knows can differ
    have hknown : ∃ r, w.server.rows[id]? = some r := by
      rcases hr : w.server.rows[id]? with - | r
      · exfalso
        rcases hf : full || decide (since = 0) with - | -
        · rw [hf] at hd
          rw [Bool.or_eq_false_iff] at hf
          obtain ⟨v, -, -, hc⟩ := h.tracked _ (h.cursor hf.1)
          obtain ⟨r, hr', -⟩ := hc id hd
          rw [hr] at hr'
          cases hr'
        · rw [hf] at hd
          simp [Differs, shadow, wanted, World.serve, hr] at hd
      · exact ⟨r, rfl⟩
    obtain ⟨r, hr⟩ := hknown
    exact empty_lt (w.server.nonempty id r hr)
  active := h.active
  steady id hid := by
    obtain ⟨r, hr, -⟩ := h.active id hid
    exact ⟨by rw [h.steady id hid]; rfl, .inr (empty_lt (w.server.nonempty id r hr))⟩

theorem told_page (g : ℤ) (request : Request) (w : World M) :
    Told A request.full (A.page w.server.node g request) w := by
  intro c hc
  obtain ⟨r, hr, rfl, hsel⟩ := A.mem_page w.server.node g request hc
  refine ⟨g, r, rfl, fun hf => ?_, .inl (ServerRows.mem_node.1 hr)⟩
  rwa [selects, if_pos hf, A.stored_active] at hsel

/-- The row that reporting `r` leaves. -/
def Adapter.rowFor (A : Adapter P M N) (r : SyncRow M) : Option AuthUser :=
  if A.active r then some (A.user r) else none

theorem not_differs_of_told (hrow : rows[r.id]? = A.rowFor r)
    (htold : w.server.rows[r.id]? = some r ∨ r.id ∈ w.dirty)
    (hd : Differs A rows w r.id) : r.id ∈ w.dirty := by
  refine htold.resolve_left fun hr => hd ?_
  rw [hrow, wanted_of_row A hr]
  rfl

/-- The pass after a change was applied: the row of `r` is written, to the table or to the rows that
a full pass keeps. -/
theorem Open.write (h : Open A full since t pend fromID keep w) (hfrom : fromID < r.id)
    (hact : full = true → A.active r) (htold : w.server.rows[r.id]? = some r ∨ r.id ∈ w.dirty)
    (hfull : full = true → users' = w.agent.users)
    (hrows : ∀ id : String, (if full then keep' else users'.rows)[id]? =
      if id = r.id then A.rowFor r else (shadow full keep w)[id]?) :
    Open A full since t (fun id => pend id ∧ id ≠ r.id) r.id keep'
      { w with agent := { w.agent with users := users' } } := by
  have hnew : ∀ rows : Std.ExtTreeMap String AuthUser,
      (∀ id : String, rows[id]? = if id = r.id then A.rowFor r else (shadow full keep w)[id]?) →
      ∀ id, Differs A rows w id →
        (id = r.id ∧ id ∈ w.dirty) ∨ (id ≠ r.id ∧ Differs A (shadow full keep w) w id) := by
    intro rows hrows id hd
    by_cases hid : id = r.id
    · subst hid
      exact .inl ⟨rfl, not_differs_of_told (by rw [hrows, if_pos rfl]) htold hd⟩
    · refine .inr ⟨hid, ?_⟩
      rwa [Differs, hrows, if_neg hid] at hd
  refine { h with tracked := ?_, cursor := h.cursor, keyed := ?_, rest := ?_, steady := ?_ }
  · cases full with
    | true =>
      rw [hfull rfl]
      exact h.tracked
    | false =>
      intro x hx
      obtain ⟨v, hv, rfl, hc⟩ := h.tracked x hx
      refine ⟨v, hv, rfl, fun id hd => ?_⟩
      rcases hnew _ hrows id hd with ⟨rfl, hdirty⟩ | ⟨-, hd⟩
      · obtain ⟨q, hq, -, hle⟩ := h.changed _ hdirty
        have hcur := (h.cursor rfl).1.symm.trans hx
        cases hcur
        exact ⟨q, hq, hle rfl⟩
      · exact hc id hd
  · intro hf id u hu
    subst hf
    have hrow := (hrows id).symm.trans hu
    split at hrow
    · rename_i hid
      subst hid
      simp only [Adapter.rowFor, hact rfl, if_true, Option.some.injEq] at hrow
      exact ⟨hrow ▸ A.user_id r, lt_irrefl _⟩
    · obtain ⟨hid, hnot⟩ := h.keyed rfl id u hrow
      exact ⟨hid, fun hlt => hnot (hfrom.trans hlt)⟩
  · intro id hd
    rcases hnew _ hrows id hd with ⟨-, hdirty⟩ | ⟨hid, hd⟩
    · exact .inl hdirty
    · exact (h.rest id hd).imp_right fun hp => ⟨hp, hid⟩
  · intro id hid
    obtain ⟨hf, hdone⟩ := h.steady id hid
    subst hf
    refine ⟨rfl, ?_⟩
    have hmem : id ∈ keep' ↔ ((if id = r.id then A.rowFor r else keep[id]?)).isSome := by
      rw [Std.ExtTreeMap.mem_iff_isSome_getElem?]
      exact iff_of_eq (congrArg (fun x : Option AuthUser => (x.isSome : Prop)) (hrows id))
    by_cases heq : id = r.id
    · left
      rw [hmem, if_pos heq, Adapter.rowFor, if_pos (hact rfl)]
      rfl
    · rcases hdone with hk | hp
      · left
        rw [hmem, if_neg heq]
        exact Std.ExtTreeMap.mem_iff_isSome_getElem?.1 hk
      · exact .inr ⟨hp, heq⟩

variable (A) in
/-- An open pass with the changes `cs` of a page still to apply. -/
structure InPage (full : Bool) (since t : ℤ) (short : Bool)
    (cs : List (Change (CredentialChange P))) (fromID : String)
    (keep : Std.ExtTreeMap String AuthUser) (w : World M) : Prop where
  isOpen : Open A full since t (Pending short cs fromID) fromID keep w
  order : Ascending fromID (cs.map (·.connectionID))
  told : Told A full cs w
  moved : short = false → cs = [] → fromID ≠ ""

variable {short : Bool} {cs : List (Change (CredentialChange P))} {pageSize : ℤ}

theorem InPage.rely (h : InPage A full since t short cs fromID keep w) (hr : Rely A w w') :
    InPage A full since t short cs fromID keep w' :=
  ⟨h.isOpen.rely hr, h.order, h.told.rely hr, h.moved⟩

theorem Open.inPage (h : Open A full since t (fromID < ·) fromID keep w)
    (hsize : validatePageSize pageSize = .ok ()) (g : ℤ) :
    InPage A full since t
      ((A.page w.server.node g ⟨full, since, pageSize, fromID⟩).length < pageSize)
      (A.page w.server.node g ⟨full, since, pageSize, fromID⟩) fromID keep w where
  isOpen := h.fill hsize g
  order := A.ascending_page w.server.node g ⟨full, since, pageSize, fromID⟩
  told := told_page g ⟨full, since, pageSize, fromID⟩ w
  moved hs hcs := by
    have hbounds := validatePageSize_eq_ok.1 hsize
    rw [decide_eq_false_iff_not, hcs, List.length_nil] at hs
    omega

theorem InPage.write (h : InPage A full since t short (c :: cs) fromID keep w)
    (hc : c.connectionID = r.id) (hact : full = true → A.active r)
    (htold : w.server.rows[r.id]? = some r ∨ r.id ∈ w.dirty)
    (hfull : full = true → users' = w.agent.users)
    (hrows : ∀ id : String, (if full then keep' else users'.rows)[id]? =
      if id = r.id then A.rowFor r else (shadow full keep w)[id]?) :
    InPage A full since t short cs c.connectionID keep'
      { w with agent := { w.agent with users := users' } } := by
  obtain ⟨hlt, horder⟩ : fromID < c.connectionID ∧
      Ascending c.connectionID (cs.map (·.connectionID)) := by
    have horder := h.order
    rwa [List.map_cons, ascending_cons] at horder
  refine ⟨?_, horder, fun d hd => h.told d (List.mem_cons_of_mem c hd), fun _ _ h0 => ?_⟩
  · have hwrite := h.isOpen.write (hc ▸ hlt) hact htold hfull hrows
    rw [← hc] at hwrite
    exact hwrite.mono fun id hid => hid.1.of_cons hid.2
  · exact not_lt_empty _ (h0 ▸ hlt)

variable (A) in
/-- A pass whose changes are all applied, with its first page at `t`: what still differs has changed
since then. -/
structure Settled (t : ℤ) (w : World M) : Prop where
  tracked : Tracked A w
  time : t ∈ w.built
  changed : ∀ id ∈ w.dirty, ∃ r, w.server.rows[id]? = some r ∧ t ≤ r.desiredVersionMS
  rest : ∀ id, Differs A w.agent.users.rows w id → id ∈ w.dirty
  steady : ∀ id ∈ w.steady, id ∈ w.agent.users.rows

theorem Settled.rely (h : Settled A t w) (hr : Rely A w w') : Settled A t w' where
  tracked := hr.tracked h.tracked
  time := hr.built ▸ h.time
  changed id hid := by
    rcases hr.row id with ⟨hrow, hdirty⟩ | ⟨-, r, hrow, hb⟩
    · rw [hrow]
      exact h.changed id (hdirty.1 hid)
    · exact ⟨r, hrow, hb t h.time⟩
  rest id hd := by
    rw [hr.users] at hd
    rcases hr.differs hd with ⟨hd, -, hdirty⟩ | ⟨hdirty, -⟩
    · exact hdirty.2 (h.rest id hd)
    · exact hdirty
  steady id hid := hr.users ▸ h.steady id (hr.steady id hid).1

theorem Settled.caughtUp (h : Settled A t w) : CaughtUp A t w := fun id hd =>
  h.changed id (h.rest id hd)

theorem InPage.rest (h : InPage A full since t true [] fromID keep w)
    (hd : Differs A (shadow full keep w) w id) : id ∈ w.dirty :=
  (h.isOpen.rest id hd).resolve_right not_pending_nil

theorem InPage.changed (h : InPage A full since t short cs fromID keep w) :
    ∀ id ∈ w.dirty, ∃ r, w.server.rows[id]? = some r ∧ t ≤ r.desiredVersionMS := by
  intro id hid
  obtain ⟨r, hr, ht, -⟩ := h.isOpen.changed id hid
  exact ⟨r, hr, ht⟩

theorem InPage.settled (h : InPage A false since t true [] fromID keep w) : Settled A t w where
  tracked := h.isOpen.tracked
  time := h.isOpen.time
  changed := h.changed
  rest _ := h.rest
  steady id hid := by simpa using (h.isOpen.steady id hid).1

/-- The commit of a full pass. -/
theorem InPage.commit (h : InPage A true since t true [] fromID keep w) {rows : AuthUsers}
    (hrows : AuthUsers.replace (users keep) = .ok rows) :
    Settled A t { w with agent := { w.agent with
      users := rows
      state := w.agent.state.insert authSyncCursorKey (.int t) } } := by
  have hr : rows.rows = keep :=
    rows_of_replace_users (fun id u hu => (h.isOpen.keyed rfl id u hu).1) hrows
  have hrest : ∀ id, Differs A rows.rows w id → id ∈ w.dirty := fun id hd => h.rest (hr ▸ hd)
  refine ⟨fun x hx => ?_, h.isOpen.time, h.changed, hrest, fun id hid => ?_⟩
  · have hx' : some (StateValue.int t) = some x := by simpa [Agent.cursor] using hx
    cases hx'
    exact ⟨t, h.isOpen.time, rfl, fun id hd => h.changed id (hrest id hd)⟩
  · change id ∈ rows.rows
    rw [hr]
    exact (h.isOpen.steady id hid).2.resolve_right not_pending_nil

end Open

/-! ## The pass -/

variable {p : CredentialPass} (args : PassArgs)

section Pass

variable {full : Bool} {since t : ℤ} {short : Bool} {cs : List (Change (CredentialChange P))}
  {fromID : String} {keep : Std.ExtTreeMap String AuthUser} {w : World M} {pageSize : ℤ}

theorem InPage.within : (passing A).Within (InPage A full since t short cs fromID keep) :=
  ⟨fun _ _ hr h => h.rely hr, fun _ h => h.isOpen.tracked⟩

theorem Ready.within : (passing A).Within (Ready A full since) :=
  ⟨fun _ _ hr h => h.rely hr, fun _ h => h.tracked⟩

theorem Settled.within : (passing A).Within (Settled A t) :=
  ⟨fun _ _ hr h => h.rely hr, fun _ h => h.tracked⟩

theorem beginSyncPass_safe (h : InPage A full since t short cs "" ∅ w) :
    (passing A).Keeps (A.sync.beginSyncPass full)
      (fun pass w => InPage A full since t short cs "" pass.keep w ∧ pass.full = full) w := by
  unfold CredentialSync.beginSyncPass
  rw [A.shape.list]
  refine Safe.seq (Q := fun _ w => InPage A full since t short cs "" ∅ w)
    (Passing.call_safe InPage.within (fun _ => InPage.within.stable)
      (fun w r a h _ he => ?_) h) fun l w hw => Safe.ok fun w' hr => ⟨hw.rely hr, rfl⟩
  cases he
  exact ⟨h.isOpen.tracked, h⟩

theorem decodeChange_spec (g : ℤ) (r : SyncRow M) :
    (decodeChange (A.change (A.stored g r))).connectionID = r.id ∧
      (decodeChange (A.change (A.stored g r))).operation =
        if A.active r then .upsert else .delete := by
  refine ⟨A.change_id g r, ?_⟩
  simp only [decodeChange, A.change_op]
  by_cases hact : A.active r <;> simp [hact]

variable (A) in
/-- The next change of the page reports `r`. -/
def Next (r : SyncRow M) (full : Bool) (since t : ℤ) (short : Bool)
    (c : Change (CredentialChange P)) (cs : List (Change (CredentialChange P))) (fromID : String)
    (keep : Std.ExtTreeMap String AuthUser) (w : World M) : Prop :=
  InPage A full since t short (c :: cs) fromID keep w ∧ c.connectionID = r.id ∧
    (full = true → A.active r) ∧ (w.server.rows[r.id]? = some r ∨ r.id ∈ w.dirty)

theorem Next.rely {w w' : World M} (h : Next A r full since t short c cs fromID keep w)
    (hr : Rely A w w') :
    Next A r full since t short c cs fromID keep w' := by
  obtain ⟨h, hc, hact, htold⟩ := h
  refine ⟨h.rely hr, hc, hact, ?_⟩
  rcases hr.row r.id with ⟨hrow, hdirty⟩ | ⟨hdirty, -⟩
  · exact htold.imp hrow.trans hdirty.2
  · exact .inr hdirty

theorem Next.within : (passing A).Within (Next A r full since t short c cs fromID keep) :=
  ⟨fun _ _ hr h => Next.rely h hr, fun _ h => h.1.isOpen.tracked⟩

theorem Next.write (h : Next A r full since t short c cs fromID keep w)
    (keep' : Std.ExtTreeMap String AuthUser) (hfull : full = true → users' = w.agent.users)
    (hrows : ∀ id : String, (if full then keep' else users'.rows)[id]? =
      if id = r.id then A.rowFor r else (shadow full keep w)[id]?) :
    InPage A full since t short cs c.connectionID keep'
      { w with agent := { w.agent with users := users' } } :=
  h.1.write h.2.1 h.2.2.1 h.2.2.2 hfull hrows

section

variable (hp : p.full = full)

include hp

theorem upsertChange_safe (hact : A.active r) (huser : A.userOf c.payload = A.user r)
    (h : Next A r full since t short c cs fromID p.keep w) :
    (passing A).Keeps (do
      let u ← A.sync.runtime.applyCredential c.payload
      p.unlessFull (A.sync.store.upsertAuthUser u)
      return p.keeping c.connectionID u : Sync P CredentialPass)
      (fun pass w => InPage A full since t short cs c.connectionID pass.keep w ∧
        pass.full = full) w := by
  have hc := h.2.1
  obtain ⟨pre, hpre, heq⟩ := A.shape.apply c.payload
  rw [heq, huser]
  refine Safe.seq (Q := fun u w => u = A.user r ∧
    Next A r full since t short c cs fromID p.keep w) ?_ ?_
  · exact Safe.seq (Only.keeps hpre Next.within h) fun _ w hw =>
      Safe.ok fun w' hr => ⟨rfl, Next.rely hw hr⟩
  rintro u w ⟨rfl, h⟩
  cases full with
  | true =>
    -- a full pass only remembers the row
    simp only [CredentialPass.unlessFull, hp, if_true]
    refine Safe.seq (Q := fun _ => Next A r true since t short c cs fromID p.keep)
      (Safe.ok fun w' hr => Next.rely h hr) fun _ w h => Safe.ok fun w' hr => ?_
    refine ⟨(Next.rely h hr).write _ (fun _ => rfl : true = true → w'.agent.users = _)
      fun id => ?_, hp⟩
    simp only [if_true, p.getElem?_keep_keeping, shadow, hc, Adapter.rowFor, hact]
  | false =>
    simp only [CredentialPass.unlessFull, hp, Bool.false_eq_true, if_false]
    rw [A.shape.upsert]
    refine Safe.seq (Q := fun _ => InPage A false since t short cs c.connectionID
      (p.keeping c.connectionID (A.user r)).keep)
      (Passing.call_safe Next.within (fun _ => InPage.within.stable)
        (fun w x a h _ he => ?_) h) fun _ w hw => Safe.ok fun w' hr => ⟨hw.rely hr, hp⟩
    obtain ⟨rows, hu, he⟩ := Except.map_eq_ok.1 he
    cases he
    have hrows : ∀ id : String, rows.rows[id]? =
        if id = r.id then A.rowFor r else (shadow false p.keep w)[id]? := fun id => by
      rw [AuthUsers.rows_of_upsert hu, A.user_id]
      simp only [Adapter.rowFor, hact, if_true, shadow, Bool.false_eq_true, if_false]
    have hin := Next.write h (p.keeping c.connectionID (A.user r)).keep
      (fun hfull => absurd hfull Bool.false_ne_true) hrows
    exact ⟨hin.isOpen.tracked, hin⟩

theorem deleteChange_safe (hact : ¬ A.active r)
    (h : Next A r full since t short c cs fromID p.keep w) :
    (passing A).Keeps (do
      p.unlessFull (A.sync.store.deleteAuthUser c.connectionID)
      return p.removing c.connectionID : Sync P CredentialPass)
      (fun pass w => InPage A full since t short cs c.connectionID pass.keep w ∧
        pass.full = full) w := by
  have hc := h.2.1
  obtain rfl : full = false := by
    rw [← Bool.not_eq_true]
    exact fun hf => hact (h.2.2.1 hf)
  obtain ⟨pre, hpre, heq⟩ := A.shape.delete c.connectionID
  simp only [CredentialPass.unlessFull, hp, Bool.false_eq_true, if_false]
  rw [heq]
  refine Safe.seq (Q := fun _ => InPage A false since t short cs c.connectionID
    (p.removing c.connectionID).keep) ?_
    fun _ w hw => Safe.ok fun w' hr => ⟨hw.rely hr, by rw [p.full_removing, hp]⟩
  refine Safe.seq (Only.keeps hpre Next.within h) fun _ w h =>
    Passing.call_safe Next.within (fun _ => InPage.within.stable) (fun w x a h _ he => ?_) h
  cases he
  have hrows : ∀ id : String, (w.agent.users.delete c.connectionID).rows[id]? =
      if id = r.id then A.rowFor r else (shadow false p.keep w)[id]? := fun id => by
    rw [AuthUsers.rows_delete, hc]
    simp only [Adapter.rowFor, hact, Bool.false_eq_true, if_false, shadow]
  have hin := Next.write h (p.removing c.connectionID).keep nofun hrows
  exact ⟨hin.isOpen.tracked, hin⟩

theorem applySyncChange_safe (h : InPage A full since t short (c :: cs) fromID p.keep w) :
    (passing A).Keeps (A.sync.applySyncChange p c)
      (fun pass w => InPage A full since t short cs c.connectionID pass.keep w ∧
        pass.full = full) w := by
  obtain ⟨g, r, rfl, hfull, htold⟩ := h.told c List.mem_cons_self
  obtain ⟨hid, hop⟩ := decodeChange_spec (A := A) g r
  have hnext : Next A r full since t short _ cs fromID p.keep w := ⟨h, hid, hfull, htold⟩
  unfold CredentialSync.applySyncChange
  by_cases hact : A.active r
  · rw [hop, if_pos hact]
    exact upsertChange_safe hp hact (A.userOf_change g r hact) hnext
  · rw [hop, if_neg hact]
    exact deleteChange_safe hp hact hnext

theorem finishSyncPass_safe (order : MapOrder) (seen : Std.ExtTreeSet String)
    (h : InPage A full since t true [] fromID p.keep w) :
    (passing A).Keeps (A.sync.finishSyncPass order p ⟨full, t, seen⟩) (fun _ => Settled A t) w := by
  have hremove : ∀ l : List AuthUser, Only Quiet (l.forM A.sync.runtime.removeCredential).run :=
    Only.forM A.shape.remove
  unfold CredentialSync.finishSyncPass
  cases full with
  | false =>
    have hw : ∀ x : Sync P Unit, p.whenFull x = pure () := fun x => by
      simp [CredentialPass.whenFull, hp]
    rw [hw, hw]
    have honly : Only Quiet (pure () >>= fun _ =>
        (order.iterate (users p.leaving)).forM A.sync.runtime.removeCredential >>= fun _ =>
          pure () : Sync P Unit).run :=
      Only.andThen Only.ok fun _ => Only.andThen (hremove _) fun _ => Only.ok
    exact Only.keeps honly Settled.within h.settled
  | true =>
    have hw : ∀ x : Sync P Unit, p.whenFull x = x := fun x => by
      simp [CredentialPass.whenFull, hp]
    rw [hw, hw]
    obtain ⟨pre, hpre, heq⟩ := A.shape.snapshot p.keep authSyncCursorKey t
    rw [heq]
    refine Safe.seq (Q := fun _ => Settled A t) ?_ fun _ w hw => ?_
    · refine Safe.seq (Only.keeps hpre InPage.within h) fun _ w h =>
        Passing.call_safe InPage.within (fun _ => Settled.within.stable)
          (fun w x a h _ he => ?_) h
      obtain ⟨rows, hu, he⟩ := Except.map_eq_ok.1 he
      cases he
      exact ⟨(h.commit hu).tracked, h.commit hu⟩
    · have honly : Only Quiet (
          (order.iterate (users p.leaving)).forM A.sync.runtime.removeCredential >>= fun _ =>
            A.sync.runtime.reconcileCredentials p.keep : Sync P Unit).run :=
        Only.andThen (hremove _) fun _ => A.shape.reconcile _
      exact Only.keeps honly Settled.within hw

end

theorem Ready.page (h : Ready A full since w) (hsize : validatePageSize pageSize = .ok ())
    (g now : ℤ) :
    InPage A (full || (full || since = 0)) since now
      ((A.page w.server.node g ⟨full || since = 0, since, pageSize, ""⟩).length < pageSize)
      (A.page w.server.node g ⟨full || since = 0, since, pageSize, ""⟩) "" ∅
      (w.serve ⟨full, since, pageSize, ""⟩ now) := by
  have hfull : (full || (full || decide (since = 0))) = (full || decide (since = 0)) := by
    cases full <;> rfl
  rw [hfull]
  exact (h.first ⟨full, since, pageSize, ""⟩ rfl now).inPage hsize g

theorem InPage.full_or (h : InPage A full since t short cs fromID keep w) :
    (full || decide (since = 0)) = full := by
  cases full with
  | true => rfl
  | false =>
    have hne := (h.isOpen.cursor rfl).2
    simp [hne]

theorem InPage.page (h : InPage A full since t false [] fromID keep w)
    (hsize : validatePageSize pageSize = .ok ()) (g now : ℤ) :
    InPage A full since t
      ((A.page w.server.node g ⟨full || since = 0, since, pageSize, fromID⟩).length < pageSize)
      (A.page w.server.node g ⟨full || since = 0, since, pageSize, fromID⟩) fromID keep
      (w.serve ⟨full, since, pageSize, fromID⟩ now) := by
  have hfrom : fromID ≠ "" := h.moved rfl rfl
  have hopen : Open A full since t (fromID < ·) fromID keep
      (w.serve ⟨full, since, pageSize, fromID⟩ now) := by
    refine (h.isOpen.serve ⟨full, since, pageSize, fromID⟩ hfrom now).mono ?_
    rintro id (hid | ⟨-, hlt, -⟩)
    · cases hid
    · exact hlt
  rw [h.full_or]
  exact hopen.inPage hsize g

variable (A) in
def syncOutline (pageSize : ℤ) : Outline (CredentialChange P) CredentialPass (World M) where
  ready := Ready A
  first full since r w := InPage A (full || r.full) since r.manifestStartedAtMS
    (r.short pageSize) r.changes "" ∅ w
  mid _ since short cs p w := InPage A p.full since p.passCursor short cs p.fromConnectionID
    p.pass.keep w ∧ p.pass.full = p.full
  finished p := Settled A p.passCursor
  failed := Tracked A

theorem syncOutline_holds (hsize : validatePageSize pageSize = .ok ()) (order : MapOrder)
    (fuel : ℕ) :
    (syncOutline A pageSize).Holds (passing A).setting manifestSource (A.sync.applier order)
      pageSize fuel where
  ready full since w h := by
    refine (Passing.fetch_safe ⟨full, since, pageSize, ""⟩ (Q := fun r w =>
      InPage A (full || r.full) since r.manifestStartedAtMS (r.short pageSize) r.changes "" ∅ w)
      hsize Ready.within (fun _ => InPage.within.stable)
      (fun w g now h => h.page hsize g now) h).imp fun r w hw => ?_
    exact ⟨hw.isOpen.tracked, fun _ => hw⟩
  first full since r w _ h := beginSyncPass_safe h
  change n since short c cs p w h := applySyncChange_safe h.2 h.1
  spent since p w h := h.1.isOpen.tracked
  next n since p w h := by
    refine (Passing.fetch_safe ⟨p.full, since, pageSize, p.fromConnectionID⟩
      (Q := fun r w => InPage A p.full since p.passCursor (r.short pageSize) r.changes
        p.fromConnectionID p.pass.keep w)
      hsize InPage.within (fun _ => InPage.within.stable)
      (fun w g now h => InPage.page h hsize g now) h.1).imp fun r w hw => ?_
    exact ⟨hw.isOpen.tracked, fun _ => ⟨hw, h.2⟩⟩
  finish n since p w h := finishSyncPass_safe h.2 order p.seen h.1

variable (A) in
/-- What a pass leaves behind when it succeeds: a cursor; the rows that are not as the server wants
them have changed since its first page; and a full pass has a row for every connection that was
active all the time. -/
def Done : Except String Unit → World M → Prop
  | .ok _, w => (∃ v, w.agent.cursor = some (.int v)) ∧
    (∀ id, Differs A w.agent.users.rows w id → id ∈ w.dirty) ∧
    ∀ id ∈ w.steady, id ∈ w.agent.users.rows
  | .error _, _ => True

theorem Settled.saved (h : Settled A t w) :
    Settled A t { w with agent := { w.agent with
      state := w.agent.state.insert authSyncCursorKey (.int t) } } := by
  refine ⟨fun x hx => ?_, h.time, h.changed, h.rest, h.steady⟩
  have hx' : some (StateValue.int t) = some x := by simpa [Agent.cursor] using hx
  cases hx'
  exact ⟨t, h.time, rfl, h.caughtUp⟩

theorem saveCursor_safe (h : Settled A t w) :
    (passing A).Keeps ((authCursor A.sync.store).saveSyncCursor authSyncCursorKey t)
      (fun _ w => Tracked A w ∧ Done A (.ok ()) w) w := by
  change Safe _ (A.sync.store.setState authSyncCursorKey (.int t)).run _ w
  rw [A.shape.setState]
  have hstable : (passing A).setting.Stable fun w =>
      Settled A t w ∧ w.agent.cursor = some (.int t) :=
    fun _ _ hr h => ⟨h.1.rely hr, (Rely.cursor hr).trans h.2⟩
  refine (Passing.call_safe (X := passing A) Settled.within (fun _ => hstable)
    (fun w x a h _ he => ?_) h).imp fun _ w hw => ?_
  · cases he
    exact ⟨h.saved.tracked, h.saved, by simp [Agent.cursor]⟩
  · exact ⟨hw.1.tracked, ⟨t, hw.2⟩, hw.1.rest, hw.1.steady⟩

variable (A) in
/-- A pass that has just begun. -/
structure Begun (full : Bool) (w : World M) : Prop where
  tracked : Tracked A w
  active : ∀ id ∈ w.steady, ∃ r, w.server.rows[id]? = some r ∧ A.active r
  steady : ∀ id ∈ w.steady, full = true ∨ w.agent.cursor = none

theorem Begun.rely {w' : World M} (h : Begun A full w) (hr : Rely A w w') : Begun A full w' where
  tracked := hr.tracked h.tracked
  active id hid := (hr.steady id hid).2 (h.active id (hr.steady id hid).1)
  steady id hid := hr.cursor ▸ h.steady id (hr.steady id hid).1

theorem Begun.first (h : Begun A full w) : Ready A true 0 w :=
  ⟨h.tracked, nofun, h.active, fun _ _ => rfl⟩

theorem Begun.ready (h : Begun A false w) {v : ℤ} (hcur : w.agent.cursor = some (.int v)) :
    Ready A false v w := by
  refine ⟨h.tracked, fun _ => hcur, h.active, fun id hid => ?_⟩
  have hnone := (h.steady id hid).resolve_left Bool.false_ne_true
  rw [hcur] at hnone
  cases hnone

theorem runOnce_safe (h : Begun A args.full w) :
    Safe (passing A).setting (A.sync.runOnce args.pageSize args.order args.fuel args.full).run
      (fun r w => Tracked A w ∧ Done A r w) w := by
  refine CredentialSync.runOnce_safe (fun e w' hr => ⟨hr.tracked h.tracked, trivial⟩)
    fun hsize => ?_
  refine ((syncOutline_holds hsize args.order args.fuel).runPass (Q := fun w =>
    Tracked A w ∧ Done A (.ok ()) w) ?_ fun p w h => saveCursor_safe h).mono ?_
  · exact Passing.load_safe (I := Begun A args.full) ⟨fun _ _ hr h => h.rely hr,
      fun _ h => h.tracked⟩ (fun _ _ => Ready.within.stable) (fun _ h _ => h.first)
      (fun w v h hf hcur => (hf ▸ h : Begun A false w).ready hcur) h
  · rintro (e | ⟨⟩) w hw
    · exact ⟨hw, trivial⟩
    · exact hw

end Pass

/-! ## All runs -/

section Runs

theorem begun_enter {w : World M} (h : Tracked A w) :
    Begun A args.full { w with
      dirty := ∅
      steady := if w.startsFull args then activeIDs A w.server else ∅ } := by
  refine ⟨h, fun id hid => ?_, fun id hid => ?_⟩
  · by_cases hf : w.startsFull args
    · simp only [hf, if_true] at hid
      exact mem_activeIDs.1 hid
    · simp [hf] at hid
  · by_cases hf : w.startsFull args
    · simpa [World.startsFull] using hf
    · simp [hf] at hid

variable (A)

theorem sync_sound :
    Solo.Sound (syncSystem A) (passing A).setting (Tracked A) (Tracked A) (Done A)
      VersionsAhead where
  perform := rfl
  act _ _ _ hv h := Rely.commit hv h
  idle _ _ h hr := Rely.tracked hr h
  crash _ _ h hr := Rely.tracked hr h
  guar _ _ h := h
  start s args w _ h he := by
    cases he
    exact ⟨h, runOnce_safe args (begun_enter args h)⟩
  call _ _ _ _ _ _ := trivial
  stop _ _ _ _ _ h := h

variable {A} {s₀ s₁ s₂ : SyncConfig P M} {pre post : List (SyncEvent M)} {args : PassArgs}

theorem good_of_runs (h₀ : s₀.task = none) (hfresh : s₀.world.agent.cursor = none)
    (hv : Along (Solo.step (syncSystem A)) VersionsAhead s₀ pre)
    (h : runs (Solo.step (syncSystem A)) s₀ pre = some s₁) :
    Solo.Good (passing A).setting (Tracked A) (Tracked A) (Done A) s₁ := by
  refine (sync_sound A).runs hv h ?_
  rw [Solo.Good, h₀]
  intro x hx
  rw [hfresh] at hx
  cases hx

theorem dirty_of_runs (hacts : ∀ r, .act r ∉ post) (h : s₁.world.dirty = ∅)
    (hr : runs (Solo.step (syncSystem A)) s₁ post = some s₂) : s₂.world.dirty = ∅ := by
  refine runs_inv (I := fun s : SyncConfig P M => s.world.dirty = ∅)
    (M := fun _ (e : SyncEvent M) => ∀ r, e ≠ .act r) ?_
    (along_of_forall fun e he _ r her => hacts r (her ▸ he)) hr h
  rintro s e s' hs hne hstep
  cases e with
  | act r => exact absurd rfl (hne r)
  | start a =>
    rcases s with ⟨w, - | ⟨r⟩ | ⟨c, k⟩⟩
    · cases hstep
      rfl
    · cases hstep
      rfl
    · cases hstep
  | call f =>
    rcases s with ⟨w, - | ⟨r⟩ | ⟨c | q, k⟩⟩
    · cases hstep
    · cases hstep
    · cases hstep
      exact hs
    · cases hstep
      simp only [syncSystem, World.perform]
      split
      · simp [World.serve, show w.dirty = ∅ from hs]
      · exact hs
      · simp [World.serve, show w.dirty = ∅ from hs]
  | stop =>
    cases hstep
    exact hs

/-- A connection that every commit leaves active stays steady. -/
theorem steady_of_runs (hstarts : ∀ a, .start a ∉ post)
    (hacts : ∀ r, .act r ∈ post → r.id = id → A.active r) (h : id ∈ s₁.world.steady)
    (hr : runs (Solo.step (syncSystem A)) s₁ post = some s₂) : id ∈ s₂.world.steady := by
  refine runs_inv (I := fun s : SyncConfig P M => id ∈ s.world.steady)
    (M := fun _ (e : SyncEvent M) => (∀ a, e ≠ .start a) ∧
      ∀ r, e = .act r → r.id = id → A.active r) ?_
    (along_of_forall fun e he _ => ⟨fun a hea => hstarts a (hea ▸ he),
      fun r her => hacts r (her ▸ he)⟩) hr h
  rintro s e s' hs hm hstep
  cases e with
  | act r =>
    obtain ⟨w, hw, rfl⟩ : ∃ w, s.world.commit A r = some w ∧ { s with world := w } = s' := by
      simpa [Solo.step, syncSystem] using hstep
    obtain ⟨-, -, -, -, hsteady⟩ := commit_eq_some hw
    exact (hsteady id).2 ⟨hs, fun hid => hm.2 r rfl hid.symm⟩
  | start a => exact absurd rfl (hm.1 a)
  | call f =>
    rcases s with ⟨w, - | ⟨r⟩ | ⟨c | q, k⟩⟩
    · cases hstep
    · cases hstep
    · cases hstep
      exact hs
    · cases hstep
      simp only [syncSystem, World.perform]
      split <;> exact hs
  | stop =>
    cases hstep
    exact hs

theorem holdsActive_of_not_differs {w : World M} (h : ∀ id, ¬ Differs A w.agent.users.rows w id) :
    HoldsActive A w.server.node.rows w.agent.users := by
  intro id u
  rw [not_not.1 (h id)]
  constructor
  · intro hu
    obtain ⟨r, hr, hru⟩ := Option.bind_eq_some_iff.1 hu
    have hid := w.server.keyed id r hr
    by_cases hact : A.active r
    · rw [if_pos hact] at hru
      exact ⟨r, ServerRows.mem_node.2 (hid ▸ hr), hact, hid, Option.some.inj hru⟩
    · rw [if_neg hact] at hru
      cases hru
  · rintro ⟨r, hr, hact, rfl, rfl⟩
    rw [wanted_of_row A (ServerRows.mem_node.1 hr), if_pos hact]

/-- Take any run of passes and server changes on a node whose agent starts without a cursor, that
ends with a successful pass, and in which the versions of the changes are ahead of the pages. If
the server has not changed since that pass began, `auth_users` holds
exactly the active connections with their material. What differs otherwise has a version that the
next incremental pass will report, so a change in the middle of a pass is not lost. And if the pass
was a full one, no connection that was active all the time is missing. -/
theorem sync_converges (h₀ : s₀.task = none) (hfresh : s₀.world.agent.cursor = none)
    (hversions : Along (Solo.step (syncSystem A)) VersionsAhead s₀ (pre ++ .start args :: post))
    (h₁ : runs (Solo.step (syncSystem A)) s₀ pre = some s₁)
    (h₂ : runs (Solo.step (syncSystem A)) s₁ (.start args :: post) = some s₂)
    (hpost : ∀ a, .start a ∉ post) (hok : s₂.task = some (.done (.ok ()))) :
    ((∀ r, .act r ∉ post) → HoldsActive A s₂.world.server.node.rows s₂.world.agent.users) ∧
    (∃ v, s₂.world.agent.cursor = some (.int v) ∧
      ∀ id, Differs A s₂.world.agent.users.rows s₂.world id →
        ∃ r, s₂.world.server.rows[id]? = some r ∧ ∀ g, selects false v (A.stored g r)) ∧
    (args.full = true ∨ s₁.world.agent.cursor = none →
      ∀ id r, s₁.world.server.rows[id]? = some r → A.active r →
        (∀ r', .act r' ∈ post → r'.id = id → A.active r') →
        id ∈ s₂.world.agent.users.rows) := by
  have hrun := (runs_append s₀ s₂ pre (.start args :: post)).2 ⟨s₁, h₁, h₂⟩
  obtain ⟨htr, ⟨v, hcur⟩, hrest, hsteady⟩ := (good_of_runs h₀ hfresh hversions hrun).result hok
  obtain ⟨s, hstart, hrun⟩ := (runs_cons s₁ s₂ (.start args) post).1 h₂
  have hs : s.world.dirty = ∅ ∧ s.world.steady =
      if s₁.world.startsFull args then activeIDs A s₁.world.server else ∅ := by
    rcases s₁ with ⟨w, - | ⟨r⟩ | ⟨c, k⟩⟩
    · cases hstart
      exact ⟨rfl, rfl⟩
    · cases hstart
      exact ⟨rfl, rfl⟩
    · cases hstart
  refine ⟨fun hacts => ?_, ⟨v, hcur, fun id hd => ?_⟩, fun hfull id r hr hact hkeep => ?_⟩
  · refine holdsActive_of_not_differs fun id hd => ?_
    have hdirty := hrest id hd
    rw [dirty_of_runs hacts hs.1 hrun] at hdirty
    simp at hdirty
  · obtain ⟨v', -, hx, hcaught⟩ := htr _ hcur
    cases hx
    obtain ⟨r, hr, hle⟩ := hcaught id hd
    exact ⟨r, hr, selects_of_le hr hle⟩
  · refine hsteady id (steady_of_runs hpost hkeep ?_ hrun)
    have hf : s₁.world.startsFull args = true := by simpa [World.startsFull] using hfull
    rw [hs.2, if_pos hf]
    exact mem_activeIDs.2 ⟨r, hr, hact⟩

/-- A full pass in pages of one, while the connection is put on hold after it was listed. -/
def heldMeanwhile : List (SyncEvent String) :=
  [.start ⟨true, 1, .sorted, 2⟩, .call ⟨.ok, 5, 0⟩, .call ⟨.ok, 0, 0⟩,
    .act ⟨"c1", .held, 9, .active, "hash"⟩, .call ⟨.ok, 10, 0⟩, .call ⟨.ok, 0, 0⟩,
    .call ⟨.ok, 0, 0⟩]

/-- The incremental pass after it. -/
theorem sync_converges_heldMeanwhile :
    ∃ s₂, runs (Solo.step (syncSystem hysteriaAdapter)) ⟨oneConnection, none⟩
      (heldMeanwhile ++ .start ⟨false, 1, .sorted, 2⟩ :: List.replicate 7 (.call ⟨.ok, 12, 0⟩)) =
        some s₂ ∧ s₂.task = some (.done (.ok ())) ∧
      HoldsActive hysteriaAdapter s₂.world.server.node.rows s₂.world.agent.users := by
  obtain ⟨s₂, hs₂, hok, -⟩ := of_succeeded (p := fun _ => true)
    (s := runs (Solo.step (syncSystem hysteriaAdapter)) ⟨oneConnection, none⟩
      (heldMeanwhile ++ .start ⟨false, 1, .sorted, 2⟩ ::
      List.replicate 7 (.call ⟨.ok, 12, 0⟩))) (by decide +kernel)
  obtain ⟨s₁, h₁, h₂⟩ := (runs_append _ _ _ _).1 hs₂
  refine ⟨s₂, hs₂, hok, (sync_converges rfl rfl (by decide +kernel) h₁ h₂ (fun a ha => ?_)
    hok).1 fun r hr => ?_⟩
  · cases List.eq_of_mem_replicate ha
  · cases List.eq_of_mem_replicate hr

end Runs

end LazGate
