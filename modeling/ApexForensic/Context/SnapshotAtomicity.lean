import ApexForensic.Context.SessionLaw
import ApexForensic.Context.SnapshotCreation

/-!
# Snapshot creation in three steps

A call that is stopped between its transactions leaves a snapshot without
its states or without the contexts of some of its scopes.
-/

namespace ApexForensic.Context

open ApexForensic.Support ApexForensic.Domain
open ApexForensic.Support.Service

variable {s : SnapshotStore} {snapshot : AnalysisContextSnapshot}
  {request : SnapshotRequest} {id : String}

/-! ## Before the first write -/

/-- What a call has in hand before it writes: a stored snapshot that it
returns as it is, or the request of a new one. -/
abbrev Planned := AnalysisContextSnapshot ⊕ SnapshotRequest

section

variable (P : Platform) (env : Surroundings)

/-- What a call does before it creates a snapshot. -/
def Call.plan : Call → SnapshotCall Planned
  | .buildFromSession sessionContextId purpose scopes previousSnapshotId
      cancelledFrom =>
      Sum.inr <$> requestOfSession P env sessionContextId purpose scopes
        previousSnapshotId cancelledFrom
  | .buildFromSelection selection _ =>
      Sum.inr <$> requestOfSelection P env selection
  | .addScope contextSnapshotId scope limit => do
      let snapshot ← getSnapshot env contextSnapshotId
      if scope ∈ snapshot.scopes then pure (.inl snapshot)
      else do
        let listed ← query env.raises .listing fun s =>
          .ok (resourceIdsForScope s.sources snapshot.caseId limit scope)
        Sum.inr <$> requestOfSelection P env (snapshot.reselect
          (snapshot.scopes ++ [scope])
          (withListed snapshot.includedResourceIds listed))
  | .removeScope contextSnapshotId scope => do
      let snapshot ← getSnapshot env contextSnapshotId
      Sum.inr <$> requestOfSelection P env (snapshot.reselect
        (snapshot.scopes.filter fun item => item ≠ scope)
        (withoutTypesOf snapshot.includedResourceIds scope))
  | .refresh contextSnapshotId => do
      let snapshot ← getSnapshot env contextSnapshotId
      let states ← query env.raises .resources fun s =>
        snapshot.refreshSourceRevisions P s.sources env.now
      pure (.inr (snapshot.request states))

/-- The check from which the token of a call is cancelled. -/
def Call.cancelledFrom : Call → Option ℕ
  | .buildFromSession _ _ _ _ cancelledFrom => cancelledFrom
  | .buildFromSelection _ cancelledFrom => cancelledFrom
  | _ => none

/-- The rest of a call. -/
def carryOut (cancelledFrom : Option ℕ) :
    Planned → SnapshotCall AnalysisContextSnapshot
  | .inl snapshot => pure snapshot
  | .inr request => createSnapshot P env request cancelledFrom

theorem Call.run_eq (call : Call) :
    call.run P env =
      call.plan P env >>= carryOut P env call.cancelledFrom := by
  cases call with
  | buildFromSession sessionContextId purpose scopes previousSnapshotId _ =>
      rw [Call.plan, map_eq_pure_bind, bind_assoc]
      rfl
  | buildFromSelection selection _ =>
      rw [Call.plan, map_eq_pure_bind, bind_assoc]
      rfl
  | addScope contextSnapshotId scope limit =>
      rw [Call.plan, bind_assoc]
      refine bind_congr fun snapshot => ?_
      by_cases hscope : scope ∈ snapshot.scopes
      · simp only [hscope, if_true]
        rfl
      · simp only [hscope, if_false, map_eq_pure_bind, bind_assoc]
        rfl
  | removeScope contextSnapshotId scope =>
      rw [Call.plan, bind_assoc]
      refine bind_congr fun snapshot => ?_
      rw [map_eq_pure_bind, bind_assoc]
      rfl
  | refresh contextSnapshotId =>
      rw [Call.plan, bind_assoc]
      refine bind_congr fun snapshot => ?_
      rw [bind_assoc]
      rfl

end

variable {P : Platform} {env : Surroundings}

theorem readOnly_map {α β : Type} {m : SnapshotCall α} (hm : ReadOnly m)
    (f : α → β) : ReadOnly (f <$> m) := by
  rw [map_eq_pure_bind]
  exact readOnly_bind hm fun a => readOnly_pure (f a)

theorem readOnly_scopesOr (scopes : List String) (included : ResourceMap) :
    ReadOnly (scopesOr env scopes included) := by
  rw [scopesOr]
  split
  · exact readOnly_query _ _ _
  · exact readOnly_pure _

theorem readOnly_requestOfSelection (selection : Selection) :
    ReadOnly (requestOfSelection P env selection) :=
  readOnly_bind (readOnly_query _ _ _) fun _ =>
    readOnly_bind (readOnly_query _ _ _) fun _ =>
      readOnly_bind (readOnly_scopesOr _ _) fun _ => readOnly_pure _

theorem readOnly_searchIndexRevision (executionId : Option String) :
    ReadOnly (searchIndexRevision env executionId) := by
  cases executionId with
  | none => exact readOnly_pure _
  | some executionId => exact readOnly_query _ _ _

theorem readOnly_requestOfSession (sessionContextId purpose : String)
    (scopes : List String) (previousSnapshotId : Option String)
    (cancelledFrom : Option ℕ) :
    ReadOnly (requestOfSession P env sessionContextId purpose scopes
      previousSnapshotId cancelledFrom) :=
  readOnly_bind (readOnly_query _ _ _) fun _ =>
    readOnly_bind (readOnly_checkCancel _) fun _ =>
      readOnly_bind (readOnly_query _ _ _) fun _ =>
        readOnly_bind (readOnly_scopesOr _ _) fun _ =>
          readOnly_bind (readOnly_searchIndexRevision _) fun _ =>
            readOnly_pure _

theorem readOnly_plan (call : Call) : ReadOnly (call.plan P env) := by
  cases call with
  | buildFromSession sessionContextId purpose scopes previousSnapshotId _ =>
      exact readOnly_map (readOnly_requestOfSession _ _ _ _ _) _
  | buildFromSelection selection _ =>
      exact readOnly_map (readOnly_requestOfSelection _) _
  | addScope contextSnapshotId scope limit =>
      refine readOnly_bind (readOnly_query _ _ _) fun snapshot => ?_
      by_cases hscope : scope ∈ snapshot.scopes
      · simp only [hscope, if_true]
        exact readOnly_pure _
      · simp only [hscope, if_false]
        exact readOnly_bind (readOnly_query _ _ _) fun _ =>
          readOnly_map (readOnly_requestOfSelection _) _
  | removeScope contextSnapshotId scope =>
      exact readOnly_bind (readOnly_query _ _ _) fun _ =>
        readOnly_map (readOnly_requestOfSelection _) _
  | refresh contextSnapshotId =>
      exact readOnly_bind (readOnly_query _ _ _) fun _ =>
        readOnly_bind (readOnly_query _ _ _) fun _ => readOnly_pure _

theorem readOnly_prepareSnapshot (request : SnapshotRequest)
    (cancelledFrom : Option ℕ) :
    ReadOnly (prepareSnapshot P env request cancelledFrom) :=
  readOnly_bind (readOnly_checkCancel _) fun _ =>
    readOnly_bind (readOnly_read _) fun _ => readOnly_query _ _ _

/-! ## The first write -/

/-- The call gets as far as to store a snapshot, which leaves the store
`t`. -/
def Call.Stores (P : Platform) (env : Surroundings) (call : Call)
    (s : SnapshotStore) (snapshot : AnalysisContextSnapshot)
    (t : SnapshotStore) : Prop :=
  ∃ request, (call.plan P env).result s = .ok (.inr request) ∧
    (prepareSnapshot P env request call.cancelledFrom).result s =
      .ok snapshot ∧
    env.raises .snapshotRow = none ∧
    saveAnalysisContextSnapshot snapshot s = .ok ((), t)

/-- The call returns a stored snapshot, which has the scope already. -/
def Call.Returns (env : Surroundings) (call : Call) (s : SnapshotStore)
    (snapshot : AnalysisContextSnapshot) : Prop :=
  ∃ contextSnapshotId scope limit,
    call = .addScope contextSnapshotId scope limit ∧
    env.raises .stored = none ∧
    s.snapshots.find? contextSnapshotId = some snapshot ∧
    scope ∈ snapshot.scopes

theorem of_prepareSnapshot {cancelledFrom : Option ℕ}
    (h : (prepareSnapshot P env request cancelledFrom).result s =
      .ok snapshot) :
    validateBudgets P request = .ok () ∧
      makeSnapshot P s.sources request (env.newId 0) env.now =
        .ok snapshot := by
  obtain ⟨_, hcheck, h⟩ := result_bind_eq_ok_iff.mp h
  rw [readOnly_checkCancel _ s] at h
  obtain ⟨_, hbudget, h⟩ := result_bind_eq_ok_iff.mp h
  rw [after_read] at h
  exact ⟨hbudget, (result_query_eq_ok_iff.mp h).2⟩

theorem result_getSnapshot_eq_ok_iff {contextSnapshotId : String} :
    (getSnapshot env contextSnapshotId).result s = .ok snapshot ↔
      env.raises .stored = none ∧
        s.snapshots.find? contextSnapshotId = some snapshot := by
  rw [getSnapshot, result_query_eq_ok_iff]
  refine and_congr_right fun _ => ?_
  cases s.snapshots.find? contextSnapshotId with
  | none => simp
  | some row => simp

/-- What a selection asks for: the states of its resources, and its scopes or
the ones derived from its resources. -/
theorem of_requestOfSelection {selection : Selection}
    (h : (requestOfSelection P env selection).result s = .ok request) :
    selection.caseId ∈ s.sources.cases ∧
      ∃ states, revisionStatesForResources P s.sources selection.caseId
          (dedupedResources selection.resources) env.now = .ok states ∧
        request = selection.request states
          (if selection.scopes = [] then scopesFromIncluded s.sources
            (dedupedResources selection.resources)
          else selection.scopes) := by
  obtain ⟨_, hcase, h⟩ := result_bind_eq_ok_iff.mp h
  obtain ⟨states, hstates, h⟩ := result_bind_eq_ok_iff.mp h
  obtain ⟨scopes, hscopes, h⟩ := result_bind_eq_ok_iff.mp h
  have hcase := (result_query_eq_ok_iff.mp hcase).2
  unfold requireCase at hcase
  have hmem := (check_ok hcase).1
  refine ⟨not_not.mp hmem, states, (result_query_eq_ok_iff.mp hstates).2, ?_⟩
  obtain rfl := Except.ok.inj h
  rw [scopesOr] at hscopes
  split at hscopes
  · rename_i hnil
    rw [if_pos hnil, ← Except.ok.inj (result_query_eq_ok_iff.mp hscopes).2]
    rfl
  · rename_i hne
    rw [if_neg hne, ← Except.ok.inj hscopes]

theorem of_requestOfSession {sessionContextId purpose : String}
    {scopes : List String} {previousSnapshotId : Option String}
    {cancelledFrom : Option ℕ}
    (h : (requestOfSession P env sessionContextId purpose scopes
      previousSnapshotId cancelledFrom).result s = .ok request) :
    ∃ context states revision scopes',
      validateSourceRevisions P s.sources context env.now = .ok states ∧
        request = context.request purpose states scopes' revision
          previousSnapshotId := by
  obtain ⟨context, hcontext, h⟩ := result_bind_eq_ok_iff.mp h
  obtain ⟨_, hcheck, h⟩ := result_bind_eq_ok_iff.mp h
  obtain ⟨states, hstates, h⟩ := result_bind_eq_ok_iff.mp h
  obtain ⟨scopes', hscopes, h⟩ := result_bind_eq_ok_iff.mp h
  obtain ⟨revision, hrevision, h⟩ := result_bind_eq_ok_iff.mp h
  exact ⟨context, states, revision, scopes',
    (result_query_eq_ok_iff.mp hstates).2, (Except.ok.inj h).symm⟩

theorem of_map_inr {m : SnapshotCall SnapshotRequest}
    (h : (Sum.inr <$> m : SnapshotCall Planned).result s =
      .ok (.inr request)) : m.result s = .ok request := by
  rw [map_eq_pure_bind] at h
  obtain ⟨r, hr, h⟩ := result_bind_eq_ok_iff.mp h
  rw [hr, Sum.inr.inj (Except.ok.inj h)]

theorem not_map_inr_eq_inl {m : SnapshotCall SnapshotRequest} :
    (Sum.inr <$> m : SnapshotCall Planned).result s ≠ .ok (.inl snapshot) := by
  rw [map_eq_pure_bind]
  intro h
  obtain ⟨request, -, h⟩ := result_bind_eq_ok_iff.mp h
  cases Except.ok.inj h

theorem result_plan_eq_inl_iff {call : Call} :
    (call.plan P env).result s = .ok (.inl snapshot) ↔
      call.Returns env s snapshot := by
  constructor
  · intro h
    cases call with
    | buildFromSession _ _ _ _ _ => exact absurd h not_map_inr_eq_inl
    | buildFromSelection _ _ => exact absurd h not_map_inr_eq_inl
    | addScope contextSnapshotId scope limit =>
        obtain ⟨row, hrow, h⟩ := result_bind_eq_ok_iff.mp h
        obtain ⟨hpoint, hfind⟩ := result_getSnapshot_eq_ok_iff.mp hrow
        by_cases hscope : scope ∈ row.scopes
        · simp only [hscope, if_true] at h
          obtain rfl := Sum.inl.inj (Except.ok.inj h)
          exact ⟨contextSnapshotId, scope, limit, rfl, hpoint, hfind, hscope⟩
        · simp only [hscope, if_false] at h
          obtain ⟨listed, -, h⟩ := result_bind_eq_ok_iff.mp h
          exact absurd h not_map_inr_eq_inl
    | removeScope contextSnapshotId scope =>
        obtain ⟨row, -, h⟩ := result_bind_eq_ok_iff.mp h
        exact absurd h not_map_inr_eq_inl
    | refresh contextSnapshotId =>
        obtain ⟨row, -, h⟩ := result_bind_eq_ok_iff.mp h
        obtain ⟨states, -, h⟩ := result_bind_eq_ok_iff.mp h
        cases Except.ok.inj h
  · rintro ⟨contextSnapshotId, scope, limit, rfl, hpoint, hfind, hscope⟩
    refine result_bind_eq_ok_iff.mpr ⟨snapshot,
      result_getSnapshot_eq_ok_iff.mpr ⟨hpoint, hfind⟩, ?_⟩
    simp only [hscope, if_true]
    rfl

/-! ## Whole snapshots -/

/-- The store holds the snapshot with all that belongs to it. -/
structure Complete (store : SnapshotStore)
    (snapshot : AnalysisContextSnapshot) : Prop where
  held : ∃ row ∈ store.snapshots.rows, row = snapshot ∨ row = snapshot.stored
  states : store.revisionStates.filter
      (fun row => row.contextSnapshotId = snapshot.contextSnapshotId) =
    snapshot.sourceRevisions.map (revisionStateRow snapshot.contextSnapshotId)
  resources : ∀ resource, (∃ row ∈ store.resources.rows,
      row.key = (snapshot.contextSnapshotId, resource)) ↔
    resource ∈ resourcePairs snapshot.includedResourceIds ∨
      resource ∈ resourcePairs snapshot.excludedResourceIds
  scopes : (store.scopeContexts.filter
      fun c => c.contextSnapshotId = snapshot.contextSnapshotId).map
        AnalysisScopeContext.scopeType = snapshot.scopes
  once : snapshot.scopes.Nodup

/-- Every row names a snapshot of the store. -/
structure Referring (store : SnapshotStore) : Prop where
  resources : ∀ row ∈ store.resources.rows,
    ¬ IdFree store row.contextSnapshotId
  states : ∀ row ∈ store.revisionStates, ¬ IdFree store row.contextSnapshotId
  scopes : ∀ c ∈ store.scopeContexts, ¬ IdFree store c.contextSnapshotId

variable {snapshot : AnalysisContextSnapshot} {s t : SnapshotStore}

theorem Adds.idFree_iff (h : Adds snapshot s t) :
    IdFree t id ↔ IdFree s id ∧ id ≠ snapshot.contextSnapshotId := by
  rw [IdFree, h.snapshots, List.map_append, List.mem_append, not_or,
    List.map_singleton, List.mem_singleton]
  rfl

theorem Adds.referring (h : Adds snapshot s t) (hs : Referring s) :
    Referring t := by
  have hgrows : ∀ {id}, ¬ IdFree s id → ¬ IdFree t id := fun hid ht =>
    hid (h.idFree_iff.mp ht).1
  have hnew : ¬ IdFree t snapshot.contextSnapshotId := fun ht =>
    (h.idFree_iff.mp ht).2 rfl
  constructor
  · intro row hrow
    have hkey := exists_mem_insertOrIgnore.mp
      ⟨row, h.resources ▸ hrow, (rfl : row.key = row.key)⟩
    rcases hkey with ⟨old, hold, hkey⟩ | hadded
    · have hid : old.contextSnapshotId = row.contextSnapshotId :=
        (Prod.ext_iff.mp hkey).1
      rw [← hid]
      exact hgrows (hs.resources old hold)
    · rw [(mem_resourceRows_iff.mp hadded).1]
      exact hnew
  · intro row hrow
    obtain ⟨added, hstates, howned⟩ := h.states
    rw [hstates] at hrow
    rcases List.mem_append.mp hrow with hrow | hrow
    · exact hgrows (hs.states row hrow)
    · rw [howned row hrow]
      exact hnew
  · intro c hc
    obtain ⟨added, hscopes, howned⟩ := h.scopes
    rw [hscopes] at hc
    rcases List.mem_append.mp hc with hc | hc
    · exact hgrows (hs.scopes c hc)
    · rw [howned c hc]
      exact hnew

theorem filter_append_of_owned {α : Type} {f : α → String} {id' : String}
    {rows added : List α} (howned : ∀ row ∈ added, f row = id') (hne : id' ≠ id)
    :
    (rows ++ added).filter (fun row => f row = id) =
      rows.filter fun row => f row = id := by
  have hadded : added.filter (fun row => f row = id) = [] := by
    refine List.filter_eq_nil_iff.mpr fun row hrow => ?_
    rw [howned row hrow]
    simpa using hne
  rw [List.filter_append, hadded, List.append_nil]

theorem filter_append_of_new {α : Type} {f : α → String} {rows added : List α}
    (hrows : ∀ row ∈ rows, f row ≠ id) (howned : ∀ row ∈ added, f row = id) :
    (rows ++ added).filter (fun row => f row = id) = added := by
  have hrows : rows.filter (fun row => f row = id) = [] :=
    List.filter_eq_nil_iff.mpr fun row hrow => by simpa using hrows row hrow
  rw [List.filter_append, hrows, List.nil_append, List.filter_eq_self]
  intro row hrow
  simpa using howned row hrow

theorem Adds.complete_of_complete (h : Adds snapshot s t)
    {row : AnalysisContextSnapshot} (hrow : Complete s row) :
    Complete t row := by
  obtain ⟨held, hheld, heq⟩ := hrow.held
  have hid : row.contextSnapshotId = held.contextSnapshotId := by
    rcases heq with rfl | rfl <;> rfl
  have hne : snapshot.contextSnapshotId ≠ row.contextSnapshotId := by
    intro hsame
    exact h.free (hsame ▸ hid ▸ List.mem_map_of_mem hheld)
  obtain ⟨states, hstates, hstatesOwned⟩ := h.states
  obtain ⟨scopes, hscopes, hscopesOwned⟩ := h.scopes
  refine ⟨⟨held, ?_, heq⟩, ?_, fun resource => ?_, ?_, hrow.once⟩
  · rw [h.snapshots]
    exact List.mem_append_left _ hheld
  · rw [hstates, filter_append_of_owned hstatesOwned hne]
    exact hrow.states
  · rw [h.resources, exists_mem_insertOrIgnore, mem_resourceRows_iff,
      hrow.resources resource]
    exact or_iff_left fun hnew => hne hnew.1.symm
  · rw [hscopes, filter_append_of_owned hscopesOwned hne]
    exact hrow.scopes

theorem Adds.complete_of_addsAll (h : Adds snapshot s t) (hs : Referring s)
    (hnodup : snapshot.scopes.Nodup) (hall : AddsAll snapshot s t) :
    Complete t snapshot := by
  have hfree : ∀ {id}, ¬ IdFree s id → id ≠ snapshot.contextSnapshotId :=
    fun hid heq => hid (heq ▸ h.free)
  obtain ⟨hstates, scopes, hscopes, howned, htypes⟩ := hall
  refine ⟨⟨snapshot.stored, ?_, Or.inr rfl⟩, ?_, fun resource => ?_, ?_, hnodup⟩
  · rw [h.snapshots]
    exact List.mem_append_right _ List.mem_cons_self
  · rw [hstates]
    refine filter_append_of_new (fun row hrow => hfree (hs.states row hrow))
      fun row hrow => ?_
    obtain ⟨state, -, rfl⟩ := List.mem_map.mp hrow
    rfl
  · rw [h.resources, exists_mem_insertOrIgnore, mem_resourceRows_iff]
    constructor
    · rintro (⟨row, hrow, hkey⟩ | ⟨-, hmem⟩)
      · exact absurd (Prod.ext_iff.mp hkey).1 (hfree (hs.resources row hrow))
      · exact hmem
    · exact fun hmem => Or.inr ⟨rfl, hmem⟩
  · rw [hscopes, filter_append_of_new
      (fun c hc => hfree (hs.scopes c hc)) howned]
    exact htypes

/-! ## Calls that are not interrupted -/

/-- Nothing stops a call after it has stored the snapshot. -/
structure Uninterrupted (env : Surroundings) (cancelledFrom : Option ℕ)
    (store : SnapshotStore) (snapshot : AnalysisContextSnapshot) : Prop where
  states : env.raises .stateRows = none
  scopes : ScopesPass env cancelledFrom store.scopeContexts 0 snapshot.scopes

/-- A call that gets as far as to store a snapshot is not stopped from there
on. -/
def Call.GoesThrough (P : Platform) (env : Surroundings) (call : Call)
    (s : SnapshotStore) : Prop :=
  ∀ snapshot t, call.Stores P env s snapshot t →
    Uninterrupted env call.cancelledFrom s snapshot

/-- The call raises and leaves the store as it was, or the snapshot that it
returns is in the store with all that belongs to it. -/
def Call.Atomic (P : Platform) (env : Surroundings) (call : Call)
    (s : SnapshotStore) : Prop :=
  AtomicAt (fun snapshot t => Complete t snapshot) (call.run P env) s

theorem nodup_scopes_of_makeSnapshot {sources : Sources} {now : Instant}
    (h : makeSnapshot P sources request id now = .ok snapshot) :
    snapshot.scopes.Nodup := by
  obtain ⟨purpose, -, h⟩ := bind_ok h
  obtain rfl := Except.ok.inj h
  exact nodup_sortedUnique _

theorem scopeFree_of_idFree (hs : Referring s)
    (hfree : IdFree s snapshot.contextSnapshotId) (scope : String) :
    ScopeFree s snapshot scope :=
  fun c hc h => hs.scopes c hc (h.1 ▸ hfree)

theorem atomicAt_store_iff {cancelledFrom : Option ℕ} (hs : Referring s)
    (hnodup : snapshot.scopes.Nodup) (hpoint : env.raises .snapshotRow = none)
    (hsave : saveAnalysisContextSnapshot snapshot s = .ok ((), t)) :
    AtomicAt (fun result u => Complete u result)
        (operation env.raises .snapshotRow
          (saveAnalysisContextSnapshot snapshot) >>= fun _ =>
            finishSnapshot P env cancelledFrom snapshot) s ↔
      Uninterrupted env cancelledFrom s snapshot := by
  obtain ⟨hadds, hall⟩ := adds_finishSnapshot P env cancelledFrom hsave
  have hstored : (operation env.raises .snapshotRow
      (saveAnalysisContextSnapshot snapshot)).result s = .ok () :=
    result_operation_eq_ok_iff.mpr ⟨hpoint, t, hsave⟩
  have hafter := after_operation_of_ok (f := saveAnalysisContextSnapshot
    snapshot) hpoint hsave
  have hcontexts : t.scopeContexts = s.scopeContexts := by
    rw [(of_saveAnalysisContextSnapshot hsave).2.2]
  have hchanged : (finishSnapshot P env cancelledFrom snapshot).after t ≠ s := by
    intro heq
    have hrows := hadds.snapshots
    rw [heq] at hrows
    exact List.cons_ne_nil _ _ (List.self_eq_append_right.mp hrows)
  have hscopeFree : ∀ scope ∈ snapshot.scopes, ScopeFree t snapshot scope :=
    fun scope _ c hc =>
      scopeFree_of_idFree hs hadds.free scope c (hcontexts ▸ hc)
  have hfinish : ∀ result,
      (finishSnapshot P env cancelledFrom snapshot).result t = .ok result ↔ _ :=
    fun _ => result_finishSnapshot_eq_ok_iff hnodup hscopeFree
  rw [atomicAt_bind_iff_of_changed hstored (hafter.symm ▸ hchanged), hafter]
  constructor
  · rintro ⟨result, hresult, -⟩
    obtain ⟨-, hstates, hpass⟩ := (hfinish result).mp hresult
    exact ⟨hstates, hcontexts ▸ hpass⟩
  · rintro ⟨hstates, hpass⟩
    have hresult := (hfinish snapshot).mpr
      ⟨rfl, hstates, hcontexts.symm ▸ hpass⟩
    exact ⟨snapshot, hresult,
      hadds.complete_of_addsAll hs hnodup (hall _ hresult)⟩

theorem atomicAt_createSnapshot_iff {cancelledFrom : Option ℕ}
    (hs : Referring s) :
    AtomicAt (fun result u => Complete u result)
        (createSnapshot P env request cancelledFrom) s ↔
      ∀ snapshot t,
        (prepareSnapshot P env request cancelledFrom).result s = .ok snapshot →
        env.raises .snapshotRow = none →
        saveAnalysisContextSnapshot snapshot s = .ok ((), t) →
        Uninterrupted env cancelledFrom s snapshot := by
  rw [createSnapshot]
  cases hprepare : (prepareSnapshot P env request cancelledFrom).result s with
  | error e =>
      refine iff_of_true (atomicAt_of_error (rollsBack_of_readOnly
        (readOnly_prepareSnapshot _ _)) hprepare) ?_
      intro snapshot t hsnapshot
      cases hsnapshot
  | ok snapshot =>
      rw [atomicAt_bind_iff (readOnly_prepareSnapshot _ _) hprepare]
      cases hstored : (operation env.raises .snapshotRow
          (saveAnalysisContextSnapshot snapshot)).result s with
      | error e =>
          refine iff_of_true (atomicAt_of_error (rollsBack_operation _ _ _)
            hstored) ?_
          intro snapshot' t hsnapshot hpoint hsave
          obtain rfl := Except.ok.inj hsnapshot
          rw [result_operation_eq_ok_iff.mpr ⟨hpoint, t, hsave⟩] at hstored
          cases hstored
      | ok _ =>
          obtain ⟨hpoint, t, hsave⟩ := result_operation_eq_ok_iff.mp hstored
          have hnodup := nodup_scopes_of_makeSnapshot
            (of_prepareSnapshot hprepare).2
          rw [atomicAt_store_iff hs hnodup hpoint hsave]
          constructor
          · intro huninterrupted snapshot' t' hsnapshot _ _
            obtain rfl := Except.ok.inj hsnapshot
            exact huninterrupted
          · intro hthrough
            exact hthrough snapshot t rfl hpoint hsave

/-- A call is atomic when nothing stops it after its first write, and when a
snapshot that it returns as it is is complete. -/
theorem atomic_iff (hs : Referring s) (call : Call) :
    call.Atomic P env s ↔ call.GoesThrough P env s ∧
      ∀ snapshot, call.Returns env s snapshot → Complete s snapshot := by
  rw [Call.Atomic, Call.run_eq]
  simp only [Call.GoesThrough, Call.Stores, ← result_plan_eq_inl_iff (P := P)]
  cases hplan : (call.plan P env).result s with
  | error e =>
      refine iff_of_true (atomicAt_of_error
        (rollsBack_of_readOnly (readOnly_plan call)) hplan) ⟨?_, ?_⟩
      · rintro snapshot t ⟨request, hrequest, -⟩
        cases hrequest
      · intro snapshot hfound
        cases hfound
  | ok planned =>
      rw [atomicAt_bind_iff (readOnly_plan call) hplan]
      cases planned with
      | inl found =>
          constructor
          · intro hatomic
            refine ⟨?_, fun snapshot hfound => ?_⟩
            · rintro snapshot t ⟨request, hrequest, -⟩
              cases hrequest
            · obtain rfl := Sum.inl.inj (Except.ok.inj hfound)
              exact hatomic.2 _ rfl
          · rintro ⟨-, hfound⟩
            refine ⟨fun e he => ?_, fun result hresult => ?_⟩
            · cases he
            · obtain rfl := Except.ok.inj hresult
              exact hfound found rfl
      | inr request =>
          rw [carryOut, atomicAt_createSnapshot_iff hs]
          constructor
          · intro hthrough
            refine ⟨?_, fun snapshot hfound => ?_⟩
            · rintro snapshot t ⟨r, hr, hprepare, hpoint, hsave⟩
              obtain rfl := Sum.inr.inj (Except.ok.inj hr)
              exact hthrough snapshot t hprepare hpoint hsave
            · cases hfound
          · rintro ⟨hthrough, -⟩ snapshot t hprepare hpoint hsave
            exact hthrough snapshot t ⟨request, rfl, hprepare, hpoint, hsave⟩

/-- A call that returns a new snapshot has made it of its request, and has
stored it. -/
theorem of_createSnapshot {cancelledFrom : Option ℕ}
    (h : (createSnapshot P env request cancelledFrom).result s =
      .ok snapshot) :
    makeSnapshot P s.sources request (env.newId 0) env.now = .ok snapshot ∧
      ((createSnapshot P env request cancelledFrom).after s).snapshots.rows =
        s.snapshots.rows ++ [snapshot.stored] := by
  rw [createSnapshot] at h ⊢
  obtain ⟨made, hprepare, h⟩ := result_bind_eq_ok_iff.mp h
  rw [after_bind_of_result hprepare]
  rw [readOnly_prepareSnapshot _ _ s] at h ⊢
  obtain ⟨_, hstored, h⟩ := result_bind_eq_ok_iff.mp h
  obtain ⟨hpoint, t, hsave⟩ := result_operation_eq_ok_iff.mp hstored
  rw [after_bind_of_result hstored]
  rw [after_operation_of_ok hpoint hsave] at h ⊢
  have hmade : made = snapshot := by
    obtain ⟨_, -, h⟩ := result_bind_eq_ok_iff.mp h
    obtain ⟨_, -, h⟩ := result_bind_eq_ok_iff.mp h
    exact Except.ok.inj h
  rw [← hmade]
  exact ⟨(of_prepareSnapshot hprepare).2, (adds_finishSnapshot P env _ hsave).1.snapshots⟩

/-! ## Runs -/

/-- What happens to the store: a call is made, or other services change what
the calls read. -/
inductive SnapshotMove where
  | call (env : Surroundings) (call : Call)
  | change (sources : Sources)
      (contexts : Table GuiSessionContext.sessionContextId)
      (fsCoverage artifactCoverage timelineCoverage : List CoverageRow)

def snapshotStep (P : Platform) (s : SnapshotStore) :
    SnapshotMove → SnapshotStore
  | .call env call => (call.run P env).after s
  | .change sources contexts fsCoverage artifactCoverage timelineCoverage =>
      { s with
        sources := sources
        contexts := contexts
        fsCoverage := fsCoverage
        artifactCoverage := artifactCoverage
        timelineCoverage := timelineCoverage }

def SnapshotStore.without (sources : Sources)
    (contexts : Table GuiSessionContext.sessionContextId) : SnapshotStore where
  sources := sources
  contexts := contexts
  fsCoverage := []
  artifactCoverage := []
  timelineCoverage := []
  snapshots := Table.empty _
  resources := Table.empty _
  revisionStates := []
  scopeContexts := []

variable (P env) in
theorem after_run_cases (call : Call) (s : SnapshotStore) :
    (call.run P env).after s = s ∨
      ∃ snapshot t, call.Stores P env s snapshot t ∧
        Adds snapshot s ((call.run P env).after s) ∧
        ∀ result, (call.run P env).result s = .ok result →
          AddsAll snapshot s ((call.run P env).after s) := by
  rw [Call.run_eq]
  cases hplan : (call.plan P env).result s with
  | error e =>
      rw [after_bind_of_error hplan, readOnly_plan call s]
      exact Or.inl rfl
  | ok planned =>
      rw [after_bind_of_result hplan, result_bind_of_ok hplan,
        readOnly_plan call s]
      cases planned with
      | inl found => exact Or.inl rfl
      | inr request =>
          rw [carryOut, createSnapshot]
          cases hprepare : (prepareSnapshot P env request
              call.cancelledFrom).result s with
          | error e =>
              rw [after_bind_of_error hprepare, readOnly_prepareSnapshot _ _ s]
              exact Or.inl rfl
          | ok snapshot =>
              rw [after_bind_of_result hprepare, result_bind_of_ok hprepare,
                readOnly_prepareSnapshot _ _ s]
              cases hstored : (operation env.raises .snapshotRow
                  (saveAnalysisContextSnapshot snapshot)).result s with
              | error e =>
                  rw [after_bind_of_error hstored,
                    rollsBack_operation _ _ _ s e hstored]
                  exact Or.inl rfl
              | ok _ =>
                  obtain ⟨hpoint, t, hsave⟩ :=
                    result_operation_eq_ok_iff.mp hstored
                  rw [after_bind_of_result hstored, result_bind_of_ok hstored,
                    after_operation_of_ok hpoint hsave]
                  exact Or.inr ⟨snapshot, t,
                    ⟨request, hplan, hprepare, hpoint, hsave⟩,
                    adds_finishSnapshot P env _ hsave⟩

theorem sources_after_run (call : Call) (s : SnapshotStore) :
    ((call.run P env).after s).sources = s.sources := by
  rcases after_run_cases P env call s with
    h | ⟨snapshot, t, -, hadds, -⟩
  · rw [h]
  · exact hadds.sources

theorem referring_change {t : SnapshotStore} (hs : Referring s)
    (hsnapshots : t.snapshots = s.snapshots)
    (hresources : t.resources = s.resources)
    (hstates : t.revisionStates = s.revisionStates)
    (hscopes : t.scopeContexts = s.scopeContexts) : Referring t := by
  have hfree : ∀ id, IdFree t id ↔ IdFree s id := fun id => by
    rw [IdFree, hsnapshots]
    rfl
  constructor
  · intro row hrow
    rw [hfree]
    exact hs.resources row (hresources ▸ hrow)
  · intro row hrow
    rw [hfree]
    exact hs.states row (hstates ▸ hrow)
  · intro c hc
    rw [hfree]
    exact hs.scopes c (hscopes ▸ hc)

theorem referring_snapshotStep (s : SnapshotStore) (move : SnapshotMove)
    (hs : Referring s) : Referring (snapshotStep P s move) := by
  cases move with
  | call env call =>
      rcases after_run_cases P env call s with
        h | ⟨snapshot, t, -, hadds, -⟩
      · rw [snapshotStep, h]
        exact hs
      · exact hadds.referring hs
  | change _ _ _ _ _ => exact referring_change hs rfl rfl rfl rfl

theorem referring_without (sources : Sources)
    (contexts : Table GuiSessionContext.sessionContextId) :
    Referring (SnapshotStore.without sources contexts) where
  resources _ h := absurd h List.not_mem_nil
  states _ h := absurd h List.not_mem_nil
  scopes _ h := absurd h List.not_mem_nil

/-- The move is not a call that is stopped after it has stored a snapshot. -/
def SnapshotMove.GoesThrough (P : Platform) (s : SnapshotStore)
    (move : SnapshotMove) : Prop :=
  ∀ env call, move = .call env call → call.GoesThrough P env s

/-- Every snapshot of the store is complete. -/
def AllComplete (s : SnapshotStore) : Prop :=
  Referring s ∧ ∀ row ∈ s.snapshots.rows, Complete s row

theorem Complete.stored (h : Complete s snapshot)
    (hmem : snapshot.stored ∈ s.snapshots.rows) :
    Complete s snapshot.stored := by
  refine ⟨⟨_, hmem, Or.inl rfl⟩, h.states, fun resource => ?_, h.scopes, h.once⟩
  rw [show snapshot.stored.contextSnapshotId = snapshot.contextSnapshotId from
    rfl, h.resources resource]
  have hpairs : ∀ resources : ResourceMap,
      resource ∈ resourcePairs (sortedResources resources) ↔
        resource ∈ resourcePairs resources := by
    intro resources
    exact ((List.perm_insertionSort _ _).flatMap_right _).mem_iff
  exact or_congr (hpairs _).symm (hpairs _).symm

/-- With every stored snapshot complete, all that matters is that the call
is not stopped. -/
theorem atomic_iff_of_allComplete (hs : AllComplete s) (call : Call) :
    call.Atomic P env s ↔ call.GoesThrough P env s := by
  rw [atomic_iff hs.1]
  refine and_iff_left fun snapshot hreturns => ?_
  obtain ⟨_, _, _, -, -, hfind, -⟩ := hreturns
  exact hs.2 snapshot (Table.find?_eq_some_iff.mp hfind).1

theorem allComplete_snapshotStep (s : SnapshotStore) (move : SnapshotMove)
    (hs : AllComplete s) (hthrough : move.GoesThrough P s) :
    AllComplete (snapshotStep P s move) := by
  refine ⟨referring_snapshotStep s move hs.1, ?_⟩
  cases move with
  | call env call =>
      have hatomic := (atomic_iff_of_allComplete hs call).mpr
        (hthrough env call rfl)
      rcases after_run_cases P env call s with
        h | ⟨snapshot, t, hstores, hadds, hall⟩
      · rw [snapshotStep, h]
        exact hs.2
      · have hmem : snapshot.stored ∈
            ((call.run P env).after s).snapshots.rows := by
          rw [hadds.snapshots]
          exact List.mem_append_right _ List.mem_cons_self
        have hchanged : (call.run P env).after s ≠ s := fun heq =>
          hadds.free (List.mem_map.mpr ⟨snapshot.stored, heq ▸ hmem, rfl⟩)
        intro row hrow
        rw [snapshotStep, hadds.snapshots] at hrow
        rcases List.mem_append.mp hrow with hrow | hrow
        · exact hadds.complete_of_complete (hs.2 row hrow)
        · cases hresult : (call.run P env).result s with
          | error e => exact absurd (hatomic.1 e hresult) hchanged
          | ok result =>
              obtain ⟨request, -, hprepare, -⟩ := hstores
              have hnodup := nodup_scopes_of_makeSnapshot
                (of_prepareSnapshot hprepare).2
              rw [List.mem_singleton.mp hrow]
              exact (hadds.complete_of_addsAll hs.1 hnodup
                (hall result hresult)).stored hmem
  | change _ _ _ _ _ =>
      intro row hrow
      obtain ⟨held, states, resources, scopes, once⟩ := hs.2 row hrow
      exact ⟨held, states, resources, scopes, once⟩

theorem allComplete_without (sources : Sources)
    (contexts : Table GuiSessionContext.sessionContextId) :
    AllComplete (SnapshotStore.without sources contexts) :=
  ⟨referring_without sources contexts, fun _ h => absurd h List.not_mem_nil⟩

/-- The store that a run of moves leaves. -/
def reachedStore (P : Platform) (sources : Sources)
    (contexts : Table GuiSessionContext.sessionContextId)
    (moves : List SnapshotMove) : SnapshotStore :=
  run (snapshotStep P) (SnapshotStore.without sources contexts) moves

theorem referring_reachedStore (P : Platform) (sources : Sources)
    (contexts : Table GuiSessionContext.sessionContextId)
    (moves : List SnapshotMove) :
    Referring (reachedStore P sources contexts moves) :=
  run_invariant referring_snapshotStep (referring_without sources contexts)
    moves

/-- In every store that calls can leave, a call is atomic exactly when nothing
stops it after it has stored its snapshot and a snapshot that it returns as
it is is complete; when no call has been stopped there, all snapshots are
complete. -/
theorem snapshots_created_atomically (P : Platform) (sources : Sources)
    (contexts : Table GuiSessionContext.sessionContextId)
    (moves : List SnapshotMove) :
    (∀ (env : Surroundings) (call : Call),
      call.Atomic P env (reachedStore P sources contexts moves) ↔
        call.GoesThrough P env (reachedStore P sources contexts moves) ∧
        ∀ snapshot,
          call.Returns env (reachedStore P sources contexts moves) snapshot →
          Complete (reachedStore P sources contexts moves) snapshot) ∧
    (StepsMeet (snapshotStep P) (SnapshotMove.GoesThrough P)
        (SnapshotStore.without sources contexts) moves →
      ∀ snapshot ∈ (reachedStore P sources contexts moves).snapshots.rows,
        Complete (reachedStore P sources contexts moves) snapshot) := by
  constructor
  · intro env call
    exact atomic_iff (referring_reachedStore P sources contexts moves) call
  · intro hmeet
    exact (run_invariant_of_stepsMeet allComplete_snapshotStep
      (allComplete_without sources contexts) hmeet).2

/-! ## A call that is stopped -/

/-- A selection of nothing, which has the scope of the case. -/
def emptySelection : Selection where
  caseId := "case"
  actorId := none
  purpose := "AUDIT"
  resources := Table.empty _
  scopes := []
  filters := []
  timeRange := []
  previousSnapshotId := none

/-- The database is locked when the states are stored. -/
def lockedAtStates : Surroundings where
  newId n := if n = 0 then "snapshot" else "scope"
  now := ⟨0, Instant.zero_inRange⟩
  raises
    | .stateRows => some (.builtin .operationalError "database is locked")
    | _ => none

/-- The call raises and its snapshot stays. -/
theorem snapshot_left_without_states :
    ¬ ∀ (P : Platform) (sources : Sources)
      (contexts : Table GuiSessionContext.sessionContextId)
      (moves : List SnapshotMove) (env : Surroundings) (call : Call),
      call.Atomic P env (reachedStore P sources contexts moves) := by
  intro h
  have hatomic := h plainPlatform noSources (Table.empty _) [] lockedAtStates
    (.buildFromSelection emptySelection none)
  have hleft : ((Call.run plainPlatform lockedAtStates
      (.buildFromSelection emptySelection none)).after (reachedStore
        plainPlatform noSources (Table.empty _) [])).snapshots.rows.map
          AnalysisContextSnapshot.scopes = [["case"]] := by
    decide +kernel
  cases hresult : (Call.run plainPlatform lockedAtStates
      (.buildFromSelection emptySelection none)).result (reachedStore
        plainPlatform noSources (Table.empty _) []) with
  | error e =>
      rw [hatomic.1 e hresult] at hleft
      cases hleft
  | ok snapshot =>
      have hraised : ((Call.run plainPlatform lockedAtStates
          (.buildFromSelection emptySelection none)).result (reachedStore
            plainPlatform noSources (Table.empty _) [])).toOption.isNone =
              true := by
        decide +kernel
      rw [hresult] at hraised
      cases hraised

end ApexForensic.Context
