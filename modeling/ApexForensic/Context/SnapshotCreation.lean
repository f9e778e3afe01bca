import ApexForensic.Context.Snapshot

/-!
# What a call leaves behind

A call that gets as far as to store its snapshot adds rows that name it, and
changes nothing else.  Whether it goes on to add all of them depends only on
what it meets after that point.
-/

namespace ApexForensic.Context

open ApexForensic.Support ApexForensic.Domain
open ApexForensic.Support.Service

variable {s t : SnapshotStore} {scope : String} {number : ℕ}

/-! ## Interruptions -/

/-- The ids of the scope contexts, from the one with that number on. -/
def scopeIds (env : Surroundings) (number count : ℕ) : List String :=
  (List.range' (number + 1) count).map env.newId

/-- Nothing stops the call from storing the scope contexts of these scopes:
its token is not cancelled by the last of them, no operation raises, and
their ids are new. -/
structure ScopesPass (env : Surroundings) (cancelledFrom : Option ℕ)
    (rows : List AnalysisScopeContext) (number : ℕ) (scopes : List String) :
    Prop where
  token : scopes ≠ [] → ∀ n ∈ cancelledFrom, number + scopes.length + 1 < n
  reads : ∀ scope ∈ scopes, env.raises (.scopeReads scope) = none
  writes : ∀ scope ∈ scopes, env.raises (.scopeRow scope) = none
  distinct : (scopeIds env number scopes.length).Nodup
  unused : ∀ c ∈ rows,
    c.scopeContextId ∉ scopeIds env number scopes.length

theorem scopeIds_succ (env : Surroundings) (number count : ℕ) :
    scopeIds env number (count + 1) =
      env.newId (number + 1) :: scopeIds env (number + 1) count := by
  rw [scopeIds, List.range'_succ, List.map_cons, scopeIds]

variable {P : Platform} {env : Surroundings} {cancelledFrom : Option ℕ}

theorem scopesPass_nil {rows : List AnalysisScopeContext} :
    ScopesPass env cancelledFrom rows number [] where
  token h := absurd rfl h
  reads _ h := absurd h List.not_mem_nil
  writes _ h := absurd h List.not_mem_nil
  distinct := List.nodup_nil
  unused _ _ := List.not_mem_nil

/-- The scopes pass when the first of them does and the others do once its
context is stored. -/
theorem scopesPass_cons_iff {rows : List AnalysisScopeContext}
    {scopes : List String} (row : AnalysisScopeContext)
    (hrow : row.scopeContextId = env.newId (number + 1)) :
    ScopesPass env cancelledFrom rows number (scope :: scopes) ↔
      ((∀ n ∈ cancelledFrom, number + 2 < n) ∧
        env.raises (.scopeReads scope) = none ∧
        env.raises (.scopeRow scope) = none ∧
        ∀ c ∈ rows, c.scopeContextId ≠ env.newId (number + 1)) ∧
      ScopesPass env cancelledFrom (rows ++ [row]) (number + 1) scopes := by
  constructor
  · rintro ⟨htoken, hreads, hwrites, hdistinct, hunused⟩
    rw [List.length_cons] at htoken hdistinct hunused
    rw [scopeIds_succ] at hdistinct hunused
    obtain ⟨hnew, hdistinct⟩ := List.nodup_cons.mp hdistinct
    have htoken := htoken (List.cons_ne_nil _ _)
    refine ⟨⟨fun n hn => ?_, hreads scope List.mem_cons_self,
      hwrites scope List.mem_cons_self, fun c hc heq => ?_⟩, ?_⟩
    · have := htoken n hn
      omega
    · exact hunused c hc (heq ▸ List.mem_cons_self)
    · refine ⟨fun _ n hn => ?_, fun t ht => hreads t (List.mem_cons_of_mem _ ht),
        fun t ht => hwrites t (List.mem_cons_of_mem _ ht), hdistinct, ?_⟩
      · have := htoken n hn
        omega
      · intro c hc
        rcases List.mem_append.mp hc with hc | hc
        · exact fun h => hunused c hc (List.mem_cons_of_mem _ h)
        · rw [List.mem_singleton.mp hc, hrow]
          exact hnew
  · rintro ⟨⟨hfirst, hread, hwrite, hfresh⟩, hrest⟩
    have hlast := hrest.unused row (List.mem_append_right _ List.mem_cons_self)
    rw [hrow] at hlast
    constructor
    · intro _ n hn
      rw [List.length_cons]
      have h2 := hfirst n hn
      by_cases hscopes : scopes = []
      · rw [hscopes, List.length_nil]
        omega
      · have := hrest.token hscopes n hn
        omega
    · exact List.forall_mem_cons.mpr ⟨hread, hrest.reads⟩
    · exact List.forall_mem_cons.mpr ⟨hwrite, hrest.writes⟩
    · rw [List.length_cons, scopeIds_succ]
      exact List.nodup_cons.mpr ⟨hlast, hrest.distinct⟩
    · intro c hc
      rw [List.length_cons, scopeIds_succ, List.mem_cons, not_or]
      exact ⟨hfresh c hc, hrest.unused c (List.mem_append_left _ hc)⟩

/-! ## Scope contexts -/

def SnapshotStore.withScopes (store : SnapshotStore)
    (added : List AnalysisScopeContext) : SnapshotStore :=
  { store with scopeContexts := store.scopeContexts ++ added }

theorem withScopes_append (store : SnapshotStore)
    (first second : List AnalysisScopeContext) :
    (store.withScopes first).withScopes second =
      store.withScopes (first ++ second) := by
  rw [SnapshotStore.withScopes, SnapshotStore.withScopes,
    SnapshotStore.withScopes, List.append_assoc]

theorem withScopes_nil (store : SnapshotStore) : store.withScopes [] = store := by
  rw [SnapshotStore.withScopes, List.append_nil]

theorem result_checkCancel_eq_ok_iff {done : Unit} :
    (checkCancel cancelledFrom number).result s = .ok done ↔
      ∀ n ∈ cancelledFrom, number < n := by
  rw [checkCancel, result_read]
  cases cancelledFrom with
  | none => simp
  | some n => simp

/-- A scope context is stored when its id is new and the snapshot has none of
that scope. -/
theorem saveAnalysisScopeContext_eq_ok_iff {scopeContext : AnalysisScopeContext}
    :
    saveAnalysisScopeContext scopeContext s = .ok ((), t) ↔
      t = s.withScopes [scopeContext] ∧ ∀ c ∈ s.scopeContexts,
        c.scopeContextId ≠ scopeContext.scopeContextId ∧
          ¬ (c.contextSnapshotId = scopeContext.contextSnapshotId ∧
            c.scopeType = scopeContext.scopeType) := by
  have hconstraints : (∀ c ∈ scopeContextKeys, ∀ r ∈ s.scopeContexts,
      c.2 scopeContext r = false) ↔ ∀ c ∈ s.scopeContexts,
        c.scopeContextId ≠ scopeContext.scopeContextId ∧
          ¬ (c.contextSnapshotId = scopeContext.contextSnapshotId ∧
            c.scopeType = scopeContext.scopeType) := by
    rw [scopeContextKeys, List.forall_mem_cons, List.forall_mem_singleton,
      ← forall₂_and]
    refine forall₂_congr fun c _ => ?_
    rw [decide_eq_false_iff_not, decide_eq_false_iff_not]
    exact and_congr (not_congr eq_comm) (not_congr (and_congr eq_comm eq_comm))
  rw [saveAnalysisScopeContext, ← hconstraints]
  constructor
  · intro h
    cases hinsert : insertRow scopeContextKeys s.scopeContexts scopeContext with
    | error e =>
        rw [hinsert] at h
        cases h
    | ok rows =>
        rw [hinsert] at h
        obtain ⟨rfl, hkeys⟩ := insertRow_eq_ok_iff.mp hinsert
        exact ⟨(congrArg Prod.snd (Except.ok.inj h)).symm, hkeys⟩
  · rintro ⟨rfl, hkeys⟩
    rw [insertRow_eq_ok_iff.mpr ⟨rfl, hkeys⟩]
    rfl

theorem readOnly_checkCancel (number : ℕ) :
    ReadOnly (checkCancel cancelledFrom number) :=
  readOnly_read _

variable {snapshot : AnalysisContextSnapshot}

/-- The snapshot has no context of the scope yet. -/
def ScopeFree (store : SnapshotStore) (snapshot : AnalysisContextSnapshot)
    (scope : String) : Prop :=
  ∀ c ∈ store.scopeContexts,
    ¬ (c.contextSnapshotId = snapshot.contextSnapshotId ∧ c.scopeType = scope)

theorem result_saveScopeContext_eq_ok_iff (hfree : ScopeFree s snapshot scope) :
    (saveScopeContext P env cancelledFrom snapshot number scope).result s =
        .ok () ↔
      (∀ n ∈ cancelledFrom, number + 2 < n) ∧
        env.raises (.scopeReads scope) = none ∧
        env.raises (.scopeRow scope) = none ∧
        ∀ c ∈ s.scopeContexts,
          c.scopeContextId ≠ env.newId (number + 1) := by
  rw [saveScopeContext, result_bind_eq_ok_iff]
  simp only [result_bind_eq_ok_iff, readOnly_checkCancel _ s,
    readOnly_query _ _ _ s, result_checkCancel_eq_ok_iff,
    result_query_eq_ok_iff, result_operation_eq_ok_iff,
    saveAnalysisScopeContext_eq_ok_iff]
  constructor
  · rintro ⟨_, htoken, row, ⟨hreads, hrow⟩, hwrites, t, -, hkeys⟩
    obtain rfl := Except.ok.inj hrow
    exact ⟨htoken, hreads, hwrites, fun c hc => (hkeys c hc).1⟩
  · rintro ⟨htoken, hreads, hwrites, hnew⟩
    exact ⟨(), htoken, _, ⟨hreads, rfl⟩, hwrites, _, rfl,
      fun c hc => ⟨hnew c hc, hfree c hc⟩⟩

theorem after_saveScopeContext
    (h : (saveScopeContext P env cancelledFrom snapshot number scope).result s
      = .ok ()) :
    (saveScopeContext P env cancelledFrom snapshot number scope).after s =
      s.withScopes [makeScopeContext P s snapshot scope
        (env.newId (number + 1)) env.now] := by
  rw [saveScopeContext] at h ⊢
  obtain ⟨_, hcheck, h⟩ := result_bind_eq_ok_iff.mp h
  rw [after_bind_of_result hcheck]
  rw [readOnly_checkCancel _ s] at h ⊢
  obtain ⟨row, hrow, h⟩ := result_bind_eq_ok_iff.mp h
  rw [after_bind_of_result hrow]
  rw [readOnly_query _ _ _ s] at h ⊢
  obtain rfl := Except.ok.inj (result_query_eq_ok_iff.mp hrow).2
  obtain ⟨hpoint, t, ht⟩ := result_operation_eq_ok_iff.mp h
  rw [after_operation_of_ok hpoint ht]
  exact (saveAnalysisScopeContext_eq_ok_iff.mp ht).1

theorem rollsBack_saveScopeContext (number : ℕ) (scope : String) :
    RollsBack (saveScopeContext P env cancelledFrom snapshot number scope) :=
  rollsBack_bind (readOnly_checkCancel _) fun _ =>
    rollsBack_bind (readOnly_query _ _ _) fun _ => rollsBack_operation _ _ _

variable (P env cancelledFrom snapshot) in
/-- What the loop leaves is the store with contexts of scopes of the
snapshot, and with one for each scope when it ends well. -/
theorem after_saveScopeContexts (number : ℕ) (scopes : List String)
    (s : SnapshotStore) :
    ∃ added,
      (saveScopeContexts P env cancelledFrom snapshot number scopes).after s =
        s.withScopes added ∧
      (∀ c ∈ added, c.contextSnapshotId = snapshot.contextSnapshotId) ∧
      ((saveScopeContexts P env cancelledFrom snapshot number scopes).result s
          = .ok () →
        added.map AnalysisScopeContext.scopeType = scopes) := by
  induction scopes generalizing number s with
  | nil =>
      exact ⟨[], (withScopes_nil s).symm,
        fun _ h => absurd h List.not_mem_nil, fun _ => rfl⟩
  | cons scope scopes ih =>
      rw [saveScopeContexts]
      cases hfirst : (saveScopeContext P env cancelledFrom snapshot number
          scope).result s with
      | error e =>
          refine ⟨[], ?_, fun _ h => absurd h List.not_mem_nil, fun h => ?_⟩
          · rw [after_bind_of_error hfirst, withScopes_nil,
              rollsBack_saveScopeContext _ _ s e hfirst]
          · rw [result_bind_of_error hfirst] at h
            cases h
      | ok _ =>
          rw [after_bind_of_result hfirst, result_bind_of_ok hfirst,
            after_saveScopeContext hfirst]
          obtain ⟨added, hafter, howned, hscopes⟩ := ih (number + 1)
            (s.withScopes [makeScopeContext P s snapshot scope
              (env.newId (number + 1)) env.now])
          rw [withScopes_append] at hafter
          refine ⟨_, hafter, ?_, fun h => ?_⟩
          · exact List.forall_mem_cons.mpr ⟨rfl, howned⟩
          · rw [List.singleton_append, List.map_cons, hscopes h]
            rfl

variable (P env cancelledFrom) in
theorem result_saveScopeContexts_eq_ok_iff (number : ℕ) {scopes : List String}
    (hnodup : scopes.Nodup)
    (hfree : ∀ scope ∈ scopes, ScopeFree s snapshot scope) :
    (saveScopeContexts P env cancelledFrom snapshot number scopes).result s =
        .ok () ↔
      ScopesPass env cancelledFrom s.scopeContexts number scopes := by
  induction scopes generalizing number s with
  | nil => exact iff_of_true rfl scopesPass_nil
  | cons scope scopes ih =>
      obtain ⟨hnew, hnodup⟩ := List.nodup_cons.mp hnodup
      obtain ⟨hfirst, hrest⟩ := List.forall_mem_cons.mp hfree
      let row := makeScopeContext P s snapshot scope
        (env.newId (number + 1)) env.now
      have hfree' : ∀ t ∈ scopes, ScopeFree (s.withScopes [row]) snapshot t := by
        intro t ht c hc
        rcases List.mem_append.mp hc with hc | hc
        · exact hrest t ht c hc
        · rw [List.mem_singleton.mp hc]
          rintro ⟨-, hscope⟩
          have hscope : scope = t := hscope
          exact hnew (hscope ▸ ht)
      rw [scopesPass_cons_iff row rfl,
        ← result_saveScopeContext_eq_ok_iff (P := P) hfirst, saveScopeContexts,
        result_bind_eq_ok_iff]
      constructor
      · rintro ⟨_, hscope, h⟩
        rw [after_saveScopeContext hscope] at h
        exact ⟨hscope, (ih (number + 1) hnodup hfree').mp h⟩
      · rintro ⟨hscope, h⟩
        refine ⟨(), hscope, ?_⟩
        rw [after_saveScopeContext hscope]
        exact (ih (number + 1) hnodup hfree').mpr h

/-! ## The snapshot and its states -/

theorem exists_mem_insertOrIgnore {rows : List SnapshotResourceRow}
    {resources : Table SnapshotResourceRow.key} {k : String × String × String} :
    (∃ row ∈ (insertOrIgnore resources rows).rows, row.key = k) ↔
      (∃ row ∈ resources.rows, row.key = k) ∨ ∃ row ∈ rows, row.key = k := by
  induction rows generalizing resources with
  | nil => simp [insertOrIgnore]
  | cons row rows ih =>
      have hfirst : (∃ r ∈ ((resources.insert row).getD resources).rows,
          r.key = k) ↔ (∃ r ∈ resources.rows, r.key = k) ∨ row.key = k := by
        cases hinsert : resources.insert row with
        | some table =>
            obtain ⟨-, hrows⟩ := Table.insert_eq_some_iff.mp hinsert
            rw [Option.getD_some, hrows]
            simp [or_and_right, exists_or]
        | none =>
            rw [Option.getD_none]
            refine ⟨Or.inl, Or.rec id fun hk => ?_⟩
            rw [Table.insert] at hinsert
            split at hinsert
            · rename_i hmem
              rw [← hk]
              exact List.mem_map.mp hmem
            · cases hinsert
      change (∃ r ∈ (insertOrIgnore ((resources.insert row).getD resources)
        rows).rows, r.key = k) ↔ _
      rw [ih, hfirst, or_assoc]
      simp

theorem mem_resourceRows_iff {resource : String × String} {id : String} :
    (∃ row ∈ resourceRows snapshot, row.key = (id, resource)) ↔
      id = snapshot.contextSnapshotId ∧
        (resource ∈ resourcePairs snapshot.includedResourceIds ∨
          resource ∈ resourcePairs snapshot.excludedResourceIds) := by
  simp only [resourceRows, List.mem_append, List.mem_map, or_and_right,
    exists_or, SnapshotResourceRow.key]
  constructor
  · rintro (⟨row, ⟨r, hr, rfl⟩, hkey⟩ | ⟨row, ⟨r, hr, rfl⟩, hkey⟩)
    · obtain ⟨rfl, rfl⟩ := Prod.ext_iff.mp hkey
      exact ⟨rfl, Or.inl hr⟩
    · obtain ⟨rfl, rfl⟩ := Prod.ext_iff.mp hkey
      exact ⟨rfl, Or.inr hr⟩
  · rintro ⟨rfl, h | h⟩
    · exact Or.inl ⟨_, ⟨resource, h, rfl⟩, rfl⟩
    · exact Or.inr ⟨_, ⟨resource, h, rfl⟩, rfl⟩

/-- The id of the snapshot is not taken. -/
def IdFree (store : SnapshotStore) (contextSnapshotId : String) : Prop :=
  contextSnapshotId ∉ store.snapshots.rows.map
    AnalysisContextSnapshot.contextSnapshotId

theorem of_saveAnalysisContextSnapshot
    (h : saveAnalysisContextSnapshot snapshot s = .ok ((), t)) :
    IdFree s snapshot.contextSnapshotId ∧
      t.snapshots.rows = s.snapshots.rows ++ [snapshot.stored] ∧
      t = { s with
        snapshots := t.snapshots
        resources := insertOrIgnore s.resources (resourceRows snapshot) } := by
  rw [saveAnalysisContextSnapshot] at h
  split_ifs at h
  cases hinsert : s.snapshots.insert snapshot.stored with
  | none =>
      rw [hinsert] at h
      cases h
  | some snapshots =>
      rw [hinsert] at h
      obtain ⟨hfree, hrows⟩ := Table.insert_eq_some_iff.mp hinsert
      obtain rfl := (congrArg Prod.snd (Except.ok.inj h)).symm
      exact ⟨hfree, hrows, rfl⟩

/-- What a call that has stored its snapshot has added to the store. -/
structure Adds (snapshot : AnalysisContextSnapshot) (s t : SnapshotStore) :
    Prop where
  free : IdFree s snapshot.contextSnapshotId
  sources : t.sources = s.sources
  snapshots : t.snapshots.rows = s.snapshots.rows ++ [snapshot.stored]
  resources : t.resources =
    insertOrIgnore s.resources (resourceRows snapshot)
  states : ∃ added, t.revisionStates = s.revisionStates ++ added ∧
    ∀ row ∈ added, row.contextSnapshotId = snapshot.contextSnapshotId
  scopes : ∃ added, t.scopeContexts = s.scopeContexts ++ added ∧
    ∀ c ∈ added, c.contextSnapshotId = snapshot.contextSnapshotId

/-- The call has also added its states and the contexts of its scopes. -/
def AddsAll (snapshot : AnalysisContextSnapshot) (s t : SnapshotStore) :
    Prop :=
  t.revisionStates = s.revisionStates ++
      snapshot.sourceRevisions.map
        (revisionStateRow snapshot.contextSnapshotId) ∧
    ∃ added, t.scopeContexts = s.scopeContexts ++ added ∧
      (∀ c ∈ added, c.contextSnapshotId = snapshot.contextSnapshotId) ∧
      added.map AnalysisScopeContext.scopeType = snapshot.scopes

def SnapshotStore.withStates (store : SnapshotStore)
    (snapshot : AnalysisContextSnapshot) : SnapshotStore :=
  { store with
    revisionStates := store.revisionStates ++
      snapshot.sourceRevisions.map
        (revisionStateRow snapshot.contextSnapshotId) }

theorem result_stateRows_eq_ok_iff :
    (operation env.raises .stateRows (saveContextRevisionStates
      snapshot.contextSnapshotId snapshot.sourceRevisions)).result s =
        .ok () ↔ env.raises .stateRows = none := by
  rw [result_operation_eq_ok_iff]
  exact and_iff_left ⟨_, rfl⟩

theorem after_stateRows (hpoint : env.raises .stateRows = none) :
    (operation env.raises .stateRows (saveContextRevisionStates
      snapshot.contextSnapshotId snapshot.sourceRevisions)).after s =
        s.withStates snapshot :=
  after_operation_of_ok hpoint rfl

theorem result_finishSnapshot_eq_ok_iff {result : AnalysisContextSnapshot}
    (hnodup : snapshot.scopes.Nodup)
    (hfree : ∀ scope ∈ snapshot.scopes, ScopeFree s snapshot scope) :
    (finishSnapshot P env cancelledFrom snapshot).result s = .ok result ↔
      result = snapshot ∧ env.raises .stateRows = none ∧
        ScopesPass env cancelledFrom s.scopeContexts 0 snapshot.scopes := by
  rw [finishSnapshot, result_bind_eq_ok_iff]
  have hfree' : ∀ scope ∈ snapshot.scopes,
      ScopeFree (s.withStates snapshot) snapshot scope := hfree
  have hloop := result_saveScopeContexts_eq_ok_iff P env cancelledFrom 0
    hnodup hfree'
  constructor
  · rintro ⟨_, hstates, h⟩
    have hpoint := result_stateRows_eq_ok_iff.mp hstates
    rw [after_stateRows hpoint, result_bind_eq_ok_iff] at h
    obtain ⟨_, hscopes, h⟩ := h
    exact ⟨(Except.ok.inj h).symm, hpoint, hloop.mp hscopes⟩
  · rintro ⟨rfl, hpoint, hpass⟩
    refine ⟨(), result_stateRows_eq_ok_iff.mpr hpoint, ?_⟩
    rw [after_stateRows hpoint, result_bind_eq_ok_iff]
    exact ⟨(), hloop.mpr hpass, rfl⟩

variable (P env cancelledFrom) in
theorem adds_finishSnapshot
    (h : saveAnalysisContextSnapshot snapshot s = .ok ((), t)) :
    Adds snapshot s
        ((finishSnapshot P env cancelledFrom snapshot).after t) ∧
      ∀ result,
        (finishSnapshot P env cancelledFrom snapshot).result t = .ok result →
        AddsAll snapshot s
          ((finishSnapshot P env cancelledFrom snapshot).after t) := by
  obtain ⟨hfree, hrows, ht⟩ := of_saveAnalysisContextSnapshot h
  rw [finishSnapshot]
  cases hstates : (operation env.raises .stateRows (saveContextRevisionStates
      snapshot.contextSnapshotId snapshot.sourceRevisions)).result t with
  | error e =>
      rw [after_bind_of_error hstates, rollsBack_operation _ _ _ t e hstates]
      refine ⟨⟨hfree, by rw [ht], hrows, by rw [ht], ?_, ?_⟩, ?_⟩
      · exact ⟨[], by rw [ht, List.append_nil], by simp⟩
      · exact ⟨[], by rw [ht, List.append_nil], by simp⟩
      · intro result hresult
        rw [result_bind_of_error hstates] at hresult
        cases hresult
  | ok _ =>
      have hpoint := result_stateRows_eq_ok_iff.mp hstates
      obtain ⟨added, hafter, howned, hscopes⟩ := after_saveScopeContexts P env
        cancelledFrom snapshot 0 snapshot.scopes (t.withStates snapshot)
      rw [after_bind_of_result hstates, result_bind_of_ok hstates,
        after_stateRows hpoint, after_bind_pure]
      rw [hafter]
      refine ⟨⟨hfree, by rw [ht]; rfl, hrows, by rw [ht]; rfl, ?_, ?_⟩, ?_⟩
      · refine ⟨_, by rw [ht]; rfl, fun row hrow => ?_⟩
        obtain ⟨state, -, rfl⟩ := List.mem_map.mp hrow
        rfl
      · exact ⟨added, by rw [ht]; rfl, howned⟩
      · intro result hresult
        obtain ⟨_, hloop, -⟩ := result_bind_eq_ok_iff.mp hresult
        exact ⟨by rw [ht]; rfl, added, by rw [ht]; rfl, howned, hscopes hloop⟩

end ApexForensic.Context
