import ApexForensic.Context.SnapshotAtomicity

/-!
# Chains of refreshes

A refresh compares the revision that a resource has with the one that the
refresh before it found, and keeps the revision that was captured at first
only as a fallback.
-/

namespace ApexForensic.Context

open ApexForensic.Support ApexForensic.Domain
open ApexForensic.Support.Service

variable {s : SnapshotStore} {resource : String × String}
  {first snapshot : AnalysisContextSnapshot} {state : RevisionState}
  {sources : Sources} {now : Instant} {request : SnapshotRequest}

variable {P : Platform} {env : Surroundings}

/-! ## What a refresh makes of a state -/

/-- The revision that the resource of a state has, if it is still there. -/
def AnalysisContextSnapshot.foundRevision (P : Platform)
    (snapshot : AnalysisContextSnapshot) (sources : Sources)
    (state : RevisionState) : Option Revision :=
  if snapshot.isExecutionState state then
    ((sources.executions.find? state.resourceId).filter
      fun execution => execution.caseId = snapshot.caseId).map
        fun execution => .number execution.executionRevision
  else
    ((resourceInfo P sources state.resourceType state.resourceId).toOption
      |>.filter fun info => info.caseId = snapshot.caseId).map
        ResourceInfo.sourceRevision

/-- Both revisions are known and have the same text. -/
def SameRevision (a b : Option Revision) : Prop :=
  ∃ x ∈ a, ∃ y ∈ b, x.str = y.str

def RevisionState.Fresh (state : RevisionState) : Prop :=
  state.status = .current ∨ state.status = .isPartial

theorem currentRevisionState_eq_ok_iff {caseId : String} :
    currentRevisionState P sources caseId now resource = .ok state ↔
      ∃ info, resourceInfo P sources resource.1 resource.2 = .ok info ∧
        info.caseId = caseId ∧
        state = stateOf info resource.1 resource.2 now := by
  unfold currentRevisionState
  rw [bind_eq_ok_iff]
  refine exists_congr fun info => and_congr_right fun _ => ?_
  rw [check_eq_ok_iff, not_not]
  exact and_congr_right fun _ => ⟨fun h => (Except.ok.inj h).symm,
    fun h => by rw [h]; rfl⟩

theorem fresh_stateOf (info : ResourceInfo) (resourceType resourceId : String)
    (now : Instant) : (stateOf info resourceType resourceId now).Fresh := by
  unfold stateOf RevisionState.Fresh
  cases info.isPartial with
  | false => exact Or.inl rfl
  | true => exact Or.inr rfl

/-- A state keeps its resource and its expected revision, and takes over the
revision that is found. -/
structure Refreshes (found : Option Revision) (before after : RevisionState) :
    Prop where
  resourceType : after.resourceType = before.resourceType
  resourceId : after.resourceId = before.resourceId
  expectedRevision : after.expectedRevision = before.expectedRevision
  currentRevision : after.currentRevision = found
  missing : found = none → after.status = .missing
  stale : ∀ revision ∈ found, before.differs (some revision) = true →
    after.status = .stale
  fresh : ∀ revision ∈ found, before.differs (some revision) = false →
    after.Fresh

theorem refreshes_missingState (before : RevisionState) (reason : StaleReason)
    (now : Instant) : Refreshes none before (missingState before reason now) where
  resourceType := rfl
  resourceId := rfl
  expectedRevision := rfl
  currentRevision := rfl
  missing _ := rfl
  stale _ h := absurd h (Option.not_mem_none _)
  fresh _ h := absurd h (Option.not_mem_none _)

theorem refreshes_foundState {before : RevisionState} {revision : Revision}
    {staleReason : StaleReason} {status : RevisionStatus}
    {reason : Option String} (hstatus : status = .current ∨ status = .isPartial)
    :
    Refreshes (some revision) before
      (foundState before (some revision) staleReason status reason now) where
  resourceType := rfl
  resourceId := rfl
  expectedRevision := rfl
  currentRevision := rfl
  missing h := absurd h (Option.some_ne_none _)
  stale := by
    intro r hr hdiffers
    obtain rfl := Option.some.inj hr
    rw [foundState, if_pos hdiffers]
  fresh := by
    intro r hr hdiffers
    obtain rfl := Option.some.inj hr
    unfold foundState RevisionState.Fresh
    simpa [hdiffers] using hstatus

theorem refreshes_refreshRevisionState (snapshot : AnalysisContextSnapshot)
    (sources : Sources) (now : Instant) (before : RevisionState) :
    Refreshes (snapshot.foundRevision P sources before) before
      (snapshot.refreshRevisionState P sources now before) := by
  unfold AnalysisContextSnapshot.foundRevision
    AnalysisContextSnapshot.refreshRevisionState
  by_cases hexecution : snapshot.isExecutionState before = true
  · rw [if_pos hexecution, if_pos hexecution, refreshSearchExecutionState]
    cases (sources.executions.find? before.resourceId).filter
        fun execution => execution.caseId = snapshot.caseId with
    | none => exact refreshes_missingState before _ now
    | some execution => exact refreshes_foundState (Or.inl rfl)
  · rw [if_neg hexecution, if_neg hexecution]
    cases hcurrent : currentRevisionState P sources snapshot.caseId now
        (before.resourceType, before.resourceId) with
    | ok current =>
        obtain ⟨info, hinfo, hcase, rfl⟩ :=
          currentRevisionState_eq_ok_iff.mp hcurrent
        rw [hinfo, Except.toOption, Option.filter_some, if_pos (by
          simpa using hcase)]
        exact refreshes_foundState (fresh_stateOf info _ _ now)
    | error e =>
        have hgone : ((resourceInfo P sources before.resourceType
            before.resourceId).toOption.filter
              fun info => info.caseId = snapshot.caseId) = none := by
          rw [Option.filter_eq_none_iff]
          intro info hinfo hcase
          have hok : resourceInfo P sources before.resourceType
              before.resourceId = .ok info := eq_ok_of_toOption hinfo
          have hfound : currentRevisionState P sources snapshot.caseId now
              (before.resourceType, before.resourceId) = .ok (stateOf info
                before.resourceType before.resourceId now) :=
            currentRevisionState_eq_ok_iff.mpr
              ⟨info, hok, by simpa using hcase, rfl⟩
          rw [hfound] at hcurrent
          cases hcurrent
        rw [hgone]
        exact refreshes_missingState before _ now

/-! ## What a refresh owes to a state -/

/-- The state is fresh only when the found revision is the captured one, and
stays stale until it is, or until the resource is gone. -/
structure KeepsStale (found captured : Option Revision)
    (before after : RevisionState) : Prop where
  fresh : after.Fresh → SameRevision found captured
  stale : before.status = .stale → found ≠ none →
    ¬ SameRevision found captured → after.status = .stale

/-- The resource is gone, has the captured revision, or has another one than
the baseline: the revision found before, unless that is one that counts as
false, and then the captured one. -/
def Reliable (captured before found : Option Revision) : Prop :=
  found = none ∨ SameRevision found captured ∨
    ∃ baseline, (before.filter Revision.truthy).orElse (fun _ => captured) =
        some baseline ∧
      ¬ SameRevision found (some baseline)

theorem sameRevision_some_iff {x y : Revision} :
    SameRevision (some x) (some y) ↔ x.str = y.str := by
  simp [SameRevision]

theorem not_fresh_of_stale (h : state.status = .stale) : ¬ state.Fresh := by
  rintro (h' | h') <;> rw [h] at h' <;> cases h'

theorem differs_iff {revision : Revision} :
    state.differs (some revision) = true ↔
      ∃ baseline, state.baseline = some baseline ∧
        ¬ SameRevision (some revision) (some baseline) := by
  unfold RevisionState.differs
  cases state.baseline with
  | none => simp
  | some baseline => simp [sameRevision_some_iff, revisionText]

/-- A refresh gives a state what it owes exactly when the revisions are
reliable. -/
theorem keepsStale_iff {found captured : Option Revision}
    {before after : RevisionState} (h : Refreshes found before after)
    (hexpected : before.expectedRevision = captured) :
    KeepsStale found captured before after ↔
      Reliable captured before.currentRevision found := by
  cases found with
  | none =>
      have hmissing := h.missing rfl
      refine iff_of_true ⟨fun hfresh => ?_, fun _ hfound => ?_⟩ (Or.inl rfl)
      · rcases hfresh with h' | h' <;> rw [hmissing] at h' <;> cases h'
      · exact absurd rfl hfound
  | some revision =>
      have hbaseline : (∃ baseline, (before.currentRevision.filter
            Revision.truthy).orElse (fun _ => captured) = some baseline ∧
          ¬ SameRevision (some revision) (some baseline)) ↔
          before.differs (some revision) = true := by
        rw [differs_iff, RevisionState.baseline, hexpected]
      rw [Reliable, hbaseline]
      constructor
      · intro hkept
        by_cases hdiffers : before.differs (some revision) = true
        · exact Or.inr (Or.inr hdiffers)
        · exact Or.inr (Or.inl (hkept.fresh
            (h.fresh revision rfl (by simpa using hdiffers))))
      · rintro (hnone | hsame | hdiffers)
        · cases hnone
        · exact ⟨fun _ => hsame, fun _ _ hne => absurd hsame hne⟩
        · have hstale := h.stale revision rfl hdiffers
          exact ⟨fun hfresh => absurd hfresh (not_fresh_of_stale hstale),
            fun _ _ _ => hstale⟩

/-! ## Snapshots that have a state for every resource -/

/-- Every included resource has a revision state. -/
def AnalysisContextSnapshot.Covered (snapshot : AnalysisContextSnapshot) :
    Prop :=
  ∀ resource ∈ resourcePairs snapshot.includedResourceIds,
    resource ∈ snapshot.sourceRevisions.map fun state =>
      (state.resourceType, state.resourceId)

/-- The states have the resources of the request. -/
def SnapshotRequest.Covered (request : SnapshotRequest) : Prop :=
  ∀ resource ∈ resourcePairs request.includedResourceIds,
    resource ∈ request.sourceRevisions.map fun state =>
      (state.resourceType, state.resourceId)

theorem mem_pairsOf {rows : List (String × List String)} :
    resource ∈ pairsOf rows ↔
      ∃ p ∈ rows, p.1 = resource.1 ∧ resource.2 ∈ p.2 := by
  rw [pairsOf, List.mem_flatMap]
  refine exists_congr fun p => and_congr_right fun _ => ?_
  rw [List.mem_map]
  constructor
  · rintro ⟨id, hid, rfl⟩
    exact ⟨rfl, hid⟩
  · rintro ⟨htype, hid⟩
    exact ⟨resource.2, hid, Prod.ext htype rfl⟩

theorem mem_resourcePairs_dedupedResources {resources : ResourceMap} :
    resource ∈ resourcePairs (dedupedResources resources) ↔
      resource ∈ resourcePairs resources ∧ resource.2 ≠ "" := by
  change resource ∈ pairsOf _ ↔ resource ∈ pairsOf _ ∧ _
  rw [mem_pairsOf, mem_pairsOf]
  constructor
  · rintro ⟨p, hp, htype, hid⟩
    obtain ⟨q, hq, rfl⟩ := List.mem_map.mp hp
    obtain ⟨hmem, hne⟩ := mem_dedupe.mp hid
    exact ⟨⟨q, (List.mem_filter.mp hq).1, htype, hmem⟩, hne⟩
  · rintro ⟨⟨p, hp, htype, hid⟩, hne⟩
    refine ⟨(p.1, dedupe p.2), ?_, htype, mem_dedupe.mpr ⟨hid, hne⟩⟩
    refine List.mem_map.mpr ⟨p, List.mem_filter.mpr ⟨hp, ?_⟩, rfl⟩
    simpa using List.ne_nil_of_mem hid

theorem mem_resourcePairs_sortedResources {resources : ResourceMap} :
    resource ∈ resourcePairs (sortedResources resources) ↔
      resource ∈ resourcePairs resources :=
  ((List.perm_insertionSort _ _).flatMap_right _).mem_iff

theorem covered_of_makeSnapshot {id : String} (hrequest : request.Covered)
    (h : makeSnapshot P sources request id now = .ok snapshot) :
    snapshot.Covered := by
  obtain ⟨purpose, -, h⟩ := bind_ok h
  obtain rfl := Except.ok.inj h
  intro resource hresource
  exact hrequest resource (mem_resourcePairs_dedupedResources.mp hresource).1

theorem AnalysisContextSnapshot.Covered.stored (h : snapshot.Covered) :
    snapshot.stored.Covered :=
  fun resource hresource =>
    h resource (mem_resourcePairs_sortedResources.mp hresource)

theorem covered_of_revisionStates {caseId : String} {included : ResourceMap}
    {states : List RevisionState}
    (h : revisionStatesForResources P sources caseId included now =
      .ok states) :
    ∀ resource ∈ resourcePairs included, resource ∈ states.map fun state =>
      (state.resourceType, state.resourceId) := by
  intro resource hresource
  obtain ⟨state, hstate, hmade⟩ := exists_ok_of_mem_mapM h hresource
  unfold revisionStateForResource at hmade
  obtain ⟨info, -, hmade⟩ := bind_ok hmade
  obtain ⟨-, hmade⟩ := check_ok hmade
  obtain rfl := Except.ok.inj hmade
  exact List.mem_map.mpr ⟨_, hstate, rfl⟩

theorem refreshSourceRevisions_of_covered (h : snapshot.Covered) :
    snapshot.refreshSourceRevisions P sources now =
      .ok (snapshot.sourceRevisions.map
        (snapshot.refreshRevisionState P sources now)) := by
  have hunseen : (resourcePairs snapshot.includedResourceIds).filter
      (fun resource => resource ∉ snapshot.sourceRevisions.map fun state =>
        (state.resourceType, state.resourceId)) = [] := by
    refine List.filter_eq_nil_iff.mpr fun resource hresource => ?_
    simpa using h resource hresource
  unfold AnalysisContextSnapshot.refreshSourceRevisions
  dsimp only
  rw [hunseen]
  simp [pure, Except.pure, bind, Except.bind]

/-! ## Reachable snapshots are covered -/

theorem covered_contextRequest {context : GuiSessionContext}
    {states : List RevisionState}
    (h : validateSourceRevisions P sources context now = .ok states)
    (purpose : String) (scopes : List String) (searchIndexRevision : Option ℤ)
    (previousSnapshotId : Option String) :
    (context.request purpose states scopes searchIndexRevision
      previousSnapshotId).Covered := by
  unfold validateSourceRevisions at h
  obtain ⟨found, hfound, h⟩ := bind_ok h
  have hcovered := covered_of_revisionStates hfound
  cases hexecution : context.activeSearchExecutionId with
  | none =>
      rw [hexecution] at h
      obtain rfl := Except.ok.inj h
      exact hcovered
  | some executionId =>
      rw [hexecution] at h
      obtain ⟨state, -, h⟩ := bind_ok h
      obtain rfl := Except.ok.inj h
      intro resource hresource
      change resource ∈ (found ++ [state]).map _
      rw [List.map_append]
      exact List.mem_append_left _ (hcovered resource hresource)

theorem covered_selectionRequest {selection : Selection}
    (h : (requestOfSelection P env selection).result s = .ok request) :
    request.Covered := by
  obtain ⟨-, states, hstates, rfl⟩ := of_requestOfSelection h
  exact covered_of_revisionStates hstates

/-- The states of the refreshed snapshot have the resources of the old
ones. -/
theorem covered_refreshRequest (h : snapshot.Covered) (sources : Sources)
    (now : Instant) :
    (snapshot.request (snapshot.sourceRevisions.map
      (snapshot.refreshRevisionState P sources now))).Covered := by
  intro resource hresource
  obtain ⟨state, hstate, rfl⟩ := List.mem_map.mp (h resource hresource)
  have hrefreshes := refreshes_refreshRevisionState (P := P) snapshot sources
    now state
  refine List.mem_map.mpr ⟨_, List.mem_map_of_mem hstate, ?_⟩
  rw [hrefreshes.resourceType, hrefreshes.resourceId]

/-- Every snapshot of the store has a state for each of its resources. -/
def AllCovered (s : SnapshotStore) : Prop :=
  ∀ row ∈ s.snapshots.rows, row.Covered

theorem covered_of_plan {call : Call} (hs : AllCovered s)
    (h : (call.plan P env).result s = .ok (.inr request)) :
    request.Covered := by
  cases call with
  | buildFromSession sessionContextId purpose scopes previousSnapshotId _ =>
      obtain ⟨context, states, revision, scopes', hstates, rfl⟩ :=
        of_requestOfSession (of_map_inr h)
      exact covered_contextRequest hstates _ _ _ _
  | buildFromSelection selection _ =>
      exact covered_selectionRequest (of_map_inr h)
  | addScope contextSnapshotId scope limit =>
      obtain ⟨row, -, h⟩ := result_bind_eq_ok_iff.mp h
      by_cases hscope : scope ∈ row.scopes
      · simp only [hscope, if_true] at h
        cases Except.ok.inj h
      · simp only [hscope, if_false] at h
        obtain ⟨listed, -, h⟩ := result_bind_eq_ok_iff.mp h
        exact covered_selectionRequest (of_map_inr h)
  | removeScope contextSnapshotId scope =>
      obtain ⟨row, -, h⟩ := result_bind_eq_ok_iff.mp h
      exact covered_selectionRequest (of_map_inr h)
  | refresh contextSnapshotId =>
      obtain ⟨row, hrow, h⟩ := result_bind_eq_ok_iff.mp h
      have hfind := (result_getSnapshot_eq_ok_iff.mp hrow).2
      have hcovered := hs row (Table.find?_eq_some_iff.mp hfind).1
      obtain ⟨states, hstates, h⟩ := result_bind_eq_ok_iff.mp h
      have hstates := (result_query_eq_ok_iff.mp hstates).2
      rw [refreshSourceRevisions_of_covered hcovered] at hstates
      obtain rfl := Except.ok.inj hstates
      obtain rfl := Sum.inr.inj (Except.ok.inj h)
      exact covered_refreshRequest hcovered _ _

theorem allCovered_snapshotStep (s : SnapshotStore) (move : SnapshotMove)
    (hs : AllCovered s) : AllCovered (snapshotStep P s move) := by
  cases move with
  | call env call =>
      rcases after_run_cases P env call s with
        h | ⟨snapshot, t, ⟨request, hplan, hprepare, -⟩, hadds, -⟩
      · rw [snapshotStep, h]
        exact hs
      · intro row hrow
        rw [snapshotStep, hadds.snapshots] at hrow
        rcases List.mem_append.mp hrow with hrow | hrow
        · exact hs row hrow
        · rw [List.mem_singleton.mp hrow]
          exact (covered_of_makeSnapshot (covered_of_plan hs hplan)
            (of_prepareSnapshot hprepare).2).stored
  | change _ _ _ _ _ => exact hs

theorem allCovered_reachedStore (sources : Sources)
    (contexts : Table GuiSessionContext.sessionContextId)
    (moves : List SnapshotMove) :
    AllCovered (reachedStore P sources contexts moves) :=
  run_invariant allCovered_snapshotStep
    (fun _ h => absurd h List.not_mem_nil) moves

/-! ## Chains -/

/-- A refresh of a chain: what it read, and the snapshot that it returned. -/
abbrev Refresh := Sources × AnalysisContextSnapshot

/-- The snapshot that a chain has come to. -/
def lastOf (first : AnalysisContextSnapshot) (history : List Refresh) :
    AnalysisContextSnapshot :=
  (history.getLast?.map Prod.snd).getD first

/-- A chain of refreshes from a stored snapshot: each refreshes the one that
the refresh before it returned, and anything may happen in between. -/
inductive RefreshChain (P : Platform) (first : AnalysisContextSnapshot) :
    SnapshotStore → List Refresh → Prop where
  | stored (sources : Sources)
      (contexts : Table GuiSessionContext.sessionContextId)
      (moves : List SnapshotMove)
      (h : first ∈ (reachedStore P sources contexts moves).snapshots.rows) :
      RefreshChain P first (reachedStore P sources contexts moves) []
  | move {s : SnapshotStore} {history : List Refresh} (move : SnapshotMove)
      (h : RefreshChain P first s history) :
      RefreshChain P first (snapshotStep P s move) history
  | refresh {s t : SnapshotStore} {history : List Refresh}
      {next : AnalysisContextSnapshot} (env : Surroundings)
      (h : RefreshChain P first s history)
      (hnext : refresh P env (lastOf first history).contextSnapshotId s =
        (.ok next, t)) :
      RefreshChain P first t (history ++ [(s.sources, next)])

variable {history : List Refresh}

theorem lastOf_concat (first : AnalysisContextSnapshot)
    (history : List Refresh) (r : Refresh) :
    lastOf first (history ++ [r]) = r.2 := by
  rw [lastOf, List.getLast?_concat]
  rfl

/-- The revision that was found for a state before the next refresh. -/
def foundBefore (P : Platform) (first : AnalysisContextSnapshot)
    (history : List Refresh) (captured : RevisionState) : Option Revision :=
  match history.getLast? with
  | none => captured.currentRevision
  | some (sources, _) => first.foundRevision P sources captured

/-- A state of the chain: the resource and the expected revision of the first
one, and the revision found last. -/
structure Carries (P : Platform) (first : AnalysisContextSnapshot)
    (history : List Refresh) (captured state : RevisionState) : Prop where
  resourceType : state.resourceType = captured.resourceType
  resourceId : state.resourceId = captured.resourceId
  expectedRevision : state.expectedRevision = captured.expectedRevision
  currentRevision : state.currentRevision =
    foundBefore P first history captured

/-- What a snapshot of the chain has of the first one. -/
structure Continues (P : Platform) (first : AnalysisContextSnapshot)
    (history : List Refresh) (snapshot : AnalysisContextSnapshot) : Prop where
  caseId : snapshot.caseId = first.caseId
  searchExecutionId : snapshot.searchExecutionId = first.searchExecutionId
  states : List.Forall₂ (Carries P first history) first.sourceRevisions
    snapshot.sourceRevisions

theorem foundRevision_congr {a b : AnalysisContextSnapshot}
    {x y : RevisionState} (hcase : a.caseId = b.caseId)
    (hexecution : a.searchExecutionId = b.searchExecutionId)
    (htype : x.resourceType = y.resourceType)
    (hid : x.resourceId = y.resourceId) (sources : Sources) :
    a.foundRevision P sources x = b.foundRevision P sources y := by
  unfold AnalysisContextSnapshot.foundRevision
    AnalysisContextSnapshot.isExecutionState
  rw [hcase, hexecution, htype, hid]

theorem continues_nil (first : AnalysisContextSnapshot) :
    Continues P first [] first where
  caseId := rfl
  searchExecutionId := rfl
  states := List.forall₂_same.mpr fun _ _ => ⟨rfl, rfl, rfl, rfl⟩

theorem carries_refresh {captured : RevisionState}
    (hsnapshot : Continues P first history snapshot)
    (hstate : Carries P first history captured state)
    (next : AnalysisContextSnapshot) (sources : Sources) (now : Instant) :
    Refreshes (first.foundRevision P sources captured) state
        (snapshot.refreshRevisionState P sources now state) ∧
      Carries P first (history ++ [(sources, next)]) captured
        (snapshot.refreshRevisionState P sources now state) := by
  have hfound : snapshot.foundRevision P sources state =
      first.foundRevision P sources captured :=
    foundRevision_congr hsnapshot.caseId hsnapshot.searchExecutionId
      hstate.resourceType hstate.resourceId sources
  have hrefreshes := refreshes_refreshRevisionState (P := P) snapshot sources
    now state
  rw [hfound] at hrefreshes
  refine ⟨hrefreshes, ?_, ?_, ?_, ?_⟩
  · rw [hrefreshes.resourceType, hstate.resourceType]
  · rw [hrefreshes.resourceId, hstate.resourceId]
  · rw [hrefreshes.expectedRevision, hstate.expectedRevision]
  · rw [hrefreshes.currentRevision, foundBefore, List.getLast?_concat]

theorem of_refresh {t : SnapshotStore} {id : String}
    {next : AnalysisContextSnapshot} (hs : AllCovered s)
    (h : refresh P env id s = (.ok next, t)) :
    ∃ row, s.snapshots.find? id = some row ∧
      next.caseId = row.caseId ∧
      next.searchExecutionId = row.searchExecutionId ∧
      next.sourceRevisions = row.sourceRevisions.map
        (row.refreshRevisionState P s.sources env.now) ∧
      t.snapshots.rows = s.snapshots.rows ++ [next.stored] := by
  have hresult : ((Call.refresh id).run P env).result s = .ok next :=
    congrArg Prod.fst h
  have hafter : ((Call.refresh id).run P env).after s = t := congrArg Prod.snd h
  rw [Call.run_eq] at hresult hafter
  obtain ⟨planned, hplan, hresult⟩ := result_bind_eq_ok_iff.mp hresult
  rw [after_bind_of_result hplan] at hafter
  rw [readOnly_plan _ s] at hresult hafter
  obtain ⟨row, hrow, hplan⟩ := result_bind_eq_ok_iff.mp hplan
  have hfind := (result_getSnapshot_eq_ok_iff.mp hrow).2
  obtain ⟨states, hstates, hplan⟩ := result_bind_eq_ok_iff.mp hplan
  have hstates : row.refreshSourceRevisions P s.sources env.now = .ok states :=
    (result_query_eq_ok_iff.mp hstates).2
  rw [refreshSourceRevisions_of_covered
    (hs row (Table.find?_eq_some_iff.mp hfind).1)] at hstates
  obtain rfl := Except.ok.inj hstates
  obtain rfl := Except.ok.inj hplan
  obtain ⟨hmade, hrows⟩ := of_createSnapshot hresult
  change (createSnapshot P env _ _).after s = t at hafter
  rw [hafter] at hrows
  obtain ⟨purpose, -, hmade⟩ := bind_ok hmade
  obtain rfl := Except.ok.inj hmade
  exact ⟨row, hfind, rfl, rfl, rfl, hrows⟩

theorem mem_snapshotStep {row : AnalysisContextSnapshot} (move : SnapshotMove)
    (h : row ∈ s.snapshots.rows) :
    row ∈ (snapshotStep P s move).snapshots.rows := by
  cases move with
  | call env call =>
      rcases after_run_cases P env call s with
        heq | ⟨snapshot, t, -, hadds, -⟩
      · rw [snapshotStep, heq]
        exact h
      · rw [snapshotStep, hadds.snapshots]
        exact List.mem_append_left _ h
  | change _ _ _ _ _ => exact h

/-- The snapshot that was refreshed, what it had of the first one, and the
states of the new one. -/
structure RefreshedFrom (P : Platform) (first : AnalysisContextSnapshot)
    (before : List Refresh) (r : Refresh) : Prop where
  continues : Continues P first before (lastOf first before)
  states : ∃ now, r.2.sourceRevisions =
    (lastOf first before).sourceRevisions.map
      ((lastOf first before).refreshRevisionState P r.1 now)

/-- What holds all along a chain. -/
structure ChainInvariant (P : Platform) (first : AnalysisContextSnapshot)
    (s : SnapshotStore) (history : List Refresh) : Prop where
  covered : AllCovered s
  held : ∃ row ∈ s.snapshots.rows,
    row = lastOf first history ∨ row = (lastOf first history).stored
  continues : Continues P first history (lastOf first history)
  refreshed : ∀ before r rest, history = before ++ r :: rest →
    RefreshedFrom P first before r

theorem ChainInvariant.refresh {next : AnalysisContextSnapshot}
    {t : SnapshotStore} (h : ChainInvariant P first s history)
    (hnext : Context.refresh P env (lastOf first history).contextSnapshotId
      s = (.ok next, t)) :
    ChainInvariant P first t (history ++ [(s.sources, next)]) := by
  obtain ⟨row, hfind, hcase, hexecution, hstates, hrows⟩ :=
    of_refresh h.covered hnext
  have hrow : row = lastOf first history ∨
      row = (lastOf first history).stored := by
    obtain ⟨held, hheld, heq⟩ := h.held
    obtain ⟨hmem, hid⟩ := Table.find?_eq_some_iff.mp hfind
    have hsame : row = held := s.snapshots.row_unique hmem hheld (by
      rw [hid]
      rcases heq with rfl | rfl <;> rfl)
    rwa [hsame]
  have hlast : next.caseId = (lastOf first history).caseId ∧
      next.searchExecutionId = (lastOf first history).searchExecutionId ∧
      next.sourceRevisions = (lastOf first history).sourceRevisions.map
        ((lastOf first history).refreshRevisionState P s.sources env.now) := by
    rcases hrow with rfl | rfl
    · exact ⟨hcase, hexecution, hstates⟩
    · exact ⟨hcase, hexecution, hstates⟩
  refine ⟨?_, ⟨next.stored, ?_, Or.inr (by rw [lastOf_concat])⟩, ?_, ?_⟩
  · have hstep := allCovered_snapshotStep (P := P) s
      (.call env (.refresh (lastOf first history).contextSnapshotId)) h.covered
    have hafter : snapshotStep P s
        (.call env (.refresh (lastOf first history).contextSnapshotId)) = t :=
      congrArg Prod.snd hnext
    rwa [hafter] at hstep
  · rw [hrows]
    exact List.mem_append_right _ List.mem_cons_self
  · rw [lastOf_concat]
    refine ⟨hlast.1.trans h.continues.caseId,
      hlast.2.1.trans h.continues.searchExecutionId, ?_⟩
    rw [hlast.2.2, List.forall₂_map_right_iff]
    exact h.continues.states.imp fun captured state hstate =>
      (carries_refresh h.continues hstate next s.sources env.now).2
  · intro before r rest hsplit
    rcases List.eq_nil_or_concat rest with rfl | ⟨rest, r', rfl⟩
    · obtain ⟨rfl, hr⟩ := List.append_inj' hsplit rfl
      obtain rfl := List.singleton_inj.mp hr
      exact ⟨h.continues, env.now, hlast.2.2⟩
    · rw [List.concat_eq_append, ← List.cons_append, ← List.append_assoc]
        at hsplit
      exact h.refreshed before r rest (List.append_inj' hsplit rfl).1

theorem chainInvariant (h : RefreshChain P first s history) :
    ChainInvariant P first s history := by
  induction h with
  | stored sources contexts moves hmem =>
      refine ⟨allCovered_reachedStore sources contexts moves,
        ⟨first, hmem, Or.inl rfl⟩, continues_nil first, fun _ _ _ hsplit => ?_⟩
      exact absurd hsplit.symm (by simp)
  | move move _ ih =>
      obtain ⟨row, hrow, heq⟩ := ih.held
      exact ⟨allCovered_snapshotStep _ move ih.covered,
        ⟨row, mem_snapshotStep move hrow, heq⟩, ih.continues, ih.refreshed⟩
  | refresh env _ hnext ih => exact ih.refresh hnext

/-! ## Staleness along a chain -/

/-- Every state of the new snapshot is one of the first snapshot, of the same
resource, and keeps what is stale. -/
def RemembersStale (P : Platform) (first : AnalysisContextSnapshot)
    (before : List Refresh) (r : Refresh) : Prop :=
  ∀ (i : ℕ) (state : RevisionState), r.2.sourceRevisions[i]? = some state →
    ∃ captured previous, first.sourceRevisions[i]? = some captured ∧
      (lastOf first before).sourceRevisions[i]? = some previous ∧
      state.resourceType = captured.resourceType ∧
      state.resourceId = captured.resourceId ∧
      KeepsStale (first.foundRevision P r.1 captured)
        captured.expectedRevision previous state

/-- The revisions that a refresh finds are reliable, for every resource. -/
def ReliableRefresh (P : Platform) (first : AnalysisContextSnapshot)
    (before : List Refresh) (r : Refresh) : Prop :=
  ∀ captured ∈ first.sourceRevisions,
    Reliable captured.expectedRevision (foundBefore P first before captured)
      (first.foundRevision P r.1 captured)

theorem remembersStale_iff {before : List Refresh} {r : Refresh}
    (h : RefreshedFrom P first before r) :
    RemembersStale P first before r ↔ ReliableRefresh P first before r := by
  obtain ⟨now, hstates⟩ := h.states
  have hlength := h.continues.states.length_eq
  have hstep : ∀ i (hi : i < first.sourceRevisions.length)
      (hi' : i < (lastOf first before).sourceRevisions.length),
      KeepsStale (first.foundRevision P r.1 first.sourceRevisions[i])
          first.sourceRevisions[i].expectedRevision
          (lastOf first before).sourceRevisions[i]
          ((lastOf first before).refreshRevisionState P r.1 now
            (lastOf first before).sourceRevisions[i]) ↔
        Reliable first.sourceRevisions[i].expectedRevision
          (foundBefore P first before first.sourceRevisions[i])
          (first.foundRevision P r.1 first.sourceRevisions[i]) := by
    intro i hi hi'
    have hcarries : Carries P first before first.sourceRevisions[i]
        (lastOf first before).sourceRevisions[i] :=
      h.continues.states.get hi hi'
    have hrefreshes := (carries_refresh h.continues hcarries r.2 r.1 now).1
    rw [← hcarries.currentRevision]
    exact keepsStale_iff hrefreshes hcarries.expectedRevision
  constructor
  · intro hremembers captured hmem
    obtain ⟨i, hi, rfl⟩ := List.mem_iff_getElem.mp hmem
    have hi' : i < (lastOf first before).sourceRevisions.length := hlength ▸ hi
    obtain ⟨c, previous, hc, hprevious, -, -, hkeeps⟩ := hremembers i
      ((lastOf first before).refreshRevisionState P r.1 now
        (lastOf first before).sourceRevisions[i]) (by
          rw [hstates, List.getElem?_map, List.getElem?_eq_getElem hi']
          rfl)
    rw [List.getElem?_eq_getElem hi] at hc
    rw [List.getElem?_eq_getElem hi'] at hprevious
    obtain rfl := Option.some.inj hc
    obtain rfl := Option.some.inj hprevious
    exact (hstep i hi hi').mp hkeeps
  · intro hreliable i state hstate
    rw [hstates, List.getElem?_map] at hstate
    obtain ⟨previous, hprevious, rfl⟩ := Option.map_eq_some_iff.mp hstate
    obtain ⟨hi', rfl⟩ := List.getElem?_eq_some_iff.mp hprevious
    have hi : i < first.sourceRevisions.length := hlength.symm ▸ hi'
    have hcarries : Carries P first before first.sourceRevisions[i]
        (lastOf first before).sourceRevisions[i] :=
      h.continues.states.get hi hi'
    have hrefreshes := (carries_refresh h.continues hcarries r.2 r.1 now).1
    refine ⟨_, _, List.getElem?_eq_getElem hi, hprevious, ?_, ?_,
      (hstep i hi hi').mpr (hreliable _ (List.getElem_mem hi))⟩
    · rw [hrefreshes.resourceType]
      exact hcarries.resourceType
    · rw [hrefreshes.resourceId]
      exact hcarries.resourceId

/-- Along a chain of refreshes staleness is never forgotten exactly when every
refresh finds each resource gone, at its captured revision, or at another one
than the refresh before it did. -/
theorem staleness_remembered_iff {first : AnalysisContextSnapshot}
    {s : SnapshotStore} {history : List Refresh}
    (h : RefreshChain P first s history) :
    (∀ before r rest, history = before ++ r :: rest →
        RemembersStale P first before r) ↔
      ∀ before r rest, history = before ++ r :: rest →
        ReliableRefresh P first before r :=
  forall₃_congr fun before r rest => forall_congr' fun hsplit =>
    remembersStale_iff ((chainInvariant h).refreshed before r rest hsplit)

/-! ## A revision that changes once -/

/-- One item of evidence, with a fingerprint. -/
def evidenceSources (fingerprint : String) : Sources :=
  { noSources with
    evidence := ⟨[⟨"evidence", "case", some fingerprint,
      ⟨0, Instant.zero_inRange⟩⟩], List.nodup_singleton _⟩ }

def evidenceSelection : Selection :=
  { emptySelection with
    resources := ⟨[("EVIDENCE", ["evidence"])], by decide⟩ }

/-- A call that gives its snapshot an id, and the scopes longer ones. -/
def naming (id : String) : Surroundings where
  newId n := String.ofList (id.toList ++ List.replicate n '.')
  now := ⟨0, Instant.zero_inRange⟩
  raises _ := none

def evidenceState : RevisionState where
  resourceType := "EVIDENCE"
  resourceId := "evidence"
  expectedRevision := some (.text "a")
  currentRevision := some (.text "a")
  status := .current
  reason := none
  detectedAt := ⟨0, Instant.zero_inRange⟩

/-- The snapshot is built, and then the fingerprint changes. -/
def changedStore : SnapshotStore :=
  snapshotStep plainPlatform
    (reachedStore plainPlatform (evidenceSources "a") (Table.empty _)
      [.call (naming "first") (.buildFromSelection evidenceSelection none)])
    (.change (evidenceSources "b") (Table.empty _) [] [] [])

theorem exists_refreshed :
    ∃ first next t, first.caseId = "case" ∧
      first.sourceRevisions = [evidenceState] ∧
      next.contextSnapshotId = "second" ∧
      refresh plainPlatform (naming "second") "first" changedStore =
        (.ok next, t) ∧
      RefreshChain plainPlatform first t [(evidenceSources "b", next)] := by
  have hrows : (reachedStore plainPlatform (evidenceSources "a")
      (Table.empty _) [.call (naming "first") (.buildFromSelection
        evidenceSelection none)]).snapshots.rows.map (fun row =>
          (row.contextSnapshotId, row.caseId, row.sourceRevisions)) =
      [("first", "case", [evidenceState])] := by
    decide +kernel
  obtain ⟨first, hmem, hfirst⟩ := List.mem_map.mp
    (hrows.symm ▸ List.mem_singleton_self _)
  obtain ⟨hid, hfirst⟩ := Prod.ext_iff.mp hfirst
  obtain ⟨hcase, hstates⟩ := Prod.ext_iff.mp hfirst
  have hsecond : ((refresh plainPlatform (naming "second") "first").result
      changedStore).toOption.map AnalysisContextSnapshot.contextSnapshotId =
        some "second" := by
    decide +kernel
  obtain ⟨next, hnext, hnextId⟩ := Option.map_eq_some_iff.mp hsecond
  have hrefresh : refresh plainPlatform (naming "second") "first"
      changedStore = (.ok next, (refresh plainPlatform (naming "second")
        "first").after changedStore) :=
    eq_of_result (eq_ok_of_toOption hnext)
  refine ⟨first, next, _, hcase, hstates, hnextId, hrefresh, ?_⟩
  have hstart := RefreshChain.move (.change (evidenceSources "b")
    (Table.empty _) [] [] []) (.stored _ _ _ hmem)
  refine .refresh (naming "second") hstart ?_
  change refresh plainPlatform (naming "second") first.contextSnapshotId
    changedStore = _
  rw [show first.contextSnapshotId = "first" from hid]
  exact hrefresh

theorem foundRevision_evidenceState (hcase : first.caseId = "case") :
    first.foundRevision plainPlatform (evidenceSources "b") evidenceState =
      some (.text "b") := by
  have hstate : first.isExecutionState evidenceState = false := by
    simp [AnalysisContextSnapshot.isExecutionState, evidenceState,
      ResourceType.value]
  unfold AnalysisContextSnapshot.foundRevision
  rw [hstate, hcase]
  rfl

/-- The first refresh tells that the fingerprint has changed. -/
theorem staleness_remembered_once :
    ∃ first next, RemembersStale plainPlatform first []
      (evidenceSources "b", next) := by
  obtain ⟨first, next, t, hcase, hstates, -, -, hchain⟩ := exists_refreshed
  refine ⟨first, next, (staleness_remembered_iff hchain).mpr ?_ [] _ [] rfl⟩
  intro before r rest hsplit captured hmem
  obtain ⟨rfl, hr, -⟩ : before = [] ∧ (evidenceSources "b", next) = r ∧
      rest = [] := by
    cases before with
    | nil =>
        obtain ⟨hr, hrest⟩ := List.cons.inj hsplit
        exact ⟨rfl, hr, hrest.symm⟩
    | cons _ before => exact absurd hsplit (by simp)
  rw [hstates] at hmem
  obtain rfl := List.mem_singleton.mp hmem
  rw [← hr, foundRevision_evidenceState hcase]
  refine Or.inr (Or.inr ⟨.text "a", rfl, ?_⟩)
  rw [sameRevision_some_iff]
  decide

/-- The second refresh calls it current again. -/
theorem stale_forgotten :
    ¬ ∀ (P : Platform) (first : AnalysisContextSnapshot) (s : SnapshotStore)
      (history : List Refresh), RefreshChain P first s history →
      ∀ before r rest, history = before ++ r :: rest →
        RemembersStale P first before r := by
  intro h
  obtain ⟨first, next, t, hcase, hstates, hid, hrefresh, hchain⟩ :=
    exists_refreshed
  have hthird : ((refresh plainPlatform (naming "third") "second").result
      ((refresh plainPlatform (naming "second") "first").after
        changedStore)).toOption.isSome = true := by
    decide +kernel
  obtain ⟨last, hlast⟩ := exists_ok_of_isSome hthird
  have ht : (refresh plainPlatform (naming "second") "first").after
      changedStore = t := congrArg Prod.snd hrefresh
  rw [ht] at hlast
  have hnext : refresh plainPlatform (naming "third")
      (lastOf first [(evidenceSources "b", next)]).contextSnapshotId t =
        (.ok last, (refresh plainPlatform (naming "third") "second").after
          t) := by
    change refresh plainPlatform (naming "third") next.contextSnapshotId t = _
    rw [hid]
    exact eq_of_result hlast
  have hsources : t.sources = evidenceSources "b" := by
    rw [← ht]
    exact sources_after_run (.refresh "first") changedStore
  have hchain' := RefreshChain.refresh (naming "third") hchain hnext
  rw [hsources] at hchain'
  have hreliable := (remembersStale_iff ((chainInvariant hchain').refreshed
    [(evidenceSources "b", next)] _ [] rfl)).mp
      (h _ _ _ _ hchain' [(evidenceSources "b", next)] _ [] rfl)
      evidenceState (hstates.symm ▸ List.mem_cons_self)
  have hbefore : foundBefore plainPlatform first
      [(evidenceSources "b", next)] evidenceState = some (.text "b") :=
    foundRevision_evidenceState hcase
  rw [foundRevision_evidenceState hcase, hbefore] at hreliable
  rcases hreliable with hnone | hsame | ⟨baseline, hbaseline, hdiffers⟩
  · cases hnone
  · rw [evidenceState, sameRevision_some_iff] at hsame
    exact absurd hsame (by decide)
  · obtain rfl := Option.some.inj hbaseline
    exact hdiffers (sameRevision_some_iff.mpr rfl)

end ApexForensic.Context
