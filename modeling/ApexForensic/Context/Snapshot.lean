import ApexForensic.Context.Session
import ApexForensic.Support.Atomicity

/-!
# Analysis snapshots

A snapshot lists resources of a case, the revision of each and the scopes
they are seen under.  It is stored in three steps, each a transaction of its
own: the snapshot with its resources, the revision states, and then one scope
context after the other.
-/

namespace ApexForensic.Context

open ApexForensic.Support ApexForensic.Domain
open ApexForensic.Support.Service (query operation)
open ApexForensic.Timeline (ArtifactRow)

local instance lawfulBEq_pair : LawfulBEq (String × String) := inferInstance

/-! ## The store -/

/-- A row of `context_snapshot_resources`. -/
structure SnapshotResourceRow where
  contextSnapshotId : String
  resourceType : String
  resourceId : String
  sourceRevision : Option String
  included : Bool

def SnapshotResourceRow.key (row : SnapshotResourceRow) :
    String × String × String :=
  (row.contextSnapshotId, row.resourceType, row.resourceId)

/-- A row of `context_revision_states`. -/
structure RevisionStateRow where
  contextSnapshotId : String
  resourceType : String
  resourceId : String
  expectedRevision : Option String
  currentRevision : Option String
  status : RevisionStatus
  reason : Option String
  detectedAt : Instant

structure CoverageRow where
  caseId : String
  status : String

structure SnapshotStore where
  sources : Sources
  contexts : Table GuiSessionContext.sessionContextId
  fsCoverage : List CoverageRow
  artifactCoverage : List CoverageRow
  timelineCoverage : List CoverageRow
  snapshots : Table AnalysisContextSnapshot.contextSnapshotId
  resources : Table SnapshotResourceRow.key
  revisionStates : List RevisionStateRow
  scopeContexts : List AnalysisScopeContext

/-- Where a call can be interrupted: in the reads that lead up to its next
write, or in the write. -/
inductive Point where
  | stored | caseRow | listing | resources | artifactScopes | execution
  | collecting
  | snapshotRow | stateRows
  | scopeReads (scope : String)
  | scopeRow (scope : String)

/-- What a call is given from outside: new ids, the time, and the errors of
the operations of the repository. -/
structure Surroundings where
  newId : ℕ → String
  now : Instant
  raises : Point → Option PyError

abbrev SnapshotCall := Service SnapshotStore PyError

/-! ## Resources of a snapshot -/

/-- `{key: _dedupe(value) for key, value in resources.items() if value}`. -/
def dedupedResources (resources : ResourceMap) : ResourceMap :=
  (resources.filter fun p => p.2 ≠ []).update (fun _ => true)
    (fun p => (p.1, dedupe p.2)) fun _ => rfl

/-- `resources.get(resource_type, [])`. -/
def idsOf (resources : ResourceMap) (resourceType : String) : List String :=
  ((resources.find? resourceType).map Prod.snd).getD []

/-- The map as it is read back: its keys in order. -/
def sortedResources (resources : ResourceMap) : ResourceMap where
  rows := resources.rows.insertionSort fun p q => p.1 ≤ q.1
  keys_nodup := ((List.perm_insertionSort _ _).map _).nodup_iff.mpr
    resources.keys_nodup

/-- The pairs of type and id in the items of a dictionary. -/
def pairsOf (rows : List (String × List String)) : List (String × String) :=
  rows.flatMap fun p => p.2.map fun resourceId => (p.1, resourceId)

def resourcesJson (rows : List (String × List String)) : Json :=
  .obj (rows.map fun p => (p.1, texts p.2))

section

variable (P : Platform) (sources : Sources)

/-- The items that the resources have, but for the ones not found. -/
def citationsOf (resource : String × String) : List Json :=
  match resourceInfo P sources resource.1 resource.2 with
  | .ok info => info.citations
  | .error _ => []

/-- `_collect_citations`. -/
def collectCitations (resources : List (String × String)) : List Json :=
  resources.flatMap (citationsOf P sources)

/-- The analyzer of a resource and its version, if both are known. -/
def analyzerOf (resource : String × String) : Option (String × String) :=
  match resourceInfo P sources resource.1 resource.2 with
  | .error _ => none
  | .ok info =>
      info.analyzerId.bind fun analyzerId =>
        info.analyzerVersion.map fun version => (analyzerId, version)

/-- `_collect_analyzer_versions`. -/
def collectAnalyzerVersions (resources : List (String × String)) :
    List (String × String) :=
  (resources.filterMap (analyzerOf P sources)).foldl
    (fun versions p => setItem p.1 p.2 versions) []

/-- `_evidence_ids_for_included`. -/
def evidenceIdsForIncluded (resources : List (String × String)) :
    List String :=
  dedupe (resources.filterMap fun resource =>
    if resource.1 = ResourceType.evidence.value then some resource.2
    else match resourceInfo P sources resource.1 resource.2 with
      | .ok info => info.evidenceId
      | .error _ => none)

/-! ## Scopes of a snapshot -/

/-- `_artifact_ids_matching_scope`. -/
def artifactIdsMatchingScope (artifactIds : List String) (scope : String) :
    List String :=
  artifactIds.filter fun artifactId =>
    (artifactScopeForId sources artifactId).map AnalysisScopeType.value =
      some scope

/-- The scopes that the resources of one type belong to. -/
def scopesOfType (resourceType : String) (resourceIds : List String) :
    List String :=
  if resourceType = ResourceType.artifact.value then
    resourceIds.filterMap fun resourceId =>
      (artifactScopeForId sources resourceId).map AnalysisScopeType.value
  else (resourceScopeByType resourceType).toList.map AnalysisScopeType.value

/-- `_scopes_from_included`. -/
def scopesFromIncluded (included : ResourceMap) : List String :=
  let rows := included.rows.filter fun p => p.2 ≠ []
  let scopes := (rows.flatMap fun p => scopesOfType sources p.1 p.2) ++
    if rows = [] then [] else [AnalysisScopeType.selection.value]
  if scopes = [] then [AnalysisScopeType.case.value]
  else (scopeResourceTypeTable.map fun p => p.1.value).filter
    fun scope => scope ∈ scopes

/-- `_included_resources_for_scope`. -/
def includedResourcesForScope (included : ResourceMap) (scope : String) :
    List (String × List String) :=
  match artifactResourceTypeByScope scope with
  | some resourceType =>
      let ids := dedupe (idsOf included resourceType.value ++
        artifactIdsMatchingScope sources
          (idsOf included ResourceType.artifact.value) scope)
      if ids = [] then [] else [(resourceType.value, ids)]
  | none =>
      ((scopeResourceTypes scope).map fun resourceType =>
        (resourceType, idsOf included resourceType)).filter
          fun p => p.2 ≠ []

end

/-! ## The listing of a scope -/

/-- `LIMIT`: a negative limit is no limit. -/
def limited {α : Type} (limit : ℤ) (rows : List α) : List α :=
  if limit < 0 then rows else rows.take limit.toNat

section

variable (sources : Sources) (caseId : String) (limit : ℤ)

/-- `list_resource_ids`. -/
def listResourceIds {α : Type} (rows : List α) (id owner : α → String) :
    List String :=
  limited limit (((rows.filter fun row => owner row = caseId).map
    id).insertionSort (· ≤ ·))

/-- `list_artifact_ids_for_types`, of the types of one scope. -/
def listArtifactIds (scope : String) : List String :=
  listResourceIds caseId limit
    (sources.artifacts.rows.filter fun row =>
      (artifactScopeByType row.artifactType).map AnalysisScopeType.value =
        some scope)
    ArtifactRow.artifactId ArtifactRow.caseId

/-- `ORDER BY r.rank, r.document_id`. -/
def resultOrder (a b : SearchResultRow) : Prop :=
  orderBy SearchResultRow.rank SearchResultRow.documentId a b

instance : DecidableRel resultOrder := fun a b =>
  inferInstanceAs (Decidable
    (orderBy SearchResultRow.rank SearchResultRow.documentId a b))

/-- `list_search_result_ids_for_case`. -/
def listSearchResultIdsForCase : List String :=
  limited limit (((sources.results.rows.filter fun row =>
    (sources.queries.find? row.queryId).any fun searchQuery =>
      searchQuery.caseId = caseId).insertionSort resultOrder).map
        SearchResultRow.resultId)

/-- `_resource_ids_for_scope`, which names at most one type. -/
def resourceIdsForScope (scope : String) : Option (String × List String) :=
  if scope = AnalysisScopeType.evidence.value then
    some (ResourceType.evidence.value, listResourceIds caseId limit
      sources.evidence.rows EvidenceRow.evidenceId EvidenceRow.caseId)
  else if scope = AnalysisScopeType.filesystem.value then
    some (ResourceType.fileSystemNode.value, listResourceIds caseId limit
      sources.nodes.rows (fun node => node.nodeId) fun node => node.caseId)
  else match artifactResourceTypeByScope scope with
  | some resourceType =>
      some (resourceType.value, listArtifactIds sources caseId limit scope)
  | none =>
      if scope = AnalysisScopeType.timeline.value then
        some (ResourceType.timelineEvent.value, listResourceIds caseId limit
          sources.events.rows (fun event => event.timelineEventId)
          fun event => event.caseId)
      else if scope = AnalysisScopeType.keywordSearch.value then
        some (ResourceType.searchResult.value,
          listSearchResultIdsForCase sources caseId limit)
      else if scope = AnalysisScopeType.machineCandidate.value then
        some (ResourceType.machineCandidate.value,
          listResourceIds caseId limit sources.candidates.rows
            CandidateRow.candidateId CandidateRow.caseId)
      else if scope = AnalysisScopeType.chainOfCustody.value then
        some (ResourceType.custodyEvent.value, listResourceIds caseId limit
          sources.custody.rows CustodyEventRow.eventId CustodyEventRow.caseId)
      else none

end

/-! ## Building a snapshot -/

def AnalysisContextPurpose.all : List AnalysisContextPurpose :=
  [.aiRequest, .mcpRequest, .reportDraft, .reportReview, .analystBookmark,
    .audit, .export_, .other]

/-- `AnalysisContextPurpose(value)`. -/
def analysisContextPurpose (value : String) :
    Except PyError AnalysisContextPurpose :=
  match AnalysisContextPurpose.all.find? fun p => p.value = value with
  | some purpose => .ok purpose
  | none => .error (.builtin .valueError
      s!"{value} is not a valid AnalysisContextPurpose")

/-- What `_create_snapshot` is given. -/
structure SnapshotRequest where
  caseId : String
  sessionContextId : Option String
  sessionContextRevision : Option ℕ
  actorId : Option String
  purpose : String
  scopes : List String
  includedResourceIds : ResourceMap
  excludedResourceIds : ResourceMap
  filters : List (String × Json)
  timeRange : List (String × Json)
  sourceRevisions : List RevisionState
  keywordSetId : Option String
  keywordSetVersion : Option ℤ
  searchExecutionId : Option String
  searchIndexRevision : Option ℤ
  timelineRevision : Option ℤ
  previousSnapshotId : Option String

/-- The revision is neither current nor partial. -/
def RevisionState.isStale (state : RevisionState) : Bool :=
  state.status ∉ [RevisionStatus.current, .isPartial]

/-- `state.reason or "UNKNOWN"`. -/
def RevisionState.reasonOr (state : RevisionState) : String :=
  (state.reason.filter fun value => value ≠ "").getD "UNKNOWN"

def partialResourceIds (states : List RevisionState) : List String :=
  (states.filter fun state => state.status = .isPartial).map
    RevisionState.resourceId

def partialState (states : List RevisionState) : Json :=
  .obj [("is_partial", .bool (anyPartial states)),
    ("partial_resource_ids", texts (partialResourceIds states))]

def staleState (states : List RevisionState) : Json :=
  .obj [("is_stale", .bool (states.any RevisionState.isStale)),
    ("stale_reasons", texts (dedupe
      ((states.filter RevisionState.isStale).map RevisionState.reasonOr)))]

def versionsJson (versions : List (String × String)) : Json :=
  .obj (versions.map fun p => (p.1, .str p.2))

section

variable (P : Platform)

def fingerprintPayload (request : SnapshotRequest)
    (included excluded : ResourceMap) (versions : List (String × String))
    (citations : List Json) : Json :=
  .obj [
    ("case_id", .str request.caseId),
    ("purpose", .str request.purpose),
    ("scopes", texts (request.scopes.insertionSort (· ≤ ·))),
    ("included_resource_ids", resourcesJson included.rows),
    ("excluded_resource_ids", resourcesJson excluded.rows),
    ("filters", .obj request.filters),
    ("time_range", .obj request.timeRange),
    ("source_revisions", stableRevisionStates request.sourceRevisions),
    ("analyzer_versions", versionsJson versions),
    ("search_index_revision", optionalInt request.searchIndexRevision),
    ("timeline_revision", optionalInt request.timelineRevision),
    ("keyword_set_id", optionalText request.keywordSetId),
    ("keyword_set_version", optionalInt request.keywordSetVersion),
    ("search_execution_id", optionalText request.searchExecutionId),
    ("partial_state", partialState request.sourceRevisions),
    ("stale_state", staleState request.sourceRevisions),
    ("citations", .arr citations)]

def validateBudgets (request : SnapshotRequest) : Except PyError Unit := do
  validateJsonBudget P (.obj request.filters) "filters"
  validateJsonBudget P (.obj request.timeRange) "time_range"

/-- The snapshot that `_create_snapshot` makes of a request. -/
def makeSnapshot (sources : Sources) (request : SnapshotRequest)
    (contextSnapshotId : String) (createdAt : Instant) :
    Except PyError AnalysisContextSnapshot := do
  let purpose ← analysisContextPurpose request.purpose
  let included := dedupedResources request.includedResourceIds
  let excluded := dedupedResources request.excludedResourceIds
  let pairs := resourcePairs included
  let citations := (collectCitations P sources pairs).take maxCitations
  let versions := collectAnalyzerVersions P sources pairs
  return {
    contextSnapshotId := contextSnapshotId
    caseId := request.caseId
    sessionContextId := request.sessionContextId
    sessionContextRevision := request.sessionContextRevision
    actorId := request.actorId
    purpose := purpose
    scopes := sortedUnique request.scopes
    includedResourceIds := included
    excludedResourceIds := excluded
    filters := redactFields P request.filters
    timeRange := request.timeRange
    sourceRevisions := request.sourceRevisions
    analyzerVersions := versions
    searchIndexRevision := request.searchIndexRevision
    timelineRevision := request.timelineRevision
    keywordSetId := request.keywordSetId
    keywordSetVersion := request.keywordSetVersion
    searchExecutionId := request.searchExecutionId
    partialState := partialState request.sourceRevisions
    staleState := staleState request.sourceRevisions
    citations := citations
    contextFingerprint := canonicalSha256 P.sha256
      (fingerprintPayload request included excluded versions citations) []
    previousSnapshotId := request.previousSnapshotId
    createdAt := createdAt }

end

/-! ## Scope contexts -/

/-- `SELECT status, COUNT(*) ... GROUP BY status`. -/
def statusCounts (rows : List CoverageRow) (caseId : String) :
    List (String × Json) :=
  let statuses := (rows.filter fun row => row.caseId = caseId).map
    CoverageRow.status
  (sortedUnique statuses).map fun status =>
    (status, .int (statuses.count status))

/-- `coverage_summary_for_scope`. -/
def coverageSummaryForScope (store : SnapshotStore) (caseId scope : String) :
    Json :=
  let counts :=
    if scope = AnalysisScopeType.filesystem.value then
      statusCounts store.fsCoverage caseId
    else if (artifactResourceTypeByScope scope).isSome then
      statusCounts store.artifactCoverage caseId
    else if scope = AnalysisScopeType.timeline.value then
      statusCounts store.timelineCoverage caseId
    else []
  .obj [("scope", .str scope), ("status_counts", .obj counts)]

section

variable (P : Platform)

/-- The payload of the fingerprint of a scope context. -/
def scopePayload (snapshot : AnalysisContextSnapshot) (scope : String)
    (resourceIds : List String) (included : List (String × List String))
    (states : List RevisionState) : Json :=
  .obj [
    ("snapshot", .str snapshot.contextSnapshotId),
    ("scope", .str scope),
    ("resources", texts resourceIds),
    ("included_resource_ids", resourcesJson included),
    ("source_revisions", stableRevisionStates states),
    ("filters", .obj snapshot.filters),
    ("time_range", .obj snapshot.timeRange)]

/-- The scope context that `_save_scope_contexts` makes for a scope. -/
def makeScopeContext (store : SnapshotStore)
    (snapshot : AnalysisContextSnapshot) (scope : String)
    (scopeContextId : String) (createdAt : Instant) : AnalysisScopeContext :=
  let included := includedResourcesForScope store.sources
    snapshot.includedResourceIds scope
  let pairs := pairsOf included
  let resourceIds := dedupe (pairs.map Prod.snd)
  let states := snapshot.sourceRevisions.filter fun state =>
    (state.resourceType, state.resourceId) ∈ pairs
  { scopeContextId := scopeContextId
    contextSnapshotId := snapshot.contextSnapshotId
    scopeType := scope
    caseId := snapshot.caseId
    evidenceIds := evidenceIdsForIncluded P store.sources pairs
    resourceIds := resourceIds
    sourceRevisions := states
    analyzerVersions := collectAnalyzerVersions P store.sources pairs
    filters := snapshot.filters
    timeRange := snapshot.timeRange
    resultCount := resourceIds.length
    includedCount := min resourceIds.length maxScopeItems
    isPartial := maxScopeItems < resourceIds.length || anyPartial states
    coverage := coverageSummaryForScope store snapshot.caseId scope
    staleReasons := notCurrentReasons states
    citations := (collectCitations P store.sources pairs).take maxCitations
    continuationCursor :=
      if maxScopeItems < resourceIds.length then some (.obj [
        ("snapshot_id", .str snapshot.contextSnapshotId),
        ("scope", .str scope), ("offset", .int maxScopeItems)])
      else none
    scopeFingerprint := canonicalSha256 P.sha256
      (scopePayload snapshot scope resourceIds included states) []
    createdAt := createdAt }

end

/-! ## The transactions -/

/-- The fields of an object with all keys in order. -/
def sortedFields (fields : List (String × Json)) : List (String × Json) :=
  (Json.sortFields fields).insertionSort Json.keyLE

/-- The snapshot as it is read back: the columns hold JSON with the keys of
its objects in order. -/
def AnalysisContextSnapshot.stored (snapshot : AnalysisContextSnapshot) :
    AnalysisContextSnapshot :=
  { snapshot with
    includedResourceIds := sortedResources snapshot.includedResourceIds
    excludedResourceIds := sortedResources snapshot.excludedResourceIds
    filters := sortedFields snapshot.filters
    timeRange := sortedFields snapshot.timeRange
    analyzerVersions := snapshot.analyzerVersions.insertionSort
      fun p q => p.1 ≤ q.1
    partialState := snapshot.partialState.sortKeys
    staleState := snapshot.staleState.sortKeys
    citations := Json.sortItems snapshot.citations }

/-- `_revision_for`. -/
def revisionFor (states : List RevisionState)
    (resource : String × String) : Option String :=
  (states.find? fun state => state.resourceType = resource.1 ∧
    state.resourceId = resource.2).bind fun state =>
      state.expectedRevision.map Revision.str

def resourceRows (snapshot : AnalysisContextSnapshot) :
    List SnapshotResourceRow :=
  let rowsOf := fun (resources : ResourceMap) (included : Bool) =>
    (resourcePairs resources).map fun resource =>
      { contextSnapshotId := snapshot.contextSnapshotId
        resourceType := resource.1
        resourceId := resource.2
        sourceRevision := revisionFor snapshot.sourceRevisions resource
        included := included : SnapshotResourceRow }
  rowsOf snapshot.includedResourceIds true ++
    rowsOf snapshot.excludedResourceIds false

/-- `INSERT OR IGNORE`, row by row. -/
def insertOrIgnore (resources : Table SnapshotResourceRow.key)
    (rows : List SnapshotResourceRow) : Table SnapshotResourceRow.key :=
  rows.foldl (fun table row => (table.insert row).getD table) resources

def uniqueError (columns : String) : PyError :=
  .builtin .integrityError ("UNIQUE constraint failed: " ++ columns)

def foreignKeyError : PyError :=
  .builtin .integrityError "FOREIGN KEY constraint failed"

/-- `save_analysis_context_snapshot`. -/
def saveAnalysisContextSnapshot (snapshot : AnalysisContextSnapshot)
    (store : SnapshotStore) : Except PyError (Unit × SnapshotStore) :=
  if snapshot.caseId ∉ store.sources.cases then .error foreignKeyError
  else if snapshot.previousSnapshotId.any fun id =>
      id ≠ snapshot.contextSnapshotId ∧
        (store.snapshots.find? id).isNone then
    .error foreignKeyError
  else match store.snapshots.insert snapshot.stored with
  | none => .error (uniqueError
      "analysis_context_snapshots.context_snapshot_id")
  | some snapshots => .ok ((), { store with
      snapshots := snapshots
      resources := insertOrIgnore store.resources (resourceRows snapshot) })

def revisionStateRow (contextSnapshotId : String) (state : RevisionState) :
    RevisionStateRow where
  contextSnapshotId := contextSnapshotId
  resourceType := state.resourceType
  resourceId := state.resourceId
  expectedRevision := state.expectedRevision.map Revision.str
  currentRevision := state.currentRevision.map Revision.str
  status := state.status
  reason := state.reason
  detectedAt := state.detectedAt

/-- `save_context_revision_states`. -/
def saveContextRevisionStates (contextSnapshotId : String)
    (states : List RevisionState) (store : SnapshotStore) :
    Except PyError (Unit × SnapshotStore) :=
  .ok ((), { store with
    revisionStates := store.revisionStates ++
      states.map (revisionStateRow contextSnapshotId) })

/-- The keys of `analysis_scope_contexts`. -/
def scopeContextKeys :
    List (String × (AnalysisScopeContext → AnalysisScopeContext → Bool)) :=
  [("analysis_scope_contexts.scope_context_id", fun a b =>
      a.scopeContextId = b.scopeContextId),
    ("analysis_scope_contexts.context_snapshot_id, " ++
      "analysis_scope_contexts.scope_type", fun a b =>
      a.contextSnapshotId = b.contextSnapshotId ∧ a.scopeType = b.scopeType)]

/-- `save_analysis_scope_context`. -/
def saveAnalysisScopeContext (scope : AnalysisScopeContext)
    (store : SnapshotStore) : Except PyError (Unit × SnapshotStore) :=
  (insertRow scopeContextKeys store.scopeContexts scope).map fun rows =>
    ((), { store with scopeContexts := rows })

/-! ## The calls -/

/-- `_check_cancel`, the check with that number, of a token that is cancelled
from a check on. -/
def checkCancel (cancelledFrom : Option ℕ) (number : ℕ) : SnapshotCall Unit :=
  Service.read fun _ =>
    if cancelledFrom.any fun n => n ≤ number then
      .error operationCancelledError
    else .ok ()

section

variable (P : Platform) (env : Surroundings)

/-- `_save_scope_contexts`, its loop body: the scope with that number. -/
def saveScopeContext (cancelledFrom : Option ℕ)
    (snapshot : AnalysisContextSnapshot) (number : ℕ) (scope : String) :
    SnapshotCall Unit := do
  checkCancel cancelledFrom (number + 2)
  let scopeContext ← query env.raises (.scopeReads scope) fun s =>
    .ok (makeScopeContext P s snapshot scope (env.newId (number + 1)) env.now)
  operation env.raises (.scopeRow scope)
    (saveAnalysisScopeContext scopeContext)

/-- `_save_scope_contexts`: the scopes from the one with that number on. -/
def saveScopeContexts (cancelledFrom : Option ℕ)
    (snapshot : AnalysisContextSnapshot) :
    ℕ → List String → SnapshotCall Unit
  | _, [] => pure ()
  | number, scope :: scopes => do
      saveScopeContext P env cancelledFrom snapshot number scope
      saveScopeContexts cancelledFrom snapshot (number + 1) scopes

/-- What `_create_snapshot` does up to its first transaction. -/
def prepareSnapshot (request : SnapshotRequest)
    (cancelledFrom : Option ℕ) : SnapshotCall AnalysisContextSnapshot := do
  checkCancel cancelledFrom 1
  Service.read fun _ => validateBudgets P request
  query env.raises .collecting fun s =>
    makeSnapshot P s.sources request (env.newId 0) env.now

/-- What `_create_snapshot` does after its first transaction. -/
def finishSnapshot (cancelledFrom : Option ℕ)
    (snapshot : AnalysisContextSnapshot) :
    SnapshotCall AnalysisContextSnapshot := do
  operation env.raises .stateRows (saveContextRevisionStates
    snapshot.contextSnapshotId snapshot.sourceRevisions)
  saveScopeContexts P env cancelledFrom snapshot 0 snapshot.scopes
  pure snapshot

/-- `_create_snapshot`. -/
def createSnapshot (request : SnapshotRequest) (cancelledFrom : Option ℕ) :
    SnapshotCall AnalysisContextSnapshot := do
  let snapshot ← prepareSnapshot P env request cancelledFrom
  operation env.raises .snapshotRow (saveAnalysisContextSnapshot snapshot)
  finishSnapshot P env cancelledFrom snapshot

/-- `scopes or self._scopes_from_included(included)`. -/
def scopesOr (scopes : List String) (included : ResourceMap) :
    SnapshotCall (List String) :=
  if scopes = [] then
    query env.raises .artifactScopes fun s =>
      .ok (scopesFromIncluded s.sources included)
  else pure scopes

/-- What `build_from_selection` is given. -/
structure Selection where
  caseId : String
  actorId : Option String
  purpose : String
  resources : ResourceMap
  scopes : List String
  filters : List (String × Json)
  timeRange : List (String × Json)
  previousSnapshotId : Option String

def Selection.request (selection : Selection) (states : List RevisionState)
    (scopes : List String) : SnapshotRequest where
  caseId := selection.caseId
  sessionContextId := none
  sessionContextRevision := none
  actorId := selection.actorId
  purpose := selection.purpose
  scopes := scopes
  includedResourceIds := dedupedResources selection.resources
  excludedResourceIds := Table.empty Prod.fst
  filters := selection.filters
  timeRange := selection.timeRange
  sourceRevisions := states
  keywordSetId := none
  keywordSetVersion := none
  searchExecutionId := none
  searchIndexRevision := none
  timelineRevision := none
  previousSnapshotId := selection.previousSnapshotId

/-- What `build_from_selection` reads before it creates the snapshot. -/
def requestOfSelection (selection : Selection) :
    SnapshotCall SnapshotRequest := do
  query env.raises .caseRow fun s => requireCase s.sources selection.caseId
  let included := dedupedResources selection.resources
  let states ← query env.raises .resources fun s =>
    revisionStatesForResources P s.sources selection.caseId included env.now
  let scopes ← scopesOr env selection.scopes included
  pure (selection.request states scopes)

def buildFromSelection (selection : Selection) (cancelledFrom : Option ℕ) :
    SnapshotCall AnalysisContextSnapshot := do
  let request ← requestOfSelection P env selection
  createSnapshot P env request cancelledFrom

def GuiSessionContext.request (context : GuiSessionContext)
    (purpose : String) (states : List RevisionState) (scopes : List String)
    (searchIndexRevision : Option ℤ) (previousSnapshotId : Option String) :
    SnapshotRequest where
  caseId := context.caseId
  sessionContextId := some context.sessionContextId
  sessionContextRevision := some context.contextRevision
  actorId := context.actorId
  purpose := purpose
  scopes := scopes
  includedResourceIds := contextIncludedResources context
  excludedResourceIds := Table.empty Prod.fst
  filters := context.activeFilters
  timeRange := context.activeTimeRange
  sourceRevisions := states
  keywordSetId := context.activeKeywordSetId
  keywordSetVersion := context.activeKeywordSetVersion
  searchExecutionId := context.activeSearchExecutionId
  searchIndexRevision := searchIndexRevision
  timelineRevision := context.activeTimelineRevision
  previousSnapshotId := previousSnapshotId

/-- `get`. -/
def storedContext (sessionContextId : String) :
    SnapshotCall GuiSessionContext :=
  query env.raises .stored fun s =>
    match s.contexts.find? sessionContextId with
    | some context => .ok context
    | none => .error contextNotFoundError

/-- `_search_index_revision`. -/
def searchIndexRevision (searchExecutionId : Option String) :
    SnapshotCall (Option ℤ) :=
  match searchExecutionId with
  | none => pure none
  | some executionId =>
      query env.raises .execution fun s =>
        .ok ((s.sources.executions.find? executionId).map
          SearchExecutionRow.indexRevision)

/-- What `build_from_session` reads before it creates the snapshot. -/
def requestOfSession (sessionContextId purpose : String)
    (scopes : List String) (previousSnapshotId : Option String)
    (cancelledFrom : Option ℕ) : SnapshotCall SnapshotRequest := do
  let context ← storedContext env sessionContextId
  checkCancel cancelledFrom 0
  let states ← query env.raises .resources fun s =>
    validateSourceRevisions P s.sources context env.now
  let scopes ← scopesOr env scopes (contextIncludedResources context)
  let indexRevision ← searchIndexRevision env context.activeSearchExecutionId
  pure (context.request purpose states scopes indexRevision
    previousSnapshotId)

def buildFromSession (sessionContextId purpose : String)
    (scopes : List String) (previousSnapshotId : Option String)
    (cancelledFrom : Option ℕ) : SnapshotCall AnalysisContextSnapshot := do
  let request ← requestOfSession P env sessionContextId purpose scopes
    previousSnapshotId cancelledFrom
  createSnapshot P env request cancelledFrom

def snapshotNotFoundError : PyError :=
  notFoundError "RESOURCE_NOT_FOUND" "Analysis context snapshot not found."
    (some "context_snapshot_id")

def getSnapshot (contextSnapshotId : String) :
    SnapshotCall AnalysisContextSnapshot :=
  query env.raises .stored fun s =>
    match s.snapshots.find? contextSnapshotId with
    | some snapshot => .ok snapshot
    | none => .error snapshotNotFoundError

/-- The resources with the listed ones of one more type. -/
def withListed (resources : ResourceMap)
    (listed : Option (String × List String)) : ResourceMap :=
  match listed with
  | none => resources
  | some (resourceType, resourceIds) => resources.put
      (resourceType, dedupe (idsOf resources resourceType ++ resourceIds))

/-- The selection of a snapshot with other scopes and resources. -/
def AnalysisContextSnapshot.reselect (snapshot : AnalysisContextSnapshot)
    (scopes : List String) (resources : ResourceMap) : Selection where
  caseId := snapshot.caseId
  actorId := snapshot.actorId
  purpose := snapshot.purpose.value
  resources := resources
  scopes := scopes
  filters := snapshot.filters
  timeRange := snapshot.timeRange
  previousSnapshotId := some snapshot.contextSnapshotId

def addScope (contextSnapshotId scope : String) (limit : ℤ) :
    SnapshotCall AnalysisContextSnapshot := do
  let snapshot ← getSnapshot env contextSnapshotId
  if scope ∈ snapshot.scopes then pure snapshot
  else do
    let listed ← query env.raises .listing fun s =>
      .ok (resourceIdsForScope s.sources snapshot.caseId limit scope)
    buildFromSelection P env (snapshot.reselect (snapshot.scopes ++ [scope])
      (withListed snapshot.includedResourceIds listed)) none

/-- The resources whose type is not one of the scope. -/
def withoutTypesOf (resources : ResourceMap) (scope : String) : ResourceMap :=
  resources.filter fun p => p.1 ∉ scopeResourceTypes scope

def removeScope (contextSnapshotId scope : String) :
    SnapshotCall AnalysisContextSnapshot := do
  let snapshot ← getSnapshot env contextSnapshotId
  buildFromSelection P env (snapshot.reselect
    (snapshot.scopes.filter fun item => item ≠ scope)
    (withoutTypesOf snapshot.includedResourceIds scope)) none

/-! ## Refreshing a snapshot -/

/-- `_stale_reason_for_resource_type`. -/
def staleReasonForResourceType (resourceType : String) : StaleReason :=
  if resourceType = ResourceType.evidence.value then .evidenceRevisionChanged
  else if resourceType = ResourceType.fileSystemNode.value then
    .filesystemIndexChanged
  else if resourceType = ResourceType.searchResult.value then
    .searchIndexChanged
  else if resourceType = ResourceType.timelineEvent.value then
    .timelineRevisionChanged
  else if resourceType = ResourceType.machineCandidate.value then
    .candidateReviewChanged
  else .artifactSourceChanged

/-- `_current_revision_state`. -/
def currentRevisionState (sources : Sources) (caseId : String) (now : Instant)
    (resource : String × String) : Except PyError RevisionState := do
  let info ← resourceInfo P sources resource.1 resource.2
  if info.caseId ≠ caseId then
    .error (scopeMismatchError "Selected resource belongs to another case."
      "resource_id" [])
  return stateOf info resource.1 resource.2 now

/-- `previous.current_revision or previous.expected_revision`. -/
def RevisionState.baseline (previous : RevisionState) : Option Revision :=
  (previous.currentRevision.filter Revision.truthy).orElse
    fun _ => previous.expectedRevision

/-- `str(revision)` of a revision or `None`. -/
def revisionText (revision : Option Revision) : String :=
  revision.elim "None" Revision.str

/-- The found revision differs from the baseline, as texts. -/
def RevisionState.differs (previous : RevisionState)
    (found : Option Revision) : Bool :=
  previous.baseline.isSome ∧ revisionText found ≠ revisionText previous.baseline

/-- The state of a resource, or of an execution, that is gone. -/
def missingState (previous : RevisionState) (reason : StaleReason)
    (now : Instant) : RevisionState where
  resourceType := previous.resourceType
  resourceId := previous.resourceId
  expectedRevision := previous.expectedRevision
  currentRevision := none
  status := .missing
  reason := some reason.value
  detectedAt := now

/-- The state of a resource, or of an execution, that is found: `status` and
`reason` are the ones of a revision that is as before. -/
def foundState (previous : RevisionState) (found : Option Revision)
    (staleReason : StaleReason) (status : RevisionStatus)
    (reason : Option String) (now : Instant) : RevisionState where
  resourceType := previous.resourceType
  resourceId := previous.resourceId
  expectedRevision := previous.expectedRevision
  currentRevision := found
  status := if previous.differs found then .stale else status
  reason := if previous.differs found then some staleReason.value else reason
  detectedAt := now

/-- `_refresh_search_execution_state`. -/
def refreshSearchExecutionState (sources : Sources) (caseId : String)
    (now : Instant) (previous : RevisionState) : RevisionState :=
  match (sources.executions.find? previous.resourceId).filter
      fun execution => execution.caseId = caseId with
  | none => missingState previous .searchExecutionStale now
  | some execution =>
      foundState previous (some (.number execution.executionRevision))
        .searchExecutionStale .current none now

def AnalysisContextSnapshot.isExecutionState
    (snapshot : AnalysisContextSnapshot) (state : RevisionState) : Bool :=
  state.resourceType = ResourceType.searchResult.value ∧
    some state.resourceId = snapshot.searchExecutionId

/-- `_refresh_revision_state`. -/
def AnalysisContextSnapshot.refreshRevisionState
    (snapshot : AnalysisContextSnapshot) (sources : Sources) (now : Instant)
    (previous : RevisionState) : RevisionState :=
  if snapshot.isExecutionState previous then
    refreshSearchExecutionState sources snapshot.caseId now previous
  else match currentRevisionState P sources snapshot.caseId now
      (previous.resourceType, previous.resourceId) with
  | .error _ => missingState previous .resourceMissing now
  | .ok current =>
      foundState previous current.currentRevision
        (staleReasonForResourceType previous.resourceType) current.status
        current.reason now

/-- `_refresh_snapshot_source_revisions`. -/
def AnalysisContextSnapshot.refreshSourceRevisions
    (snapshot : AnalysisContextSnapshot) (sources : Sources) (now : Instant) :
    Except PyError (List RevisionState) := do
  let seen := snapshot.sourceRevisions.map fun state =>
    (state.resourceType, state.resourceId)
  let unseen := (resourcePairs snapshot.includedResourceIds).filter
    fun resource => resource ∉ seen
  let added ← unseen.eraseDups.mapM
    (currentRevisionState P sources snapshot.caseId now)
  return snapshot.sourceRevisions.map
    (snapshot.refreshRevisionState P sources now) ++ added

def AnalysisContextSnapshot.request (snapshot : AnalysisContextSnapshot)
    (states : List RevisionState) : SnapshotRequest where
  caseId := snapshot.caseId
  sessionContextId := snapshot.sessionContextId
  sessionContextRevision := snapshot.sessionContextRevision
  actorId := snapshot.actorId
  purpose := snapshot.purpose.value
  scopes := snapshot.scopes
  includedResourceIds := snapshot.includedResourceIds
  excludedResourceIds := snapshot.excludedResourceIds
  filters := snapshot.filters
  timeRange := snapshot.timeRange
  sourceRevisions := states
  keywordSetId := snapshot.keywordSetId
  keywordSetVersion := snapshot.keywordSetVersion
  searchExecutionId := snapshot.searchExecutionId
  searchIndexRevision := snapshot.searchIndexRevision
  timelineRevision := snapshot.timelineRevision
  previousSnapshotId := some snapshot.contextSnapshotId

def refresh (contextSnapshotId : String) :
    SnapshotCall AnalysisContextSnapshot := do
  let snapshot ← getSnapshot env contextSnapshotId
  let states ← query env.raises .resources fun s =>
    snapshot.refreshSourceRevisions P s.sources env.now
  createSnapshot P env (snapshot.request states) none

end

/-! ## All of them -/

/-- The calls that make a snapshot. -/
inductive Call where
  | buildFromSession (sessionContextId purpose : String)
      (scopes : List String) (previousSnapshotId : Option String)
      (cancelledFrom : Option ℕ)
  | buildFromSelection (selection : Selection) (cancelledFrom : Option ℕ)
  | addScope (contextSnapshotId scope : String) (limit : ℤ)
  | removeScope (contextSnapshotId scope : String)
  | refresh (contextSnapshotId : String)

def Call.run (P : Platform) (env : Surroundings) :
    Call → SnapshotCall AnalysisContextSnapshot
  | .buildFromSession sessionContextId purpose scopes previousSnapshotId
      cancelledFrom =>
      Context.buildFromSession P env sessionContextId purpose scopes
        previousSnapshotId cancelledFrom
  | .buildFromSelection selection cancelledFrom =>
      Context.buildFromSelection P env selection cancelledFrom
  | .addScope contextSnapshotId scope limit =>
      Context.addScope P env contextSnapshotId scope limit
  | .removeScope contextSnapshotId scope =>
      Context.removeScope P env contextSnapshotId scope
  | .refresh contextSnapshotId => Context.refresh P env contextSnapshotId

end ApexForensic.Context
