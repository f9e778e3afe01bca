import ApexForensic.Context.Model
import ApexForensic.Timeline.Build

/-!
# Resources of a case

The tables that the context service reads its resources from, what it takes
from a row, and the tables that say which resource type belongs to which
scope.
-/

namespace ApexForensic.Context

open ApexForensic.Support ApexForensic.Domain
open ApexForensic.Timeline (NodeRow ArtifactRow ArtifactType TimelineEvent)

/-! ## The tables -/

structure EvidenceRow where
  evidenceId : String
  caseId : String
  fingerprint : Option String
  updatedAt : Instant

structure SearchQueryRow where
  queryId : String
  caseId : String

structure SearchResultRow where
  resultId : String
  queryId : String
  documentId : String
  rank : ℚ
  isPartial : Bool
  indexRevision : ℕ
  citations : List Json

structure SearchExecutionRow where
  executionId : String
  caseId : String
  indexRevision : ℤ
  executionRevision : ℤ

structure CandidateRow where
  candidateId : String
  caseId : String
  evidenceId : String
  providerId : String
  providerVersion : String
  citations : List Json
  sourceRevision : ℤ
  isPartial : Bool

structure CustodyEventRow where
  eventId : String
  caseId : String
  evidenceId : String
  immutableRevision : ℤ

/-- What the context service reads of the repository. -/
structure Sources where
  cases : List String
  evidence : Table EvidenceRow.evidenceId
  nodes : Table NodeRow.key
  artifacts : Table ArtifactRow.artifactId
  events : Table TimelineEvent.timelineEventId
  queries : Table SearchQueryRow.queryId
  results : Table SearchResultRow.resultId
  executions : Table SearchExecutionRow.executionId
  candidates : Table CandidateRow.candidateId
  custody : Table CustodyEventRow.eventId

/-! ## Scopes -/

/-- `_RESOURCE_SELECTION_FIELDS`, its resource types. -/
def resourceSelectionTypes : List ResourceType :=
  [.fileSystemNode, .artifact, .registry, .eventLog, .prefetch, .browser,
    .media, .timelineEvent, .searchResult, .machineCandidate]

/-- `_ARTIFACT_SCOPE_BY_TYPE`. -/
def artifactScopeByType : ArtifactType → Option AnalysisScopeType
  | .registryKey | .registryValue | .registryAutorun | .registryUsbDevice
  | .registryTimezone | .registryUserassist => some .registry
  | .eventLogRecord => some .eventlog
  | .prefetchExecution => some .prefetch
  | .browserProfile | .browserVisit | .browserSearch | .browserDownload
  | .browserCookie | .browserCredential | .browserCacheEntry
  | .browserDeletedSqliteRow | .browserPrivateModeCandidate => some .browser
  | .mediaImage | .mediaVideo | .mediaAudio => some .media
  | _ => none

/-- `_ARTIFACT_RESOURCE_TYPE_BY_SCOPE`. -/
def artifactResourceTypes : List (AnalysisScopeType × ResourceType) :=
  [(.registry, .registry), (.eventlog, .eventLog), (.prefetch, .prefetch),
    (.browser, .browser), (.media, .media)]

def artifactResourceTypeByScope (scope : String) : Option ResourceType :=
  (artifactResourceTypes.find? fun p => p.1.value = scope).map Prod.snd

/-- `_RESOURCE_SCOPE_BY_TYPE`. -/
def resourceScopes : List (ResourceType × AnalysisScopeType) :=
  [(.evidence, .evidence), (.fileSystemNode, .filesystem),
    (.registry, .registry), (.eventLog, .eventlog), (.prefetch, .prefetch),
    (.browser, .browser), (.media, .media), (.timelineEvent, .timeline),
    (.searchResult, .keywordSearch), (.machineCandidate, .machineCandidate),
    (.custodyEvent, .chainOfCustody)]

def resourceScopeByType (resourceType : String) : Option AnalysisScopeType :=
  (resourceScopes.find? fun p => p.1.value = resourceType).map Prod.snd

/-- `_SELECTION_RESOURCE_TYPES`. -/
def selectionResourceTypes : List ResourceType :=
  .evidence :: resourceSelectionTypes

/-- `_SCOPE_RESOURCE_TYPES`. -/
def scopeResourceTypeTable : List (AnalysisScopeType × List ResourceType) :=
  [(.evidence, [.evidence]), (.filesystem, [.fileSystemNode]),
    (.registry, [.registry]), (.eventlog, [.eventLog]),
    (.prefetch, [.prefetch]), (.browser, [.browser]), (.media, [.media]),
    (.timeline, [.timelineEvent]), (.keywordSearch, [.searchResult]),
    (.machineCandidate, [.machineCandidate]),
    (.chainOfCustody, [.custodyEvent]), (.selection, selectionResourceTypes)]

/-- `_SCOPE_RESOURCE_TYPES.get(scope, ())`. -/
def scopeResourceTypes (scope : String) : List String :=
  ((scopeResourceTypeTable.find? fun p => p.1.value = scope).map
    fun p => p.2.map ResourceType.value).getD []

/-! ## Citations of file-system nodes -/

def engineVersion : String := "0.1.0"
def maxRawReadLength : ℕ := 1024 * 1024

section

variable (P : Platform)

def makeRawLocator (evidenceId sourceFileNodeId sourcePath : String)
    (sourceReference : Option String) (locatorType : String)
    (offset length : Option ℕ) (details : List (String × Json)) : Json :=
  .obj [
    ("evidence_id", .str evidenceId),
    ("source_kind", .str "FILE"),
    ("source_id", .str sourceFileNodeId),
    ("source_path", .str sourcePath),
    ("source_reference", optionalText sourceReference),
    ("locator_type", .str locatorType),
    ("offset", optionalInt (offset.map Nat.cast)),
    ("length", optionalInt (length.map fun n => (min n maxRawReadLength : ℕ))),
    ("encoding", .null),
    ("view_types", texts ["HEX"]),
    ("content_sha256", .null),
    ("limitations", .arr []),
    ("details", .obj details)]

/-- `make_citation` of a file, with the time of its node for `created_at`. -/
def makeCitation (caseId evidenceId sourceFileNodeId sourcePath : String)
    (sourceReference : Option String) (offset length : Option ℕ)
    (rawLocator : Json) (createdAt : String) : Json :=
  let citationKey := canonicalSha256 P.sha256 (.obj [
    ("artifact_id", .null),
    ("source_file_node_id", .str sourceFileNodeId),
    ("source_reference", optionalText sourceReference),
    ("label_index", .int 1)]) []
  .obj [
    ("id", .str (P.uuid5 ("apex-citation-v1:" ++ citationKey))),
    ("label", .str "CIT-001"),
    ("case_id", .str caseId),
    ("evidence_id", .str evidenceId),
    ("source_kind", .str "FILE"),
    ("source_id", .str sourceFileNodeId),
    ("file_id", .str sourceFileNodeId),
    ("artifact_id", .null),
    ("timeline_event_id", .null),
    ("search_result_id", .null),
    ("source_path", .str sourcePath),
    ("source_offset", optionalInt (offset.map Nat.cast)),
    ("source_length",
      optionalInt (length.map fun n => (min n maxRawReadLength : ℕ))),
    ("source_reference", optionalText sourceReference),
    ("excerpt", .null),
    ("content_sha256", .null),
    ("created_at", .str createdAt),
    ("encoding", .null),
    ("raw_locator", rawLocator)]

def nodeCitation (node : NodeRow) : Json :=
  let reference := s!"filesystem-index:{node.indexRevision}"
  let offset := if node.nodeType = .file then some 0 else none
  let length := node.fileSize.filter fun n => n ≠ 0
  let locator := makeRawLocator node.evidenceId node.nodeId node.displayPath
    (some reference) (if node.nodeType = .file then "BYTE_RANGE"
      else "LOGICAL_PATH") offset length
    [("provider_id", .str node.providerId),
      ("index_revision", .int node.indexRevision)]
  makeCitation P node.caseId node.evidenceId node.nodeId node.displayPath
    (some reference) offset length locator node.updatedAt

/-! ## What is known of a resource -/

structure ResourceInfo where
  caseId : String
  evidenceId : Option String
  sourceRevision : Revision
  isPartial : Bool
  citations : List Json
  analyzerId : Option String
  analyzerVersion : Option String

def resourceError (resourceType resourceId : String) : PyError :=
  notFoundError "RESOURCE_NOT_FOUND"
    s!"Resource not found: {resourceType}:{resourceId}" (some "resource_id")

/-- The row of a look-up that must find one. -/
def found {α : Type} (resourceType resourceId : String) (row : Option α) :
    Except PyError α :=
  match row with
  | some row => .ok row
  | none => .error (resourceError resourceType resourceId)

def listItems : Json → List Json
  | .arr items => items
  | _ => []

variable (sources : Sources)

/-- The types under which an artifact can be named. -/
def isArtifactResource (resourceType : String) : Bool :=
  resourceType ∈ [ResourceType.artifact, .registry, .eventLog, .prefetch,
    .browser, .media].map ResourceType.value

def artifactInfo (resourceType : String) (artifact : ArtifactRow) :
    Except PyError ResourceInfo := do
  let artifactScope := artifactScopeByType artifact.artifactType
  let requestedScope := resourceScopeByType resourceType
  if (requestedScope.any fun scope =>
      (artifactResourceTypeByScope scope.value).isSome) ∧
      artifactScope ≠ requestedScope then
    .error (scopeMismatchError
      "Artifact is outside the requested analysis scope." "resource_id"
      [("resource_type", .str resourceType),
        ("resource_id", .str artifact.artifactId),
        ("artifact_type", .str artifact.artifactType.value)])
  return {
    caseId := artifact.caseId
    evidenceId := some artifact.evidenceId
    sourceRevision := .number artifact.indexRevision
    isPartial := artifact.isPartial
    citations := listItems artifact.citations
    analyzerId := some artifact.analyzerId
    analyzerVersion := some artifact.analyzerVersion }

/-- `_resource_info`, but for what only a view shows. -/
def resourceInfo (resourceType resourceId : String) :
    Except PyError ResourceInfo :=
  if resourceType = ResourceType.fileSystemNode.value then do
    let node ← found resourceType resourceId (sources.nodes.find? resourceId)
    return {
      caseId := node.caseId
      evidenceId := some node.evidenceId
      sourceRevision := .number node.indexRevision
      isPartial := node.isPartial
      citations := [nodeCitation P node]
      analyzerId := some node.providerId
      analyzerVersion := some node.providerVersion }
  else if resourceType = ResourceType.evidence.value then do
    let evidence ← found resourceType resourceId
      (sources.evidence.find? resourceId)
    return {
      caseId := evidence.caseId
      evidenceId := some evidence.evidenceId
      sourceRevision := .text ((evidence.fingerprint.filter
        fun value => value ≠ "").getD evidence.updatedAt.text)
      isPartial := false
      citations := []
      analyzerId := some "evidence.manager"
      analyzerVersion := some engineVersion }
  else if isArtifactResource resourceType then do
    let artifact ← found resourceType resourceId
      (sources.artifacts.find? resourceId)
    artifactInfo resourceType artifact
  else if resourceType = ResourceType.timelineEvent.value then do
    let event ← found resourceType resourceId
      (sources.events.find? resourceId)
    return {
      caseId := event.caseId
      evidenceId := some event.evidenceId
      sourceRevision := .number event.timelineRevision
      isPartial := event.isPartial
      citations := listItems event.citations
      analyzerId := event.analyzerId
      analyzerVersion := event.analyzerVersion }
  else if resourceType = ResourceType.searchResult.value then do
    let result ← found resourceType resourceId
      (sources.results.find? resourceId)
    return {
      caseId := ((sources.queries.find? result.queryId).map
        SearchQueryRow.caseId).getD ""
      evidenceId := none
      sourceRevision := .number result.indexRevision
      isPartial := result.isPartial
      citations := result.citations
      analyzerId := some "sqlite-fts5"
      analyzerVersion := none }
  else if resourceType = ResourceType.machineCandidate.value then do
    let candidate ← found resourceType resourceId
      (sources.candidates.find? resourceId)
    return {
      caseId := candidate.caseId
      evidenceId := some candidate.evidenceId
      sourceRevision := .number candidate.sourceRevision
      isPartial := candidate.isPartial
      citations := candidate.citations
      analyzerId := some candidate.providerId
      analyzerVersion := some candidate.providerVersion }
  else if resourceType = ResourceType.custodyEvent.value then do
    let event ← found resourceType resourceId
      (sources.custody.find? resourceId)
    return {
      caseId := event.caseId
      evidenceId := some event.evidenceId
      sourceRevision := .number event.immutableRevision
      isPartial := false
      citations := []
      analyzerId := some "custody.ledger"
      analyzerVersion := some engineVersion }
  else .error (unsupportedTypeError "Unsupported resource type." resourceType)

/-- `_artifact_scope_for_id`. -/
def artifactScopeForId (artifactId : String) : Option AnalysisScopeType :=
  (sources.artifacts.find? artifactId).bind fun artifact =>
    artifactScopeByType artifact.artifactType

/-! ## Revision states -/

/-- The state of a resource at the revision it has. -/
def stateOf (info : ResourceInfo) (resourceType resourceId : String)
    (detectedAt : Instant) : RevisionState where
  resourceType := resourceType
  resourceId := resourceId
  expectedRevision := some info.sourceRevision
  currentRevision := some info.sourceRevision
  status := if info.isPartial then .isPartial else .current
  reason := if info.isPartial then some StaleReason.unknown.value else none
  detectedAt := detectedAt

/-- The pairs of type and id in a map of resources. -/
def resourcePairs (included : ResourceMap) : List (String × String) :=
  included.rows.flatMap fun p => p.2.map fun resourceId => (p.1, resourceId)

def revisionStateForResource (caseId : String) (now : Instant)
    (resource : String × String) : Except PyError RevisionState := do
  let info ← resourceInfo P sources resource.1 resource.2
  if info.caseId ≠ caseId then
    .error (scopeMismatchError "Selected resource belongs to another case."
      "resource_id" [("resource_type", .str resource.1),
        ("resource_id", .str resource.2)])
  return stateOf info resource.1 resource.2 now

/-- `_revision_states_for_resources`. -/
def revisionStatesForResources (caseId : String) (included : ResourceMap)
    (now : Instant) : Except PyError (List RevisionState) :=
  (resourcePairs included).mapM (revisionStateForResource P sources caseId now)

/-- What a fingerprint keeps of a revision state. -/
def RevisionState.stable (state : RevisionState) : Json :=
  .obj [
    ("resource_type", .str state.resourceType),
    ("resource_id", .str state.resourceId),
    ("expected_revision", optionalRevision state.expectedRevision),
    ("current_revision", optionalRevision state.currentRevision),
    ("status", .str state.status.value),
    ("reason", optionalText state.reason)]

/-- `(resource_type, resource_id)` in lexicographic order. -/
def stateOrder (a b : RevisionState) : Prop :=
  orderBy RevisionState.resourceType RevisionState.resourceId a b

instance : DecidableRel stateOrder := fun a b =>
  inferInstanceAs (Decidable
    (orderBy RevisionState.resourceType RevisionState.resourceId a b))

/-- `_stable_revision_states`. -/
def stableRevisionStates (states : List RevisionState) : Json :=
  .arr ((states.insertionSort stateOrder).map RevisionState.stable)

def sourceRevisionFingerprint (states : List RevisionState) : String :=
  canonicalSha256 P.sha256 (stableRevisionStates states) []

def requireCase (caseId : String) : Except PyError Unit := do
  if ¬ caseId ∈ sources.cases then
    .error (notFoundError "CASE_NOT_FOUND" "Case not found."
      (some "case_id"))

end

end ApexForensic.Context
