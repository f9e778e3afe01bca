import ApexForensic.Domain.Canonical
import ApexForensic.Domain.PyJson
import ApexForensic.Domain.Table
import ApexForensic.Domain.TimeOrder
import ApexForensic.Support.PyText

/-!
# Session contexts and analysis snapshots

A session context is the live state of a GUI session; an analysis snapshot is
an immutable list of resources with the revision each of them had.  Resource
types and scopes are texts where the service takes them as texts.
-/

namespace ApexForensic.Context

open ApexForensic.Support ApexForensic.Domain

def maxSelectionIds : ℕ := 1000
def maxFilterBytes : ℕ := 64 * 1024
def contextJsonDepth : ℕ := 8
def maxScopeItems : ℕ := 1000
def maxContextPayloadBytes : ℕ := 256 * 1024
def maxCitations : ℕ := 100

/-- What the context service takes from the Python library. -/
structure Platform where
  casefold : String → String
  sha256 : ByteArray → String
  uuid5 : String → String
  parseTimestamp : String → Except PyError Instant

/-! ## Enumerations -/

inductive AnalysisScopeType where
  | case | evidence | filesystem | registry | eventlog | prefetch | browser
  | media | timeline | keywordSearch | machineCandidate | chainOfCustody
  | report | selection
  deriving DecidableEq

def AnalysisScopeType.value : AnalysisScopeType → String
  | case => "case"
  | evidence => "evidence"
  | filesystem => "filesystem"
  | registry => "registry"
  | eventlog => "eventlog"
  | prefetch => "prefetch"
  | browser => "browser"
  | media => "media"
  | timeline => "timeline"
  | keywordSearch => "keyword_search"
  | machineCandidate => "machine_candidate"
  | chainOfCustody => "chain_of_custody"
  | report => "report"
  | selection => "selection"

inductive ResourceType where
  | evidence | fileSystemNode | artifact | registry | eventLog | prefetch
  | browser | media | timelineEvent | searchResult | machineCandidate
  | custodyEvent | contextSnapshot | other
  deriving DecidableEq

def ResourceType.value : ResourceType → String
  | evidence => "EVIDENCE"
  | fileSystemNode => "FILE_SYSTEM_NODE"
  | artifact => "ARTIFACT"
  | registry => "REGISTRY"
  | eventLog => "EVENT_LOG"
  | prefetch => "PREFETCH"
  | browser => "BROWSER"
  | media => "MEDIA"
  | timelineEvent => "TIMELINE_EVENT"
  | searchResult => "SEARCH_RESULT"
  | machineCandidate => "MACHINE_CANDIDATE"
  | custodyEvent => "CUSTODY_EVENT"
  | contextSnapshot => "CONTEXT_SNAPSHOT"
  | other => "OTHER"

inductive RevisionStatus where
  | current | stale | missing | isPartial | unknown
  deriving DecidableEq

def RevisionStatus.value : RevisionStatus → String
  | current => "CURRENT"
  | stale => "STALE"
  | missing => "MISSING"
  | isPartial => "PARTIAL"
  | unknown => "UNKNOWN"

inductive StaleReason where
  | evidenceRevisionChanged | filesystemIndexChanged | artifactSourceChanged
  | searchIndexChanged | searchExecutionStale | timelineRevisionChanged
  | keywordSetVersionChanged | candidateReviewChanged | resourceMissing
  | providerVersionChanged | unknown

def StaleReason.value : StaleReason → String
  | evidenceRevisionChanged => "EVIDENCE_REVISION_CHANGED"
  | filesystemIndexChanged => "FILESYSTEM_INDEX_CHANGED"
  | artifactSourceChanged => "ARTIFACT_SOURCE_CHANGED"
  | searchIndexChanged => "SEARCH_INDEX_CHANGED"
  | searchExecutionStale => "SEARCH_EXECUTION_STALE"
  | timelineRevisionChanged => "TIMELINE_REVISION_CHANGED"
  | keywordSetVersionChanged => "KEYWORD_SET_VERSION_CHANGED"
  | candidateReviewChanged => "CANDIDATE_REVIEW_CHANGED"
  | resourceMissing => "RESOURCE_MISSING"
  | providerVersionChanged => "PROVIDER_VERSION_CHANGED"
  | unknown => "UNKNOWN"

inductive GuiRoute where
  | caseOverview | evidence | fileSystem | artifacts | registry | eventLog
  | prefetch | browser | media | search | timeline | candidates
  | chainOfCustody | report | settings | unknown
  deriving DecidableEq

def GuiRoute.value : GuiRoute → String
  | caseOverview => "CASE_OVERVIEW"
  | evidence => "EVIDENCE"
  | fileSystem => "FILE_SYSTEM"
  | artifacts => "ARTIFACTS"
  | registry => "REGISTRY"
  | eventLog => "EVENT_LOG"
  | prefetch => "PREFETCH"
  | browser => "BROWSER"
  | media => "MEDIA"
  | search => "SEARCH"
  | timeline => "TIMELINE"
  | candidates => "CANDIDATES"
  | chainOfCustody => "CHAIN_OF_CUSTODY"
  | report => "REPORT"
  | settings => "SETTINGS"
  | unknown => "UNKNOWN"

inductive AnalysisContextPurpose where
  | aiRequest | mcpRequest | reportDraft | reportReview | analystBookmark
  | audit | export_ | other
  deriving DecidableEq

def AnalysisContextPurpose.value : AnalysisContextPurpose → String
  | aiRequest => "AI_REQUEST"
  | mcpRequest => "MCP_REQUEST"
  | reportDraft => "REPORT_DRAFT"
  | reportReview => "REPORT_REVIEW"
  | analystBookmark => "ANALYST_BOOKMARK"
  | audit => "AUDIT"
  | export_ => "EXPORT"
  | other => "OTHER"

/-! ## Revisions -/

/-- The revision of a resource: a number, or a text for evidence. -/
inductive Revision where
  | number (n : ℤ)
  | text (s : String)
  deriving DecidableEq

namespace Revision

/-- `str(revision)`. -/
def str : Revision → String
  | number n => toString n
  | text s => s

/-- `bool(revision)`. -/
def truthy : Revision → Bool
  | number n => n ≠ 0
  | text s => s ≠ ""

def toJson : Revision → Json
  | number n => .int n
  | text s => .str s

end Revision

/-- A revision or `None`. -/
def optionalRevision (revision : Option Revision) : Json :=
  revision.elim .null Revision.toJson

def optionalInt (value : Option ℤ) : Json :=
  value.elim .null .int

/-- Current/stale/partial state for a referenced resource revision. -/
structure RevisionState where
  resourceType : String
  resourceId : String
  expectedRevision : Option Revision
  currentRevision : Option Revision
  status : RevisionStatus
  reason : Option String
  detectedAt : Instant
  deriving DecidableEq

/-! ## Contexts -/

/-- Live GUI session state persisted as selected IDs and query options. -/
structure GuiSessionContext where
  sessionContextId : String
  sessionId : String
  caseId : String
  actorId : Option String
  locale : String
  timezone : String
  currentRoute : GuiRoute
  currentPanel : Option String
  activeEvidenceId : Option String
  selectedFileNodeIds : List String
  selectedArtifactIds : List String
  selectedTimelineEventIds : List String
  selectedSearchResultIds : List String
  selectedMediaArtifactIds : List String
  selectedBrowserArtifactIds : List String
  selectedCandidateIds : List String
  activeFilters : List (String × Json)
  activeSort : List (String × Json)
  activeTimeRange : List (String × Json)
  activeKeywordSetId : Option String
  activeKeywordSetVersion : Option ℤ
  activeSearchExecutionId : Option String
  activeTimelineRevision : Option ℤ
  activeContextScope : AnalysisScopeType
  uiPreferences : List (String × Json)
  contextRevision : ℕ
  sourceRevisionFingerprint : String
  isPartial : Bool
  staleReasons : List String
  createdAt : Instant
  updatedAt : Instant
  expiresAt : Option Instant

/-- A list of texts as a JSON value. -/
def texts (values : List String) : Json :=
  .arr (values.map .str)

def GuiSessionContext.toSchemaDict (context : GuiSessionContext) : Json :=
  .obj [
    ("session_context_id", .str context.sessionContextId),
    ("session_id", .str context.sessionId),
    ("case_id", .str context.caseId),
    ("actor_id", optionalText context.actorId),
    ("locale", .str context.locale),
    ("timezone", .str context.timezone),
    ("current_route", .str context.currentRoute.value),
    ("current_panel", optionalText context.currentPanel),
    ("active_evidence_id", optionalText context.activeEvidenceId),
    ("selected_file_node_ids", texts context.selectedFileNodeIds),
    ("selected_artifact_ids", texts context.selectedArtifactIds),
    ("selected_timeline_event_ids", texts context.selectedTimelineEventIds),
    ("selected_search_result_ids", texts context.selectedSearchResultIds),
    ("selected_media_artifact_ids", texts context.selectedMediaArtifactIds),
    ("selected_browser_artifact_ids",
      texts context.selectedBrowserArtifactIds),
    ("selected_candidate_ids", texts context.selectedCandidateIds),
    ("active_filters", .obj context.activeFilters),
    ("active_sort", .obj context.activeSort),
    ("active_time_range", .obj context.activeTimeRange),
    ("active_keyword_set_id", optionalText context.activeKeywordSetId),
    ("active_keyword_set_version",
      optionalInt context.activeKeywordSetVersion),
    ("active_search_execution_id",
      optionalText context.activeSearchExecutionId),
    ("active_timeline_revision", optionalInt context.activeTimelineRevision),
    ("active_context_scope", .str context.activeContextScope.value),
    ("ui_preferences", .obj context.uiPreferences),
    ("context_revision", .int context.contextRevision),
    ("source_revision_fingerprint", .str context.sourceRevisionFingerprint),
    ("is_partial", .bool context.isPartial),
    ("stale_reasons", texts context.staleReasons),
    ("created_at", .str context.createdAt.text),
    ("updated_at", .str context.updatedAt.text),
    ("expires_at", optionalText (context.expiresAt.map Instant.text))]

/-- The resource ids of a snapshot, for each resource type: a dictionary. -/
abbrev ResourceMap := Table (Prod.fst : String × List String → String)

/-- Immutable analysis context used for AI, MCP, reports, audit, and export. -/
structure AnalysisContextSnapshot where
  contextSnapshotId : String
  caseId : String
  sessionContextId : Option String
  sessionContextRevision : Option ℕ
  actorId : Option String
  purpose : AnalysisContextPurpose
  scopes : List String
  includedResourceIds : ResourceMap
  excludedResourceIds : ResourceMap
  filters : List (String × Json)
  timeRange : List (String × Json)
  sourceRevisions : List RevisionState
  analyzerVersions : List (String × String)
  searchIndexRevision : Option ℤ
  timelineRevision : Option ℤ
  keywordSetId : Option String
  keywordSetVersion : Option ℤ
  searchExecutionId : Option String
  partialState : Json
  staleState : Json
  citations : List Json
  contextFingerprint : String
  previousSnapshotId : Option String
  createdAt : Instant

/-- One scope page summary inside an immutable analysis context snapshot. -/
structure AnalysisScopeContext where
  scopeContextId : String
  contextSnapshotId : String
  scopeType : String
  caseId : String
  evidenceIds : List String
  resourceIds : List String
  sourceRevisions : List RevisionState
  analyzerVersions : List (String × String)
  filters : List (String × Json)
  timeRange : List (String × Json)
  resultCount : ℕ
  includedCount : ℕ
  isPartial : Bool
  coverage : Json
  staleReasons : List String
  citations : List Json
  continuationCursor : Option Json
  scopeFingerprint : String
  createdAt : Instant

/-! ## Errors -/

def contextError (code developerMessage target : String)
    (details : List (String × Json)) (retryable : Bool) : PyError :=
  .apex
    { code := code
      messageKey := codeMessageKey code
      developerMessage := some developerMessage
      target := some target
      retryable := retryable
      details := details }

def revisionConflictError : PyError :=
  contextError "CONTEXT_REVISION_CONFLICT"
    "GUI session context revision conflict." "expected_revision" [] true

def contextExpiredError : PyError :=
  contextError "CONTEXT_EXPIRED"
    "Expired GUI session contexts cannot be modified." "session_context_id"
    [] false

def scopeMismatchError (developerMessage target : String)
    (details : List (String × Json)) : PyError :=
  contextError "CONTEXT_SCOPE_MISMATCH" developerMessage target details false

def filterLimitError (developerMessage target : String) : PyError :=
  contextError "CONTEXT_FILTER_LIMIT_EXCEEDED" developerMessage target []
    false

def selectionLimitError : PyError :=
  contextError "CONTEXT_SELECTION_LIMIT_EXCEEDED"
    "Context selection exceeds the maximum item count." "selection" [] false

/-- `UnsupportedCapabilityError`. -/
def unsupportedTypeError (developerMessage resourceType : String) : PyError :=
  .apex
    { code := "CAPABILITY_UNAVAILABLE"
      messageKey := "error.evidence.capability_unavailable"
      developerMessage := some developerMessage
      target := some "resource_type"
      retryable := false
      details := [("required_capability", .str resourceType)] }

def operationCancelledError : PyError :=
  .apex
    { code := "OPERATION_CANCELLED"
      messageKey := "error.operation_cancelled"
      developerMessage := some "Operation was cancelled."
      target := none
      retryable := true
      details := [] }

/-! ## JSON budgets -/

def secretKeyParts : List String :=
  ["api_key", "apikey", "secret", "token", "credential", "password", "prompt"]

def rawBlobKeys : List String := ["raw_blob", "blob", "binary", "bytes"]

section

variable (P : Platform)

/-- `str(key).casefold().replace("-", "_")`. -/
def normalizedKey (key : String) : String :=
  String.ofList ((P.casefold key).toList.map fun c =>
    if c = '-' then '_' else c)

def isSecretKey (key : String) : Bool :=
  secretKeyParts.any fun part => containsText part (normalizedKey P key)

def isRawBlobKey (key : String) : Bool :=
  rawBlobKeys.any fun part => part = normalizedKey P key

mutual

def rejectForbiddenJson (target : String) : Json → Except PyError Unit
  | .obj fields => rejectForbiddenFields target fields
  | .arr items => rejectForbiddenItems target items
  | _ => .ok ()

def rejectForbiddenItems (target : String) : List Json → Except PyError Unit
  | [] => .ok ()
  | item :: items => do
      rejectForbiddenJson target item
      rejectForbiddenItems target items

def rejectForbiddenFields (target : String) :
    List (String × Json) → Except PyError Unit
  | [] => .ok ()
  | (key, item) :: fields => do
      if isSecretKey P key then
        .error (validationError
          "Context data cannot store secrets, prompts, or credentials."
          (some target) [])
      if isRawBlobKey P key then
        .error (validationError "Context data cannot store raw binary blobs."
          (some target) [])
      rejectForbiddenJson target item
      rejectForbiddenFields target fields

end

def validateJsonBudget (value : Json) (target : String) :
    Except PyError Unit := do
  rejectForbiddenJson P target value
  if contextJsonDepth < depth 0 value then
    .error (filterLimitError "Context JSON exceeds the maximum depth." target)
  if maxFilterBytes < (canonicalJsonBytes value []).size then
    .error (filterLimitError
      "Context JSON exceeds the maximum serialized size." target)

mutual

def redact : Json → Json
  | .obj fields => .obj (redactFields fields)
  | .arr items => .arr (redactItems items)
  | value => value

def redactItems : List Json → List Json
  | [] => []
  | item :: items => redact item :: redactItems items

def redactFields : List (String × Json) → List (String × Json)
  | [] => []
  | (key, item) :: fields =>
      (key, if isSecretKey P key then .str "[REDACTED]"
        else if isRawBlobKey P key then .str "[REDACTED_BLOB]"
        else redact item) :: redactFields fields

end

end

/-! ## Lists of ids -/

/-- The distinct texts that are not empty, in order. -/
def dedupe (values : List String) : List String :=
  sortedUnique (values.filter fun value => value ≠ "")

theorem mem_dedupe {values : List String} {v : String} :
    v ∈ dedupe values ↔ v ∈ values ∧ v ≠ "" := by
  rw [dedupe, mem_sortedUnique, List.mem_filter, decide_eq_true_eq]

end ApexForensic.Context
