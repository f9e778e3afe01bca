import ApexForensic.Context.Resources
import ApexForensic.Support.Interleaving

/-!
# Live session contexts

A call on a session context reads the live row, computes the next revision
from it and stores that in one transaction, which overwrites the live row and
adds a revision row unless there is one already.  Calls of any number of
clients interleave between their transactions.
-/

namespace ApexForensic.Context

open ApexForensic.Support ApexForensic.Domain

/-! ## The store -/

/-- The primary key of `gui_session_context_revisions`. -/
def GuiSessionContext.revisionKey (context : GuiSessionContext) : String × ℕ :=
  (context.sessionContextId, context.contextRevision)

/-- The live rows, the revision rows, the tables that hold the resources, and
the time. -/
structure SessionStore where
  contexts : Table GuiSessionContext.sessionContextId
  revisions : Table GuiSessionContext.revisionKey
  sources : Sources
  now : Instant

/-- What `DO UPDATE SET` makes of the live row: the columns it does not name
stay. -/
def GuiSessionContext.excluded (old new : GuiSessionContext) :
    GuiSessionContext :=
  { new with caseId := old.caseId, createdAt := old.createdAt }

/-- Persist the latest live GUI session context and its revision snapshot. -/
def saveGuiSessionContext (store : SessionStore) (context : GuiSessionContext) :
    SessionStore :=
  { store with
    contexts := store.contexts.put
      (((store.contexts.find? context.sessionContextId).map
        fun old => old.excluded context).getD context)
    revisions := (store.revisions.insert context).getD store.revisions }

/-- A committed save: the row the call had read, the row the transaction
found, and what it stored. -/
structure Saved where
  base : GuiSessionContext
  replaced : Option GuiSessionContext
  saved : GuiSessionContext

/-! ## What a call computes -/

/-- The fields that an update may set, each one given or not; `unsupported`
has the names of the other fields that were given. -/
structure ContextUpdates where
  sessionId : Option String := none
  actorId : Option (Option String) := none
  locale : Option String := none
  timezone : Option String := none
  currentRoute : Option String := none
  currentPanel : Option (Option String) := none
  activeEvidenceId : Option (Option String) := none
  selectedFileNodeIds : Option (List String) := none
  selectedArtifactIds : Option (List String) := none
  selectedTimelineEventIds : Option (List String) := none
  selectedSearchResultIds : Option (List String) := none
  selectedMediaArtifactIds : Option (List String) := none
  selectedBrowserArtifactIds : Option (List String) := none
  selectedCandidateIds : Option (List String) := none
  activeFilters : Option (List (String × Json)) := none
  activeSort : Option (List (String × Json)) := none
  activeTimeRange : Option (List (String × Json)) := none
  activeKeywordSetId : Option (Option String) := none
  activeKeywordSetVersion : Option (Option ℤ) := none
  activeSearchExecutionId : Option (Option String) := none
  activeTimelineRevision : Option (Option ℤ) := none
  activeContextScope : Option String := none
  uiPreferences : Option (List (String × Json)) := none
  expiresAt : Option String := none
  unsupported : List String := []

def GuiRoute.all : List GuiRoute :=
  [.caseOverview, .evidence, .fileSystem, .artifacts, .registry, .eventLog,
    .prefetch, .browser, .media, .search, .timeline, .candidates,
    .chainOfCustody, .report, .settings, .unknown]

/-- `GuiRoute(value)`. -/
def guiRoute (value : String) : Except PyError GuiRoute :=
  match GuiRoute.all.find? fun route => route.value = value with
  | some route => .ok route
  | none => .error (.builtin .valueError s!"{value} is not a valid GuiRoute")

def AnalysisScopeType.all : List AnalysisScopeType :=
  [.case, .evidence, .filesystem, .registry, .eventlog, .prefetch, .browser,
    .media, .timeline, .keywordSearch, .machineCandidate, .chainOfCustody,
    .report, .selection]

/-- `AnalysisScopeType(value)`. -/
def analysisScopeType (value : String) : Except PyError AnalysisScopeType :=
  match AnalysisScopeType.all.find? fun scope => scope.value = value with
  | some scope => .ok scope
  | none => .error (.builtin .valueError
      s!"{value} is not a valid AnalysisScopeType")

section

variable (P : Platform)

def refuseUnsupported (updates : ContextUpdates) : Except PyError Unit :=
  match sortedUnique updates.unsupported with
  | name :: _ => .error (validationError
      "Context update contains unsupported fields." (some name) [])
  | [] => .ok ()

def updatedExpiry (context : GuiSessionContext) (updates : ContextUpdates) :
    Except PyError (Option Instant) :=
  match updates.expiresAt with
  | some value => (P.parseTimestamp value).map some
  | none => .ok context.expiresAt

/-- `_apply_updates`. -/
def applyUpdates (context : GuiSessionContext) (updates : ContextUpdates) :
    Except PyError GuiSessionContext := do
  refuseUnsupported updates
  let route ← guiRoute (updates.currentRoute.getD context.currentRoute.value)
  let scope ← analysisScopeType
    (updates.activeContextScope.getD context.activeContextScope.value)
  let expiresAt ← updatedExpiry P context updates
  return { context with
    sessionId := updates.sessionId.getD context.sessionId
    actorId := updates.actorId.getD context.actorId
    locale := updates.locale.getD context.locale
    timezone := updates.timezone.getD context.timezone
    currentRoute := route
    currentPanel := updates.currentPanel.getD context.currentPanel
    activeEvidenceId := updates.activeEvidenceId.getD context.activeEvidenceId
    selectedFileNodeIds := dedupe
      (updates.selectedFileNodeIds.getD context.selectedFileNodeIds)
    selectedArtifactIds := dedupe
      (updates.selectedArtifactIds.getD context.selectedArtifactIds)
    selectedTimelineEventIds := dedupe
      (updates.selectedTimelineEventIds.getD context.selectedTimelineEventIds)
    selectedSearchResultIds := dedupe
      (updates.selectedSearchResultIds.getD context.selectedSearchResultIds)
    selectedMediaArtifactIds := dedupe
      (updates.selectedMediaArtifactIds.getD context.selectedMediaArtifactIds)
    selectedBrowserArtifactIds := dedupe
      (updates.selectedBrowserArtifactIds.getD
        context.selectedBrowserArtifactIds)
    selectedCandidateIds := dedupe
      (updates.selectedCandidateIds.getD context.selectedCandidateIds)
    activeFilters := updates.activeFilters.getD context.activeFilters
    activeSort := updates.activeSort.getD context.activeSort
    activeTimeRange := updates.activeTimeRange.getD context.activeTimeRange
    activeKeywordSetId :=
      updates.activeKeywordSetId.getD context.activeKeywordSetId
    activeKeywordSetVersion :=
      updates.activeKeywordSetVersion.getD context.activeKeywordSetVersion
    activeSearchExecutionId :=
      updates.activeSearchExecutionId.getD context.activeSearchExecutionId
    activeTimelineRevision :=
      updates.activeTimelineRevision.getD context.activeTimelineRevision
    activeContextScope := scope
    uiPreferences := updates.uiPreferences.getD context.uiPreferences
    expiresAt := expiresAt }

/-- `_context_resource_pairs`. -/
def contextResourcePairs (context : GuiSessionContext) :
    List (String × List String) :=
  [(ResourceType.evidence.value, context.activeEvidenceId.toList),
    (ResourceType.fileSystemNode.value, context.selectedFileNodeIds),
    (ResourceType.artifact.value, context.selectedArtifactIds),
    (ResourceType.timelineEvent.value, context.selectedTimelineEventIds),
    (ResourceType.searchResult.value, context.selectedSearchResultIds),
    (ResourceType.media.value, context.selectedMediaArtifactIds),
    (ResourceType.browser.value, context.selectedBrowserArtifactIds),
    (ResourceType.machineCandidate.value, context.selectedCandidateIds)]

/-- `_context_included_resources`. -/
def contextIncludedResources (context : GuiSessionContext) : ResourceMap :=
  Table.filter ⟨contextResourcePairs context, by
    change (_ : List String).Nodup
    simp [contextResourcePairs, ResourceType.value]⟩ fun p => p.2 ≠ []

/-- The revision state of a search execution of the context; its expected
revision is the id of the execution. -/
def executionState (sources : Sources) (caseId executionId : String)
    (now : Instant) : Except PyError RevisionState :=
  match sources.executions.find? executionId with
  | none => .ok {
      resourceType := ResourceType.searchResult.value
      resourceId := executionId
      expectedRevision := none
      currentRevision := none
      status := .missing
      reason := some StaleReason.searchExecutionStale.value
      detectedAt := now }
  | some execution =>
      if execution.caseId ≠ caseId then
        .error (scopeMismatchError "Search execution belongs to another case."
          "active_search_execution_id" [])
      else .ok {
        resourceType := ResourceType.searchResult.value
        resourceId := execution.executionId
        expectedRevision := some (.text executionId)
        currentRevision := some (.number execution.executionRevision)
        status := .current
        reason := none
        detectedAt := now }

/-- `validate_source_revisions`. -/
def validateSourceRevisions (sources : Sources) (context : GuiSessionContext)
    (now : Instant) : Except PyError (List RevisionState) := do
  let states ← revisionStatesForResources P sources context.caseId
    (contextIncludedResources context) now
  match context.activeSearchExecutionId with
  | none => return states
  | some executionId => do
      let state ← executionState sources context.caseId executionId now
      return states ++ [state]

/-- `_validate_context_payload`. -/
def validateContextPayload (context : GuiSessionContext) :
    Except PyError Unit := do
  if maxSelectionIds <
      ((contextResourcePairs context).map fun p => p.2.length).sum then
    .error selectionLimitError
  validateJsonBudget P (.obj context.activeFilters) "active_filters"
  validateJsonBudget P (.obj context.activeSort) "active_sort"
  validateJsonBudget P (.obj context.activeTimeRange) "active_time_range"
  validateJsonBudget P (.obj context.uiPreferences) "ui_preferences"
  if maxContextPayloadBytes <
      (canonicalJsonBytes context.toSchemaDict []).size then
    .error (filterLimitError "Context payload exceeds the maximum size."
      "context")

def notCurrentReasons (states : List RevisionState) : List String :=
  dedupe ((states.filter fun state => state.status ≠ .current).map
    fun state => (state.reason.filter fun value => value ≠ "").getD "UNKNOWN")

def anyPartial (states : List RevisionState) : Bool :=
  states.any fun state => state.status = .isPartial

/-- The revision that `_persist_context_update` stores. -/
def nextRevision (context : GuiSessionContext) (expectedRevision : ℕ)
    (states : List RevisionState) (now : Instant) : GuiSessionContext :=
  { context with
    contextRevision := expectedRevision + 1
    updatedAt := now
    isPartial := anyPartial states
    sourceRevisionFingerprint := sourceRevisionFingerprint P states
    staleReasons := notCurrentReasons states }

/-- The stale reasons that a refresh finds. -/
def refreshedReasons (context : GuiSessionContext)
    (states : List RevisionState) : List String :=
  if sourceRevisionFingerprint P states = context.sourceRevisionFingerprint
  then context.staleReasons
  else
    let reasons := dedupe (context.staleReasons ++
      (states.filter fun state => state.status ≠ .current).map fun state =>
        (state.reason.filter fun value => value ≠ "").getD
          StaleReason.unknown.value)
    if reasons = [] then [StaleReason.unknown.value] else reasons

def GuiSessionContext.refreshed (context : GuiSessionContext)
    (states : List RevisionState) (now : Instant) : GuiSessionContext :=
  { context with
    isPartial := anyPartial states
    staleReasons := refreshedReasons P context states
    updatedAt := now }

/-- The refresh has changed one of the fields it replaces. -/
def GuiSessionContext.changed (context refreshed : GuiSessionContext) : Bool :=
  refreshed.isPartial ≠ context.isPartial ||
    refreshed.staleReasons ≠ context.staleReasons ||
    refreshed.updatedAt ≠ context.updatedAt

end

/-! ## Selections -/

inductive SelectionMode where
  | replace | append | remove

/-- The field that a resource type is selected in. -/
inductive SelectionField where
  | fileNodes | artifacts | browserArtifacts | mediaArtifacts
  | timelineEvents | searchResults | candidates

/-- `_RESOURCE_SELECTION_FIELDS`. -/
def selectionField? (resourceType : String) : Option SelectionField :=
  if resourceType = ResourceType.fileSystemNode.value then some .fileNodes
  else if resourceType ∈ [ResourceType.artifact, .registry, .eventLog,
      .prefetch].map ResourceType.value then some .artifacts
  else if resourceType = ResourceType.browser.value then
    some .browserArtifacts
  else if resourceType = ResourceType.media.value then some .mediaArtifacts
  else if resourceType = ResourceType.timelineEvent.value then
    some .timelineEvents
  else if resourceType = ResourceType.searchResult.value then
    some .searchResults
  else if resourceType = ResourceType.machineCandidate.value then
    some .candidates
  else none

def selectionField (resourceType : String) : Except PyError SelectionField :=
  match selectionField? resourceType with
  | some field => .ok field
  | none => .error (unsupportedTypeError
      "Unsupported selection resource type." resourceType)

def SelectionField.get (context : GuiSessionContext) :
    SelectionField → List String
  | fileNodes => context.selectedFileNodeIds
  | artifacts => context.selectedArtifactIds
  | browserArtifacts => context.selectedBrowserArtifactIds
  | mediaArtifacts => context.selectedMediaArtifactIds
  | timelineEvents => context.selectedTimelineEventIds
  | searchResults => context.selectedSearchResultIds
  | candidates => context.selectedCandidateIds

def SelectionField.update (values : List String) :
    SelectionField → ContextUpdates
  | fileNodes => { selectedFileNodeIds := some values }
  | artifacts => { selectedArtifactIds := some values }
  | browserArtifacts => { selectedBrowserArtifactIds := some values }
  | mediaArtifacts => { selectedMediaArtifactIds := some values }
  | timelineEvents => { selectedTimelineEventIds := some values }
  | searchResults => { selectedSearchResultIds := some values }
  | candidates => { selectedCandidateIds := some values }

/-- `mode` as the service takes it. -/
def selectionMode (mode : String) : Except PyError SelectionMode :=
  if mode = "append" then .ok .append
  else if mode = "remove" then .ok .remove
  else if mode = "replace" then .ok .replace
  else .error (validationError
    "Selection mode must be replace, append, or remove." (some "mode") [])

def selectedValues (existing resourceIds : List String) :
    SelectionMode → List String
  | .append => dedupe (existing ++ resourceIds)
  | .remove => existing.filter fun item => item ∉ resourceIds
  | .replace => dedupe resourceIds

def clearedSelection : ContextUpdates where
  selectedFileNodeIds := some []
  selectedArtifactIds := some []
  selectedTimelineEventIds := some []
  selectedSearchResultIds := some []
  selectedMediaArtifactIds := some []
  selectedBrowserArtifactIds := some []
  selectedCandidateIds := some []

/-! ## The calls -/

structure RefreshReport where
  sessionContext : GuiSessionContext
  sourceRevisionFingerprint : String
  currentSourceRevisionFingerprint : String
  revisionStates : List RevisionState
  stale : Bool

inductive Reply where
  | context (context : GuiSessionContext)
  | report (report : RefreshReport)
  | nothing

/-- The calls on session contexts, and what else happens to the store: time
passes and other services change the resources. -/
inductive Request where
  | update (sessionContextId : String) (expectedRevision : ℕ)
      (updates : ContextUpdates)
  | selectItems (sessionContextId : String) (expectedRevision : ℕ)
      (resourceType : String) (resourceIds : List String) (mode : String)
  | clearSelection (sessionContextId : String) (expectedRevision : ℕ)
  | refreshRevisionState (sessionContextId : String)
      (expectedRevision : Option ℕ)
  | expire (sessionContextId : String) (expectedRevision : Option ℕ)
  | elapse (time : Instant)
  | changeSources (sources : Sources)

abbrev SessionScript := Script SessionStore Saved PyError

def contextNotFoundError : PyError :=
  notFoundError "RESOURCE_NOT_FOUND" "GUI session context not found."
    (some "session_context_id")

/-- `get`: the read of the live row. -/
def getContext (sessionContextId : String) : SessionScript GuiSessionContext := do
  match ← Script.read fun s => s.contexts.find? sessionContextId with
  | some context => pure context
  | none => Script.raise contextNotFoundError

def clockNow : SessionScript Instant := Script.read SessionStore.now

/-- `_ensure_live`. -/
def ensureLive (context : GuiSessionContext) : SessionScript Unit := do
  let now ← clockNow
  if context.expiresAt.any fun t => t.micros ≤ now.micros then
    Script.raise contextExpiredError
  else pure ()

def ensureRevision (context : GuiSessionContext) (expectedRevision : ℕ) :
    SessionScript Unit :=
  if context.contextRevision ≠ expectedRevision then
    Script.raise revisionConflictError
  else pure ()

/-- The transaction of `save_gui_session_context`. -/
def saveContext (base saved : GuiSessionContext) : SessionScript Unit :=
  Script.write fun s =>
    (saveGuiSessionContext s saved,
      [⟨base, s.contexts.find? saved.sessionContextId, saved⟩])

section

variable (P : Platform)

/-- `validate_source_revisions` on the resources as they are now. -/
def validateNow (context : GuiSessionContext) :
    SessionScript (List RevisionState) := do
  match ← Script.read fun s =>
      validateSourceRevisions P s.sources context s.now with
  | .ok states => pure states
  | .error error => Script.raise error

def persistContextUpdate (base updated : GuiSessionContext)
    (expectedRevision : ℕ) : SessionScript GuiSessionContext := do
  let states ← validateNow P updated
  let now ← clockNow
  let saved := nextRevision P updated expectedRevision states now
  match validateContextPayload P saved with
  | .error error => Script.raise error
  | .ok () => do
      saveContext base saved
      pure saved

def update (sessionContextId : String) (expectedRevision : ℕ)
    (updates : ContextUpdates) : SessionScript GuiSessionContext := do
  let context ← getContext sessionContextId
  ensureLive context
  ensureRevision context expectedRevision
  match applyUpdates P context updates with
  | .error error => Script.raise error
  | .ok updated => persistContextUpdate P context updated expectedRevision

/-- A selection reads the live row, and the update it makes reads it again. -/
def selectItems (sessionContextId : String) (expectedRevision : ℕ)
    (resourceType : String) (resourceIds : List String) (mode : String) :
    SessionScript GuiSessionContext := do
  let context ← getContext sessionContextId
  ensureLive context
  ensureRevision context expectedRevision
  match selectionField resourceType with
  | .error error => Script.raise error
  | .ok field =>
      match selectionMode mode with
      | .error error => Script.raise error
      | .ok mode =>
          update P sessionContextId expectedRevision
            (field.update (selectedValues (field.get context) resourceIds mode))

def refreshRevisionState (sessionContextId : String)
    (expectedRevision : Option ℕ) : SessionScript RefreshReport := do
  let context ← getContext sessionContextId
  ensureLive context
  ensureRevision context (expectedRevision.getD context.contextRevision)
  let states ← validateNow P context
  let now ← clockNow
  let refreshed := context.refreshed P states now
  let report := fun sessionContext : GuiSessionContext =>
    { sessionContext := sessionContext
      sourceRevisionFingerprint := context.sourceRevisionFingerprint
      currentSourceRevisionFingerprint := sourceRevisionFingerprint P states
      revisionStates := states
      stale := refreshed.staleReasons ≠ [] : RefreshReport }
  if context.changed refreshed then do
    let saved := { refreshed with
      contextRevision := context.contextRevision + 1 }
    saveContext context saved
    pure (report saved)
  else pure (report refreshed)

def expire (sessionContextId : String) (expectedRevision : Option ℕ) :
    SessionScript GuiSessionContext := do
  let context ← getContext sessionContextId
  ensureRevision context (expectedRevision.getD context.contextRevision)
  let expiresAt ← clockNow
  let updatedAt ← clockNow
  let expired := { context with
    contextRevision := context.contextRevision + 1
    expiresAt := some expiresAt
    updatedAt := updatedAt }
  saveContext context expired
  pure expired

def script : Request → SessionScript Reply
  | .update id expectedRevision updates =>
      Reply.context <$> update P id expectedRevision updates
  | .selectItems id expectedRevision resourceType resourceIds mode =>
      Reply.context <$>
        selectItems P id expectedRevision resourceType resourceIds mode
  | .clearSelection id expectedRevision =>
      Reply.context <$> update P id expectedRevision clearedSelection
  | .refreshRevisionState id expectedRevision =>
      Reply.report <$> refreshRevisionState P id expectedRevision
  | .expire id expectedRevision =>
      Reply.context <$> expire id expectedRevision
  | .elapse time => do
      Script.write fun s => ({ s with
        now := if s.now.micros ≤ time.micros then time else s.now }, [])
      pure .nothing
  | .changeSources sources => do
      Script.write fun s => ({ s with sources := sources }, [])
      pure .nothing

end

end ApexForensic.Context
