import ApexForensic.Ai.Model
import ApexForensic.Context.Resources
import ApexForensic.Support.Run
import Mathlib.Data.Prod.Lex

/-!
# Executing an AI assistance request

A call checks the revisions that its request captured, looks for a stored
result, dispatches the provider and stores what it answers.  Each of these is a
moment of its own: between two of them other calls go on, sources are written,
requests expire and time passes.
-/

namespace ApexForensic.Ai

open ApexForensic.Support ApexForensic.Domain
open ApexForensic.Context (AnalysisContextSnapshot RevisionState RevisionStatus
  Revision Sources resourceInfo)

/-! ## Requests and results -/

inductive RequestedOperation where
  | recommendKeywords | summarizeScope | generateReportDraft | explainSelection
  | suggestNextAnalysis | other
  deriving DecidableEq

def RequestedOperation.value : RequestedOperation → String
  | recommendKeywords => "RECOMMEND_KEYWORDS"
  | summarizeScope => "SUMMARIZE_SCOPE"
  | generateReportDraft => "GENERATE_REPORT_DRAFT"
  | explainSelection => "EXPLAIN_SELECTION"
  | suggestNextAnalysis => "SUGGEST_NEXT_ANALYSIS"
  | other => "OTHER"

/-- The members, as the enumeration lists them. -/
def RequestedOperation.all : List RequestedOperation :=
  [.recommendKeywords, .summarizeScope, .generateReportDraft,
    .explainSelection, .suggestNextAnalysis, .other]

/-- An AI assistance request, with what its execution reads of it. -/
structure AssistanceRequest where
  assistanceRequestId : String
  caseId : String
  contextSnapshotId : String
  requestedOperations : List String
  expiresAt : Instant
  requestFingerprint : String

/-- A row of `ai_keyword_recommendations`; `contents` is its schema value
without the generated fields. -/
structure RecommendationRow where
  recommendationId : String
  contentFingerprint : String
  contents : Json

/-- A row of `ai_keyword_recommendation_batches` with the recommendations of
the batch. -/
structure KeywordBatch where
  recommendationBatchId : String
  assistanceRequestId : String
  contextSnapshotId : String
  providerId : String
  providerVersion : String
  modelId : String
  externalRequestId : Option String
  resultHash : String
  warnings : List Json
  recommendations : List RecommendationRow
  createdAt : Instant

/-- A row of `ai_scope_summaries`. -/
structure ScopeSummary where
  scopeSummaryId : String
  assistanceRequestId : String
  contextSnapshotId : String
  scopeContextId : String
  providerId : String
  providerVersion : String
  modelId : String
  externalRequestId : Option String
  contents : List (String × Json)
  contentFingerprint : String
  createdAt : Instant

inductive StoredResult where
  | batch (batch : KeywordBatch)
  | summary (summary : ScopeSummary)

namespace StoredResult

def resultId : StoredResult → String
  | batch b => b.recommendationBatchId
  | summary s => s.scopeSummaryId

def requestId : StoredResult → String
  | batch b => b.assistanceRequestId
  | summary s => s.assistanceRequestId

def operation : StoredResult → String
  | batch _ => RequestedOperation.recommendKeywords.value
  | summary _ => RequestedOperation.summarizeScope.value

def createdAt : StoredResult → Instant
  | batch b => b.createdAt
  | summary s => s.createdAt

/-- The request and the operation that a result answers. -/
def key (result : StoredResult) : String × String :=
  (result.requestId, result.operation)

/-- `ORDER BY created_at, recommendation_batch_id`, and the like for
summaries. -/
def order (result : StoredResult) : String ×ₗ String :=
  toLex (result.createdAt.text, result.resultId)

end StoredResult

structure ExecutionStore where
  requests : Table AssistanceRequest.assistanceRequestId
  snapshots : Table AnalysisContextSnapshot.contextSnapshotId
  sources : Sources
  batches : Table KeywordBatch.recommendationBatchId
  summaries : Table ScopeSummary.scopeSummaryId
  now : Instant

namespace ExecutionStore

variable (store : ExecutionStore)

def results : List StoredResult :=
  store.batches.rows.map .batch ++ store.summaries.rows.map .summary

/-- The results stored for a request and an operation. -/
def resultsFor (key : String × String) : List StoredResult :=
  store.results.filter fun result => result.key = key

/-- `get_ai_keyword_batch_by_request` and `get_ai_scope_summary_by_request`:
the first row of the request. -/
def firstResult (requestId operation : String) : Option StoredResult :=
  let rows :=
    if operation = RequestedOperation.recommendKeywords.value then
      store.batches.rows.map .batch
    else store.summaries.rows.map .summary
  ((rows.filter fun result => result.requestId = requestId).insertionSort
    fun a b => a.order ≤ b.order).head?

def snapshotOf (requestId : String) : Option AnalysisContextSnapshot :=
  (store.requests.find? requestId).bind fun request =>
    store.snapshots.find? request.contextSnapshotId

end ExecutionStore

/-! ## Unique constraints -/

def batchConstraints : List (String × (KeywordBatch → KeywordBatch → Bool)) :=
  [("ai_keyword_recommendation_batches.assistance_request_id, " ++
      "ai_keyword_recommendation_batches.result_hash",
    fun a b => a.assistanceRequestId = b.assistanceRequestId &&
      a.resultHash = b.resultHash)]

def recommendationConstraints : List (String ×
    (String × RecommendationRow → String × RecommendationRow → Bool)) :=
  [("ai_keyword_recommendations.recommendation_id",
    fun a b => a.2.recommendationId = b.2.recommendationId),
    ("ai_keyword_recommendations.recommendation_batch_id, " ++
      "ai_keyword_recommendations.content_fingerprint",
    fun a b => a.1 = b.1 && a.2.contentFingerprint = b.2.contentFingerprint)]

def summaryConstraints : List (String × (ScopeSummary → ScopeSummary → Bool)) :=
  [("ai_scope_summaries.assistance_request_id, " ++
      "ai_scope_summaries.scope_context_id, " ++
      "ai_scope_summaries.content_fingerprint",
    fun a b => a.assistanceRequestId = b.assistanceRequestId &&
      a.scopeContextId = b.scopeContextId &&
      a.contentFingerprint = b.contentFingerprint)]

/-- The rows of `ai_keyword_recommendations` of a batch, each with its
batch. -/
def KeywordBatch.recommendationRows (batch : KeywordBatch) :
    List (String × RecommendationRow) :=
  batch.recommendations.map (batch.recommendationBatchId, ·)

/-- A row whose key is free. -/
def insertUnique {α : Type} {key : α → String} (columns : String)
    (table : Table key) (row : α) : Except PyError (Table key) :=
  match table.insert row with
  | some table => .ok table
  | none =>
      .error (.builtin .integrityError
        ("UNIQUE constraint failed: " ++ columns))

/-- `save_ai_keyword_batch`: one transaction. -/
def saveKeywordBatch (store : ExecutionStore) (batch : KeywordBatch) :
    Except PyError ExecutionStore := do
  let batches ← insertUnique
    "ai_keyword_recommendation_batches.recommendation_batch_id" store.batches
    batch
  let _ ← insertRow batchConstraints store.batches.rows batch
  let _ ← batch.recommendationRows.foldlM
    (insertRow recommendationConstraints)
    (store.batches.rows.flatMap KeywordBatch.recommendationRows)
  return { store with batches }

/-- `save_ai_scope_summary`. -/
def saveScopeSummary (store : ExecutionStore) (summary : ScopeSummary) :
    Except PyError ExecutionStore := do
  let summaries ← insertUnique "ai_scope_summaries.scope_summary_id"
    store.summaries summary
  let _ ← insertRow summaryConstraints store.summaries.rows summary
  return { store with summaries }

def saveResult (store : ExecutionStore) :
    StoredResult → Except PyError ExecutionStore
  | .batch batch => saveKeywordBatch store batch
  | .summary summary => saveScopeSummary store summary

/-! ## Checks of a call -/

def executionError (code developerMessage target : String)
    (details : List (String × Json)) : PyError :=
  .apex
    { code := code
      messageKey := codeMessageKey code
      developerMessage := some developerMessage
      target := some target
      retryable := false
      details := details }

/-- `get_request`. -/
def getRequest (store : ExecutionStore) (assistanceRequestId : String) :
    Except PyError AssistanceRequest :=
  match store.requests.find? assistanceRequestId with
  | some request => .ok request
  | none => .error (executionError "AI_REQUEST_NOT_FOUND"
      "AI assistance request not found." "assistance_request_id" [])

/-- `get_keyword_batch` and `get_scope_summary`. -/
def getResult (store : ExecutionStore) (operation resultId : String) :
    Except PyError StoredResult :=
  if operation = RequestedOperation.recommendKeywords.value then
    match store.batches.find? resultId with
    | some batch => .ok (.batch batch)
    | none => .error (notFoundError "AI_KEYWORD_BATCH_NOT_FOUND"
        "AI keyword recommendation batch not found."
        (some "recommendation_batch_id"))
  else
    match store.summaries.find? resultId with
    | some summary => .ok (.summary summary)
    | none => .error (notFoundError "AI_SCOPE_SUMMARY_NOT_FOUND"
        "AI scope summary not found." (some "scope_summary_id"))

/-- `_require_snapshot`, of the request as it is read once more. -/
def requireSnapshot (store : ExecutionStore) (assistanceRequestId : String) :
    Except PyError AnalysisContextSnapshot := do
  let request ← getRequest store assistanceRequestId
  match store.snapshots.find? request.contextSnapshotId with
  | some snapshot => return snapshot
  | none => .error (executionError "AI_REQUEST_NOT_FOUND"
      "Context snapshot for AI assistance was not found."
      "context_snapshot_id" [])

/-- `_request_for_ingest`. -/
def requestForIngest (store : ExecutionStore) (assistanceRequestId : String) :
    Except PyError AssistanceRequest := do
  let request ← getRequest store assistanceRequestId
  if request.expiresAt.micros ≤ store.now.micros then
    .error (executionError "AI_REQUEST_EXPIRED"
      "Expired AI assistance requests cannot ingest results."
      "assistance_request_id" [])
  return request

/-- The checks of the operation that `execute_request` makes first. -/
def checkOperation (request : AssistanceRequest) (operation : String) :
    Except PyError Unit := do
  if operation = "" then
    .error (fieldError "Field must be a non-empty string." "operation")
  if operation ∉ RequestedOperation.all.map RequestedOperation.value then
    .error (validationError "Field has an unsupported enum value."
      (some "operation") [("value", .str operation)])
  if operation ∉ [RequestedOperation.recommendKeywords.value,
      RequestedOperation.summarizeScope.value] then
    .error (executionError "AI_OPERATION_UNSUPPORTED"
      ("The public provider execution contract does not support this " ++
        "operation.") "operation" [("operation", .str operation)])
  if operation ∉ request.requestedOperations then
    .error (executionError "AI_OPERATION_NOT_REQUESTED"
      ("The operation was not included in the immutable AI assistance " ++
        "request.") "operation" [("operation", .str operation)])

/-- What `validate_current_revisions` finds of one captured revision. -/
structure RevisionCheck where
  state : RevisionState
  currentRevision : Option Revision
  status : RevisionStatus

/-- `str(revision)`, also of `None`. -/
def revisionText (revision : Option Revision) : String :=
  revision.elim "None" Revision.str

section

variable (P : Context.Platform)

def checkRevision (sources : Sources) (state : RevisionState) :
    RevisionCheck :=
  match resourceInfo P sources state.resourceType state.resourceId with
  | .error _ => ⟨state, none, .missing⟩
  | .ok info =>
      ⟨state, some info.sourceRevision,
        if revisionText (some info.sourceRevision) =
            revisionText state.expectedRevision then .current
        else .stale⟩

end

def isCurrent (checks : List RevisionCheck) : Bool :=
  checks.all fun check => check.status = .current

structure ProviderCapability where
  providerId : String
  supportedOperations : List String
  isAvailable : Bool
  unavailableReason : Option String

def checkCapability (capability : ProviderCapability) (operation : String) :
    Except PyError Unit :=
  if capability.isAvailable = false ∨
      operation ∉ capability.supportedOperations then
    .error (executionError
      ((capability.unavailableReason.filter fun reason => reason ≠ "").getD
        "CAPABILITY_UNAVAILABLE")
      "The configured AI provider cannot execute the requested operation."
      "provider" [("provider_id", .str capability.providerId),
        ("operation", .str operation)])
  else .ok ()

structure ExecuteArgs where
  assistanceRequestId : String
  operation : String

/-- What stands between the look-up and the dispatch: the request is live, the
checks found every source current and the provider is able. -/
def checkDispatch (store : ExecutionStore) (args : ExecuteArgs)
    (request : AssistanceRequest) (checks : List RevisionCheck)
    (capability : ProviderCapability) : Except PyError Unit := do
  let _ ← requestForIngest store args.assistanceRequestId
  if isCurrent checks = false then
    .error (executionError "AI_SOURCE_REVISION_STALE"
      "Captured source revisions changed before provider execution."
      "context_snapshot_id"
      [("assistance_request_id", .str args.assistanceRequestId),
        ("context_snapshot_id", .str request.contextSnapshotId)])
  checkCapability capability args.operation

/-! ## Ingesting a payload -/

/-- What the checks of a keyword payload let through. -/
structure BatchContents where
  providerId : String
  providerVersion : String
  modelId : String
  externalRequestId : Option String
  recommendations : List RecommendationRow
  warnings : List Json

/-- What the checks of a summary payload let through: `contents` holds the
fields from `title` to `coverage`. -/
structure SummaryContents where
  providerId : String
  providerVersion : String
  modelId : String
  externalRequestId : Option String
  scopeContextId : String
  contents : List (String × Json)

/-- How a payload is read: its limits, texts, citations and resources are
checked against the request, the snapshot and the case. -/
structure PayloadChecks where
  keywordBatch : AssistanceRequest → AnalysisContextSnapshot → Sources →
    Json → Except PyError BatchContents
  scopeSummary : AssistanceRequest → AnalysisContextSnapshot → Sources →
    Json → Except PyError SummaryContents

section

variable (P : Context.Platform)

def BatchContents.resultHash (contents : BatchContents) : String :=
  canonicalSha256 P.sha256 (.obj [
    ("provider_id", .str contents.providerId),
    ("provider_version", .str contents.providerVersion),
    ("model_id", .str contents.modelId),
    ("external_request_id", optionalText contents.externalRequestId),
    ("recommendations",
      .arr (contents.recommendations.map RecommendationRow.contents)),
    ("warnings", .arr contents.warnings)]) []

def BatchContents.toBatch (contents : BatchContents)
    (request : AssistanceRequest) (batchId : String) (now : Instant) :
    KeywordBatch where
  recommendationBatchId := batchId
  assistanceRequestId := request.assistanceRequestId
  contextSnapshotId := request.contextSnapshotId
  providerId := contents.providerId
  providerVersion := contents.providerVersion
  modelId := contents.modelId
  externalRequestId := contents.externalRequestId
  resultHash := contents.resultHash P
  warnings := contents.warnings
  recommendations := contents.recommendations
  createdAt := now

def SummaryContents.contentFingerprint (contents : SummaryContents)
    (request : AssistanceRequest) : String :=
  canonicalSha256 P.sha256 (.obj ([
    ("assistance_request_id", .str request.assistanceRequestId),
    ("case_id", .str request.caseId),
    ("context_snapshot_id", .str request.contextSnapshotId),
    ("scope_context_id", .str contents.scopeContextId)] ++
      contents.contents)) []

def SummaryContents.toSummary (contents : SummaryContents)
    (request : AssistanceRequest) (summaryId : String) (now : Instant) :
    ScopeSummary where
  scopeSummaryId := summaryId
  assistanceRequestId := request.assistanceRequestId
  contextSnapshotId := request.contextSnapshotId
  scopeContextId := contents.scopeContextId
  providerId := contents.providerId
  providerVersion := contents.providerVersion
  modelId := contents.modelId
  externalRequestId := contents.externalRequestId
  contents := contents.contents
  contentFingerprint := contents.contentFingerprint P request
  createdAt := now

variable (C : PayloadChecks)

/-- `ingest_keyword_batch` and `ingest_scope_summary`, up to the save. -/
def ingest (store : ExecutionStore) (assistanceRequestId operation : String)
    (payload : Json) (newId : String) : Except PyError StoredResult := do
  let request ← requestForIngest store assistanceRequestId
  let snapshot ← requireSnapshot store assistanceRequestId
  if operation = RequestedOperation.recommendKeywords.value then
    let contents ← C.keywordBatch request snapshot store.sources payload
    return .batch (contents.toBatch P request newId store.now)
  else
    let contents ← C.scopeSummary request snapshot store.sources payload
    return .summary (contents.toSummary P request newId store.now)

end

/-! ## Calls -/

/-- What a call is given from outside: what its provider says of itself, its
answer or what it raises, and the id of the result. -/
structure ExecuteInputs where
  capability : ProviderCapability
  answer : Except PyError Json
  newId : String

/-- `_execution_result`. -/
structure ExecutionResult where
  assistanceRequestId : String
  operation : String
  requestFingerprint : String
  revisionCheck : List RevisionCheck
  result : StoredResult
  replayed : Bool

/-- How far a call has got, with what it has read. -/
inductive Phase where
  | fetching
  | validating (request : AssistanceRequest)
  | checking (request : AssistanceRequest) (checks : List RevisionCheck)
      (states : List RevisionState)
  | looking (request : AssistanceRequest) (checks : List RevisionCheck)
  | reading (request : AssistanceRequest) (checks : List RevisionCheck)
      (resultId : String)
  | guarding (request : AssistanceRequest) (checks : List RevisionCheck)
  | generating (request : AssistanceRequest) (checks : List RevisionCheck)
  | awaiting (request : AssistanceRequest) (checks : List RevisionCheck)
  | ingesting (request : AssistanceRequest) (checks : List RevisionCheck)
      (payload : Json)
  | saving (request : AssistanceRequest) (checks : List RevisionCheck)
      (row : StoredResult)
  | ended (outcome : Except PyError ExecutionResult)

structure ExecuteCall where
  args : ExecuteArgs
  inputs : ExecuteInputs
  phase : Phase

namespace ExecuteCall

variable (call : ExecuteCall)

def key : String × String :=
  (call.args.assistanceRequestId, call.args.operation)

def executionResult (request : AssistanceRequest)
    (checks : List RevisionCheck) (result : StoredResult) (replayed : Bool) :
    ExecutionResult where
  assistanceRequestId := request.assistanceRequestId
  operation := call.args.operation
  requestFingerprint := request.requestFingerprint
  revisionCheck := checks
  result := result
  replayed := replayed

end ExecuteCall

/-- What a call tells of: the moment before it dispatched the provider, and
the one before it stored its result. -/
inductive ExecutionEvent (ι : Type) where
  | dispatched (call : ι) (key : String × String) (store : ExecutionStore)
  | stored (call : ι) (key : String × String) (store : ExecutionStore)

/-- The phase after a read: what failed ends the call. -/
def Phase.after {α : Type} (read : Except PyError α) (next : α → Phase) :
    Phase :=
  match read with
  | .ok a => next a
  | .error e => .ended (.error e)

section

variable (P : Context.Platform) (C : PayloadChecks)

def ExecuteCall.readStep (store : ExecutionStore) (call : ExecuteCall) :
    Phase :=
  let requestId := call.args.assistanceRequestId
  let operation := call.args.operation
  match call.phase with
  | .fetching =>
      .after (getRequest store requestId) fun request =>
        .after (checkOperation request operation) fun _ => .validating request
  | .validating request =>
      .after (requireSnapshot store requestId) fun snapshot =>
        .checking request [] snapshot.sourceRevisions
  | .checking request checks (state :: states) =>
      .checking request (checks ++ [checkRevision P store.sources state]) states
  | .checking request checks [] => .looking request checks
  | .looking request checks =>
      match store.firstResult requestId operation with
      | some result => .reading request checks result.resultId
      | none => .guarding request checks
  | .reading request checks resultId =>
      .after (getResult store operation resultId) fun result =>
        .ended (.ok (call.executionResult request checks result true))
  | .guarding request checks =>
      .after (checkDispatch store call.args request checks
        call.inputs.capability) fun _ => .generating request checks
  | .awaiting request checks =>
      .after call.inputs.answer fun payload => .ingesting request checks payload
  | .ingesting request checks payload =>
      .after (ingest P C store requestId operation payload call.inputs.newId)
        fun row => .saving request checks row
  | phase => phase

/-! ## Any number of calls -/

structure ExecutionWorld (ι : Type) where
  store : ExecutionStore
  calls : ι → Option ExecuteCall
  log : List (ExecutionEvent ι)

inductive ExecutionMove (ι : Type) where
  | start (i : ι) (args : ExecuteArgs) (inputs : ExecuteInputs)
  | advance (i : ι)
  | writeSources (sources : Sources)
  | expireRequest (assistanceRequestId : String)
  | setClock (now : Instant)

/-- `expire_request`, of the requests of the store. -/
def ExecutionStore.expireRequest (store : ExecutionStore)
    (assistanceRequestId : String) : ExecutionStore :=
  { store with
    requests := store.requests.update
      (fun request => request.assistanceRequestId = assistanceRequestId)
      (fun request => { request with expiresAt := store.now }) fun _ => rfl }

namespace ExecutionWorld

variable {ι : Type} [DecidableEq ι]

/-- Nothing has been executed. -/
def initial (requests : Table AssistanceRequest.assistanceRequestId)
    (snapshots : Table AnalysisContextSnapshot.contextSnapshotId)
    (sources : Sources) (now : Instant) : ExecutionWorld ι where
  store :=
    { requests, snapshots, sources, now
      batches := .empty _
      summaries := .empty _ }
  calls _ := none
  log := []

def setPhase (w : ExecutionWorld ι) (i : ι) (call : ExecuteCall)
    (phase : Phase) : ExecutionWorld ι :=
  { w with calls := Function.update w.calls i (some { call with phase }) }

/-- The next step of a call. -/
def advanceCall (w : ExecutionWorld ι) (i : ι) (call : ExecuteCall) :
    ExecutionWorld ι :=
  match call.phase with
  | .generating request checks =>
      match requestForIngest w.store call.args.assistanceRequestId with
      | .error e => w.setPhase i call (.ended (.error e))
      | .ok _ =>
          { w.setPhase i call (.awaiting request checks) with
            log := w.log ++ [.dispatched i call.key w.store] }
  | .saving request checks row =>
      match saveResult w.store row with
      | .error e => w.setPhase i call (.ended (.error e))
      | .ok store =>
          { w.setPhase i call (.ended
              (.ok (call.executionResult request checks row false))) with
            store
            log := w.log ++ [.stored i call.key w.store] }
  | _ => w.setPhase i call (call.readStep P C w.store)

def step (w : ExecutionWorld ι) : ExecutionMove ι → ExecutionWorld ι
  | .start i args inputs =>
      match w.calls i with
      | none =>
          { w with calls :=
              Function.update w.calls i (some ⟨args, inputs, .fetching⟩) }
      | some _ => w
  | .advance i =>
      match w.calls i with
      | none => w
      | some call => advanceCall P C w i call
  | .writeSources sources => { w with store := { w.store with sources } }
  | .expireRequest assistanceRequestId =>
      { w with store := w.store.expireRequest assistanceRequestId }
  | .setClock now => { w with store := { w.store with now } }

end ExecutionWorld

end

end ApexForensic.Ai
