import ApexForensic.Ai.Execution
import ApexForensic.Context.Session
import ApexForensic.Reports.Values

/-!
# AI assistance requests

A request is drafted from the arguments, a context snapshot and the clock.  Its
fingerprint covers what was asked for, but not when: a stored request with the
same fingerprint is returned in place of a new one.
-/

namespace ApexForensic.Ai

open ApexForensic.Support ApexForensic.Domain
open ApexForensic.Context (AnalysisContextSnapshot AnalysisScopeContext
  AnalysisScopeType RevisionState dedupe optionalRevision)

inductive AiAssistancePurpose where
  | keywordRecommendation | scopeSummary | reportInput
  | investigationAssistance | other
  deriving DecidableEq

def AiAssistancePurpose.value : AiAssistancePurpose → String
  | keywordRecommendation => "KEYWORD_RECOMMENDATION"
  | scopeSummary => "SCOPE_SUMMARY"
  | reportInput => "REPORT_INPUT"
  | investigationAssistance => "INVESTIGATION_ASSISTANCE"
  | other => "OTHER"

def AiAssistancePurpose.all : List AiAssistancePurpose :=
  [.keywordRecommendation, .scopeSummary, .reportInput,
    .investigationAssistance, .other]

def aiRequestVersion : String := "ai-assistance-request-v1"
def maxRequestScopes : ℕ := 32
def maxRequestItems : ℕ := 10000
def maxRequestCitations : ℕ := 200
def maxKeywordCandidates : ℤ := 1000
def maxSummaryLength : ℤ := 20000
def maxWarningCount : ℕ := 200
def defaultLocale : String := "ko-KR"
def defaultTimezone : String := "Asia/Seoul"

/-! ## What a request is drafted from -/

structure RequestSnapshot extends AnalysisContextSnapshot where
  warnings : List Json

/-- A scope context with its warnings. -/
structure RequestScope extends AnalysisScopeContext where
  warnings : List Json

/-- A snapshot has one scope context for each scope type. -/
def RequestScope.key (scope : RequestScope) : String × String :=
  (scope.contextSnapshotId, scope.scopeType)

structure RequestSources where
  caseIds : List String
  snapshots : Table fun snapshot : RequestSnapshot => snapshot.contextSnapshotId
  scopes : Table RequestScope.key

/-- The arguments of `create_request_from_context_snapshot`. -/
structure RequestArgs where
  caseId : String
  contextSnapshotId : String
  purpose : String := AiAssistancePurpose.investigationAssistance.value
  requestedOperations : Option (List String) := none
  requestedScopes : Option (List String) := none
  scopeContextIds : Option (List String) := none
  locale : Option String := none
  timezone : Option String := none
  maxKeywordCandidates : ℤ := 100
  maxSummaryLength : ℤ := 4000
  ttlSeconds : ℤ := 3600
  correlationId : Option String := none
  payloadFingerprint : Option String := none

/-- A request without its id. -/
structure RequestDraft where
  caseId : String
  contextSnapshotId : String
  purpose : String
  requestedOperations : List String
  requestedScopes : List String
  scopeContextIds : List String
  locale : String
  timezone : String
  contextFingerprint : String
  sourceRevisionFingerprint : String
  isPartial : Bool
  isStale : Bool
  coverageSummary : Json
  warnings : List Json
  citations : List Json
  maxKeywordCandidates : ℤ
  maxSummaryLength : ℤ
  requestedAt : Instant
  expiresAt : Instant
  requestVersion : String
  correlationId : Option String
  requestFingerprint : String
  resourceCount : ℕ

/-- A row of `ai_assistance_requests`. -/
structure RequestRow extends RequestDraft where
  assistanceRequestId : String

/-! ## Checks of the arguments -/

/-- `_optional_non_empty`. -/
def optionalNonEmpty (value : Option String) (target : String) :
    Except PyError (Option String) :=
  match value with
  | none => .ok none
  | some text =>
      if strip text = "" then
        .error (fieldError "Field must be a non-empty string." target)
      else .ok (some (strip text))

/-- `_enum_value`. -/
def enumValue (values : List String) (value target : String) :
    Except PyError String :=
  if value = "" then
    .error (fieldError "Field must be a non-empty string." target)
  else if value ∈ values then .ok value
  else .error (validationError "Field has an unsupported enum value."
    (some target) [("value", .str value)])

/-- `_scope_value`. -/
def scopeValue (value target : String) : Except PyError String :=
  enumValue (AnalysisScopeType.all.map AnalysisScopeType.value) value target

/-- `_limit`. -/
def checkLimit (value minimum maximum : ℤ) (target : String) :
    Except PyError Unit :=
  if value < minimum ∨ maximum < value then
    .error (executionError "AI_REQUEST_LIMIT_EXCEEDED"
      "Integer option is outside the allowed range." target
      [("minimum", .int minimum), ("maximum", .int maximum),
        ("value", .int value)])
  else .ok ()

def givenItems (argument : Option (List String)) : Option (List String) :=
  argument.filter fun items => items ≠ []

/-- `_requested_operations`. -/
def chooseOperations (purpose : String) (requested : Option (List String)) :
    Except PyError (List String) := do
  match givenItems requested with
  | some items =>
      let operations ← items.mapM fun item =>
        enumValue (RequestedOperation.all.map RequestedOperation.value) item
          "requested_operations"
      return dedupe operations
  | none =>
      if purpose = AiAssistancePurpose.keywordRecommendation.value then
        return dedupe [RequestedOperation.recommendKeywords.value]
      else if purpose = AiAssistancePurpose.scopeSummary.value then
        return dedupe [RequestedOperation.summarizeScope.value]
      else if purpose = AiAssistancePurpose.reportInput.value then
        return dedupe [RequestedOperation.generateReportDraft.value]
      else
        return dedupe [RequestedOperation.recommendKeywords.value,
          RequestedOperation.summarizeScope.value]

/-- `_requested_scopes`. -/
def chooseScopes (snapshot : RequestSnapshot)
    (requested : Option (List String)) : Except PyError (List String) := do
  let items := (givenItems requested).getD snapshot.scopes
  let scopes ← items.mapM fun item => scopeValue item "requested_scopes"
  let scopes := dedupe scopes
  if scopes = [] then
    .error (executionError "AI_REQUEST_SCOPE_INVALID"
      "At least one AI request scope is required." "requested_scopes" [])
  if maxRequestScopes < scopes.length then
    .error (executionError "AI_REQUEST_LIMIT_EXCEEDED"
      "AI request has too many scopes." "requested_scopes" [])
  let snapshotScopes ← snapshot.scopes.mapM fun item =>
    scopeValue item "snapshot.scopes"
  if ¬ scopes.all (· ∈ snapshotScopes) then
    .error (executionError "AI_REQUEST_SCOPE_INVALID"
      "Requested scope is not present in the context snapshot."
      "requested_scopes" [])
  return scopes

/-- `_scope_contexts_for_request`. -/
def scopeContextsForRequest (sources : RequestSources)
    (snapshot : RequestSnapshot) (scopes : List String)
    (scopeContextIds : Option (List String)) :
    Except PyError (List RequestScope) := do
  let requested := scopes.filterMap fun scope =>
    sources.scopes.find? (snapshot.contextSnapshotId, scope)
  if requested.length ≠ scopes.length then
    .error (executionError "AI_REQUEST_SCOPE_INVALID"
      "Requested scope context is missing from the snapshot."
      "requested_scopes" [])
  let requested ← match givenItems scopeContextIds with
    | none => pure requested
    | some ids => do
        if "" ∈ ids then
          .error (fieldError "Field must be a list of non-empty strings."
            "scope_context_ids")
        if ¬ ids.all (· ∈ requested.map fun scope => scope.scopeContextId) then
          .error (executionError "AI_REQUEST_SCOPE_INVALID"
            "Scope context ID is not allowed for this request."
            "scope_context_ids" [])
        pure (requested.filter fun scope => scope.scopeContextId ∈ ids)
  return requested.insertionSort fun a b => a.scopeContextId ≤ b.scopeContextId

/-! ## Warnings and citations -/

section Digests

variable (sha256 : ByteArray → String)

/-- One item for each digest, in the order of the digests. -/
def stableBy (digest value : Json → Json) (items : List Json) : List Json :=
  ((items.foldl (fun normalized item =>
      setItem (canonicalSha256 sha256 (digest item) []) (value item)
        normalized) []).insertionSort fun a b => a.1 ≤ b.1).map Prod.snd

/-- `_stable_citations`. -/
def stableCitations (citations : List Json) : List Json :=
  stableBy sha256 id id citations

/-- `{"code": code, **item}`. -/
def codeFirst : Json → Json
  | .obj fields =>
      .obj (("code", getDefault fields "code" (.str "WARNING")) ::
        fields.filter fun field => field.1 ≠ "code")
  | item => item

def checkWarning (target : String) : Json → Except PyError Unit
  | .obj fields =>
      match Json.lookup "code" fields with
      | some (.str code) =>
          if Reports.isWarningCode code then .ok ()
          else .error (fieldError "Warning code is invalid." target)
      | _ => .error (fieldError "Warning code is invalid." target)
  | _ => .error (fieldError "Warning must be a JSON object." target)

/-- `_bounded_warnings`. -/
def boundedWarnings (warnings : List Json) (target : String) :
    Except PyError (List Json) := do
  if maxWarningCount < warnings.length then
    .error (executionError "AI_REQUEST_LIMIT_EXCEEDED"
      "AI result exceeds the maximum warning count." target [])
  warnings.forM (checkWarning target)
  return stableBy sha256 id codeFirst warnings

/-- `bool(state.get(key))`. -/
def stateFlag (state : Json) (key : String) : Bool :=
  (state.field? key).any truthy

def stateWarning (code developerMessage : String) : Json :=
  .obj [("code", .str code), ("developer_message", .str developerMessage)]

/-- `_state_warnings`. -/
def stateWarnings (snapshot : RequestSnapshot) : List Json :=
  (if stateFlag snapshot.partialState "is_partial" then
    [stateWarning "AI_RESULT_FROM_PARTIAL_SNAPSHOT" "Snapshot is partial."]
  else []) ++
  (if stateFlag snapshot.staleState "is_stale" then
    [stateWarning "AI_RESULT_FROM_STALE_SNAPSHOT" "Snapshot is stale."]
  else [])

/-! ## The fingerprints -/

def stateDocument (state : RevisionState) : Json :=
  .obj [("resource_type", .str state.resourceType),
    ("resource_id", .str state.resourceId),
    ("expected_revision", optionalRevision state.expectedRevision),
    ("current_revision", optionalRevision state.currentRevision),
    ("status", .str state.status.value),
    ("reason", optionalText state.reason)]

def sourceRevisionFingerprint (snapshot : RequestSnapshot) : String :=
  let states := snapshot.sourceRevisions.insertionSort fun a b =>
    toLex (a.resourceType, a.resourceId) ≤ toLex (b.resourceType, b.resourceId)
  canonicalSha256 sha256 (.arr (states.map stateDocument)) []

/-- `coverage_summary`, of scopes in the order of their ids. -/
def coverageSummary (scopes : List RequestScope) : Json :=
  .obj (scopes.map fun scope => (scope.scopeContextId,
    .obj [("scope_type", .str scope.scopeType),
      ("coverage", scope.coverage),
      ("result_count", .int scope.resultCount),
      ("included_count", .int scope.includedCount),
      ("is_partial", .bool scope.isPartial),
      ("stale_reasons", .arr (scope.staleReasons.map .str))]))

/-- What the checks of the arguments let through. -/
structure RequestBasis where
  snapshot : RequestSnapshot
  purpose : String
  operations : List String
  scopes : List String
  scopeContexts : List RequestScope
  citations : List Json
  warnings : List Json
  correlationId : Option String

def RequestBasis.resourceCount (basis : RequestBasis) : ℕ :=
  (basis.scopeContexts.map fun scope => scope.resultCount).sum

/-- `value or default`. -/
def textOr (value : Option String) (fallback : String) : String :=
  (value.filter fun text => text ≠ "").getD fallback

def isHexDigest (text : String) : Bool :=
  text.length = 64 &&
    text.toList.all fun c => c ∈ "0123456789abcdef".toList

/-- The fingerprint of a request, from `fingerprint_payload` on. -/
def requestFingerprint (args : RequestArgs) (basis : RequestBasis) :
    Except PyError String :=
  let payload : List (String × Json) :=
    [("case_id", .str args.caseId),
      ("context_snapshot_id", .str args.contextSnapshotId),
      ("purpose", .str basis.purpose),
      ("requested_operations", .arr (basis.operations.map .str)),
      ("requested_scopes", .arr (basis.scopes.map .str)),
      ("scope_context_ids",
        .arr (basis.scopeContexts.map fun scope => .str scope.scopeContextId)),
      ("locale", .str (textOr args.locale defaultLocale)),
      ("timezone", .str (textOr args.timezone defaultTimezone)),
      ("context_fingerprint", .str basis.snapshot.contextFingerprint),
      ("source_revision_fingerprint",
        .str (sourceRevisionFingerprint sha256 basis.snapshot)),
      ("max_keyword_candidates", .int args.maxKeywordCandidates),
      ("max_summary_length", .int args.maxSummaryLength),
      ("request_version", .str aiRequestVersion)]
  match args.payloadFingerprint with
  | none => .ok (canonicalSha256 sha256 (.obj payload) [])
  | some text =>
      if isHexDigest text then
        .ok (canonicalSha256 sha256
          (.obj (payload ++ [("payload_fingerprint", .str text)])) [])
      else
        .error (fieldError "Invalid AI payload fingerprint."
          "payload_fingerprint")

/-! ## Drafting a request -/

/-- The checks that come before the clock is read. -/
def checkRequest (sources : RequestSources) (args : RequestArgs) :
    Except PyError RequestBasis := do
  let correlationId ← optionalNonEmpty args.correlationId "correlation_id"
  if args.caseId ∉ sources.caseIds then
    .error (notFoundError "CASE_NOT_FOUND" "Case not found." (some "case_id"))
  match sources.snapshots.find? args.contextSnapshotId with
  | none => .error (executionError "AI_REQUEST_NOT_FOUND"
      "Context snapshot for AI assistance was not found."
      "context_snapshot_id" [])
  | some snapshot =>
      if snapshot.caseId ≠ args.caseId then
        .error (executionError "AI_REQUEST_CASE_MISMATCH"
          "Context snapshot belongs to another case." "context_snapshot_id" [])
      let purpose ← enumValue
        (AiAssistancePurpose.all.map AiAssistancePurpose.value) args.purpose
        "purpose"
      let operations ← chooseOperations purpose args.requestedOperations
      let scopes ← chooseScopes snapshot args.requestedScopes
      let scopeContexts ← scopeContextsForRequest sources snapshot scopes
        args.scopeContextIds
      checkLimit args.maxKeywordCandidates 1 maxKeywordCandidates
        "max_keyword_candidates"
      checkLimit args.maxSummaryLength 1 maxSummaryLength "max_summary_length"
      if args.ttlSeconds ≤ 0 then
        .error (executionError "AI_REQUEST_LIMIT_EXCEEDED"
          "Request TTL must be positive." "ttl_seconds" [])
      let resourceCount :=
        (scopeContexts.map fun scope => scope.resultCount).sum
      if maxRequestItems < resourceCount then
        .error (executionError "AI_REQUEST_LIMIT_EXCEEDED"
          "AI assistance request exceeds the maximum resource count."
          "context_snapshot_id" [("resource_count", .int resourceCount),
            ("maximum", .int maxRequestItems)])
      if maxRequestCitations < snapshot.citations.length then
        .error (executionError "AI_REQUEST_LIMIT_EXCEEDED"
          "AI assistance request exceeds the maximum citation count."
          "citations" [])
      let warnings ← boundedWarnings sha256
        (snapshot.warnings ++
          (scopeContexts.flatMap fun scope => scope.warnings) ++
          stateWarnings snapshot) "warnings"
      return { snapshot, purpose, operations, scopes, scopeContexts,
               citations := stableCitations sha256 snapshot.citations,
               warnings, correlationId }

/-- The instants a datetime can name. -/
def InstantRange (micros : ℤ) : Prop :=
  -62135596800000000 ≤ micros ∧ micros ≤ 253402300799999999

instance (micros : ℤ) : Decidable (InstantRange micros) :=
  inferInstanceAs (Decidable (_ ∧ _))

/-- `now + timedelta(seconds=ttl_seconds)`. -/
def expiryOf (now : Instant) (ttlSeconds : ℤ) : Except PyError Instant :=
  let days := ttlSeconds / 86400
  let micros := now.micros + ttlSeconds * 1000000
  if 2 ^ 31 ≤ days then
    .error (.builtin .overflowError "Python int too large to convert to C int")
  else if 999999999 < days then
    .error (.builtin .overflowError
      s!"days={days}; must have magnitude <= 999999999")
  else if h : InstantRange micros then .ok ⟨micros, h⟩
  else .error (.builtin .overflowError "date value out of range")

/-- A request as the arguments, the sources and the clock make it. -/
def draftRequest (sources : RequestSources) (now : Instant)
    (args : RequestArgs) : Except PyError RequestDraft := do
  let basis ← checkRequest sha256 sources args
  let expiresAt ← expiryOf now args.ttlSeconds
  let fingerprint ← requestFingerprint sha256 args basis
  return {
    caseId := args.caseId
    contextSnapshotId := args.contextSnapshotId
    purpose := basis.purpose
    requestedOperations := basis.operations
    requestedScopes := basis.scopes
    scopeContextIds := basis.scopeContexts.map fun scope => scope.scopeContextId
    locale := textOr args.locale defaultLocale
    timezone := textOr args.timezone defaultTimezone
    contextFingerprint := basis.snapshot.contextFingerprint
    sourceRevisionFingerprint := sourceRevisionFingerprint sha256 basis.snapshot
    isPartial := stateFlag basis.snapshot.partialState "is_partial" ||
      basis.scopeContexts.any fun scope => scope.isPartial
    isStale := stateFlag basis.snapshot.staleState "is_stale"
    coverageSummary := coverageSummary basis.scopeContexts
    warnings := basis.warnings
    citations := basis.citations
    maxKeywordCandidates := args.maxKeywordCandidates
    maxSummaryLength := args.maxSummaryLength
    requestedAt := now
    expiresAt := expiresAt
    requestVersion := aiRequestVersion
    correlationId := basis.correlationId
    requestFingerprint := fingerprint
    resourceCount := basis.resourceCount }

end Digests

end ApexForensic.Ai
