import ApexForensic.Domain.Canonical
import ApexForensic.Search.Keywords
import ApexForensic.Support.Service

/-!
# Reviewing and promoting AI keyword recommendations

A recommendation is stored once; what a reviewer makes of it is read from its
verification events each time.  Promoting an accepted recommendation adds its
effective value to a keyword set of the search service.
-/

namespace ApexForensic.Ai

open ApexForensic.Support ApexForensic.Domain ApexForensic.Search

/-- Beside what the search service takes from elsewhere: the parsers of IP
addresses and URLs, the text of a JSON value, and the check of the metadata a
client sends with a promotion. -/
structure Platform extends toSearch : Search.Platform where
  isIpAddress : String → Bool
  urlparse : String → String × String
  jsonText : Json → String
  contractPayloadError : Json → String → Option PyError

/-- The search service's platform for ASCII texts. -/
def asciiPlatform : Platform where
  toSearch := Search.asciiPlatform
  isIpAddress _ := true
  urlparse _ := ("", "")
  jsonText value := String.ofList value.render
  contractPayloadError _ _ := none

inductive ReviewStatus where
  | unreviewed | accepted | rejected | corrected
  deriving DecidableEq

def ReviewStatus.value : ReviewStatus → String
  | .unreviewed => "UNREVIEWED"
  | .accepted => "ACCEPTED"
  | .rejected => "REJECTED"
  | .corrected => "CORRECTED"

inductive TargetType where
  | keywordRecommendation | scopeSummary
  deriving DecidableEq

def TargetType.value : TargetType → String
  | .keywordRecommendation => "KEYWORD_RECOMMENDATION"
  | .scopeSummary => "SCOPE_SUMMARY"

inductive VerificationAction where
  | accept | reject | correct | comment
  deriving DecidableEq

def VerificationAction.value : VerificationAction → String
  | .accept => "ACCEPT"
  | .reject => "REJECT"
  | .correct => "CORRECT"
  | .comment => "COMMENT"

structure KeywordRecommendation where
  recommendationId : String
  caseId : String
  contextSnapshotId : String
  keywordType : KeywordType
  value : String
  reason : String
  reviewStatus : ReviewStatus
  currentReviewRevision : ℕ
  effectiveValue : Option String
  effectiveReason : Option String
  correctedReason : Option String

structure VerificationEvent where
  verificationEventId : String
  caseId : String
  targetType : TargetType
  targetId : String
  action : VerificationAction
  previousStatus : ReviewStatus
  newStatus : ReviewStatus
  actorId : String
  reason : String
  correctedValue : Option String
  correctedReason : Option String
  reviewRevision : ℕ
  previousEventHash : Option String
  eventHash : String
  createdAt : String

structure KeywordPromotion where
  promotionId : String
  caseId : String
  recommendationId : String
  reviewRevision : ℕ
  keywordSetId : String
  keywordSetVersionId : String
  keywordSetVersion : ℕ
  promotedKeywordId : Option String
  promotedValue : String
  status : String
  duplicate : Bool
  sourceContextSnapshotId : String
  actorId : String
  reason : String
  promotionFingerprint : String
  metadata : Json
  createdAt : String

structure Store where
  recommendations : Table KeywordRecommendation.recommendationId
  events : List VerificationEvent
  promotions : List KeywordPromotion
  keywords : KeywordStore

def Store.empty : Store where
  recommendations := Table.empty _
  events := []
  promotions := []
  keywords := .empty

/-! ## Checks of texts -/

def maxReasonLength : ℕ := 4000
def maxActorIdLength : ℕ := 256

def aiAssistanceError (code developerMessage target : String)
    (retryable : Bool) : PyError :=
  .apex
    { code := code
      messageKey := codeMessageKey code
      developerMessage := some developerMessage
      target := some target
      retryable := retryable
      details := [] }

def fieldError (message target : String) : PyError :=
  validationError message (some target) []

/-- `_bounded_non_empty`. -/
def boundedNonEmpty (value target : String) (maximum : ℕ) :
    Except PyError String :=
  if strip value = "" then
    .error (fieldError "Field must be a non-empty string." target)
  else if maximum < value.length then
    .error (fieldError "Field exceeds the maximum length." target)
  else .ok (strip value)

/-- `_bounded_optional_text`. -/
def boundedOptionalText (value : Option String) (target : String)
    (maximum : ℕ) : Except PyError (Option String) :=
  if value.any fun text => maximum < text.length then
    .error (fieldError "Field exceeds the maximum length." target)
  else .ok value

/-- `_required_reason`. -/
def requiredReason (value : String) : Except PyError String :=
  if strip value = "" then
    .error (fieldError "Field must be a non-empty string." "reason")
  else if maxReasonLength < (strip value).length then
    .error (fieldError "Reason exceeds the maximum length." "reason")
  else .ok (strip value)

/-- `_enum_value(AiVerificationAction, action, "action")`. -/
def verificationAction (value : String) : Except PyError VerificationAction :=
  if value = "" then
    .error (fieldError "Field must be a non-empty string." "action")
  else
    match [VerificationAction.accept, .reject, .correct, .comment].find?
      fun action => action.value = value with
    | some action => .ok action
    | none => .error (validationError "Field has an unsupported enum value."
        (some "action") [("value", .str value)])

def maxKeywordLength : KeywordType → ℕ
  | .url => 2048
  | .domain => 253
  | .ipAddress => 128
  | .hash => 128
  | .regex => 512
  | .path => 4096
  | .registryPath => 4096
  | .command => 4096
  | _ => 1024

/-- What `$` may leave unread at the end of a text. -/
def dropFinalNewline (cs : List Char) : List Char :=
  if cs.getLast? = some '\n' then cs.dropLast else cs

def isHexDigit (c : Char) : Bool :=
  c.isDigit || ('a' ≤ c && c ≤ 'f') || ('A' ≤ c && c ≤ 'F')

/-- `_HASH_RE`. -/
def isHashText (value : String) : Bool :=
  let cs := dropFinalNewline value.toList
  [("md5:", 32), ("sha1:", 40), ("sha256:", 64)].any fun (mark, size) =>
    let digits :=
      if mark.toList.isPrefixOf cs then cs.drop mark.length else cs
    digits.length = size && digits.all isHexDigit

def isDomainLabel (label : List Char) : Bool :=
  1 ≤ label.length && label.length ≤ 63 && label.head? ≠ some '-' &&
    label.getLast? ≠ some '-' &&
    label.all fun c => c.isAlphanum || c = '-'

/-- `_DOMAIN_RE`. -/
def isDomainText (value : String) : Bool :=
  let cs := dropFinalNewline value.toList
  let labels := cs.splitOn '.'
  cs.length ≤ 253 && 2 ≤ labels.length && labels.all isDomainLabel

section

variable (P : Platform)

/-- The check of `_validate_keyword_value` that the keyword type asks for. -/
def checkKeywordForm (value : String) (keywordType : KeywordType)
    (target : String) : Except PyError Unit :=
  match keywordType with
  | .ipAddress =>
      if P.isIpAddress value then .ok ()
      else .error (fieldError "Invalid IP address keyword." target)
  | .url =>
      if (P.urlparse value).1 ∈ ["http", "https", "ftp", "file"] ∧
          (P.urlparse value).2 ≠ "" then .ok ()
      else .error (fieldError "Invalid URL keyword." target)
  | .domain =>
      if isDomainText value then .ok ()
      else .error (fieldError "Invalid domain keyword." target)
  | .hash =>
      if isHashText value then .ok ()
      else .error (fieldError "Invalid hash keyword." target)
  | _ => .ok ()

/-- `_validate_keyword_value`. -/
def validateKeywordValue (value : String) (keywordType : KeywordType)
    (target : String) : Except PyError String := do
  if strip value = "" then
    .error (fieldError "Keyword value cannot be empty." target)
  if value.toList.contains '\x00' then
    .error (fieldError "Keyword value cannot contain a null byte." target)
  if maxKeywordLength keywordType < value.length then
    .error (fieldError "Keyword value exceeds its type limit." target)
  checkKeywordForm P value keywordType target
  return value

/-! ## Storing a recommendation -/

structure IngestArgs where
  recommendationId : String
  caseId : String
  contextSnapshotId : String
  keywordType : KeywordType
  value : String
  reason : String

/-- One candidate of `ingest_keyword_recommendations`, with what later reads
need of it. -/
def ingestRecommendation (store : Store) (args : IngestArgs) :
    Except PyError (KeywordRecommendation × Store) := do
  let value ← validateKeywordValue P args.value args.keywordType "value"
  let reason ← requiredReason args.reason
  let recommendation : KeywordRecommendation :=
    { recommendationId := args.recommendationId
      caseId := args.caseId
      contextSnapshotId := args.contextSnapshotId
      keywordType := args.keywordType
      value, reason
      reviewStatus := .unreviewed
      currentReviewRevision := 0
      effectiveValue := none
      effectiveReason := none
      correctedReason := none }
  match store.recommendations.insert recommendation with
  | some recommendations =>
      .ok (recommendation, { store with recommendations })
  | none => .error (.builtin .integrityError ("UNIQUE constraint failed: " ++
      "ai_keyword_recommendations.recommendation_id"))

/-! ## Reading a recommendation -/

/-- `list_ai_verification_events`. -/
def Store.verificationEvents (store : Store) (targetType : TargetType)
    (targetId : String) : List VerificationEvent :=
  (store.events.filter fun event =>
      event.targetType = targetType && event.targetId = targetId).insertionSort
    (orderBy VerificationEvent.reviewRevision
      VerificationEvent.verificationEventId)

/-- `_effective_keyword`. -/
def Store.effectiveKeyword (store : Store)
    (recommendation : KeywordRecommendation) : KeywordRecommendation :=
  match (store.verificationEvents .keywordRecommendation
      recommendation.recommendationId).getLast? with
  | none => recommendation
  | some latest =>
      let recommendation :=
        { recommendation with
          reviewStatus := latest.newStatus
          currentReviewRevision := latest.reviewRevision }
      match latest.correctedValue with
      | none => recommendation
      | some value =>
          { recommendation with
            effectiveValue := some value
            effectiveReason := some
              (if latest.correctedReason.getD "" = "" then recommendation.reason
                else latest.correctedReason.getD "")
            correctedReason := latest.correctedReason }

def Store.getKeywordRecommendation (store : Store) (recommendationId : String) :
    Except PyError KeywordRecommendation :=
  match store.recommendations.find? recommendationId with
  | some recommendation => .ok (store.effectiveKeyword recommendation)
  | none => .error (notFoundError "AI_KEYWORD_RECOMMENDATION_NOT_FOUND"
      "AI keyword recommendation not found." (some "recommendation_id"))

/-- `recommendation.effective_value or recommendation.value`. -/
def KeywordRecommendation.effectiveOrValue
    (recommendation : KeywordRecommendation) : String :=
  if recommendation.effectiveValue.getD "" = "" then recommendation.value
  else recommendation.effectiveValue.getD ""

/-! ## Reviews -/

/-- `_review_status_for_action`. -/
def reviewStatusForAction (previous : ReviewStatus) :
    VerificationAction → ReviewStatus
  | .accept => .accepted
  | .reject => .rejected
  | .correct => .corrected
  | .comment => previous

structure ReviewArgs where
  action : String
  actorId : String
  reason : String
  expectedReviewRevision : Option ℤ := none
  correctedValue : Option String := none
  correctedReason : Option String := none

/-- What the clock and the id generator return. -/
structure CallInputs where
  now : String
  newId : String

def VerificationEvent.payload (event : VerificationEvent) : Json :=
  .obj
    [("verification_event_id", .str event.verificationEventId),
     ("case_id", .str event.caseId),
     ("target_type", .str event.targetType.value),
     ("target_id", .str event.targetId),
     ("action", .str event.action.value),
     ("previous_status", .str event.previousStatus.value),
     ("new_status", .str event.newStatus.value),
     ("actor_id", .str event.actorId),
     ("reason", .str event.reason),
     ("corrected_value", event.correctedValue.elim .null .str),
     ("corrected_reason", event.correctedReason.elim .null .str),
     ("review_revision", .int event.reviewRevision),
     ("previous_event_hash", event.previousEventHash.elim .null .str),
     ("created_at", .str event.createdAt)]

def eventConstraints :
    List (String × (VerificationEvent → VerificationEvent → Bool)) :=
  [("ai_verification_events.verification_event_id",
      fun e f => e.verificationEventId = f.verificationEventId),
   ("ai_verification_events.target_type, ai_verification_events.target_id, " ++
      "ai_verification_events.review_revision",
      fun e f => e.targetType = f.targetType && e.targetId = f.targetId &&
        e.reviewRevision = f.reviewRevision),
   ("ai_verification_events.target_type, ai_verification_events.target_id, " ++
      "ai_verification_events.event_hash",
      fun e f => e.targetType = f.targetType && e.targetId = f.targetId &&
        e.eventHash = f.eventHash)]

/-- The checks of `_append_review_event` against the latest event. -/
def checkReview (args : ReviewArgs) (action : VerificationAction)
    (latestRevision : ℕ) (latestStatus : ReviewStatus) :
    Except PyError Unit := do
  if args.expectedReviewRevision.any fun expected =>
      expected ≠ (latestRevision : ℤ) then
    .error (aiAssistanceError "AI_REVIEW_REVISION_CONFLICT"
      "Review revision changed before this verification event."
      "expected_review_revision" true)
  if action = .correct ∧ args.correctedValue = none then
    .error (aiAssistanceError "AI_REVIEW_CORRECTION_REQUIRED"
      "Correction review requires a corrected value." "corrected_value" false)
  if latestStatus = .rejected ∧ (action = .accept ∨ action = .correct) then
    .error (aiAssistanceError "AI_REVIEW_TRANSITION_INVALID"
      "Rejected AI results can only be commented on or rejected again."
      "action" false)

/-- `_append_review_event`. -/
def appendReviewEvent (store : Store) (caseId : String)
    (targetType : TargetType) (targetId : String)
    (previousStatus : ReviewStatus) (args : ReviewArgs)
    (inputs : CallInputs) : Except PyError (VerificationEvent × Store) := do
  let actorId ← boundedNonEmpty args.actorId "actor_id" maxActorIdLength
  let reason ← requiredReason args.reason
  let correctedReason ← boundedOptionalText args.correctedReason
    "corrected_reason" maxReasonLength
  let action ← verificationAction args.action
  let events := store.verificationEvents targetType targetId
  let latestRevision :=
    events.getLast?.elim 0 VerificationEvent.reviewRevision
  let latestStatus :=
    events.getLast?.elim previousStatus VerificationEvent.newStatus
  checkReview args action latestRevision latestStatus
  let event : VerificationEvent :=
    { verificationEventId := inputs.newId
      caseId, targetType, targetId, action
      previousStatus := latestStatus
      newStatus := reviewStatusForAction latestStatus action
      actorId, reason
      correctedValue := args.correctedValue
      correctedReason
      reviewRevision := latestRevision + 1
      previousEventHash := events.getLast?.map VerificationEvent.eventHash
      eventHash := ""
      createdAt := inputs.now }
  let event :=
    { event with eventHash := canonicalSha256 P.sha256 event.payload [] }
  let events ← insertRow eventConstraints store.events event
  return (event, { store with events })

def requireTargetCase (actualCaseId : String) (expectedCaseId : Option String) :
    Except PyError Unit :=
  if expectedCaseId.any fun expected => expected ≠ actualCaseId then
    .error (aiAssistanceError "AI_TARGET_CASE_MISMATCH"
      "AI review or promotion target belongs to another case." "case_id" false)
  else .ok ()

def reviewKeywordRecommendation (store : Store) (recommendationId : String)
    (expectedCaseId : Option String) (args : ReviewArgs)
    (inputs : CallInputs) : Except PyError (VerificationEvent × Store) := do
  let recommendation ← store.getKeywordRecommendation recommendationId
  requireTargetCase recommendation.caseId expectedCaseId
  args.correctedValue.forM fun value => do
    let _ ← validateKeywordValue P value recommendation.keywordType
      "corrected_value"
  appendReviewEvent P store recommendation.caseId .keywordRecommendation
    recommendation.recommendationId recommendation.reviewStatus args inputs

/-! ## Promotion -/

/-- `_promotion_match_mode`. -/
def promotionMatchMode (keywordType : KeywordType) : KeywordMatchMode :=
  if keywordType = .regex then .regexMetadata else .term

/-- `_keyword_set_duplicate`. -/
def keywordSetDuplicate (set : KeywordSet) (term : String)
    (matchMode : KeywordMatchMode) (caseSensitive : Bool) : Option Keyword :=
  let normalized := if caseSensitive then term else P.casefold term
  set.keywords.find? fun keyword =>
    keyword.normalizedTerm P.toSearch = normalized &&
      keyword.matchMode = matchMode && keyword.caseSensitive = caseSensitive

def validateKeywordSetCase (recommendation : KeywordRecommendation)
    (set : KeywordSet) : Except PyError Unit :=
  if set.caseId ≠ recommendation.caseId then
    .error (aiAssistanceError "AI_REVIEW_CASE_MISMATCH"
      "Keyword set belongs to another case." "keyword_set_id" false)
  else .ok ()

def requirePromotableRecommendation (recommendation : KeywordRecommendation) :
    Except PyError Unit :=
  if recommendation.reviewStatus ≠ .accepted ∧
      recommendation.reviewStatus ≠ .corrected then
    .error (aiAssistanceError "AI_REVIEW_TRANSITION_INVALID"
      "Only accepted or corrected keyword recommendations can be promoted."
      "recommendation_id" false)
  else .ok ()

structure PromotionPreview where
  recommendationId : String
  keywordSetId : String
  caseId : String
  reviewStatus : ReviewStatus
  reviewRevision : ℕ
  effectiveValue : String
  keywordType : KeywordType
  matchMode : KeywordMatchMode
  duplicate : Bool
  duplicateKeywordId : Option String
  regexRequiresConfirmation : Bool
  promotable : Bool
  willRunSearch : Bool := false
  willActivateKeywordSet : Bool := false

def previewKeywordPromotion (store : Store)
    (recommendationId keywordSetId : String) (expectedCaseId : Option String)
    (regexConfirmed : Bool) : Except PyError PromotionPreview := do
  let recommendation ← store.getKeywordRecommendation recommendationId
  requireTargetCase recommendation.caseId expectedCaseId
  let set ← getKeywordSet store.keywords keywordSetId none
  validateKeywordSetCase recommendation set
  requirePromotableRecommendation recommendation
  let effectiveValue := recommendation.effectiveOrValue
  let matchMode := promotionMatchMode recommendation.keywordType
  let duplicate := keywordSetDuplicate P set effectiveValue matchMode false
  let requiresConfirmation := decide (recommendation.keywordType = .regex)
  return {
    recommendationId := recommendation.recommendationId
    keywordSetId := set.keywordSetId
    caseId := recommendation.caseId
    reviewStatus := recommendation.reviewStatus
    reviewRevision := recommendation.currentReviewRevision
    effectiveValue
    keywordType := recommendation.keywordType
    matchMode
    duplicate := duplicate.isSome
    duplicateKeywordId := duplicate.map Keyword.keywordId
    regexRequiresConfirmation := requiresConfirmation
    promotable := !requiresConfirmation || regexConfirmed }

structure PromoteArgs where
  recommendationId : String
  keywordSetId : String
  actorId : String
  reason : String
  expectedCaseId : Option String := none
  expectedReviewRevision : Option ℤ := none
  regexConfirmed : Bool := false
  confirmationMetadata : Option (List (String × Json)) := none

/-- What `promote_accepted_keyword` has settled before it writes. -/
structure PromotionPlan where
  actorId : String
  reason : String
  recommendation : KeywordRecommendation
  set : KeywordSet
  effectiveValue : String
  matchMode : KeywordMatchMode
  fingerprint : String
  existing : Option KeywordPromotion

def promotionPlan (store : Store) (args : PromoteArgs) :
    Except PyError PromotionPlan := do
  let actorId ← boundedNonEmpty args.actorId "actor_id" maxActorIdLength
  let reason ← requiredReason args.reason
  let recommendation ← store.getKeywordRecommendation args.recommendationId
  requireTargetCase recommendation.caseId args.expectedCaseId
  let set ← getKeywordSet store.keywords args.keywordSetId none
  validateKeywordSetCase recommendation set
  requirePromotableRecommendation recommendation
  if args.expectedReviewRevision.any fun expected =>
      expected ≠ (recommendation.currentReviewRevision : ℤ) then
    .error (aiAssistanceError "AI_REVIEW_REVISION_CONFLICT"
      "Keyword recommendation review revision changed."
      "expected_review_revision" false)
  if recommendation.keywordType = .regex ∧ args.regexConfirmed = false then
    .error (aiAssistanceError "AI_REVIEW_TRANSITION_INVALID"
      "Regex keyword promotion requires explicit confirmation metadata."
      "regex_confirmed" false)
  match args.confirmationMetadata.bind fun metadata =>
      P.contractPayloadError (.obj metadata) "confirmation_metadata" with
  | some error => .error error
  | none => .ok ()
  let effectiveValue := recommendation.effectiveOrValue
  let matchMode := promotionMatchMode recommendation.keywordType
  let fingerprint := canonicalSha256 P.sha256 (.obj
    [("case_id", .str recommendation.caseId),
     ("recommendation_id", .str recommendation.recommendationId),
     ("review_revision", .int recommendation.currentReviewRevision),
     ("keyword_set_id", .str set.keywordSetId),
     ("effective_value", .str effectiveValue),
     ("keyword_type", .str recommendation.keywordType.value),
     ("match_mode", .str matchMode.value)]) []
  let existing := store.promotions.find? fun promotion =>
    promotion.promotionFingerprint = fingerprint
  return { actorId, reason, recommendation, set, effectiveValue, matchMode,
           fingerprint, existing }

def PromotionPlan.keywordArgs (plan : PromotionPlan) : AddKeywordArgs where
  term := plan.effectiveValue
  keywordType := plan.recommendation.keywordType
  matchMode := plan.matchMode
  caseSensitive := false
  enabled := true
  notes := some (P.jsonText (.obj
    [("promotion_source", .str "AI_KEYWORD_RECOMMENDATION"),
     ("recommendation_id", .str plan.recommendation.recommendationId),
     ("review_revision", .int plan.recommendation.currentReviewRevision),
     ("context_snapshot_id", .str plan.recommendation.contextSnapshotId)]))
  source := "AI_RECOMMENDATION"

def promotionConstraints :
    List (String × (KeywordPromotion → KeywordPromotion → Bool)) :=
  [("ai_keyword_promotions.promotion_id",
      fun p q => p.promotionId = q.promotionId),
   ("ai_keyword_promotions.promotion_fingerprint",
      fun p q => p.promotionFingerprint = q.promotionFingerprint),
   ("ai_keyword_promotions.recommendation_id, " ++
      "ai_keyword_promotions.review_revision, " ++
      "ai_keyword_promotions.keyword_set_id",
      fun p q => p.recommendationId = q.recommendationId &&
        p.reviewRevision = q.reviewRevision && p.keywordSetId = q.keywordSetId)]

/-- The record of a promotion, after the keyword set was changed or not. -/
def PromotionPlan.promotion (plan : PromotionPlan) (args : PromoteArgs)
    (set : KeywordSet) (promotedKeywordId : Option String) (duplicate : Bool)
    (inputs : CallInputs) : KeywordPromotion where
  promotionId := inputs.newId
  caseId := plan.recommendation.caseId
  recommendationId := plan.recommendation.recommendationId
  reviewRevision := plan.recommendation.currentReviewRevision
  keywordSetId := plan.set.keywordSetId
  keywordSetVersionId := set.keywordSetVersionId
  keywordSetVersion := set.version
  promotedKeywordId
  promotedValue := plan.effectiveValue
  status := if duplicate then "SKIPPED_DUPLICATE" else "PROMOTED"
  duplicate
  sourceContextSnapshotId := plan.recommendation.contextSnapshotId
  actorId := plan.actorId
  reason := plan.reason
  promotionFingerprint := plan.fingerprint
  metadata := .obj
    [("will_run_search", .bool false),
     ("will_activate_keyword_set", .bool false),
     ("keyword_type", .str plan.recommendation.keywordType.value),
     ("match_mode", .str plan.matchMode.value),
     ("regex_confirmed", .bool args.regexConfirmed),
     ("confirmation_metadata", .obj (args.confirmationMetadata.getD []))]
  createdAt := inputs.now

def saveKeywordPromotion (promotion : KeywordPromotion) :
    Service Store PyError KeywordPromotion :=
  Service.commit fun store => do
    let promotions ← insertRow promotionConstraints store.promotions promotion
    return (promotion, { store with promotions })

/-- The first of the ids that adding a keyword brought. -/
def newKeywordId (before updated : KeywordSet) : Option String :=
  (((updated.keywords.map Keyword.keywordId).filter fun keywordId =>
    keywordId ∉ before.keywords.map Keyword.keywordId).insertionSort
      (· ≤ ·)).head?

/-- `promote_accepted_keyword`; the keyword and the record are stored in
transactions of their own. -/
def promoteAcceptedKeyword (args : PromoteArgs) (keywordInputs : AddKeywordInputs)
    (inputs : CallInputs) : Service Store PyError KeywordPromotion := do
  let plan ← Service.read fun store => promotionPlan P store args
  match plan.existing with
  | some promotion => pure promotion
  | none =>
      match keywordSetDuplicate P plan.set plan.effectiveValue plan.matchMode
        false with
      | some duplicate =>
          saveKeywordPromotion
            (plan.promotion args plan.set (some duplicate.keywordId) true inputs)
      | none => do
          let updated ← Service.commit fun store => do
            let (updated, keywords) ← addKeyword P.toSearch store.keywords
              plan.set.keywordSetId (plan.keywordArgs P) keywordInputs
            return (updated, { store with keywords })
          saveKeywordPromotion
            (plan.promotion args updated (newKeywordId plan.set updated) false
              inputs)

end

end ApexForensic.Ai
