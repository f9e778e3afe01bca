import ApexForensic.Reports.Versions

/-!
# Reviewing a version

The review status of a version and the verdicts on its sections are computed
from its review events each time they are needed; nothing else is stored.
-/

namespace ApexForensic.Reports

open ApexForensic.Support ApexForensic.Domain

inductive ReviewStatus where
  | draft
  | inReview
  | changesRequested
  | reviewComplete
  deriving DecidableEq

/-- `_review_status_from_events`. -/
def reviewStatus (events : List ReviewEvent) : ReviewStatus :=
  match events.getLast? with
  | none => .draft
  | some event =>
      match event.action with
      | .markReviewComplete => .reviewComplete
      | .requestChanges => .changesRequested
      | _ => .inReview

inductive Verdict where
  | accepted
  | rejected
  | changesRequested
  deriving DecidableEq

/-- `_section_review_state`. -/
def sectionReviewState (events : List ReviewEvent) :
    List (String × Verdict) :=
  events.foldl (fun state event =>
    match event.sectionId with
    | none => state
    | some sectionId =>
        match event.action with
        | .acceptSection => setItem sectionId .accepted state
        | .rejectSection => setItem sectionId .rejected state
        | .requestChanges => setItem sectionId .changesRequested state
        | _ => state) []

def ReportSection.reviewRequired (s : ReportSection) : Bool :=
  !(getDefault s.coverage "review_required" (.bool true) matches .bool false)

/-- `_missing_required_section_reviews`. -/
def missingRequiredSectionReviews (version : ReportVersion)
    (events : List ReviewEvent) : List String :=
  let state := sectionReviewState events
  let required := (version.sections.filter ReportSection.reviewRequired).map
    ReportSection.sectionId
  required.filter fun sectionId => state.lookup sectionId ≠ some .accepted

/-- `events[-1].review_revision if events else 0`. -/
def latestReviewRevision (events : List ReviewEvent) : ℕ :=
  events.getLast?.elim 0 ReviewEvent.reviewRevision

structure ReviewArgs where
  reportVersionId : String
  action : ReviewAction
  actorId : Json
  reason : Json
  sectionId : Option String := none
  comment : Json := .null
  requestedChanges : Json := .null
  expectedReviewRevision : Option ℤ := none

def maxRequestedChangeCount : ℕ := 100
def maxRequestedChangeLength : ℕ := 4000

section

variable (P : Platform)

def reviewTexts (args : ReviewArgs) :
    Except PyError (String × String × Option String × List String) := do
  let actorId ← boundedNonEmpty args.actorId "actor_id" maxActorIdLength
  let reason ← requiredReason P args.reason
  let comment ← boundedOptionalText args.comment "comment"
    maxRequestedChangeLength
  comment.forM fun text => do
    let _ ← safeText P text "comment"
  let requestedChanges ← stringList (orEmptyList args.requestedChanges)
    "requested_changes" maxRequestedChangeCount
  validateStringLengths requestedChanges "requested_changes"
    maxRequestedChangeLength
  return (actorId, reason, comment, requestedChanges)

def reviewError (code message target : String)
    (details : List (String × Json)) : PyError :=
  reportError code message (some target) details false

/-- The checks of an action against the version and its events. -/
def checkReviewAction (version : ReportVersion) (events : List ReviewEvent)
    (args : ReviewArgs) (requestedChanges : List String) :
    Except PyError Unit := do
  if args.expectedReviewRevision.any fun expected =>
      expected ≠ (latestReviewRevision events : ℤ) then
    .error (reportError "REPORT_REVIEW_REVISION_CONFLICT"
      "Report review revision changed." (some "expected_review_revision") []
      true)
  if args.action = .markReviewComplete ∧
      reviewStatus events ≠ .inReview ∧
      reviewStatus events ≠ .changesRequested then
    .error (reviewError "REPORT_REVIEW_TRANSITION_INVALID"
      "Review must be submitted before completion." "action" [])
  if (args.action = .acceptSection ∨ args.action = .rejectSection) ∧
      args.sectionId = none then
    .error (reviewError "REPORT_REVIEW_REQUIRED"
      "Section review actions require section_id." "section_id" [])
  if args.sectionId.any fun sectionId =>
      sectionId ∉ version.sections.map ReportSection.sectionId then
    .error (reviewError "REPORT_REVIEW_TARGET_NOT_FOUND"
      "Review section not found on the target report version."
      "section_id" [])
  if args.action = .markReviewComplete ∧
      missingRequiredSectionReviews version events ≠ [] then
    .error (reviewError "REPORT_REVIEW_REQUIRED"
      "All required report sections must be accepted before review completion."
      "section_id" [("missing_section_ids",
        jsonStrs (missingRequiredSectionReviews version events))])
  if args.action = .requestChanges ∧ requestedChanges = [] then
    .error (reviewError "REPORT_REVIEW_REQUIRED"
      "Request changes requires requested_changes." "requested_changes" [])

def ReviewEvent.payload (e : ReviewEvent) (createdAt : String) : Json :=
  .obj
    [("review_event_id", .str e.reviewEventId),
     ("report_id", .str e.reportId),
     ("report_version_id", .str e.reportVersionId),
     ("case_id", .str e.caseId),
     ("action", .str e.action.value),
     ("actor_id", .str e.actorId),
     ("reason", .str e.reason),
     ("section_id", jsonStr? e.sectionId),
     ("comment", jsonStr? e.comment),
     ("requested_changes", jsonStrs e.requestedChanges),
     ("expected_review_revision",
        e.expectedReviewRevision.elim .null .int),
     ("review_revision", .int e.reviewRevision),
     ("previous_event_hash", jsonStr? e.previousEventHash),
     ("created_at", .str createdAt)]

/-- What an action makes of the report header. -/
def ReportRecord.afterReview (report : ReportRecord) (action : ReviewAction)
    (createdAt : Datetime) : ReportRecord :=
  { report with
    status :=
      match action with
      | .requestChanges => .rejected
      | .submitForReview => .reviewRequired
      | .reopenReview => .reviewRequired
      | _ => report.status
    updatedAt := createdAt }

/-- `_append_review_event` up to its insert: one read of the store. -/
def appendReviewEventRead (store : Store) (args : ReviewArgs)
    (inputs : CallInputs) : Except PyError (ReviewEvent × ReportRecord) := do
  let version ← store.getVersion args.reportVersionId
  let (actorId, reason, comment, requestedChanges) ← reviewTexts P args
  let events := store.reviewEventsOf version.reportVersionId
  checkReviewAction version events args requestedChanges
  let createdAt ← toJsonTimestamp inputs.now
  let event : ReviewEvent :=
    { reviewEventId := inputs.newId
      reportId := version.reportId
      reportVersionId := version.reportVersionId
      caseId := version.caseId
      action := args.action
      actorId, reason
      sectionId := args.sectionId
      comment, requestedChanges
      expectedReviewRevision := args.expectedReviewRevision
      reviewRevision := latestReviewRevision events + 1
      previousEventHash := events.getLast?.map ReviewEvent.eventHash
      eventHash := ""
      createdAt := inputs.now }
  let report ← store.getReport version.reportId
  return ({ event with eventHash := digest P (event.payload createdAt) },
    report.afterReview args.action inputs.now)

def appendReviewEvent (store : Store) (args : ReviewArgs)
    (inputs : CallInputs) : Except PyError (ReviewEvent × Store) := do
  let (event, report) ← appendReviewEventRead P store args inputs
  let store ← store.appendReportReviewEvent event report
  return (event, store)

end

end ApexForensic.Reports
