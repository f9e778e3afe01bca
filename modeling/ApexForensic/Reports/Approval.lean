import ApexForensic.Reports.Review
import ApexForensic.Support.Service

/-!
# Custody snapshots and approvals

A custody snapshot records the custody chains of a list of evidence and
whether they verify.  An approval is a decision on one version; approving
needs a completed review and a verified snapshot of the version.
-/

namespace ApexForensic.Reports

open ApexForensic.Support ApexForensic.Domain

/-! ## Reading the state of a version -/

def Store.latestApproval (store : Store) (reportVersionId : String) :
    Option ApprovalRecord :=
  (store.approvalsOf reportVersionId).getLast?

/-- `_approval_state`. -/
def Store.approvalState (store : Store) (reportVersionId : String) :
    ApprovalState :=
  let latest := store.latestApproval reportVersionId
  { decision := latest.map ApprovalRecord.decision
    approvalRevision := latest.elim 0 ApprovalRecord.approvalRevision
    approvalId := latest.map ApprovalRecord.approvalId
    approvalHash := latest.map ApprovalRecord.approvalHash }

/-- `_require_approved_version`. -/
def Store.requireApprovedVersion (store : Store) (version : ReportVersion) :
    Except PyError ApprovalRecord :=
  match store.latestApproval version.reportVersionId with
  | none => .error (reportError "REPORT_APPROVAL_TRANSITION_INVALID"
      "Export requires an approved report version."
      (some "report_version_id") [] false)
  | some approval =>
      if approval.decision ≠ .approved then
        .error (reportError "REPORT_APPROVAL_TRANSITION_INVALID"
          "Export requires an approved report version."
          (some "report_version_id") [] false)
      else if approval.contentFingerprint ≠ version.contentFingerprint then
        .error (reportError "REPORT_APPROVAL_FINGERPRINT_MISMATCH"
          "Approval fingerprint does not match the report version."
          (some "report_version_id") [] false)
      else .ok approval

/-! ## Custody snapshots -/

/-- What the snapshot loop collects over the evidence. -/
structure CustodyScan where
  eventIds : List String := []
  errors : List Json := []
  ledgerHeads : List String := []

def custodyEventId (data : Json) : Except PyError String := do
  match ← getItem data "event_id" with
  | .str s => .ok s
  | _ => .error (.builtin .typeError "event_id")

def custodyErrorItem (code evidenceId : String) : Json :=
  .obj [("code", .str code), ("evidence_id", .str evidenceId)]

section

variable (P : Platform)

/-- One turn of the loop over the evidence of `create_custody_snapshot`. -/
def scanEvidence (ledger : Custody.Store) (scan : CustodyScan)
    (evidenceId : String) : Except PyError CustodyScan :=
  let events := ledger.listCustodyEvents evidenceId
  match events.getLast? with
  | none => .ok { scan with
      errors := scan.errors ++
        [custodyErrorItem "CUSTODY_EVENTS_MISSING" evidenceId] }
  | some last => do
      let valid ← Custody.verifyChain P.toPlatform ledger evidenceId
      let ids ← events.mapM custodyEventId
      let head ← Custody.eventHash last
      return {
        eventIds := scan.eventIds ++ ids
        errors :=
          if valid then scan.errors
          else scan.errors ++
            [custodyErrorItem "CUSTODY_CHAIN_INVALID" evidenceId]
        ledgerHeads := scan.ledgerHeads ++ [head] }

/-- The status of a scan, and its errors. -/
def custodyStatus (evidenceIds : List String) (errors : List Json) :
    VerificationStatus × List Json :=
  if evidenceIds = [] then
    (.unknown,
      errors ++ [.obj [("code", .str "CUSTODY_EVIDENCE_SCOPE_EMPTY")]])
  else if errors ≠ [] then (.invalid, errors)
  else (.verified, errors)

/-- `create_custody_snapshot` up to its insert: the stored snapshot of the
same ledger state, or a new one. -/
def createCustodySnapshotRead (store : Store) (reportVersionId : String)
    (capturedBy : Json) (evidenceIds : Option Json) (inputs : CallInputs) :
    Except PyError (CustodySnapshot × Bool) := do
  let capturedBy ← boundedNonEmpty capturedBy "captured_by"
    maxActorIdLength
  let version ← store.getVersion reportVersionId
  let evidenceIds ← stringList
    (evidenceIds.getD (jsonStrs version.evidenceIds)) "evidence_ids"
    maxReferenceCount
  let evidenceIds ← validateEvidenceIds store.world version.caseId
    evidenceIds
  let scan ← evidenceIds.foldlM (scanEvidence P store.world.ledger) {}
  let (status, errors) := custodyStatus evidenceIds scan.errors
  if 100000 < scan.eventIds.length ∨ 10000 < errors.length then
    .error (reportError "REPORT_CONTENT_LIMIT_EXCEEDED"
      "Custody snapshot collections exceed the schema limits."
      (some "custody_snapshot") [] false)
  let ledgerHeadHash :=
    if scan.ledgerHeads = [] then none
    else some (digest P
      (jsonStrs (scan.ledgerHeads.insertionSort (· ≤ ·))))
  let snapshotFingerprint := digest P (.obj
    [("case_id", .str version.caseId),
     ("report_id", .str version.reportId),
     ("report_version_id", .str version.reportVersionId),
     ("evidence_ids", jsonStrs evidenceIds),
     ("custody_event_ids", jsonStrs scan.eventIds),
     ("ledger_head_hash", jsonStr? ledgerHeadHash),
     ("verification_status", .str status.value),
     ("verification_errors", .arr errors)])
  match store.custodySnapshotByFingerprint? snapshotFingerprint with
  | some existing => return (existing, false)
  | none => do
      let _ ← toJsonTimestamp inputs.now
      return ({
        custodySnapshotId := inputs.newId
        caseId := version.caseId
        reportId := version.reportId
        reportVersionId := version.reportVersionId
        evidenceIds
        custodyEventIds := scan.eventIds
        ledgerHeadHash
        verificationStatus := status
        verificationErrors := errors
        capturedBy
        capturedAt := inputs.now
        snapshotFingerprint }, true)

def createCustodySnapshot (reportVersionId : String) (capturedBy : Json)
    (evidenceIds : Option Json) (inputs : CallInputs) (store : Store) :
    Except PyError (CustodySnapshot × Store) := do
  let (snapshot, isNew) ←
    createCustodySnapshotRead P store reportVersionId capturedBy evidenceIds
      inputs
  if isNew then do
    let store ← store.saveCustodySnapshot snapshot
    return (snapshot, store)
  else return (snapshot, store)

def Store.getCustodySnapshot (store : Store) (custodySnapshotId : String) :
    Except PyError CustodySnapshot :=
  match store.custodySnapshot? custodySnapshotId with
  | some snapshot => .ok snapshot
  | none => .error (notFoundError "CUSTODY_SNAPSHOT_NOT_FOUND"
      "Report custody snapshot not found." (some "custody_snapshot_id"))

/-! ## Decisions -/

def ApprovalRecord.payload (a : ApprovalRecord) (decidedAt : String) : Json :=
  .obj
    [("approval_id", .str a.approvalId),
     ("report_id", .str a.reportId),
     ("report_version_id", .str a.reportVersionId),
     ("case_id", .str a.caseId),
     ("approver_id", .str a.approverId),
     ("decision", .str a.decision.value),
     ("reason", .str a.reason),
     ("content_fingerprint", .str a.contentFingerprint),
     ("custody_snapshot_id", jsonStr? a.custodySnapshotId),
     ("approval_revision", .int a.approvalRevision),
     ("previous_approval_hash", jsonStr? a.previousApprovalHash),
     ("decided_at", .str decidedAt)]

def ReportRecord.afterDecision (report : ReportRecord)
    (decision : ApprovalDecision) (decidedAt : Datetime) : ReportRecord :=
  { report with
    status :=
      match decision with
      | .approved => .approved
      | .rejected => .rejected
      | .revoked => .reviewRequired
    updatedAt := decidedAt }

/-- `_append_approval` up to its insert. -/
def appendApprovalRead (store : Store) (version : ReportVersion)
    (decision : ApprovalDecision) (actorId reason : Json)
    (custodySnapshotId : Option String)
    (expectedApprovalRevision : Option ℤ) (inputs : CallInputs) :
    Except PyError (ApprovalRecord × ReportRecord) := do
  let actorId ← boundedNonEmpty actorId "approver_id" maxActorIdLength
  let reason ← requiredReason P reason
  let approvals := store.approvalsOfReport version.reportId
  let latestRevision :=
    approvals.getLast?.elim 0 ApprovalRecord.approvalRevision
  if expectedApprovalRevision.any fun expected =>
      expected ≠ (latestRevision : ℤ) then
    .error (reportError "REPORT_APPROVAL_TRANSITION_INVALID"
      "Report approval revision changed."
      (some "expected_approval_revision") [] true)
  let decidedAt ← toJsonTimestamp inputs.now
  let approval : ApprovalRecord :=
    { approvalId := inputs.newId
      reportId := version.reportId
      reportVersionId := version.reportVersionId
      caseId := version.caseId
      approverId := actorId
      decision, reason
      contentFingerprint := version.contentFingerprint
      custodySnapshotId
      approvalRevision := latestRevision + 1
      previousApprovalHash :=
        approvals.getLast?.map ApprovalRecord.approvalHash
      approvalHash := ""
      decidedAt := inputs.now }
  let report ← store.getReport version.reportId
  return ({ approval with
      approvalHash := digest P (approval.payload decidedAt) },
    report.afterDecision decision inputs.now)

def appendApproval (version : ReportVersion) (decision : ApprovalDecision)
    (actorId reason : Json) (custodySnapshotId : Option String)
    (expectedApprovalRevision : Option ℤ) (inputs : CallInputs)
    (store : Store) : Except PyError (ApprovalRecord × Store) := do
  let (approval, report) ← appendApprovalRead P store version decision
    actorId reason custodySnapshotId expectedApprovalRevision inputs
  let store ← store.appendReportApprovalRecord approval report
  return (approval, store)

structure ApproveArgs where
  reportVersionId : String
  approverId : Json
  reason : Json
  custodySnapshotId : Option String := none
  expectedReviewRevision : Option ℤ := none
  expectedApprovalRevision : Option ℤ := none

/-- The checks of `approve` before it looks at a custody snapshot. -/
def approveRead (store : Store) (args : ApproveArgs) :
    Except PyError (ReportVersion × String × String) := do
  let approverId ← boundedNonEmpty args.approverId "approver_id"
    maxActorIdLength
  let reason ← requiredReason P args.reason
  let version ← store.getVersion args.reportVersionId
  let events := store.reviewEventsOf version.reportVersionId
  if args.expectedReviewRevision.any fun expected =>
      expected ≠ (latestReviewRevision events : ℤ) then
    .error (reportError "REPORT_REVIEW_REVISION_CONFLICT"
      "Report review revision changed." (some "expected_review_revision") []
      true)
  if reviewStatus events ≠ .reviewComplete then
    .error (reportError "REPORT_APPROVAL_REVIEW_INCOMPLETE"
      "Report approval requires completed review."
      (some "report_version_id") [] false)
  return (version, approverId, reason)

/-- The checks of `approve` on its custody snapshot. -/
def checkApprovalSnapshot (version : ReportVersion)
    (snapshot : CustodySnapshot) : Except PyError Unit := do
  if snapshot.reportVersionId ≠ version.reportVersionId then
    .error (reportError "REPORT_APPROVAL_VERSION_MISMATCH"
      "Custody snapshot belongs to another report version."
      (some "custody_snapshot_id") [] false)
  if snapshot.verificationStatus ≠ .verified then
    .error (reportError "REPORT_APPROVAL_REVIEW_INCOMPLETE"
      "Invalid or incomplete custody verification blocks approval."
      (some "custody_snapshot_id")
      [("verification_status", .str snapshot.verificationStatus.value)] false)

/-- `approve`; without a snapshot it first stores one. -/
def approve (args : ApproveArgs) (snapshotInputs inputs : CallInputs) :
    Service Store PyError ApprovalRecord := do
  let (version, approverId, reason) ← Service.read fun store =>
    approveRead P store args
  let snapshot ←
    match args.custodySnapshotId with
    | some custodySnapshotId => Service.read fun store =>
        store.getCustodySnapshot custodySnapshotId
    | none => Service.commit (createCustodySnapshot P
        version.reportVersionId (.str approverId) none snapshotInputs)
  Service.read fun _ => checkApprovalSnapshot version snapshot
  Service.commit (appendApproval P version .approved (.str approverId)
    (.str reason) (some snapshot.custodySnapshotId)
    args.expectedApprovalRevision inputs)

def reject (reportVersionId : String) (approverId reason : Json)
    (expectedApprovalRevision : Option ℤ) (inputs : CallInputs)
    (store : Store) : Except PyError (ApprovalRecord × Store) := do
  let version ← store.getVersion reportVersionId
  let reason ← requiredReason P reason
  appendApproval P version .rejected approverId (.str reason) none
    expectedApprovalRevision inputs store

def revokeApproval (reportVersionId : String) (actorId reason : Json)
    (expectedApprovalRevision : Option ℤ) (inputs : CallInputs)
    (store : Store) : Except PyError (ApprovalRecord × Store) := do
  let version ← store.getVersion reportVersionId
  let refused : PyError := reportError "REPORT_APPROVAL_TRANSITION_INVALID"
    "Only the latest approved report version can be revoked."
    (some "report_version_id") [] false
  match store.latestApproval version.reportVersionId with
  | none => .error refused
  | some latest =>
      if latest.decision ≠ .approved then .error refused
      else do
        let reason ← requiredReason P reason
        appendApproval P version .revoked actorId (.str reason)
          latest.custodySnapshotId expectedApprovalRevision inputs store

end

end ApexForensic.Reports
