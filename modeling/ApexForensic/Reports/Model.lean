import ApexForensic.Domain.Rows
import ApexForensic.Reports.Values

/-!
# Reports

The records of the report service and the tables that hold them.  Versions,
review events, approvals, snapshots and packages are never changed once they
are written; reports and export manifests are.
-/

namespace ApexForensic.Reports

open ApexForensic.Support ApexForensic.Domain

/-! ## Enumerations -/

inductive ReportStatus where
  | draft
  | reviewRequired
  | approved
  | rejected
  | exportReady
  | exported
  | exportFailed
  | archived
  deriving DecidableEq

inductive SourceKind where
  | analystDraft
  | aiDraft
  | importedDraft
  | systemAssembledData
  | other
  deriving DecidableEq

def SourceKind.members : List SourceKind :=
  [analystDraft, aiDraft, importedDraft, systemAssembledData, other]

def SourceKind.value : SourceKind → String
  | analystDraft => "ANALYST_DRAFT"
  | aiDraft => "AI_DRAFT"
  | importedDraft => "IMPORTED_DRAFT"
  | systemAssembledData => "SYSTEM_ASSEMBLED_DATA"
  | other => "OTHER"

/-- The values of `ReportType`. -/
def reportTypes : List String :=
  ["INVESTIGATION", "TRIAGE", "INCIDENT_RESPONSE", "EVIDENCE_SUMMARY",
    "CHAIN_OF_CUSTODY", "TECHNICAL_APPENDIX", "OTHER"]

/-- The values of `ReportSectionType`. -/
def sectionTypes : List String :=
  ["CASE_OVERVIEW", "ANALYSIS_PURPOSE", "EVIDENCE", "HASH_INTEGRITY",
    "CHAIN_OF_CUSTODY", "ANALYSIS_ENVIRONMENT", "ANALYSIS_SCOPE",
    "PARTIAL_STALE_WARNING", "TIMEZONE", "KEY_FINDINGS", "FILE_SYSTEM",
    "WINDOWS_ARTIFACT", "BROWSER", "MEDIA", "TIMELINE", "KEYWORD_SEARCH",
    "AI_ASSISTANCE", "MACHINE_CANDIDATE", "LIMITATIONS", "CONCLUSION",
    "RECOMMENDATION", "TECHNICAL_APPENDIX", "OTHER"]

/-- The values of `ReportContentKind`. -/
def contentKinds : List String :=
  ["PLAIN_TEXT", "MARKDOWN_SUBSET", "STRUCTURED_DATA", "REFERENCE_LIST",
    "TABLE_DATA", "OTHER"]

inductive ReviewAction where
  | submitForReview
  | comment
  | requestChanges
  | acceptSection
  | rejectSection
  | markReviewComplete
  | reopenReview
  deriving DecidableEq

def ReviewAction.value : ReviewAction → String
  | submitForReview => "SUBMIT_FOR_REVIEW"
  | comment => "COMMENT"
  | requestChanges => "REQUEST_CHANGES"
  | acceptSection => "ACCEPT_SECTION"
  | rejectSection => "REJECT_SECTION"
  | markReviewComplete => "MARK_REVIEW_COMPLETE"
  | reopenReview => "REOPEN_REVIEW"

inductive ApprovalDecision where
  | approved
  | rejected
  | revoked
  deriving DecidableEq

def ApprovalDecision.value : ApprovalDecision → String
  | approved => "APPROVED"
  | rejected => "REJECTED"
  | revoked => "REVOKED"

inductive VerificationStatus where
  | verified
  | invalid
  | unknown
  deriving DecidableEq

def VerificationStatus.value : VerificationStatus → String
  | verified => "VERIFIED"
  | invalid => "INVALID"
  | unknown => "UNKNOWN"

inductive ExportFormat where
  | pdf
  | html
  deriving DecidableEq

def ExportFormat.members : List ExportFormat :=
  [pdf, html]

def ExportFormat.value : ExportFormat → String
  | pdf => "PDF"
  | html => "HTML"

inductive ExportStatus where
  | prepared
  | rendering
  | completed
  | failed
  | cancelled
  | capabilityUnavailable
  deriving DecidableEq

def ExportStatus.value : ExportStatus → String
  | prepared => "PREPARED"
  | rendering => "RENDERING"
  | completed => "COMPLETED"
  | failed => "FAILED"
  | cancelled => "CANCELLED"
  | capabilityUnavailable => "CAPABILITY_UNAVAILABLE"

/-! ## Records -/

structure ReportRecord where
  reportId : String
  caseId : String
  title : String
  description : Option String
  reportType : String
  locale : String
  timezone : String
  status : ReportStatus
  activeVersionId : Option String
  latestVersionNumber : ℕ
  createdBy : String
  createdAt : Datetime
  updatedAt : Datetime
  archivedAt : Option Datetime
  reportFingerprint : String

structure ReportSection where
  sectionId : String
  sectionType : String
  title : String
  order : ℤ
  contentKind : String
  content : String
  structuredData : List (String × Json)
  sourceKind : SourceKind
  sourceResourceIds : List String
  contextSnapshotIds : List String
  citations : List Json
  isPartial : Bool
  staleReasons : List String
  coverage : List (String × Json)
  warnings : List Json
  sectionFingerprint : String

def jsonStrs (values : List String) : Json :=
  .arr (values.map Json.str)

def jsonStr? (value : Option String) : Json :=
  value.elim .null .str

def ReportSection.toSchemaDict (s : ReportSection) : Json :=
  .obj
    [("section_id", .str s.sectionId),
     ("section_type", .str s.sectionType),
     ("title", .str s.title),
     ("order", .int s.order),
     ("content_kind", .str s.contentKind),
     ("content", .str s.content),
     ("structured_data", .obj s.structuredData),
     ("source_kind", .str s.sourceKind.value),
     ("source_resource_ids", jsonStrs s.sourceResourceIds),
     ("context_snapshot_ids", jsonStrs s.contextSnapshotIds),
     ("citations", .arr s.citations),
     ("is_partial", .bool s.isPartial),
     ("stale_reasons", jsonStrs s.staleReasons),
     ("coverage", .obj s.coverage),
     ("warnings", .arr s.warnings),
     ("section_fingerprint", .str s.sectionFingerprint)]

structure ReportVersion where
  reportVersionId : String
  reportId : String
  caseId : String
  versionNumber : ℕ
  previousVersionId : Option String
  sourceKind : SourceKind
  sourceReferenceId : Option String
  createdBy : String
  title : String
  executiveSummary : String
  sections : List ReportSection
  contextSnapshotIds : List String
  evidenceIds : List String
  searchExecutionIds : List String
  timelineRevisions : List ℤ
  aiAssistanceRequestIds : List String
  aiResultIds : List String
  citationIds : List String
  partialState : Json
  isStale : Bool
  staleReasons : List String
  coverageSummary : Json
  limitations : List String
  analyzerVersions : Json
  sourceRevisions : Json
  contentFingerprint : String
  previousContentFingerprint : Option String
  createdAt : Datetime

def ReportVersion.staleState (version : ReportVersion) : Json :=
  .obj [("is_stale", .bool version.isStale),
    ("stale_reasons", jsonStrs version.staleReasons)]

structure ReviewEvent where
  reviewEventId : String
  reportId : String
  reportVersionId : String
  caseId : String
  action : ReviewAction
  actorId : String
  reason : String
  sectionId : Option String
  comment : Option String
  requestedChanges : List String
  expectedReviewRevision : Option ℤ
  reviewRevision : ℕ
  previousEventHash : Option String
  eventHash : String
  createdAt : Datetime

structure ApprovalRecord where
  approvalId : String
  reportId : String
  reportVersionId : String
  caseId : String
  approverId : String
  decision : ApprovalDecision
  reason : String
  contentFingerprint : String
  custodySnapshotId : Option String
  approvalRevision : ℕ
  previousApprovalHash : Option String
  approvalHash : String
  decidedAt : Datetime

structure CustodySnapshot where
  custodySnapshotId : String
  caseId : String
  reportId : String
  reportVersionId : String
  evidenceIds : List String
  custodyEventIds : List String
  ledgerHeadHash : Option String
  verificationStatus : VerificationStatus
  verificationErrors : List Json
  capturedBy : String
  capturedAt : Datetime
  snapshotFingerprint : String

/-- The approval that a render package was built under. -/
structure ApprovalState where
  decision : Option ApprovalDecision
  approvalRevision : ℕ
  approvalId : Option String
  approvalHash : Option String
  deriving DecidableEq

structure RenderPackage where
  packageId : String
  reportId : String
  reportVersionId : String
  caseId : String
  locale : String
  timezone : String
  title : String
  executiveSummary : String
  versionNumber : ℕ
  sourceKind : SourceKind
  approvalState : ApprovalState
  exportAllowed : Bool
  createdBy : String
  sections : List Json
  evidenceManifest : List Json
  custodySnapshotId : Option String
  contextSnapshotIds : List String
  citations : List Json
  partialState : Json
  staleState : Json
  coverageSummary : Json
  limitations : List String
  packageFingerprint : String
  createdAt : Datetime

structure ExportManifest where
  exportManifestId : String
  reportId : String
  reportVersionId : String
  caseId : String
  format : ExportFormat
  renderPackageId : String
  rendererId : String
  rendererVersion : String
  requestedFilename : String
  derivedOutputRootId : String
  overwritePolicy : String
  redactionPolicy : String
  includeCitations : Bool
  includeCustody : Bool
  includeTechnicalAppendix : Bool
  contentFingerprint : String
  manifestFingerprint : String
  approvalId : String
  custodySnapshotId : Option String
  status : ExportStatus
  warnings : List Json
  createdBy : String
  createdAt : Datetime

structure RenderedArtifact where
  renderedArtifactId : String
  exportManifestId : String
  reportVersionId : String
  format : ExportFormat
  rendererId : String
  rendererVersion : String
  outputReference : String
  filename : String
  mimeType : String
  sizeBytes : ℤ
  sha256 : String
  renderedAt : Datetime
  warnings : List Json
  artifactFingerprint : String

structure ExportAuditEvent where
  auditEventId : String
  exportManifestId : String
  reportId : String
  reportVersionId : String
  caseId : String
  action : String
  actorId : Option String
  status : ExportStatus
  details : Json
  previousEventHash : Option String
  eventHash : String
  createdAt : Datetime

/-! ## Other services -/

/-- What a report reads of a context snapshot. -/
structure ContextSnapshot where
  contextSnapshotId : String
  caseId : String
  includedResourceIds : List (String × List String)
  isPartial : Bool
  staleReasons : List String
  contextFingerprint : String
  sourceRevisions : List Json
  createdAt : Datetime

/-- What `resolve_resource` returns about a cited resource. -/
structure ResourceInfo where
  resourceType : String
  caseId : String
  evidenceId : Option String

/-- What the report service reads of the other services: the case locale and
zone, the custody ledger, the manifest item of an evidence, and the owners of
what a version refers to. -/
structure World where
  caseLocale : String → Option (String × String)
  ledger : Custody.Store
  evidenceItem : String → Json
  snapshot : String → Option ContextSnapshot
  resource : String → String → Option ResourceInfo
  searchExecutionCase : String → Option String
  aiRequestCase : String → Except PyError String
  aiResultCase : String → Option String

/-! ## The store -/

structure Store where
  reports : List ReportRecord
  versions : List ReportVersion
  reviewEvents : List ReviewEvent
  approvals : List ApprovalRecord
  custodySnapshots : List CustodySnapshot
  packages : List RenderPackage
  manifests : List ExportManifest
  artifacts : List RenderedArtifact
  auditEvents : List ExportAuditEvent
  world : World

/-- The store before the first report. -/
def Store.empty (world : World) : Store where
  reports := []
  versions := []
  reviewEvents := []
  approvals := []
  custodySnapshots := []
  packages := []
  manifests := []
  artifacts := []
  auditEvents := []
  world := world

/-- What the clock and the id generator return during one call. -/
structure CallInputs where
  now : Datetime
  newId : String

namespace Store

variable (store : Store)

/-! ### Reading -/

def report? (reportId : String) : Option ReportRecord :=
  store.reports.find? fun r => r.reportId = reportId

def version? (reportVersionId : String) : Option ReportVersion :=
  store.versions.find? fun v => v.reportVersionId = reportVersionId

def versionByFingerprint? (reportId contentFingerprint : String) :
    Option ReportVersion :=
  store.versions.find? fun v =>
    v.reportId = reportId ∧ v.contentFingerprint = contentFingerprint

def custodySnapshot? (custodySnapshotId : String) : Option CustodySnapshot :=
  store.custodySnapshots.find? fun c => c.custodySnapshotId = custodySnapshotId

def custodySnapshotByFingerprint? (snapshotFingerprint : String) :
    Option CustodySnapshot :=
  store.custodySnapshots.find? fun c =>
    c.snapshotFingerprint = snapshotFingerprint

def package? (packageId : String) : Option RenderPackage :=
  store.packages.find? fun p => p.packageId = packageId

def packageByFingerprint? (packageFingerprint : String) :
    Option RenderPackage :=
  store.packages.find? fun p => p.packageFingerprint = packageFingerprint

def manifest? (exportManifestId : String) : Option ExportManifest :=
  store.manifests.find? fun m => m.exportManifestId = exportManifestId

def manifestByFingerprint? (manifestFingerprint : String) :
    Option ExportManifest :=
  store.manifests.find? fun m => m.manifestFingerprint = manifestFingerprint

/-- `list_report_review_events`. -/
def reviewEventsOf (reportVersionId : String) : List ReviewEvent :=
  (store.reviewEvents.filter fun e =>
    e.reportVersionId = reportVersionId).insertionSort
      (orderBy ReviewEvent.reviewRevision ReviewEvent.reviewEventId)

/-- `list_report_approval_records` of a report. -/
def approvalsOfReport (reportId : String) : List ApprovalRecord :=
  (store.approvals.filter fun a => a.reportId = reportId).insertionSort
    (orderBy ApprovalRecord.approvalRevision ApprovalRecord.approvalId)

/-- `list_report_approval_records` of a version. -/
def approvalsOf (reportVersionId : String) : List ApprovalRecord :=
  (store.approvals.filter fun a =>
    a.reportVersionId = reportVersionId).insertionSort
      (orderBy ApprovalRecord.approvalRevision ApprovalRecord.approvalId)

/-- `list_report_export_audit_events`, in the order of their clock. -/
def auditEventsOf (exportManifestId : String) : List ExportAuditEvent :=
  (store.auditEvents.filter fun e =>
    e.exportManifestId = exportManifestId).insertionSort
      (orderBy (fun e => e.createdAt.utcMicros) ExportAuditEvent.auditEventId)

def getReport (reportId : String) : Except PyError ReportRecord :=
  match store.report? reportId with
  | some report => .ok report
  | none => .error (notFoundError "REPORT_NOT_FOUND" "Report not found."
      (some "report_id"))

def getVersion (reportVersionId : String) : Except PyError ReportVersion :=
  match store.version? reportVersionId with
  | some version => .ok version
  | none => .error (notFoundError "REPORT_VERSION_NOT_FOUND"
      "Report version not found." (some "report_version_id"))

/-! ### Writing -/

def saveReport (report : ReportRecord) : Except PyError Store := do
  let reports ← insertRow
    [("reports.report_id", fun a b => a.reportId = b.reportId)]
    store.reports report
  .ok { store with reports := reports }

def updateReport (report : ReportRecord) : Store :=
  { store with
    reports := updateRow ReportRecord.reportId store.reports report }

/-- The sections and the revisions of a version are keyed by their ids. -/
def checkVersionRows (version : ReportVersion) : Except PyError Unit :=
  if ¬ (version.sections.map ReportSection.sectionId).Nodup then
    .error (.builtin .integrityError ("UNIQUE constraint failed: " ++
      "report_version_sections.report_version_id, " ++
      "report_version_sections.section_id"))
  else if ¬ version.timelineRevisions.Nodup then
    .error (.builtin .integrityError ("UNIQUE constraint failed: " ++
      "report_version_references.report_version_id, " ++
      "report_version_references.reference_type, " ++
      "report_version_references.reference_id"))
  else .ok ()

def saveReportVersion (version : ReportVersion) (report : ReportRecord) :
    Except PyError Store := do
  let versions ← insertRow
    [("report_versions.report_version_id",
        fun a b => a.reportVersionId = b.reportVersionId),
     ("report_versions.report_id, report_versions.version_number",
        fun a b => a.reportId = b.reportId ∧
          a.versionNumber = b.versionNumber),
     ("report_versions.report_id, report_versions.content_fingerprint",
        fun a b => a.reportId = b.reportId ∧
          a.contentFingerprint = b.contentFingerprint)]
    store.versions version
  checkVersionRows version
  .ok ({ store with versions := versions }.updateReport report)

def appendReportReviewEvent (event : ReviewEvent) (report : ReportRecord) :
    Except PyError Store := do
  let events ← insertRow
    [("report_review_events.review_event_id",
        fun a b => a.reviewEventId = b.reviewEventId),
     ("report_review_events.report_version_id, " ++
        "report_review_events.review_revision",
        fun a b => a.reportVersionId = b.reportVersionId ∧
          a.reviewRevision = b.reviewRevision),
     ("report_review_events.report_version_id, " ++
        "report_review_events.event_hash",
        fun a b => a.reportVersionId = b.reportVersionId ∧
          a.eventHash = b.eventHash)]
    store.reviewEvents event
  .ok ({ store with reviewEvents := events }.updateReport report)

def appendReportApprovalRecord (approval : ApprovalRecord)
    (report : ReportRecord) : Except PyError Store := do
  let approvals ← insertRow
    [("report_approval_records.approval_id",
        fun a b => a.approvalId = b.approvalId),
     ("report_approval_records.report_id, " ++
        "report_approval_records.approval_revision",
        fun a b => a.reportId = b.reportId ∧
          a.approvalRevision = b.approvalRevision),
     ("report_approval_records.report_id, " ++
        "report_approval_records.approval_hash",
        fun a b => a.reportId = b.reportId ∧
          a.approvalHash = b.approvalHash)]
    store.approvals approval
  .ok ({ store with approvals := approvals }.updateReport report)

def saveCustodySnapshot (snapshot : CustodySnapshot) :
    Except PyError Store := do
  let snapshots ← insertRow
    [("custody_snapshots.custody_snapshot_id",
        fun a b => a.custodySnapshotId = b.custodySnapshotId),
     ("custody_snapshots.snapshot_fingerprint",
        fun a b => a.snapshotFingerprint = b.snapshotFingerprint)]
    store.custodySnapshots snapshot
  if ¬ snapshot.custodyEventIds.Nodup then
    .error (.builtin .integrityError ("UNIQUE constraint failed: " ++
      "custody_snapshot_events.custody_snapshot_id, " ++
      "custody_snapshot_events.custody_event_id"))
  .ok { store with custodySnapshots := snapshots }

def saveReportRenderPackage (package : RenderPackage) :
    Except PyError Store := do
  let packages ← insertRow
    [("report_render_packages.package_id",
        fun a b => a.packageId = b.packageId),
     ("report_render_packages.package_fingerprint",
        fun a b => a.packageFingerprint = b.packageFingerprint)]
    store.packages package
  .ok { store with packages := packages }

def saveReportExportManifest (manifest : ExportManifest)
    (report : ReportRecord) : Except PyError Store := do
  let manifests ← insertRow
    [("report_export_manifests.export_manifest_id",
        fun a b => a.exportManifestId = b.exportManifestId),
     ("report_export_manifests.manifest_fingerprint",
        fun a b => a.manifestFingerprint = b.manifestFingerprint)]
    store.manifests manifest
  .ok ({ store with manifests := manifests }.updateReport report)

def updateReportExportManifest (manifest : ExportManifest) : Store :=
  { store with
    manifests :=
      updateRow ExportManifest.exportManifestId store.manifests manifest }

def saveRenderedReportArtifact (artifact : RenderedArtifact)
    (manifest : ExportManifest) (report : ReportRecord) :
    Except PyError Store := do
  let artifacts ← insertRow
    [("rendered_report_artifacts.rendered_artifact_id",
        fun a b => a.renderedArtifactId = b.renderedArtifactId),
     ("rendered_report_artifacts.artifact_fingerprint",
        fun a b => a.artifactFingerprint = b.artifactFingerprint)]
    store.artifacts artifact
  .ok (({ store with artifacts := artifacts }.updateReportExportManifest
    manifest).updateReport report)

def appendReportExportAuditEvent (event : ExportAuditEvent) :
    Except PyError Store := do
  let events ← insertRow
    [("report_export_audit_events.audit_event_id",
        fun a b => a.auditEventId = b.auditEventId),
     ("report_export_audit_events.export_manifest_id, " ++
        "report_export_audit_events.event_hash",
        fun a b => a.exportManifestId = b.exportManifestId ∧
          a.eventHash = b.eventHash)]
    store.auditEvents event
  .ok { store with auditEvents := events }

end Store

end ApexForensic.Reports
