import ApexForensic.Reports.Approval

/-!
# Packages, exports and their results

An export is prepared under the latest approval of a version, from a render
package that is built once for each content.  A renderer, which may be any
program, then produces a result that is recorded with the export.
-/

namespace ApexForensic.Reports

open ApexForensic.Support ApexForensic.Domain

def outputInvalid (message target : String) : PyError :=
  reportError "REPORT_OUTPUT_INVALID" message (some target) [] false

/-! ## Names of outputs -/

/-- A drive letter and a colon at the start of a name. -/
def hasDrive (s : String) : Bool :=
  match s.toList with
  | c :: ':' :: _ => c.isAlpha
  | _ => false

/-- `PurePosixPath(s).parts` after the root. -/
def pathParts (s : String) : List String :=
  ((s.toList.splitOn '/').map String.ofList).filter fun part =>
    part ≠ "" ∧ part ≠ "."

def isAbsolute (s : String) : Bool :=
  s.toList.head? = some '/'

/-- `re.sub(r"\s+", "_", s)`: the last character of each run of white space
becomes an underscore. -/
def joinSpaces : List Char → List Char
  | [] => []
  | c :: cs =>
      if isSpace c = false then c :: joinSpaces cs
      else if cs.head?.any isSpace then joinSpaces cs
      else '_' :: joinSpaces cs

def forbiddenNameChar (c : Char) : Bool :=
  c ∈ ['<', '>', ':', '"', '\\', '|', '?', '*'] || c.toNat < 0x20

def reservedBasenames : List String :=
  ["con", "prn", "aux", "nul",
    "com1", "com2", "com3", "com4", "com5", "com6", "com7", "com8", "com9",
    "lpt1", "lpt2", "lpt3", "lpt4", "lpt5", "lpt6", "lpt7", "lpt8", "lpt9"]

section

variable (P : Platform)

def validateOutputPathSegment (segment target : String) :
    Except PyError Unit :=
  if segment = "" ∨ segment = "." ∨ segment = ".." ∨
      segment.toList.getLast?.any (fun c => c = ' ' || c = '.') ∨
      hasDrive segment ∨ segment.toList.any forbiddenNameChar ∨
      P.casefold (String.ofList
        (segment.toList.takeWhile (· ≠ '.'))) ∈ reservedBasenames then
    .error (outputInvalid
      "Report output path segment is not portable or safe." target)
  else .ok ()

def maxFilenameLength : ℕ := 180

def ExportFormat.extension : ExportFormat → String
  | pdf => ".pdf"
  | html => ".html"

def ExportFormat.mimeType : ExportFormat → String
  | pdf => "application/pdf"
  | html => "text/html"

def safeFilename (filename : Json) (format : ExportFormat) :
    Except PyError String := do
  let filename ← requiredNonEmpty P filename "filename"
  if hasDrive filename then
    .error (outputInvalid "Export filename cannot use a Windows drive prefix."
      "filename")
  let posix := String.ofList (filename.toList.map fun c =>
    if c = '\\' then '/' else c)
  match isAbsolute posix, pathParts posix with
  | false, [name] => do
      if name = ".." then
        .error (outputInvalid
          "Export filename cannot be an absolute path or contain traversal."
          "filename")
      let cleaned := String.ofList (joinSpaces (strip name).toList)
      if cleaned = "" ∨ maxFilenameLength < cleaned.length then
        .error (outputInvalid "Export filename is invalid." "filename")
      let cleaned :=
        if format.extension.toList.isSuffixOf (P.casefold cleaned).toList
        then cleaned
        else cleaned ++ format.extension
      if maxFilenameLength < cleaned.length then
        .error (outputInvalid "Export filename is invalid." "filename")
      validateOutputPathSegment P cleaned "filename"
      return cleaned
  | _, _ => .error (outputInvalid
      "Export filename cannot be an absolute path or contain traversal."
      "filename")

def validateOutputReference (outputReference rootId : String) :
    Except PyError Unit := do
  let root := "derived://" ++ rootId ++ "/"
  if ¬ root.toList.isPrefixOf outputReference.toList then
    .error (reportError "REPORT_OUTPUT_OUTSIDE_DERIVED_ROOT"
      "Renderer output reference is outside the configured derived root."
      (some "output_reference") [] false)
  let relative := String.ofList (outputReference.toList.drop root.length)
  if isAbsolute relative ∨ ".." ∈ pathParts relative then
    .error (reportError "REPORT_OUTPUT_OUTSIDE_DERIVED_ROOT"
      "Renderer output reference escapes the derived root."
      (some "output_reference") [] false)
  (pathParts relative).forM fun part =>
    validateOutputPathSegment P part "output_reference"

/-! ## Render packages -/

structure PackageArgs where
  reportVersionId : String
  createdBy : Json
  forExport : Bool := false
  custodySnapshotId : Option String := none
  staleConfirmed : Bool := false

/-- The manifest item of an evidence, which must exist. -/
def evidenceManifestItem (world : World) (evidenceId : String) :
    Except PyError Json :=
  match world.ledger.getEvidence evidenceId with
  | none => .error (referenceNotFound "Evidence not found." "evidence_ids")
  | some _ => .ok (world.evidenceItem evidenceId)

/-- The citations of the sections of a version, each once. -/
def ReportVersion.citations (version : ReportVersion) : List Json :=
  stableItems P (version.sections.flatMap ReportSection.citations)

/-- The digest of what a package contains. -/
def packageFingerprint (version : ReportVersion)
    (evidenceManifest : List Json) (custodySnapshotId : Option String)
    (forExport : Bool) : String :=
  digest P (.obj
    [("report_id", .str version.reportId),
     ("report_version_id", .str version.reportVersionId),
     ("case_id", .str version.caseId),
     ("sections", .arr (version.sections.map ReportSection.toSchemaDict)),
     ("evidence_manifest", .arr evidenceManifest),
     ("custody_snapshot_id", jsonStr? custodySnapshotId),
     ("context_snapshot_ids", jsonStrs version.contextSnapshotIds),
     ("citations", .arr (version.citations P)),
     ("partial_state", version.partialState),
     ("stale_state", version.staleState),
     ("coverage_summary", version.coverageSummary),
     ("limitations", jsonStrs version.limitations),
     ("for_export", .bool forExport)])

/-- `a or b` of optional identifiers. -/
def orElseId (a b : Option String) : Option String :=
  if a.getD "" ≠ "" then a else b

/-- The custody snapshot of a package; one for export needs an approval. -/
def packageCustody (store : Store) (args : PackageArgs)
    (version : ReportVersion) : Except PyError (Option String) :=
  if args.forExport then do
    let approval ← store.requireApprovedVersion version
    return orElseId args.custodySnapshotId approval.custodySnapshotId
  else .ok args.custodySnapshotId

/-- `create_render_package` up to its insert: the stored package of the same
content, or a new one. -/
def createRenderPackageRead (store : Store) (args : PackageArgs)
    (inputs : CallInputs) : Except PyError (RenderPackage × Bool) := do
  let createdBy ← boundedNonEmpty args.createdBy "created_by"
    maxActorIdLength
  let version ← store.getVersion args.reportVersionId
  let custodySnapshotId ← packageCustody store args version
  if version.isStale ∧ args.forExport ∧ ¬ args.staleConfirmed then
    .error (reportError "REPORT_APPROVAL_TRANSITION_INVALID"
      "Stale report export requires explicit confirmation."
      (some "stale_confirmed") [] false)
  let evidenceManifest ← version.evidenceIds.mapM
    (evidenceManifestItem store.world)
  if maxCitationCount < (version.citations P).length then
    .error (reportError "REPORT_CONTENT_LIMIT_EXCEEDED"
      "Render package exceeds the maximum citation count."
      (some "citations") [] false)
  let fingerprint := packageFingerprint P version evidenceManifest
    custodySnapshotId args.forExport
  match store.packageByFingerprint? fingerprint with
  | some existing => return (existing, false)
  | none => do
      let report ← store.getReport version.reportId
      let _ ← toJsonTimestamp inputs.now
      return ({
        packageId := inputs.newId
        reportId := version.reportId
        reportVersionId := version.reportVersionId
        caseId := version.caseId
        locale := report.locale
        timezone := report.timezone
        title := version.title
        executiveSummary := version.executiveSummary
        versionNumber := version.versionNumber
        sourceKind := version.sourceKind
        approvalState := store.approvalState version.reportVersionId
        exportAllowed := args.forExport
        createdBy
        sections := version.sections.map ReportSection.toSchemaDict
        evidenceManifest
        custodySnapshotId
        contextSnapshotIds := version.contextSnapshotIds
        citations := version.citations P
        partialState := version.partialState
        staleState := version.staleState
        coverageSummary := version.coverageSummary
        limitations := version.limitations
        packageFingerprint := fingerprint
        createdAt := inputs.now }, true)

def createRenderPackage (args : PackageArgs) (inputs : CallInputs)
    (store : Store) : Except PyError (RenderPackage × Store) := do
  let (package, isNew) ← createRenderPackageRead P store args inputs
  if isNew then do
    let store ← store.saveReportRenderPackage package
    return (package, store)
  else return (package, store)

/-! ## Audit events -/

def ExportAuditEvent.payload (e : ExportAuditEvent) (createdAt : String) :
    Json :=
  .obj
    [("audit_event_id", .str e.auditEventId),
     ("export_manifest_id", .str e.exportManifestId),
     ("report_id", .str e.reportId),
     ("report_version_id", .str e.reportVersionId),
     ("case_id", .str e.caseId),
     ("action", .str e.action),
     ("actor_id", jsonStr? e.actorId),
     ("status", .str e.status.value),
     ("details", e.details),
     ("previous_event_hash", jsonStr? e.previousEventHash),
     ("created_at", .str createdAt)]

/-- `_append_export_audit` with the status of the manifest. -/
def appendExportAudit (manifest : ExportManifest) (action : String)
    (actorId : Option String) (details : Json) (inputs : CallInputs)
    (store : Store) : Except PyError (Unit × Store) := do
  let events := store.auditEventsOf manifest.exportManifestId
  let createdAt ← toJsonTimestamp inputs.now
  let event : ExportAuditEvent :=
    { auditEventId := inputs.newId
      exportManifestId := manifest.exportManifestId
      reportId := manifest.reportId
      reportVersionId := manifest.reportVersionId
      caseId := manifest.caseId
      action, actorId
      status := manifest.status
      details
      previousEventHash := events.getLast?.map ExportAuditEvent.eventHash
      eventHash := ""
      createdAt := inputs.now }
  let store ← store.appendReportExportAuditEvent
    { event with eventHash := digest P (event.payload createdAt) }
  return ((), store)

/-! ## Renderers -/

structure RendererCapability where
  rendererId : Json
  rendererVersion : Json
  supportedFormats : List String
  isAvailable : Bool
  unavailableReason : Json
  warnings : Json

/-- A renderer: its capability, and what validating, rendering and verifying a
package under a file name ends in. -/
structure Renderer where
  capability : RendererCapability
  render : RenderPackage → String → Except PyError (List (String × Json))

def maxRendererIdLength : ℕ := 256
def maxRendererVersionLength : ℕ := 80
def maxRedactionPolicyLength : ℕ := 80

def validateRendererCapability (capability : RendererCapability) :
    Except PyError Unit := do
  let _ ← boundedNonEmpty capability.rendererId "renderer_id"
    maxRendererIdLength
  let _ ← boundedNonEmpty capability.rendererVersion "renderer_version"
    maxRendererVersionLength
  let _ ← boundedOptionalText capability.unavailableReason
    "unavailable_reason" 256
  let _ ← boundedWarnings P capability.warnings "warnings"

def RendererCapability.supports (capability : RendererCapability)
    (format : ExportFormat) : Bool :=
  capability.isAvailable && capability.supportedFormats.contains format.value

def warningList : Json → List Json
  | .arr items => items
  | _ => []

/-! ## Preparing an export -/

structure PrepareArgs where
  reportVersionId : String
  format : Json
  filename : Json
  createdBy : Json
  redactionPolicy : Json := .str "STANDARD"
  overwritePolicy : String := "DENY"
  includeCitations : Bool := true
  includeCustody : Bool := true
  includeTechnicalAppendix : Bool := true
  staleConfirmed : Bool := false
  expectedContentFingerprint : Option String := none
  expectedApprovalId : Option String := none
  expectedCustodySnapshotId : Option String := none

/-- What an export is prepared from, once its arguments are checked. -/
structure ExportPlan where
  version : ReportVersion
  approval : ApprovalRecord
  createdBy : String
  redactionPolicy : String
  format : ExportFormat
  filename : String
  manifestFingerprint : String

def staleExpectation (code message target : String) : PyError :=
  reportError code message (some target) [] true

/-- The checks of `prepare_export` before it looks for a stored manifest. -/
def prepareExportRead (store : Store) (args : PrepareArgs) :
    Except PyError ExportPlan := do
  let createdBy ← boundedNonEmpty args.createdBy "created_by"
    maxActorIdLength
  let redactionPolicy ← boundedNonEmpty args.redactionPolicy
    "redaction_policy" maxRedactionPolicyLength
  let _ ← boundedNonEmpty (.str P.derivedOutputRootId)
    "derived_output_root_id" maxIdLength
  let version ← store.getVersion args.reportVersionId
  let approval ← store.requireApprovedVersion version
  if args.expectedContentFingerprint.any fun fingerprint =>
      fingerprint ≠ version.contentFingerprint then
    .error (staleExpectation "REPORT_APPROVAL_FINGERPRINT_MISMATCH"
      "Expected content fingerprint does not match the approved version."
      "expected_content_fingerprint")
  if args.expectedApprovalId.any fun id => id ≠ approval.approvalId then
    .error (staleExpectation "REPORT_APPROVAL_TRANSITION_INVALID"
      "Expected approval does not match the latest approved decision."
      "expected_approval_id")
  if args.expectedCustodySnapshotId.any fun id =>
      some id ≠ approval.custodySnapshotId then
    .error (staleExpectation "REPORT_APPROVAL_TRANSITION_INVALID"
      "Expected custody snapshot does not match the approved decision."
      "expected_custody_snapshot_id")
  let format ← enumValue ExportFormat.members ExportFormat.value args.format
    "format"
  let filename ← safeFilename P args.filename format
  if args.overwritePolicy ≠ "DENY" then
    .error (outputInvalid
      "Overwrite is denied by default and other overwrite policies are not implemented."
      "overwrite_policy")
  return {
    version, approval, createdBy, redactionPolicy, format, filename
    manifestFingerprint := digest P (.obj
      [("report_version_id", .str version.reportVersionId),
       ("format", .str format.value),
       ("filename", .str filename),
       ("content_fingerprint", .str version.contentFingerprint),
       ("approval_id", .str approval.approvalId),
       ("custody_snapshot_id", jsonStr? approval.custodySnapshotId),
       ("redaction_policy", .str redactionPolicy),
       ("include_citations", .bool args.includeCitations),
       ("include_custody", .bool args.includeCustody),
       ("include_technical_appendix", .bool args.includeTechnicalAppendix)]) }

def newManifest (args : PrepareArgs) (plan : ExportPlan)
    (package : RenderPackage) (capability : RendererCapability)
    (rootId : String) (warnings : List Json) (inputs : CallInputs) :
    ExportManifest where
  exportManifestId := inputs.newId
  reportId := plan.version.reportId
  reportVersionId := plan.version.reportVersionId
  caseId := plan.version.caseId
  format := plan.format
  renderPackageId := package.packageId
  rendererId := pyStr P capability.rendererId
  rendererVersion := pyStr P capability.rendererVersion
  requestedFilename := plan.filename
  derivedOutputRootId := rootId
  overwritePolicy := args.overwritePolicy
  redactionPolicy := plan.redactionPolicy
  includeCitations := args.includeCitations
  includeCustody := args.includeCustody
  includeTechnicalAppendix := args.includeTechnicalAppendix
  contentFingerprint := plan.version.contentFingerprint
  manifestFingerprint := plan.manifestFingerprint
  approvalId := plan.approval.approvalId
  custodySnapshotId := plan.approval.custodySnapshotId
  status :=
    if capability.supports plan.format then .prepared
    else .capabilityUnavailable
  warnings := warnings
  createdBy := plan.createdBy
  createdAt := inputs.now

/-- The insert of a new manifest and the update of its report. -/
def saveManifest (manifest : ExportManifest) (inputs : CallInputs)
    (store : Store) : Except PyError (Unit × Store) := do
  let report ← store.getReport manifest.reportId
  let _ ← toJsonTimestamp inputs.now
  let store ← store.saveReportExportManifest manifest
    { report with
      status :=
        if manifest.status = .prepared then .exportReady else .exportFailed
      updatedAt := inputs.now }
  return ((), store)

/-- `prepare_export`; a stored manifest of the same fingerprint is returned as
it is. -/
def prepareExport (args : PrepareArgs) (renderer : Renderer)
    (inputs : ℕ → CallInputs) : Service Store PyError ExportManifest := do
  let plan ← Service.read fun store => prepareExportRead P store args
  let existing ← Service.read fun store =>
    .ok (store.manifestByFingerprint? plan.manifestFingerprint)
  match existing with
  | some manifest => return manifest
  | none => do
      let package ← Service.commit (createRenderPackage P
        { reportVersionId := plan.version.reportVersionId
          createdBy := .str plan.createdBy
          forExport := true
          custodySnapshotId := plan.approval.custodySnapshotId
          staleConfirmed := args.staleConfirmed } (inputs 0))
      let capability := renderer.capability
      let warnings ← Service.read fun _ => do
        validateRendererCapability P capability
        if capability.supports plan.format then return []
        else boundedWarnings P capability.warnings "warnings"
      let manifest := newManifest P args plan package capability
        P.derivedOutputRootId warnings (inputs 1)
      Service.commit (saveManifest manifest (inputs 1))
      Service.commit (appendExportAudit P manifest "PREPARE"
        (some manifest.createdBy) (.obj []) (inputs 2))
      return manifest

/-! ## Recording a result -/

def Store.getExportManifest (store : Store) (exportManifestId : String) :
    Except PyError ExportManifest :=
  match store.manifest? exportManifestId with
  | some manifest => .ok manifest
  | none => .error (notFoundError "REPORT_EXPORT_MANIFEST_NOT_FOUND"
      "Report export manifest not found." (some "export_manifest_id"))

def Store.getRenderPackage (store : Store) (packageId : String) :
    Except PyError RenderPackage :=
  match store.package? packageId with
  | some package => .ok package
  | none => .error (notFoundError "REPORT_PACKAGE_NOT_FOUND"
      "Report render package not found." (some "package_id"))

def isSha256 (s : String) : Bool :=
  s.length = 64 && s.toList.all fun c =>
    c.isDigit || ('a' ≤ c && c ≤ 'f') || ('A' ≤ c && c ≤ 'F')

/-- The checks on a completed result, and the artifact it describes. -/
def renderedArtifact (manifest : ExportManifest)
    (payload : List (String × Json)) (warnings : List Json)
    (inputs : CallInputs) : Except PyError (RenderedArtifact × Json) := do
  let outputReference ← requiredNonEmpty P (getKey payload "output_reference")
    "output_reference"
  validateOutputReference P outputReference manifest.derivedOutputRootId
  let filename ← safeFilename P (.str (pyStr P (getDefault payload "filename"
    (.str manifest.requestedFilename)))) manifest.format
  let sizeBytes ← limit P (getKey payload "size_bytes") 1 (10 ^ 12)
    "size_bytes"
  let sha256 ← requiredNonEmpty P (getKey payload "sha256") "sha256"
  let sha256 := String.ofList (sha256.toList.map Char.toLower)
  if isSha256 sha256 = false then
    .error (outputInvalid "Renderer output hash is invalid." "sha256")
  let rendererId ← boundedNonEmpty (getDefault payload "renderer_id"
    (.str manifest.rendererId)) "renderer_id" maxRendererIdLength
  let rendererVersion ← boundedNonEmpty (getDefault payload
    "renderer_version" (.str manifest.rendererVersion)) "renderer_version"
    maxRendererVersionLength
  let mimeType :=
    if truthy (getKey payload "mime_type") then
      pyStr P (getKey payload "mime_type")
    else manifest.format.mimeType
  let artifactPayload : Json := .obj
    [("export_manifest_id", .str manifest.exportManifestId),
     ("report_version_id", .str manifest.reportVersionId),
     ("format", .str manifest.format.value),
     ("renderer_id", .str rendererId),
     ("renderer_version", .str rendererVersion),
     ("output_reference", .str outputReference),
     ("filename", .str filename),
     ("mime_type", .str mimeType),
     ("size_bytes", .int sizeBytes),
     ("sha256", .str sha256)]
  let _ ← toJsonTimestamp inputs.now
  return ({
    renderedArtifactId := inputs.newId
    exportManifestId := manifest.exportManifestId
    reportVersionId := manifest.reportVersionId
    format := manifest.format
    rendererId, rendererVersion, outputReference, filename, mimeType,
    sizeBytes, sha256
    renderedAt := inputs.now
    warnings
    artifactFingerprint := digest P artifactPayload }, artifactPayload)

/-- The insert of an artifact with the updates of its manifest and report. -/
def saveCompletion (artifact : RenderedArtifact) (manifest : ExportManifest)
    (inputs : CallInputs) (store : Store) :
    Except PyError (Unit × Store) := do
  let report ← store.getReport manifest.reportId
  let _ ← toJsonTimestamp inputs.now
  let store ← store.saveRenderedReportArtifact artifact manifest
    { report with status := .exported, updatedAt := inputs.now }
  return ((), store)

def saveUpdate (manifest : ExportManifest) (store : Store) :
    Except PyError (Unit × Store) :=
  .ok ((), store.updateReportExportManifest manifest)

/-- Recording a failed or cancelled result. -/
def recordFailure (manifest : ExportManifest) (status : ExportStatus)
    (payload : List (String × Json)) (warnings : List Json)
    (inputs : ℕ → CallInputs) : Service Store PyError Unit := do
  let warnings ← Service.read fun _ =>
    boundedWarnings P (.arr (manifest.warnings ++ warnings)) "warnings"
  let manifest := { manifest with status, warnings }
  Service.commit (saveUpdate manifest)
  Service.commit (appendExportAudit P manifest "RENDER_RESULT" none
    (.obj payload) (inputs 0))

def recordCompletion (manifest : ExportManifest)
    (payload : List (String × Json)) (warnings : List Json)
    (inputs : ℕ → CallInputs) : Service Store PyError Unit := do
  let (artifact, artifactPayload) ← Service.read fun _ =>
    renderedArtifact P manifest payload warnings (inputs 0)
  let warnings ← Service.read fun _ =>
    boundedWarnings P (.arr (manifest.warnings ++ artifact.warnings))
      "warnings"
  let manifest := { manifest with status := .completed, warnings }
  Service.commit (saveCompletion artifact manifest (inputs 1))
  Service.commit (appendExportAudit P manifest "RENDER_COMPLETED" none
    artifactPayload (inputs 2))

/-- `record_export_result`. -/
def recordExportResult (exportManifestId : String)
    (payload : List (String × Json)) (inputs : ℕ → CallInputs) :
    Service Store PyError Unit := do
  let manifest ← Service.read fun store =>
    store.getExportManifest exportManifestId
  let warnings ← Service.read fun _ => do
    validateContractPayload P (.obj payload) "render_result"
    boundedWarnings P (getDefault payload "warnings" (.arr [])) "warnings"
  let status := pyStr P (getDefault payload "status" (.str "COMPLETED"))
  if status = "FAILED" then
    recordFailure P manifest .failed payload warnings inputs
  else if status = "CANCELLED" then
    recordFailure P manifest .cancelled payload warnings inputs
  else if status ≠ "COMPLETED" then
    Service.read fun _ => .error (outputInvalid
      "Renderer result status is invalid." "status")
  else if manifest.status ≠ .prepared ∧ manifest.status ≠ .rendering then
    Service.read fun _ => .error (reportError "REPORT_OUTPUT_INVALID"
      "Renderer completion is invalid for the current export manifest state."
      (some "export_manifest_id")
      [("manifest_status", .str manifest.status.value)] false)
  else recordCompletion P manifest payload warnings inputs

/-! ## Rendering -/

/-- The codes of this service's errors that are not of the class
`ReportError`. -/
def otherErrorCodes : List String :=
  ["REPORT_NOT_FOUND", "REPORT_VERSION_NOT_FOUND",
    "REPORT_PACKAGE_NOT_FOUND", "REPORT_EXPORT_MANIFEST_NOT_FOUND"]

/-- `isinstance(error, ReportError)`. -/
def isReportError : PyError → Bool
  | .apex error => "REPORT_".toList.isPrefixOf error.code.toList &&
      !otherErrorCodes.contains error.code
  | .builtin _ _ => false

def errorWarning : PyError → Json
  | .apex error => .obj [("code", .str error.code),
      ("developer_message", jsonStr? error.developerMessage)]
  | .builtin _ _ => .obj []

/-- `error.to_api_error()`, as far as the audit event records it. -/
def apiError : PyError → Json
  | .apex error => .obj
      [("code", .str error.code), ("message_key", .str error.messageKey),
       ("developer_message", jsonStr? error.developerMessage),
       ("target", jsonStr? error.target),
       ("retryable", .bool error.retryable), ("details", .obj error.details)]
  | .builtin _ _ => .obj []

/-- The renderer cannot produce the format any more. -/
def renderUnavailable (manifest : ExportManifest) (renderer : Renderer)
    (inputs : ℕ → CallInputs) : Service Store PyError ExportManifest := do
  let warnings ← Service.read fun _ => boundedWarnings P
    (.arr (manifest.warnings ++ warningList renderer.capability.warnings))
    "warnings"
  let manifest :=
    { manifest with status := .capabilityUnavailable, warnings }
  Service.commit (saveUpdate manifest)
  Service.commit (appendExportAudit P manifest "RENDER_UNAVAILABLE" none
    (.obj []) (inputs 0))
  return manifest

/-- The handler of `render_export`. -/
def renderFailed (manifest : ExportManifest) (inputs : ℕ → CallInputs)
    (error : PyError) : Service Store PyError Unit := do
  let warnings ← Service.read fun _ => boundedWarnings P
    (.arr (manifest.warnings ++ [errorWarning error])) "warnings"
  let manifest := { manifest with status := .failed, warnings }
  Service.commit (saveUpdate manifest)
  Service.commit (appendExportAudit P manifest "RENDER_FAILED" none
    (apiError error) (inputs 0))

/-- `render_export`. -/
def renderExport (exportManifestId : String) (renderer : Renderer)
    (inputs : ℕ → CallInputs) : Service Store PyError ExportManifest := do
  let manifest ← Service.read fun store =>
    store.getExportManifest exportManifestId
  Service.read fun _ =>
    if manifest.status ≠ .prepared then
      .error (reportError "REPORT_RENDER_FAILED"
        "Export manifest is not prepared for rendering."
        (some "export_manifest_id")
        [("manifest_status", .str manifest.status.value)] false)
    else validateRendererCapability P renderer.capability
  if renderer.capability.supports manifest.format = false then
    renderUnavailable P manifest renderer inputs
  else do
    let package ← Service.read fun store =>
      store.getRenderPackage manifest.renderPackageId
    let manifest := { manifest with status := .rendering }
    Service.commit (saveUpdate manifest)
    Service.commit (appendExportAudit P manifest "RENDER_START" none
      (.obj []) (inputs 0))
    Service.handle
      (do
        let payload ← Service.read fun _ =>
          renderer.render package manifest.requestedFilename
        recordExportResult P manifest.exportManifestId payload
          (fun n => inputs (n + 2)))
      isReportError (renderFailed P manifest fun n => inputs (n + 1))
    Service.read fun store =>
      store.getExportManifest manifest.exportManifestId

end

end ApexForensic.Reports
