import ApexForensic.Reports.Service
import ApexForensic.Support.Transactions

/-!
# Interleaved export calls

Preparing, rendering and recording reach the store by transactions, and other
calls, of this service or of another, may make theirs between any two of them.
An audit event is built on the events that its call has listed, and stored in
a later transaction.
-/

namespace ApexForensic.Reports.Interleaved

open ApexForensic.Support ApexForensic.Domain

/-- What a transaction does to an export or to its audit events.  The event of
a change is lost when it cannot be built or stored. -/
inductive Note where
  | changed (manifest : ExportManifest)
  | listed (exportManifestId : String) (seen : List ExportAuditEvent)
  | recorded (event : ExportAuditEvent)
  | lost (exportManifestId : String)

abbrev ExportScript :=
  Script Store Note PyError

section

variable (P : Platform)

/-! ## Audit events -/

/-- The event that `_append_export_audit` builds on the events listed. -/
def auditEvent (manifest : ExportManifest) (action : String)
    (actorId : Option String) (details : Json) (inputs : CallInputs)
    (seen : List ExportAuditEvent) : Except PyError ExportAuditEvent := do
  let createdAt ← toJsonTimestamp inputs.now
  let event : ExportAuditEvent :=
    { auditEventId := inputs.newId
      exportManifestId := manifest.exportManifestId
      reportId := manifest.reportId
      reportVersionId := manifest.reportVersionId
      caseId := manifest.caseId
      action, actorId
      status := manifest.status
      details
      previousEventHash := seen.getLast?.map ExportAuditEvent.eventHash
      eventHash := ""
      createdAt := inputs.now }
  return { event with eventHash := digest P (event.payload createdAt) }

def saveEvent (event : Except PyError ExportAuditEvent) (store : Store) :
    Except PyError (ExportAuditEvent × Store) := do
  let event ← event
  let store ← store.appendReportExportAuditEvent event
  return (event, store)

def insertEvent (manifest : ExportManifest)
    (event : Except PyError ExportAuditEvent) : ExportScript Unit :=
  .transaction
    (fun store =>
      match saveEvent event store with
      | .ok (event, store) => (store, [.recorded event])
      | .error _ => (store, [.lost manifest.exportManifestId]))
    fun store => .done ((saveEvent event store).map fun _ => ())

def listEvents (exportManifestId : String) :
    ExportScript (List ExportAuditEvent) :=
  Script.commit fun store =>
    (store.auditEventsOf exportManifestId, store,
      [.listed exportManifestId (store.auditEventsOf exportManifestId)])

/-- `_append_export_audit`. -/
def appendExportAudit (manifest : ExportManifest) (action : String)
    (actorId : Option String) (details : Json) (inputs : CallInputs) :
    ExportScript Unit := do
  let seen ← listEvents manifest.exportManifestId
  insertEvent manifest
    (auditEvent P manifest action actorId details inputs seen)

/-- A change of an export, and its event. -/
def recordChange (manifest : ExportManifest)
    (save : Store → Except PyError (Unit × Store)) (action : String)
    (actorId : Option String) (details : Json) (inputs : CallInputs) :
    ExportScript Unit := do
  Script.attempt fun store =>
    (save store).map fun r => (r.1, r.2, [.changed manifest])
  appendExportAudit P manifest action actorId details inputs

/-! ## The calls -/

/-- `prepare_export`. -/
def prepareExport (args : PrepareArgs) (renderer : Renderer)
    (inputs : ℕ → CallInputs) : ExportScript ExportManifest := do
  let plan ← Script.query fun store => prepareExportRead P store args
  let existing ← Script.query fun store =>
    .ok (store.manifestByFingerprint? plan.manifestFingerprint)
  match existing with
  | some manifest => return manifest
  | none => do
      let package ← Script.attempt fun store =>
        (createRenderPackage P
          { reportVersionId := plan.version.reportVersionId
            createdBy := .str plan.createdBy
            forExport := true
            custodySnapshotId := plan.approval.custodySnapshotId
            staleConfirmed := args.staleConfirmed } (inputs 0) store).map
          fun r => (r.1, r.2, [])
      let capability := renderer.capability
      let warnings ← Script.query fun _ => do
        validateRendererCapability P capability
        if capability.supports plan.format then return []
        else boundedWarnings P capability.warnings "warnings"
      let manifest := newManifest P args plan package capability
        P.derivedOutputRootId warnings (inputs 1)
      recordChange P manifest (saveManifest manifest (inputs 1)) "PREPARE"
        (some manifest.createdBy) (.obj []) (inputs 2)
      return manifest

/-- Recording a failed or cancelled result. -/
def recordFailure (manifest : ExportManifest) (status : ExportStatus)
    (payload : List (String × Json)) (warnings : List Json)
    (inputs : ℕ → CallInputs) : ExportScript Unit := do
  let warnings ← Script.query fun _ =>
    boundedWarnings P (.arr (manifest.warnings ++ warnings)) "warnings"
  let manifest := { manifest with status, warnings }
  recordChange P manifest (saveUpdate manifest) "RENDER_RESULT" none
    (.obj payload) (inputs 0)

def recordCompletion (manifest : ExportManifest)
    (payload : List (String × Json)) (warnings : List Json)
    (inputs : ℕ → CallInputs) : ExportScript Unit := do
  let (artifact, artifactPayload) ← Script.query fun _ =>
    renderedArtifact P manifest payload warnings (inputs 0)
  let warnings ← Script.query fun _ =>
    boundedWarnings P (.arr (manifest.warnings ++ artifact.warnings))
      "warnings"
  let manifest := { manifest with status := .completed, warnings }
  recordChange P manifest (saveCompletion artifact manifest (inputs 1))
    "RENDER_COMPLETED" none artifactPayload (inputs 2)

/-- `record_export_result`. -/
def recordExportResult (exportManifestId : String)
    (payload : List (String × Json)) (inputs : ℕ → CallInputs) :
    ExportScript Unit := do
  let manifest ← Script.query fun store =>
    store.getExportManifest exportManifestId
  let warnings ← Script.query fun _ => do
    validateContractPayload P (.obj payload) "render_result"
    boundedWarnings P (getDefault payload "warnings" (.arr [])) "warnings"
  let status := pyStr P (getDefault payload "status" (.str "COMPLETED"))
  if status = "FAILED" then
    recordFailure P manifest .failed payload warnings inputs
  else if status = "CANCELLED" then
    recordFailure P manifest .cancelled payload warnings inputs
  else if status ≠ "COMPLETED" then
    Script.query fun _ => .error (outputInvalid
      "Renderer result status is invalid." "status")
  else if manifest.status ≠ .prepared ∧ manifest.status ≠ .rendering then
    Script.query fun _ => .error (reportError "REPORT_OUTPUT_INVALID"
      "Renderer completion is invalid for the current export manifest state."
      (some "export_manifest_id")
      [("manifest_status", .str manifest.status.value)] false)
  else recordCompletion P manifest payload warnings inputs

/-- The renderer cannot produce the format any more. -/
def renderUnavailable (manifest : ExportManifest) (renderer : Renderer)
    (inputs : ℕ → CallInputs) : ExportScript ExportManifest := do
  let warnings ← Script.query fun _ => boundedWarnings P
    (.arr (manifest.warnings ++ warningList renderer.capability.warnings))
    "warnings"
  let manifest :=
    { manifest with status := .capabilityUnavailable, warnings }
  recordChange P manifest (saveUpdate manifest) "RENDER_UNAVAILABLE" none
    (.obj []) (inputs 0)
  return manifest

/-- The handler of `render_export`. -/
def renderFailed (manifest : ExportManifest) (inputs : ℕ → CallInputs)
    (error : PyError) : ExportScript Unit := do
  let warnings ← Script.query fun _ => boundedWarnings P
    (.arr (manifest.warnings ++ [errorWarning error])) "warnings"
  let manifest := { manifest with status := .failed, warnings }
  recordChange P manifest (saveUpdate manifest) "RENDER_FAILED" none
    (apiError error) (inputs 0)

/-- `render_export`. -/
def renderExport (exportManifestId : String) (renderer : Renderer)
    (inputs : ℕ → CallInputs) : ExportScript ExportManifest := do
  let manifest ← Script.query fun store =>
    store.getExportManifest exportManifestId
  Script.query fun _ =>
    if manifest.status ≠ .prepared then
      .error (reportError "REPORT_RENDER_FAILED"
        "Export manifest is not prepared for rendering."
        (some "export_manifest_id")
        [("manifest_status", .str manifest.status.value)] false)
    else validateRendererCapability P renderer.capability
  if renderer.capability.supports manifest.format = false then
    renderUnavailable P manifest renderer inputs
  else do
    let package ← Script.query fun store =>
      store.getRenderPackage manifest.renderPackageId
    let manifest := { manifest with status := .rendering }
    recordChange P manifest (saveUpdate manifest) "RENDER_START" none
      (.obj []) (inputs 0)
    Script.handle
      (do
        let payload ← Script.query fun _ =>
          renderer.render package manifest.requestedFilename
        recordExportResult P manifest.exportManifestId payload
          (fun n => inputs (n + 2)))
      isReportError (renderFailed P manifest fun n => inputs (n + 1))
    Script.query fun store =>
      store.getExportManifest manifest.exportManifestId

inductive ExportCall where
  | prepare (args : PrepareArgs) (renderer : Renderer)
      (inputs : ℕ → CallInputs)
  | render (exportManifestId : String) (renderer : Renderer)
      (inputs : ℕ → CallInputs)
  | record (exportManifestId : String) (payload : List (String × Json))
      (inputs : ℕ → CallInputs)

def script : ExportCall → ExportScript Unit
  | .prepare args renderer inputs => do
      let _ ← prepareExport P args renderer inputs
      return ()
  | .render exportManifestId renderer inputs => do
      let _ ← renderExport P exportManifestId renderer inputs
      return ()
  | .record exportManifestId payload inputs =>
      recordExportResult P exportManifestId payload inputs

end

end ApexForensic.Reports.Interleaved
