import ApexForensic.Reports.Archive
import ApexForensic.Reports.ExportSafety
import ApexForensic.Support.Cleanup

/-!
# How exports end

A completed export is closed to rendering and to a second completion, but a
failure may still be recorded for it; and an export is left in rendering when
its start is not recorded, or when what stops it is not an error of the report
service.  When neither happens, exports end once and for all.
-/

namespace ApexForensic.Reports

open ApexForensic.Support ApexForensic.Domain

variable {m m' : ExportManifest} {e : PyError} {op : Op} {action k : String}
  {inputs : CallInputs} {renderer : Renderer} {details : Json}

section

variable (P : Platform)

/-! ## When a step leaves exports ended -/

/-- The checks of `record_export_result` on a result, and the export as it is
then stored. -/
def checkResult (s : Store) (manifest : ExportManifest)
    (payload : List (String × Json)) (inputs : ℕ → CallInputs) :
    Except PyError ExportManifest := do
  let warnings ← resultWarnings P payload
  let status := pyStr P (getDefault payload "status" (.str "COMPLETED"))
  if status = "FAILED" then do
    let warnings ← boundedWarnings P (.arr (manifest.warnings ++ warnings))
      "warnings"
    return { manifest with status := .failed, warnings }
  else if status = "CANCELLED" then do
    let warnings ← boundedWarnings P (.arr (manifest.warnings ++ warnings))
      "warnings"
    return { manifest with status := .cancelled, warnings }
  else if status ≠ "COMPLETED" then
    .error (outputInvalid "Renderer result status is invalid." "status")
  else if manifest.status ≠ .prepared ∧ manifest.status ≠ .rendering then
    .error (reportError "REPORT_OUTPUT_INVALID"
      "Renderer completion is invalid for the current export manifest state."
      (some "export_manifest_id")
      [("manifest_status", .str manifest.status.value)] false)
  else do
    let artifact ← renderedArtifact P manifest payload warnings (inputs 0)
    let warnings ← boundedWarnings P
      (.arr (manifest.warnings ++ artifact.1.warnings)) "warnings"
    let completed := { manifest with status := .completed, warnings }
    let _ ← saveCompletion artifact.1 completed (inputs 1) s
    return completed

/-- The result reports a failure or a cancellation, and passes the checks. -/
def ReportsFailure (manifest : ExportManifest)
    (payload : List (String × Json)) : Prop :=
  (pyStr P (getDefault payload "status" (.str "COMPLETED")) = "FAILED" ∨
    pyStr P (getDefault payload "status" (.str "COMPLETED")) =
      "CANCELLED") ∧
    ∃ warnings merged, resultWarnings P payload = .ok warnings ∧
      boundedWarnings P (.arr (manifest.warnings ++ warnings)) "warnings" =
        .ok merged

def ExportManifest.inRendering (manifest : ExportManifest) : ExportManifest :=
  { manifest with status := .rendering }

def recordStart (manifest : ExportManifest) (inputs : ℕ → CallInputs) :
    Store → Except PyError (Unit × Store) :=
  appendExportAudit P manifest.inRendering "RENDER_START" none (.obj [])
    (inputs 0)

/-- What rendering the package comes to: the export as its result would be
stored, or what raises. -/
def renderResult (s : Store) (manifest : ExportManifest)
    (package : RenderPackage) (renderer : Renderer)
    (inputs : ℕ → CallInputs) : Except PyError ExportManifest := do
  let payload ← renderer.render package manifest.requestedFilename
  checkResult P s manifest payload fun n => inputs (n + 2)

/-- The start of the rendering can be recorded, and what stops its result from
being stored is an error of the report service whose warning the export has
room for. -/
def EndsRendered (s : Store) (manifest : ExportManifest)
    (package : RenderPackage) (renderer : Renderer)
    (inputs : ℕ → CallInputs) : Prop :=
  (∃ t, recordStart P manifest inputs
    (s.updateReportExportManifest manifest.inRendering) = .ok ((), t)) ∧
  ∀ e, renderResult P s manifest.inRendering package renderer inputs =
      .error e →
    isReportError e = true ∧ ∃ warnings, boundedWarnings P
      (.arr (manifest.warnings ++ [errorWarning e])) "warnings" = .ok warnings

/-- If the export can be rendered, its rendering ends. -/
def RenderEnds (s : Store) (manifest : ExportManifest) (renderer : Renderer)
    (inputs : ℕ → CallInputs) : Prop :=
  manifest.status = .prepared →
    validateRendererCapability P renderer.capability = .ok () →
      renderer.capability.supports manifest.format = true →
        ∀ package,
          s.getRenderPackage manifest.renderPackageId = .ok package →
            EndsRendered P s manifest package renderer inputs

/-- No failure is recorded for a completed export, and rendering ends. -/
def Settles (s : Store) : Op → Prop
  | .recordExportResult exportManifestId payload _ =>
      ∀ m, s.getExportManifest exportManifestId = .ok m →
        m.status = .completed → ¬ ReportsFailure P m payload
  | .renderExport exportManifestId renderer inputs =>
      ∀ m, s.getExportManifest exportManifestId = .ok m →
        RenderEnds P s m renderer inputs
  | _ => True

/-! ## Ended exports -/

/-- In the run, completed exports are never changed, failed and cancelled ones
are never completed, and a call of `render_export` leaves no export in
rendering. -/
structure ExportsEnd (world : World) (ops : List Op) : Prop where
  completed : ∀ before between after, ops = before ++ between ++ after →
    ∀ m ∈ (reached P world before).manifests, m.status = .completed →
      m ∈ (reached P world (before ++ between)).manifests
  closed : ∀ before between after, ops = before ++ between ++ after →
    ∀ m ∈ (reached P world before).manifests,
      (m.status = .failed ∨ m.status = .cancelled) →
        ∀ m' ∈ (reached P world (before ++ between)).manifests,
          m'.exportManifestId = m.exportManifestId → m'.status ≠ .completed
  rendered : ∀ before exportManifestId renderer inputs after,
    ops = before ++ .renderExport exportManifestId renderer inputs :: after →
      ∀ m ∈ (reached P world (before ++
          [.renderExport exportManifestId renderer inputs])).manifests,
        m.exportManifestId = exportManifestId → m.status ≠ .rendering

/-- No export is left in rendering. -/
def NoneRendering (s : Store) : Prop :=
  ∀ m ∈ s.manifests, m.status ≠ .rendering

/-- What one step keeps of completed exports, and how rendering ends in it. -/
structure EndsIn (s : Store) (op : Op) : Prop where
  completed : ∀ m ∈ s.manifests, m.status = .completed →
    m ∈ (step P s op).manifests
  rendered : ∀ exportManifestId renderer inputs,
    op = .renderExport exportManifestId renderer inputs →
      ∀ m ∈ (step P s op).manifests,
        m.exportManifestId = exportManifestId → m.status ≠ .rendering

end

section

variable {P : Platform} {s t : Store}

/-! ## Manifests by identifier -/

theorem manifest?_of_getExportManifest (h : s.getExportManifest k = .ok m) :
    s.manifest? k = some m := by
  rw [Store.getExportManifest] at h
  split at h
  · rename_i found hfound
    rw [hfound, Except.ok.inj h]
  · cases h

theorem mem_update_iff (hs : ExportsKeyed s) (hm : m ∈ s.manifests)
    (hid : m'.exportManifestId = m.exportManifestId) {x : ExportManifest} :
    x ∈ updateRow ExportManifest.exportManifestId s.manifests m' ↔
      x = m' ∨ (x ∈ s.manifests ∧ x ≠ m) := by
  rw [updateRow, List.mem_map]
  constructor
  · rintro ⟨y, hy, rfl⟩
    split_ifs with h
    · exact Or.inl rfl
    · refine Or.inr ⟨hy, ?_⟩
      rintro rfl
      exact h hid.symm
  · rintro (rfl | ⟨hx, hne⟩)
    · exact ⟨m, hm, if_pos hid.symm⟩
    · refine ⟨x, hx, if_neg fun heq => hne ?_⟩
      exact List.inj_on_of_nodup_map hs hx hm (heq.trans hid)

theorem updateRow_updateRow (rows : List ExportManifest)
    (hid : m.exportManifestId = m'.exportManifestId) :
    updateRow ExportManifest.exportManifestId
        (updateRow ExportManifest.exportManifestId rows m) m' =
      updateRow ExportManifest.exportManifestId rows m' := by
  rw [updateRow, updateRow, updateRow, List.map_map]
  refine List.map_congr_left fun x _ => ?_
  by_cases h : x.exportManifestId = m.exportManifestId
  · simp [h, hid]
  · have h' : x.exportManifestId ≠ m'.exportManifestId := hid ▸ h
    simp [h, h']

/-! ## Recording a result -/

theorem toJsonTimestamp_error {value : Datetime}
    (h : toJsonTimestamp value = .error e) : isReportError e = false := by
  rw [toJsonTimestamp] at h
  split at h
  · rw [← Except.error.inj h]
    rfl
  · rcases hclock : isoWallClock value.utcMicros with e' | clock
    · rw [hclock] at h
      obtain rfl := Except.error.inj h
      simp only [isoWallClock] at hclock
      split at hclock
      · rw [← Except.error.inj hclock]
        rfl
      · cases hclock
    · rw [hclock] at h
      cases h

theorem insertRow_error {α : Type}
    {constraints : List (String × (α → α → Bool))} {rows : List α} {row : α}
    (h : insertRow constraints rows row = .error e) :
    isReportError e = false := by
  rw [insertRow] at h
  split at h
  · rw [← Except.error.inj h]
    rfl
  · cases h

theorem appendExportAudit_error {actorId : Option String}
    (h : appendExportAudit P m action actorId details inputs s = .error e) :
    isReportError e = false := by
  rw [appendExportAudit] at h
  dsimp only at h
  rcases hnow : toJsonTimestamp inputs.now with e' | createdAt
  · rw [hnow] at h
    obtain rfl := Except.error.inj h
    exact toJsonTimestamp_error hnow
  · rw [hnow] at h
    simp only [bind, Except.bind, Store.appendReportExportAuditEvent] at h
    split at h
    · rename_i heq
      split at heq
      · rename_i hinsert
        obtain rfl := Except.error.inj heq
        obtain rfl := Except.error.inj h
        exact insertRow_error hinsert
      · cases heq
    · cases h

/-- It ended in the error and changed nothing, or stored the export; what
raised after that is no error of the report service. -/
def Stored (ending : Except PyError Unit × Store) (s : Store) :
    Except PyError ExportManifest → Prop
  | .error e => ending = (.error e, s)
  | .ok ended =>
      ending.2.manifests =
        updateRow ExportManifest.exportManifestId s.manifests ended ∧
      ∀ e, ending.1 = .error e → isReportError e = false

theorem stored_read_bind {α : Type} {checked : Except PyError α}
    {f : α → Service Store PyError Unit} {g : α → Except PyError ExportManifest}
    (h : ∀ a, checked = .ok a → Stored (f a s) s (g a)) :
    Stored ((Service.read (fun _ => checked) >>= f) s) s (checked >>= g) := by
  cases checked with
  | error e => exact rfl
  | ok a => exact h a rfl

theorem stored_recorded {f : Store → Except PyError (Unit × Store)}
    (hf : ∀ t, f s = .ok ((), t) → t.manifests =
      updateRow ExportManifest.exportManifestId s.manifests m) :
    Stored ((do
      Service.commit f
      Service.commit (appendExportAudit P m action none details inputs) :
        Service Store PyError Unit) s) s (do
          let _ ← f s
          return m) := by
  rcases hsave : f s with e | ⟨⟨⟩, t⟩
  · exact Service.bind_of_error (Service.commit_of_error hsave)
  rw [Service.bind_of_ok (Service.commit_of_ok hsave)]
  rcases haudit : appendExportAudit P m action none details inputs t
    with e | ⟨⟨⟩, u⟩
  · rw [Service.commit_of_error haudit]
    refine ⟨hf t hsave, fun e' he => ?_⟩
    rw [← Except.error.inj he]
    exact appendExportAudit_error haudit
  · rw [Service.commit_of_ok haudit]
    exact ⟨(appendExportAudit_eq_ok haudit).1.trans (hf t hsave), nofun⟩

theorem stored_update (m : ExportManifest) (action : String)
    (details : Json) (inputs : CallInputs) :
    Stored ((do
      Service.commit (saveUpdate m)
      Service.commit (appendExportAudit P m action none details inputs) :
        Service Store PyError Unit) s) s (.ok m) := by
  refine stored_recorded fun t ht => ?_
  rw [← (ok_pair_inj ht).2]
  rfl

theorem saveCompletion_manifests {artifact : RenderedArtifact} {u : Unit}
    (h : saveCompletion artifact m inputs s = .ok (u, t)) :
    t.manifests = updateRow ExportManifest.exportManifestId s.manifests m := by
  obtain ⟨report, -, rfl⟩ := saveCompletion_spec h
  rfl

theorem stored_recordExportResult (hm : s.getExportManifest k = .ok m)
    (payload : List (String × Json)) (inputs : ℕ → CallInputs) :
    Stored (recordExportResult P k payload inputs s) s
      (checkResult P s m payload inputs) := by
  rw [recordExportResult,
    Service.bind_of_ok (Service.read_of_ok (σ := Store) hm)]
  refine stored_read_bind fun warnings _ => ?_
  dsimp only
  split
  · exact stored_read_bind fun merged _ => stored_update _ _ _ _
  split
  · exact stored_read_bind fun merged _ => stored_update _ _ _ _
  split
  · exact rfl
  split
  · exact rfl
  · refine stored_read_bind fun artifact _ => ?_
    refine stored_read_bind fun merged _ => ?_
    exact stored_recorded fun t ht => saveCompletion_manifests ht

/-- What passes the checks is the same export, failed or cancelled as the
result reports it, or completed when it was open. -/
theorem checkResult_eq_ok {payload : List (String × Json)}
    {inputs : ℕ → CallInputs} (h : checkResult P s m payload inputs = .ok m') :
    m'.exportManifestId = m.exportManifestId ∧
      ((ReportsFailure P m payload ∧
          (m'.status = .failed ∨ m'.status = .cancelled)) ∨
        (m.status.isOpen = true ∧ m'.status = .completed)) := by
  obtain ⟨warnings, hwarnings, h⟩ := bind_ok h
  dsimp only at h
  split at h
  · rename_i hfailed
    obtain ⟨merged, hmerged, h⟩ := bind_ok h
    obtain rfl := Except.ok.inj h
    exact ⟨rfl, Or.inl ⟨⟨Or.inl hfailed, warnings, merged, hwarnings,
      hmerged⟩, Or.inl rfl⟩⟩
  split at h
  · rename_i hcancelled
    obtain ⟨merged, hmerged, h⟩ := bind_ok h
    obtain rfl := Except.ok.inj h
    exact ⟨rfl, Or.inl ⟨⟨Or.inr hcancelled, warnings, merged, hwarnings,
      hmerged⟩, Or.inr rfl⟩⟩
  split at h
  · cases h
  split at h
  · cases h
  · rename_i hopen
    obtain ⟨artifact, -, h⟩ := bind_ok h
    obtain ⟨merged, -, h⟩ := bind_ok h
    obtain ⟨u, -, h⟩ := bind_ok h
    obtain rfl := Except.ok.inj h
    refine ⟨rfl, Or.inr ⟨?_, rfl⟩⟩
    cases hstatus : m.status <;> simp_all [ExportStatus.isOpen]

theorem ReportsFailure.checkResult_eq_ok {payload : List (String × Json)}
    (h : ReportsFailure P m payload) (inputs : ℕ → CallInputs) :
    ∃ m', checkResult P s m payload inputs = .ok m' := by
  obtain ⟨hstatus, warnings, merged, hwarnings, hmerged⟩ := h
  rw [checkResult, hwarnings]
  dsimp only [bind, Except.bind]
  rcases hstatus with hstatus | hstatus
  · rw [if_pos hstatus, hmerged]
    exact ⟨_, rfl⟩
  · rw [if_neg (by rw [hstatus]; decide), if_pos hstatus, hmerged]
    exact ⟨_, rfl⟩

/-! ## Rendering -/

theorem saveCompletion_congr (hreports : t.reports = s.reports)
    (hartifacts : t.artifacts = s.artifacts) (artifact : RenderedArtifact)
    (m : ExportManifest) (inputs : CallInputs) :
    (do
      let _ ← saveCompletion artifact m inputs t
      return m : Except PyError ExportManifest) = do
        let _ ← saveCompletion artifact m inputs s
        return m := by
  have hreport : t.getReport m.reportId = s.getReport m.reportId := by
    rw [Store.getReport, Store.getReport, Store.report?, Store.report?,
      hreports]
  rw [saveCompletion, saveCompletion, hreport]
  simp only [Store.saveRenderedReportArtifact, hartifacts, bind_assoc]
  rfl

theorem checkResult_congr (hreports : t.reports = s.reports)
    (hartifacts : t.artifacts = s.artifacts) (m : ExportManifest)
    (payload : List (String × Json)) (inputs : ℕ → CallInputs) :
    checkResult P t m payload inputs = checkResult P s m payload inputs := by
  simp only [checkResult, saveCompletion_congr hreports hartifacts]

theorem appendExportAudit_store {actorId : Option String} {u : Unit}
    (h : appendExportAudit P m action actorId details inputs s =
      .ok (u, t)) : t.reports = s.reports ∧ t.artifacts = s.artifacts := by
  obtain ⟨events, rfl⟩ := appendExportAudit_spec h
  exact ⟨rfl, rfl⟩

theorem stored_renderFailed (m : ExportManifest) (inputs : ℕ → CallInputs)
    (e : PyError) :
    Stored (renderFailed P m inputs e s) s (do
      let warnings ← boundedWarnings P
        (.arr (m.warnings ++ [errorWarning e])) "warnings"
      return { m with status := .failed, warnings }) :=
  stored_read_bind fun _ _ => stored_update _ _ _ _

/-- The `try` block of `render_export` stores its result, or the failure when
it is one that the handler catches and has room for. -/
theorem handle_manifests {block : Service Store PyError Unit}
    {checked : Except PyError ExportManifest}
    (hblock : Stored (block s) s checked) (m : ExportManifest)
    (inputs : ℕ → CallInputs) :
    (∃ ended, checked = .ok ended ∧
      ((Service.handle block isReportError (renderFailed P m inputs)).after
        s).manifests =
          updateRow ExportManifest.exportManifestId s.manifests ended) ∨
    (∃ e warnings, checked = .error e ∧ isReportError e = true ∧
      boundedWarnings P (.arr (m.warnings ++ [errorWarning e])) "warnings" =
        .ok warnings ∧
      ((Service.handle block isReportError (renderFailed P m inputs)).after
        s).manifests =
          updateRow ExportManifest.exportManifestId s.manifests
            { m with status := .failed, warnings }) ∨
    ∃ e, checked = .error e ∧
      ¬ (isReportError e = true ∧ ∃ warnings, boundedWarnings P
        (.arr (m.warnings ++ [errorWarning e])) "warnings" = .ok warnings) ∧
      ((Service.handle block isReportError (renderFailed P m inputs)).after
        s).manifests = s.manifests := by
  cases checked with
  | ok ended =>
      obtain ⟨hmanifests, hraised⟩ := hblock
      refine Or.inl ⟨ended, rfl, ?_⟩
      rw [← hmanifests]
      simp only [Service.after, Service.handle]
      rcases hends : block s with ⟨e | ⟨⟩, t⟩
      · simp [hraised e (by rw [hends])]
      · rfl
  | error e =>
      have hends : block s = (.error e, s) := hblock
      simp only [Service.after, Service.handle, hends]
      by_cases hreport : isReportError e = true
      · have hfailed := stored_renderFailed (P := P) (s := s) m inputs e
        simp only [hreport, if_true]
        rcases hroom : boundedWarnings P
            (.arr (m.warnings ++ [errorWarning e])) "warnings"
          with e' | warnings
        · refine Or.inr (Or.inr ⟨e, rfl, ?_, ?_⟩)
          · rintro ⟨-, warnings, hwarnings⟩
            rw [hroom] at hwarnings
            cases hwarnings
          · rw [hroom] at hfailed
            have hsame : renderFailed P m inputs e s = (.error e', s) := hfailed
            rw [hsame]
        · rw [hroom] at hfailed
          exact Or.inr (Or.inl ⟨e, warnings, rfl, hreport, hroom, hfailed.1⟩)
      · refine Or.inr (Or.inr ⟨e, rfl, fun h => hreport h.1, ?_⟩)
        rw [if_neg hreport]

theorem getExportManifest_update (hm : s.getExportManifest k = .ok m)
    (hid : m'.exportManifestId = k) :
    (s.updateReportExportManifest m').getExportManifest k = .ok m' := by
  rw [Store.getExportManifest, Store.manifest?]
  have hfound := manifest?_of_getExportManifest hm
  rw [show (s.updateReportExportManifest m').manifests.find? _ = some m' from
    find?_updateRow_self hid hfound]

/-- The `try` block of `render_export`. -/
def renderBlock (P : Platform) (m : ExportManifest) (package : RenderPackage)
    (renderer : Renderer) (inputs : ℕ → CallInputs) :
    Service Store PyError Unit := do
  let payload ← Service.read fun _ =>
    renderer.render package m.requestedFilename
  recordExportResult P m.exportManifestId payload fun n => inputs (n + 2)

/-- What `render_export` does with an export that can be rendered. -/
def renderPrepared (P : Platform) (m : ExportManifest)
    (package : RenderPackage) (renderer : Renderer)
    (inputs : ℕ → CallInputs) : Service Store PyError Unit := do
  Service.commit (saveUpdate m.inRendering)
  Service.commit (recordStart P m inputs)
  Service.handle (renderBlock P m.inRendering package renderer inputs)
    isReportError (renderFailed P m.inRendering fun n => inputs (n + 1))

theorem stored_renderBlock {package : RenderPackage} {inputs : ℕ → CallInputs}
    (hm : s.getExportManifest m.exportManifestId = .ok m) :
    Stored (renderBlock P m package renderer inputs s) s
      (renderResult P s m package renderer inputs) :=
  stored_read_bind fun _ _ => stored_recordExportResult hm _ _

theorem renderResult_eq_ok {ended : ExportManifest} {package : RenderPackage}
    {inputs : ℕ → CallInputs}
    (h : renderResult P s m package renderer inputs = .ok ended) :
    ended.exportManifestId = m.exportManifestId ∧
      ended.status ≠ .rendering := by
  obtain ⟨payload, -, h⟩ := bind_ok h
  obtain ⟨hid, ⟨-, hstatus | hstatus⟩ | ⟨-, hstatus⟩⟩ := checkResult_eq_ok h
  · exact ⟨hid, by simp [hstatus]⟩
  · exact ⟨hid, by simp [hstatus]⟩
  · exact ⟨hid, by simp [hstatus]⟩

/-- The export that a rendering leaves has left rendering when the rendering
ended. -/
theorem renderPrepared_manifests
    (hm : s.getExportManifest m.exportManifestId = .ok m)
    (package : RenderPackage) (renderer : Renderer) (inputs : ℕ → CallInputs) :
    ∃ ended, ended.exportManifestId = m.exportManifestId ∧
      ((renderPrepared P m package renderer inputs).after s).manifests =
        updateRow ExportManifest.exportManifestId s.manifests ended ∧
      (EndsRendered P s m package renderer inputs ↔
        ended.status ≠ .rendering) := by
  have hsave : Service.commit (saveUpdate m.inRendering) s =
    ((.ok () : Except PyError Unit),
      s.updateReportExportManifest m.inRendering) := rfl
  rw [renderPrepared, Service.after_bind_of_ok hsave]
  rcases hstart : recordStart P m inputs
      (s.updateReportExportManifest m.inRendering) with e | ⟨⟨⟩, t⟩
  · refine ⟨m.inRendering, rfl, ?_, ?_⟩
    · rw [Service.after, Service.bind_of_error (Service.commit_of_error hstart)]
      rfl
    · refine iff_of_false ?_ (fun h => h rfl)
      rintro ⟨⟨t, ht⟩, -⟩
      rw [hstart] at ht
      cases ht
  rw [Service.after_bind_of_ok (Service.commit_of_ok hstart)]
  have hmanifests : t.manifests =
      updateRow ExportManifest.exportManifestId s.manifests m.inRendering :=
    (appendExportAudit_eq_ok hstart).1
  have hkept := appendExportAudit_store hstart
  have hreports : t.reports = s.reports := hkept.1
  have hartifacts : t.artifacts = s.artifacts := hkept.2
  have hread : t.getExportManifest m.inRendering.exportManifestId =
      .ok m.inRendering := by
    rw [Store.getExportManifest, Store.manifest?, hmanifests]
    exact getExportManifest_update hm rfl
  have hblock : Stored (renderBlock P m.inRendering package renderer inputs t)
      t (renderResult P t m.inRendering package renderer inputs) :=
    stored_renderBlock hread
  have hsame : renderResult P t m.inRendering package renderer inputs =
      renderResult P s m.inRendering package renderer inputs := by
    simp only [renderResult, checkResult_congr hreports hartifacts]
  rw [hsame] at hblock
  rcases handle_manifests hblock m.inRendering fun n => inputs (n + 1) with
    ⟨ended, hended, hafter⟩ | ⟨e, warnings, he, hreport, hroom, hafter⟩ |
      ⟨e, he, hnot, hafter⟩
  · obtain ⟨hid, hstatus⟩ := renderResult_eq_ok hended
    refine ⟨ended, hid, ?_, iff_of_true ⟨⟨t, hstart⟩, fun e he => ?_⟩ hstatus⟩
    · rw [hafter, hmanifests, updateRow_updateRow _ hid.symm]
    · rw [hended] at he
      cases he
  · refine ⟨{ m.inRendering with status := .failed, warnings }, rfl, ?_,
      iff_of_true ⟨⟨t, hstart⟩, fun e' he' => ?_⟩ (by simp)⟩
    · rw [hafter, hmanifests]
      exact updateRow_updateRow _ rfl
    · obtain rfl := Except.error.inj (he.symm.trans he')
      exact ⟨hreport, warnings, hroom⟩
  · refine ⟨m.inRendering, rfl, hafter.trans hmanifests, ?_⟩
    exact iff_of_false (fun h => hnot (h.2 e he)) (fun h => h rfl)

/-- A call of `render_export` that is refused, or cannot render, leaves no
export in rendering that was not; else it leaves the export in rendering
unless the rendering ends. -/
theorem renderExport_manifests (P : Platform) (s : Store) (k : String)
    (renderer : Renderer) (inputs : ℕ → CallInputs) :
    (((renderExport P k renderer inputs).after s).manifests = s.manifests ∧
      ∀ m, s.getExportManifest k = .ok m → RenderEnds P s m renderer inputs) ∨
    ∃ m ended, s.getExportManifest k = .ok m ∧ m.status = .prepared ∧
      ended.exportManifestId = m.exportManifestId ∧
      ((renderExport P k renderer inputs).after s).manifests =
        updateRow ExportManifest.exportManifestId s.manifests ended ∧
      (RenderEnds P s m renderer inputs ↔ ended.status ≠ .rendering) := by
  generalize hafter : (renderExport P k renderer inputs).after s = t
  rcases Service.after_read_bind_eq hafter with
    ⟨e, hm, rfl⟩ | ⟨m, hm, hafter⟩
  · exact Or.inl ⟨rfl, fun m' hm' => by rw [hm] at hm'; cases hm'⟩
  have hsame : ∀ m', s.getExportManifest k = .ok m' → m' = m := fun m' hm' =>
    Except.ok.inj (hm'.symm.trans hm)
  rcases Service.after_read_bind_eq hafter with
    ⟨e, he, rfl⟩ | ⟨⟨⟩, hchecked, hafter⟩
  · refine Or.inl ⟨rfl, fun m' hm' hprepared hcapability => ?_⟩
    rw [hsame m' hm'] at hprepared
    rw [if_neg (not_not.mpr hprepared), hcapability] at he
    cases he
  have hprepared : m.status = .prepared := by
    by_contra hnot
    rw [if_pos hnot] at hchecked
    cases hchecked
  rw [if_neg (not_not.mpr hprepared)] at hchecked
  split at hafter
  · rename_i hunsupported
    have hends : RenderEnds P s m renderer inputs := fun _ _ h => by
      rw [hunsupported] at h
      cases h
    rcases Service.after_read_bind_eq hafter with
      ⟨e, he, rfl⟩ | ⟨warnings, hwarnings, hafter⟩
    · exact Or.inl ⟨rfl, fun m' hm' => hsame m' hm' ▸ hends⟩
    · refine Or.inr ⟨m, { m with status := .capabilityUnavailable, warnings },
        hm, hprepared, rfl, ?_, iff_of_true hends (by simp)⟩
      have hstored := (stored_update (P := P) (s := s)
        { m with status := .capabilityUnavailable, warnings }
        "RENDER_UNAVAILABLE" (.obj []) (inputs 0)).1
      dsimp only at hafter
      rw [← bind_assoc, Service.after_bind_of_after_eq (fun _ _ => rfl)]
        at hafter
      rw [← hafter]
      exact hstored
  rename_i hsupports
  replace hsupports := eq_true_of_ne_false hsupports
  rcases Service.after_read_bind_eq hafter with
    ⟨e, he, rfl⟩ | ⟨package, hpackage, hafter⟩
  · refine Or.inl ⟨rfl, fun m' hm' _ _ _ package hpackage => ?_⟩
    rw [hsame m' hm', he] at hpackage
    cases hpackage
  have hrest : (renderPrepared P m package renderer inputs).after s = t := by
    have hread := Service.after_bind_of_after_eq
      (m := renderPrepared P m package renderer inputs)
      (f := fun _ => Service.read fun store =>
        store.getExportManifest m.exportManifestId) (fun _ _ => rfl) s
    rw [← hread, ← hafter, renderPrepared]
    simp only [bind_assoc]
    rfl
  have hm' := hm
  rw [← (getExportManifest_mem hm).2] at hm'
  obtain ⟨ended, hid, hmanifests, hends⟩ :=
    renderPrepared_manifests (P := P) hm' package renderer inputs
  rw [hrest] at hmanifests
  refine Or.inr ⟨m, ended, hm, hprepared, hid, hmanifests, ?_⟩
  rw [← hends]
  constructor
  · exact fun h => h hprepared hchecked hsupports package hpackage
  · intro h _ _ _ package' hpackage'
    rwa [← Except.ok.inj (hpackage.symm.trans hpackage')]

/-! ## One step -/

/-- A result changes nothing and reports no failure, or changes its export: a
reported failure closes it, and only an open export is completed. -/
theorem recordExportResult_manifests (P : Platform) (s : Store) (k : String)
    (payload : List (String × Json)) (inputs : ℕ → CallInputs) :
    (((recordExportResult P k payload inputs).after s).manifests =
        s.manifests ∧
      ∀ m, s.getExportManifest k = .ok m → ¬ ReportsFailure P m payload) ∨
    ∃ m ended, s.getExportManifest k = .ok m ∧
      ended.exportManifestId = m.exportManifestId ∧
      ((recordExportResult P k payload inputs).after s).manifests =
        updateRow ExportManifest.exportManifestId s.manifests ended ∧
      ((ReportsFailure P m payload ∧
          (ended.status = .failed ∨ ended.status = .cancelled)) ∨
        (m.status.isOpen = true ∧ ended.status = .completed)) := by
  rcases hm : s.getExportManifest k with e | m
  · refine Or.inl ⟨?_, fun m hm' => by cases hm'⟩
    rw [recordExportResult, Service.after,
      Service.bind_of_error (Service.read_of_error (σ := Store) hm)]
  have hstored := stored_recordExportResult (P := P) hm payload inputs
  rcases hchecked : checkResult P s m payload inputs with e | ended
  · rw [hchecked] at hstored
    refine Or.inl ⟨congrArg (fun r => (Prod.snd r).manifests) hstored,
      fun m' hm' hfailure => ?_⟩
    obtain rfl := Except.ok.inj hm'
    obtain ⟨ended, hended⟩ := hfailure.checkResult_eq_ok (s := s) inputs
    rw [hchecked] at hended
    cases hended
  · rw [hchecked] at hstored
    obtain ⟨hid, hends⟩ := checkResult_eq_ok hchecked
    exact Or.inr ⟨m, ended, rfl, hid, hstored.1, hends⟩

theorem manifests_step (s : Store) (hop : op.movesExports = false) :
    ∃ added, (step P s op).manifests = s.manifests ++ added ∧
      ∀ m ∈ added, m.status ≠ .rendering := by
  have hsame : ∀ {t : Store}, t.manifests = s.manifests →
      ∃ added, t.manifests = s.manifests ++ added ∧
        ∀ m ∈ added, m.status ≠ .rendering := fun h =>
    ⟨[], by rw [h, List.append_nil], fun m hm => absurd hm List.not_mem_nil⟩
  generalize hstep : step P s op = t
  have hwritten := step_exportWritten (P := P) (s := s) op
  rw [hstep] at hwritten
  cases hwritten with
  | same hmanifests hpackages => exact hsame hmanifests
  | package h =>
      rcases createRenderPackage_eq_ok h with ⟨-, rfl⟩ | ⟨-, rfl, -⟩
      · exact hsame rfl
      · exact hsame rfl
  | moved hmoves h =>
      rw [hop] at hmoves
      cases hmoves
  | prepared hplan hnew hpackage hpackages hmanifests =>
      rcases hmanifests with hmanifests | ⟨warnings, hmanifests⟩
      · exact hsame hmanifests
      · refine ⟨_, hmanifests, fun m hm => ?_⟩
        rw [List.mem_singleton.mp hm, newManifest]
        dsimp only
        split
        · simp
        · simp

/-- A step keeps completed exports and ends its rendering exactly when it
meets the condition. -/
theorem endsIn_iff (hkeyed : ExportsKeyed s) (hnone : NoneRendering s)
    (op : Op) : EndsIn P s op ↔ Settles P s op := by
  have hother : op.movesExports = false → EndsIn P s op := by
    intro hop
    obtain ⟨added, hadded, -⟩ := manifests_step (P := P) s hop
    refine ⟨fun m hm _ => ?_, ?_⟩
    · rw [hadded]
      exact List.mem_append_left _ hm
    · rintro k renderer inputs rfl
      cases hop
  cases op with
  | recordExportResult k payload inputs =>
      rcases recordExportResult_manifests P s k payload inputs with
        ⟨hsame, hnofailure⟩ | ⟨m, ended, hm, hid, hmanifests, hended⟩
      · refine iff_of_true ⟨fun m hm _ => ?_, nofun⟩
          fun m hm _ => hnofailure m hm
        exact hsame ▸ hm
      have hmem := (getExportManifest_mem hm).1
      constructor
      · intro h m' hm' hcompleted hfailure
        obtain rfl := Except.ok.inj (hm.symm.trans hm')
        have hkept := h.completed m hmem hcompleted
        change m ∈ ((recordExportResult P k payload inputs).after
          s).manifests at hkept
        rw [hmanifests] at hkept
        rcases (mem_update_iff hkeyed hmem hid).mp hkept with rfl | ⟨-, hne⟩
        · rcases hended with ⟨-, hstatus | hstatus⟩ | ⟨hopen, -⟩
          · simp [hcompleted] at hstatus
          · simp [hcompleted] at hstatus
          · simp [hcompleted, ExportStatus.isOpen] at hopen
        · exact hne rfl
      · refine fun h => ⟨fun x hx hcompleted => ?_, nofun⟩
        change x ∈ ((recordExportResult P k payload inputs).after s).manifests
        rw [hmanifests, mem_update_iff hkeyed hmem hid]
        refine Or.inr ⟨hx, ?_⟩
        rintro rfl
        rcases hended with ⟨hfailure, -⟩ | ⟨hopen, -⟩
        · exact h x hm hcompleted hfailure
        · simp [hcompleted, ExportStatus.isOpen] at hopen
  | renderExport k renderer inputs =>
      rcases renderExport_manifests P s k renderer inputs with
        ⟨hsame, hends⟩ | ⟨m, ended, hm, hprepared, hid, hmanifests, hends⟩
      · refine iff_of_true ⟨fun m hm _ => hsame ▸ hm, ?_⟩ hends
        intro _ _ _ _ m hm _
        exact hnone m (hsame ▸ hm)
      have hmem := (getExportManifest_mem hm).1
      have hcompleted : ∀ x ∈ s.manifests, x.status = .completed →
          x ∈ ((renderExport P k renderer inputs).after s).manifests := by
        intro x hx hstatus
        rw [hmanifests, mem_update_iff hkeyed hmem hid]
        refine Or.inr ⟨hx, ?_⟩
        rintro rfl
        rw [hprepared] at hstatus
        cases hstatus
      constructor
      · intro h m' hm'
        obtain rfl := Except.ok.inj (hm.symm.trans hm')
        refine hends.mpr (h.rendered k renderer inputs rfl ended ?_ ?_)
        · change ended ∈ ((renderExport P k renderer inputs).after s).manifests
          rw [hmanifests, mem_update_iff hkeyed hmem hid]
          exact Or.inl rfl
        · exact hid.trans (getExportManifest_mem hm).2
      · refine fun h => ⟨hcompleted, fun k' renderer' inputs' heq x hx _ => ?_⟩
        change x ∈ ((renderExport P k renderer inputs).after s).manifests at hx
        rw [hmanifests, mem_update_iff hkeyed hmem hid] at hx
        rcases hx with rfl | ⟨hx, -⟩
        · exact hends.mp (h m hm)
        · exact hnone x hx
  | _ => exact iff_of_true (hother rfl) trivial

theorem noneRendering_step (hkeyed : ExportsKeyed s) (hnone : NoneRendering s)
    (h : EndsIn P s op) : NoneRendering (step P s op) := by
  have hother : op.movesExports = false → NoneRendering (step P s op) := by
    intro hop x hx
    obtain ⟨added, hadded, hnew⟩ := manifests_step (P := P) s hop
    rw [hadded] at hx
    rcases List.mem_append.mp hx with hx | hx
    · exact hnone x hx
    · exact hnew x hx
  cases op with
  | recordExportResult k payload inputs =>
      intro x hx
      change x ∈ ((recordExportResult P k payload inputs).after
        s).manifests at hx
      rcases recordExportResult_manifests P s k payload inputs with
        ⟨hsame, -⟩ | ⟨m, ended, hm, hid, hmanifests, hended⟩
      · exact hnone x (hsame ▸ hx)
      rw [hmanifests,
        mem_update_iff hkeyed (getExportManifest_mem hm).1 hid] at hx
      rcases hx with rfl | ⟨hx, -⟩
      · rcases hended with ⟨-, hstatus | hstatus⟩ | ⟨-, hstatus⟩
        · simp [hstatus]
        · simp [hstatus]
        · simp [hstatus]
      · exact hnone x hx
  | renderExport k renderer inputs =>
      intro x hx
      by_cases hid : x.exportManifestId = k
      · exact h.rendered k renderer inputs rfl x hx hid
      change x ∈ ((renderExport P k renderer inputs).after s).manifests at hx
      rcases renderExport_manifests P s k renderer inputs with
        ⟨hsame, -⟩ | ⟨m, ended, hm, -, hended, hmanifests, -⟩
      · exact hnone x (hsame ▸ hx)
      rw [hmanifests,
        mem_update_iff hkeyed (getExportManifest_mem hm).1 hended] at hx
      rcases hx with rfl | ⟨hx, -⟩
      · exact absurd (hended.trans (getExportManifest_mem hm).2) hid
      · exact hnone x hx
  | _ => exact hother rfl

/-! ## Closed exports -/

/-- The export is stored, and neither open nor completed. -/
def Closed (k : String) (s : Store) : Prop :=
  ∃ m ∈ s.manifests, m.exportManifestId = k ∧ m.status.isOpen = false ∧
    m.status ≠ .completed

theorem closed_step (hkeyed : ExportsKeyed s) (h : Closed k s) (op : Op) :
    Closed k (step P s op) := by
  obtain ⟨m, hm, hid, hopen, hcompleted⟩ := h
  have hother : op.movesExports = false → Closed k (step P s op) := by
    intro hop
    obtain ⟨added, hadded, -⟩ := manifests_step (P := P) s hop
    refine ⟨m, ?_, hid, hopen, hcompleted⟩
    rw [hadded]
    exact List.mem_append_left _ hm
  cases op with
  | recordExportResult k' payload inputs =>
      rcases recordExportResult_manifests P s k' payload inputs with
        ⟨hsame, -⟩ | ⟨m', ended, hm', hid', hmanifests, hended⟩
      · exact ⟨m, hsame ▸ hm, hid, hopen, hcompleted⟩
      have hupdated : ∀ x, x = ended ∨ (x ∈ s.manifests ∧ x ≠ m') →
          x ∈ (step P s (.recordExportResult k' payload inputs)).manifests :=
        fun x hx => hmanifests ▸ (mem_update_iff hkeyed
          (getExportManifest_mem hm').1 hid').mpr hx
      by_cases heq : m = m'
      · subst heq
        refine ⟨ended, hupdated ended (Or.inl rfl), hid'.trans hid, ?_⟩
        rcases hended with ⟨-, hstatus | hstatus⟩ | ⟨hstatus, -⟩
        · simp [hstatus, ExportStatus.isOpen]
        · simp [hstatus, ExportStatus.isOpen]
        · rw [hopen] at hstatus
          cases hstatus
      · exact ⟨m, hupdated m (Or.inr ⟨hm, heq⟩), hid, hopen, hcompleted⟩
  | renderExport k' renderer inputs =>
      rcases renderExport_manifests P s k' renderer inputs with
        ⟨hsame, -⟩ | ⟨m', ended, hm', hprepared, hid', hmanifests, -⟩
      · exact ⟨m, hsame ▸ hm, hid, hopen, hcompleted⟩
      refine ⟨m, ?_, hid, hopen, hcompleted⟩
      change m ∈ ((renderExport P k' renderer inputs).after s).manifests
      rw [hmanifests, mem_update_iff hkeyed (getExportManifest_mem hm').1 hid']
      refine Or.inr ⟨hm, ?_⟩
      rintro rfl
      simp [hprepared, ExportStatus.isOpen] at hopen
  | _ => exact hother rfl

theorem closed_run (hkeyed : ExportsKeyed s) (h : Closed k s) (ops : List Op) :
    Closed k (run (step P) s ops) :=
  (@run_invariant _ _ (step P) (fun s => ExportsKeyed s ∧ Closed k s)
    (fun _ op hs => ⟨exportsKeyed_step op hs.1, closed_step hs.1 hs.2 op⟩)
    s ⟨hkeyed, h⟩ ops).2

theorem Closed.not_completed (hkeyed : ExportsKeyed s) (h : Closed k s)
    (hm : m ∈ s.manifests) (hid : m.exportManifestId = k) :
    m.status ≠ .completed := by
  obtain ⟨m', hm', hid', -, hcompleted⟩ := h
  rwa [List.inj_on_of_nodup_map hkeyed hm hm' (hid.trans hid'.symm)]

/-! ## Runs -/

theorem ExportsEnd.endsIn {world : World} {ops before after : List Op}
    (h : ExportsEnd P world ops) (hsplit : ops = before ++ op :: after) :
    EndsIn P (reached P world before) op := by
  have hstep := run_concat (step P) (Store.empty world) before op
  constructor
  · intro m hm hcompleted
    have hkept := h.completed before [op] after (by rw [hsplit]; simp) m hm
      hcompleted
    rw [reached, hstep] at hkept
    exact hkept
  · rintro k renderer inputs rfl m hm
    refine h.rendered before k renderer inputs after hsplit m ?_
    rw [reached, hstep]
    exact hm

theorem ExportsEnd.noneRendering {world : World} {ops : List Op}
    (h : ExportsEnd P world ops) (before after : List Op)
    (hsplit : ops = before ++ after) :
    NoneRendering (reached P world before) := by
  induction before using List.reverseRecOn generalizing after with
  | nil => exact fun m hm => absurd hm List.not_mem_nil
  | append_singleton before op ih =>
      have hsplit' : ops = before ++ op :: after := by rw [hsplit]; simp
      rw [reached, run_concat]
      exact noneRendering_step (exportsKeyed_reached world before)
        (ih (op :: after) hsplit') (h.endsIn hsplit')

theorem getRenderPackage_of_prepared {args : PrepareArgs}
    {inputs : ℕ → CallInputs} (hnil : s.manifests = [])
    (hm : m ∈ (step P s (.prepareExport args renderer inputs)).manifests) :
    ∃ package, (step P s (.prepareExport args renderer
      inputs)).getRenderPackage m.renderPackageId = .ok package := by
  generalize hstep : step P s (.prepareExport args renderer inputs) = t at hm
  have hwritten := step_exportWritten (P := P) (s := s)
    (.prepareExport args renderer inputs)
  rw [hstep] at hwritten
  cases hwritten with
  | same hmanifests hpackages =>
      rw [hmanifests, hnil] at hm
      cases hm
  | moved hop h => cases hop
  | @prepared _ _ _ plan package u _ hplan hnew hpackage hpackages hmanifests =>
      have hstored : package ∈ t.packages := by
        rw [hpackages]
        rcases createRenderPackage_eq_ok hpackage with
          ⟨⟨_, _, _, -, -, -, hfound⟩, rfl⟩ | ⟨-, rfl, -⟩
        · exact List.mem_of_find?_eq_some hfound
        · exact List.mem_append_right _ List.mem_cons_self
      rcases hmanifests with hmanifests | ⟨warnings, hmanifests⟩
      · rw [hmanifests, hnil] at hm
        cases hm
      rw [hmanifests, hnil, List.nil_append, List.mem_singleton] at hm
      obtain ⟨found, hfound⟩ : ∃ found, t.package? m.renderPackageId =
          some found := by
        rw [← Option.isSome_iff_exists, Store.package?, List.find?_isSome]
        exact ⟨package, hstored, by rw [hm]; simp [newManifest]⟩
      exact ⟨found, by rw [Store.getRenderPackage, hfound]⟩

/-- The export can be rendered, and the renderer raises an error of its
own. -/
def failingRenderer : Renderer where
  capability :=
    { pdfRenderer.capability with supportedFormats := ["HTML", "PDF"] }
  render := fun _ _ =>
    .error (.builtin .runtimeError "The renderer cannot be started.")

theorem exportedReview_renders :
    ∃ m package,
      (reached spelledPlatform oneCase exportedReview).getExportManifest "x" =
        .ok m ∧
      m.status = .prepared ∧
      validateRendererCapability spelledPlatform failingRenderer.capability =
        .ok () ∧
      failingRenderer.capability.supports m.format = true ∧
      (reached spelledPlatform oneCase exportedReview).getRenderPackage
        m.renderPackageId = .ok package := by
  obtain ⟨m, hmanifests, hid, hprepared, -⟩ := exportedReview_prepares
  have hm : (reached spelledPlatform oneCase exportedReview).getExportManifest
      "x" = .ok m := by
    rw [Store.getExportManifest, Store.manifest?, hmanifests]
    simp [hid]
  have hnil : (reached spelledPlatform oneCase (approvedReview [])).manifests =
      [] :=
    manifests_eq_nil fun args renderer inputs hmem =>
      not_prepare_mem_approvedReview args renderer inputs hmem
  have hmem := (getExportManifest_mem hm).1
  rw [exportedReview, reached_concat] at hmem hm ⊢
  obtain ⟨package, hpackage⟩ := getRenderPackage_of_prepared hnil hmem
  refine ⟨m, package, hm, hprepared, rfl, ?_, hpackage⟩
  cases m.format <;> rfl

end

end ApexForensic.Reports
