import ApexForensic.Reports.ApprovalToken
import ApexForensic.Reports.ExportSteps

/-!
# Archived reports

Archiving sets the status of the header, and only a new version looks at it.
A report stays archived, and gains no review event, decision or export, in
every run in which the other operations on it are refused by their own
checks.
-/

namespace ApexForensic.Reports

open ApexForensic.Support ApexForensic.Domain

variable {report : ReportRecord} {u : Unit} {version : ReportVersion}
  {manifest : ExportManifest} {exportManifestId : String} {inputs : CallInputs}
  {actorId reason : Json}

/-! ## What belongs to a report -/

/-- The header says that the report is archived, and since when. -/
def Store.IsArchived (s : Store) (reportId : String) : Prop :=
  ∃ report, s.report? reportId = some report ∧ report.status = .archived ∧
    report.archivedAt.isSome = true

def Store.exportsOf (s : Store) (reportId : String) : List ExportManifest :=
  s.manifests.filter fun m => m.reportId = reportId

/-- The rendered artifacts of the exports of a report. -/
def Store.artifactsOf (s : Store) (reportId : String) :
    List RenderedArtifact :=
  s.artifacts.filter fun a => a.exportManifestId ∈
    (s.exportsOf reportId).map ExportManifest.exportManifestId

/-- The versions of the report, their review events and decisions, and the
exports with their artifacts are the same. -/
structure SameRowsOf (reportId : String) (s s' : Store) : Prop where
  versions : (s'.versions.filter fun v => v.reportId = reportId) =
    s.versions.filter fun v => v.reportId = reportId
  reviewEvents : (s'.reviewEvents.filter fun e => e.reportId = reportId) =
    s.reviewEvents.filter fun e => e.reportId = reportId
  approvals : (s'.approvals.filter fun a => a.reportId = reportId) =
    s.approvals.filter fun a => a.reportId = reportId
  exports : s'.exportsOf reportId = s.exportsOf reportId
  artifacts : s'.artifactsOf reportId = s.artifactsOf reportId

/-- Nothing changes but what belongs to one report. -/
def ChangesOnly (owner : String) (s s' : Store) : Prop :=
  ∀ reportId, reportId ≠ owner →
    s'.report? reportId = s.report? reportId ∧ SameRowsOf reportId s s'

/-- Nothing that belongs to a report changes. -/
def ChangesNone (s s' : Store) : Prop :=
  ∀ reportId, s'.report? reportId = s.report? reportId ∧
    SameRowsOf reportId s s'

section

variable {P : Platform} {s s' t : Store} {reportId owner : String}

theorem ChangesNone.changesOnly (h : ChangesNone s s') :
    ChangesOnly owner s s' :=
  fun reportId _ => h reportId

theorem sameRowsOf_refl (s : Store) : SameRowsOf reportId s s :=
  ⟨rfl, rfl, rfl, rfl, rfl⟩

theorem SameRowsOf.trans (h : SameRowsOf reportId s s')
    (h' : SameRowsOf reportId s' t) : SameRowsOf reportId s t :=
  ⟨h'.versions.trans h.versions, h'.reviewEvents.trans h.reviewEvents,
    h'.approvals.trans h.approvals, h'.exports.trans h.exports,
    h'.artifacts.trans h.artifacts⟩

theorem changesOnly_refl (s : Store) : ChangesOnly owner s s :=
  fun _ _ => ⟨rfl, sameRowsOf_refl s⟩

theorem ChangesOnly.trans (h : ChangesOnly owner s s')
    (h' : ChangesOnly owner s' t) : ChangesOnly owner s t :=
  fun reportId hne =>
    ⟨(h' reportId hne).1.trans (h reportId hne).1,
      (h reportId hne).2.trans (h' reportId hne).2⟩

instance : Std.Refl (ChangesOnly owner) where
  refl s := changesOnly_refl s

instance : IsTrans Store (ChangesOnly owner) where
  trans _ _ _ h h' := h.trans h'

theorem Store.IsArchived.of_report?_eq (h : s.IsArchived reportId)
    (heq : s'.report? reportId = s.report? reportId) :
    s'.IsArchived reportId := by
  obtain ⟨report, hreport, hstatus, hat⟩ := h
  exact ⟨report, heq.trans hreport, hstatus, hat⟩

theorem getReport_eq_ok (h : s.getReport reportId = .ok report) :
    s.report? reportId = some report ∧ report.reportId = reportId := by
  rw [Store.getReport] at h
  split at h
  · rename_i found hfound
    obtain rfl := Except.ok.inj h
    exact ⟨hfound, by simpa using List.find?_some hfound⟩
  · cases h

/-! ## What each transaction changes -/

theorem changesOnly_updateReport (hid : report.reportId = owner) :
    ChangesOnly owner s (s.updateReport report) := fun _ hne =>
  ⟨find?_updateRow_of_ne (fun h => hne (h.symm.trans hid)),
    ⟨rfl, rfl, rfl, rfl, rfl⟩⟩

theorem RewritesHeader.reportId_eq {report : ReportRecord}
    (h : RewritesHeader s owner report) : report.reportId = owner := by
  obtain ⟨stored, hstored, hid, -⟩ := h
  exact hid.trans (getReport_eq_ok hstored).2

theorem changesOnly_header {report : ReportRecord}
    (h : RewritesHeader s' owner report) :
    ChangesOnly owner s (s.updateReport report) :=
  changesOnly_updateReport h.reportId_eq

theorem changesOnly_version (hid : version.reportId = owner) :
    ChangesOnly owner s { s with versions := s.versions ++ [version] } :=
  fun reportId hne => ⟨rfl, by simp [hid, hne.symm], rfl, rfl, rfl, rfl⟩

theorem changesOnly_reviewEvent {event : ReviewEvent}
    (hid : event.reportId = owner) :
    ChangesOnly owner s
      { s with reviewEvents := s.reviewEvents ++ [event] } :=
  fun reportId hne => ⟨rfl, rfl, by simp [hid, hne.symm], rfl, rfl, rfl⟩

theorem changesOnly_approval {approval : ApprovalRecord}
    (hid : approval.reportId = owner) :
    ChangesOnly owner s { s with approvals := s.approvals ++ [approval] } :=
  fun reportId hne => ⟨rfl, rfl, rfl, by simp [hid, hne.symm], rfl, rfl⟩

theorem changesOnly_manifest (hid : manifest.reportId = owner) :
    ChangesOnly owner s
      { s with manifests := s.manifests ++ [manifest] } := by
  intro reportId hne
  have hexports : ({ s with manifests := s.manifests ++ [manifest] } :
      Store).exportsOf reportId = s.exportsOf reportId := by
    simp [Store.exportsOf, hid, hne.symm]
  refine ⟨rfl, rfl, rfl, rfl, hexports, ?_⟩
  rw [Store.artifactsOf, hexports]
  rfl

/-- The exports of one identifier are exports of one report. -/
def OwnsExport (owner exportManifestId : String) (s : Store) : Prop :=
  ∀ m ∈ s.manifests, m.exportManifestId = exportManifestId →
    m.reportId = owner

theorem changesOnly_updateManifest (hid : manifest.reportId = owner)
    (howns : OwnsExport owner manifest.exportManifestId s) :
    ChangesOnly owner s (s.updateReportExportManifest manifest) := by
  intro reportId hne
  have hexports : (s.updateReportExportManifest manifest).exportsOf
      reportId = s.exportsOf reportId := by
    refine filter_updateRow (by simp [hid, hne.symm]) fun m hm hkey => ?_
    simp [howns m hm hkey, hne.symm]
  refine ⟨rfl, rfl, rfl, rfl, hexports, ?_⟩
  rw [Store.artifactsOf, hexports]
  rfl

theorem ownsExport_updateManifest (hid : manifest.reportId = owner)
    (howns : OwnsExport owner exportManifestId s) :
    OwnsExport owner exportManifestId
      (s.updateReportExportManifest manifest) := by
  intro m hm hkey
  rcases mem_updateRow hm with rfl | hm
  · exact hid
  · exact howns m hm hkey

theorem changesOnly_artifact {artifact : RenderedArtifact}
    (howns : OwnsExport owner artifact.exportManifestId s) :
    ChangesOnly owner s
      { s with artifacts := s.artifacts ++ [artifact] } := by
  intro reportId hne
  refine ⟨rfl, rfl, rfl, rfl, rfl, ?_⟩
  have hnot : artifact.exportManifestId ∉
      (s.exportsOf reportId).map ExportManifest.exportManifestId := by
    intro hmem
    obtain ⟨m, hm, hkey⟩ := List.mem_map.mp hmem
    obtain ⟨hm, hreport⟩ := List.mem_filter.mp hm
    exact hne ((of_decide_eq_true hreport).symm.trans (howns m hm hkey))
  have hexports : ({ s with artifacts := s.artifacts ++ [artifact] } :
    Store).exportsOf reportId = s.exportsOf reportId := rfl
  rw [Store.artifactsOf, Store.artifactsOf, hexports, List.filter_append,
    List.filter_singleton, decide_eq_false hnot]
  simp

/-! ## What each operation changes -/

theorem createVersion_changes {args : CreateVersionArgs}
    (h : createVersion P s args inputs = .ok (version, s')) :
    ChangesOnly args.reportId s s' ∧
      (s' = s ∨ ¬ s.IsArchived args.reportId) := by
  obtain ⟨report, draft, previous, revisions, hread, hcases⟩ :=
    createVersion_cases h
  obtain ⟨hfound, hid⟩ := getReport_eq_ok hread.header
  rcases hcases with ⟨-, rfl⟩ | ⟨-, rfl, rfl, -⟩
  · exact ⟨changesOnly_refl _, Or.inl rfl⟩
  · refine ⟨?_, Or.inr ?_⟩
    · exact (changesOnly_version (s := s) hid).trans
        (changesOnly_updateReport hid)
    · rintro ⟨archived, harchived, hstatus, -⟩
      obtain rfl := Option.some.inj (hfound.symm.trans harchived)
      exact hread.notArchived hstatus

theorem setActiveVersion_changes {id reportVersionId : String}
    (h : setActiveVersion P s id reportVersionId actorId reason inputs =
      .ok (report, s')) :
    ChangesOnly id s s' ∧
      (boundedNonEmpty actorId "actor_id" maxActorIdLength).toOption.isSome = true ∧
      (requiredReason P reason).toOption.isSome = true ∧
      ∃ version, s.version? reportVersionId = some version ∧
        version.reportId = id := by
  obtain ⟨hheader, rfl, hactor, hreason, version, hversion, hsame⟩ :=
    setActiveVersion_spec h
  refine ⟨changesOnly_header hheader, hactor, hreason, version,
    getVersion_eq_ok_iff.mp hversion, ?_⟩
  exact hsame.trans hheader.reportId_eq

theorem archiveReport_changes {id : String}
    (h : archiveReport P s id actorId reason inputs = .ok (report, s')) :
    s'.IsArchived id ∧ ChangesOnly id s s' ∧
      ∀ reportId, SameRowsOf reportId s s' := by
  obtain ⟨hheader, hstatus, harchived, rfl⟩ := archiveReport_spec h
  have hid := hheader.reportId_eq
  refine ⟨⟨report, ?_, hstatus, harchived⟩, changesOnly_header hheader,
    fun _ => ⟨rfl, rfl, rfl, rfl, rfl⟩⟩
  obtain ⟨stored, hstored, -⟩ := hheader
  exact find?_updateRow_self hid (getReport_eq_ok hstored).1

theorem appendReviewEvent_changes {args : ReviewArgs} {event : ReviewEvent}
    (h : appendReviewEvent P s args inputs = .ok (event, s')) :
    ChangesOnly event.reportId s s' ∧
      ∃ report, appendReviewEventRead P s args inputs =
        .ok (event, report) := by
  obtain ⟨report, hread, hheader, rfl⟩ := appendReviewEvent_spec h
  exact ⟨(changesOnly_reviewEvent (s := s) rfl).trans
    (changesOnly_header hheader), report, hread⟩

theorem appendApproval_changes {decision : ApprovalDecision}
    {custodySnapshotId : Option String} {expected : Option ℤ}
    {approval : ApprovalRecord}
    (h : appendApproval P version decision actorId reason custodySnapshotId
      expected inputs s = .ok (approval, s')) :
    ChangesOnly version.reportId s s' ∧
      ∃ report, appendApprovalRead P s version decision actorId reason
        custodySnapshotId expected inputs = .ok (approval, report) := by
  obtain ⟨report, hread, hheader, -, rfl⟩ := appendApproval_spec h
  obtain ⟨hid, -⟩ := appendApproval_eq_ok h
  exact ⟨(changesOnly_approval (s := s) hid).trans
    (changesOnly_header hheader), report, hread⟩

theorem createCustodySnapshot_changes {reportVersionId : String}
    {capturedBy : Json} {evidenceIds : Option Json} {snapshot : CustodySnapshot}
    (h : createCustodySnapshot P reportVersionId capturedBy evidenceIds
      inputs s = .ok (snapshot, s')) : ChangesNone s s' := by
  obtain ⟨isNew, -, -, rfl⟩ := createCustodySnapshot_eq_ok h
  exact fun _ => ⟨rfl, rfl, rfl, rfl, rfl, rfl⟩

/-! ## Exports -/

theorem createRenderPackage_changes {args : PackageArgs}
    {package : RenderPackage}
    (h : createRenderPackage P args inputs s = .ok (package, s')) :
    ChangesNone s s' := by
  rcases createRenderPackage_eq_ok h with ⟨-, rfl⟩ | ⟨-, rfl, -⟩
  · exact fun _ => ⟨rfl, rfl, rfl, rfl, rfl, rfl⟩
  · exact fun _ => ⟨rfl, rfl, rfl, rfl, rfl, rfl⟩

theorem appendExportAudit_changes {action : String} {actorId : Option String}
    {details : Json}
    (h : appendExportAudit P manifest action actorId details inputs s =
      .ok (u, s')) : s'.manifests = s.manifests ∧ ChangesNone s s' := by
  obtain ⟨events, rfl⟩ := appendExportAudit_spec h
  exact ⟨rfl, fun _ => ⟨rfl, rfl, rfl, rfl, rfl, rfl⟩⟩

theorem saveManifest_changes (h : saveManifest manifest inputs s = .ok (u, s'))
    : ChangesOnly manifest.reportId s s' := by
  obtain ⟨report, hheader, -, rfl⟩ := saveManifest_spec h
  exact (changesOnly_manifest (s := s) rfl).trans
    (changesOnly_header hheader)

theorem prepareExport_changes {args : PrepareArgs} {renderer : Renderer}
    {inputs : ℕ → CallInputs}
    (h : (prepareExport P args renderer inputs).after s = s') :
    s' = s ∨ ∃ plan, prepareExportRead P s args = .ok plan ∧
      s.manifestByFingerprint? plan.manifestFingerprint = none ∧
      ChangesOnly plan.version.reportId s s' := by
  rcases Service.after_bind_eq h with hsame | ⟨plan, hplan, h⟩
  · exact Or.inl hsame
  simp only [Service.after_read] at h
  rcases Service.after_bind_eq h with hsame | ⟨existing, hexisting, h⟩
  · exact Or.inl hsame
  simp only [Service.after_read] at h
  replace hexisting := Except.ok.inj hexisting
  cases existing with
  | some manifest => exact Or.inl h.symm
  | none =>
      refine Or.inr ⟨plan, hplan, hexisting, ?_⟩
      rw [← h]
      refine Service.respects_bind (R := ChangesOnly plan.version.reportId)
        (Service.respects_commit fun _ _ _ h =>
          (createRenderPackage_changes h).changesOnly) (fun package => ?_) s
      refine Service.respects_bind (Service.respects_read _) fun warnings => ?_
      refine Service.respects_bind (Service.respects_commit
        fun _ _ _ h => saveManifest_changes h) fun _ => ?_
      refine Service.respects_bind (Service.respects_commit
        fun _ _ _ h => (appendExportAudit_changes h).2.changesOnly)
        fun _ => ?_
      exact Service.respects_pure _

/-- The identifiers of the exports are the same, and when the export is the
owner's, nothing changes but what belongs to the owner. -/
structure MovesExport (owner exportManifestId : String) (s s' : Store) :
    Prop where
  ids : s'.manifests.map ExportManifest.exportManifestId =
    s.manifests.map ExportManifest.exportManifestId
  owns : OwnsExport owner exportManifestId s →
    OwnsExport owner exportManifestId s' ∧ ChangesOnly owner s s'

instance (exportManifestId : String) :
    Std.Refl (MovesExport owner exportManifestId) where
  refl s := ⟨rfl, fun h => ⟨h, changesOnly_refl s⟩⟩

instance (exportManifestId : String) :
    IsTrans Store (MovesExport owner exportManifestId) where
  trans _ _ _ h h' := ⟨h'.ids.trans h.ids, fun howns =>
    ⟨(h'.owns (h.owns howns).1).1,
      (h.owns howns).2.trans (h'.owns (h.owns howns).1).2⟩⟩

/-- Whoever owns the export. -/
def MovesAnyExport (exportManifestId : String) (s s' : Store) : Prop :=
  ∀ owner, MovesExport owner exportManifestId s s'

instance (exportManifestId : String) :
    Std.Refl (MovesAnyExport exportManifestId) where
  refl s _ := refl_of (MovesExport _ _) s

variable (P) in
theorem movesLaw (exportManifestId : String) :
    CallLaw P exportManifestId (MovesAnyExport exportManifestId)
      fun m => MovesExport m.reportId exportManifestId where
  manifest := by
    rintro m rfl
    refine ⟨fun _ h => ?_, fun _ h => ?_, fun _ hid h => ?_⟩
    · obtain ⟨hmanifests, hchanges⟩ := appendExportAudit_changes h
      refine ⟨by rw [hmanifests], fun howns => ⟨?_, hchanges.changesOnly⟩⟩
      rw [OwnsExport, hmanifests]
      exact howns
    · obtain ⟨-, rfl⟩ := ok_pair_inj h
      exact ⟨map_key_updateRow _ _ _, fun howns =>
        ⟨ownsExport_updateManifest rfl howns,
          changesOnly_updateManifest rfl howns⟩⟩
    · obtain ⟨report, hheader, rfl⟩ := saveCompletion_spec h
      refine ⟨map_key_updateRow _ _ _, fun howns =>
        ⟨ownsExport_updateManifest rfl howns, ?_⟩⟩
      have hartifact := changesOnly_artifact (hid.symm ▸ howns)
      refine hartifact.trans (ChangesOnly.trans ?_ (changesOnly_header hheader))
      exact changesOnly_updateManifest rfl howns
  read := by
    intro m s s' hm h owner
    obtain ⟨hmem, hid⟩ := getExportManifest_mem hm
    refine ⟨h.ids, fun howns => ?_⟩
    rw [← howns m hmem hid]
    exact h.owns fun x hx hx' => (howns x hx hx').trans
      (howns m hmem hid).symm
  again _ h := h _

/-! ## The checks of the operations -/

/-- The contract check of a result and the warnings it reports. -/
def resultWarnings (P : Platform) (payload : List (String × Json)) :
    Except PyError (List Json) := do
  validateContractPayload P (.obj payload) "render_result"
  boundedWarnings P (getDefault payload "warnings" (.arr [])) "warnings"

/-- The result passes the checks of `record_export_result` on the export: it
reports a failure, a cancellation, or the completion of an open export with an
artifact that passes its own checks. -/
def PassesAsResult (P : Platform) (manifest : ExportManifest)
    (payload : List (String × Json)) (inputs : CallInputs) : Prop :=
  ∃ warnings, resultWarnings P payload = .ok warnings ∧
    (pyStr P (getDefault payload "status" (.str "COMPLETED")) = "FAILED" ∨
      pyStr P (getDefault payload "status" (.str "COMPLETED")) =
        "CANCELLED" ∨
      (pyStr P (getDefault payload "status" (.str "COMPLETED")) =
          "COMPLETED" ∧
        (manifest.status = .prepared ∨ manifest.status = .rendering) ∧
        (renderedArtifact P manifest payload warnings inputs).toOption.isSome = true))

/-- The operation passes its own checks and goes on to write to the report: to
its header, its review events, its decisions or its exports.  None of these
checks looks at whether the report is archived. -/
inductive Passes (P : Platform) (s : Store) (reportId : String) : Op → Prop
  | setActiveVersion {reportVersionId : String} {actorId reason : Json}
      {inputs : CallInputs} {version : ReportVersion}
      (hactor : (boundedNonEmpty actorId "actor_id"
        maxActorIdLength).toOption.isSome = true)
      (hreason : (requiredReason P reason).toOption.isSome = true)
      (hversion : s.version? reportVersionId = some version)
      (hid : version.reportId = reportId) :
      Passes P s reportId
        (.setActiveVersion reportId reportVersionId actorId reason inputs)
  | review {args : ReviewArgs} {inputs : CallInputs} {event : ReviewEvent}
      {report : ReportRecord}
      (h : appendReviewEventRead P s args inputs = .ok (event, report))
      (hid : event.reportId = reportId) :
      Passes P s reportId (.review args inputs)
  | approve {args : ApproveArgs} {snapshotInputs inputs : CallInputs}
      {version : ReportVersion} {approverId reason : String}
      {snapshot : CustodySnapshot}
      (hread : approveRead P s args = .ok (version, approverId, reason))
      (hsnapshot : approvalSnapshot P s args version approverId
        snapshotInputs = .ok snapshot)
      (hcheck : checkApprovalSnapshot version snapshot = .ok ())
      (hid : version.reportId = reportId) :
      Passes P s reportId (.approve args snapshotInputs inputs)
  | reject {reportVersionId : String} {approverId reason : Json}
      {expected : Option ℤ} {inputs : CallInputs} {version : ReportVersion}
      {text : String} {r : ApprovalRecord × ReportRecord}
      (hversion : s.version? reportVersionId = some version)
      (htext : requiredReason P reason = .ok text)
      (h : appendApprovalRead P s version .rejected approverId (.str text)
        none expected inputs = .ok r)
      (hid : version.reportId = reportId) :
      Passes P s reportId
        (.reject reportVersionId approverId reason expected inputs)
  | revokeApproval {reportVersionId : String} {actorId reason : Json}
      {expected : Option ℤ} {inputs : CallInputs} {version : ReportVersion}
      {latest : ApprovalRecord} {text : String}
      {r : ApprovalRecord × ReportRecord}
      (hversion : s.version? reportVersionId = some version)
      (hlatest : s.latestApproval version.reportVersionId = some latest)
      (hdecision : latest.decision = .approved)
      (htext : requiredReason P reason = .ok text)
      (h : appendApprovalRead P s version .revoked actorId (.str text)
        latest.custodySnapshotId expected inputs = .ok r)
      (hid : version.reportId = reportId) :
      Passes P s reportId
        (.revokeApproval reportVersionId actorId reason expected inputs)
  | prepareExport {args : PrepareArgs} {renderer : Renderer}
      {inputs : ℕ → CallInputs} {plan : ExportPlan}
      (hplan : prepareExportRead P s args = .ok plan)
      (hnew : s.manifestByFingerprint? plan.manifestFingerprint = none)
      (hid : plan.version.reportId = reportId) :
      Passes P s reportId (.prepareExport args renderer inputs)
  | renderExport {exportManifestId : String} {renderer : Renderer}
      {inputs : ℕ → CallInputs} {manifest : ExportManifest}
      (h : s.getExportManifest exportManifestId = .ok manifest)
      (hprepared : manifest.status = .prepared)
      (hrenderer : (validateRendererCapability P
        renderer.capability).toOption.isSome = true)
      (hid : manifest.reportId = reportId) :
      Passes P s reportId (.renderExport exportManifestId renderer inputs)
  | recordExportResult {exportManifestId : String}
      {payload : List (String × Json)} {inputs : ℕ → CallInputs}
      {manifest : ExportManifest}
      (h : s.getExportManifest exportManifestId = .ok manifest)
      (hresult : PassesAsResult P manifest payload (inputs 0))
      (hid : manifest.reportId = reportId) :
      Passes P s reportId
        (.recordExportResult exportManifestId payload inputs)

theorem recordExportResult_cases {payload : List (String × Json)}
    {inputs : ℕ → CallInputs}
    (h : (recordExportResult P exportManifestId payload inputs).after s =
      s') :
    s' = s ∨ ∃ manifest,
      s.getExportManifest exportManifestId = .ok manifest ∧
      PassesAsResult P manifest payload (inputs 0) := by
  rcases Service.after_bind_eq h with hsame | ⟨manifest, hmanifest, h⟩
  · exact Or.inl hsame
  simp only [Service.after_read] at h
  rcases Service.after_bind_eq h with hsame | ⟨warnings, hwarnings, h⟩
  · exact Or.inl hsame
  simp only [Service.after_read] at h
  split at h
  · rename_i hfailed
    exact Or.inr ⟨manifest, hmanifest, warnings, hwarnings, Or.inl hfailed⟩
  split at h
  · rename_i hcancelled
    exact Or.inr ⟨manifest, hmanifest, warnings, hwarnings,
      Or.inr (Or.inl hcancelled)⟩
  split at h
  · exact Or.inl h.symm
  split at h
  · exact Or.inl h.symm
  · rename_i hcompleted hopen
    rcases Service.after_bind_eq h with hsame | ⟨artifact, hartifact, -⟩
    · exact Or.inl hsame
    · refine Or.inr ⟨manifest, hmanifest, warnings, hwarnings,
        Or.inr (Or.inr ⟨not_not.mp hcompleted, ?_, ?_⟩)⟩
      · by_contra hnot
        obtain ⟨hprepared, hrendering⟩ := not_or.mp hnot
        exact hopen ⟨hprepared, hrendering⟩
      · rw [Service.result_read] at hartifact
        rw [hartifact]
        rfl

theorem renderExport_cases {renderer : Renderer} {inputs : ℕ → CallInputs}
    (h : (renderExport P exportManifestId renderer inputs).after s = s') :
    s' = s ∨ ∃ manifest,
      s.getExportManifest exportManifestId = .ok manifest ∧
      manifest.status = .prepared ∧
      (validateRendererCapability P renderer.capability).toOption.isSome = true := by
  rcases Service.after_bind_eq h with hsame | ⟨manifest, hmanifest, h⟩
  · exact Or.inl hsame
  simp only [Service.after_read] at h
  rcases Service.after_bind_eq h with hsame | ⟨u, hu, -⟩
  · exact Or.inl hsame
  rw [Service.result_read] at hu
  refine Or.inr ⟨manifest, hmanifest, ?_⟩
  split at hu
  · cases hu
  · rename_i hprepared
    exact ⟨not_not.mp hprepared, by rw [hu]; rfl⟩

/-! ## Runs of an archived report -/

def ExportsKeyed (s : Store) : Prop :=
  (s.manifests.map ExportManifest.exportManifestId).Nodup

theorem ExportsKeyed.ownsExport (hs : ExportsKeyed s) {m : ExportManifest}
    (hm : m ∈ s.manifests) : OwnsExport m.reportId m.exportManifestId s :=
  fun x hx hid => by rw [List.inj_on_of_nodup_map hs hx hm hid]

theorem exportsKeyed_saveManifest
    (h : saveManifest manifest inputs s = .ok (u, s')) (hs : ExportsKeyed s) :
    ExportsKeyed s' := by
  obtain ⟨report, -, hkeys, rfl⟩ := saveManifest_spec h
  change ((s.manifests ++ [manifest]).map _).Nodup
  exact nodup_map_concat hs fun m hm => (hkeys m hm).symm

/-- The computation keeps exports keyed. -/
def KeepsKeys (s s' : Store) : Prop :=
  ExportsKeyed s → ExportsKeyed s'

instance : Std.Refl KeepsKeys where
  refl _ h := h

instance : IsTrans Store KeepsKeys where
  trans _ _ _ h h' hs := h' (h hs)

theorem keepsKeys_of_ids_eq
    (h : s'.manifests.map ExportManifest.exportManifestId =
      s.manifests.map ExportManifest.exportManifestId) : KeepsKeys s s' := by
  intro hs
  rw [ExportsKeyed, h]
  exact hs

variable (P) in
theorem keepsKeysLaw : ExportLaw P KeepsKeys where
  package h := by
    rcases createRenderPackage_eq_ok h with ⟨-, rfl⟩ | ⟨-, rfl, -⟩
    · exact refl_of KeepsKeys _
    · exact keepsKeys_of_ids_eq rfl
  audit h := keepsKeys_of_ids_eq (by rw [(appendExportAudit_eq_ok h).1])
  manifest := exportsKeyed_saveManifest
  update h := by
    obtain ⟨-, rfl⟩ := ok_pair_inj h
    exact keepsKeys_of_ids_eq (map_key_updateRow _ _ _)
  completion h := by
    obtain ⟨report, -, rfl⟩ := saveCompletion_spec h
    exact keepsKeys_of_ids_eq (map_key_updateRow _ _ _)

theorem exportsKeyed_step (op : Op) (hs : ExportsKeyed s) :
    ExportsKeyed (step P s op) := by
  generalize hstep : step P s op = s'
  have hwritten := step_exportWritten (P := P) (s := s) op
  rw [hstep] at hwritten
  cases hwritten with
  | same hmanifests hpackages =>
      exact keepsKeys_of_ids_eq (by rw [hmanifests]) hs
  | package h => exact (keepsKeysLaw P).package h hs
  | moved hop h =>
      rw [← hstep]
      cases op with
      | renderExport exportManifestId renderer inputs =>
          exact (keepsKeysLaw P).respects_renderExport _ _ _ s hs
      | recordExportResult exportManifestId payload inputs =>
          exact (keepsKeysLaw P).respects_recordExportResult _ _ _ s hs
      | _ => cases hop
  | @prepared args renderer inputs _ _ _ _ hplan hnew hpackage hpackages
      hmanifests =>
      rw [← hstep]
      exact (keepsKeysLaw P).respects_prepareExport args renderer inputs s hs

theorem exportsKeyed_reached (world : World) (ops : List Op) :
    ExportsKeyed (reached P world ops) :=
  run_invariant (fun _ op hs => exportsKeyed_step op hs)
    (show ExportsKeyed (Store.empty world) from List.nodup_nil) ops

/-- The report is still archived, and its rows are the same. -/
def StaysArchived (reportId : String) (s s' : Store) : Prop :=
  s'.IsArchived reportId ∧ SameRowsOf reportId s s'

theorem ChangesOnly.staysArchived (h : ChangesOnly owner s s')
    (hs : s.IsArchived reportId) (hne : reportId ≠ owner) :
    StaysArchived reportId s s' :=
  ⟨hs.of_report?_eq (h reportId hne).1, (h reportId hne).2⟩

theorem ChangesNone.staysArchived (h : ChangesNone s s')
    (hs : s.IsArchived reportId) : StaysArchived reportId s s' :=
  ⟨hs.of_report?_eq (h reportId).1, (h reportId).2⟩

/-- The decisions of `approve` on a report that is not archived leave the
archived ones. -/
theorem approve_staysArchived {args : ApproveArgs} {snapshotInputs : CallInputs}
    (hs : s.IsArchived reportId)
    (hpasses : ¬ Passes P s reportId (.approve args snapshotInputs inputs)) :
    StaysArchived reportId s
      ((approve P args snapshotInputs inputs).after s) := by
  rcases approve_cases (P := P) (s := s) rfl with
    hsame | ⟨version, approverId, reason, t, hread, ht, hrest⟩
  · rw [hsame]
    exact ⟨hs, sameRowsOf_refl s⟩
  have htaken : ChangesNone s t := by
    rcases ht with rfl | ⟨c, hcreate⟩
    · exact fun _ => ⟨rfl, sameRowsOf_refl t⟩
    · exact createCustodySnapshot_changes hcreate
  rcases hrest with hrefused | ⟨snapshot, approval, hsnapshot, -, hcheck, h⟩
  · rw [hrefused]
    exact htaken.staysArchived hs
  · have hchanges := htaken.changesOnly.trans (appendApproval_changes h).1
    exact hchanges.staysArchived hs fun heq =>
      hpasses (.approve hread hsnapshot hcheck heq.symm)

/-- A step whose operation does not pass its checks on the archived report
leaves it archived. -/
theorem staysArchived_step (hkeyed : ExportsKeyed s)
    (hs : s.IsArchived reportId) {op : Op}
    (hpasses : ¬ Passes P s reportId op) :
    StaysArchived reportId s (step P s op) := by
  cases op with
  | createReport args inputs =>
      refine holds_call ⟨hs, sameRowsOf_refl s⟩ fun report s' h => ?_
      obtain ⟨-, -, rfl⟩ := createReport_spec h
      obtain ⟨archived, hfound, harchived⟩ := hs
      refine ⟨⟨archived, ?_, harchived⟩, rfl, rfl, rfl, rfl, rfl⟩
      exact (List.find?_append ..).trans (by
        rw [show s.reports.find? _ = _ from hfound, Option.some_or])
  | createVersion args inputs =>
      refine holds_call ⟨hs, sameRowsOf_refl s⟩ fun version s' h => ?_
      obtain ⟨hchanges, rfl | hopen⟩ := createVersion_changes h
      · exact ⟨hs, sameRowsOf_refl s'⟩
      · exact hchanges.staysArchived hs fun heq => hopen (heq ▸ hs)
  | setActiveVersion id reportVersionId actorId reason inputs =>
      refine holds_call ⟨hs, sameRowsOf_refl s⟩ fun report s' h => ?_
      obtain ⟨hchanges, hactor, hreason, version, hversion, hid⟩ :=
        setActiveVersion_changes h
      refine hchanges.staysArchived hs fun heq => hpasses ?_
      rw [heq]
      exact .setActiveVersion hactor hreason hversion hid
  | archiveReport id actorId reason inputs =>
      refine holds_call ⟨hs, sameRowsOf_refl s⟩ fun report s' h => ?_
      obtain ⟨harchived, hchanges, hrows⟩ := archiveReport_changes h
      by_cases heq : reportId = id
      · rw [heq]
        exact ⟨harchived, hrows id⟩
      · exact hchanges.staysArchived hs heq
  | review args inputs =>
      refine holds_call ⟨hs, sameRowsOf_refl s⟩ fun event s' h => ?_
      obtain ⟨hchanges, report, hread⟩ := appendReviewEvent_changes h
      exact hchanges.staysArchived hs fun heq =>
        hpasses (.review hread heq.symm)
  | createCustodySnapshot reportVersionId capturedBy evidenceIds inputs =>
      exact holds_call ⟨hs, sameRowsOf_refl s⟩ fun snapshot s' h =>
        (createCustodySnapshot_changes h).staysArchived hs
  | approve args snapshotInputs inputs => exact approve_staysArchived hs hpasses
  | reject reportVersionId approverId reason expected inputs =>
      refine holds_call ⟨hs, sameRowsOf_refl s⟩ fun approval s' h => ?_
      obtain ⟨version, hversion, h⟩ := bind_ok h
      obtain ⟨text, htext, h⟩ := bind_ok h
      obtain ⟨hchanges, report, hread⟩ := appendApproval_changes h
      exact hchanges.staysArchived hs fun heq => hpasses
        (.reject (getVersion_eq_ok_iff.mp hversion) htext hread heq.symm)
  | revokeApproval reportVersionId actorId reason expected inputs =>
      refine holds_call ⟨hs, sameRowsOf_refl s⟩ fun approval s' h => ?_
      obtain ⟨version, hversion, h⟩ := bind_ok h
      dsimp only at h
      split at h
      · cases h
      rename_i latest hlatest
      split at h
      · cases h
      rename_i hdecision
      obtain ⟨text, htext, h⟩ := bind_ok h
      obtain ⟨hchanges, report, hread⟩ := appendApproval_changes h
      exact hchanges.staysArchived hs fun heq => hpasses
        (.revokeApproval (getVersion_eq_ok_iff.mp hversion) hlatest
          (not_not.mp hdecision) htext hread heq.symm)
  | createRenderPackage args inputs =>
      exact holds_call ⟨hs, sameRowsOf_refl s⟩ fun package s' h =>
        (createRenderPackage_changes h).staysArchived hs
  | prepareExport args renderer inputs =>
      rcases prepareExport_changes (P := P) (s := s) rfl with
        hsame | ⟨plan, hplan, hnew, hchanges⟩
      · change StaysArchived reportId s
          ((prepareExport P args renderer inputs).after s)
        rw [hsame]
        exact ⟨hs, sameRowsOf_refl s⟩
      · exact hchanges.staysArchived hs fun heq =>
          hpasses (.prepareExport hplan hnew heq.symm)
  | renderExport exportManifestId renderer inputs =>
      rcases renderExport_cases (P := P) (s := s) rfl with
        hsame | ⟨manifest, hmanifest, hprepared, hrenderer⟩
      · change StaysArchived reportId s
          ((renderExport P exportManifestId renderer inputs).after s)
        rw [hsame]
        exact ⟨hs, sameRowsOf_refl s⟩
      · obtain ⟨hmem, rfl⟩ := getExportManifest_mem hmanifest
        have hmoves := (movesLaw P manifest.exportManifestId
          ).respects_renderExport renderer inputs s manifest.reportId
        refine (hmoves.owns (hkeyed.ownsExport hmem)).2.staysArchived hs
          fun heq => hpasses ?_
        exact .renderExport hmanifest hprepared hrenderer heq.symm
  | recordExportResult exportManifestId payload inputs =>
      rcases recordExportResult_cases (P := P) (s := s) rfl with
        hsame | ⟨manifest, hmanifest, hresult⟩
      · change StaysArchived reportId s
          ((recordExportResult P exportManifestId payload inputs).after s)
        rw [hsame]
        exact ⟨hs, sameRowsOf_refl s⟩
      · obtain ⟨hmem, rfl⟩ := getExportManifest_mem hmanifest
        have hmoves := (movesLaw P manifest.exportManifestId
          ).respects_recordExportResult payload inputs s manifest.reportId
        refine (hmoves.owns (hkeyed.ownsExport hmem)).2.staysArchived hs
          fun heq => hpasses ?_
        exact .recordExportResult hmanifest hresult heq.symm
  | world w => exact ⟨hs, rfl, rfl, rfl, rfl, rfl⟩

theorem staysArchived_run (hkeyed : ExportsKeyed s)
    (hs : s.IsArchived reportId) {ops : List Op}
    (hops : StepsMeet (step P) (fun s op => ¬ Passes P s reportId op) s ops) :
    StaysArchived reportId s (run (step P) s ops) := by
  have hstep : ∀ t op, ExportsKeyed t ∧ StaysArchived reportId s t →
      ¬ Passes P t reportId op →
      ExportsKeyed (step P t op) ∧ StaysArchived reportId s (step P t op) := by
    rintro t op ⟨hkeyed, harchived, hrows⟩ hop
    have hstays := staysArchived_step hkeyed harchived hop
    exact ⟨exportsKeyed_step op hkeyed, hstays.1, hrows.trans hstays.2⟩
  exact (run_invariant_of_stepsMeet hstep ⟨hkeyed, hs, sameRowsOf_refl s⟩
    hops).2

end

/-- Once a report has been archived it stays archived, with its versions,
review events, decisions and exports as they are, in every run in which no
later operation passes its own checks on the report. -/
theorem archived_terminal (P : Platform) (world : World)
    (before after : List Op) (reportId : String) (actorId reason : Json)
    (inputs : CallInputs)
    (harchived : (archiveReport P (reached P world before) reportId actorId
      reason inputs).toOption.isSome = true)
    (hafter : StepsMeet (step P) (fun s op => ¬ Passes P s reportId op)
      (reached P world
        (before ++ [.archiveReport reportId actorId reason inputs])) after) :
    (reached P world (before ++
        [.archiveReport reportId actorId reason inputs] ++ after)).IsArchived
      reportId ∧
    SameRowsOf reportId
      (reached P world
        (before ++ [.archiveReport reportId actorId reason inputs]))
      (reached P world (before ++
        [.archiveReport reportId actorId reason inputs] ++ after)) := by
  have hstart : (reached P world (before ++
      [.archiveReport reportId actorId reason inputs])).IsArchived
        reportId := by
    obtain ⟨⟨report, s'⟩, hok⟩ := exists_ok_of_isSome harchived
    have hstep : step P (reached P world before)
        (.archiveReport reportId actorId reason inputs) = s' :=
      call_eq_of_ok hok
    rw [reached, run_concat]
    change (step P (reached P world before) _).IsArchived reportId
    rw [hstep]
    exact (archiveReport_changes hok).1
  have hrun : reached P world (before ++
      [.archiveReport reportId actorId reason inputs] ++ after) =
    run (step P) (reached P world (before ++
      [.archiveReport reportId actorId reason inputs])) after :=
    run_append _ _ _ _
  rw [hrun]
  exact staysArchived_run (exportsKeyed_reached world _) hstart hafter

/-! ## An archived report made active again -/

def archiveOf : Op :=
  .archiveReport "r" (.str "a") (.str "w") (callAt 3 "x")

/-- A version of the report made active. -/
def activation (reportVersionId : String) : Op :=
  .setActiveVersion "r" reportVersionId (.str "a") (.str "w") (callAt 4 "y")

/-- Making a version active takes the report out of the archive, and its
header still says since when it is archived. -/
theorem activation_reopens :
    ¬ ∀ (P : Platform) (world : World) (before after : List Op)
      (reportId : String) (actorId reason : Json) (inputs : CallInputs),
      (archiveReport P (reached P world before) reportId actorId reason
        inputs).toOption.isSome = true →
      (reached P world (before ++
        [.archiveReport reportId actorId reason inputs] ++
          after)).IsArchived reportId := by
  intro h
  have hfacts :
      (archiveReport headPlatform (reached headPlatform oneCase
        (oneVersion [])) "r" (.str "a") (.str "w")
        (callAt 3 "x")).toOption.isSome = true ∧
      ((reached headPlatform oneCase (oneVersion [] ++ [archiveOf] ++
        [activation "v"])).report? "r").map (fun r =>
          (r.status, r.archivedAt.isSome)) = some (.reviewRequired, true) := by
    decide +kernel
  obtain ⟨report, hreport, hstatus, -⟩ := h headPlatform oneCase
    (oneVersion []) [activation "v"] "r" (.str "a") (.str "w")
    (callAt 3 "x") hfacts.1
  have hheader := hfacts.2
  rw [archiveOf, hreport] at hheader
  simp [hstatus] at hheader

/-- Making a version active that is not stored leaves the report archived. -/
theorem archived_after_refused_activation :
    (reached headPlatform oneCase (oneVersion [] ++ [archiveOf] ++
      [activation "z"])).IsArchived "r" := by
  have hfacts :
      (archiveReport headPlatform (reached headPlatform oneCase
        (oneVersion [])) "r" (.str "a") (.str "w")
        (callAt 3 "x")).toOption.isSome = true ∧
      ((reached headPlatform oneCase (oneVersion [] ++ [archiveOf])).version?
        "z").isNone = true := by
    decide +kernel
  refine (archived_terminal headPlatform oneCase (oneVersion [])
    [activation "z"] "r" (.str "a") (.str "w") (callAt 3 "x") hfacts.1
    ⟨?_, trivial⟩).1
  intro hpasses
  cases hpasses with
  | setActiveVersion hactor hreason hversion hid =>
      have hnone := hfacts.2
      rw [archiveOf, hversion] at hnone
      cases hnone

end ApexForensic.Reports
