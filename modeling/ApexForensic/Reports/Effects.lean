import ApexForensic.Reports.Service

/-!
# What the operations write

Each transaction of the report service adds at most one row to one table and
updates the header of a report.  What the row is, and under which checks it is
added, is said once here for every operation that writes versions, reviews,
snapshots or approvals.
-/

namespace ApexForensic.Reports

open ApexForensic.Support ApexForensic.Domain

variable {op : Op} {report : ReportRecord} {version : ReportVersion}
  {snapshot : CustodySnapshot} {approval : ApprovalRecord}
  {reportVersionId : String} {inputs : CallInputs}
  {actorId capturedBy reason : Json} {expected : Option ℤ}
  {evidenceIds : Option Json}

section

variable {P : Platform} {s s' : Store}

theorem getVersion_eq_ok_iff :
    s.getVersion reportVersionId = .ok version ↔
      s.version? reportVersionId = some version := by
  rw [Store.getVersion]
  cases h : s.version? reportVersionId with
  | none => simp
  | some v => simp

theorem mem_of_version? (h : s.version? reportVersionId = some version) :
    version ∈ s.versions ∧ version.reportVersionId = reportVersionId :=
  ⟨List.mem_of_find?_eq_some h, by simpa using List.find?_some h⟩

/-! ## Headers -/

theorem createReport_spec {args : CreateReportArgs}
    (h : createReport P s args inputs = .ok (report, s')) :
    createReportRead P s.world args inputs = .ok report ∧
      s.report? report.reportId = none ∧
      s' = { s with reports := s.reports ++ [report] } := by
  obtain ⟨r, hread, h⟩ := bind_ok h
  obtain ⟨t, ht, h⟩ := bind_ok h
  obtain ⟨reports, hinsert, ht⟩ := bind_ok ht
  obtain ⟨rfl, rfl⟩ := ok_pair_inj h
  obtain rfl := Except.ok.inj ht
  obtain ⟨rfl, hkeys⟩ := insertRow_eq_ok_iff.mp hinsert
  refine ⟨hread, List.find?_eq_none.mpr fun other hother heq => ?_, rfl⟩
  have hkey := of_decide_eq_false (hkeys _ List.mem_cons_self other hother)
  exact hkey (of_decide_eq_true heq).symm

theorem createReport_eq_ok {args : CreateReportArgs}
    (h : createReport P s args inputs = .ok (report, s')) :
    s' = { s with reports := s'.reports } := by
  obtain ⟨-, -, rfl⟩ := createReport_spec h
  rfl

theorem archiveReport_spec {reportId : String}
    (h : archiveReport P s reportId actorId reason inputs =
      .ok (report, s')) :
    RewritesHeader s reportId report ∧ report.status = .archived ∧
      report.archivedAt.isSome = true ∧ s' = s.updateReport report := by
  obtain ⟨-, -, h⟩ := bind_ok h
  obtain ⟨-, -, h⟩ := bind_ok h
  obtain ⟨stored, hstored, h⟩ := bind_ok h
  obtain ⟨-, -, h⟩ := bind_ok h
  obtain ⟨rfl, rfl⟩ := ok_pair_inj h
  exact ⟨⟨stored, hstored, rfl, rfl⟩, rfl, rfl, rfl⟩

theorem archiveReport_eq_ok {reportId : String}
    (h : archiveReport P s reportId actorId reason inputs =
      .ok (report, s')) : s' = { s with reports := s'.reports } := by
  obtain ⟨-, -, -, rfl⟩ := archiveReport_spec h
  rfl

theorem setActiveVersion_spec {reportId : String}
    (h : setActiveVersion P s reportId reportVersionId actorId reason inputs =
      .ok (report, s')) :
    RewritesHeader s reportId report ∧ s' = s.updateReport report ∧
      (boundedNonEmpty actorId "actor_id" maxActorIdLength).toOption.isSome =
        true ∧
      (requiredReason P reason).toOption.isSome = true ∧
      ∃ version, s.getVersion reportVersionId = .ok version ∧
        version.reportId = report.reportId := by
  obtain ⟨actor, hactor, h⟩ := bind_ok h
  obtain ⟨text, htext, h⟩ := bind_ok h
  obtain ⟨stored, hstored, h⟩ := bind_ok h
  obtain ⟨version, hversion, h⟩ := bind_ok h
  obtain ⟨hsame, h⟩ := check_ok h
  obtain ⟨-, -, h⟩ := bind_ok h
  obtain ⟨rfl, rfl⟩ := ok_pair_inj h
  exact ⟨⟨stored, hstored, rfl, rfl⟩, rfl, by rw [hactor]; rfl,
    by rw [htext]; rfl, version, hversion, not_not.mp hsame⟩

theorem setActiveVersion_eq_ok {reportId : String}
    (h : setActiveVersion P s reportId reportVersionId actorId reason inputs =
      .ok (report, s')) : s' = { s with reports := s'.reports } := by
  obtain ⟨-, rfl, -⟩ := setActiveVersion_spec h
  rfl

/-! ## Versions -/

theorem checkVersionRows_eq_ok {u : Unit}
    (h : Store.checkVersionRows version = .ok u) :
    (version.sections.map ReportSection.sectionId).Nodup := by
  rw [Store.checkVersionRows] at h
  split at h
  · cases h
  · rename_i hnodup
    exact not_not.mp hnodup

/-- What `create_version` reads before it looks for the content. -/
structure VersionRead (P : Platform) (s : Store) (args : CreateVersionArgs)
    (report : ReportRecord) (draft : VersionDraft)
    (previous : Option ReportVersion) (sourceRevisions : List Json) :
    Prop where
  header : s.getReport args.reportId = .ok report
  notArchived : report.status ≠ .archived
  drafted : versionDraft P s.world report.caseId args = .ok draft
  active : activeVersion s report = .ok previous
  revised : (draft.snapshots.insertionSort fun a b =>
    a.contextSnapshotId ≤ b.contextSnapshotId).mapM (sourceRevision P) =
      .ok sourceRevisions

/-- The header after its report got a version. -/
def ReportRecord.afterVersion (report : ReportRecord) (version : ReportVersion)
    (now : Datetime) : ReportRecord :=
  { report with
    activeVersionId := some version.reportVersionId
    latestVersionNumber := version.versionNumber
    status := .reviewRequired
    updatedAt := now }

/-- The store after a version of the report was added. -/
def Store.withVersion (s : Store) (report : ReportRecord)
    (version : ReportVersion) (now : Datetime) : Store :=
  { s with versions := s.versions ++ [version] }.updateReport
    (report.afterVersion version now)

/-- `create_version` returns the version with the content or adds it. -/
theorem createVersion_cases {args : CreateVersionArgs}
    (h : createVersion P s args inputs = .ok (version, s')) :
    ∃ report draft previous revisions,
      VersionRead P s args report draft previous revisions ∧
      ((s.versionByFingerprint? report.reportId
          (contentFingerprint P report draft revisions) = some version ∧
        s' = s) ∨
      (s.versionByFingerprint? report.reportId
          (contentFingerprint P report draft revisions) = none ∧
        version = newVersion P report previous draft revisions inputs ∧
        s' = s.withVersion report version inputs.now ∧
        (∀ v ∈ s.versions, version.reportVersionId ≠ v.reportVersionId) ∧
        (version.sections.map ReportSection.sectionId).Nodup)) := by
  obtain ⟨report, hreport, h⟩ := bind_ok h
  obtain ⟨hopen, h⟩ := check_ok h
  obtain ⟨draft, hdraft, h⟩ := bind_ok h
  obtain ⟨previous, hprevious, h⟩ := bind_ok h
  obtain ⟨revisions, hrevisions, h⟩ := bind_ok h
  refine ⟨report, draft, previous, revisions,
    ⟨hreport, hopen, hdraft, hprevious, hrevisions⟩, ?_⟩
  dsimp only at h
  split at h
  · rename_i existing hfound
    obtain ⟨rfl, rfl⟩ := ok_pair_inj h
    exact Or.inl ⟨hfound, rfl⟩
  · rename_i hnone
    obtain ⟨-, -, h⟩ := bind_ok h
    obtain ⟨t, ht, h⟩ := bind_ok h
    obtain ⟨versions, hinsert, ht⟩ := bind_ok ht
    obtain ⟨u, hrows, ht⟩ := bind_ok ht
    obtain ⟨rfl, rfl⟩ := ok_pair_inj h
    obtain rfl := Except.ok.inj ht
    obtain ⟨rfl, hkeys⟩ := insertRow_eq_ok_iff.mp hinsert
    refine Or.inr ⟨hnone, rfl, rfl, fun v hv => ?_, checkVersionRows_eq_ok hrows⟩
    exact of_decide_eq_false (hkeys _ List.mem_cons_self v hv)

theorem createVersion_eq_ok {args : CreateVersionArgs}
    (h : createVersion P s args inputs = .ok (version, s')) :
    (s' = s ∧ version ∈ s.versions) ∨
      (s' = { s with
          versions := s.versions ++ [version], reports := s'.reports } ∧
        (∀ v ∈ s.versions, version.reportVersionId ≠ v.reportVersionId) ∧
        (version.sections.map ReportSection.sectionId).Nodup) := by
  obtain ⟨report, draft, previous, revisions, -, hcases⟩ :=
    createVersion_cases h
  rcases hcases with ⟨hfound, rfl⟩ | ⟨-, -, rfl, hkeys, hsections⟩
  · exact Or.inl ⟨rfl, List.mem_of_find?_eq_some hfound⟩
  · exact Or.inr ⟨rfl, hkeys, hsections⟩

/-! ## Review events -/

/-- A review event that the service built for a version of the store. -/
structure BuiltEvent (P : Platform) (s : Store) (args : ReviewArgs)
    (inputs : CallInputs) (version : ReportVersion) (event : ReviewEvent) :
    Prop where
  reviewEventId : event.reviewEventId = inputs.newId
  target : s.version? args.reportVersionId = some version
  checked : ∃ requestedChanges, checkReviewAction version
    (s.reviewEventsOf version.reportVersionId) args requestedChanges = .ok ()
  reportVersionId : event.reportVersionId = version.reportVersionId
  action : event.action = args.action
  sectionId : event.sectionId = args.sectionId
  reviewRevision : event.reviewRevision =
    latestReviewRevision (s.reviewEventsOf version.reportVersionId) + 1
  eventHash : ∃ createdAt, event.eventHash = digest P (event.payload createdAt)

theorem appendReviewEventRead_eq_ok {args : ReviewArgs} {event : ReviewEvent}
    (h : appendReviewEventRead P s args inputs = .ok (event, report)) :
    ∃ version, BuiltEvent P s args inputs version event := by
  obtain ⟨version, hversion, h⟩ := bind_ok h
  obtain ⟨texts, -, h⟩ := bind_ok h
  obtain ⟨u, hcheck, h⟩ := bind_ok h
  obtain ⟨createdAt, -, h⟩ := bind_ok h
  obtain ⟨stored, -, h⟩ := bind_ok h
  obtain ⟨rfl, rfl⟩ := ok_pair_inj h
  exact ⟨version, rfl, getVersion_eq_ok_iff.mp hversion, ⟨_, hcheck⟩, rfl,
    rfl, rfl, rfl, createdAt, rfl⟩

/-- What a review action stores. -/
theorem appendReviewEvent_spec {args : ReviewArgs} {event : ReviewEvent}
    (h : appendReviewEvent P s args inputs = .ok (event, s')) :
    ∃ report, appendReviewEventRead P s args inputs = .ok (event, report) ∧
      RewritesHeader s event.reportId report ∧
      s' = { s with reviewEvents := s.reviewEvents ++ [event] }.updateReport
        report := by
  obtain ⟨⟨e, report⟩, hread, h⟩ := bind_ok h
  obtain ⟨t, ht, h⟩ := bind_ok h
  obtain ⟨rfl, rfl⟩ := ok_pair_inj h
  obtain ⟨events, hinsert, ht⟩ := bind_ok ht
  obtain rfl := Except.ok.inj ht
  obtain ⟨rfl, -⟩ := insertRow_eq_ok_iff.mp hinsert
  refine ⟨report, hread, ?_, rfl⟩
  obtain ⟨version, -, hread⟩ := bind_ok hread
  obtain ⟨texts, -, hread⟩ := bind_ok hread
  obtain ⟨-, -, hread⟩ := bind_ok hread
  obtain ⟨createdAt, -, hread⟩ := bind_ok hread
  obtain ⟨stored, hstored, hread⟩ := bind_ok hread
  obtain ⟨rfl, rfl⟩ := ok_pair_inj hread
  exact ⟨stored, hstored, rfl, rfl⟩

theorem appendReviewEvent_eq_ok {args : ReviewArgs} {event : ReviewEvent}
    (h : appendReviewEvent P s args inputs = .ok (event, s')) :
    (∃ version, BuiltEvent P s args inputs version event) ∧
      s' = { s with
        reviewEvents := s.reviewEvents ++ [event], reports := s'.reports } := by
  obtain ⟨report, hread, -, rfl⟩ := appendReviewEvent_spec h
  exact ⟨appendReviewEventRead_eq_ok hread, rfl⟩

/-! ## Approvals -/

/-- What a decision stores. -/
theorem appendApproval_spec {decision : ApprovalDecision}
    {custodySnapshotId : Option String}
    (h : appendApproval P version decision actorId reason custodySnapshotId
      expected inputs s = .ok (approval, s')) :
    ∃ report, appendApprovalRead P s version decision actorId reason
        custodySnapshotId expected inputs = .ok (approval, report) ∧
      RewritesHeader s version.reportId report ∧
      (∀ a ∈ s.approvals, approval.approvalId ≠ a.approvalId) ∧
      s' = { s with approvals := s.approvals ++ [approval] }.updateReport
        report := by
  obtain ⟨⟨a, report⟩, hread, h⟩ := bind_ok h
  obtain ⟨t, ht, h⟩ := bind_ok h
  obtain ⟨rfl, rfl⟩ := ok_pair_inj h
  obtain ⟨approvals, hinsert, ht⟩ := bind_ok ht
  obtain rfl := Except.ok.inj ht
  obtain ⟨rfl, hkeys⟩ := insertRow_eq_ok_iff.mp hinsert
  refine ⟨report, hread, ?_, fun a ha => ?_, rfl⟩
  · obtain ⟨actor, -, hread⟩ := bind_ok hread
    obtain ⟨text, -, hread⟩ := bind_ok hread
    obtain ⟨-, hread⟩ := check_ok hread
    obtain ⟨decidedAt, -, hread⟩ := bind_ok hread
    obtain ⟨stored, hstored, hread⟩ := bind_ok hread
    obtain ⟨rfl, rfl⟩ := ok_pair_inj hread
    exact ⟨stored, hstored, rfl, rfl⟩
  · simpa using hkeys _ List.mem_cons_self a ha

theorem appendApproval_eq_ok {decision : ApprovalDecision}
    {custodySnapshotId : Option String}
    (h : appendApproval P version decision actorId reason custodySnapshotId
      expected inputs s = .ok (approval, s')) :
    approval.reportId = version.reportId ∧
      approval.reportVersionId = version.reportVersionId ∧
      approval.decision = decision ∧
      approval.contentFingerprint = version.contentFingerprint ∧
      approval.custodySnapshotId = custodySnapshotId ∧
      approval.approvalRevision =
        (s.approvalsOfReport version.reportId).getLast?.elim 0
          ApprovalRecord.approvalRevision + 1 ∧
      (∀ a ∈ s.approvals, approval.approvalId ≠ a.approvalId) ∧
      s' = { s with
        approvals := s.approvals ++ [approval], reports := s'.reports } := by
  obtain ⟨report, hread, -, hkeys, rfl⟩ := appendApproval_spec h
  obtain ⟨actor, -, hread⟩ := bind_ok hread
  obtain ⟨text, -, hread⟩ := bind_ok hread
  obtain ⟨-, hread⟩ := check_ok hread
  obtain ⟨decidedAt, -, hread⟩ := bind_ok hread
  obtain ⟨stored, -, hread⟩ := bind_ok hread
  obtain ⟨rfl, rfl⟩ := ok_pair_inj hread
  exact ⟨rfl, rfl, rfl, rfl, rfl, rfl, hkeys, rfl⟩

/-! ## Custody snapshots -/

theorem getCustodySnapshot_eq_ok {custodySnapshotId : String}
    (h : s.getCustodySnapshot custodySnapshotId = .ok snapshot) :
    snapshot ∈ s.custodySnapshots := by
  rw [Store.getCustodySnapshot] at h
  split at h
  · rename_i c hfound
    obtain rfl := Except.ok.inj h
    exact List.mem_of_find?_eq_some hfound
  · cases h

/-- The snapshot records a scan of the evidence it lists. -/
def Scanned (P : Platform) (s : Store) (c : CustodySnapshot) : Prop :=
  ∃ scan, c.evidenceIds.foldlM (scanEvidence P s.world.ledger) {} =
      .ok scan ∧
    c.verificationStatus = (custodyStatus c.evidenceIds scan.errors).1 ∧
    c.custodyEventIds = scan.eventIds

/-- The snapshot lists the evidence its caller, or else its version, names. -/
def ListsEvidence (s : Store) (reportVersionId : String)
    (evidenceIds : Option Json) (c : CustodySnapshot) : Prop :=
  ∃ version ids, s.version? reportVersionId = some version ∧
    stringList (evidenceIds.getD (jsonStrs version.evidenceIds))
      "evidence_ids" maxReferenceCount = .ok ids ∧
    validateEvidenceIds s.world version.caseId ids = .ok c.evidenceIds

theorem createCustodySnapshotRead_eq_ok {isNew : Bool}
    (h : createCustodySnapshotRead P s reportVersionId capturedBy evidenceIds
      inputs = .ok (snapshot, isNew)) :
    (isNew = false ∧ snapshot ∈ s.custodySnapshots) ∨
      (isNew = true ∧ snapshot.reportVersionId = reportVersionId ∧
        ListsEvidence s reportVersionId evidenceIds snapshot ∧
        Scanned P s snapshot) := by
  obtain ⟨by', -, h⟩ := bind_ok h
  obtain ⟨version, hversion, h⟩ := bind_ok h
  obtain ⟨listed, hlisted, h⟩ := bind_ok h
  obtain ⟨ids, hvalid, h⟩ := bind_ok h
  obtain ⟨scan, hscan, h⟩ := bind_ok h
  obtain ⟨-, h⟩ := check_ok h
  dsimp only at h
  split at h
  · rename_i existing hfound
    obtain ⟨rfl, rfl⟩ := ok_pair_inj h
    exact Or.inl ⟨rfl, List.mem_of_find?_eq_some hfound⟩
  · obtain ⟨-, -, h⟩ := bind_ok h
    obtain ⟨rfl, rfl⟩ := ok_pair_inj h
    have htarget := getVersion_eq_ok_iff.mp hversion
    exact Or.inr ⟨rfl, (mem_of_version? htarget).2,
      ⟨version, listed, htarget, hlisted, hvalid⟩, scan, hscan, rfl, rfl⟩

theorem createCustodySnapshot_eq_ok
    (h : createCustodySnapshot P reportVersionId capturedBy evidenceIds
      inputs s = .ok (snapshot, s')) :
    ∃ isNew, createCustodySnapshotRead P s reportVersionId capturedBy
        evidenceIds inputs = .ok (snapshot, isNew) ∧
      (isNew = true → ∀ d ∈ s.custodySnapshots,
        snapshot.custodySnapshotId ≠ d.custodySnapshotId) ∧
      s' = { s with
        custodySnapshots :=
          if isNew then s.custodySnapshots ++ [snapshot]
          else s.custodySnapshots } := by
  obtain ⟨⟨c, isNew⟩, hread, h⟩ := bind_ok h
  cases isNew with
  | false =>
      obtain ⟨rfl, rfl⟩ := ok_pair_inj h
      exact ⟨false, hread, nofun, rfl⟩
  | true =>
      obtain ⟨t, ht, h⟩ := bind_ok h
      obtain ⟨rfl, rfl⟩ := ok_pair_inj h
      obtain ⟨snapshots, hinsert, ht⟩ := bind_ok ht
      obtain ⟨-, ht⟩ := check_ok ht
      obtain rfl := Except.ok.inj ht
      obtain ⟨rfl, hkeys⟩ := insertRow_eq_ok_iff.mp hinsert
      refine ⟨true, hread, fun _ d hd => ?_, rfl⟩
      exact of_decide_eq_false (hkeys _ List.mem_cons_self d hd)

/-- A snapshot of the new store was there before or is a new scan under a new
identifier. -/
theorem createCustodySnapshot_cases {c : CustodySnapshot}
    (h : createCustodySnapshot P reportVersionId capturedBy evidenceIds
      inputs s = .ok (snapshot, s')) (hc : c ∈ s'.custodySnapshots) :
    c ∈ s.custodySnapshots ∨
      (Scanned P s c ∧
        (∀ d ∈ s.custodySnapshots,
          d.custodySnapshotId ≠ c.custodySnapshotId) ∧
        ∃ v ∈ s.versions, v.reportVersionId = c.reportVersionId) := by
  obtain ⟨isNew, hread, hkeys, rfl⟩ := createCustodySnapshot_eq_ok h
  rcases createCustodySnapshotRead_eq_ok hread with
    ⟨rfl, -⟩ | ⟨rfl, hid, ⟨version, _, htarget, -⟩, hscanned⟩
  · exact Or.inl hc
  · rcases List.mem_append.mp hc with hc | hc
    · exact Or.inl hc
    · obtain rfl := List.mem_singleton.mp hc
      obtain ⟨hmem, hversion⟩ := mem_of_version? htarget
      exact Or.inr ⟨hscanned, fun d hd => (hkeys rfl d hd).symm,
        version, hmem, hversion.trans hid.symm⟩

theorem createCustodySnapshot_mem
    (h : createCustodySnapshot P reportVersionId capturedBy evidenceIds
      inputs s = .ok (snapshot, s')) : snapshot ∈ s'.custodySnapshots := by
  obtain ⟨isNew, hread, -, rfl⟩ := createCustodySnapshot_eq_ok h
  rcases createCustodySnapshotRead_eq_ok hread with
    ⟨rfl, hmem⟩ | ⟨rfl, -⟩
  · exact hmem
  · exact List.mem_append_right _ List.mem_cons_self

/-! ## Approving -/

theorem approveRead_eq_ok {args : ApproveArgs} {approverId reason : String}
    (h : approveRead P s args = .ok (version, approverId, reason)) :
    s.version? args.reportVersionId = some version ∧
      reviewStatus (s.reviewEventsOf version.reportVersionId) =
        .reviewComplete := by
  obtain ⟨by', -, h⟩ := bind_ok h
  obtain ⟨text, -, h⟩ := bind_ok h
  obtain ⟨v, hversion, h⟩ := bind_ok h
  obtain ⟨-, h⟩ := check_ok h
  obtain ⟨hcomplete, h⟩ := check_ok h
  obtain ⟨rfl, -⟩ := ok_pair_inj h
  exact ⟨getVersion_eq_ok_iff.mp hversion, not_not.mp hcomplete⟩

theorem checkApprovalSnapshot_eq_ok {u : Unit}
    (h : checkApprovalSnapshot version snapshot = .ok u) :
    snapshot.reportVersionId = version.reportVersionId ∧
      snapshot.verificationStatus = .verified := by
  rw [checkApprovalSnapshot] at h
  obtain ⟨hversion, h⟩ := check_ok h
  refine ⟨not_not.mp hversion, ?_⟩
  by_contra hstatus
  rw [if_pos hstatus] at h
  cases h

/-- The snapshot an approval rests on: the one its caller names, or the one
of the evidence that the version declares. -/
def approvalSnapshot (P : Platform) (store : Store) (args : ApproveArgs)
    (version : ReportVersion) (approverId : String)
    (snapshotInputs : CallInputs) : Except PyError CustodySnapshot :=
  match args.custodySnapshotId with
  | some custodySnapshotId => store.getCustodySnapshot custodySnapshotId
  | none => Prod.fst <$> createCustodySnapshotRead P store
      version.reportVersionId (.str approverId) none snapshotInputs

/-- The end of `approve`, once it has its snapshot. -/
theorem approve_with_snapshot_cases
    (h : (do
        Service.read fun _ => checkApprovalSnapshot version snapshot
        Service.commit (appendApproval P version .approved actorId reason
          (some snapshot.custodySnapshotId) expected inputs) :
        Service Store PyError ApprovalRecord).after s = s') :
    s' = s ∨ ∃ approval, checkApprovalSnapshot version snapshot = .ok () ∧
      appendApproval P version .approved actorId reason
        (some snapshot.custodySnapshotId) expected inputs s =
          .ok (approval, s') := by
  rcases Service.after_bind_eq h with hrefused | ⟨u, hcheck, h⟩
  · exact Or.inl hrefused
  · rcases Service.after_commit_cases _ _ with hsame | ⟨approval, happend⟩
    · exact Or.inl (h.symm.trans hsame)
    · exact Or.inr ⟨approval, hcheck, h ▸ happend⟩

/-- What `approve` leaves: the store as it was, with a snapshot it took
before it was refused, or with the approval as well. -/
theorem approve_cases {args : ApproveArgs} {snapshotInputs : CallInputs}
    (h : (approve P args snapshotInputs inputs).after s = s') :
    s' = s ∨
    ∃ version approverId reason t,
      approveRead P s args = .ok (version, approverId, reason) ∧
      (t = s ∨ ∃ snapshot, createCustodySnapshot P version.reportVersionId
        (.str approverId) none snapshotInputs s = .ok (snapshot, t)) ∧
      (s' = t ∨
        ∃ snapshot approval,
          approvalSnapshot P s args version approverId snapshotInputs =
            .ok snapshot ∧
          snapshot ∈ t.custodySnapshots ∧
          checkApprovalSnapshot version snapshot = .ok () ∧
          appendApproval P version .approved (.str approverId) (.str reason)
            (some snapshot.custodySnapshotId) args.expectedApprovalRevision
            inputs t = .ok (approval, s')) := by
  rcases Service.after_bind_eq h with
    hrefused | ⟨⟨version, approverId, reason⟩, hread, h⟩
  · exact Or.inl hrefused
  refine Or.inr ⟨version, approverId, reason, ?_⟩
  simp only [Service.after_read] at h
  cases hid : args.custodySnapshotId with
  | some custodySnapshotId =>
      rw [hid] at h
      refine ⟨s, hread, Or.inl rfl, ?_⟩
      rcases Service.after_bind_eq h with hrefused | ⟨snapshot, hget, h⟩
      · exact Or.inl hrefused
      rcases approve_with_snapshot_cases h with
        hrefused | ⟨approval, hcheck, happend⟩
      · exact Or.inl hrefused
      · refine Or.inr ⟨snapshot, approval, ?_,
          getCustodySnapshot_eq_ok hget, hcheck, happend⟩
        simpa [approvalSnapshot, hid] using hget
  | none =>
      rw [hid] at h
      rcases Service.after_bind_eq h with hrefused | ⟨snapshot, htaken, h⟩
      · rcases Service.after_commit_cases _ _ with hsame | ⟨c, hcreate⟩
        · exact ⟨s, hread, Or.inl rfl, Or.inl (hrefused.trans hsame)⟩
        · exact ⟨s', hread, Or.inr ⟨c, hrefused ▸ hcreate⟩, Or.inl rfl⟩
      have hcreate := Service.commit_eq_ok htaken
      refine ⟨_, hread, Or.inr ⟨snapshot, hcreate⟩, ?_⟩
      rcases approve_with_snapshot_cases h with
        hrefused | ⟨approval, hcheck, happend⟩
      · exact Or.inl hrefused
      · refine Or.inr ⟨snapshot, approval, ?_,
          createCustodySnapshot_mem hcreate, hcheck, happend⟩
        obtain ⟨isNew, hnew, -, -⟩ := createCustodySnapshot_eq_ok hcreate
        rw [approvalSnapshot, hid]
        dsimp only
        rw [hnew]
        rfl

/-! ## Every operation -/

/-- No version, review event, approval or snapshot is added. -/
structure SameRows (s s' : Store) : Prop where
  versions : s'.versions = s.versions
  reviewEvents : s'.reviewEvents = s.reviewEvents
  approvals : s'.approvals = s.approvals
  custodySnapshots : s'.custodySnapshots = s.custodySnapshots

theorem SameContent.sameRows (h : SameContent s s') : SameRows s s' :=
  ⟨h.versions, h.reviewEvents, h.approvals, h.custodySnapshots⟩

/-- What an operation adds to the versions, review events, approvals and
snapshots. -/
inductive Written (P : Platform) (s : Store) : Op → Store → Prop where
  | same {op : Op} {s' : Store} (h : SameRows s s') : Written P s op s'
  | version {args : CreateVersionArgs} {inputs : CallInputs}
      {version : ReportVersion} {s' : Store}
      (h : createVersion P s args inputs = .ok (version, s')) :
      Written P s (.createVersion args inputs) s'
  | event {args : ReviewArgs} {inputs : CallInputs} {event : ReviewEvent}
      {s' : Store} (h : appendReviewEvent P s args inputs = .ok (event, s')) :
      Written P s (.review args inputs) s'
  | snapshot {op : Op} {reportVersionId : String} {capturedBy : Json}
      {evidenceIds : Option Json} {inputs : CallInputs}
      {snapshot : CustodySnapshot} {s' : Store}
      (h : createCustodySnapshot P reportVersionId capturedBy evidenceIds
        inputs s = .ok (snapshot, s')) : Written P s op s'
  | decision {op : Op} {version : ReportVersion}
      {decision : ApprovalDecision} {actorId reason : Json}
      {custodySnapshotId : Option String} {expected : Option ℤ}
      {inputs : CallInputs} {approval : ApprovalRecord} {s' : Store}
      (hversion : version ∈ s.versions) (hdecision : decision ≠ .approved)
      (h : appendApproval P version decision actorId reason custodySnapshotId
        expected inputs s = .ok (approval, s')) : Written P s op s'
  | approval {args : ApproveArgs} {snapshotInputs inputs : CallInputs}
      {version : ReportVersion} {approverId reason : String} {t s' : Store}
      {snapshot : CustodySnapshot} {approval : ApprovalRecord}
      (hread : approveRead P s args = .ok (version, approverId, reason))
      (ht : t = s ∨ ∃ c, createCustodySnapshot P version.reportVersionId
        (.str approverId) none snapshotInputs s = .ok (c, t))
      (hsnapshot : approvalSnapshot P s args version approverId
        snapshotInputs = .ok snapshot)
      (hmem : snapshot ∈ t.custodySnapshots)
      (hcheck : checkApprovalSnapshot version snapshot = .ok ())
      (h : appendApproval P version .approved (.str approverId) (.str reason)
        (some snapshot.custodySnapshotId) args.expectedApprovalRevision
        inputs t = .ok (approval, s')) :
      Written P s (.approve args snapshotInputs inputs) s'

theorem sameRows_of_headers (h : s' = { s with reports := s'.reports }) :
    SameRows s s' := by
  rw [h]
  exact ⟨rfl, rfl, rfl, rfl⟩

theorem reject_eq_ok {approverId : Json}
    (h : reject P reportVersionId approverId reason expected inputs s =
      .ok (approval, s')) :
    ∃ version text, s.version? reportVersionId = some version ∧
      appendApproval P version .rejected approverId (.str text) none expected
        inputs s = .ok (approval, s') := by
  obtain ⟨version, hversion, h⟩ := bind_ok h
  obtain ⟨text, -, h⟩ := bind_ok h
  exact ⟨version, text, getVersion_eq_ok_iff.mp hversion, h⟩

theorem revokeApproval_eq_ok
    (h : revokeApproval P reportVersionId actorId reason expected inputs s =
      .ok (approval, s')) :
    ∃ version latest text, s.version? reportVersionId = some version ∧
      s.latestApproval version.reportVersionId = some latest ∧
      latest.decision = .approved ∧
      appendApproval P version .revoked actorId (.str text)
        latest.custodySnapshotId expected inputs s = .ok (approval, s') := by
  obtain ⟨version, hversion, h⟩ := bind_ok h
  dsimp only at h
  split at h
  · cases h
  · rename_i latest hlatest
    split at h
    · cases h
    · rename_i hdecision
      obtain ⟨text, -, h⟩ := bind_ok h
      exact ⟨version, latest, text, getVersion_eq_ok_iff.mp hversion, hlatest,
        not_not.mp hdecision, h⟩

theorem reject_written {approverId : Json}
    (h : reject P reportVersionId approverId reason expected inputs s =
      .ok (approval, s')) : Written P s op s' := by
  obtain ⟨version, text, hversion, h⟩ := reject_eq_ok h
  exact .decision (mem_of_version? hversion).1 (by simp) h

theorem revokeApproval_written
    (h : revokeApproval P reportVersionId actorId reason expected inputs s =
      .ok (approval, s')) : Written P s op s' := by
  obtain ⟨version, latest, text, hversion, -, -, h⟩ := revokeApproval_eq_ok h
  exact .decision (mem_of_version? hversion).1 (by simp) h

theorem approve_written (args : ApproveArgs)
    (snapshotInputs inputs : CallInputs) :
    Written P s (.approve args snapshotInputs inputs)
      ((approve P args snapshotInputs inputs).after s) := by
  rcases approve_cases rfl with
    hsame | ⟨version, approverId, reason, t, hread, ht, hrest⟩
  · rw [hsame]
    exact .same ⟨rfl, rfl, rfl, rfl⟩
  rcases hrest with hrefused | ⟨snapshot, approval, hsnapshot, hmem, hcheck, h⟩
  · rw [hrefused]
    rcases ht with rfl | ⟨c, hcreate⟩
    · exact .same ⟨rfl, rfl, rfl, rfl⟩
    · exact .snapshot hcreate
  · exact .approval hread ht hsnapshot hmem hcheck h

/-- Every operation adds at most one of these rows, an approval perhaps after
its snapshot. -/
theorem step_written (op : Op) : Written P s op (step P s op) := by
  have hsame : ∀ {op : Op}, Written P s op s := .same ⟨rfl, rfl, rfl, rfl⟩
  cases op with
  | createReport args inputs =>
      exact holds_call hsame fun _ _ h =>
        .same (sameRows_of_headers (createReport_eq_ok h))
  | createVersion args inputs => exact holds_call hsame fun _ _ h => .version h
  | setActiveVersion reportId reportVersionId actorId reason inputs =>
      exact holds_call hsame fun _ _ h =>
        .same (sameRows_of_headers (setActiveVersion_eq_ok h))
  | archiveReport reportId actorId reason inputs =>
      exact holds_call hsame fun _ _ h =>
        .same (sameRows_of_headers (archiveReport_eq_ok h))
  | review args inputs => exact holds_call hsame fun _ _ h => .event h
  | createCustodySnapshot reportVersionId capturedBy evidenceIds inputs =>
      exact holds_call hsame fun _ _ h => .snapshot h
  | approve args snapshotInputs inputs =>
      exact approve_written args snapshotInputs inputs
  | reject reportVersionId approverId reason expected inputs =>
      exact holds_call hsame fun _ _ h => reject_written h
  | revokeApproval reportVersionId actorId reason expected inputs =>
      exact holds_call hsame fun _ _ h => revokeApproval_written h
  | createRenderPackage args inputs =>
      exact holds_call hsame fun _ _ h =>
        .same (sameContent_createRenderPackage h).sameRows
  | prepareExport args renderer inputs =>
      have h := (sameContentLaw P).respects_prepareExport args renderer inputs s
      exact .same h.sameRows
  | renderExport exportManifestId renderer inputs =>
      have h := (sameContentLaw P).respects_renderExport exportManifestId
        renderer inputs s
      exact .same h.sameRows
  | recordExportResult exportManifestId payload inputs =>
      have h := (sameContentLaw P).respects_recordExportResult exportManifestId
        payload inputs s
      exact .same h.sameRows
  | world w => exact .same ⟨rfl, rfl, rfl, rfl⟩

theorem Written.reviews_cases (h : Written P s op s') :
    (s'.versions = s.versions ∧ s'.reviewEvents = s.reviewEvents) ∨
    (∃ args inputs version, op = .createVersion args inputs ∧
      createVersion P s args inputs = .ok (version, s')) ∨
    ∃ args inputs event, op = .review args inputs ∧
      appendReviewEvent P s args inputs = .ok (event, s') := by
  cases h with
  | same h => exact Or.inl ⟨h.versions, h.reviewEvents⟩
  | version h => exact Or.inr (Or.inl ⟨_, _, _, rfl, h⟩)
  | event h => exact Or.inr (Or.inr ⟨_, _, _, rfl, h⟩)
  | snapshot h =>
      obtain ⟨isNew, -, -, heq⟩ := createCustodySnapshot_eq_ok h
      rw [heq]
      exact Or.inl ⟨rfl, rfl⟩
  | decision hversion hdecision h =>
      obtain ⟨-, -, -, -, -, -, -, heq⟩ := appendApproval_eq_ok h
      rw [heq]
      exact Or.inl ⟨rfl, rfl⟩
  | approval hread ht hsnapshot hmem hcheck h =>
      obtain ⟨-, -, -, -, -, -, -, heq⟩ := appendApproval_eq_ok h
      rw [heq]
      rcases ht with rfl | ⟨c, hcreate⟩
      · exact Or.inl ⟨rfl, rfl⟩
      · obtain ⟨isNew, -, -, rfl⟩ := createCustodySnapshot_eq_ok hcreate
        exact Or.inl ⟨rfl, rfl⟩

theorem Written.snapshot_cases (h : Written P s op s') {c : CustodySnapshot}
    (hc : c ∈ s'.custodySnapshots) :
    c ∈ s.custodySnapshots ∨
      (Scanned P s c ∧
        (∀ d ∈ s.custodySnapshots,
          d.custodySnapshotId ≠ c.custodySnapshotId) ∧
        ∃ v ∈ s.versions, v.reportVersionId = c.reportVersionId) := by
  cases h with
  | same h =>
      rw [h.custodySnapshots] at hc
      exact Or.inl hc
  | version h =>
      rcases createVersion_eq_ok h with ⟨heq, -⟩ | ⟨heq, -, -⟩
      · rw [heq] at hc
        exact Or.inl hc
      · rw [heq] at hc
        exact Or.inl hc
  | event h =>
      rw [(appendReviewEvent_eq_ok h).2] at hc
      exact Or.inl hc
  | snapshot h => exact createCustodySnapshot_cases h hc
  | decision hversion hdecision h =>
      obtain ⟨-, -, -, -, -, -, -, heq⟩ := appendApproval_eq_ok h
      rw [heq] at hc
      exact Or.inl hc
  | approval hread ht hsnapshot hmem hcheck h =>
      obtain ⟨-, -, -, -, -, -, -, heq⟩ := appendApproval_eq_ok h
      rw [heq] at hc
      rcases ht with rfl | ⟨c', hcreate⟩
      · exact Or.inl hc
      · exact createCustodySnapshot_cases hcreate hc

/-! ## Laws of operations -/

/-- An operation on the header of a report, on reviews or on decisions. -/
def Op.reviews : Op → Bool
  | .setActiveVersion _ _ _ _ _ => true
  | .archiveReport _ _ _ _ => true
  | .review _ _ => true
  | .createCustodySnapshot _ _ _ _ => true
  | .approve _ _ _ => true
  | .reject _ _ _ _ _ => true
  | .revokeApproval _ _ _ _ _ => true
  | _ => false

/-- The relation holds across the transactions of these operations. -/
structure ReviewLaw (R : Store → Store → Prop) : Prop where
  header : ∀ {s : Store} {reportId : String} {report : ReportRecord},
    RewritesHeader s reportId report → R s (s.updateReport report)
  review : ∀ {s : Store} {event : ReviewEvent} {report : ReportRecord},
    RewritesHeader s event.reportId report →
    R s ({ s with reviewEvents := s.reviewEvents ++ [event] }.updateReport
      report)
  snapshot : ∀ {s : Store} {snapshot : CustodySnapshot},
    R s { s with custodySnapshots := s.custodySnapshots ++ [snapshot] }
  decision : ∀ {s : Store} {reportId : String} {approval : ApprovalRecord}
    {report : ReportRecord}, RewritesHeader s reportId report →
    R s ({ s with approvals := s.approvals ++ [approval] }.updateReport report)

/-- The relation holds across every transaction of the service. -/
structure ServiceLaw (P : Platform) (R : Store → Store → Prop) : Prop
    extends ExportLaw P R, ReviewLaw R where
  report : ∀ {s : Store} {report : ReportRecord},
    s.report? report.reportId = none →
    R s { s with reports := s.reports ++ [report] }
  version : ∀ {args : CreateVersionArgs} {inputs : CallInputs} {s s' : Store}
    {version : ReportVersion},
    createVersion P s args inputs = .ok (version, s') → R s s'

namespace ReviewLaw

variable {R : Store → Store → Prop} [Std.Refl R]

theorem respects_snapshot (law : ReviewLaw R)
    (h : createCustodySnapshot P reportVersionId capturedBy evidenceIds
      inputs s = .ok (snapshot, s')) : R s s' := by
  obtain ⟨isNew, -, -, rfl⟩ := createCustodySnapshot_eq_ok h
  cases isNew with
  | false => exact refl_of R s
  | true => exact law.snapshot

omit [Std.Refl R] in
theorem respects_decision (law : ReviewLaw R) {decision : ApprovalDecision}
    {custodySnapshotId : Option String}
    (h : appendApproval P version decision actorId reason custodySnapshotId
      expected inputs s = .ok (approval, s')) : R s s' := by
  obtain ⟨report, -, hheader, -, rfl⟩ := appendApproval_spec h
  exact law.decision hheader

theorem respects_approve (law : ReviewLaw R) [IsTrans Store R]
    (args : ApproveArgs) (snapshotInputs inputs : CallInputs) :
    R s ((approve P args snapshotInputs inputs).after s) := by
  rcases approve_cases (P := P) (s := s) rfl with
    hsame | ⟨version, approverId, reason, t, -, ht, hrest⟩
  · rw [hsame]
    exact refl_of R s
  have hfirst : R s t := by
    rcases ht with rfl | ⟨c, hcreate⟩
    · exact refl_of R t
    · exact law.respects_snapshot hcreate
  rcases hrest with hsame | ⟨snapshot, approval, -, -, -, h⟩
  · rw [hsame]
    exact hfirst
  · exact trans_of R hfirst (law.respects_decision h)

/-- One case for each operation: the relation holds across the transactions
that the operation goes through. -/
theorem respects_step (law : ReviewLaw R) [IsTrans Store R]
    (hop : op.reviews = true) : R s (step P s op) := by
  cases op with
  | setActiveVersion reportId reportVersionId actorId reason inputs =>
      refine holds_call (refl_of R s) fun _ _ h => ?_
      obtain ⟨hheader, rfl, -⟩ := setActiveVersion_spec h
      exact law.header hheader
  | archiveReport reportId actorId reason inputs =>
      refine holds_call (refl_of R s) fun _ _ h => ?_
      obtain ⟨hheader, -, -, rfl⟩ := archiveReport_spec h
      exact law.header hheader
  | review args inputs =>
      refine holds_call (refl_of R s) fun _ _ h => ?_
      obtain ⟨report, -, hheader, rfl⟩ := appendReviewEvent_spec h
      exact law.review hheader
  | createCustodySnapshot reportVersionId capturedBy evidenceIds inputs =>
      exact holds_call (refl_of R s) fun _ _ => law.respects_snapshot
  | approve args snapshotInputs inputs => exact law.respects_approve _ _ _
  | reject reportVersionId approverId reason expected inputs =>
      refine holds_call (refl_of R s) fun _ _ h => ?_
      obtain ⟨version, text, -, h⟩ := reject_eq_ok h
      exact law.respects_decision h
  | revokeApproval reportVersionId actorId reason expected inputs =>
      refine holds_call (refl_of R s) fun _ _ h => ?_
      obtain ⟨version, latest, text, -, -, -, h⟩ := revokeApproval_eq_ok h
      exact law.respects_decision h
  | _ => cases hop

end ReviewLaw

theorem ServiceLaw.respects_step {R : Store → Store → Prop} [Std.Refl R]
    [IsTrans Store R] (law : ServiceLaw P R) (op : Op)
    (hop : ∀ w, op ≠ .world w) : R s (step P s op) := by
  cases op with
  | createReport args inputs =>
      refine holds_call (refl_of R s) fun _ _ h => ?_
      obtain ⟨-, hnew, rfl⟩ := createReport_spec h
      exact law.report hnew
  | createVersion args inputs =>
      exact holds_call (refl_of R s) fun _ _ => law.version
  | createRenderPackage args inputs =>
      exact holds_call (refl_of R s) fun _ _ => law.package
  | prepareExport args renderer inputs =>
      exact law.respects_prepareExport args renderer inputs s
  | renderExport exportManifestId renderer inputs =>
      exact law.respects_renderExport exportManifestId renderer inputs s
  | recordExportResult exportManifestId payload inputs =>
      exact law.respects_recordExportResult exportManifestId payload inputs s
  | world w => exact absurd rfl (hop w)
  | _ => exact law.toReviewLaw.respects_step rfl

def SameWorld (s s' : Store) : Prop :=
  s'.world = s.world

instance : Std.Refl SameWorld where
  refl _ := rfl

instance : IsTrans Store SameWorld where
  trans _ _ _ h h' := h'.trans h

variable (P) in
theorem sameWorldLaw : ServiceLaw P SameWorld where
  package h := (sameContentLaw P).package h |>.world
  audit h := (sameContentLaw P).audit h |>.world
  manifest h := (sameContentLaw P).manifest h |>.world
  update h := (sameContentLaw P).update h |>.world
  completion h := (sameContentLaw P).completion h |>.world
  header _ := rfl
  review _ := rfl
  snapshot := rfl
  decision _ := rfl
  report _ := rfl
  version h := by
    rcases createVersion_eq_ok h with ⟨rfl, -⟩ | ⟨heq, -, -⟩
    · rfl
    · rw [SameWorld, heq]

theorem step_world (op : Op) (hop : ∀ w, op ≠ .world w) :
    (step P s op).world = s.world :=
  (sameWorldLaw P).respects_step op hop

theorem reached_world {world : World} {ops : List Op}
    (hops : ∀ op ∈ ops, ∀ w, op ≠ .world w) :
    (reached P world ops).world = world := by
  induction ops using List.reverseRecOn with
  | nil => rfl
  | append_singleton ops op ih =>
      rw [reached, run_concat, step_world op (hops op (by simp))]
      exact ih fun x hx => hops x (List.mem_append_left _ hx)

/-! ## Nothing is deleted -/

/-- Rows are only added, at the end of their tables; the rows of reports and
exports may be rewritten under their identifiers. -/
structure AppendOnly (s s' : Store) : Prop where
  reports : s.reports.map ReportRecord.reportId <+:
    s'.reports.map ReportRecord.reportId
  versions : s.versions <+: s'.versions
  reviewEvents : s.reviewEvents <+: s'.reviewEvents
  approvals : s.approvals <+: s'.approvals
  custodySnapshots : s.custodySnapshots <+: s'.custodySnapshots
  packages : s.packages <+: s'.packages
  manifests : s.manifests.map ExportManifest.exportManifestId <+:
    s'.manifests.map ExportManifest.exportManifestId
  artifacts : s.artifacts <+: s'.artifacts
  auditEvents : s.auditEvents <+: s'.auditEvents

instance : Std.Refl AppendOnly where
  refl _ := ⟨List.prefix_rfl, List.prefix_rfl, List.prefix_rfl,
    List.prefix_rfl, List.prefix_rfl, List.prefix_rfl, List.prefix_rfl,
    List.prefix_rfl, List.prefix_rfl⟩

instance : IsTrans Store AppendOnly where
  trans _ _ _ h h' := ⟨h.reports.trans h'.reports,
    h.versions.trans h'.versions, h.reviewEvents.trans h'.reviewEvents,
    h.approvals.trans h'.approvals,
    h.custodySnapshots.trans h'.custodySnapshots,
    h.packages.trans h'.packages, h.manifests.trans h'.manifests,
    h.artifacts.trans h'.artifacts, h.auditEvents.trans h'.auditEvents⟩

theorem appendOnly_updateReport (h : AppendOnly s s') (report : ReportRecord) :
    AppendOnly s (s'.updateReport report) where
  __ := h
  reports := by
    rw [Store.updateReport, map_key_updateRow]
    exact h.reports

variable (P) in
theorem appendOnlyLaw : ServiceLaw P AppendOnly where
  package h := by
    rcases createRenderPackage_spec h with ⟨-, rfl⟩ | ⟨-, rfl, -⟩
    · exact refl_of AppendOnly _
    · exact { refl_of AppendOnly _ with packages := List.prefix_append _ _ }
  audit h := by
    obtain ⟨event, rfl⟩ := appendExportAudit_spec h
    exact { refl_of AppendOnly _ with auditEvents := List.prefix_append _ _ }
  manifest h := by
    obtain ⟨report, -, -, rfl⟩ := saveManifest_spec h
    refine appendOnly_updateReport ?_ report
    refine { refl_of AppendOnly _ with manifests := ?_ }
    rw [List.map_append]
    exact List.prefix_append _ _
  update h := by
    obtain ⟨-, rfl⟩ := ok_pair_inj h
    refine { refl_of AppendOnly _ with manifests := ?_ }
    rw [Store.updateReportExportManifest, map_key_updateRow]
  completion h := by
    obtain ⟨report, -, rfl⟩ := saveCompletion_spec h
    refine appendOnly_updateReport ?_ report
    refine { refl_of AppendOnly _ with
      artifacts := List.prefix_append _ _, manifests := ?_ }
    rw [Store.updateReportExportManifest, map_key_updateRow]
  header _ := appendOnly_updateReport (refl_of AppendOnly _) _
  review _ := by
    refine appendOnly_updateReport ?_ _
    exact { refl_of AppendOnly _ with reviewEvents := List.prefix_append _ _ }
  snapshot := { refl_of AppendOnly _ with
    custodySnapshots := List.prefix_append _ _ }
  decision _ := by
    refine appendOnly_updateReport ?_ _
    exact { refl_of AppendOnly _ with approvals := List.prefix_append _ _ }
  report _ := { refl_of AppendOnly _ with
    reports := by
      rw [List.map_append]
      exact List.prefix_append _ _ }
  version h := by
    obtain ⟨_, _, _, _, -, hcases⟩ := createVersion_cases h
    rcases hcases with ⟨-, rfl⟩ | ⟨-, -, rfl, -⟩
    · exact refl_of AppendOnly _
    · refine appendOnly_updateReport ?_ _
      exact { refl_of AppendOnly _ with versions := List.prefix_append _ _ }

theorem appendOnly_step (P : Platform) (s : Store) (op : Op) :
    AppendOnly s (step P s op) := by
  by_cases hop : ∀ w, op ≠ .world w
  · exact (appendOnlyLaw P).respects_step op hop
  · obtain ⟨w, hw⟩ := not_forall.mp hop
    rw [not_not.mp hw]
    exact { refl_of AppendOnly s with }

theorem appendOnly_run (P : Platform) (s : Store) (ops : List Op) :
    AppendOnly s (run (step P) s ops) := by
  induction ops generalizing s with
  | nil => exact refl_of AppendOnly s
  | cons op ops ih =>
      exact trans_of AppendOnly (appendOnly_step P s op) (ih _)

end

end ApexForensic.Reports
