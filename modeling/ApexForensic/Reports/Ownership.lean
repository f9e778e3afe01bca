import ApexForensic.Reports.Effects

/-!
# What the rows of the store belong to

Versions have distinct identifiers and distinctly named sections; every review
event and every approval belongs to a stored version.  Each is appended to the
history of its version and leaves the other histories alone.
-/

namespace ApexForensic.Reports

open ApexForensic.Support ApexForensic.Domain

variable {event : ReviewEvent} {version : ReportVersion} {inputs : CallInputs}

/-! ## The invariant -/

structure WellOwned (store : Store) : Prop where
  versionIds : (store.versions.map ReportVersion.reportVersionId).Nodup
  sectionIds : ∀ v ∈ store.versions,
    (v.sections.map ReportSection.sectionId).Nodup
  reviewed : ∀ e ∈ store.reviewEvents, ∃ v ∈ store.versions,
    v.reportVersionId = e.reportVersionId
  approved : ∀ a ∈ store.approvals, ∃ v ∈ store.versions,
    v.reportVersionId = a.reportVersionId ∧ v.reportId = a.reportId ∧
      v.contentFingerprint = a.contentFingerprint

section

variable {P : Platform} {s s' : Store}

theorem wellOwned_empty (world : World) : WellOwned (Store.empty world) where
  versionIds := List.nodup_nil
  sectionIds := by simp [Store.empty]
  reviewed := by simp [Store.empty]
  approved := by simp [Store.empty]

theorem WellOwned.of_sameRows (hs : WellOwned s) (h : SameRows s s') :
    WellOwned s' where
  versionIds := by rw [h.versions]; exact hs.versionIds
  sectionIds := by rw [h.versions]; exact hs.sectionIds
  reviewed := by rw [h.reviewEvents, h.versions]; exact hs.reviewed
  approved := by rw [h.approvals, h.versions]; exact hs.approved

theorem WellOwned.version_unique (hs : WellOwned s) {v w : ReportVersion}
    (hv : v ∈ s.versions) (hw : w ∈ s.versions)
    (h : v.reportVersionId = w.reportVersionId) : v = w :=
  List.inj_on_of_nodup_map hs.versionIds hv hw h

theorem WellOwned.of_createVersion (hs : WellOwned s) {args : CreateVersionArgs}
    (h : createVersion P s args inputs = .ok (version, s')) : WellOwned s' := by
  rcases createVersion_eq_ok h with ⟨rfl, -⟩ | ⟨heq, hnew, hsections⟩
  · exact hs
  rw [heq]
  refine ⟨?_, ?_, ?_, ?_⟩
  · rw [List.map_append, List.map_singleton]
    refine List.nodup_append.mpr
      ⟨hs.versionIds, List.nodup_singleton _, fun id hid id' hid' => ?_⟩
    obtain ⟨v, hv, rfl⟩ := List.mem_map.mp hid
    rw [List.mem_singleton.mp hid']
    exact (hnew v hv).symm
  · intro v hv
    rcases List.mem_append.mp hv with hv | hv
    · exact hs.sectionIds v hv
    · rw [List.mem_singleton.mp hv]
      exact hsections
  · intro e he
    obtain ⟨v, hv, hid⟩ := hs.reviewed e he
    exact ⟨v, List.mem_append_left _ hv, hid⟩
  · intro a ha
    obtain ⟨v, hv, howner⟩ := hs.approved a ha
    exact ⟨v, List.mem_append_left _ hv, howner⟩

theorem WellOwned.of_appendReviewEvent (hs : WellOwned s) {args : ReviewArgs}
    (h : appendReviewEvent P s args inputs = .ok (event, s')) :
    WellOwned s' := by
  obtain ⟨⟨version, hbuilt⟩, heq⟩ := appendReviewEvent_eq_ok h
  rw [heq]
  refine ⟨hs.versionIds, hs.sectionIds, fun e he => ?_, hs.approved⟩
  rcases List.mem_append.mp he with he | he
  · exact hs.reviewed e he
  · rw [List.mem_singleton.mp he]
    exact ⟨version, (mem_of_version? hbuilt.target).1,
      hbuilt.reportVersionId.symm⟩

theorem WellOwned.of_appendApproval (hs : WellOwned s)
    (hversion : version ∈ s.versions) {decision : ApprovalDecision}
    {actorId reason : Json} {custodySnapshotId : Option String}
    {expected : Option ℤ} {approval : ApprovalRecord}
    (h : appendApproval P version decision actorId reason custodySnapshotId
      expected inputs s = .ok (approval, s')) : WellOwned s' := by
  obtain ⟨hreport, hid, -, hfingerprint, -, -, -, heq⟩ := appendApproval_eq_ok h
  rw [heq]
  refine ⟨hs.versionIds, hs.sectionIds, hs.reviewed, fun a ha => ?_⟩
  rcases List.mem_append.mp ha with ha | ha
  · exact hs.approved a ha
  · rw [List.mem_singleton.mp ha]
    exact ⟨version, hversion, hid.symm, hreport.symm, hfingerprint.symm⟩

theorem WellOwned.of_createCustodySnapshot (hs : WellOwned s)
    {reportVersionId : String} {capturedBy : Json} {evidenceIds : Option Json}
    {snapshot : CustodySnapshot}
    (h : createCustodySnapshot P reportVersionId capturedBy evidenceIds
      inputs s = .ok (snapshot, s')) : WellOwned s' := by
  obtain ⟨isNew, -, -, rfl⟩ := createCustodySnapshot_eq_ok h
  exact ⟨hs.versionIds, hs.sectionIds, hs.reviewed, hs.approved⟩

theorem WellOwned.of_written (hs : WellOwned s) {op : Op}
    (h : Written P s op s') : WellOwned s' := by
  cases h with
  | same h => exact hs.of_sameRows h
  | version h => exact hs.of_createVersion h
  | event h => exact hs.of_appendReviewEvent h
  | snapshot h => exact hs.of_createCustodySnapshot h
  | decision hversion hdecision h => exact hs.of_appendApproval hversion h
  | approval hread ht hsnapshot hmem hcheck h =>
      have hversion := (mem_of_version? (approveRead_eq_ok hread).1).1
      rcases ht with rfl | ⟨c, hcreate⟩
      · exact hs.of_appendApproval hversion h
      · obtain ⟨isNew, -, -, rfl⟩ := createCustodySnapshot_eq_ok hcreate
        exact (hs.of_createCustodySnapshot hcreate).of_appendApproval hversion h

theorem wellOwned_reached (world : World) (ops : List Op) :
    WellOwned (reached P world ops) :=
  run_invariant (fun _ op hs => hs.of_written (step_written op))
    (wellOwned_empty world) ops

/-! ## Histories -/

theorem reviewRevision_le_latest {reportVersionId : String} {e : ReviewEvent}
    (he : e ∈ s.reviewEvents) (hid : e.reportVersionId = reportVersionId) :
    e.reviewRevision ≤
      latestReviewRevision (s.reviewEventsOf reportVersionId) :=
  revision_le_last (List.mem_filter.mpr ⟨he, by simpa using hid⟩)

theorem reviewEventsOf_append
    (hrevision : event.reviewRevision = latestReviewRevision
      (s.reviewEventsOf event.reportVersionId) + 1)
    (h : s'.reviewEvents = s.reviewEvents ++ [event]) (reportVersionId : String)
    :
    s'.reviewEventsOf reportVersionId =
      if event.reportVersionId = reportVersionId then
        s.reviewEventsOf reportVersionId ++ [event]
      else s.reviewEventsOf reportVersionId := by
  rw [Store.reviewEventsOf, h, List.filter_append, List.filter_singleton]
  by_cases hid : event.reportVersionId = reportVersionId
  · simp only [hid, decide_true, if_true]
    apply insertionSort_revision_concat
    intro e he
    obtain ⟨he, howner⟩ := List.mem_filter.mp he
    have hle := reviewRevision_le_latest he (of_decide_eq_true howner)
    rw [hid] at hrevision
    omega
  · simp [hid, Store.reviewEventsOf]

theorem latestApproval_append (hs : WellOwned s)
    (hversion : version ∈ s.versions) {approval : ApprovalRecord}
    (hid : approval.reportVersionId = version.reportVersionId)
    (hrevision : approval.approvalRevision =
      (s.approvalsOfReport version.reportId).getLast?.elim 0
        ApprovalRecord.approvalRevision + 1)
    (h : s'.approvals = s.approvals ++ [approval]) (reportVersionId : String) :
    s'.latestApproval reportVersionId =
      if version.reportVersionId = reportVersionId then some approval
      else s.latestApproval reportVersionId := by
  rw [Store.latestApproval, Store.approvalsOf, h, List.filter_append,
    List.filter_singleton]
  by_cases htarget : version.reportVersionId = reportVersionId
  · simp only [hid, htarget, decide_true, cond_true, if_true]
    rw [insertionSort_revision_concat, List.getLast?_concat]
    intro a ha
    obtain ⟨ha, howner⟩ := List.mem_filter.mp ha
    obtain ⟨v, hv, hvid, hreport, -⟩ := hs.approved a ha
    obtain rfl := hs.version_unique hversion hv
      (htarget.trans ((of_decide_eq_true howner).symm.trans hvid.symm))
    have hle : a.approvalRevision ≤
        (s.approvalsOfReport version.reportId).getLast?.elim 0
          ApprovalRecord.approvalRevision :=
      revision_le_last (List.mem_filter.mpr ⟨ha, by simpa using hreport.symm⟩)
    omega
  · simp [hid, htarget, Store.latestApproval, Store.approvalsOf]

/-- A version approved after an operation was approved before it, by the same
record, or is approved by it. -/
theorem Written.approved_cases (hs : WellOwned s) {op : Op}
    (h : Written P s op s') {v : ReportVersion} (hv : v ∈ s'.versions)
    {a : ApprovalRecord} (ha : s'.latestApproval v.reportVersionId = some a)
    (happroved : a.decision = .approved) :
    (v ∈ s.versions ∧ s.latestApproval v.reportVersionId = some a) ∨
    ∃ args snapshotInputs inputs approverId reason snapshot,
      op = .approve args snapshotInputs inputs ∧
      approveRead P s args = .ok (v, approverId, reason) ∧
      approvalSnapshot P s args v approverId snapshotInputs = .ok snapshot ∧
      snapshot ∈ s'.custodySnapshots ∧
      checkApprovalSnapshot v snapshot = .ok () := by
  cases h with
  | same h =>
      rw [h.versions] at hv
      rw [Store.latestApproval, Store.approvalsOf, h.approvals] at ha
      exact Or.inl ⟨hv, ha⟩
  | version h =>
      rcases createVersion_eq_ok h with ⟨rfl, -⟩ | ⟨heq, hnew, -⟩
      · exact Or.inl ⟨hv, ha⟩
      rw [heq] at hv ha
      rcases List.mem_append.mp hv with hv | hv
      · exact Or.inl ⟨hv, ha⟩
      · have hmem := List.mem_of_getLast? ha
        rw [Store.approvalsOf, List.mem_insertionSort, List.mem_filter] at hmem
        obtain ⟨w, hw, hid, -⟩ := hs.approved a hmem.1
        rw [List.mem_singleton.mp hv] at hmem
        exact absurd ((of_decide_eq_true hmem.2).symm.trans hid.symm)
          (hnew w hw)
  | event h =>
      have heq := (appendReviewEvent_eq_ok h).2
      rw [heq] at hv ha
      exact Or.inl ⟨hv, ha⟩
  | snapshot h =>
      obtain ⟨isNew, -, -, heq⟩ := createCustodySnapshot_eq_ok h
      rw [heq] at hv ha
      exact Or.inl ⟨hv, ha⟩
  | decision hversion hdecision h =>
      obtain ⟨-, hid, hkind, -, -, hrevision, -, heq⟩ := appendApproval_eq_ok h
      rw [latestApproval_append hs hversion hid hrevision (by rw [heq])] at ha
      rw [heq] at hv
      split at ha
      · obtain rfl := Option.some.inj ha
        exact absurd (hkind.symm.trans happroved) hdecision
      · exact Or.inl ⟨hv, ha⟩
  | @approval args snapshotInputs inputs version approverId reason t _
      snapshot approval hread ht hsnapshot hmem hcheck h =>
      have htarget := (mem_of_version? (approveRead_eq_ok hread).1).1
      have hsame : t.versions = s.versions ∧ t.approvals = s.approvals := by
        rcases ht with rfl | ⟨c, hcreate⟩
        · exact ⟨rfl, rfl⟩
        · obtain ⟨isNew, -, -, rfl⟩ := createCustodySnapshot_eq_ok hcreate
          exact ⟨rfl, rfl⟩
      obtain ⟨-, hid, -, -, -, hrevision, -, heq⟩ := appendApproval_eq_ok h
      rw [Store.approvalsOfReport, hsame.2] at hrevision
      rw [latestApproval_append hs htarget hid hrevision
        (by rw [heq, ← hsame.2])] at ha
      rw [heq] at hv
      change v ∈ t.versions at hv
      rw [hsame.1] at hv
      split at ha
      · rename_i hversion
        obtain rfl := hs.version_unique htarget hv hversion
        refine Or.inr ⟨args, snapshotInputs, inputs, approverId, reason,
          snapshot, rfl, hread, hsnapshot, ?_, hcheck⟩
        rw [heq]
        exact hmem
      · exact Or.inl ⟨hv, ha⟩

/-! ## Hashes of review events -/

/-- Every stored review event carries the digest of its payload. -/
def EventsHashed (P : Platform) (store : Store) : Prop :=
  ∀ e ∈ store.reviewEvents, ∃ createdAt,
    e.eventHash = digest P (e.payload createdAt)

theorem eventsHashed_reached (world : World) (ops : List Op) :
    EventsHashed P (reached P world ops) := by
  refine run_invariant (fun s op hs => ?_)
    (fun e he => absurd he List.not_mem_nil) ops
  rcases (step_written (P := P) (s := s) op).reviews_cases with
    ⟨-, hevents⟩ | ⟨args, inputs, version, rfl, h⟩ |
      ⟨args, inputs, event, rfl, h⟩
  · rw [EventsHashed, hevents]
    exact hs
  · rcases createVersion_eq_ok h with ⟨heq, -⟩ | ⟨heq, -, -⟩
    · rw [heq]
      exact hs
    · rw [heq]
      exact hs
  · obtain ⟨⟨version, hbuilt⟩, heq⟩ := appendReviewEvent_eq_ok h
    rw [heq]
    intro e he
    rcases List.mem_append.mp he with he | he
    · exact hs e he
    · rw [List.mem_singleton.mp he]
      exact hbuilt.eventHash

/-- Without collisions of the digest, events of different identifiers have
different hashes. -/
theorem eventHash_ne (hdigest : Function.Injective P.sha256)
    {a b : ReviewEvent} {s t : String}
    (ha : a.eventHash = digest P (a.payload s))
    (hb : b.eventHash = digest P (b.payload t))
    (hid : a.reviewEventId ≠ b.reviewEventId) : a.eventHash ≠ b.eventHash := by
  intro heq
  rw [ha, hb] at heq
  have hform := canonicalForm_eq_of_bytes_eq (hdigest heq)
  have hfield : (a.payload s).field? "review_event_id" =
      some (.str b.reviewEventId) := by
    have hkey : "review_event_id" ∉ ([] : List String) := List.not_mem_nil
    rw [← field?_canonicalForm_scalar hkey rfl, hform,
      field?_canonicalForm_scalar hkey rfl]
    rfl
  exact hid (Json.str.inj (Option.some.inj hfield))

/-- The store with a review event added, without a check of its keys. -/
def Store.withReview (store : Store) (event : ReviewEvent)
    (report : ReportRecord) : Store :=
  { store with reviewEvents := store.reviewEvents ++ [event] }.updateReport
    report

/-- Without collisions of the digest, a review that passes its checks under a
new identifier is stored. -/
theorem appendReviewEvent_of_read (hdigest : Function.Injective P.sha256)
    (hs : EventsHashed P s) {args : ReviewArgs} {report : ReportRecord}
    (hread : appendReviewEventRead P s args inputs = .ok (event, report))
    (hfresh : ∀ e ∈ s.reviewEvents, inputs.newId ≠ e.reviewEventId) :
    appendReviewEvent P s args inputs =
      .ok (event, s.withReview event report) := by
  obtain ⟨version, hbuilt⟩ := appendReviewEventRead_eq_ok hread
  obtain ⟨createdAt, hhash⟩ := hbuilt.eventHash
  have hinsert : s.appendReportReviewEvent event report =
      .ok (s.withReview event report) := by
    refine bind_eq_ok_iff.mpr ⟨_, insertRow_eq_ok_iff.mpr ⟨rfl, ?_⟩, rfl⟩
    intro c hc e he
    have hid : event.reviewEventId ≠ e.reviewEventId := by
      rw [hbuilt.reviewEventId]
      exact hfresh e he
    rcases List.mem_cons.mp hc with rfl | hc
    · simpa using hid
    rcases List.mem_cons.mp hc with rfl | hc
    · have hrevision := hbuilt.reviewRevision
      rw [← hbuilt.reportVersionId] at hrevision
      simp only [decide_eq_false_iff_not, not_and]
      intro hversion heq
      have hle := reviewRevision_le_latest he hversion.symm
      omega
    · obtain rfl := List.mem_singleton.mp hc
      obtain ⟨createdAt', hhash'⟩ := hs e he
      simp [eventHash_ne hdigest hhash hhash' hid]
  exact bind_eq_ok_iff.mpr ⟨_, hread, bind_eq_ok_iff.mpr ⟨_, hinsert, rfl⟩⟩

end

end ApexForensic.Reports
