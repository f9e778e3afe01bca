import ApexForensic.Reports.ReviewGate

/-!
# Custody behind an approval

A verified snapshot vouches for the evidence it lists.  An approval accepts
any verified snapshot of its version, whatever it lists; when each approval
rests on a snapshot of everything its version cites, custody stands behind
every approved version.
-/

namespace ApexForensic.Reports

open ApexForensic.Support ApexForensic.Domain

variable {s : Store} {c : CustodySnapshot} {inputs : CallInputs}

section

variable (P : Platform) (world : World)

/-! ## What a version refers to -/

/-- The call that stored a version. -/
def StoredBy (ops : List Op) (v : ReportVersion) (args : CreateVersionArgs) :
    Prop :=
  ∃ before inputs after, ops = before ++ .createVersion args inputs :: after ∧
    (∀ w ∈ (reached P world before).versions,
      w.reportVersionId ≠ v.reportVersionId) ∧
    ∃ s', createVersion P (reached P world before) args inputs = .ok (v, s')

/-- A citation of the list names the evidence. -/
def CitesEvidence (citations : List Json) (evidenceId : String) : Prop :=
  ∃ c ∈ citations, ∃ fields, pyDict c = .ok fields ∧
    citedEvidence P fields = some evidenceId

/-- The sections of a version, or the citations it was stored with, name the
evidence. -/
def RefersTo (ops : List Op) (v : ReportVersion) (evidenceId : String) :
    Prop :=
  (∃ item ∈ v.sections, CitesEvidence P item.citations evidenceId) ∨
    ∃ args, StoredBy P world ops v args ∧
      CitesEvidence P args.citations evidenceId

/-! ## What stands behind an approval -/

/-- The custody chain of every evidence the snapshot lists was there and valid
in the state in which the snapshot was taken. -/
def ValidWhenTaken (ops : List Op) (c : CustodySnapshot) : Prop :=
  ∃ before op after, ops = before ++ op :: after ∧
    (∀ d ∈ (reached P world before).custodySnapshots,
      d.custodySnapshotId ≠ c.custodySnapshotId) ∧
    c ∈ (step P (reached P world before) op).custodySnapshots ∧
    ∀ e ∈ c.evidenceIds,
      (reached P world before).world.ledger.listCustodyEvents e ≠ [] ∧
      Custody.verifyChain P.toPlatform (reached P world before).world.ledger
        e = .ok true

/-- A snapshot of the version covers everything the version refers to. -/
def Covers (ops : List Op) (v : ReportVersion) (c : CustodySnapshot) : Prop :=
  c.reportVersionId = v.reportVersionId ∧
    ∀ e, RefersTo P world ops v e → e ∈ c.evidenceIds

/-- Every approved version is covered by a snapshot that was valid when it was
taken. -/
def ApprovalsCovered (ops : List Op) : Prop :=
  ∀ v ∈ (reached P world ops).versions, ∀ a,
    (reached P world ops).latestApproval v.reportVersionId = some a →
    a.decision = .approved →
    ∃ c ∈ (reached P world ops).custodySnapshots,
      Covers P world ops v c ∧ ValidWhenTaken P world ops c

/-- An approval whose review is complete finds a verified snapshot that covers
its version, or rests on one. -/
def ApprovesCovered (before : List Op) (args : ApproveArgs)
    (snapshotInputs : CallInputs) : Prop :=
  ∀ v approverId reason,
    approveRead P (reached P world before) args =
      .ok (v, approverId, reason) →
    (∃ c ∈ (reached P world before).custodySnapshots,
      c.verificationStatus = .verified ∧ Covers P world before v c) ∨
    ∀ c, approvalSnapshot P (reached P world before) args v approverId
        snapshotInputs = .ok c →
      ∀ e, RefersTo P world before v e → e ∈ c.evidenceIds

end

section

variable {P : Platform} {world : World}

theorem reached_concat (ops : List Op) (op : Op) :
    reached P world (ops ++ [op]) = step P (reached P world ops) op :=
  run_concat _ _ _ _

theorem refersTo_of_concat {ops : List Op} {op : Op} {v : ReportVersion}
    (hv : v ∈ (reached P world ops).versions) {e : String}
    (h : RefersTo P world (ops ++ [op]) v e) : RefersTo P world ops v e := by
  rcases h with hsection | ⟨args, ⟨before, inputs, after, hsplit, hnew, hok⟩, hcites⟩
  · exact Or.inl hsection
  · rcases split_concat hsplit with ⟨rfl, -, -⟩ | ⟨rest, -, hops⟩
    · exact absurd rfl (hnew v hv)
    · exact Or.inr ⟨args, ⟨before, inputs, rest, hops, hnew, hok⟩, hcites⟩

theorem ValidWhenTaken.concat {ops : List Op} (h : ValidWhenTaken P world ops c)
    (op : Op) : ValidWhenTaken P world (ops ++ [op]) c := by
  obtain ⟨before, x, after, rfl, hrest⟩ := h
  exact ⟨before, x, after ++ [op], by simp, hrest⟩

/-! ## Verified snapshots -/

theorem scanEvidence_errors {ledger : Custody.Store} {evidenceIds : List String}
    {scan result : CustodyScan}
    (h : evidenceIds.foldlM (scanEvidence P ledger) scan = .ok result)
    (herrors : result.errors = []) :
    scan.errors = [] ∧ ∀ e ∈ evidenceIds, ledger.listCustodyEvents e ≠ [] ∧
      Custody.verifyChain P.toPlatform ledger e = .ok true := by
  induction evidenceIds generalizing scan with
  | nil =>
      obtain rfl := Except.ok.inj h
      exact ⟨herrors, fun e he => absurd he List.not_mem_nil⟩
  | cons e evidenceIds ih =>
      rw [List.foldlM_cons] at h
      obtain ⟨next, hnext, h⟩ := bind_ok h
      obtain ⟨hnone, hrest⟩ := ih h
      rw [scanEvidence] at hnext
      split at hnext
      · obtain rfl := Except.ok.inj hnext
        simp at hnone
      · rename_i last hlast
        obtain ⟨valid, hvalid, hnext⟩ := bind_ok hnext
        obtain ⟨ids, -, hnext⟩ := bind_ok hnext
        obtain ⟨head, -, hnext⟩ := bind_ok hnext
        obtain rfl := Except.ok.inj hnext
        cases valid with
        | false => simp at hnone
        | true =>
            refine ⟨hnone, fun e' he' => ?_⟩
            rcases List.mem_cons.mp he' with rfl | he'
            · refine ⟨fun hempty => ?_, hvalid⟩
              rw [hempty] at hlast
              cases hlast
            · exact hrest e' he'

theorem verified_errors_eq_nil {evidenceIds : List String} {errors : List Json}
    (h : (custodyStatus evidenceIds errors).1 = .verified) : errors = [] := by
  rw [custodyStatus] at h
  split at h
  · cases h
  · split at h
    · cases h
    · rename_i hnone
      exact not_not.mp hnone

theorem validWhenTaken_of_verified (ops : List Op)
    (hc : c ∈ (reached P world ops).custodySnapshots)
    (hverified : c.verificationStatus = .verified) :
    ValidWhenTaken P world ops c := by
  induction ops using List.reverseRecOn with
  | nil => exact absurd hc List.not_mem_nil
  | append_singleton ops op ih =>
      have hmem := hc
      rw [reached_concat] at hc
      rcases (step_written op).snapshot_cases hc with
        hold | ⟨⟨scan, hscan, hstatus, -⟩, hnew, -⟩
      · exact (ih hold).concat op
      · refine ⟨ops, op, [], rfl, hnew, hc, ?_⟩
        rw [hverified] at hstatus
        exact (scanEvidence_errors hscan
          (verified_errors_eq_nil hstatus.symm)).2

/-! ## Approved versions -/

theorem createCustodySnapshot_first {reportVersionId capturedBy now : String}
    {version : ReportVersion} {ids : List String} {scan : CustodyScan}
    (hby : boundedNonEmpty (.str capturedBy) "captured_by" maxActorIdLength =
      .ok capturedBy) (hversion : s.version? reportVersionId = some version)
    (hlisted : stringList (jsonStrs version.evidenceIds) "evidence_ids"
      maxReferenceCount = .ok ids)
    (hvalid : validateEvidenceIds s.world version.caseId ids = .ok ids)
    (hscan : ids.foldlM (scanEvidence P s.world.ledger) {} = .ok scan)
    (hverified : custodyStatus ids scan.errors = (.verified, []))
    (hevents : scan.eventIds.length ≤ 100000) (hnodup : scan.eventIds.Nodup)
    (hnow : toJsonTimestamp inputs.now = .ok now)
    (hnone : s.custodySnapshots = []) :
    ∃ c, c.reportVersionId = version.reportVersionId ∧ c.evidenceIds = ids ∧
      c.verificationStatus = .verified ∧
      createCustodySnapshot P reportVersionId (.str capturedBy) none inputs s =
        .ok (c, { s with custodySnapshots := [c] }) := by
  have hread : ∃ r, createCustodySnapshotRead P s reportVersionId
      (.str capturedBy) none inputs = .ok r := by
    have hlimits : ¬ (100000 < scan.eventIds.length ∨
        10000 < (custodyStatus ids scan.errors).2.length) := by
      simpa [hverified] using hevents
    have hfound : ∀ fingerprint,
        s.custodySnapshotByFingerprint? fingerprint = none := by
      intro fingerprint
      rw [Store.custodySnapshotByFingerprint?, hnone]
      rfl
    simp only [createCustodySnapshotRead, bind, Except.bind, hby,
      getVersion_eq_ok_iff.mpr hversion, Option.getD_none, hlisted, hvalid,
      hscan, if_neg hlimits, hfound, hnow]
    exact ⟨_, rfl⟩
  obtain ⟨⟨c, isNew⟩, hread⟩ := hread
  rcases createCustodySnapshotRead_eq_ok hread with
    ⟨-, hmem⟩ | ⟨rfl, hid, ⟨v, listed, hv, hl, hvalid'⟩, scan', hscan', hstatus, hids⟩
  · rw [hnone] at hmem
    exact absurd hmem List.not_mem_nil
  · obtain rfl := Option.some.inj (hversion.symm.trans hv)
    obtain rfl := Except.ok.inj (hlisted.symm.trans hl)
    have hevidence := Except.ok.inj (hvalid'.symm.trans hvalid)
    rw [hevidence] at hscan' hstatus
    obtain rfl := Except.ok.inj (hscan.symm.trans hscan')
    rw [hverified] at hstatus
    refine ⟨c, hid.trans (mem_of_version? hversion).2.symm, hevidence, hstatus,
      bind_eq_ok_iff.mpr ⟨_, hread, bind_eq_ok_iff.mpr ⟨_, ?_, rfl⟩⟩⟩
    refine bind_eq_ok_iff.mpr ⟨[c], insertRow_eq_ok_iff.mpr ⟨?_, ?_⟩,
      check_eq_ok_iff.mpr ⟨?_, rfl⟩⟩
    · rw [hnone, List.nil_append]
    · rw [hnone]
      simp
    · rw [hids]
      exact not_not.mpr hnodup

theorem appendApproval_first {version : ReportVersion}
    {actor reason now : String} {custodySnapshotId : Option String}
    {report : ReportRecord}
    (hactor : boundedNonEmpty (.str actor) "approver_id" maxActorIdLength =
      .ok actor) (hreason : requiredReason P (.str reason) = .ok reason)
    (hnow : toJsonTimestamp inputs.now = .ok now)
    (hreport : s.report? version.reportId = some report)
    (hnone : s.approvals = []) :
    ∃ a s', appendApproval P version .approved (.str actor) (.str reason)
        custodySnapshotId none inputs s = .ok (a, s') ∧
      s'.reports.map ReportRecord.reportId =
        s.reports.map ReportRecord.reportId := by
  simp only [appendApproval, appendApprovalRead, Store.getReport,
    Store.approvalsOfReport, Store.appendReportApprovalRecord, bind,
    Except.bind, hactor, hreason, hnow, hreport, hnone, Option.any_none,
    List.filter_nil, insertRow]
  exact ⟨_, _, rfl, map_key_updateRow _ _ _⟩

theorem approve_after_of_ok {t t' : Store} {args : ApproveArgs}
    {snapshotInputs : CallInputs} {v : ReportVersion}
    {approverId reason : String} {a : ApprovalRecord}
    (hread : approveRead P s args = .ok (v, approverId, reason))
    (hid : args.custodySnapshotId = none)
    (hcreate : createCustodySnapshot P v.reportVersionId (.str approverId)
      none snapshotInputs s = .ok (c, t))
    (hcheck : checkApprovalSnapshot v c = .ok ())
    (happend : appendApproval P v .approved (.str approverId) (.str reason)
      (some c.custodySnapshotId) args.expectedApprovalRevision inputs t =
        .ok (a, t')) : (approve P args snapshotInputs inputs).after s = t' := by
  simp [approve, Service.after, bind, Service.read, Service.commit, hread,
    hid, hcreate, hcheck, happend]

def phoneCitation : Json :=
  .obj [("case_id", .str "case"), ("evidence_id", .str "phone"),
    ("source_kind", .str "FILE")]

/-- The version submitted and completed, read without a check of keys. -/
def completedStore (citations : List Json) : Store :=
  let s := reached spelledPlatform oneCase
    (reviewedOnce citations .submitForReview)
  (appendReviewEventRead spelledPlatform s (reviewOf .markReviewComplete)
    (callAt 4 "m")).toOption.elim s fun r => s.withReview r.1 r.2

def approveArgs : ApproveArgs where
  reportVersionId := "v"
  approverId := .str "a"
  reason := .str "w"

/-- The completed version is approved on a snapshot of its evidence. -/
def approvedReview (citations : List Json) : List Op :=
  completedAfter citations .submitForReview ++
    [.approve approveArgs (callAt 5 "k") (callAt 6 "p")]

theorem completedStore_facts (citations : List Json)
    (hcitations : citations = [] ∨ citations = [phoneCitation]) :
    (appendReviewEventRead spelledPlatform (reached spelledPlatform oneCase
        (reviewedOnce citations .submitForReview))
        (reviewOf .markReviewComplete) (callAt 4 "m")).toOption.isSome = true ∧
      (reached spelledPlatform oneCase
        (reviewedOnce citations .submitForReview)).reviewEvents.map
          ReviewEvent.reviewEventId = ["e"] ∧
      (approveRead spelledPlatform (completedStore citations)
        approveArgs).toOption.map (fun r => (r.2, r.1.reportVersionId,
          r.1.caseId, r.1.reportId, r.1.evidenceIds)) =
        some (("a", "w"), "v", "case", "r", ["disk"]) ∧
      ((completedStore citations).report? "r").isSome = true ∧
      (completedStore citations).custodySnapshots.isEmpty = true ∧
      (completedStore citations).approvals.isEmpty = true ∧
      (completedStore citations).versions.map (fun v => v.sections.map
        fun item => item.citations.map fun c =>
          (pyDict c).toOption.map (citedEvidence spelledPlatform)) =
        [[citations.map fun _ => some (some "phone")]] := by
  rcases hcitations with rfl | rfl
  · decide +kernel
  · decide +kernel

end

theorem listCustodyEvents_disk :
    oneCase.ledger.listCustodyEvents "disk" =
      [Custody.diskEvent.toSchemaDict] := by
  change ((Custody.evidenceRows "disk" (Custody.exec Custody.spelledPlatform
    Custody.twoChains).store.custodyEvents).insertionSort _).map _ = _
  rw [Custody.twoChains_rows]
  rfl

theorem scan_disk :
    ["disk"].foldlM (scanEvidence spelledPlatform oneCase.ledger) {} =
      .ok { eventIds := ["e1"], errors := [],
            ledgerHeads := [Custody.diskEvent.eventHash] } := by
  have hvalid : Custody.verifyChain spelledPlatform.toPlatform oneCase.ledger
      "disk" = .ok true := by
    rw [Custody.verifyChain, listCustodyEvents_disk]
    exact Custody.verifyFrom_single (d := Custody.diskEvent)
      (Custody.hashed_withHash _ _) rfl rfl
  rw [List.foldlM_cons, scanEvidence, listCustodyEvents_disk]
  simp only [List.getLast?_singleton, hvalid]
  rfl

theorem reached_completedAfter (citations : List Json)
    (hcitations : citations = [] ∨ citations = [phoneCitation]) :
    reached spelledPlatform oneCase
      (completedAfter citations .submitForReview) =
        completedStore citations := by
  obtain ⟨hpasses, hids, -⟩ := completedStore_facts citations hcitations
  have hhashed := eventsHashed_reached (P := spelledPlatform) oneCase
    (reviewedOnce citations .submitForReview)
  rw [completedAfter, reached_concat, completedStore]
  generalize reached spelledPlatform oneCase
    (reviewedOnce citations .submitForReview) = s at *
  obtain ⟨⟨event, report⟩, hread⟩ := exists_ok_of_isSome hpasses
  have hfresh : ∀ e ∈ s.reviewEvents, (callAt 4 "m").newId ≠ e.reviewEventId := by
    intro e he heq
    have hmem := List.mem_map_of_mem (f := ReviewEvent.reviewEventId) he
    rw [hids, ← heq] at hmem
    simp [callAt] at hmem
  have hstep : step spelledPlatform s
      (.review (reviewOf .markReviewComplete) (callAt 4 "m")) =
        s.withReview event report :=
    call_eq_of_ok (appendReviewEvent_of_read Custody.spellOut_injective
      hhashed hread hfresh)
  rw [hstep, hread]
  rfl

theorem completedStore_world (citations : List Json)
    (hcitations : citations = [] ∨ citations = [phoneCitation]) :
    (completedStore citations).world = oneCase := by
  rw [← reached_completedAfter citations hcitations]
  apply reached_world
  intro op hop w heq
  rw [heq] at hop
  simp [completedAfter, reviewedOnce, oneVersion] at hop

theorem approvedReview_eq (citations : List Json)
    (hcitations : citations = [] ∨ citations = [phoneCitation]) :
    ∃ v a c reports,
      (completedStore citations).version? "v" = some v ∧
      reached spelledPlatform oneCase (approvedReview citations) =
        { completedStore citations with
          custodySnapshots := [c], approvals := [a], reports := reports } ∧
      reports.map ReportRecord.reportId =
        (completedStore citations).reports.map ReportRecord.reportId ∧
      a.reportVersionId = v.reportVersionId ∧ a.decision = .approved ∧
      a.contentFingerprint = v.contentFingerprint ∧
      c.evidenceIds = ["disk"] := by
  obtain ⟨-, -, happroves, hreport, hsnapshots, happrovals, -⟩ :=
    completedStore_facts citations hcitations
  have hreached := reached_completedAfter citations hcitations
  have hworld := completedStore_world citations hcitations
  rw [approvedReview, reached_concat, hreached]
  generalize completedStore citations = s at *
  obtain ⟨⟨v, approverId, reason⟩, hread⟩ :
      ∃ r, approveRead spelledPlatform s approveArgs = .ok r := by
    apply exists_ok_of_isSome
    cases h : (approveRead spelledPlatform s approveArgs).toOption with
    | none => simp [h] at happroves
    | some r => rfl
  simp only [hread, Except.toOption, Option.map_some, Option.some.injEq,
    Prod.mk.injEq] at happroves
  obtain ⟨⟨rfl, rfl⟩, hvid, hcase, hreportId, hevidence⟩ := happroves
  obtain ⟨htarget, -⟩ := approveRead_eq_ok hread
  obtain ⟨report, hreport⟩ := Option.isSome_iff_exists.mp hreport
  have hno := List.isEmpty_iff.mp hsnapshots
  have hby : boundedNonEmpty (.str "a") "captured_by" maxActorIdLength =
    .ok "a" := rfl
  have hlisted : stringList (jsonStrs v.evidenceIds) "evidence_ids"
      maxReferenceCount = .ok ["disk"] := by
    rw [hevidence]
    rfl
  have hvalid : validateEvidenceIds s.world v.caseId ["disk"] =
      .ok ["disk"] := by
    rw [hworld, hcase]
    rfl
  have hscan : ["disk"].foldlM (scanEvidence spelledPlatform s.world.ledger)
      {} = .ok { eventIds := ["e1"], errors := [],
                 ledgerHeads := [Custody.diskEvent.eventHash] } := by
    rw [hworld]
    exact scan_disk
  have htaken : toJsonTimestamp (callAt 5 "k").now =
    .ok "1970-01-01T00:00:05.000000Z" := rfl
  obtain ⟨c, hcid, hlists, hverified, hcreate⟩ :=
    createCustodySnapshot_first hby htarget hlisted hvalid hscan rfl
      (by simp) (by simp) htaken hno
  generalize ht : { s with custodySnapshots := [c] } = t at hcreate
  have hactor : boundedNonEmpty (.str "a") "approver_id" maxActorIdLength =
    .ok "a" := rfl
  have hreason : requiredReason spelledPlatform (.str "w") = .ok "w" := rfl
  have hdecided : toJsonTimestamp (callAt 6 "p").now =
    .ok "1970-01-01T00:00:06.000000Z" := rfl
  have hreport' : t.report? v.reportId = some report := by
    rw [hreportId, ← ht]
    exact hreport
  have hnoapprovals : t.approvals = [] := by
    rw [← ht]
    exact List.isEmpty_iff.mp happrovals
  obtain ⟨approval, s', happend, hreports⟩ := appendApproval_first hactor
    hreason hdecided hreport' hnoapprovals
  have hcreate' := hcreate
  rw [← (mem_of_version? htarget).2] at hcreate'
  have hcheck : checkApprovalSnapshot v c = .ok () := by
    simp only [checkApprovalSnapshot, hcid, hverified, ne_eq,
      not_true_eq_false, if_false]
    rfl
  have hstep : step spelledPlatform s (.approve approveArgs (callAt 5 "k")
      (callAt 6 "p")) = s' :=
    approve_after_of_ok hread rfl hcreate' hcheck happend
  obtain ⟨-, hid, hdecision, hfingerprint, -, -, -, heq⟩ :=
    appendApproval_eq_ok happend
  refine ⟨v, approval, c, s'.reports, htarget, ?_, ?_, hid, hdecision,
    hfingerprint, hlists⟩
  · rw [hstep, heq, ← ht]
    simp [List.isEmpty_iff.mp happrovals]
  · rw [hreports, ← ht]

theorem latestApproval_single {a : ApprovalRecord} (h : s.approvals = [a]) :
    s.latestApproval a.reportVersionId = some a := by
  simp [Store.latestApproval, Store.approvalsOf, h]

end ApexForensic.Reports
