import ApexForensic.Reports.ReviewGate

/-!
# The approval revision a client reads and the one a decision checks

A client reads the revision of the newest decision on a version and sends it
back with its own decision.  The decision is checked against the newest
decision on the whole report.  The two agree while the newest decision on the
report is on the version itself.
-/

namespace ApexForensic.Reports

open ApexForensic.Support ApexForensic.Domain

variable {a : ApprovalRecord} {decision : ApprovalDecision}
  {version : ReportVersion} {op : Op} {inputs : CallInputs}
  {actorId reason : Json} {custodySnapshotId : Option String} {token : ℕ}

/-! ## Reading the revision and deciding -/

/-- The approval revision in the answer of `get_version`. -/
def Store.reportedRevision (store : Store) (reportVersionId : String) :
    Except PyError ℕ := do
  let version ← store.getVersion reportVersionId
  return (store.approvalState version.reportVersionId).approvalRevision

/-- A decision on a version, but for the revision its caller expects. -/
inductive DecisionCall where
  | approve (args : ApproveArgs) (snapshotInputs inputs : CallInputs)
  | reject (reportVersionId : String) (approverId reason : Json)
      (inputs : CallInputs)
  | revokeApproval (reportVersionId : String) (actorId reason : Json)
      (inputs : CallInputs)

namespace DecisionCall

def reportVersionId : DecisionCall → String
  | approve args _ _ => args.reportVersionId
  | reject reportVersionId _ _ _ => reportVersionId
  | revokeApproval reportVersionId _ _ _ => reportVersionId

section

variable (P : Platform)

/-- The call with the revision its caller expects. -/
def run (expected : Option ℤ) : DecisionCall →
    Service Store PyError ApprovalRecord
  | approve args snapshotInputs inputs =>
      Reports.approve P { args with expectedApprovalRevision := expected }
        snapshotInputs inputs
  | reject reportVersionId approverId reason inputs =>
      Service.commit (Reports.reject P reportVersionId approverId reason
        expected inputs)
  | revokeApproval reportVersionId actorId reason inputs =>
      Service.commit (Reports.revokeApproval P reportVersionId actorId reason
        expected inputs)

/-- The call returns a committed decision. -/
def Commits (s : Store) (expected : Option ℤ) (d : DecisionCall) : Prop :=
  ∃ approval, (d.run P expected).result s = .ok approval

end

end DecisionCall

/-- The revision a decision on a version of the report is checked against. -/
def Store.latestApprovalRevision (store : Store) (reportId : String) : ℕ :=
  (store.approvalsOfReport reportId).getLast?.elim 0
    ApprovalRecord.approvalRevision

/-- A decision on the version is stored that was not stored before. -/
def DecidedSince (s s' : Store) (reportVersionId : String) : Prop :=
  ∃ a ∈ s'.approvals, a.reportVersionId = reportVersionId ∧ a ∉ s.approvals

/-- The newest decision on the version's report, if there is one, is on the
version itself. -/
def NewestIsOwn (s : Store) (version : ReportVersion) : Prop :=
  ∀ a, (s.approvalsOfReport version.reportId).getLast? = some a →
    a.reportVersionId = version.reportVersionId

section

variable {P : Platform} {s s' : Store}

/-! ## What the check of the revision decides -/

theorem expected_of_appendApproval {r : ApprovalRecord × Store}
    (h : appendApproval P version decision actorId reason custodySnapshotId
      (some (token : ℤ)) inputs s = .ok r) :
    token = s.latestApprovalRevision version.reportId := by
  obtain ⟨⟨a, report⟩, hread, -⟩ := bind_ok h
  obtain ⟨actor, -, hread⟩ := bind_ok hread
  obtain ⟨text, -, hread⟩ := bind_ok hread
  obtain ⟨hexpected, -⟩ := check_ok hread
  simpa [Store.latestApprovalRevision] using hexpected

theorem appendApproval_expecting_latest :
    appendApproval P version decision actorId reason custodySnapshotId
        (some (s.latestApprovalRevision version.reportId : ℤ)) inputs s =
      appendApproval P version decision actorId reason custodySnapshotId none
        inputs s := by
  simp [appendApproval, appendApprovalRead, Store.latestApprovalRevision]

theorem appendApproval_some_iff (token : ℕ)
    (h : ∃ r, appendApproval P version decision actorId reason
      custodySnapshotId none inputs s = .ok r) :
    (∃ r, appendApproval P version decision actorId reason custodySnapshotId
        (some (token : ℤ)) inputs s = .ok r) ↔
      token = s.latestApprovalRevision version.reportId := by
  constructor
  · rintro ⟨r, hr⟩
    exact expected_of_appendApproval hr
  · rintro rfl
    rw [appendApproval_expecting_latest]
    exact h

/-- The snapshot `approve` looks at: the one its caller names, or one it
stores. -/
def takeSnapshot (P : Platform) (args : ApproveArgs) (version : ReportVersion)
    (approverId : String) (snapshotInputs : CallInputs) :
    Service Store PyError CustodySnapshot :=
  match args.custodySnapshotId with
  | some custodySnapshotId => Service.read fun store =>
      store.getCustodySnapshot custodySnapshotId
  | none => Service.commit (createCustodySnapshot P
      version.reportVersionId (.str approverId) none snapshotInputs)

theorem approvals_takeSnapshot (args : ApproveArgs) (version : ReportVersion)
    (approverId : String) (snapshotInputs : CallInputs) :
    ((takeSnapshot P args version approverId snapshotInputs).after
      s).approvals = s.approvals := by
  rw [takeSnapshot]
  split
  · rfl
  · rcases Service.after_commit_cases (createCustodySnapshot P
        version.reportVersionId (.str approverId) none snapshotInputs) s with
      hsame | ⟨c, hcreate⟩
    · rw [hsame]
    · obtain ⟨isNew, -, -, heq⟩ := createCustodySnapshot_eq_ok hcreate
      rw [heq]

theorem approve_eq (args : ApproveArgs) (snapshotInputs inputs : CallInputs) :
    approve P args snapshotInputs inputs = (do
      let checked ← Service.read fun store => approveRead P store args
      let snapshot ←
        takeSnapshot P args checked.1 checked.2.1 snapshotInputs
      Service.read fun _ => checkApprovalSnapshot checked.1 snapshot
      Service.commit (appendApproval P checked.1 .approved
        (.str checked.2.1) (.str checked.2.2)
        (some snapshot.custodySnapshotId) args.expectedApprovalRevision
        inputs)) := by
  rw [approve]
  congr 1
  funext checked
  rw [takeSnapshot]
  cases args.custodySnapshotId with
  | some custodySnapshotId => rfl
  | none => rfl

theorem approve_result_eq_ok_iff {args : ApproveArgs}
    {snapshotInputs : CallInputs} :
    (∃ a, (approve P args snapshotInputs inputs).result s = .ok a) ↔
      ∃ version approverId reason snapshot,
        approveRead P s args = .ok (version, approverId, reason) ∧
        (takeSnapshot P args version approverId snapshotInputs).result s =
          .ok snapshot ∧
        checkApprovalSnapshot version snapshot = .ok () ∧
        ∃ r, appendApproval P version .approved (.str approverId)
          (.str reason) (some snapshot.custodySnapshotId)
          args.expectedApprovalRevision inputs
          ((takeSnapshot P args version approverId snapshotInputs).after s) =
            .ok r := by
  rw [approve_eq]
  constructor
  · rintro ⟨a, h⟩
    obtain ⟨⟨version, approverId, reason⟩, hread, h⟩ :=
      Service.result_bind_eq_ok_iff.mp h
    obtain ⟨snapshot, htaken, h⟩ := Service.result_bind_eq_ok_iff.mp h
    obtain ⟨u, hcheck, h⟩ := Service.result_bind_eq_ok_iff.mp h
    exact ⟨version, approverId, reason, snapshot, hread, htaken, hcheck, _,
      Service.commit_eq_ok h⟩
  · rintro ⟨version, approverId, reason, snapshot, hread, htaken, hcheck, r,
      happend⟩
    refine ⟨r.1, Service.result_bind_eq_ok_iff.mpr ⟨_, hread,
      Service.result_bind_eq_ok_iff.mpr ⟨snapshot, htaken,
        Service.result_bind_eq_ok_iff.mpr ⟨(), hcheck, ?_⟩⟩⟩⟩
    exact congrArg Prod.fst (Service.commit_of_ok happend)

theorem latestApprovalRevision_congr (h : s'.approvals = s.approvals)
    (reportId : String) : s'.latestApprovalRevision reportId =
      s.latestApprovalRevision reportId := by
  rw [Store.latestApprovalRevision, Store.approvalsOfReport, h]
  rfl

/-- An approval that would be stored is stored under an expected revision
exactly when that is the newest of the report. -/
theorem approve_some_iff {args : ApproveArgs} {snapshotInputs : CallInputs}
    (hversion : s.version? args.reportVersionId = some version)
    (hpossible : (DecisionCall.approve args snapshotInputs inputs).Commits P s
      none) :
    (DecisionCall.approve args snapshotInputs inputs).Commits P s
        (some (token : ℤ)) ↔
      token = s.latestApprovalRevision version.reportId := by
  obtain ⟨v, approverId, reason, snapshot, hread, htaken, hcheck, hstored⟩ :=
    approve_result_eq_ok_iff.mp hpossible
  obtain rfl : v = version := Option.some.inj
    ((approveRead_eq_ok hread).1.symm.trans hversion)
  have hiff := appendApproval_some_iff token hstored
  rw [latestApprovalRevision_congr (approvals_takeSnapshot _ _ _ _)] at hiff
  rw [← hiff]
  constructor
  · intro h
    obtain ⟨w, approverId', reason', snapshot', hread', htaken', -, h⟩ :=
      approve_result_eq_ok_iff.mp h
    have heq := Except.ok.inj (hread'.symm.trans hread)
    obtain ⟨rfl, rfl, rfl⟩ : w = v ∧ approverId' = approverId ∧
        reason' = reason := by simpa using heq
    obtain rfl := Except.ok.inj (htaken'.symm.trans htaken)
    exact h
  · intro h
    exact approve_result_eq_ok_iff.mpr
      ⟨v, approverId, reason, snapshot, hread, htaken, hcheck, h⟩

theorem commit_result_eq_ok_iff {α : Type}
    {f : Store → Except PyError (α × Store)} :
    (∃ a, (Service.commit f).result s = .ok a) ↔ ∃ r, f s = .ok r := by
  constructor
  · rintro ⟨a, h⟩
    exact ⟨_, Service.commit_eq_ok h⟩
  · rintro ⟨r, h⟩
    exact ⟨r.1, congrArg Prod.fst (Service.commit_of_ok h)⟩

theorem reject_some_iff {reportVersionId : String} {approverId : Json}
    (hversion : s.version? reportVersionId = some version)
    (hpossible : ∃ r, reject P reportVersionId approverId reason none inputs
      s = .ok r) :
    (∃ r, reject P reportVersionId approverId reason (some (token : ℤ))
        inputs s = .ok r) ↔
      token = s.latestApprovalRevision version.reportId := by
  obtain ⟨r, h⟩ := hpossible
  obtain ⟨v, hv, h⟩ := bind_ok h
  obtain rfl : v = version := Option.some.inj
    ((getVersion_eq_ok_iff.mp hv).symm.trans hversion)
  obtain ⟨text, htext, h⟩ := bind_ok h
  rw [← appendApproval_some_iff token ⟨r, h⟩]
  refine exists_congr fun r' => ?_
  simp only [reject, hv, htext, ok_bind]

theorem revokeApproval_some_iff {reportVersionId : String}
    (hversion : s.version? reportVersionId = some version)
    (hpossible : ∃ r, revokeApproval P reportVersionId actorId reason none
      inputs s = .ok r) :
    (∃ r, revokeApproval P reportVersionId actorId reason
        (some (token : ℤ)) inputs s = .ok r) ↔
      token = s.latestApprovalRevision version.reportId := by
  obtain ⟨r, h⟩ := hpossible
  have hv := getVersion_eq_ok_iff.mpr hversion
  rw [revokeApproval, hv, ok_bind] at h
  dsimp only at h
  split at h
  · cases h
  rename_i latest hlatest
  split at h
  · cases h
  rename_i happroved
  obtain ⟨text, htext, h⟩ := bind_ok h
  rw [← appendApproval_some_iff token ⟨r, h⟩]
  refine exists_congr fun r' => ?_
  simp only [revokeApproval, hv, ok_bind, hlatest, happroved, if_false, htext]

/-- A decision that would be stored is stored under an expected revision
exactly when that is the newest of the report. -/
theorem commits_some_iff {d : DecisionCall}
    (hversion : s.version? d.reportVersionId = some version)
    (hpossible : d.Commits P s none) :
    d.Commits P s (some (token : ℤ)) ↔
      token = s.latestApprovalRevision version.reportId := by
  cases d with
  | approve args snapshotInputs inputs =>
      exact approve_some_iff hversion hpossible
  | reject reportVersionId approverId reason inputs =>
      exact commit_result_eq_ok_iff.trans
        (reject_some_iff hversion (commit_result_eq_ok_iff.mp hpossible))
  | revokeApproval reportVersionId actorId reason inputs =>
      exact commit_result_eq_ok_iff.trans
        (revokeApproval_some_iff hversion
          (commit_result_eq_ok_iff.mp hpossible))

/-! ## The decisions of a store -/

/-- An operation keeps the decisions or appends one, on a stored version and
under the next revision of its report. -/
theorem Written.approvals_cases (h : Written P s op s') :
    s'.approvals = s.approvals ∨
      ∃ version ∈ s.versions, ∃ a : ApprovalRecord,
        s'.approvals = s.approvals ++ [a] ∧
        a.reportVersionId = version.reportVersionId ∧
        a.reportId = version.reportId ∧
        a.approvalRevision = s.latestApprovalRevision version.reportId + 1 := by
  cases h with
  | same h => exact Or.inl h.approvals
  | version h =>
      rcases createVersion_eq_ok h with ⟨heq, -⟩ | ⟨heq, -, -⟩
      · exact Or.inl (by rw [heq])
      · exact Or.inl (by rw [heq])
  | event h => exact Or.inl (by rw [(appendReviewEvent_eq_ok h).2])
  | snapshot h =>
      obtain ⟨isNew, -, -, heq⟩ := createCustodySnapshot_eq_ok h
      exact Or.inl (by rw [heq])
  | @decision _ version _ _ _ _ _ _ a _ hversion hdecision h =>
      obtain ⟨hreport, hid, -, -, -, hrevision, -, heq⟩ :=
        appendApproval_eq_ok h
      exact Or.inr ⟨version, hversion, a, by rw [heq], hid, hreport, hrevision⟩
  | @approval _ _ _ version _ _ t _ _ a hread ht hsnapshot hmem hcheck h =>
      have htarget := (mem_of_version? (approveRead_eq_ok hread).1).1
      have hsame : t.approvals = s.approvals := by
        rcases ht with rfl | ⟨c, hcreate⟩
        · rfl
        · obtain ⟨isNew, -, -, heq⟩ := createCustodySnapshot_eq_ok hcreate
          rw [heq]
      obtain ⟨hreport, hid, -, -, -, hrevision, -, heq⟩ :=
        appendApproval_eq_ok h
      refine Or.inr ⟨version, htarget, a, by rw [heq, ← hsame], hid, hreport,
        ?_⟩
      rw [← latestApprovalRevision_congr hsame]
      exact hrevision

/-- The decisions on a report are stored in the order of their revisions. -/
structure DecisionsOrdered (s : Store) : Prop where
  increasing : s.approvals.Pairwise fun a b =>
    a.reportId = b.reportId → a.approvalRevision < b.approvalRevision
  positive : ∀ a ∈ s.approvals, 0 < a.approvalRevision

theorem approvalRevision_le_latest (ha : a ∈ s.approvals) :
    a.approvalRevision ≤ s.latestApprovalRevision a.reportId :=
  revision_le_last (List.mem_filter.mpr ⟨ha, by simp⟩)

theorem DecisionsOrdered.of_written (hs : DecisionsOrdered s)
    (h : Written P s op s') : DecisionsOrdered s' := by
  rcases h.approvals_cases with
    hsame | ⟨version, -, a, happend, -, hreport, hrevision⟩
  · exact ⟨by rw [hsame]; exact hs.increasing,
      by rw [hsame]; exact hs.positive⟩
  constructor
  · rw [happend]
    refine List.pairwise_append.mpr
      ⟨hs.increasing, List.pairwise_singleton _ _, fun b hb c hc => ?_⟩
    obtain rfl := List.mem_singleton.mp hc
    intro hbreport
    have hle := approvalRevision_le_latest hb
    rw [hbreport, hreport] at hle
    omega
  · intro b hb
    rw [happend] at hb
    rcases List.mem_append.mp hb with hb | hb
    · exact hs.positive b hb
    · rw [List.mem_singleton.mp hb, hrevision]
      exact Nat.succ_pos _

theorem decisionsOrdered_reached (world : World) (ops : List Op) :
    DecisionsOrdered (reached P world ops) :=
  run_invariant (fun _ op hs => hs.of_written (step_written op))
    ⟨List.Pairwise.nil, fun _ ha => absurd ha List.not_mem_nil⟩ ops

theorem DecisionsOrdered.eq_of_revision (hs : DecisionsOrdered s)
    {b : ApprovalRecord} (ha : a ∈ s.approvals) (hb : b ∈ s.approvals)
    (hreport : a.reportId = b.reportId)
    (hrevision : a.approvalRevision = b.approvalRevision) : a = b := by
  have hnodup : (s.approvals.map fun a =>
      (a.reportId, a.approvalRevision)).Nodup :=
    List.pairwise_map.mpr (hs.increasing.imp fun h heq =>
      absurd (Prod.mk.inj heq).2 (h (Prod.mk.inj heq).1).ne)
  exact List.inj_on_of_nodup_map hnodup ha hb (Prod.ext hreport hrevision)

/-- Versions and decisions are only added. -/
structure Grows (s s' : Store) : Prop where
  versions : s.versions ⊆ s'.versions
  approvals : s.approvals <+: s'.approvals

theorem AppendOnly.grows (h : AppendOnly s s') : Grows s s' :=
  ⟨h.versions.subset, h.approvals⟩

/-! ## The token of a version -/

theorem reportedRevision_eq_ok_iff {reportVersionId : String} :
    s.reportedRevision reportVersionId = .ok token ↔
      ∃ version, s.version? reportVersionId = some version ∧
        token = (s.latestApproval reportVersionId).elim 0
          ApprovalRecord.approvalRevision := by
  rw [Store.reportedRevision, bind_eq_ok_iff]
  refine exists_congr fun version => ?_
  rw [getVersion_eq_ok_iff]
  refine and_congr_right fun hversion => ?_
  rw [(mem_of_version? hversion).2]
  constructor
  · exact fun h => (Except.ok.inj h).symm
  · exact fun h => congrArg Except.ok h.symm

section

variable (hs : WellOwned s) (hordered : DecisionsOrdered s)
  {version : ReportVersion} (hversion : version ∈ s.versions)

include hs hversion in
theorem reportId_of_reportVersionId (ha : a ∈ s.approvals)
    (hid : a.reportVersionId = version.reportVersionId) :
    a.reportId = version.reportId := by
  obtain ⟨v, hv, hvid, hreport, -⟩ := hs.approved a ha
  rw [← hreport, hs.version_unique hv hversion (hvid.trans hid)]

theorem mem_of_latestApproval {reportVersionId : String}
    (h : s.latestApproval reportVersionId = some a) :
    a ∈ s.approvals ∧ a.reportVersionId = reportVersionId := by
  have hmem := List.mem_of_getLast? h
  rw [Store.approvalsOf, List.mem_insertionSort, List.mem_filter] at hmem
  exact ⟨hmem.1, of_decide_eq_true hmem.2⟩

theorem mem_of_approvalsOfReport {reportId : String}
    (h : (s.approvalsOfReport reportId).getLast? = some a) :
    a ∈ s.approvals ∧ a.reportId = reportId := by
  have hmem := List.mem_of_getLast? h
  rw [Store.approvalsOfReport, List.mem_insertionSort, List.mem_filter] at hmem
  exact ⟨hmem.1, of_decide_eq_true hmem.2⟩

include hs hversion in
theorem versionRevision_le_latest :
    (s.latestApproval version.reportVersionId).elim 0
        ApprovalRecord.approvalRevision ≤
      s.latestApprovalRevision version.reportId := by
  cases hlatest : s.latestApproval version.reportVersionId with
  | none => exact Nat.zero_le _
  | some a =>
      obtain ⟨ha, hid⟩ := mem_of_latestApproval hlatest
      rw [← reportId_of_reportVersionId hs hversion ha hid]
      exact approvalRevision_le_latest ha

include hs hordered hversion in
/-- The version's newest revision is the report's exactly when the report's
newest decision is on the version. -/
theorem versionRevision_eq_latest_iff :
    (s.latestApproval version.reportVersionId).elim 0
        ApprovalRecord.approvalRevision =
      s.latestApprovalRevision version.reportId ↔ NewestIsOwn s version := by
  cases hnewest : (s.approvalsOfReport version.reportId).getLast? with
  | none =>
      refine iff_of_true ?_ fun a ha => by rw [hnewest] at ha; cases ha
      have hle := versionRevision_le_latest hs hversion
      rw [Store.latestApprovalRevision, hnewest] at hle ⊢
      exact Nat.le_zero.mp hle
  | some b =>
      obtain ⟨hb, hbreport⟩ := mem_of_approvalsOfReport hnewest
      rw [Store.latestApprovalRevision, hnewest]
      constructor
      · intro heq a ha
        obtain rfl := Option.some.inj (hnewest.symm.trans ha)
        cases hlatest : s.latestApproval version.reportVersionId with
        | none =>
            rw [hlatest] at heq
            exact absurd heq (hordered.positive b hb).ne
        | some c =>
            rw [hlatest] at heq
            obtain ⟨hc, hid⟩ := mem_of_latestApproval hlatest
            have hcreport := reportId_of_reportVersionId hs hversion hc hid
            rw [← hordered.eq_of_revision hc hb (hcreport.trans hbreport.symm)
              heq]
            exact hid
      · intro hown
        have hid := hown b hnewest
        apply le_antisymm
        · have hle := versionRevision_le_latest hs hversion
          rwa [Store.latestApprovalRevision, hnewest] at hle
        · rw [Store.latestApproval, Store.approvalsOf]
          change b.approvalRevision ≤ _
          apply revision_le_last
          exact List.mem_filter.mpr ⟨hb, decide_eq_true hid⟩

end

theorem decidedSince_iff (hordered : DecisionsOrdered s')
    {added : List ApprovalRecord} (hadded : s.approvals ++ added = s'.approvals)
    {reportVersionId : String} :
    DecidedSince s s' reportVersionId ↔
      ∃ a ∈ added, a.reportVersionId = reportVersionId := by
  have hincreasing := hordered.increasing
  rw [← hadded] at hincreasing
  have hnew : ∀ a ∈ added, a ∉ s.approvals := fun a ha ha' =>
    absurd ((List.pairwise_append.mp hincreasing).2.2 a ha' a ha rfl)
      (lt_irrefl _)
  constructor
  · rintro ⟨a, ha, hid, hnot⟩
    rw [← hadded] at ha
    exact ⟨a, (List.mem_append.mp ha).resolve_left hnot, hid⟩
  · rintro ⟨a, ha, hid⟩
    exact ⟨a, hadded ▸ List.mem_append_right _ ha, hid, hnew a ha⟩

theorem latestApproval_of_not_decidedSince (hordered : DecisionsOrdered s')
    (hgrows : Grows s s') {reportVersionId : String}
    (hdecided : ¬ DecidedSince s s' reportVersionId) :
    s'.latestApproval reportVersionId = s.latestApproval reportVersionId := by
  obtain ⟨added, hadded⟩ := hgrows.approvals
  have hnone : (added.filter fun a =>
      a.reportVersionId = reportVersionId) = [] := by
    refine List.filter_eq_nil_iff.mpr fun a ha hid => hdecided ?_
    exact (decidedSince_iff hordered hadded).mpr ⟨a, ha, of_decide_eq_true hid⟩
  rw [Store.latestApproval, Store.latestApproval, Store.approvalsOf,
    Store.approvalsOf, ← hadded, List.filter_append, hnone, List.append_nil]

theorem latestApprovalRevision_lt_of_decidedSince
    (hordered : DecisionsOrdered s') (hgrows : Grows s s')
    (ha : a ∈ s'.approvals) (hnew : a ∉ s.approvals) :
    s.latestApprovalRevision a.reportId <
      s'.latestApprovalRevision a.reportId := by
  refine lt_of_lt_of_le ?_ (approvalRevision_le_latest ha)
  obtain ⟨added, hadded⟩ := hgrows.approvals
  rw [← hadded] at ha
  have hadd := (List.mem_append.mp ha).resolve_left hnew
  have hincreasing := hordered.increasing
  rw [← hadded] at hincreasing
  rw [Store.latestApprovalRevision]
  cases hnewest : (s.approvalsOfReport a.reportId).getLast? with
  | none => exact hordered.positive a (hadded ▸ ha)
  | some b =>
      obtain ⟨hb, hreport⟩ := mem_of_approvalsOfReport hnewest
      exact (List.pairwise_append.mp hincreasing).2.2 b hb a hadd hreport

/-- A version's token is accepted exactly when the version was not decided
since it was read and the newest decision on the report is the version's. -/
theorem token_accepted_iff (hs : WellOwned s) (hs' : WellOwned s')
    (hordered : DecisionsOrdered s') (hgrows : Grows s s') {d : DecisionCall}
    (hread : s.reportedRevision d.reportVersionId = .ok token)
    (hversion : s'.version? d.reportVersionId = some version)
    (hpossible : d.Commits P s' none) :
    d.Commits P s' (some (token : ℤ)) ↔
      ¬ DecidedSince s s' d.reportVersionId ∧ NewestIsOwn s' version := by
  obtain ⟨v, hv, rfl⟩ := reportedRevision_eq_ok_iff.mp hread
  obtain ⟨hmem', hid'⟩ := mem_of_version? hversion
  obtain ⟨hmem, hid⟩ := mem_of_version? hv
  obtain rfl := hs'.version_unique (hgrows.versions hmem) hmem'
    (hid.trans hid'.symm)
  rw [commits_some_iff hversion hpossible]
  by_cases hdecided : DecidedSince s s' d.reportVersionId
  · refine iff_of_false ?_ fun h => h.1 hdecided
    obtain ⟨a, ha, haid, hnew⟩ := hdecided
    have hreport := reportId_of_reportVersionId hs' hmem' ha
      (haid.trans hid.symm)
    have hlt := latestApprovalRevision_lt_of_decidedSince hordered hgrows ha
      hnew
    have hle := versionRevision_le_latest hs hmem
    rw [hreport] at hlt
    rw [hid] at hle
    exact (lt_of_le_of_lt hle hlt).ne
  · rw [← latestApproval_of_not_decidedSince hordered hgrows hdecided, ← hid,
      versionRevision_eq_latest_iff hs' hordered hmem', hid]
    exact ⟨fun h => ⟨hdecided, h⟩, fun h => h.2⟩

/-! ## One more decision -/

theorem version?_of_mem (hs : WellOwned s) (hversion : version ∈ s.versions) :
    s.version? version.reportVersionId = some version := by
  cases hfound : s.version? version.reportVersionId with
  | none =>
      have hnone := List.find?_eq_none.mp hfound version hversion
      simp at hnone
  | some v =>
      obtain ⟨hv, hid⟩ := mem_of_version? hfound
      rw [hs.version_unique hv hversion hid]

theorem decidedSince_append_iff {s'' : Store}
    (happend : s''.approvals = s'.approvals ++ [a]) {reportVersionId : String}
    (hother : a.reportVersionId ≠ reportVersionId) :
    DecidedSince s s'' reportVersionId ↔ DecidedSince s s' reportVersionId := by
  constructor
  · rintro ⟨b, hb, hid, hnew⟩
    rw [happend] at hb
    rcases List.mem_append.mp hb with hb | hb
    · exact ⟨b, hb, hid, hnew⟩
    · exact absurd (List.mem_singleton.mp hb ▸ hid) hother
  · rintro ⟨b, hb, hid, hnew⟩
    exact ⟨b, happend ▸ List.mem_append_left _ hb, hid, hnew⟩

theorem newestIsOwn_append_iff (hordered : DecisionsOrdered s')
    (happend : s'.approvals = s.approvals ++ [a])
    (hother : a.reportVersionId ≠ version.reportVersionId) :
    NewestIsOwn s' version ↔
      a.reportId ≠ version.reportId ∧ NewestIsOwn s version := by
  have hincreasing := hordered.increasing
  rw [happend] at hincreasing
  rw [NewestIsOwn, NewestIsOwn, Store.approvalsOfReport,
    Store.approvalsOfReport, happend, List.filter_append,
    List.filter_singleton]
  by_cases hreport : a.reportId = version.reportId
  · refine iff_of_false (fun hown => hother (hown a ?_)) fun h => h.1 hreport
    simp only [hreport, decide_true, cond_true]
    rw [insertionSort_revision_concat, List.getLast?_concat]
    intro b hb
    obtain ⟨hb, hbreport⟩ := List.mem_filter.mp hb
    exact (List.pairwise_append.mp hincreasing).2.2 b hb a
      List.mem_cons_self ((of_decide_eq_true hbreport).trans hreport.symm)
  · simp [hreport]

/-- A decision on another version keeps a token as good as it was exactly when
it is on another report or the token was already bad. -/
theorem token_kept_iff {s'' : Store} (hs : WellOwned s) (hs' : WellOwned s')
    (hs'' : WellOwned s'') (hordered' : DecisionsOrdered s')
    (hordered'' : DecisionsOrdered s'') (hgrows' : Grows s s')
    (hgrows'' : Grows s' s'') {d d' : DecisionCall}
    (hread : s.reportedRevision d.reportVersionId = .ok token)
    (hversion : s'.version? d.reportVersionId = some version)
    (hpossible : d.Commits P s' none)
    (happend : s''.approvals = s'.approvals ++ [a])
    (hother : a.reportVersionId ≠ d.reportVersionId)
    (hsame : d'.reportVersionId = d.reportVersionId)
    (hpossible' : d'.Commits P s'' none) :
    (d'.Commits P s'' (some (token : ℤ)) ↔
        d.Commits P s' (some (token : ℤ))) ↔
      a.reportId ≠ version.reportId ∨
        DecidedSince s s' d.reportVersionId ∨ ¬ NewestIsOwn s' version := by
  obtain ⟨hmem, hid⟩ := mem_of_version? hversion
  have hversion'' := version?_of_mem hs'' (hgrows''.versions hmem)
  have hgrows : Grows s s'' :=
    ⟨List.Subset.trans hgrows'.versions hgrows''.versions,
      hgrows'.approvals.trans hgrows''.approvals⟩
  rw [hid, ← hsame] at hversion''
  rw [token_accepted_iff hs hs' hordered' hgrows' hread hversion hpossible,
    token_accepted_iff hs hs'' hordered'' hgrows (hsame ▸ hread) hversion''
      hpossible', hsame, decidedSince_append_iff happend hother,
    newestIsOwn_append_iff hordered'' happend (hid ▸ hother)]
  by_cases hdecided : DecidedSince s s' d.reportVersionId
  · simp [hdecided]
  · by_cases hown : NewestIsOwn s' version
    · simp [hdecided, hown]
    · simp [hown]

end

/-- After its token was read, and whatever was done in between, a decision on
a version is accepted with that token exactly when no decision on the version
was stored in between, if and only if the newest decision on the report is on
the version or the version was decided in between.  A decision on another
version keeps the token as good as it was exactly when it is on another
report, the version was decided in between, or the token was already bad. -/
theorem approval_token_iff (P : Platform) (world : World)
    (before between : List Op) (d : DecisionCall) (token : ℕ)
    (version : ReportVersion)
    (hread : (reached P world before).reportedRevision d.reportVersionId =
      .ok token)
    (hversion : (reached P world (before ++ between)).version?
      d.reportVersionId = some version)
    (hpossible : d.Commits P (reached P world (before ++ between)) none) :
    ((d.Commits P (reached P world (before ++ between)) (some (token : ℤ)) ↔
        ¬ DecidedSince (reached P world before)
          (reached P world (before ++ between)) d.reportVersionId) ↔
      NewestIsOwn (reached P world (before ++ between)) version ∨
        DecidedSince (reached P world before)
          (reached P world (before ++ between)) d.reportVersionId) ∧
    ∀ (op : Op) (a : ApprovalRecord) (d' : DecisionCall),
      (reached P world (before ++ between ++ [op])).approvals =
        (reached P world (before ++ between)).approvals ++ [a] →
      a.reportVersionId ≠ d.reportVersionId →
      d'.reportVersionId = d.reportVersionId →
      d'.Commits P (reached P world (before ++ between ++ [op])) none →
      ((d'.Commits P (reached P world (before ++ between ++ [op]))
            (some (token : ℤ)) ↔
          d.Commits P (reached P world (before ++ between))
            (some (token : ℤ))) ↔
        a.reportId ≠ version.reportId ∨
          DecidedSince (reached P world before)
            (reached P world (before ++ between)) d.reportVersionId ∨
          ¬ NewestIsOwn (reached P world (before ++ between)) version) := by
  have hgrows : Grows (reached P world before)
      (reached P world (before ++ between)) := by
    rw [reached, reached, run_append]
    exact (appendOnly_run P _ between).grows
  constructor
  · rw [token_accepted_iff (wellOwned_reached world before)
      (wellOwned_reached world (before ++ between))
      (decisionsOrdered_reached world (before ++ between)) hgrows hread
      hversion hpossible]
    by_cases hdecided : DecidedSince (reached P world before)
        (reached P world (before ++ between)) d.reportVersionId
    · simp [hdecided]
    · simp [hdecided]
  · intro op a d' happend hother hsame hpossible'
    refine token_kept_iff (wellOwned_reached world before)
      (wellOwned_reached world (before ++ between))
      (wellOwned_reached world (before ++ between ++ [op]))
      (decisionsOrdered_reached world (before ++ between))
      (decisionsOrdered_reached world (before ++ between ++ [op])) hgrows ?_
      hread hversion hpossible happend hother hsame hpossible'
    rw [reached, reached, run_concat]
    exact (appendOnly_step P _ op).grows

/-! ## A decision on another version of the report -/

/-- A platform whose digests are the beginnings of what they are taken of. -/
def headPlatform : Platform where
  toPlatform := { spelledPlatform.toPlatform with
    sha256 := fun bytes =>
      String.ofList ((bytes.data.toList.take 31).map Char.ofUInt8) }
  casefold := spelledPlatform.casefold
  isWord := spelledPlatform.isWord
  str := spelledPlatform.str
  int := spelledPlatform.int
  derivedOutputRootId := spelledPlatform.derivedOutputRootId

/-- One report with two versions, the second with an AI request. -/
def twoVersions : List Op :=
  oneVersion [] ++
    [.createVersion
      { versionArgs [] with aiAssistanceRequestIds := .arr [.str "q"] }
      (callAt 3 "w")]

def firstRejected : List Op :=
  [.reject "v" (.str "a") (.str "w") none (callAt 4 "x")]

def rejectSecond : DecisionCall :=
  .reject "w" (.str "a") (.str "w") (callAt 5 "y")

theorem rejectSecond_facts :
    ((reached headPlatform oneCase twoVersions).reportedRevision
        "w").toOption = some 0 ∧
      (reached headPlatform oneCase (twoVersions ++ firstRejected)).versions.map
        ReportVersion.reportVersionId = ["v", "w"] ∧
      (reached headPlatform oneCase
        (twoVersions ++ firstRejected)).approvals.map
          ApprovalRecord.reportVersionId = ["v"] ∧
      (reject headPlatform "w" (.str "a") (.str "w") none (callAt 5 "y")
        (reached headPlatform oneCase
          (twoVersions ++ firstRejected))).toOption.isSome = true ∧
      (reject headPlatform "w" (.str "a") (.str "w") (some 0)
        (callAt 5 "y") (reached headPlatform oneCase
          (twoVersions ++ firstRejected))).toOption.isSome = false := by
  decide +kernel

theorem rejectSecond_commits :
    rejectSecond.Commits headPlatform
      (reached headPlatform oneCase (twoVersions ++ firstRejected)) none := by
  obtain ⟨-, -, -, hpossible, -⟩ := rejectSecond_facts
  exact commit_result_eq_ok_iff.mpr (exists_ok_of_isSome hpossible)

theorem rejectSecond_undecided :
    ¬ DecidedSince (reached headPlatform oneCase twoVersions)
      (reached headPlatform oneCase (twoVersions ++ firstRejected)) "w" := by
  rintro ⟨a, ha, hid, -⟩
  obtain ⟨-, -, hdecisions, -, -⟩ := rejectSecond_facts
  have hmem := List.mem_map_of_mem (f := ApprovalRecord.reportVersionId) ha
  rw [hdecisions, hid] at hmem
  simp at hmem

/-- The token of the second version is refused although only the first version
was decided. -/
theorem token_refused_by_other_version :
    ¬ ∀ (P : Platform) (world : World) (before between : List Op)
      (d : DecisionCall) (token : ℕ),
      (reached P world before).reportedRevision d.reportVersionId =
        .ok token →
      d.Commits P (reached P world (before ++ between)) none →
      (d.Commits P (reached P world (before ++ between)) (some (token : ℤ)) ↔
        ¬ DecidedSince (reached P world before)
          (reached P world (before ++ between)) d.reportVersionId) := by
  intro h
  obtain ⟨hread, -, -, -, hrefused⟩ := rejectSecond_facts
  have haccepted := (h headPlatform oneCase twoVersions firstRejected
    rejectSecond 0 (eq_ok_of_toOption hread) rejectSecond_commits).mpr
      rejectSecond_undecided
  obtain ⟨r, hr⟩ := commit_result_eq_ok_iff.mp haccepted
  rw [Nat.cast_zero] at hr
  rw [hr] at hrefused
  cases hrefused

/-- The condition decides the case of the refused token. -/
theorem token_of_second_version :
    ∃ version, (reached headPlatform oneCase
        (twoVersions ++ firstRejected)).version? "w" = some version ∧
      ((rejectSecond.Commits headPlatform
          (reached headPlatform oneCase (twoVersions ++ firstRejected))
          (some ((0 : ℕ) : ℤ)) ↔
        ¬ DecidedSince (reached headPlatform oneCase twoVersions)
          (reached headPlatform oneCase (twoVersions ++ firstRejected))
          "w") ↔
      NewestIsOwn (reached headPlatform oneCase
          (twoVersions ++ firstRejected)) version ∨
        DecidedSince (reached headPlatform oneCase twoVersions)
          (reached headPlatform oneCase (twoVersions ++ firstRejected))
          "w") := by
  obtain ⟨hread, hversions, -, -, -⟩ := rejectSecond_facts
  have hmem : "w" ∈ (reached headPlatform oneCase
      (twoVersions ++ firstRejected)).versions.map
        ReportVersion.reportVersionId := by simp [hversions]
  obtain ⟨version, hversion, hid⟩ := List.mem_map.mp hmem
  have hfound := version?_of_mem
    (wellOwned_reached oneCase (twoVersions ++ firstRejected)) hversion
  rw [hid] at hfound
  exact ⟨version, hfound, (approval_token_iff headPlatform oneCase twoVersions
    firstRejected rejectSecond 0 version (eq_ok_of_toOption hread) hfound
    rejectSecond_commits).1⟩

end ApexForensic.Reports
