import ApexForensic.Reports.CustodyCover
import ApexForensic.Reports.ExportSteps

/-!
# Exports under a current approval

An export is checked against the latest approval when it is prepared, and not
again when it is rendered or recorded; the review behind the approval is not
looked at again at all.  When the package found for an export is of its
current approval, nothing is decided on its version while it is open, and the
version is still reviewed as complete, the export becomes prepared and
completed under the approval it records.
-/

namespace ApexForensic.Reports

open ApexForensic.Support ApexForensic.Domain

variable {m : ExportManifest} {s : Store} {approval : ApprovalRecord}
  {package : RenderPackage} {version : ReportVersion} {op : Op}
  {reportVersionId : String}

/-! ## Safe exports -/

/-- The approval that the export and its package record is the latest decision
on their version. -/
def UnderApproval (s : Store) (m : ExportManifest) : Prop :=
  ∃ approval package,
    s.latestApproval m.reportVersionId = some approval ∧
    approval.decision = .approved ∧
    m.approvalId = approval.approvalId ∧
    s.package? m.renderPackageId = some package ∧
    package.approvalState = s.approvalState m.reportVersionId

/-- The version is approved and its review complete, and the export and its
package record that approval. -/
def SafelyExported (s : Store) (m : ExportManifest) : Prop :=
  UnderApproval s m ∧
    reviewStatus (s.reviewEventsOf m.reportVersionId) = .reviewComplete

/-- The export becomes prepared or completed between the two stores. -/
def Becomes (s s' : Store) (m : ExportManifest) : Prop :=
  m ∈ s'.manifests ∧ (m.status = .prepared ∨ m.status = .completed) ∧
    ∀ x ∈ s.manifests, x.exportManifestId = m.exportManifestId →
      x.status ≠ m.status

section

variable (P : Platform)

/-- Every step of the run that makes an export prepared or completed leaves it
safely exported. -/
def ExportsSafely (world : World) (ops : List Op) : Prop :=
  ∀ before op after, ops = before ++ op :: after → ∀ m,
    Becomes (reached P world before) (reached P world (before ++ [op])) m →
    SafelyExported (reached P world (before ++ [op])) m

/-! ## When exports are safe -/

/-- The operation stores a decision on the version, or has passed the checks
of `approve`. -/
def DecidesOn (s : Store) : Op → ReportVersion → Prop
  | .approve args _ _, v => ∃ r, approveRead P s args = .ok (v, r)
  | .reject reportVersionId approverId reason expected inputs, v =>
      s.version? reportVersionId = some v ∧
        (reject P reportVersionId approverId reason expected inputs
          s).toOption.isSome
  | .revokeApproval reportVersionId actorId reason expected inputs, v =>
      s.version? reportVersionId = some v ∧
        (revokeApproval P reportVersionId actorId reason expected inputs
          s).toOption.isSome
  | _, _ => False

/-- A new export under the identifier finds no package of its content but one
of the current approval. -/
def PreparesCurrent (exportManifestId : String) (s : Store) : Op → Prop
  | .prepareExport args renderer inputs =>
      (inputs 1).newId = exportManifestId →
      ∀ plan, prepareExportRead P s args = .ok plan →
        s.manifestByFingerprint? plan.manifestFingerprint = none →
        renderer.capability.supports plan.format = true →
        ∀ package,
          PackageFound P s (plan.packageArgs args.staleConfirmed) package →
          package.approvalState =
            s.approvalState plan.version.reportVersionId
  | _ => True

/-- The operation leaves the approval of the export current. -/
structure KeepsApproval (exportManifestId : String) (s : Store) (op : Op) :
    Prop where
  package : PreparesCurrent P exportManifestId s op
  undecided : ∀ v, DecidesOn P s op v → ∀ m ∈ s.manifests,
    m.exportManifestId = exportManifestId →
    m.reportVersionId = v.reportVersionId → m.status.isOpen = false

/-- The last review action on the version completed its review. -/
def LastCompleted (s : Store) (reportVersionId : String) : Prop :=
  ∃ e, (s.reviewEventsOf reportVersionId).getLast? = some e ∧
    e.action = .markReviewComplete

end

section

variable {P : Platform} {s s' : Store}

/-! ## Decisions -/

theorem approvalState_eq
    (h : s'.latestApproval reportVersionId =
      s.latestApproval reportVersionId) :
    s'.approvalState reportVersionId = s.approvalState reportVersionId := by
  simp only [Store.approvalState, h]

theorem latestApproval_eq (h : s'.approvals = s.approvals)
    (reportVersionId : String) :
    s'.latestApproval reportVersionId = s.latestApproval reportVersionId := by
  rw [Store.latestApproval, Store.approvalsOf, h]
  rfl

theorem appendApproval_latest (hs : WellOwned s)
    (hversion : version ∈ s.versions) {decision : ApprovalDecision}
    {actorId reason : Json} {custodySnapshotId : Option String}
    {expected : Option ℤ} {inputs : CallInputs}
    (h : appendApproval P version decision actorId reason custodySnapshotId
      expected inputs s = .ok (approval, s'))
    (hne : version.reportVersionId ≠ reportVersionId) :
    s'.latestApproval reportVersionId = s.latestApproval reportVersionId := by
  obtain ⟨-, hid, -, -, -, hrevision, -, heq⟩ := appendApproval_eq_ok h
  rw [latestApproval_append hs hversion hid hrevision (by rw [heq]), if_neg hne]

/-- An operation that decides on no version of the identifier leaves its
latest decision. -/
theorem step_latestApproval (hs : WellOwned s)
    (hother : ∀ v, DecidesOn P s op v → v.reportVersionId ≠ reportVersionId) :
    (step P s op).latestApproval reportVersionId =
      s.latestApproval reportVersionId := by
  have hcall : ∀ {α : Type} {f : Store → Except PyError (α × Store)},
      (∀ a s', f s = .ok (a, s') → s'.latestApproval reportVersionId =
        s.latestApproval reportVersionId) →
      (call f s).latestApproval reportVersionId =
        s.latestApproval reportVersionId := fun hf =>
    @holds_call _ _ s (fun t => t.latestApproval reportVersionId =
      s.latestApproval reportVersionId) rfl hf
  cases op with
  | createReport args inputs =>
      refine hcall fun _ _ h => latestApproval_eq ?_ _
      rw [createReport_eq_ok h]
  | createVersion args inputs =>
      refine hcall fun _ _ h => latestApproval_eq ?_ _
      rcases createVersion_eq_ok h with ⟨heq, -⟩ | ⟨heq, -, -⟩
      · rw [heq]
      · rw [heq]
  | setActiveVersion reportId versionId actorId reason inputs =>
      refine hcall fun _ _ h => latestApproval_eq ?_ _
      rw [setActiveVersion_eq_ok h]
  | archiveReport reportId actorId reason inputs =>
      refine hcall fun _ _ h => latestApproval_eq ?_ _
      rw [archiveReport_eq_ok h]
  | review args inputs =>
      refine hcall fun _ _ h => latestApproval_eq ?_ _
      rw [(appendReviewEvent_eq_ok h).2]
  | createCustodySnapshot versionId capturedBy evidenceIds inputs =>
      refine hcall fun _ _ h => latestApproval_eq ?_ _
      obtain ⟨isNew, -, -, rfl⟩ := createCustodySnapshot_eq_ok h
      rfl
  | approve args snapshotInputs inputs =>
      rcases approve_cases (P := P) (s := s) rfl with
        hsame | ⟨version, approverId, reason, t, hread, ht, hrest⟩
      · exact congrArg (Store.latestApproval · reportVersionId) hsame
      have htaken : WellOwned t ∧ t.versions = s.versions ∧
          t.approvals = s.approvals := by
        rcases ht with rfl | ⟨c, hcreate⟩
        · exact ⟨hs, rfl, rfl⟩
        · have ht := hs.of_createCustodySnapshot hcreate
          obtain ⟨isNew, -, -, rfl⟩ := createCustodySnapshot_eq_ok hcreate
          exact ⟨ht, rfl, rfl⟩
      obtain ⟨hownedt, hversions, happrovals⟩ := htaken
      change ((approve P args snapshotInputs inputs).after s).latestApproval
        reportVersionId = _
      rw [← latestApproval_eq happrovals]
      rcases hrest with hrefused | ⟨snapshot, approval, -, -, -, h⟩
      · rw [hrefused]
      · refine appendApproval_latest hownedt ?_ h (hother version ⟨_, hread⟩)
        rw [hversions]
        exact (mem_of_version? (approveRead_eq_ok hread).1).1
  | reject versionId approverId reason expected inputs =>
      refine hcall fun _ _ h => ?_
      obtain ⟨version, text, hversion, happend⟩ := reject_eq_ok h
      refine appendApproval_latest hs (mem_of_version? hversion).1 happend
        (hother version ⟨hversion, ?_⟩)
      rw [h]
      rfl
  | revokeApproval versionId actorId reason expected inputs =>
      refine hcall fun _ _ h => ?_
      obtain ⟨version, latest, text, hversion, -, -, happend⟩ :=
        revokeApproval_eq_ok h
      refine appendApproval_latest hs (mem_of_version? hversion).1 happend
        (hother version ⟨hversion, ?_⟩)
      rw [h]
      rfl
  | createRenderPackage args inputs =>
      exact hcall fun _ _ h =>
        latestApproval_eq (sameContent_createRenderPackage h).approvals _
  | prepareExport args renderer inputs =>
      have h := (sameContentLaw P).respects_prepareExport args renderer inputs s
      exact latestApproval_eq h.approvals _
  | renderExport exportManifestId renderer inputs =>
      have h := (sameContentLaw P).respects_renderExport exportManifestId
        renderer inputs s
      exact latestApproval_eq h.approvals _
  | recordExportResult exportManifestId payload inputs =>
      have h := (sameContentLaw P).respects_recordExportResult exportManifestId
        payload inputs s
      exact latestApproval_eq h.approvals _
  | world w => rfl

/-! ## Packages -/

def PackagesDistinct (s : Store) : Prop :=
  (s.packages.map RenderPackage.packageId).Nodup

theorem ExportWritten.packages_cases (h : ExportWritten P s op s') :
    s'.packages = s.packages ∨
      ∃ package, s'.packages = s.packages ++ [package] ∧
        ∀ p ∈ s.packages, package.packageId ≠ p.packageId := by
  cases h with
  | same hmanifests hpackages => exact Or.inl hpackages
  | package h =>
      rcases createRenderPackage_eq_ok h with ⟨-, rfl⟩ | ⟨-, rfl, hfresh⟩
      · exact Or.inl rfl
      · exact Or.inr ⟨_, rfl, hfresh⟩
  | moved hop h => exact Or.inl h.packages
  | prepared hplan hnew hpackage hpackages hmanifests =>
      rw [hpackages]
      rcases createRenderPackage_eq_ok hpackage with
        ⟨-, rfl⟩ | ⟨-, rfl, hfresh⟩
      · exact Or.inl rfl
      · exact Or.inr ⟨_, rfl, hfresh⟩

theorem PackagesDistinct.of_written (hs : PackagesDistinct s)
    (h : ExportWritten P s op s') : PackagesDistinct s' := by
  rcases h.packages_cases with heq | ⟨package, heq, hfresh⟩
  · rw [PackagesDistinct, heq]
    exact hs
  · rw [PackagesDistinct, heq, List.map_append, List.map_singleton]
    refine List.nodup_append.mpr
      ⟨hs, List.nodup_singleton _, fun id hid id' hid' => ?_⟩
    obtain ⟨p, hp, rfl⟩ := List.mem_map.mp hid
    rw [List.mem_singleton.mp hid']
    exact (hfresh p hp).symm

theorem ExportWritten.package?_kept (h : ExportWritten P s op s')
    {packageId : String} (hpackage : s.package? packageId = some package) :
    s'.package? packageId = some package := by
  rw [Store.package?] at hpackage ⊢
  rcases h.packages_cases with heq | ⟨p, heq, -⟩
  · rw [heq, hpackage]
  · rw [heq, List.find?_append, hpackage]
    rfl

theorem package?_of_mem (hs : PackagesDistinct s) (h : package ∈ s.packages) :
    s.package? package.packageId = some package := by
  rw [Store.package?, List.find?_eq_some_iff_append]
  obtain ⟨before, after, heq⟩ := List.append_of_mem h
  refine ⟨by simp, before, after, heq, fun p hp => ?_⟩
  rw [PackagesDistinct, heq, List.map_append, List.map_cons] at hs
  have hne := (List.nodup_append.mp hs).2.2 p.packageId
    (List.mem_map_of_mem hp) package.packageId List.mem_cons_self
  simpa using hne

theorem createRenderPackage_package? (hs : PackagesDistinct s)
    {args : PackageArgs} {inputs : CallInputs}
    (h : createRenderPackage P args inputs s = .ok (package, s')) :
    s'.package? package.packageId = some package := by
  have hs' := hs.of_written (ExportWritten.package h)
  apply package?_of_mem hs'
  rcases createRenderPackage_eq_ok h with ⟨hfound, rfl⟩ | ⟨-, rfl, -⟩
  · obtain ⟨version, custodySnapshotId, evidence, -, -, -, hfind⟩ := hfound
    exact List.mem_of_find?_eq_some hfind
  · exact List.mem_append_right _ List.mem_cons_self

/-! ## Open exports -/

/-- Every open export under the identifier is under its approval. -/
def OpenUnderApproval (exportManifestId : String) (s : Store) : Prop :=
  ∀ m ∈ s.manifests, m.exportManifestId = exportManifestId →
    m.status.isOpen = true → UnderApproval s m

theorem UnderApproval.of_kept {m' : ExportManifest} (h : UnderApproval s m)
    (hversion : m'.reportVersionId = m.reportVersionId)
    (hid : m'.approvalId = m.approvalId)
    (hpackage : m'.renderPackageId = m.renderPackageId)
    (hlatest : s'.latestApproval m.reportVersionId =
      s.latestApproval m.reportVersionId)
    (hkept : ∀ {packageId package}, s.package? packageId = some package →
      s'.package? packageId = some package) : UnderApproval s' m' := by
  obtain ⟨approval, package, happroval, happroved, hrecorded, hfound, hstate⟩ := h
  refine ⟨approval, package, ?_, happroved, hid.trans hrecorded, ?_, ?_⟩
  · rw [hversion, hlatest, happroval]
  · rw [hpackage]
    exact hkept hfound
  · rw [hversion, approvalState_eq hlatest, hstate]

theorem Descends.isOpen {old new : ExportManifest} (h : Descends old new)
    (hopen : new.status.isOpen = true) : old.status.isOpen = true := by
  have hmoves := h.status
  revert hmoves hopen
  cases old.status <;> cases new.status <;>
    simp [ExportStatus.movesTo, ExportStatus.isOpen]

theorem underApproval_newManifest (hs : PackagesDistinct s) {args : PrepareArgs}
    {renderer : Renderer} {inputs : ℕ → CallInputs} {plan : ExportPlan}
    {t : Store} (hplan : prepareExportRead P s args = .ok plan)
    (hpackage : createRenderPackage P (plan.packageArgs args.staleConfirmed)
      (inputs 0) s = .ok (package, t))
    (hcurrent : ∀ p, PackageFound P s (plan.packageArgs args.staleConfirmed)
      p → p.approvalState = s.approvalState plan.version.reportVersionId)
    (happrovals : s'.approvals = s.approvals)
    (hpackages : s'.packages = t.packages) (rootId : String)
    (warnings : List Json) :
    UnderApproval s' (newManifest P args plan package renderer.capability
      rootId warnings (inputs 1)) := by
  obtain ⟨-, hlatest, happroved⟩ := prepareExportRead_eq_ok hplan
  have hkept := latestApproval_eq happrovals plan.version.reportVersionId
  refine ⟨plan.approval, package, hkept.trans hlatest, happroved, rfl, ?_, ?_⟩
  · have hfound := createRenderPackage_package? hs hpackage
    rw [Store.package?] at hfound ⊢
    rw [hpackages]
    exact hfound
  · change package.approvalState =
      s'.approvalState plan.version.reportVersionId
    rw [approvalState_eq hkept]
    rcases createRenderPackage_eq_ok hpackage with
      ⟨hfound, -⟩ | ⟨hstate, -, -⟩
    · exact hcurrent package hfound
    · exact hstate

/-- Every operation keeps the open exports it does not decide on, and those it
prepares, under their approvals. -/
theorem OpenUnderApproval.step {exportManifestId : String}
    (howned : WellOwned s) (hs : PackagesDistinct s)
    (hinv : OpenUnderApproval exportManifestId s)
    (hcond : KeepsApproval P exportManifestId s op) :
    OpenUnderApproval exportManifestId (step P s op) := by
  have hwritten := step_exportWritten (P := P) (s := s) op
  have hkept : ∀ old ∈ s.manifests, old.exportManifestId = exportManifestId →
      old.status.isOpen = true → ∀ m, Descends old m →
      UnderApproval (Reports.step P s op) m := by
    intro old hold hid hopen m hdescends
    have hlatest : (Reports.step P s op).latestApproval old.reportVersionId =
        s.latestApproval old.reportVersionId := by
      refine step_latestApproval howned fun v hdecides hversion => ?_
      have hclosed := hcond.undecided v hdecides old hold hid hversion.symm
      rw [hopen] at hclosed
      cases hclosed
    exact (hinv old hold hid hopen).of_kept hdescends.reportVersionId
      hdescends.approvalId hdescends.renderPackageId hlatest
      hwritten.package?_kept
  intro m hm hid hopen
  have hdescended : Linked s m → UnderApproval (Reports.step P s op) m := by
    rintro ⟨old, hold, hdescends⟩
    exact hkept old hold (hdescends.exportManifestId.symm.trans hid)
      (hdescends.isOpen hopen) m hdescends
  generalize hs' : Reports.step P s op = s' at *
  cases hwritten with
  | same hmanifests hpackages =>
      rw [hmanifests] at hm
      exact hdescended (linked_of_mem hm)
  | package h =>
      apply hdescended
      rcases createRenderPackage_eq_ok h with ⟨-, rfl⟩ | ⟨-, rfl, -⟩
      · exact linked_of_mem hm
      · exact linked_of_mem hm
  | moved hop h => exact hdescended (h.manifests m hm)
  | @prepared args renderer inputs plan package t _ hplan hnew hpackage
      hpackages hmanifests =>
      rcases hmanifests with hsame | ⟨warnings, hadded⟩
      · rw [hsame] at hm
        exact hdescended (linked_of_mem hm)
      rw [hadded] at hm
      rcases List.mem_append.mp hm with hm | hm
      · exact hdescended (linked_of_mem hm)
      obtain rfl := List.mem_singleton.mp hm
      have hsupports : renderer.capability.supports plan.format = true := by
        by_contra hnot
        simp [newManifest, hnot, ExportStatus.isOpen] at hopen
      have happrovals : s'.approvals = s.approvals := by
        rw [← hs']
        have h := (sameContentLaw P).respects_prepareExport args renderer inputs s
        exact h.approvals
      exact underApproval_newManifest hs hplan hpackage
        (hcond.package hid plan hplan hnew hsupports) happrovals hpackages _ _

/-! ## Runs -/

theorem openUnderApproval_reached {world : World} {exportManifestId : String}
    {ops : List Op}
    (hmeet : StepsMeet (step P) (KeepsApproval P exportManifestId)
      (Store.empty world) ops) :
    OpenUnderApproval exportManifestId (reached P world ops) := by
  have hstep : ∀ s op, (WellOwned s ∧ PackagesDistinct s ∧
      OpenUnderApproval exportManifestId s) →
      KeepsApproval P exportManifestId s op →
      WellOwned (step P s op) ∧ PackagesDistinct (step P s op) ∧
        OpenUnderApproval exportManifestId (step P s op) := by
    rintro s op ⟨howned, hs, hinv⟩ hcond
    exact ⟨howned.of_written (step_written op),
      hs.of_written (step_exportWritten op), hinv.step howned hs hcond⟩
  exact (run_invariant_of_stepsMeet hstep ⟨wellOwned_empty world,
    List.nodup_nil, fun m hm => absurd hm List.not_mem_nil⟩ hmeet).2.2

theorem reviewStatus_of_lastCompleted (h : LastCompleted s reportVersionId) :
    reviewStatus (s.reviewEventsOf reportVersionId) = .reviewComplete := by
  obtain ⟨e, hlast, haction⟩ := h
  rw [reviewStatus, hlast]
  simp only [haction]

/-- Exports become prepared or completed by preparing, rendering or recording
only. -/
theorem Becomes.sameContent (h : Becomes s (step P s op) m) :
    SameContent s (step P s op) := by
  have hwritten := step_exportWritten (P := P) (s := s) op
  obtain ⟨hm, -, hnew⟩ := h
  generalize hs' : step P s op = s' at hm hwritten ⊢
  cases hwritten with
  | same hmanifests hpackages =>
      rw [hmanifests] at hm
      exact absurd rfl (hnew m hm rfl)
  | package hcreate => exact sameContent_createRenderPackage hcreate
  | moved hop hfollows =>
      rw [← hs']
      cases op with
      | renderExport exportManifestId renderer inputs =>
          exact (sameContentLaw P).respects_renderExport exportManifestId
            renderer inputs s
      | recordExportResult exportManifestId payload inputs =>
          exact (sameContentLaw P).respects_recordExportResult exportManifestId
            payload inputs s
      | _ => cases hop
  | @prepared args renderer inputs =>
      rw [← hs']
      exact (sameContentLaw P).respects_prepareExport args renderer inputs s

theorem Becomes.was_open (h : Becomes s s' m)
    (hwritten : ExportWritten P s op s') (hcompleted : m.status = .completed) :
    ∃ old ∈ s.manifests, Descends old m ∧ old.status.isOpen = true := by
  obtain ⟨hm, -, hnew⟩ := h
  suffices hlinked : Linked s m by
    obtain ⟨old, hold, hdescends⟩ := hlinked
    refine ⟨old, hold, hdescends, ?_⟩
    have hne := hnew old hold hdescends.exportManifestId.symm
    have hmoves := hdescends.status
    rw [hcompleted] at hne hmoves
    simpa [ExportStatus.movesTo, Ne.symm hne] using hmoves
  cases hwritten with
  | same hmanifests hpackages =>
      rw [hmanifests] at hm
      exact linked_of_mem hm
  | package hcreate =>
      rcases createRenderPackage_eq_ok hcreate with ⟨-, rfl⟩ | ⟨-, rfl, -⟩
      · exact linked_of_mem hm
      · exact linked_of_mem hm
  | moved hop hfollows => exact hfollows.manifests m hm
  | prepared hplan hunseen hpackage hpackages hmanifests =>
      rcases hmanifests with hsame | ⟨warnings, hadded⟩
      · rw [hsame] at hm
        exact linked_of_mem hm
      rw [hadded] at hm
      rcases List.mem_append.mp hm with hm | hm
      · exact linked_of_mem hm
      · rw [List.mem_singleton.mp hm, newManifest] at hcompleted
        dsimp only at hcompleted
        split at hcompleted
        · cases hcompleted
        · cases hcompleted

/-- In every run, an export becomes prepared and completed under its approval
when the operations up to then keep that approval current and the last review
action on its version completed the review. -/
theorem exportsSafely_reached (P : Platform) (world : World) (ops : List Op)
    (hmeet : ∀ before op after, ops = before ++ op :: after → ∀ m,
      Becomes (reached P world before) (reached P world (before ++ [op])) m →
      StepsMeet (step P) (KeepsApproval P m.exportManifestId)
          (Store.empty world) (before ++ [op]) ∧
        LastCompleted (reached P world before) m.reportVersionId) :
    ExportsSafely P world ops := by
  intro before op after hsplit m hbecomes
  obtain ⟨hsteps, hlast⟩ := hmeet before op after hsplit m hbecomes
  have hlater := openUnderApproval_reached hsteps
  have hearlier := openUnderApproval_reached
    ((stepsMeet_append _ _ _).mp hsteps).1
  rw [reached_concat] at hbecomes hlater ⊢
  generalize reached P world before = s at *
  have hcontent := hbecomes.sameContent
  refine ⟨?_, ?_⟩
  · rcases hbecomes.2.1 with hprepared | hcompleted
    · exact hlater m hbecomes.1 rfl
        (by rw [hprepared]; rfl)
    · obtain ⟨old, hold, hdescends, hopen⟩ :=
        hbecomes.was_open (step_exportWritten op) hcompleted
      have hunder := hearlier old hold hdescends.exportManifestId.symm hopen
      exact hunder.of_kept hdescends.reportVersionId hdescends.approvalId
        hdescends.renderPackageId
        (latestApproval_eq hcontent.approvals _)
        (step_exportWritten op).package?_kept
  · rw [reviewEventsOf_eq hcontent.reviewEvents]
    exact reviewStatus_of_lastCompleted hlast

theorem manifests_eq_nil {world : World} {ops : List Op}
    (hops : ∀ args renderer inputs, .prepareExport args renderer inputs ∉ ops) :
    (reached P world ops).manifests = [] := by
  induction ops using List.reverseRecOn with
  | nil => rfl
  | append_singleton ops op ih =>
      have hnil := ih fun args renderer inputs hmem =>
        hops args renderer inputs (List.mem_append_left _ hmem)
      rw [reached_concat]
      have hwritten := step_exportWritten (P := P) (s := reached P world ops) op
      generalize step P (reached P world ops) op = s' at hwritten
      cases hwritten with
      | same hmanifests hpackages => rw [hmanifests, hnil]
      | package h =>
          rcases createRenderPackage_eq_ok h with ⟨-, rfl⟩ | ⟨-, rfl, -⟩
          · exact hnil
          · exact hnil
      | moved hop h =>
          refine List.eq_nil_iff_forall_not_mem.mpr fun m hm => ?_
          obtain ⟨old, hold, -⟩ := h.manifests m hm
          rw [hnil] at hold
          cases hold
      | prepared hplan hnew hpackage hpackages hmanifests =>
          exact absurd (List.mem_append_right _ List.mem_cons_self) (hops _ _ _)

end

/-! ## An export of a version under review -/

def pdfRenderer : Renderer where
  capability :=
    { rendererId := .str "pdf"
      rendererVersion := .str "1"
      supportedFormats := ["PDF"]
      isAvailable := true
      unavailableReason := .null
      warnings := .arr [] }
  render _ _ := .ok []

def exportArgs : PrepareArgs where
  reportVersionId := "v"
  format := .str "PDF"
  filename := .str "r.pdf"
  createdBy := .str "a"

/-- The calls of the clock and the id generator while an export is prepared. -/
def exportInputs (n : ℕ) : CallInputs :=
  callAt (8 + n) (["q", "x", "u"].getD n "")

theorem prepareExportRead_first (htarget : s.version? "v" = some version)
    (happroved : s.requireApprovedVersion version = .ok approval) :
    ∃ plan, prepareExportRead spelledPlatform s exportArgs = .ok plan ∧
      plan.version = version ∧ plan.approval = approval ∧
      plan.createdBy = "a" ∧ plan.format = .pdf := by
  have hcreatedBy : boundedNonEmpty exportArgs.createdBy "created_by"
    maxActorIdLength = .ok "a" := rfl
  have hredaction : boundedNonEmpty exportArgs.redactionPolicy
    "redaction_policy" maxRedactionPolicyLength = .ok "STANDARD" := rfl
  have hroot : boundedNonEmpty (.str spelledPlatform.derivedOutputRootId)
    "derived_output_root_id" maxIdLength = .ok "root" := rfl
  have hformat : enumValue ExportFormat.members ExportFormat.value
    exportArgs.format "format" = .ok .pdf := rfl
  have hfilename : safeFilename spelledPlatform exportArgs.filename .pdf =
    .ok "r.pdf" := by
      have hname : (safeFilename spelledPlatform exportArgs.filename
        .pdf).toOption = some "r.pdf" := by decide +kernel
      obtain ⟨name, hok⟩ := exists_ok_of_isSome
        (x := safeFilename spelledPlatform exportArgs.filename .pdf)
        (by rw [hname]; rfl)
      rw [hok] at hname
      rw [hok, Option.some.inj hname]
  have hversion : s.getVersion exportArgs.reportVersionId = .ok version :=
    getVersion_eq_ok_iff.mpr htarget
  have hoverwrite : exportArgs.overwritePolicy = "DENY" := rfl
  simp only [prepareExportRead, bind, Except.bind, hcreatedBy, hredaction,
    hroot, hversion, happroved, hformat, hfilename, hoverwrite]
  exact ⟨_, rfl, rfl, rfl, rfl, rfl⟩


theorem prepareExport_first {evidence : List Json} {report : ReportRecord}
    (htarget : s.version? "v" = some version)
    (happroved : s.requireApprovedVersion version = .ok approval)
    (hfresh : version.isStale = false)
    (hevidence : version.evidenceIds.mapM (evidenceManifestItem s.world) =
      .ok evidence) (hcitations : version.citations spelledPlatform = [])
    (hreport : s.report? version.reportId = some report)
    (hpackages : s.packages = []) (hmanifests : s.manifests = [])
    (haudit : s.auditEvents = []) :
    ∃ m, (step spelledPlatform s
        (.prepareExport exportArgs pdfRenderer exportInputs)).manifests =
          [m] ∧
      m.exportManifestId = "x" ∧ m.status = .prepared ∧
      m.reportVersionId = version.reportVersionId := by
  obtain ⟨plan, hplan, rfl, rfl, hcreatedBy, hformat⟩ :=
    prepareExportRead_first htarget happroved
  have hid := (mem_of_version? htarget).2
  have hcreate : ∃ package t, createRenderPackage spelledPlatform
      (plan.packageArgs exportArgs.staleConfirmed) (exportInputs 0) s =
        .ok (package, t) ∧ t = { s with packages := [package] } := by
    have hby : boundedNonEmpty (.str "a") "created_by" maxActorIdLength =
      .ok "a" := rfl
    have hnow : ∃ now, toJsonTimestamp (exportInputs 0).now = .ok now :=
      ⟨_, rfl⟩
    obtain ⟨now, hnow⟩ := hnow
    have hversion : s.getVersion plan.version.reportVersionId =
        .ok plan.version := by
      rw [hid]
      exact getVersion_eq_ok_iff.mpr htarget
    have hfound : ∀ fingerprint,
        s.packageByFingerprint? fingerprint = none := by
      intro fingerprint
      rw [Store.packageByFingerprint?, hpackages]
      rfl
    simp [createRenderPackage, createRenderPackageRead, packageCustody,
      ExportPlan.packageArgs, bind, Except.bind, hcreatedBy, hby, hnow,
      hversion, happroved, hfresh, hevidence, hcitations, hfound,
      Store.getReport, hreport, Store.saveReportRenderPackage, insertRow,
      hpackages]
    exact ⟨_, rfl⟩
  obtain ⟨package, t, hcreate, ht⟩ := hcreate
  have hnone : s.manifestByFingerprint? plan.manifestFingerprint = none := by
    rw [Store.manifestByFingerprint?, hmanifests]
    rfl
  have hvalid : validateRendererCapability spelledPlatform
    pdfRenderer.capability = .ok () := rfl
  have hsupports : pdfRenderer.capability.supports plan.format = true := by
    rw [hformat]
    decide
  generalize hm : newManifest spelledPlatform exportArgs plan package
    pdfRenderer.capability spelledPlatform.derivedOutputRootId []
    (exportInputs 1) = m
  have hstatus : m.status = .prepared := by
    rw [← hm]
    simp [newManifest, hsupports]
  have hreportId : m.reportId = plan.version.reportId := by rw [← hm]; rfl
  have hnow : ∃ now, toJsonTimestamp (exportInputs 1).now = .ok now := ⟨_, rfl⟩
  obtain ⟨now, hnow⟩ := hnow
  have hsave : ∃ u, saveManifest m (exportInputs 1) t = .ok ((), u) ∧
      u.manifests = [m] ∧ u.auditEvents = [] := by
    have hreport' : t.getReport m.reportId = .ok report := by
      have hkept : ({ s with packages := [package] } : Store).report?
          plan.version.reportId = some report := hreport
      rw [ht, hreportId, Store.getReport, hkept]
    have hmanifests' : t.manifests = [] := by rw [ht]; exact hmanifests
    simp only [saveManifest, bind, Except.bind, hreport', hnow,
      Store.saveReportExportManifest, insertRow, hmanifests']
    refine ⟨_, rfl, rfl, ?_⟩
    rw [ht]
    exact haudit
  obtain ⟨u, hsave, hsaved, hempty⟩ := hsave
  have haudit' : ∃ w, appendExportAudit spelledPlatform m "PREPARE"
      (some m.createdBy) (.obj []) (exportInputs 2) u = .ok ((), w) ∧
      w.manifests = u.manifests := by
    have hnow : ∃ now, toJsonTimestamp (exportInputs 2).now = .ok now :=
      ⟨_, rfl⟩
    obtain ⟨now, hnow⟩ := hnow
    simp only [appendExportAudit, bind, Except.bind, hnow,
      Store.appendReportExportAuditEvent, insertRow, hempty]
    exact ⟨_, rfl, rfl⟩
  obtain ⟨w, haudited, hw⟩ := haudit'
  refine ⟨m, ?_, by rw [← hm]; rfl, hstatus, by rw [← hm]; rfl⟩
  rw [← hsaved, ← hw]
  have hunseen : (Except.ok (s.manifestByFingerprint?
      plan.manifestFingerprint) : Except PyError _) = .ok none := by
    rw [hnone]
  have hwarnings : (do
      validateRendererCapability spelledPlatform pdfRenderer.capability
      if pdfRenderer.capability.supports plan.format then return []
      else (boundedWarnings spelledPlatform pdfRenderer.capability.warnings
        "warnings") : Except PyError (List Json)) = .ok [] := by
    rw [hvalid, if_pos hsupports]
    rfl
  rw [ExportPlan.packageArgs] at hcreate
  change ((prepareExport spelledPlatform exportArgs pdfRenderer
    exportInputs).after s).manifests = _
  rw [prepareExport,
    Service.after_bind_of_ok (Service.read_of_ok (σ := Store) hplan),
    Service.after_bind_of_ok (Service.read_of_ok (σ := Store) hunseen)]
  dsimp only
  rw [Service.after_bind_of_ok (Service.commit_of_ok hcreate),
    Service.after_bind_of_ok (Service.read_of_ok (σ := Store) hwarnings), hm,
    Service.after_bind_of_ok (Service.commit_of_ok hsave),
    Service.after_bind_of_ok (Service.commit_of_ok haudited)]
  rfl

/-- The version approved, and then exported. -/
def exportedReview : List Op :=
  approvedReview [] ++ [.prepareExport exportArgs pdfRenderer exportInputs]

def commentedReview : List Op :=
  approvedReview [] ++ [.review (reviewOf .comment) (callAt 7 "n")]

/-- The version approved, commented on, and then exported. -/
def exportedInReview : List Op :=
  commentedReview ++ [.prepareExport exportArgs pdfRenderer exportInputs]

theorem completedStore_exports :
    (completedStore []).versions.map (fun v => (v.reportVersionId, v.reportId,
        v.isStale, v.evidenceIds, (v.citations spelledPlatform).isEmpty)) =
        [("v", "r", false, ["disk"], true)] ∧
      (completedStore []).reports.map ReportRecord.reportId = ["r"] ∧
      (completedStore []).packages.isEmpty = true ∧
      (completedStore []).manifests.isEmpty = true ∧
      (completedStore []).auditEvents.isEmpty = true ∧
      (completedStore []).reviewEvents.map ReviewEvent.reviewEventId =
        ["e", "m"] ∧
      ((completedStore []).reviewEventsOf "v").map ReviewEvent.action =
        [.submitForReview, .markReviewComplete] := by
  decide +kernel

theorem report?_of_mem_keys {reportId : String}
    (h : reportId ∈ s.reports.map ReportRecord.reportId) :
    ∃ report, s.report? reportId = some report := by
  obtain ⟨report, hmem, hid⟩ := List.mem_map.mp h
  rw [← Option.isSome_iff_exists, Store.report?, List.find?_isSome]
  exact ⟨report, hmem, by simp [hid]⟩

/-- Any later store with the versions and the approval of the sample prepares
its first export. -/
theorem approvedReview_prepares {t : Store} {v : ReportVersion}
    {a : ApprovalRecord} (htarget : (completedStore []).version? "v" = some v)
    (hversions : t.versions = (completedStore []).versions)
    (happrovals : t.approvals = [a])
    (hid : a.reportVersionId = v.reportVersionId)
    (happroved : a.decision = .approved)
    (hfingerprint : a.contentFingerprint = v.contentFingerprint)
    (hreports : t.reports.map ReportRecord.reportId = ["r"])
    (hpackages : t.packages = (completedStore []).packages)
    (hmanifests : t.manifests = (completedStore []).manifests)
    (haudit : t.auditEvents = (completedStore []).auditEvents)
    (hworld : t.world = oneCase) :
    ∃ m, (step spelledPlatform t
        (.prepareExport exportArgs pdfRenderer exportInputs)).manifests =
          [m] ∧
      m.exportManifestId = "x" ∧ m.status = .prepared ∧
      m.reportVersionId = "v" := by
  obtain ⟨hdata, -, hnopackages, hnomanifests, hnoaudit, -, -⟩ :=
    completedStore_exports
  obtain ⟨hmem, hvid⟩ := mem_of_version? htarget
  have hv := List.mem_map_of_mem (f := fun v : ReportVersion =>
    (v.reportVersionId, v.reportId, v.isStale, v.evidenceIds,
      (v.citations spelledPlatform).isEmpty)) hmem
  rw [hdata, List.mem_singleton] at hv
  simp only [Prod.mk.injEq] at hv
  obtain ⟨-, hreportId, hfresh, hevidence, hcitations⟩ := hv
  have hlatest := latestApproval_single happrovals
  have hrequired : t.requireApprovedVersion v = .ok a := by
    rw [Store.requireApprovedVersion, ← hid, hlatest]
    simp [happroved, hfingerprint]
  obtain ⟨report, hreport⟩ : ∃ report, t.report? v.reportId = some report := by
    apply report?_of_mem_keys
    rw [hreports, hreportId]
    exact List.mem_cons_self
  have htarget' : t.version? "v" = some v := by
    rw [Store.version?, hversions]
    exact htarget
  have hitems : v.evidenceIds.mapM (evidenceManifestItem t.world) =
      .ok [.obj []] := by
    rw [hevidence, hworld]
    rfl
  rw [← hvid]
  exact prepareExport_first htarget' hrequired hfresh hitems
    (List.isEmpty_iff.mp hcitations) hreport
    (hpackages.trans (List.isEmpty_iff.mp hnopackages))
    (hmanifests.trans (List.isEmpty_iff.mp hnomanifests))
    (haudit.trans (List.isEmpty_iff.mp hnoaudit))

theorem exportedReview_prepares :
    ∃ m, (reached spelledPlatform oneCase exportedReview).manifests = [m] ∧
      m.exportManifestId = "x" ∧ m.status = .prepared ∧
      m.reportVersionId = "v" := by
  obtain ⟨v, a, c, reports, htarget, heq, hreports, hid, happroved,
    hfingerprint, -⟩ := approvedReview_eq [] (Or.inl rfl)
  obtain ⟨-, hkeys, -⟩ := completedStore_exports
  rw [exportedReview, reached_concat, heq]
  exact approvedReview_prepares htarget rfl rfl hid happroved hfingerprint
    (hreports.trans hkeys) rfl rfl rfl (completedStore_world [] (Or.inl rfl))

theorem approvedReview_lastCompleted :
    LastCompleted (reached spelledPlatform oneCase (approvedReview [])) "v" := by
  obtain ⟨v, a, c, reports, -, heq, -⟩ := approvedReview_eq [] (Or.inl rfl)
  obtain ⟨-, -, -, -, -, -, hactions⟩ := completedStore_exports
  have hevents := reviewEventsOf_eq (congrArg Store.reviewEvents heq) "v"
  change _ = (completedStore []).reviewEventsOf "v" at hevents
  rw [LastCompleted, hevents]
  obtain ⟨first, rest, hlist, -, hrest⟩ := List.map_eq_cons_iff.mp hactions
  obtain ⟨e, others, hothers, he, hnil⟩ := List.map_eq_cons_iff.mp hrest
  rw [hlist, hothers, List.map_eq_nil_iff.mp hnil]
  exact ⟨e, rfl, he⟩

theorem approvedReview_packages :
    (reached spelledPlatform oneCase (approvedReview [])).packages = [] := by
  obtain ⟨v, a, c, reports, -, heq, -⟩ := approvedReview_eq [] (Or.inl rfl)
  obtain ⟨-, -, hpackages, -⟩ := completedStore_exports
  rw [heq]
  exact List.isEmpty_iff.mp hpackages

theorem not_prepare_mem_approvedReview (args : PrepareArgs)
    (renderer : Renderer) (inputs : ℕ → CallInputs) :
    .prepareExport args renderer inputs ∉ approvedReview [] := by
  simp [approvedReview, completedAfter, reviewedOnce, oneVersion]

/-- Exported right after its approval, the version is exported safely. -/
theorem exportsSafely_exportedReview :
    ExportsSafely spelledPlatform oneCase exportedReview := by
  apply exportsSafely_reached
  intro before op after hsplit m hbecomes
  rcases split_concat hsplit with
    ⟨hbefore, rfl, -⟩ | ⟨rest, -, hearlier⟩
  · subst hbefore
    have hmem := hbecomes.1
    obtain ⟨prepared, hmanifests, -, -, hversion⟩ := exportedReview_prepares
    change m ∈ (reached spelledPlatform oneCase exportedReview).manifests at hmem
    rw [hmanifests, List.mem_singleton] at hmem
    rw [hmem, hversion]
    refine ⟨stepsMeet_of_splits fun first x later hfirst => ?_,
      approvedReview_lastCompleted⟩
    change KeepsApproval spelledPlatform _ (reached spelledPlatform oneCase
      first) x
    rcases split_concat hfirst with
      ⟨rfl, rfl, -⟩ | ⟨rest, -, hprior⟩
    · refine ⟨fun _ plan _ _ _ package hfound => ?_, fun v h => h.elim⟩
      obtain ⟨version, custody, evidence, -, -, -, hfind⟩ := hfound
      have hnone := approvedReview_packages
      rw [Store.packageByFingerprint?, hnone] at hfind
      cases hfind
    · have hnone : (reached spelledPlatform oneCase first).manifests = [] :=
        manifests_eq_nil fun args renderer inputs hmem =>
          not_prepare_mem_approvedReview args renderer inputs
            (hprior ▸ List.mem_append_left _ hmem)
      have hx : x ∈ approvedReview [] :=
        hprior ▸ List.mem_append_right _ List.mem_cons_self
      refine ⟨?_, fun v _ old hold => ?_⟩
      · cases x with
        | prepareExport args renderer inputs =>
            exact absurd hx (not_prepare_mem_approvedReview _ _ _)
        | _ => trivial
      · rw [hnone] at hold
        cases hold
  · have hnil : (reached spelledPlatform oneCase (before ++ [op])).manifests =
        [] := by
      refine manifests_eq_nil fun args renderer inputs hmem => ?_
      apply not_prepare_mem_approvedReview args renderer inputs
      rw [hearlier]
      rcases List.mem_append.mp hmem with hmem | hmem
      · exact List.mem_append_left _ hmem
      · rw [List.mem_singleton.mp hmem]
        exact List.mem_append_right _ List.mem_cons_self
    rw [Becomes, hnil] at hbecomes
    exact absurd hbecomes.1 List.not_mem_nil

theorem comment_read {report : ReportRecord}
    (htarget : s.version? "v" = some version)
    (hreport : s.report? version.reportId = some report) :
    ∃ event, appendReviewEventRead spelledPlatform s (reviewOf .comment)
        (callAt 7 "n") =
      .ok (event, report.afterReview .comment (callAt 7 "n").now) := by
  have hversion : s.getVersion (reviewOf .comment).reportVersionId =
      .ok version := getVersion_eq_ok_iff.mpr htarget
  have htexts : reviewTexts spelledPlatform (reviewOf .comment) =
    .ok ("a", "w", none, []) := rfl
  have hcheck : checkReviewAction version
      (s.reviewEventsOf version.reportVersionId) (reviewOf .comment) [] =
        .ok () := rfl
  have hnow : ∃ now, toJsonTimestamp (callAt 7 "n").now = .ok now := ⟨_, rfl⟩
  obtain ⟨now, hnow⟩ := hnow
  simp only [appendReviewEventRead, bind, Except.bind, hversion, htexts,
    hcheck, hnow, Store.getReport, hreport]
  exact ⟨_, rfl⟩

theorem commentedReview_eq :
    ∃ event report,
      reached spelledPlatform oneCase commentedReview =
        (reached spelledPlatform oneCase (approvedReview [])).withReview event
          report ∧
      reviewStatus ((reached spelledPlatform oneCase
        commentedReview).reviewEventsOf "v") = .inReview := by
  obtain ⟨v, a, c, reports, htarget, heq, hreports, -⟩ :=
    approvedReview_eq [] (Or.inl rfl)
  obtain ⟨hdata, hkeys, -, -, -, hids, -⟩ := completedStore_exports
  have hhashed := eventsHashed_reached (P := spelledPlatform) oneCase
    (approvedReview [])
  rw [commentedReview, reached_concat]
  have htarget' : (reached spelledPlatform oneCase
      (approvedReview [])).version? "v" = some v := by
    rw [heq]
    exact htarget
  have hv := List.mem_map_of_mem (f := fun v : ReportVersion =>
    (v.reportVersionId, v.reportId, v.isStale, v.evidenceIds,
      (v.citations spelledPlatform).isEmpty)) (mem_of_version? htarget).1
  rw [hdata, List.mem_singleton] at hv
  simp only [Prod.mk.injEq] at hv
  obtain ⟨hvid, hreportId, -⟩ := hv
  obtain ⟨report, hreport⟩ : ∃ report, (reached spelledPlatform oneCase
      (approvedReview [])).report? v.reportId = some report := by
    apply report?_of_mem_keys
    rw [heq, hreportId]
    change "r" ∈ reports.map ReportRecord.reportId
    rw [hreports, hkeys]
    exact List.mem_cons_self
  have hevents : (reached spelledPlatform oneCase
      (approvedReview [])).reviewEvents.map ReviewEvent.reviewEventId =
        ["e", "m"] := by
    rw [heq]
    exact hids
  generalize reached spelledPlatform oneCase (approvedReview []) = s at *
  obtain ⟨event, hread⟩ := comment_read htarget' hreport
  have hfresh : ∀ e ∈ s.reviewEvents, (callAt 7 "n").newId ≠ e.reviewEventId := by
    intro e he hsame
    have hmem := List.mem_map_of_mem (f := ReviewEvent.reviewEventId) he
    rw [hevents, ← hsame] at hmem
    simp [callAt] at hmem
  have happend := appendReviewEvent_of_read Custody.spellOut_injective hhashed
    hread hfresh
  refine ⟨event, _, call_eq_of_ok happend, ?_⟩
  have hstep : step spelledPlatform s (.review (reviewOf .comment)
      (callAt 7 "n")) = s.withReview event _ := call_eq_of_ok happend
  rw [hstep]
  obtain ⟨version, hbuilt⟩ := appendReviewEventRead_eq_ok hread
  obtain rfl := Option.some.inj (htarget'.symm.trans hbuilt.target)
  have hrevision := hbuilt.reviewRevision
  rw [← hbuilt.reportVersionId] at hrevision
  rw [reviewEventsOf_append hrevision rfl,
    if_pos (hbuilt.reportVersionId.trans hvid), reviewStatus,
    List.getLast?_concat]
  simp [hbuilt.action, reviewOf]

/-- A comment reopens the review of the approved version, and its export is
prepared all the same. -/
theorem export_prepared_in_review :
    ¬ ExportsSafely spelledPlatform oneCase exportedInReview := by
  obtain ⟨v, a, c, reports, htarget, heq, hreports, hid, happroved,
    hfingerprint, -⟩ := approvedReview_eq [] (Or.inl rfl)
  obtain ⟨-, hkeys, -, hmanifests, -⟩ := completedStore_exports
  obtain ⟨event, report, hcommented, hstatus⟩ := commentedReview_eq
  have hbefore : (reached spelledPlatform oneCase commentedReview).manifests =
      [] := by
    rw [hcommented, heq]
    exact List.isEmpty_iff.mp hmanifests
  have hprepared : ∃ m, (step spelledPlatform (reached spelledPlatform oneCase
      commentedReview) (.prepareExport exportArgs pdfRenderer
        exportInputs)).manifests = [m] ∧ m.exportManifestId = "x" ∧
      m.status = .prepared ∧ m.reportVersionId = "v" := by
    rw [hcommented, heq]
    exact approvedReview_prepares htarget rfl rfl hid happroved hfingerprint
      ((map_key_updateRow _ _ _).trans (hreports.trans hkeys)) rfl rfl rfl
      (completedStore_world [] (Or.inl rfl))
  obtain ⟨m, hadded, -, hmstatus, hversion⟩ := hprepared
  intro hsafe
  have hexported := hsafe commentedReview _ [] rfl m
  rw [reached_concat] at hexported
  have hbecomes : Becomes (reached spelledPlatform oneCase commentedReview)
      (step spelledPlatform (reached spelledPlatform oneCase commentedReview)
        (.prepareExport exportArgs pdfRenderer exportInputs)) m := by
    refine ⟨by rw [hadded]; exact List.mem_cons_self, Or.inl hmstatus, ?_⟩
    rw [hbefore]
    exact fun x hx => absurd hx List.not_mem_nil
  have hcomplete := (hexported hbecomes).2
  rw [hversion, reviewEventsOf_eq hbecomes.sameContent.reviewEvents,
    hstatus] at hcomplete
  cases hcomplete

end ApexForensic.Reports
