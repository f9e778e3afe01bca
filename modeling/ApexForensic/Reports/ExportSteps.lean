import ApexForensic.Reports.Ownership

/-!
# What the operations do to exports

Rendering and recording only move the exports that are there, and never back
to prepared.  Preparing adds at most one package and one export, which names
the package and the latest approval.
-/

namespace ApexForensic.Reports

open ApexForensic.Support ApexForensic.Domain

variable {m : ExportManifest} {inputs : CallInputs} {s' : Store}

/-! ## How manifests move -/

@[simp] theorem ExportStatus.movesTo_self (x : ExportStatus) :
    x.movesTo x = true := by
  simp [movesTo]

theorem ExportStatus.movesTo_trans {x y z : ExportStatus}
    (hxy : x.movesTo y = true) (hyz : y.movesTo z = true) :
    x.movesTo z = true := by
  cases x <;> cases y <;> cases z <;> simp_all [movesTo, isOpen]

/-- The same export, later. -/
structure Descends (old new : ExportManifest) : Prop where
  exportManifestId : new.exportManifestId = old.exportManifestId
  reportVersionId : new.reportVersionId = old.reportVersionId
  approvalId : new.approvalId = old.approvalId
  renderPackageId : new.renderPackageId = old.renderPackageId
  status : old.status.movesTo new.status = true

/-- The export descends from one of the store. -/
def Linked (s : Store) (m : ExportManifest) : Prop :=
  ∃ old ∈ s.manifests, Descends old m

theorem linked_of_mem {s : Store} (h : m ∈ s.manifests) : Linked s m :=
  ⟨m, h, rfl, rfl, rfl, rfl, m.status.movesTo_self⟩

theorem Linked.update {s : Store} (h : Linked s m) (status : ExportStatus)
    (warnings : List Json) (hmoves : m.status.movesTo status = true) :
    Linked s { m with status, warnings } := by
  obtain ⟨old, hold, hdescends⟩ := h
  exact ⟨old, hold, hdescends.exportManifestId, hdescends.reportVersionId,
    hdescends.approvalId, hdescends.renderPackageId,
    ExportStatus.movesTo_trans hdescends.status hmoves⟩

/-- Every export of the later store descends from one of the earlier, and the
packages are the same. -/
structure Follows (s t : Store) : Prop where
  manifests : ∀ m ∈ t.manifests, Linked s m
  packages : t.packages = s.packages

theorem follows_refl (s : Store) : Follows s s :=
  ⟨fun _ hm => linked_of_mem hm, rfl⟩

/-- The computation keeps following a store. -/
def KeepsFollowing (s t t' : Store) : Prop :=
  Follows s t → Follows s t'

instance (s : Store) : Std.Refl (KeepsFollowing s) where
  refl _ h := h

/-- The computation keeps following a store that the export descends from. -/
def MovesFrom (s : Store) (m : ExportManifest) (t t' : Store) : Prop :=
  Linked s m → KeepsFollowing s t t'

instance (s : Store) (m : ExportManifest) : Std.Refl (MovesFrom s m) where
  refl _ _ h := h

instance (s : Store) (m : ExportManifest) : IsTrans Store (MovesFrom s m) where
  trans _ _ _ h h' hm hs := h' hm (h hm hs)

section

variable {P : Platform} {s : Store}

theorem follows_update {t : Store} (hfollows : Follows s t) (hm : Linked s m) :
    Follows s (t.updateReportExportManifest m) := by
  refine ⟨fun m' hm' => ?_, hfollows.packages⟩
  rcases mem_updateRow hm' with rfl | hm'
  · exact hm
  · exact hfollows.manifests m' hm'

variable (P s) in
theorem followsLaw (exportManifestId : String) :
    CallLaw P exportManifestId (KeepsFollowing s) (MovesFrom s) where
  manifest _ :=
    { audit := by
        intro _ _ _ _ _ t t' _ _ h _ hfollows
        obtain ⟨event, rfl⟩ := appendExportAudit_spec h
        exact ⟨hfollows.manifests, hfollows.packages⟩
      update := by
        intro status warnings t t' _ hmoves h hm hfollows
        obtain ⟨-, rfl⟩ := ok_pair_inj h
        exact follows_update hfollows (hm.update _ _ hmoves)
      completion := by
        intro artifact warnings _ t t' _ hopen _ h hm hfollows
        obtain ⟨report, -, rfl⟩ := saveCompletion_spec h
        have hupdate := follows_update hfollows (hm.update .completed warnings
          (by simp [ExportStatus.movesTo, hopen]))
        exact ⟨hupdate.manifests, hupdate.packages⟩ }
  read hm h hfollows :=
    h (hfollows.manifests _ (getExportManifest_mem hm).1) hfollows
  again _ h _ := h

/-! ## Preparing -/

theorem requireApprovedVersion_eq_ok {version : ReportVersion}
    {approval : ApprovalRecord}
    (h : s.requireApprovedVersion version = .ok approval) :
    s.latestApproval version.reportVersionId = some approval ∧
      approval.decision = .approved := by
  rw [Store.requireApprovedVersion] at h
  split at h
  · cases h
  · rename_i latest hlatest
    split at h
    · cases h
    split at h
    · cases h
    · rename_i hdecision hfingerprint
      obtain rfl := Except.ok.inj h
      exact ⟨hlatest, not_not.mp hdecision⟩

theorem prepareExportRead_eq_ok {args : PrepareArgs} {plan : ExportPlan}
    (h : prepareExportRead P s args = .ok plan) :
    s.version? args.reportVersionId = some plan.version ∧
      s.latestApproval plan.version.reportVersionId = some plan.approval ∧
      plan.approval.decision = .approved := by
  obtain ⟨createdBy, -, h⟩ := bind_ok h
  obtain ⟨redaction, -, h⟩ := bind_ok h
  obtain ⟨root, -, h⟩ := bind_ok h
  obtain ⟨version, hversion, h⟩ := bind_ok h
  obtain ⟨approval, happroval, h⟩ := bind_ok h
  obtain ⟨-, h⟩ := check_ok h
  obtain ⟨-, h⟩ := check_ok h
  obtain ⟨-, h⟩ := check_ok h
  obtain ⟨format, -, h⟩ := bind_ok h
  obtain ⟨filename, -, h⟩ := bind_ok h
  obtain ⟨-, h⟩ := check_ok h
  obtain rfl := Except.ok.inj h
  exact ⟨getVersion_eq_ok_iff.mp hversion,
    requireApprovedVersion_eq_ok happroval⟩

def ExportPlan.packageArgs (plan : ExportPlan) (staleConfirmed : Bool) :
    PackageArgs where
  reportVersionId := plan.version.reportVersionId
  createdBy := .str plan.createdBy
  forExport := true
  custodySnapshotId := plan.approval.custodySnapshotId
  staleConfirmed := staleConfirmed

/-- The package was stored for the same content. -/
def PackageFound (P : Platform) (s : Store) (args : PackageArgs)
    (package : RenderPackage) : Prop :=
  ∃ version custodySnapshotId evidenceManifest,
    s.version? args.reportVersionId = some version ∧
    packageCustody s args version = .ok custodySnapshotId ∧
    version.evidenceIds.mapM (evidenceManifestItem s.world) =
      .ok evidenceManifest ∧
    s.packageByFingerprint? (packageFingerprint P version evidenceManifest
      custodySnapshotId args.forExport) = some package

theorem createRenderPackageRead_eq_ok {args : PackageArgs}
    {package : RenderPackage} {isNew : Bool}
    (h : createRenderPackageRead P s args inputs = .ok (package, isNew)) :
    (isNew = false ∧ PackageFound P s args package) ∨
      (isNew = true ∧
        package.approvalState = s.approvalState args.reportVersionId) := by
  obtain ⟨createdBy, -, h⟩ := bind_ok h
  obtain ⟨version, hversion, h⟩ := bind_ok h
  obtain ⟨custodySnapshotId, hcustody, h⟩ := bind_ok h
  obtain ⟨-, h⟩ := check_ok h
  obtain ⟨evidenceManifest, hevidence, h⟩ := bind_ok h
  obtain ⟨-, h⟩ := check_ok h
  have htarget := getVersion_eq_ok_iff.mp hversion
  dsimp only at h
  split at h
  · rename_i existing hfound
    obtain ⟨rfl, rfl⟩ := ok_pair_inj h
    exact Or.inl ⟨rfl, version, custodySnapshotId, evidenceManifest, htarget,
      hcustody, hevidence, hfound⟩
  · obtain ⟨report, -, h⟩ := bind_ok h
    obtain ⟨now, -, h⟩ := bind_ok h
    obtain ⟨rfl, rfl⟩ := ok_pair_inj h
    rw [← (mem_of_version? htarget).2]
    exact Or.inr ⟨rfl, rfl⟩

/-- What a package call returns was found, or is new and records the approval
state of its version. -/
theorem createRenderPackage_eq_ok {args : PackageArgs} {package : RenderPackage}
    (h : createRenderPackage P args inputs s = .ok (package, s')) :
    (PackageFound P s args package ∧ s' = s) ∨
    (package.approvalState = s.approvalState args.reportVersionId ∧
      s' = { s with packages := s.packages ++ [package] } ∧
      ∀ p ∈ s.packages, package.packageId ≠ p.packageId) := by
  rcases createRenderPackage_spec h with ⟨hread, rfl⟩ | ⟨hread, rfl, hkeys⟩
  · rcases createRenderPackageRead_eq_ok hread with ⟨-, hfound⟩ | ⟨hnew, -⟩
    · exact Or.inl ⟨hfound, rfl⟩
    · cases hnew
  · rcases createRenderPackageRead_eq_ok hread with ⟨hold, -⟩ | ⟨-, hstate⟩
    · cases hold
    · exact Or.inr ⟨hstate, rfl, hkeys⟩

theorem saveManifest_eq_ok {manifest : ExportManifest} {u : Unit}
    (h : saveManifest manifest inputs s = .ok (u, s')) :
    s'.manifests = s.manifests ++ [manifest] ∧ s'.packages = s.packages := by
  obtain ⟨report, -, -, rfl⟩ := saveManifest_spec h
  exact ⟨rfl, rfl⟩

theorem appendExportAudit_eq_ok {manifest : ExportManifest} {action : String}
    {actorId : Option String} {details : Json} {u : Unit}
    (h : appendExportAudit P manifest action actorId details inputs s =
      .ok (u, s')) : s'.manifests = s.manifests ∧ s'.packages = s.packages := by
  obtain ⟨events, rfl⟩ := appendExportAudit_spec h
  exact ⟨rfl, rfl⟩

/-- What `prepare_export` leaves of the exports and packages: nothing new, the
package it stored before it was refused, or the export as well. -/
theorem prepareExport_cases {args : PrepareArgs} {renderer : Renderer}
    {inputs : ℕ → CallInputs}
    (h : (prepareExport P args renderer inputs).after s = s') :
    (s'.manifests = s.manifests ∧ s'.packages = s.packages) ∨
    ∃ plan package t, prepareExportRead P s args = .ok plan ∧
      s.manifestByFingerprint? plan.manifestFingerprint = none ∧
      createRenderPackage P (plan.packageArgs args.staleConfirmed) (inputs 0)
        s = .ok (package, t) ∧
      s'.packages = t.packages ∧
      (s'.manifests = s.manifests ∨
        ∃ warnings, s'.manifests = s.manifests ++
          [newManifest P args plan package renderer.capability
            P.derivedOutputRootId warnings (inputs 1)]) := by
  rcases Service.after_bind_eq h with rfl | ⟨plan, hplan, h⟩
  · exact Or.inl ⟨rfl, rfl⟩
  simp only [Service.after_read] at h
  rcases Service.after_bind_eq h with rfl | ⟨existing, hexisting, h⟩
  · exact Or.inl ⟨rfl, rfl⟩
  simp only [Service.after_read] at h
  replace hexisting := Except.ok.inj hexisting
  cases existing with
  | some manifest =>
      obtain rfl : s = s' := h
      exact Or.inl ⟨rfl, rfl⟩
  | none =>
      rcases Service.after_bind_eq h with hrefused | ⟨package, hpackage, h⟩
      · rcases Service.after_commit_cases _ _ with hsame | ⟨p, hcreate⟩
        · rw [hrefused, hsame]
          exact Or.inl ⟨rfl, rfl⟩
        · rw [← hrefused] at hcreate
          have hcontent := sameContent_createRenderPackage hcreate
          refine Or.inr ⟨plan, p, s', hplan, hexisting, hcreate, rfl, Or.inl ?_⟩
          rcases createRenderPackage_eq_ok hcreate with ⟨-, rfl⟩ | ⟨-, rfl, -⟩
          · rfl
          · rfl
      have hcreate := Service.commit_eq_ok hpackage
      generalize ht : (Service.commit _).after s = t at h hcreate
      have hmanifests : t.manifests = s.manifests := by
        rcases createRenderPackage_eq_ok hcreate with ⟨-, rfl⟩ | ⟨-, rfl, -⟩
        · rfl
        · rfl
      refine Or.inr ⟨plan, package, t, hplan, hexisting, hcreate, ?_⟩
      rcases Service.after_bind_eq h with rfl | ⟨warnings, -, h⟩
      · exact ⟨rfl, Or.inl hmanifests⟩
      simp only [Service.after_read] at h
      rcases Service.after_bind_eq h with hrefused | ⟨u, hsave, h⟩
      · rcases Service.after_commit_cases _ _ with hsame | ⟨u, hsaved⟩
        · rw [hrefused, hsame]
          exact ⟨rfl, Or.inl hmanifests⟩
        · obtain ⟨hadded, hkept⟩ := saveManifest_eq_ok hsaved
          rw [hrefused, hadded, hmanifests]
          exact ⟨hkept, Or.inr ⟨warnings, rfl⟩⟩
      obtain ⟨hadded, hkept⟩ := saveManifest_eq_ok (Service.commit_eq_ok hsave)
      generalize (Service.commit _).after t = v at h hadded hkept
      have hlast : s'.manifests = v.manifests ∧ s'.packages = v.packages := by
        rcases Service.after_bind_eq h with hrefused | ⟨u, haudit, h⟩
        · rcases Service.after_commit_cases _ _ with hsame | ⟨u, haudited⟩
          · rw [hrefused, hsame]
            exact ⟨rfl, rfl⟩
          · rw [hrefused]
            exact appendExportAudit_eq_ok haudited
        · obtain rfl : _ = s' := h
          exact appendExportAudit_eq_ok (Service.commit_eq_ok haudit)
      rw [hlast.1, hlast.2, hadded, hmanifests]
      exact ⟨hkept, Or.inr ⟨warnings, rfl⟩⟩

/-! ## Every operation -/

/-- Rendering and recording only move exports. -/
def Op.movesExports : Op → Bool
  | .renderExport _ _ _ => true
  | .recordExportResult _ _ _ => true
  | _ => false

/-- What an operation does to the packages and exports. -/
inductive ExportWritten (P : Platform) (s : Store) : Op → Store → Prop where
  | same {op : Op} {s' : Store} (hmanifests : s'.manifests = s.manifests)
      (hpackages : s'.packages = s.packages) : ExportWritten P s op s'
  | package {args : PackageArgs} {inputs : CallInputs}
      {package : RenderPackage} {s' : Store}
      (h : createRenderPackage P args inputs s = .ok (package, s')) :
      ExportWritten P s (.createRenderPackage args inputs) s'
  | moved {op : Op} {s' : Store} (hop : op.movesExports = true)
      (h : Follows s s') : ExportWritten P s op s'
  | prepared {args : PrepareArgs} {renderer : Renderer}
      {inputs : ℕ → CallInputs} {plan : ExportPlan} {package : RenderPackage}
      {t s' : Store} (hplan : prepareExportRead P s args = .ok plan)
      (hnew : s.manifestByFingerprint? plan.manifestFingerprint = none)
      (hpackage : createRenderPackage P (plan.packageArgs args.staleConfirmed)
        (inputs 0) s = .ok (package, t))
      (hpackages : s'.packages = t.packages)
      (hmanifests : s'.manifests = s.manifests ∨
        ∃ warnings, s'.manifests = s.manifests ++
          [newManifest P args plan package renderer.capability
            P.derivedOutputRootId warnings (inputs 1)]) :
      ExportWritten P s (.prepareExport args renderer inputs) s'

/-- The packages and exports are the same. -/
structure SameExports (s s' : Store) : Prop where
  manifests : s'.manifests = s.manifests
  packages : s'.packages = s.packages

instance : Std.Refl SameExports where
  refl _ := ⟨rfl, rfl⟩

instance : IsTrans Store SameExports where
  trans _ _ _ h h' :=
    ⟨h'.manifests.trans h.manifests, h'.packages.trans h.packages⟩

theorem SameExports.written {op : Op} (h : SameExports s s') :
    ExportWritten P s op s' :=
  .same h.manifests h.packages

theorem sameExportsLaw : ReviewLaw SameExports where
  header _ := ⟨rfl, rfl⟩
  review _ := ⟨rfl, rfl⟩
  snapshot := ⟨rfl, rfl⟩
  decision _ := ⟨rfl, rfl⟩

theorem step_exportWritten (op : Op) : ExportWritten P s op (step P s op) := by
  cases op with
  | createReport args inputs =>
      refine holds_call (.same rfl rfl) fun _ _ h => ?_
      rw [createReport_eq_ok h]
      exact .same rfl rfl
  | createVersion args inputs =>
      refine holds_call (.same rfl rfl) fun _ _ h => ?_
      rcases createVersion_eq_ok h with ⟨heq, -⟩ | ⟨heq, -, -⟩
      · rw [heq]
        exact .same rfl rfl
      · rw [heq]
        exact .same rfl rfl
  | createRenderPackage args inputs =>
      exact holds_call (.same rfl rfl) fun _ _ h => .package h
  | prepareExport args renderer inputs =>
      rcases prepareExport_cases (P := P) (s := s) rfl with
        ⟨hmanifests, hpackages⟩ |
          ⟨plan, package, t, hplan, hnew, hpackage, hpackages, hmanifests⟩
      · exact .same hmanifests hpackages
      · exact .prepared hplan hnew hpackage hpackages hmanifests
  | renderExport exportManifestId renderer inputs =>
      exact .moved rfl
        ((followsLaw P s exportManifestId).respects_renderExport renderer inputs
          s (follows_refl s))
  | recordExportResult exportManifestId payload inputs =>
      exact .moved rfl
        ((followsLaw P s exportManifestId).respects_recordExportResult payload
          inputs s (follows_refl s))
  | world w => exact .same rfl rfl
  | _ => exact SameExports.written (sameExportsLaw.respects_step rfl)

end

end ApexForensic.Reports
