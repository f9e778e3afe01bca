import ApexForensic.Reports.VersionNumbers

/-!
# The store over a run

No operation deletes a row, and an export keeps what it was prepared from
while its status moves on.  Versions, reviews, snapshots, packages and exports
name rows that are stored, so their foreign keys never refuse an operation.
-/

namespace ApexForensic.Reports

open ApexForensic.Support ApexForensic.Domain

section

variable {P : Platform} {s s' : Store} {m : ExportManifest}
  {inputs : CallInputs}

/-! ## Exports stay -/

theorem descends_refl (m : ExportManifest) : Descends m m :=
  ⟨rfl, rfl, rfl, rfl, m.status.movesTo_self⟩

/-- Every export of the earlier store is there, perhaps moved on. -/
def KeepsExports (s s' : Store) : Prop :=
  ∀ m ∈ s.manifests, ∃ m' ∈ s'.manifests, Descends m m'

theorem keepsExports_step (op : Op) (hs : ExportsKeyed s) :
    KeepsExports s (step P s op) := by
  intro m hm
  have hids := (appendOnly_step P s op).manifests
  have hwritten := step_exportWritten (P := P) (s := s) op
  generalize step P s op = s' at hids hwritten ⊢
  suffices hmem : m ∈ s'.manifests ∨ Follows s s' by
    rcases hmem with hmem | hfollows
    · exact ⟨m, hmem, descends_refl m⟩
    · obtain ⟨m', hm', hid⟩ :=
        List.mem_map.mp (hids.subset (List.mem_map_of_mem hm))
      obtain ⟨old, hold, hdescends⟩ := hfollows.manifests m' hm'
      -- the row with the identifier descends from the row with the identifier
      have hsame : old = m := List.inj_on_of_nodup_map hs hold hm
        (hdescends.exportManifestId.symm.trans hid)
      exact ⟨m', hm', hsame ▸ hdescends⟩
  cases hwritten with
  | same hmanifests hpackages => exact Or.inl (hmanifests ▸ hm)
  | package h =>
      rcases createRenderPackage_spec h with ⟨-, rfl⟩ | ⟨-, rfl, -⟩
      · exact Or.inl hm
      · exact Or.inl hm
  | moved hop h => exact Or.inr h
  | prepared hplan hnew hpackage hpackages hmanifests =>
      rcases hmanifests with heq | ⟨warnings, heq⟩
      · exact Or.inl (heq ▸ hm)
      · rw [heq]
        exact Or.inl (List.mem_append_left _ hm)

theorem keepsExports_run (hs : ExportsKeyed s) (ops : List Op) :
    KeepsExports s (run (step P) s ops) := by
  refine @run_related Store Op (step P) ExportsKeyed KeepsExports
    (fun _ op => exportsKeyed_step op)
    (fun _ m hm => ⟨m, hm, descends_refl m⟩) ?_
    (fun _ op => keepsExports_step op) s hs ops
  intro s t u hst htu m hm
  obtain ⟨m', hm', h⟩ := hst m hm
  obtain ⟨m'', hm'', h'⟩ := htu m' hm'
  exact ⟨m'', hm'', h'.exportManifestId.trans h.exportManifestId,
    h'.reportVersionId.trans h.reportVersionId,
    h'.approvalId.trans h.approvalId,
    h'.renderPackageId.trans h.renderPackageId,
    ExportStatus.movesTo_trans h.status h'.status⟩

variable (P) in
/-- Whatever is done later, the rows of a store stay where they are: versions,
review events, decisions, snapshots, packages, artifacts and audit events as
they were, reports and exports under their identifiers, and an export with its
version, its approval and its package. -/
theorem reached_appendOnly_keepsExports (world : World)
    (before after : List Op) :
    AppendOnly (reached P world before) (reached P world (before ++ after)) ∧
      KeepsExports (reached P world before)
        (reached P world (before ++ after)) := by
  rw [reached, reached, run_append]
  exact ⟨appendOnly_run P _ after,
    keepsExports_run (exportsKeyed_reached world before) after⟩

/-! ## What every row names -/

/-- The version is stored. -/
def Store.HasVersion (s : Store) (reportVersionId : String) : Prop :=
  ∃ v ∈ s.versions, v.reportVersionId = reportVersionId

theorem Store.HasVersion.mono {reportVersionId : String}
    (h : s.HasVersion reportVersionId) (hs : AppendOnly s s') :
    s'.HasVersion reportVersionId := by
  obtain ⟨v, hv, hid⟩ := h
  exact ⟨v, hs.versions.subset hv, hid⟩

/-- What an export was prepared from is stored: its version, an approval of
the version, and its package. -/
structure ExportGrounded (s : Store) (m : ExportManifest) : Prop where
  version : s.HasVersion m.reportVersionId
  package : ∃ p ∈ s.packages, p.packageId = m.renderPackageId
  approval : ∃ a ∈ s.approvals, a.approvalId = m.approvalId ∧
    a.reportVersionId = m.reportVersionId ∧ a.decision = .approved

theorem ExportGrounded.mono {m' : ExportManifest} (h : ExportGrounded s m)
    (hs : AppendOnly s s') (hm : Descends m m') : ExportGrounded s' m' := by
  obtain ⟨p, hp, hpackage⟩ := h.package
  obtain ⟨a, ha, happroval, hversion, hdecision⟩ := h.approval
  refine ⟨?_, ⟨p, hs.packages.subset hp, ?_⟩,
    ⟨a, hs.approvals.subset ha, ?_, ?_, hdecision⟩⟩
  · rw [hm.reportVersionId]
    exact h.version.mono hs
  · rw [hm.renderPackageId, hpackage]
  · rw [hm.approvalId, happroval]
  · rw [hm.reportVersionId, hversion]

/-- The references of the snapshots, packages and exports. -/
structure Grounded (s : Store) : Prop where
  custodySnapshots : ∀ c ∈ s.custodySnapshots, s.HasVersion c.reportVersionId
  packages : ∀ p ∈ s.packages, s.HasVersion p.reportVersionId
  manifests : ∀ m ∈ s.manifests, ExportGrounded s m

/-- A package of the new store was there before or is for a stored version. -/
theorem createRenderPackage_cases {args : PackageArgs}
    {package p : RenderPackage}
    (h : createRenderPackage P args inputs s = .ok (package, s'))
    (hp : p ∈ s'.packages) :
    p ∈ s.packages ∨ s.HasVersion p.reportVersionId := by
  rcases createRenderPackage_spec h with ⟨-, rfl⟩ | ⟨hread, rfl, -⟩
  · exact Or.inl hp
  rcases List.mem_append.mp hp with hp | hp
  · exact Or.inl hp
  obtain rfl := List.mem_singleton.mp hp
  obtain ⟨createdBy, -, h⟩ := bind_ok hread
  obtain ⟨version, hversion, h⟩ := bind_ok h
  obtain ⟨custodySnapshotId, -, h⟩ := bind_ok h
  obtain ⟨-, h⟩ := check_ok h
  obtain ⟨evidenceManifest, -, h⟩ := bind_ok h
  obtain ⟨-, h⟩ := check_ok h
  dsimp only at h
  split at h
  · cases (ok_pair_inj h).2
  · obtain ⟨report, -, h⟩ := bind_ok h
    obtain ⟨now, -, h⟩ := bind_ok h
    obtain ⟨rfl, -⟩ := ok_pair_inj h
    have hfound := mem_of_version? (getVersion_eq_ok_iff.mp hversion)
    exact Or.inr ⟨version, hfound.1, rfl⟩

theorem createRenderPackage_mem {args : PackageArgs} {package : RenderPackage}
    (h : createRenderPackage P args inputs s = .ok (package, s')) :
    package ∈ s'.packages := by
  rcases createRenderPackage_eq_ok h with
    ⟨⟨_, _, _, -, -, -, hfound⟩, rfl⟩ | ⟨-, rfl, -⟩
  · exact List.mem_of_find?_eq_some hfound
  · exact List.mem_append_right _ (List.mem_singleton_self _)

/-- The packages of the new store were there before or are for a stored
version. -/
theorem step_packages (op : Op) {p : RenderPackage}
    (hp : p ∈ (step P s op).packages) :
    p ∈ s.packages ∨ s.HasVersion p.reportVersionId := by
  have hwritten := step_exportWritten (P := P) (s := s) op
  cases hwritten with
  | same hmanifests hpackages => exact Or.inl (hpackages ▸ hp)
  | package h => exact createRenderPackage_cases h hp
  | moved hop h => exact Or.inl (h.packages ▸ hp)
  | prepared hplan hnew hpackage hpackages hmanifests =>
      rw [hpackages] at hp
      exact createRenderPackage_cases hpackage hp

/-- An export of the new store was there before or has just been prepared from
what is stored. -/
theorem step_manifests (op : Op) {m : ExportManifest}
    (hm : m ∈ (step P s op).manifests) :
    (∃ old ∈ s.manifests, Descends old m) ∨ ExportGrounded (step P s op) m := by
  have happends := appendOnly_step P s op
  have hwritten := step_exportWritten (P := P) (s := s) op
  cases hwritten with
  | same hmanifests hpackages =>
      exact Or.inl ⟨m, hmanifests ▸ hm, descends_refl m⟩
  | package h =>
      have hold : m ∈ s.manifests := by
        rcases createRenderPackage_spec h with ⟨-, heq⟩ | ⟨-, heq, -⟩
        · rwa [heq] at hm
        · rwa [heq] at hm
      exact Or.inl ⟨m, hold, descends_refl m⟩
  | moved hop h => exact Or.inl (h.manifests m hm)
  | prepared hplan hnew hpackage hpackages hmanifests =>
      rcases hmanifests with heq | ⟨warnings, heq⟩
      · exact Or.inl ⟨m, heq ▸ hm, descends_refl m⟩
      rw [heq] at hm
      rcases List.mem_append.mp hm with hold | hnew
      · exact Or.inl ⟨m, hold, descends_refl m⟩
      obtain rfl := List.mem_singleton.mp hnew
      obtain ⟨hversion, hlatest, hdecision⟩ := prepareExportRead_eq_ok hplan
      obtain ⟨happroval, happroved⟩ := mem_of_latestApproval hlatest
      have hplanned : s.HasVersion _ := ⟨_, (mem_of_version? hversion).1, rfl⟩
      exact Or.inr
        { version := hplanned.mono happends
          package := ⟨_, hpackages ▸ createRenderPackage_mem hpackage, rfl⟩
          approval := ⟨_, happends.approvals.subset happroval, rfl,
            happroved, hdecision⟩ }

theorem grounded_step (hs : Grounded s) (op : Op) :
    Grounded (step P s op) := by
  have happends := appendOnly_step P s op
  refine ⟨fun c hc => ?_, fun p hp => ?_, fun m hm => ?_⟩
  · rcases (step_written op).snapshot_cases hc with hold | ⟨-, -, hversion⟩
    · exact (hs.custodySnapshots c hold).mono happends
    · exact Store.HasVersion.mono hversion happends
  · rcases step_packages op hp with hold | hversion
    · exact (hs.packages p hold).mono happends
    · exact hversion.mono happends
  · rcases step_manifests op hm with ⟨old, hold, hdescends⟩ | hgrounded
    · exact (hs.manifests old hold).mono happends hdescends
    · exact hgrounded

/-! ## References -/

/-- Every row names rows that are stored: a version its report; a review
event, a decision, a snapshot and a package their version; and an export what
it was prepared from. -/
structure ReferencesHold (s : Store) : Prop where
  versions : ∀ v ∈ s.versions, (s.report? v.reportId).isSome = true
  reviewEvents : ∀ e ∈ s.reviewEvents, s.HasVersion e.reportVersionId
  approvals : ∀ a ∈ s.approvals, ∃ v ∈ s.versions,
    v.reportVersionId = a.reportVersionId ∧ v.reportId = a.reportId ∧
      v.contentFingerprint = a.contentFingerprint
  grounded : Grounded s

variable (P) in
theorem referencesHold_reached (world : World) (ops : List Op) :
    ReferencesHold (reached P world ops) := by
  have howned := wellOwned_reached (P := P) world ops
  have hempty : Grounded (Store.empty world) :=
    ⟨List.forall_mem_nil _, List.forall_mem_nil _, List.forall_mem_nil _⟩
  have hstep : ∀ s op, Grounded s → Grounded (step P s op) :=
    fun _ op hs => grounded_step hs op
  exact ⟨(numbered_reached P world ops).owned, howned.reviewed,
    howned.approved, run_invariant hstep hempty ops⟩

end

end ApexForensic.Reports
