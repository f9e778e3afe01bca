import ApexForensic.Reports.Archive

/-!
# The versions of a report are numbered

Every operation but the creation of a version leaves the latest number of each
header, and a new version takes the number after it.  So the versions of a
report are numbered from one in the order in which they were created.
-/

namespace ApexForensic.Reports

open ApexForensic.Support ApexForensic.Domain

variable {report : ReportRecord} {reportId : String} {actorId reason : Json}
  {inputs : CallInputs} {now : Datetime} {draft : VersionDraft}
  {previous : Option ReportVersion} {revisions : List Json}

/-- The versions of a report, in the order in which they were created. -/
def Store.versionsOf (s : Store) (reportId : String) : List ReportVersion :=
  s.versions.filter fun v => v.reportId = reportId

/-- The versions are the same, and so is the latest number of each header. -/
structure SameNumbers (s s' : Store) : Prop where
  versions : s'.versions = s.versions
  latest : ∀ reportId,
    (s'.report? reportId).map ReportRecord.latestVersionNumber =
      (s.report? reportId).map ReportRecord.latestVersionNumber

instance : Std.Refl SameNumbers where
  refl _ := ⟨rfl, fun _ => rfl⟩

instance : IsTrans Store SameNumbers where
  trans _ _ _ h h' := ⟨h'.versions.trans h.versions, fun reportId =>
    (h'.latest reportId).trans (h.latest reportId)⟩

section

variable {P : Platform} {s s' : Store}

theorem sameNumbers_of_eq (hversions : s'.versions = s.versions)
    (hreports : s'.reports = s.reports) : SameNumbers s s' := by
  refine ⟨hversions, fun reportId => ?_⟩
  rw [Store.report?, Store.report?, hreports]

theorem sameNumbers_of_header {reportId : String} {report : ReportRecord}
    (h : RewritesHeader s reportId report)
    (hreports : s'.reports =
      updateRow ReportRecord.reportId s.reports report)
    (hversions : s'.versions = s.versions) : SameNumbers s s' := by
  obtain ⟨stored, hstored, hid, hlatest⟩ := h
  obtain ⟨hfound, hstoredId⟩ := getReport_eq_ok hstored
  refine ⟨hversions, fun id => ?_⟩
  rw [Store.report?, hreports]
  by_cases h : report.reportId = id
  · have hread : s.reports.find? (fun r => r.reportId = id) = some stored := by
      rw [← h, hid, hstoredId]
      exact hfound
    rw [find?_updateRow_self h hread, Store.report?, hread]
    exact congrArg some hlatest
  · rw [find?_updateRow_of_ne h]
    rfl

/-! ## What keeps the numbers -/

theorem sameNumbersReviewLaw : ReviewLaw SameNumbers where
  header h := sameNumbers_of_header h rfl rfl
  review h := sameNumbers_of_header h rfl rfl
  snapshot := sameNumbers_of_eq rfl rfl
  decision h := sameNumbers_of_header h rfl rfl

theorem sameNumbers_saveManifest {manifest : ExportManifest} {u : Unit}
    (h : saveManifest manifest inputs s = .ok (u, s')) : SameNumbers s s' := by
  obtain ⟨report, hheader, -, rfl⟩ := saveManifest_spec h
  exact sameNumbers_of_header hheader rfl rfl

theorem sameNumbers_saveCompletion {artifact : RenderedArtifact}
    {manifest : ExportManifest} {u : Unit}
    (h : saveCompletion artifact manifest inputs s = .ok (u, s')) :
    SameNumbers s s' := by
  obtain ⟨report, hheader, rfl⟩ := saveCompletion_spec h
  exact sameNumbers_of_header hheader rfl rfl

variable (P) in
theorem sameNumbersLaw : ExportLaw P SameNumbers where
  package h := by
    rcases createRenderPackage_eq_ok h with ⟨-, rfl⟩ | ⟨-, rfl, -⟩
    · exact refl_of SameNumbers _
    · exact sameNumbers_of_eq rfl rfl
  audit h := by
    obtain ⟨events, rfl⟩ := appendExportAudit_spec h
    exact sameNumbers_of_eq rfl rfl
  manifest := sameNumbers_saveManifest
  update h := by
    obtain ⟨-, rfl⟩ := ok_pair_inj h
    exact sameNumbers_of_eq rfl rfl
  completion := sameNumbers_saveCompletion

theorem step_numbers_cases (P : Platform) (s : Store) (op : Op) :
    SameNumbers s (step P s op) ∨
      (∃ args inputs report,
        createReport P s args inputs = .ok (report, step P s op)) ∨
      ∃ args inputs version, op = .createVersion args inputs ∧
        createVersion P s args inputs = .ok (version, step P s op) := by
  cases op with
  | createReport args inputs =>
      rcases call_cases (fun s => createReport P s args inputs) s with
        hsame | ⟨report, hok⟩
      · refine Or.inl ?_
        rw [step, hsame]
        exact refl_of SameNumbers s
      · exact Or.inr (Or.inl ⟨args, inputs, report, hok⟩)
  | createVersion args inputs =>
      rcases call_cases (fun s => createVersion P s args inputs) s with
        hsame | ⟨version, hok⟩
      · refine Or.inl ?_
        rw [step, hsame]
        exact refl_of SameNumbers s
      · exact Or.inr (Or.inr ⟨args, inputs, version, rfl, hok⟩)
  | createRenderPackage args inputs =>
      exact Or.inl (holds_call (refl_of SameNumbers s) fun _ _ =>
        (sameNumbersLaw P).package)
  | prepareExport args renderer inputs =>
      exact Or.inl
        ((sameNumbersLaw P).respects_prepareExport args renderer inputs s)
  | renderExport exportManifestId renderer inputs =>
      exact Or.inl
        ((sameNumbersLaw P).respects_renderExport exportManifestId renderer
          inputs s)
  | recordExportResult exportManifestId payload inputs =>
      exact Or.inl
        ((sameNumbersLaw P).respects_recordExportResult exportManifestId
          payload inputs s)
  | world w => exact Or.inl (sameNumbers_of_eq rfl rfl)
  | _ => exact Or.inl (sameNumbersReviewLaw.respects_step rfl)

/-! ## Creating a version -/

variable {args : CreateVersionArgs} {inputs : CallInputs}
  {version : ReportVersion}

theorem createVersion_of_found
    (hread : VersionRead P s args report draft previous revisions)
    (hfound : s.versionByFingerprint? report.reportId
      (contentFingerprint P report draft revisions) = some version) :
    createVersion P s args inputs = .ok (version, s) := by
  refine bind_eq_ok_iff.mpr ⟨report, hread.header, ?_⟩
  refine check_eq_ok_iff.mpr ⟨hread.notArchived, ?_⟩
  refine bind_eq_ok_iff.mpr ⟨draft, hread.drafted, ?_⟩
  refine bind_eq_ok_iff.mpr ⟨previous, hread.active, ?_⟩
  refine bind_eq_ok_iff.mpr ⟨revisions, hread.revised, ?_⟩
  have hnew : s.versionByFingerprint? report.reportId
      (newVersion P report previous draft revisions inputs).contentFingerprint =
        some version := hfound
  dsimp only
  rw [hnew]

/-! ## Numbers -/

/-- The versions of a report are numbered from one up to the latest number of
its header. -/
structure Numbered (s : Store) : Prop where
  numbers : ∀ reportId,
    (s.versionsOf reportId).map ReportVersion.versionNumber =
      List.range' 1 (s.versionsOf reportId).length
  latest : ∀ reportId report, s.report? reportId = some report →
    report.latestVersionNumber = (s.versionsOf reportId).length
  owned : ∀ v ∈ s.versions, (s.report? v.reportId).isSome = true

theorem numbered_empty (world : World) : Numbered (Store.empty world) where
  numbers _ := rfl
  latest _ _ h := by cases h
  owned := fun _ h => absurd h List.not_mem_nil

theorem Numbered.of_sameNumbers (hs : Numbered s) (h : SameNumbers s s') :
    Numbered s' := by
  have hversions : ∀ reportId, s'.versionsOf reportId =
      s.versionsOf reportId := by
    intro reportId
    rw [Store.versionsOf, h.versions, Store.versionsOf]
  refine ⟨fun reportId => ?_, fun reportId report hreport => ?_,
    fun v hv => ?_⟩
  · rw [hversions]
    exact hs.numbers reportId
  · have hlatest := h.latest reportId
    rw [hreport, Option.map_some, eq_comm, Option.map_eq_some_iff] at hlatest
    obtain ⟨stored, hstored, hnumber⟩ := hlatest
    rw [hversions, ← hs.latest reportId stored hstored, hnumber]
  · rw [h.versions] at hv
    have hlatest := congrArg Option.isSome (h.latest v.reportId)
    rw [Option.isSome_map, Option.isSome_map, hs.owned v hv] at hlatest
    exact hlatest

theorem createReportRead_latest {world : World} {args : CreateReportArgs}
    (h : createReportRead P world args inputs = .ok report) :
    report.latestVersionNumber = 0 := by
  obtain ⟨title, -, h⟩ := bind_ok h
  obtain ⟨createdBy, -, h⟩ := bind_ok h
  obtain ⟨description, -, h⟩ := bind_ok h
  split at h
  · cases h
  · obtain ⟨title, -, h⟩ := bind_ok h
    obtain ⟨-, -, h⟩ := bind_ok h
    obtain ⟨reportType, -, h⟩ := bind_ok h
    obtain ⟨createdAt, -, h⟩ := bind_ok h
    obtain rfl := Except.ok.inj h
    rfl

theorem Numbered.of_createReport (hs : Numbered s) {args : CreateReportArgs}
    {r : ReportRecord} (h : createReport P s args inputs = .ok (r, s')) :
    Numbered s' := by
  obtain ⟨hread, hfresh, rfl⟩ := createReport_spec h
  have hlatest : r.latestVersionNumber = 0 := createReportRead_latest hread
  refine ⟨hs.numbers, fun reportId report hreport => ?_, fun v hv => ?_⟩
  · rw [Store.report?, List.find?_append, Option.or_eq_some_iff] at hreport
    rcases hreport with hold | ⟨hnone, hnew⟩
    · exact hs.latest reportId report hold
    · obtain ⟨hid, rfl⟩ : r.reportId = reportId ∧ r = report := by
        simpa using hnew
      have hnone' : s.versionsOf reportId = [] := by
        refine List.filter_eq_nil_iff.mpr fun v hv heq => ?_
        have howned := hs.owned v hv
        rw [of_decide_eq_true heq, ← hid, hfresh] at howned
        cases howned
      exact hlatest.trans (congrArg List.length hnone').symm
  · have howned := hs.owned v hv
    rw [Store.report?, List.find?_append, Option.isSome_or]
    exact Bool.or_eq_true_iff.mpr (Or.inl howned)

theorem report?_withVersion (hreport : s.report? report.reportId = some report)
    (reportId : String) :
    (s.withVersion report version now).report? reportId =
      if report.reportId = reportId then
        some (report.afterVersion version now)
      else s.report? reportId := by
  have hid : (report.afterVersion version now).reportId = report.reportId := rfl
  split
  · rename_i h
    subst h
    exact find?_updateRow_self hid hreport
  · rename_i h
    exact find?_updateRow_of_ne (hid.trans_ne h)

theorem versionsOf_withVersion (hversion : version.reportId = report.reportId)
    (reportId : String) :
    (s.withVersion report version now).versionsOf reportId =
      if report.reportId = reportId then s.versionsOf reportId ++ [version]
      else s.versionsOf reportId := by
  have hfilter : (s.withVersion report version now).versionsOf reportId =
      (s.versions ++ [version]).filter fun v => v.reportId = reportId := rfl
  rw [hfilter, List.filter_append, List.filter_singleton, hversion]
  split
  · rename_i h
    rw [h, decide_eq_true rfl]
    rfl
  · rename_i h
    rw [decide_eq_false h]
    exact List.append_nil _

theorem Numbered.withVersion (hs : Numbered s)
    (hreport : s.report? report.reportId = some report)
    (hversion : version.reportId = report.reportId)
    (hnumber : version.versionNumber = report.latestVersionNumber + 1) :
    Numbered (s.withVersion report version now) := by
  have hlatest := hs.latest report.reportId report hreport
  refine ⟨fun reportId => ?_, fun reportId r hr => ?_, fun v hv => ?_⟩
  · rw [versionsOf_withVersion hversion]
    split
    · rename_i h
      subst h
      rw [List.map_append, hs.numbers, List.map_singleton, List.length_append,
        List.length_singleton, List.range'_concat, hnumber, hlatest,
        Nat.one_mul, Nat.add_comm 1]
    · exact hs.numbers reportId
  · rw [report?_withVersion hreport] at hr
    rw [versionsOf_withVersion hversion]
    split at hr
    · rename_i h
      subst h
      obtain rfl := Option.some.inj hr
      rw [if_pos rfl, List.length_append, List.length_singleton, ← hlatest]
      exact hnumber
    · rename_i h
      rw [if_neg h]
      exact hs.latest reportId r hr
  · rw [report?_withVersion hreport]
    split
    · rfl
    · rcases List.mem_append.mp hv with hv | hv
      · exact hs.owned v hv
      · rename_i h
        rw [List.mem_singleton.mp hv, hversion] at h
        exact absurd rfl h

theorem VersionRead.report?_eq
    (hread : VersionRead P s args report draft previous revisions) :
    s.report? report.reportId = some report ∧
      report.reportId = args.reportId := by
  obtain ⟨hreport, hid⟩ := getReport_eq_ok hread.header
  rw [hid]
  exact ⟨hreport, rfl⟩

theorem Numbered.of_createVersion (hs : Numbered s)
    (h : createVersion P s args inputs = .ok (version, s')) :
    Numbered s' := by
  obtain ⟨report, draft, previous, revisions, hread, hcases⟩ :=
    createVersion_cases h
  rcases hcases with ⟨-, rfl⟩ | ⟨-, rfl, rfl, -⟩
  · exact hs
  · exact hs.withVersion hread.report?_eq.1 rfl rfl

theorem Numbered.step (hs : Numbered s) (op : Op) :
    Numbered (step P s op) := by
  rcases step_numbers_cases P s op with
    h | ⟨args, inputs, report, h⟩ | ⟨args, inputs, version, -, h⟩
  · exact hs.of_sameNumbers h
  · exact hs.of_createReport h
  · exact hs.of_createVersion h

theorem numbered_reached (P : Platform) (world : World) (ops : List Op) :
    Numbered (reached P world ops) :=
  run_invariant (fun _ op hs => hs.step op) (numbered_empty world) ops

/-! ## Versions stay -/

theorem createVersion_versions
    (h : createVersion P s args inputs = .ok (version, s')) :
    (version ∈ s.versions ∧ s' = s) ∨
      (version ∉ s.versions ∧ s'.versions = s.versions ++ [version]) := by
  rcases createVersion_eq_ok h with ⟨heq, hmem⟩ | ⟨heq, hfresh, -⟩
  · exact Or.inl ⟨hmem, heq⟩
  · refine Or.inr ⟨fun hmem => hfresh version hmem rfl, ?_⟩
    rw [heq]

/-! ## Links -/

/-- The version names the version that the header of its report pointed to,
by its identifier and by its fingerprint. -/
def LinksToActive (s : Store) (version : ReportVersion) : Prop :=
  ∃ report previous, s.report? version.reportId = some report ∧
    activeVersion s report = .ok previous ∧
    version.previousVersionId = report.activeVersionId ∧
    version.previousContentFingerprint =
      previous.map ReportVersion.contentFingerprint

theorem activeVersion_id (h : activeVersion s report = .ok previous) :
    previous.map ReportVersion.reportVersionId = report.activeVersionId := by
  rw [activeVersion] at h
  split at h
  · rename_i hnone
    obtain rfl := Except.ok.inj h
    exact hnone.symm
  · rename_i id hsome
    cases hget : s.getVersion id with
    | error e =>
        rw [hget] at h
        cases h
    | ok v =>
        rw [hget] at h
        obtain rfl := Except.ok.inj h
        rw [hsome, Option.map_some,
          (mem_of_version? (getVersion_eq_ok_iff.mp hget)).2]

theorem linksToActive_newVersion (inputs : CallInputs)
    (hread : VersionRead P s args report draft previous revisions) :
    LinksToActive s
      (newVersion P report previous draft revisions inputs) :=
  ⟨report, previous, hread.report?_eq.1, hread.active,
    activeVersion_id hread.active, rfl⟩

/-- Every stored version was created by an operation of the run, and links to
the version that was active then. -/
theorem created_of_mem (P : Platform) (world : World) (ops : List Op)
    {version : ReportVersion}
    (hmem : version ∈ (reached P world ops).versions) :
    ∃ before args inputs after,
      ops = before ++ .createVersion args inputs :: after ∧
      version ∉ (reached P world before).versions ∧
      createVersion P (reached P world before) args inputs = .ok (version,
        reached P world (before ++ [.createVersion args inputs])) ∧
      LinksToActive (reached P world before) version := by
  obtain ⟨before, op, after, rfl, hnot, hin⟩ := exists_step_of_run
    (P := fun s : Store => version ∈ s.versions) (s := Store.empty world)
    List.not_mem_nil hmem
  rw [run_concat] at hin
  change version ∉ (reached P world before).versions at hnot
  change version ∈ (Reports.step P (reached P world before) op).versions at hin
  have hnumbers := step_numbers_cases P (reached P world before) op
  rcases hnumbers with h | ⟨args, inputs, report, h⟩ |
    ⟨args, inputs, created, rfl, h⟩
  · rw [h.versions] at hin
    exact absurd hin hnot
  · rw [createReport_eq_ok h] at hin
    exact absurd hin hnot
  · obtain ⟨report, draft, previous, revisions, hread, hcases⟩ :=
      createVersion_cases h
    rcases hcases with ⟨-, heq⟩ | ⟨-, hnew, heq, -⟩
    · rw [heq] at hin
      exact absurd hin hnot
    · rw [heq] at hin
      rcases List.mem_append.mp hin with hold | hlast
      · exact absurd hold hnot
      · obtain rfl := List.mem_singleton.mp hlast
        have hlinks := linksToActive_newVersion inputs hread
        rw [← hnew] at hlinks
        have hreached : reached P world
            (before ++ [.createVersion args inputs]) = _ :=
          run_concat (Reports.step P) (Store.empty world) before _
        refine ⟨before, args, inputs, after, rfl, hnot, ?_, hlinks⟩
        rw [hreached]
        exact h

end

end ApexForensic.Reports
