import ApexForensic.Reports.Export
import ApexForensic.Support.Run

/-!
# The report service as a system

An operation is a call of the service with its arguments and with what the
clock, the id generator and the renderer return during it, or any change that
other services make.  An operation that raises leaves what it had committed
before.
-/

namespace ApexForensic.Reports

open ApexForensic.Support ApexForensic.Domain

variable {u : Unit} {inputs : CallInputs} {manifest : ExportManifest}
  {exportManifestId : String}

inductive Op where
  | createReport (args : CreateReportArgs) (inputs : CallInputs)
  | createVersion (args : CreateVersionArgs) (inputs : CallInputs)
  | setActiveVersion (reportId reportVersionId : String)
      (actorId reason : Json) (inputs : CallInputs)
  | archiveReport (reportId : String) (actorId reason : Json)
      (inputs : CallInputs)
  | review (args : ReviewArgs) (inputs : CallInputs)
  | createCustodySnapshot (reportVersionId : String) (capturedBy : Json)
      (evidenceIds : Option Json) (inputs : CallInputs)
  | approve (args : ApproveArgs) (snapshotInputs inputs : CallInputs)
  | reject (reportVersionId : String) (approverId reason : Json)
      (expectedApprovalRevision : Option ℤ) (inputs : CallInputs)
  | revokeApproval (reportVersionId : String) (actorId reason : Json)
      (expectedApprovalRevision : Option ℤ) (inputs : CallInputs)
  | createRenderPackage (args : PackageArgs) (inputs : CallInputs)
  | prepareExport (args : PrepareArgs) (renderer : Renderer)
      (inputs : ℕ → CallInputs)
  | renderExport (exportManifestId : String) (renderer : Renderer)
      (inputs : ℕ → CallInputs)
  | recordExportResult (exportManifestId : String)
      (payload : List (String × Json)) (inputs : ℕ → CallInputs)
  | world (w : World)

section

variable (P : Platform)

def call {α : Type} (f : Store → Except PyError (α × Store)) (store : Store) :
    Store :=
  (Service.commit f).after store

def step (store : Store) : Op → Store
  | .createReport args inputs =>
      call (fun s => createReport P s args inputs) store
  | .createVersion args inputs =>
      call (fun s => createVersion P s args inputs) store
  | .setActiveVersion reportId reportVersionId actorId reason inputs =>
      call (fun s =>
        setActiveVersion P s reportId reportVersionId actorId reason inputs)
        store
  | .archiveReport reportId actorId reason inputs =>
      call (fun s => archiveReport P s reportId actorId reason inputs) store
  | .review args inputs =>
      call (fun s => appendReviewEvent P s args inputs) store
  | .createCustodySnapshot reportVersionId capturedBy evidenceIds inputs =>
      call (createCustodySnapshot P reportVersionId capturedBy evidenceIds
        inputs) store
  | .approve args snapshotInputs inputs =>
      (approve P args snapshotInputs inputs).after store
  | .reject reportVersionId approverId reason expected inputs =>
      call (reject P reportVersionId approverId reason expected inputs) store
  | .revokeApproval reportVersionId actorId reason expected inputs =>
      call (revokeApproval P reportVersionId actorId reason expected inputs)
        store
  | .createRenderPackage args inputs =>
      call (createRenderPackage P args inputs) store
  | .prepareExport args renderer inputs =>
      (prepareExport P args renderer inputs).after store
  | .renderExport exportManifestId renderer inputs =>
      (renderExport P exportManifestId renderer inputs).after store
  | .recordExportResult exportManifestId payload inputs =>
      (recordExportResult P exportManifestId payload inputs).after store
  | .world w => { store with world := w }

/-- The store after a list of operations, from the one without reports. -/
def reached (world : World) (ops : List Op) : Store :=
  run (step P) (Store.empty world) ops

end

theorem call_cases {α : Type} (f : Store → Except PyError (α × Store))
    (store : Store) :
    call f store = store ∨ ∃ a, f store = .ok (a, call f store) :=
  Service.after_commit_cases f store

theorem holds_call {α : Type} {f : Store → Except PyError (α × Store)}
    {store : Store} {Q : Store → Prop} (hsame : Q store)
    (h : ∀ a store', f store = .ok (a, store') → Q store') :
    Q (call f store) := by
  rcases call_cases f store with heq | ⟨a, hok⟩
  · rwa [heq]
  · exact h a _ hok

theorem call_eq_of_ok {α : Type} {f : Store → Except PyError (α × Store)}
    {store store' : Store} {a : α} (h : f store = .ok (a, store')) :
    call f store = store' := by
  simp [call, Service.after, Service.commit, h]

/-! ## What exports leave alone -/

/-- The versions, their reviews, approvals and snapshots, and the other
services are the same. -/
structure SameContent (s s' : Store) : Prop where
  versions : s'.versions = s.versions
  reviewEvents : s'.reviewEvents = s.reviewEvents
  approvals : s'.approvals = s.approvals
  custodySnapshots : s'.custodySnapshots = s.custodySnapshots
  world : s'.world = s.world

instance : Std.Refl SameContent where
  refl _ := ⟨rfl, rfl, rfl, rfl, rfl⟩

instance : IsTrans Store SameContent where
  trans _ _ _ h h' :=
    ⟨h'.versions.trans h.versions, h'.reviewEvents.trans h.reviewEvents,
      h'.approvals.trans h.approvals,
      h'.custodySnapshots.trans h.custodySnapshots, h'.world.trans h.world⟩

section

variable {P : Platform} {s s' : Store}

/-- What a package call stores. -/
theorem createRenderPackage_spec {args : PackageArgs} {package : RenderPackage}
    (h : createRenderPackage P args inputs s = .ok (package, s')) :
    (createRenderPackageRead P s args inputs = .ok (package, false) ∧
      s' = s) ∨
    (createRenderPackageRead P s args inputs = .ok (package, true) ∧
      s' = { s with packages := s.packages ++ [package] } ∧
      ∀ p ∈ s.packages, package.packageId ≠ p.packageId) := by
  obtain ⟨⟨new, isNew⟩, hread, h⟩ := bind_ok h
  cases isNew with
  | false =>
      obtain ⟨rfl, rfl⟩ := ok_pair_inj h
      exact Or.inl ⟨hread, rfl⟩
  | true =>
      obtain ⟨t, ht, h⟩ := bind_ok h
      obtain ⟨packages, hinsert, ht⟩ := bind_ok ht
      obtain ⟨rfl, hkeys⟩ := insertRow_eq_ok_iff.mp hinsert
      obtain rfl := Except.ok.inj ht
      obtain ⟨rfl, rfl⟩ := ok_pair_inj h
      refine Or.inr ⟨hread, rfl, fun p hp => ?_⟩
      exact of_decide_eq_false (hkeys _ List.mem_cons_self p hp)

theorem sameContent_createRenderPackage {args : PackageArgs}
    {package : RenderPackage}
    (h : createRenderPackage P args inputs s = .ok (package, s')) :
    SameContent s s' := by
  rcases createRenderPackage_spec h with ⟨-, rfl⟩ | ⟨-, rfl, -⟩
  · exact refl_of SameContent _
  · exact ⟨rfl, rfl, rfl, rfl, rfl⟩

/-- The row is that of the stored header with its latest number. -/
def RewritesHeader (s : Store) (reportId : String) (report : ReportRecord) :
    Prop :=
  ∃ stored, s.getReport reportId = .ok stored ∧
    report.reportId = stored.reportId ∧
    report.latestVersionNumber = stored.latestVersionNumber

theorem appendExportAudit_spec {action : String} {actorId : Option String}
    {details : Json}
    (h : appendExportAudit P manifest action actorId details inputs s =
      .ok (u, s')) :
    ∃ event, s' = { s with auditEvents := s.auditEvents ++ [event] } := by
  obtain ⟨createdAt, -, h⟩ := bind_ok h
  obtain ⟨t, ht, h⟩ := bind_ok h
  obtain ⟨events, hinsert, ht⟩ := bind_ok ht
  obtain rfl := Except.ok.inj ht
  obtain ⟨-, rfl⟩ := ok_pair_inj h
  obtain ⟨rfl, -⟩ := insertRow_eq_ok_iff.mp hinsert
  exact ⟨_, rfl⟩

theorem saveManifest_spec (h : saveManifest manifest inputs s = .ok (u, s')) :
    ∃ report, RewritesHeader s manifest.reportId report ∧
      (∀ m ∈ s.manifests, manifest.exportManifestId ≠ m.exportManifestId) ∧
      s' = { s with manifests := s.manifests ++ [manifest] }.updateReport
        report := by
  obtain ⟨stored, hstored, h⟩ := bind_ok h
  obtain ⟨createdAt, -, h⟩ := bind_ok h
  obtain ⟨t, ht, h⟩ := bind_ok h
  obtain ⟨manifests, hinsert, ht⟩ := bind_ok ht
  obtain rfl := Except.ok.inj ht
  obtain ⟨-, rfl⟩ := ok_pair_inj h
  obtain ⟨rfl, hkeys⟩ := insertRow_eq_ok_iff.mp hinsert
  refine ⟨_, ?_, fun m hm => ?_, rfl⟩
  · exact ⟨stored, hstored, rfl, rfl⟩
  · exact of_decide_eq_false (hkeys _ List.mem_cons_self m hm)

theorem saveCompletion_spec {artifact : RenderedArtifact}
    (h : saveCompletion artifact manifest inputs s = .ok (u, s')) :
    ∃ report, RewritesHeader s manifest.reportId report ∧
      s' = ({ s with artifacts := s.artifacts ++ [artifact]
        }.updateReportExportManifest manifest).updateReport report := by
  obtain ⟨stored, hstored, h⟩ := bind_ok h
  obtain ⟨now, -, h⟩ := bind_ok h
  obtain ⟨t, ht, h⟩ := bind_ok h
  obtain ⟨artifacts, hinsert, ht⟩ := bind_ok ht
  obtain rfl := Except.ok.inj ht
  obtain ⟨-, rfl⟩ := ok_pair_inj h
  obtain ⟨rfl, -⟩ := insertRow_eq_ok_iff.mp hinsert
  refine ⟨_, ?_, rfl⟩
  exact ⟨stored, hstored, rfl, rfl⟩

theorem sameContent_appendExportAudit {action : String}
    {actorId : Option String} {details : Json}
    (h : appendExportAudit P manifest action actorId details inputs s =
      .ok (u, s')) : SameContent s s' := by
  obtain ⟨events, rfl⟩ := appendExportAudit_spec h
  exact ⟨rfl, rfl, rfl, rfl, rfl⟩

theorem sameContent_saveManifest
    (h : saveManifest manifest inputs s = .ok (u, s')) : SameContent s s' := by
  obtain ⟨report, -, -, rfl⟩ := saveManifest_spec h
  exact ⟨rfl, rfl, rfl, rfl, rfl⟩

theorem sameContent_saveUpdate (h : saveUpdate manifest s = .ok (u, s')) :
    SameContent s s' := by
  obtain ⟨-, rfl⟩ := ok_pair_inj h
  exact ⟨rfl, rfl, rfl, rfl, rfl⟩

theorem sameContent_saveCompletion {artifact : RenderedArtifact}
    (h : saveCompletion artifact manifest inputs s = .ok (u, s')) :
    SameContent s s' := by
  obtain ⟨report, -, rfl⟩ := saveCompletion_spec h
  exact ⟨rfl, rfl, rfl, rfl, rfl⟩

/-! ## How exports move -/

/-- The export is waiting for its result. -/
def ExportStatus.isOpen : ExportStatus → Bool
  | prepared => true
  | rendering => true
  | _ => false

/-- An export never becomes prepared again, and becomes rendering or completed
only from an open status. -/
def ExportStatus.movesTo (x y : ExportStatus) : Bool :=
  y = x || !(y.isOpen || y = .completed) || (x.isOpen && y ≠ .prepared)

/-- Every export may fail, be cancelled or lose its renderer. -/
theorem movesTo_of_closed {x y : ExportStatus}
    (h : (y.isOpen || y = .completed) = false) : x.movesTo y = true := by
  simp [ExportStatus.movesTo, h]

theorem renderedArtifact_eq_ok {payload : List (String × Json)}
    {warnings : List Json} {r : RenderedArtifact × Json}
    (h : renderedArtifact P manifest payload warnings inputs = .ok r) :
    r.1.exportManifestId = manifest.exportManifestId := by
  obtain ⟨outputReference, -, h⟩ := bind_ok h
  obtain ⟨-, -, h⟩ := bind_ok h
  obtain ⟨filename, -, h⟩ := bind_ok h
  obtain ⟨sizeBytes, -, h⟩ := bind_ok h
  obtain ⟨sha256, -, h⟩ := bind_ok h
  obtain ⟨-, h⟩ := check_ok h
  obtain ⟨rendererId, -, h⟩ := bind_ok h
  obtain ⟨rendererVersion, -, h⟩ := bind_ok h
  obtain ⟨-, -, h⟩ := bind_ok h
  obtain rfl := Except.ok.inj h
  rfl

theorem getExportManifest_mem {m : ExportManifest}
    (h : s.getExportManifest exportManifestId = .ok m) :
    m ∈ s.manifests ∧ m.exportManifestId = exportManifestId := by
  rw [Store.getExportManifest] at h
  split at h
  · rename_i found hfound
    obtain rfl := Except.ok.inj h
    exact ⟨List.mem_of_find?_eq_some hfound,
      by simpa using List.find?_some hfound⟩
  · cases h

/-! ## Laws of exports -/

/-- The relation holds across every transaction of an export. -/
structure ExportLaw (P : Platform) (R : Store → Store → Prop) : Prop where
  package : ∀ {args : PackageArgs} {inputs : CallInputs} {s s' : Store}
    {package : RenderPackage},
    createRenderPackage P args inputs s = .ok (package, s') → R s s'
  audit : ∀ {manifest : ExportManifest} {action : String}
    {actorId : Option String} {details : Json} {inputs : CallInputs}
    {s s' : Store} {u : Unit},
    appendExportAudit P manifest action actorId details inputs s =
      .ok (u, s') → R s s'
  manifest : ∀ {manifest : ExportManifest} {inputs : CallInputs}
    {s s' : Store} {u : Unit},
    saveManifest manifest inputs s = .ok (u, s') → R s s'
  update : ∀ {manifest : ExportManifest} {s s' : Store} {u : Unit},
    saveUpdate manifest s = .ok (u, s') → R s s'
  completion : ∀ {artifact : RenderedArtifact} {manifest : ExportManifest}
    {inputs : CallInputs} {s s' : Store} {u : Unit},
    saveCompletion artifact manifest inputs s = .ok (u, s') → R s s'

/-- The relation holds across the transactions that move an export on. -/
structure ManifestLaw (P : Platform) (m : ExportManifest)
    (R : Store → Store → Prop) : Prop where
  audit : ∀ {manifest : ExportManifest} {action : String}
    {actorId : Option String} {details : Json} {inputs : CallInputs}
    {s s' : Store} {u : Unit},
    manifest.exportManifestId = m.exportManifestId →
    appendExportAudit P manifest action actorId details inputs s =
      .ok (u, s') → R s s'
  update : ∀ {status : ExportStatus} {warnings : List Json} {s s' : Store}
    {u : Unit}, m.status.movesTo status = true →
    saveUpdate { m with status, warnings } s = .ok (u, s') → R s s'
  completion : ∀ {artifact : RenderedArtifact} {warnings : List Json}
    {inputs : CallInputs} {s s' : Store} {u : Unit}, m.status.isOpen = true →
    artifact.exportManifestId = m.exportManifestId →
    saveCompletion artifact { m with status := .completed, warnings } inputs
      s = .ok (u, s') → R s s'

namespace ManifestLaw

variable {R : Store → Store → Prop} [Std.Refl R] [IsTrans Store R]
  {m : ExportManifest} {status : ExportStatus}

theorem respects_update (law : ManifestLaw P m R)
    (hmoves : m.status.movesTo status = true) (warnings : List Json)
    (action : String) (details : Json) (inputs : CallInputs) :
    Service.Respects R (Service.commit (saveUpdate { m with status, warnings })
      >>= fun _ => Service.commit
        (appendExportAudit P { m with status, warnings } action none details
          inputs)) := by
  refine Service.respects_bind
    (Service.respects_commit fun _ _ _ h => law.update hmoves h) fun _ => ?_
  exact Service.respects_commit fun _ _ _ h => law.audit (by rfl) h

theorem respects_recordFailure (law : ManifestLaw P m R)
    (hmoves : m.status.movesTo status = true) (payload : List (String × Json))
    (warnings : List Json) (inputs : ℕ → CallInputs) :
    Service.Respects R (recordFailure P m status payload warnings inputs) := by
  refine Service.respects_bind (Service.respects_read _) fun warnings => ?_
  exact law.respects_update hmoves _ _ _ _

theorem respects_recordCompletion (law : ManifestLaw P m R)
    (hopen : m.status.isOpen = true) (payload : List (String × Json))
    (warnings : List Json) (inputs : ℕ → CallInputs) :
    Service.Respects R (recordCompletion P m payload warnings inputs) := by
  refine Service.respects_read_bind fun s r hr => ?_
  have hid := renderedArtifact_eq_ok hr
  suffices hrest : Service.Respects R _ from hrest s
  refine Service.respects_bind (Service.respects_read _) fun warnings => ?_
  refine Service.respects_bind (Service.respects_commit fun _ _ _ h =>
    law.completion hopen hid h) fun _ => ?_
  exact Service.respects_commit fun _ _ _ h => law.audit (by rfl) h

theorem respects_renderUnavailable (law : ManifestLaw P m R)
    (renderer : Renderer) (inputs : ℕ → CallInputs) :
    Service.Respects R (renderUnavailable P m renderer inputs) := by
  refine Service.respects_bind (Service.respects_read _) fun warnings => ?_
  dsimp only
  rw [← bind_assoc]
  refine Service.respects_bind
    (law.respects_update (movesTo_of_closed rfl) _ _ _ _) fun _ => ?_
  exact Service.respects_pure _

end ManifestLaw

/-- How a relation across calls on an export follows from one across the
transactions on it, once it is read. -/
structure CallLaw (P : Platform) (exportManifestId : String)
    (R : Store → Store → Prop) (M : ExportManifest → Store → Store → Prop) :
    Prop where
  manifest : ∀ {m : ExportManifest}, m.exportManifestId = exportManifestId →
    ManifestLaw P m (M m)
  read : ∀ {m : ExportManifest} {s s' : Store},
    s.getExportManifest exportManifestId = .ok m → M m s s' → R s s'
  again : ∀ {m : ExportManifest} {s s' : Store},
    m.exportManifestId = exportManifestId → R s s' → M m s s'

namespace CallLaw

variable {R : Store → Store → Prop} {M : ExportManifest → Store → Store → Prop}
  [Std.Refl R] [∀ m, Std.Refl (M m)] [∀ m, IsTrans Store (M m)]

theorem respects_recordExportResult (law : CallLaw P exportManifestId R M)
    (payload : List (String × Json)) (inputs : ℕ → CallInputs) :
    Service.Respects R
      (recordExportResult P exportManifestId payload inputs) := by
  refine Service.respects_read_bind fun s m hm => law.read hm ?_
  have hmanifest := law.manifest (getExportManifest_mem hm).2
  suffices hrest : Service.Respects (M m) _ from hrest s
  refine Service.respects_bind (Service.respects_read _) fun warnings => ?_
  dsimp only
  split
  · exact hmanifest.respects_recordFailure (movesTo_of_closed rfl) _ _ _
  split
  · exact hmanifest.respects_recordFailure (movesTo_of_closed rfl) _ _ _
  split
  · exact Service.respects_read _
  split
  · exact Service.respects_read _
  · rename_i hopen
    refine hmanifest.respects_recordCompletion ?_ _ _ _
    cases hstatus : m.status <;> simp_all [ExportStatus.isOpen]

theorem respects_renderExport (law : CallLaw P exportManifestId R M)
    (renderer : Renderer) (inputs : ℕ → CallInputs) :
    Service.Respects R
      (renderExport P exportManifestId renderer inputs) := by
  refine Service.respects_read_bind fun s m hm => law.read hm ?_
  obtain ⟨-, rfl⟩ := getExportManifest_mem hm
  have hmanifest := law.manifest rfl
  suffices hrest : Service.Respects (M m) _ from hrest s
  refine Service.respects_read_bind fun s' u hchecked => ?_
  have hprepared : m.status = .prepared := by
    by_contra hnot
    rw [if_pos hnot] at hchecked
    cases hchecked
  suffices hrest : Service.Respects (M m) _ from hrest s'
  split
  · exact hmanifest.respects_renderUnavailable _ _
  refine Service.respects_bind (Service.respects_read _) fun package => ?_
  dsimp only
  refine Service.respects_bind (Service.respects_commit fun _ _ _ h =>
    hmanifest.update (by rw [hprepared]; rfl) h) fun _ => ?_
  refine Service.respects_bind
    (Service.respects_commit fun _ _ _ h => hmanifest.audit (by rfl) h) fun _ => ?_
  refine Service.respects_bind (Service.respects_handle ?_ ?_) fun _ => ?_
  · refine Service.respects_bind (Service.respects_read _) fun payload => ?_
    exact fun s => law.again rfl (law.respects_recordExportResult _ _ s)
  · intro error
    refine Service.respects_bind (Service.respects_read _) fun warnings => ?_
    exact hmanifest.respects_update (movesTo_of_closed rfl) _ _ _ _
  · exact Service.respects_read _

end CallLaw

namespace ExportLaw

variable {R : Store → Store → Prop} [Std.Refl R] [IsTrans Store R]

omit [Std.Refl R] [IsTrans Store R] in
theorem callLaw (law : ExportLaw P R) (exportManifestId : String) :
    CallLaw P exportManifestId R fun _ => R where
  manifest _ := ⟨fun _ => law.audit, fun _ => law.update,
    fun _ _ => law.completion⟩
  read _ h := h
  again _ h := h

theorem respects_recordExportResult (law : ExportLaw P R)
    (exportManifestId : String) (payload : List (String × Json))
    (inputs : ℕ → CallInputs) :
    Service.Respects R
      (recordExportResult P exportManifestId payload inputs) :=
  (law.callLaw exportManifestId).respects_recordExportResult payload inputs

theorem respects_renderExport (law : ExportLaw P R)
    (exportManifestId : String) (renderer : Renderer)
    (inputs : ℕ → CallInputs) :
    Service.Respects R
      (renderExport P exportManifestId renderer inputs) :=
  (law.callLaw exportManifestId).respects_renderExport renderer inputs

theorem respects_prepareExport (law : ExportLaw P R) (args : PrepareArgs)
    (renderer : Renderer) (inputs : ℕ → CallInputs) :
    Service.Respects R (prepareExport P args renderer inputs) := by
  refine Service.respects_bind (Service.respects_read _) fun plan => ?_
  refine Service.respects_bind (Service.respects_read _) fun existing => ?_
  cases existing with
  | some manifest => exact Service.respects_pure _
  | none =>
      refine Service.respects_bind
        (Service.respects_commit fun _ _ _ h => law.package h)
        fun package => ?_
      refine Service.respects_bind (Service.respects_read _) fun warnings => ?_
      refine Service.respects_bind
        (Service.respects_commit fun _ _ _ h => law.manifest h) fun _ => ?_
      refine Service.respects_bind
        (Service.respects_commit fun _ _ _ h => law.audit h) fun _ => ?_
      exact Service.respects_pure _

end ExportLaw

variable (P) in
theorem sameContentLaw : ExportLaw P SameContent where
  package := sameContent_createRenderPackage
  audit := sameContent_appendExportAudit
  manifest := sameContent_saveManifest
  update := sameContent_saveUpdate
  completion := sameContent_saveCompletion

end

end ApexForensic.Reports
