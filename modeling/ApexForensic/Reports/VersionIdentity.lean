import ApexForensic.Reports.VersionNumbers

/-!
# Versions are identified by what they say

The content fingerprint of a version is the digest of its own fields and of
the citations it was built from.  So without collisions of the digest, an
input is answered with the version that says the same, or with a new one.
-/

namespace ApexForensic.Reports

open ApexForensic.Support ApexForensic.Domain

variable {c citations d raws : List Json} {a v w : ReportVersion}
  {caseId : String} {world : World} {snapshots : List ContextSnapshot}

/-! ## What a version says -/

namespace ReportVersion

def contentBefore (v : ReportVersion) : List (String × Json) :=
  [("report_id", .str v.reportId),
   ("case_id", .str v.caseId),
   ("source_kind", .str v.sourceKind.value),
   ("source_reference_id", jsonStr? v.sourceReferenceId),
   ("title", .str v.title),
   ("executive_summary", .str v.executiveSummary),
   ("sections", .arr (v.sections.map ReportSection.toSchemaDict)),
   ("context_snapshot_ids", jsonStrs v.contextSnapshotIds),
   ("evidence_ids", jsonStrs v.evidenceIds),
   ("search_execution_ids", jsonStrs v.searchExecutionIds),
   ("timeline_revisions", .arr (v.timelineRevisions.map Json.int)),
   ("ai_assistance_request_ids", jsonStrs v.aiAssistanceRequestIds),
   ("ai_result_ids", jsonStrs v.aiResultIds)]

def contentAfter (v : ReportVersion) : List (String × Json) :=
  [("limitations", jsonStrs v.limitations),
   ("analyzer_versions", v.analyzerVersions),
   ("partial_state", v.partialState),
   ("stale_state", v.staleState),
   ("coverage_summary", v.coverageSummary),
   ("source_revisions", v.sourceRevisions)]

/-- The stored fields that come from the input: all but the identifier, the
number, the link to the version before, the author and the time. -/
def content (v : ReportVersion) : Json :=
  .obj (v.contentBefore ++ ("citation_ids", jsonStrs v.citationIds) ::
    v.contentAfter)

/-- What the fingerprint of the version is the digest of. -/
def payload (v : ReportVersion) (citations : List Json) : Json :=
  .obj (v.contentBefore ++ ("citations", .arr citations) :: v.contentAfter)

/-- The stored content fields are equal, as values without an order of their
keys. -/
def SaysSame (v w : ReportVersion) : Prop :=
  canonicalForm v.content [] = canonicalForm w.content []

theorem nodup_content (v : ReportVersion) :
    ((v.contentBefore ++ ("citation_ids", jsonStrs v.citationIds) ::
      v.contentAfter).map Prod.fst).Nodup := by
  simp [contentBefore, contentAfter]

theorem nodup_payload (v : ReportVersion) (citations : List Json) :
    ((v.contentBefore ++ ("citations", .arr citations) ::
      v.contentAfter).map Prod.fst).Nodup := by
  simp [contentBefore, contentAfter]

theorem payload_eq_iff :
    canonicalForm (v.payload c) [] = canonicalForm (w.payload d) [] ↔
      canonicalForm (.obj (v.contentBefore ++ v.contentAfter)) [] =
          canonicalForm (.obj (w.contentBefore ++ w.contentAfter)) [] ∧
        canonicalForm (.arr c) [] = canonicalForm (.arr d) [] :=
  canonicalForm_split_iff (v.nodup_payload c) (w.nodup_payload d)

theorem saysSame_iff :
    v.SaysSame w ↔
      canonicalForm (.obj (v.contentBefore ++ v.contentAfter)) [] =
          canonicalForm (.obj (w.contentBefore ++ w.contentAfter)) [] ∧
        v.citationIds = w.citationIds := by
  have htexts : canonicalForm (jsonStrs v.citationIds) [] =
      canonicalForm (jsonStrs w.citationIds) [] ↔
        v.citationIds = w.citationIds := by
    rw [jsonStrs, jsonStrs, canonicalForm_texts, canonicalForm_texts,
      Json.arr.injEq]
    exact (List.map_injective_iff.mpr fun _ _ h => Json.str.inj h).eq_iff
  rw [← htexts]
  exact canonicalForm_split_iff v.nodup_content w.nodup_content

theorem SaysSame.field (h : v.SaysSame w) (key : String) :
    (v.content.field? key).map (fun x => canonicalForm x []) =
      (w.content.field? key).map fun x => canonicalForm x [] := by
  have hkey : key ∉ ([] : List String) := List.not_mem_nil
  rw [← field?_canonicalForm hkey, h, field?_canonicalForm hkey]

theorem SaysSame.reportId (h : v.SaysSame w) : v.reportId = w.reportId := by
  have hfield := h.field "report_id"
  exact Json.str.inj (Option.some.inj hfield)

theorem SaysSame.sectionIds (h : v.SaysSame w) :
    v.sections.map ReportSection.sectionId =
      w.sections.map ReportSection.sectionId := by
  have hfield : canonicalForm
        (.arr (v.sections.map ReportSection.toSchemaDict)) [] =
      canonicalForm (.arr (w.sections.map ReportSection.toSchemaDict)) [] :=
    Option.some.inj (h.field "sections")
  rw [canonicalForm_arr, canonicalForm_arr, Json.arr.injEq] at hfield
  have hids := congrArg (List.map fun s => Json.field? "section_id" s) hfield
  have hkey : "section_id" ∉ ([] : List String) := List.not_mem_nil
  have hsection : ∀ s : ReportSection,
      (canonicalForm s.toSchemaDict []).field? "section_id" =
        some (.str s.sectionId) := by
    intro s
    exact (field?_canonicalForm_scalar hkey rfl).mpr rfl
  simp only [List.map_map, Function.comp_def, hsection] at hids
  have hinj : Function.Injective fun id : String => some (Json.str id) :=
    fun _ _ heq => Json.str.inj (Option.some.inj heq)
  refine List.map_injective_iff.mpr hinj ?_
  rw [List.map_map, List.map_map]
  exact hids

end ReportVersion

/-! ## Citations -/

/-- `str(citation["id"])` of a citation that has one. -/
def citationId (P : Platform) : Json → Option String
  | .obj fields =>
      match getKey fields "id" with
      | .null => none
      | value => some (pyStr P value)
  | _ => none

/-- The identifier of the citation is a text, if it has one. -/
def IdIsText (citation : Json) : Prop :=
  ∃ fields, citation = .obj fields ∧
    (getKey fields "id" = .null ∨ ∃ id, getKey fields "id" = .str id)

section

variable {P : Platform} {s s' : Store}

theorem citationId_canonicalForm {citation : Json} (h : IdIsText citation) :
    citationId P (canonicalForm citation []) = citationId P citation := by
  obtain ⟨fields, rfl, hid⟩ := h
  have hkey : "id" ∉ ([] : List String) := List.not_mem_nil
  have hfield := field?_canonicalForm hkey (.obj fields)
  rw [canonicalForm_obj] at hfield ⊢
  have hget : getKey ((fields.map fun f =>
      (f.1, canonicalForm f.2 [])).insertionSort Json.keyLE) "id" =
        getKey fields "id" := by
    rw [getKey, getKey]
    rw [getKey] at hid
    change Json.lookup "id" _ = (Json.lookup "id" fields).map _ at hfield
    rw [hfield]
    cases hlookup : Json.lookup "id" fields with
    | none => rfl
    | some value =>
        rw [hlookup] at hid
        rcases hid with hnull | ⟨id, htext⟩
        · obtain rfl : value = .null := hnull
          rfl
        · obtain rfl : value = .str id := htext
          rfl
  rw [citationId, citationId, hget]

theorem citationIds_congr (hc : ∀ x ∈ c, IdIsText x) (hd : ∀ x ∈ d, IdIsText x)
    (h : canonicalForm (.arr c) [] = canonicalForm (.arr d) []) :
    citationIds P c = citationIds P d := by
  have hforms : ∀ {l : List Json}, (∀ x ∈ l, IdIsText x) →
      (l.map fun v => canonicalForm v []).filterMap (citationId P) =
        l.filterMap (citationId P) := by
    intro l hl
    rw [List.filterMap_map]
    exact List.filterMap_congr fun x hx => citationId_canonicalForm (hl x hx)
  rw [canonicalForm_arr, canonicalForm_arr, Json.arr.injEq] at h
  have hids : c.filterMap (citationId P) = d.filterMap (citationId P) := by
    rw [← hforms hc, ← hforms hd, h]
  exact congrArg sortedUnique hids

theorem boundedNonEmpty_eq_ok {value : Json} {target text : String}
    {maximum : ℕ} (h : boundedNonEmpty value target maximum = .ok text) :
    ∃ written, value = .str written := by
  cases value with
  | str written => exact ⟨written, rfl⟩
  | _ => cases h

theorem mem_setItem_snd {α : Type} {key : String} {value x : α}
    {items : List (String × α)}
    (h : x ∈ (setItem key value items).map Prod.snd) :
    x = value ∨ x ∈ items.map Prod.snd := by
  induction items with
  | nil => exact Or.inl (List.mem_singleton.mp h)
  | cons item items ih =>
      rw [setItem] at h
      split at h
      · rcases List.mem_cons.mp h with h | h
        · exact Or.inl h
        · exact Or.inr (List.mem_cons_of_mem _ h)
      · rcases List.mem_cons.mp h with h | h
        · exact Or.inr (h ▸ List.mem_cons_self)
        · rcases ih h with h | h
          · exact Or.inl h
          · exact Or.inr (List.mem_cons_of_mem _ h)

theorem mem_of_mem_stableItems {items : List Json} {x : Json}
    (h : x ∈ stableItems P items) : x ∈ items := by
  have hfold : ∀ (items : List Json) (acc : List (String × Json)),
      x ∈ (items.foldl (fun normalized item =>
        setItem (digest P item) item normalized) acc).map Prod.snd →
      x ∈ items ∨ x ∈ acc.map Prod.snd := by
    intro items
    induction items with
    | nil => exact fun acc hx => Or.inr hx
    | cons item items ih =>
        intro acc hx
        rcases ih _ hx with hx | hx
        · exact Or.inl (List.mem_cons_of_mem _ hx)
        · rcases mem_setItem_snd hx with rfl | hx
          · exact Or.inl List.mem_cons_self
          · exact Or.inr hx
  obtain ⟨p, hp, rfl⟩ := List.mem_map.mp h
  rcases hfold items [] (List.mem_map_of_mem
    ((List.mem_insertionSort _).mp hp)) with hx | hx
  · exact hx
  · cases hx

theorem validateCitations_idIsText {target : String}
    {citations : List (List (String × Json))} {requireDirect : Bool}
    {items : List Json}
    (h : validateCitations P world caseId snapshots citations requireDirect
      target = .ok items) {x : Json} (hx : x ∈ items) : IdIsText x := by
  rw [validateCitations] at h
  split at h
  · split at h
    · cases h
    · obtain rfl := Except.ok.inj h
      cases hx
  · obtain ⟨-, h⟩ := check_ok h
    obtain ⟨u, hall, h⟩ := bind_ok h
    obtain rfl := Except.ok.inj h
    obtain ⟨fields, hfields, rfl⟩ := List.mem_map.mp (mem_of_mem_stableItems hx)
    have hvalid := forM_eq_ok_iff.mp hall fields hfields
    obtain ⟨u, hfieldsOk, -⟩ := bind_ok hvalid
    obtain ⟨u, hids, -⟩ := bind_ok hfieldsOk
    have hid := forM_eq_ok_iff.mp hids "id" (by decide)
    refine ⟨fields, rfl, ?_⟩
    by_cases hnull : getKey fields "id" = .null
    · exact Or.inl hnull
    · rw [if_pos (by
        cases hvalue : getKey fields "id" <;> simp_all)] at hid
      obtain ⟨text, htext, -⟩ := bind_ok hid
      exact Or.inr (boundedNonEmpty_eq_ok htext)

/-! ## Fingerprints -/

/-- The version carries the digest of its fields and of the citations that it
names. -/
structure Fingerprinted (P : Platform) (v : ReportVersion)
    (citations : List Json) : Prop where
  fingerprint : v.contentFingerprint = digest P (v.payload citations)
  named : v.citationIds = citationIds P citations
  texts : ∀ citation ∈ citations, IdIsText citation

/-- Without collisions of the digest, versions have the same fingerprint when
they say the same and were built from the same citations. -/
theorem Fingerprinted.eq_iff (hdigest : Function.Injective P.sha256)
    (hv : Fingerprinted P v c) (hw : Fingerprinted P w d) :
    v.contentFingerprint = w.contentFingerprint ↔
      v.SaysSame w ∧ canonicalForm (.arr c) [] = canonicalForm (.arr d) [] := by
  rw [hv.fingerprint, hw.fingerprint]
  constructor
  · intro heq
    have hform := canonicalForm_eq_of_bytes_eq (hdigest heq)
    obtain ⟨hrest, hcitations⟩ := ReportVersion.payload_eq_iff.mp hform
    refine ⟨ReportVersion.saysSame_iff.mpr ⟨hrest, ?_⟩, hcitations⟩
    rw [hv.named, hw.named]
    exact citationIds_congr hv.texts hw.texts hcitations
  · rintro ⟨hsame, hcitations⟩
    have hform := ReportVersion.payload_eq_iff.mpr
      ⟨(ReportVersion.saysSame_iff.mp hsame).1, hcitations⟩
    rw [digest, canonicalSha256, canonicalJsonBytes, hform]
    rfl

theorem versionDraft_citations {args : CreateVersionArgs} {draft : VersionDraft}
    (h : versionDraft P world caseId args = .ok draft) :
    ∀ citation ∈ draft.citations, IdIsText citation := by
  obtain ⟨sourceKind, -, h⟩ := bind_ok h
  obtain ⟨createdBy, -, h⟩ := bind_ok h
  obtain ⟨title, -, h⟩ := bind_ok h
  obtain ⟨title, -, h⟩ := bind_ok h
  obtain ⟨sourceReferenceId, -, h⟩ := bind_ok h
  obtain ⟨summary, -, h⟩ := bind_ok h
  obtain ⟨summary, -, h⟩ := bind_ok h
  obtain ⟨-, h⟩ := check_ok h
  obtain ⟨-, h⟩ := check_ok h
  obtain ⟨snapshotIds, -, h⟩ := bind_ok h
  obtain ⟨snapshots, -, h⟩ := bind_ok h
  obtain ⟨evidenceIds, -, h⟩ := bind_ok h
  obtain ⟨evidenceIds, -, h⟩ := bind_ok h
  obtain ⟨executionIds, -, h⟩ := bind_ok h
  obtain ⟨executionIds, -, h⟩ := bind_ok h
  obtain ⟨requestIds, -, h⟩ := bind_ok h
  obtain ⟨requestIds, -, h⟩ := bind_ok h
  obtain ⟨resultIds, -, h⟩ := bind_ok h
  obtain ⟨resultIds, -, h⟩ := bind_ok h
  obtain ⟨revisions, -, h⟩ := bind_ok h
  obtain ⟨rawCitations, -, h⟩ := bind_ok h
  obtain ⟨citations, hcitations, h⟩ := bind_ok h
  obtain ⟨limitations, -, h⟩ := bind_ok h
  obtain ⟨-, h⟩ := check_ok h
  obtain ⟨-, -, h⟩ := bind_ok h
  obtain ⟨analyzerVersions, -, h⟩ := bind_ok h
  obtain ⟨-, -, h⟩ := bind_ok h
  obtain ⟨sections, -, h⟩ := bind_ok h
  obtain rfl := Except.ok.inj h
  exact fun citation hmem => validateCitations_idIsText hcitations hmem

section

variable {args args' : CreateVersionArgs} {inputs : CallInputs}
  {report : ReportRecord} {draft : VersionDraft}
  {previous : Option ReportVersion} {revisions : List Json}
  {version : ReportVersion}

theorem fingerprinted_newVersion
    (hread : VersionRead P s args report draft previous revisions) :
    Fingerprinted P (newVersion P report previous draft revisions inputs)
      draft.citations where
  fingerprint := rfl
  named := rfl
  texts := versionDraft_citations hread.drafted

/-- The stored versions have distinct identifiers and sections, are numbered,
and are identified by their content. -/
structure Identified (P : Platform) (s : Store) : Prop where
  owned : WellOwned s
  numbered : Numbered s
  fingerprinted : ∀ v ∈ s.versions, ∃ citations, Fingerprinted P v citations

theorem identified_step (hs : Identified P s) (op : Op) :
    Identified P (step P s op) := by
  refine ⟨hs.owned.of_written (step_written op), hs.numbered.step op, ?_⟩
  rcases step_numbers_cases P s op with
    h | ⟨args, inputs, report, h⟩ | ⟨args, inputs, version, -, h⟩
  · rw [h.versions]
    exact hs.fingerprinted
  · rw [createReport_eq_ok h]
    exact hs.fingerprinted
  · obtain ⟨report, draft, previous, revisions, hread, hcases⟩ :=
      createVersion_cases h
    rcases hcases with ⟨-, heq⟩ | ⟨-, hnew, heq, -⟩
    · rw [heq]
      exact hs.fingerprinted
    · intro v hv
      rw [heq] at hv
      rcases List.mem_append.mp hv with hv | hv
      · exact hs.fingerprinted v hv
      · rw [List.mem_singleton.mp hv, hnew]
        exact ⟨draft.citations, fingerprinted_newVersion hread⟩

theorem Identified.run (hs : Identified P s) (ops : List Op) :
    Identified P (run (step P) s ops) := by
  have hstep : ∀ s op, Identified P s → Identified P (step P s op) :=
    fun _ op hs => identified_step hs op
  exact run_invariant hstep hs ops

theorem identified_reached (P : Platform) (world : World) (ops : List Op) :
    Identified P (reached P world ops) := by
  have hempty : Identified P (Store.empty world) :=
    ⟨wellOwned_empty world, numbered_empty world,
      fun v hv => absurd hv List.not_mem_nil⟩
  exact hempty.run ops

/-! ## What a call returns -/

/-- The version and the citations that `create_version` makes of an input. -/
def Drafts (P : Platform) (s : Store) (args : CreateVersionArgs)
    (version : ReportVersion) (citations : List Json) : Prop :=
  ∃ report draft previous revisions inputs,
    VersionRead P s args report draft previous revisions ∧
    version = newVersion P report previous draft revisions inputs ∧
    citations = draft.citations

/-- The version is stored for its report and its fingerprint, which is that of
the input. -/
theorem createVersion_found
    (h : createVersion P s args inputs = .ok (version, s')) :
    ∃ report draft previous revisions,
      VersionRead P s args report draft previous revisions ∧
      version.reportId = report.reportId ∧
      version.contentFingerprint =
        contentFingerprint P report draft revisions ∧
      s'.versionByFingerprint? version.reportId
        version.contentFingerprint = some version ∧
      ((s' = s ∧ version ∈ s.versions) ∨
        (s.versionByFingerprint? version.reportId
            version.contentFingerprint = none ∧
          s' = s.withVersion report version inputs.now)) := by
  obtain ⟨report, draft, previous, revisions, hread, hcases⟩ :=
    createVersion_cases h
  refine ⟨report, draft, previous, revisions, hread, ?_⟩
  rcases hcases with ⟨hfound, rfl⟩ | ⟨hnone, hnew, heq, -⟩
  · have hkey := List.find?_some hfound
    obtain ⟨hid, hfingerprint⟩ := of_decide_eq_true hkey
    rw [hid, hfingerprint]
    exact ⟨rfl, rfl, hfound, Or.inl ⟨rfl, List.mem_of_find?_eq_some hfound⟩⟩
  · have hid : version.reportId = report.reportId := by rw [hnew]; rfl
    have hfingerprint : version.contentFingerprint =
        contentFingerprint P report draft revisions := by rw [hnew]; rfl
    rw [← hid, ← hfingerprint] at hnone
    refine ⟨hid, hfingerprint, ?_, Or.inr ⟨hnone, heq⟩⟩
    have hsearch : s'.versionByFingerprint? version.reportId
        version.contentFingerprint = (s.versions ++ [version]).find? fun v =>
          v.reportId = version.reportId ∧
            v.contentFingerprint = version.contentFingerprint := by
      rw [heq]
      rfl
    rw [Store.versionByFingerprint?] at hnone
    rw [hsearch, List.find?_append, hnone, List.find?_singleton,
      if_pos (by simp)]
    rfl

theorem createVersion_mem
    (h : createVersion P s args inputs = .ok (version, s')) :
    version ∈ s'.versions := by
  obtain ⟨-, -, -, -, -, -, -, hfound, -⟩ := createVersion_found h
  exact List.mem_of_find?_eq_some hfound

theorem Identified.of_createVersion (hs : Identified P s)
    (h : createVersion P s args inputs = .ok (version, s')) :
    Identified P s' := by
  have hstep := identified_step hs (.createVersion args inputs)
  have heq : step P s (.createVersion args inputs) = s' := call_eq_of_ok h
  rwa [heq] at hstep

theorem fingerprint_of_drafts
    (h : createVersion P s args inputs = .ok (version, s'))
    (ha : Drafts P s args a citations) :
    version.contentFingerprint = a.contentFingerprint ∧
      version.reportId = a.reportId ∧ Fingerprinted P a citations := by
  obtain ⟨report, draft, previous, revisions, hread, hid, hfingerprint, -, -⟩ :=
    createVersion_found h
  obtain ⟨report', draft', previous', revisions', inputs', hread', rfl, rfl⟩ :=
    ha
  obtain rfl := Except.ok.inj (hread.header.symm.trans hread'.header)
  obtain rfl := Except.ok.inj (hread.drafted.symm.trans hread'.drafted)
  obtain rfl := Except.ok.inj (hread.revised.symm.trans hread'.revised)
  exact ⟨hfingerprint, hid, fingerprinted_newVersion hread'⟩

theorem saysSame_of_drafts (hdigest : Function.Injective P.sha256)
    (hs : Identified P s)
    (h : createVersion P s args inputs = .ok (version, s'))
    (ha : Drafts P s args a citations) : version.SaysSame a := by
  obtain ⟨hfingerprint, -, hprinted⟩ := fingerprint_of_drafts h ha
  obtain ⟨stored, hstored⟩ :=
    (hs.of_createVersion h).fingerprinted version (createVersion_mem h)
  exact ((hstored.eq_iff hdigest hprinted).mp hfingerprint).1

/-! ## The same input -/

/-- The order of a section, by default its place in the input. -/
def sectionOrder (raw : Json) (index : ℕ) : Except PyError Json :=
  (pyDict raw).map fun fields => getDefault fields "order" (.int index)

/-- The sections with the orders that they are sorted by. -/
def placedSections (sections : List Json) :
    List (Json × Except PyError Json) :=
  (sections.zipIdx 1).map fun raw => (raw.1, sectionOrder raw.1 raw.2)

/-- The inputs are the same but for an order of the sections that their sort
does not depend on. -/
structure SameInput (args args' : CreateVersionArgs) : Prop where
  rest : args' = { args with sections := args'.sections }
  sections : (placedSections args.sections).Perm
    (placedSections args'.sections)

theorem sameInput_of_perm (hperm : args.sections.Perm raws)
    (hplaced : ∀ raw ∈ args.sections, ∀ i j,
      sectionOrder raw i = sectionOrder raw j) :
    SameInput args { args with sections := raws } := by
  have hplace : ∀ (sections : List Json) (start : ℕ),
      (∀ raw ∈ sections, ∀ i j, sectionOrder raw i = sectionOrder raw j) →
      (sections.zipIdx start).map (fun raw =>
          (raw.1, sectionOrder raw.1 raw.2)) =
        sections.map fun raw => (raw, sectionOrder raw 0) := by
    intro sections
    induction sections with
    | nil => exact fun _ _ => rfl
    | cons raw sections ih =>
        intro start h
        rw [List.zipIdx_cons, List.map_cons, List.map_cons,
          ih _ fun r hr => h r (List.mem_cons_of_mem raw hr),
          h raw List.mem_cons_self start 0]
  refine ⟨rfl, ?_⟩
  rw [placedSections, placedSections, hplace _ _ hplaced,
    hplace _ _ fun raw hraw => hplaced raw (hperm.mem_iff.mpr hraw)]
  exact hperm.map _

theorem sectionFromInput_congr {fields : List (String × Json)} {i j : ℕ}
    (h : getDefault fields "order" (.int i) =
      getDefault fields "order" (.int j)) :
    sectionFromInput P world caseId snapshots fields i =
      sectionFromInput P world caseId snapshots fields j := by
  rw [sectionFromInput, sectionFromInput, h]

/-- One section of the input, built with an order. -/
def BuildsSection (P : Platform) (world : World) (caseId : String)
    (snapshots : List ContextSnapshot) (placed : Json × Except PyError Json)
    (built : ReportSection) : Prop :=
  ∃ (fields : List (String × Json)) (index : ℕ),
    pyDict placed.1 = .ok fields ∧
    placed.2 = .ok (getDefault fields "order" (.int index)) ∧
    sectionFromInput P world caseId snapshots fields index = .ok built

theorem sectionsFromInput_eq_ok_iff {start : ℕ} {built : List ReportSection} :
    sectionsFromInput P world caseId snapshots start raws = .ok built ↔
      List.Forall₂ (BuildsSection P world caseId snapshots)
        ((raws.zipIdx start).map fun raw =>
          (raw.1, sectionOrder raw.1 raw.2)) built := by
  induction raws generalizing start built with
  | nil =>
      rw [List.zipIdx_nil, List.map_nil, List.forall₂_nil_left_iff]
      exact ⟨fun h => (Except.ok.inj h).symm, fun h => by rw [h]; rfl⟩
  | cons raw raws ih =>
      rw [List.zipIdx_cons, List.map_cons, List.forall₂_cons_left_iff]
      rw [sectionsFromInput]
      constructor
      · intro h
        obtain ⟨fields, hfields, h⟩ := bind_ok h
        obtain ⟨first, hfirst, h⟩ := bind_ok h
        obtain ⟨rest, hrest, h⟩ := bind_ok h
        refine ⟨first, rest, ⟨fields, start, hfields, ?_, hfirst⟩,
          ih.mp hrest, (Except.ok.inj h).symm⟩
        rw [sectionOrder, hfields]
        rfl
      · rintro ⟨first, rest, ⟨fields, index, hfields, horder, hfirst⟩, hrest,
          rfl⟩
        change pyDict raw = .ok fields at hfields
        change sectionOrder raw start = _ at horder
        rw [sectionOrder, hfields] at horder
        rw [← sectionFromInput_congr (Except.ok.inj horder)] at hfirst
        exact bind_eq_ok_iff.mpr ⟨fields, hfields, bind_eq_ok_iff.mpr
          ⟨first, hfirst, bind_eq_ok_iff.mpr ⟨rest, ih.mpr hrest, rfl⟩⟩⟩

theorem sectionsFromInput_of_perm {raws' : List Json}
    {built : List ReportSection}
    (hperm : (placedSections raws).Perm (placedSections raws'))
    (h : sectionsFromInput P world caseId snapshots 1 raws = .ok built) :
    ∃ built', sectionsFromInput P world caseId snapshots 1 raws' =
      .ok built' ∧ built.Perm built' := by
  obtain ⟨built', hbuilt, hperm'⟩ := List.perm_comp_forall₂ hperm.symm
    (sectionsFromInput_eq_ok_iff.mp h)
  exact ⟨built', sectionsFromInput_eq_ok_iff.mpr hbuilt, hperm'.symm⟩

/-- The sections of a draft, and the draft of the other fields with other
sections. -/
theorem versionDraft_sections (h : versionDraft P world caseId args = .ok draft)
    :
    ∃ built, sectionsFromInput P world caseId draft.snapshots 1
        args.sections = .ok built ∧
      draft.sections = built.insertionSort
        (orderBy ReportSection.order ReportSection.sectionId) ∧
      ∀ raws built', raws.length = args.sections.length →
        sectionsFromInput P world caseId draft.snapshots 1 raws =
          .ok built' →
        versionDraft P world caseId { args with sections := raws } =
          .ok { draft with
            sections := built'.insertionSort
              (orderBy ReportSection.order ReportSection.sectionId) } := by
  obtain ⟨sourceKind, h₁, h⟩ := bind_ok h
  obtain ⟨createdBy, h₂, h⟩ := bind_ok h
  obtain ⟨title, h₃, h⟩ := bind_ok h
  obtain ⟨safeTitle, h₄, h⟩ := bind_ok h
  obtain ⟨sourceReferenceId, h₅, h⟩ := bind_ok h
  obtain ⟨summary, h₆, h⟩ := bind_ok h
  obtain ⟨safeSummary, h₇, h⟩ := bind_ok h
  obtain ⟨h₈, h⟩ := check_ok h
  obtain ⟨hcount, h⟩ := check_ok h
  obtain ⟨snapshotIds, h₉, h⟩ := bind_ok h
  obtain ⟨snapshots, h₁₀, h⟩ := bind_ok h
  obtain ⟨rawEvidence, h₁₁, h⟩ := bind_ok h
  obtain ⟨evidenceIds, h₁₂, h⟩ := bind_ok h
  obtain ⟨rawExecutions, h₁₃, h⟩ := bind_ok h
  obtain ⟨executionIds, h₁₄, h⟩ := bind_ok h
  obtain ⟨rawRequests, h₁₅, h⟩ := bind_ok h
  obtain ⟨requestIds, h₁₆, h⟩ := bind_ok h
  obtain ⟨rawResults, h₁₇, h⟩ := bind_ok h
  obtain ⟨resultIds, h₁₈, h⟩ := bind_ok h
  obtain ⟨revisions, h₁₉, h⟩ := bind_ok h
  obtain ⟨rawCitations, h₂₀, h⟩ := bind_ok h
  obtain ⟨citations, h₂₁, h⟩ := bind_ok h
  obtain ⟨limitations, h₂₂, h⟩ := bind_ok h
  obtain ⟨h₂₃, h⟩ := check_ok h
  obtain ⟨u₂₄, h₂₄, h⟩ := bind_ok h
  obtain ⟨analyzerVersions, h₂₅, h⟩ := bind_ok h
  obtain ⟨u₂₆, h₂₆, h⟩ := bind_ok h
  obtain ⟨built, hbuilt, h⟩ := bind_ok h
  obtain rfl := Except.ok.inj h
  refine ⟨built, hbuilt, rfl, fun raws built' hlength hbuilt' => ?_⟩
  refine bind_eq_ok_iff.mpr ⟨sourceKind, h₁, ?_⟩
  refine bind_eq_ok_iff.mpr ⟨createdBy, h₂, ?_⟩
  refine bind_eq_ok_iff.mpr ⟨title, h₃, ?_⟩
  refine bind_eq_ok_iff.mpr ⟨safeTitle, h₄, ?_⟩
  refine bind_eq_ok_iff.mpr ⟨sourceReferenceId, h₅, ?_⟩
  refine bind_eq_ok_iff.mpr ⟨summary, h₆, ?_⟩
  refine bind_eq_ok_iff.mpr ⟨safeSummary, h₇, ?_⟩
  refine check_eq_ok_iff.mpr ⟨h₈, ?_⟩
  refine check_eq_ok_iff.mpr ⟨?_, ?_⟩
  · rwa [← List.length_eq_zero_iff, hlength, List.length_eq_zero_iff]
  refine bind_eq_ok_iff.mpr ⟨snapshotIds, h₉, ?_⟩
  refine bind_eq_ok_iff.mpr ⟨snapshots, h₁₀, ?_⟩
  refine bind_eq_ok_iff.mpr ⟨rawEvidence, h₁₁, ?_⟩
  refine bind_eq_ok_iff.mpr ⟨evidenceIds, h₁₂, ?_⟩
  refine bind_eq_ok_iff.mpr ⟨rawExecutions, h₁₃, ?_⟩
  refine bind_eq_ok_iff.mpr ⟨executionIds, h₁₄, ?_⟩
  refine bind_eq_ok_iff.mpr ⟨rawRequests, h₁₅, ?_⟩
  refine bind_eq_ok_iff.mpr ⟨requestIds, h₁₆, ?_⟩
  refine bind_eq_ok_iff.mpr ⟨rawResults, h₁₇, ?_⟩
  refine bind_eq_ok_iff.mpr ⟨resultIds, h₁₈, ?_⟩
  refine bind_eq_ok_iff.mpr ⟨revisions, h₁₉, ?_⟩
  refine bind_eq_ok_iff.mpr ⟨rawCitations, h₂₀, ?_⟩
  refine bind_eq_ok_iff.mpr ⟨citations, h₂₁, ?_⟩
  refine bind_eq_ok_iff.mpr ⟨limitations, h₂₂, ?_⟩
  refine check_eq_ok_iff.mpr ⟨h₂₃, ?_⟩
  refine bind_eq_ok_iff.mpr ⟨u₂₄, h₂₄, ?_⟩
  refine bind_eq_ok_iff.mpr ⟨analyzerVersions, h₂₅, ?_⟩
  refine bind_eq_ok_iff.mpr ⟨u₂₆, h₂₆, ?_⟩
  exact bind_eq_ok_iff.mpr ⟨built', hbuilt', rfl⟩

theorem versionDraft_of_sameInput (hsame : SameInput args args')
    (h : versionDraft P world caseId args = .ok draft)
    (hids : (draft.sections.map ReportSection.sectionId).Nodup) :
    versionDraft P world caseId args' = .ok draft := by
  obtain ⟨built, hbuilt, hsections, hother⟩ := versionDraft_sections h
  obtain ⟨built', hbuilt', hperm⟩ :=
    sectionsFromInput_of_perm hsame.sections hbuilt
  have hlength := hsame.sections.length_eq
  rw [placedSections, placedSections, List.length_map, List.length_map,
    List.length_zipIdx, List.length_zipIdx] at hlength
  rw [hsections] at hids
  have hnodup : (built.map ReportSection.sectionId).Nodup :=
    (((List.perm_insertionSort _ built).map _).nodup_iff).mp hids
  rw [hsame.rest, hother _ built' hlength.symm hbuilt',
    ← insertionSort_orderBy_of_perm hperm hnodup, ← hsections]

/-! ## The same content is stored once -/

theorem WellOwned.version?_of_mem (hs : WellOwned s)
    (h : version ∈ s.versions) :
    s.version? version.reportVersionId = some version := by
  cases hfound : s.version? version.reportVersionId with
  | none =>
      have hnone := List.find?_eq_none.mp hfound version h
      exact absurd (decide_eq_true rfl) hnone
  | some found =>
      obtain ⟨hmem, hid⟩ := mem_of_version? hfound
      rw [hs.version_unique hmem h hid]

theorem nodup_of_drafts (hdigest : Function.Injective P.sha256)
    (hs : Identified P s)
    (h : createVersion P s args inputs = .ok (version, s'))
    (ha : Drafts P s args a citations) :
    (a.sections.map ReportSection.sectionId).Nodup := by
  rw [← (saysSame_of_drafts hdigest hs h ha).sectionIds]
  exact (hs.of_createVersion h).owned.sectionIds version (createVersion_mem h)

theorem VersionRead.withVersion
    (hread : VersionRead P s args report draft previous revisions)
    {now : Datetime} (hversion : (s.withVersion report version now).version?
      version.reportVersionId = some version)
    (hrest : args'.reportId = args.reportId)
    (hdraft : versionDraft P s.world report.caseId args' = .ok draft) :
    VersionRead P (s.withVersion report version now) args'
      (report.afterVersion version now) draft (some version) revisions := by
  obtain ⟨hreport, hid⟩ := hread.report?_eq
  refine ⟨?_, by simp [ReportRecord.afterVersion], hdraft, ?_, hread.revised⟩
  · rw [Store.getReport, report?_withVersion hreport, hrest, if_pos hid]
  · rw [activeVersion, ReportRecord.afterVersion]
    dsimp only
    rw [getVersion_eq_ok_iff.mpr hversion]
    rfl

/-- A second call with the same input returns the same version and writes
nothing. -/
theorem createVersion_again (hdigest : Function.Injective P.sha256)
    (hs : Identified P s)
    (h : createVersion P s args inputs = .ok (version, s'))
    (hsame : SameInput args args') (inputs' : CallInputs) :
    createVersion P s' args' inputs' = .ok (version, s') := by
  obtain ⟨report, draft, previous, revisions, hread, hid, hfingerprint,
    hfound, hcases⟩ := createVersion_found h
  have hnodup := nodup_of_drafts hdigest hs h
    ⟨report, draft, previous, revisions, inputs, hread, rfl, rfl⟩
  have hdraft := versionDraft_of_sameInput hsame hread.drafted hnodup
  have hreportId : args'.reportId = args.reportId := by rw [hsame.rest]
  rw [hid, hfingerprint] at hfound
  have howned := (hs.of_createVersion h).owned.version?_of_mem
    (createVersion_mem h)
  rcases hcases with ⟨rfl, -⟩ | ⟨-, rfl⟩
  · refine createVersion_of_found ⟨?_, hread.notArchived, hdraft,
      hread.active, hread.revised⟩ hfound
    rw [hreportId]
    exact hread.header
  · exact createVersion_of_found
      (hread.withVersion howned hreportId hdraft) hfound

/-- Two inputs get one version when they say the same, with the same
citations, whatever operations come between them. -/
theorem reportVersionId_eq_iff (hdigest : Function.Injective P.sha256)
    (hs : Identified P s) {later : List Op} {inputs' : CallInputs}
    {version' : ReportVersion} {t : Store}
    (h : createVersion P s args inputs = .ok (version, s'))
    (h' : createVersion P (run (step P) s' later) args' inputs' =
      .ok (version', t)) {b : ReportVersion} (ha : Drafts P s args a c)
    (hb : Drafts P (run (step P) s' later) args' b d) :
    version.reportVersionId = version'.reportVersionId ↔
      a.SaysSame b ∧ canonicalForm (.arr c) [] = canonicalForm (.arr d) [] := by
  have hs' := (hs.of_createVersion h).run later
  have hprefix := (appendOnly_run P s' later).versions
  obtain ⟨hfingerprint, hid, ha⟩ := fingerprint_of_drafts h ha
  obtain ⟨hfingerprint', hid', hb⟩ := fingerprint_of_drafts h' hb
  obtain ⟨-, -, -, -, -, -, -, hfound, -⟩ := createVersion_found h
  replace hfound := hprefix.find?_eq_some hfound
  obtain ⟨report, -, -, -, -, -, -, hfound', hcases⟩ := createVersion_found h'
  constructor
  · intro heq
    have hkept : version ∈ t.versions := by
      have hmem := hprefix.subset (createVersion_mem h)
      rcases hcases with ⟨rfl, -⟩ | ⟨-, rfl⟩
      · exact hmem
      · exact List.mem_append_left _ hmem
    have hsame := (hs'.of_createVersion h').owned.version_unique hkept
      (createVersion_mem h') heq
    refine (ha.eq_iff hdigest hb).mp ?_
    rw [← hfingerprint, ← hfingerprint', hsame]
  · rintro ⟨hsame, hcitations⟩
    have hprint := (ha.eq_iff hdigest hb).mpr ⟨hsame, hcitations⟩
    rw [hid, hfingerprint, hsame.reportId, hprint, ← hid', ← hfingerprint']
      at hfound
    rcases hcases with ⟨rfl, -⟩ | ⟨hnone, -⟩
    · rw [Option.some.inj (hfound.symm.trans hfound')]
    · exact absurd (hnone.symm.trans hfound) (Option.some_ne_none _).symm

/-- What a call of `create_version` that returns a version does. -/
structure ContentDecides (P : Platform) (s : Store) (args : CreateVersionArgs)
    (version : ReportVersion) (s' : Store) : Prop where
  /-- A version of the store is returned without a write, or one is added. -/
  stored : (version ∈ s.versions ∧ s' = s) ∨
    (version ∉ s.versions ∧ s'.versions = s.versions ++ [version])
  /-- The version says what its input makes. -/
  content : ∀ a citations, Drafts P s args a citations → version.SaysSame a
  /-- The same input again gets the same version, and nothing is written. -/
  again : ∀ args' inputs', SameInput args args' →
    createVersion P s' args' inputs' = .ok (version, s')
  /-- An input gets the same version, then or later, exactly when it says the
  same. -/
  distinct : ∀ later args' inputs' version' t,
    createVersion P (run (step P) s' later) args' inputs' =
      .ok (version', t) →
    ∀ a b c d, Drafts P s args a c →
      Drafts P (run (step P) s' later) args' b d →
      (version.reportVersionId = version'.reportVersionId ↔
        a.SaysSame b ∧
          canonicalForm (.arr c) [] = canonicalForm (.arr d) [])

/-- The versions of every report are numbered from one, each links to the
version that was active when it was created, and without collisions of the
digest `create_version` answers inputs of one content with one version and
inputs of different contents with different ones. -/
theorem createVersion_idempotent_by_content {P : Platform}
    (hdigest : Function.Injective P.sha256) (world : World) (ops : List Op) :
    (∀ reportId, ((reached P world ops).versionsOf reportId).map
        ReportVersion.versionNumber =
      List.range' 1 ((reached P world ops).versionsOf reportId).length) ∧
    (∀ version ∈ (reached P world ops).versions,
      ∃ before args inputs after,
        ops = before ++ .createVersion args inputs :: after ∧
        version ∉ (reached P world before).versions ∧
        createVersion P (reached P world before) args inputs = .ok (version,
          reached P world (before ++ [.createVersion args inputs])) ∧
        LinksToActive (reached P world before) version) ∧
    ∀ args inputs version s',
      createVersion P (reached P world ops) args inputs = .ok (version, s') →
      ContentDecides P (reached P world ops) args version s' := by
  have hs := identified_reached P world ops
  refine ⟨hs.numbered.numbers, fun version hmem => created_of_mem P world ops
    hmem, fun args inputs version s' h => ?_⟩
  exact
    { stored := createVersion_versions h
      content := fun a citations ha => saysSame_of_drafts hdigest hs h ha
      again := fun args' inputs' hsame =>
        createVersion_again hdigest hs h hsame inputs'
      distinct := fun later args' inputs' version' t h' a b c d ha hb =>
        reportVersionId_eq_iff hdigest hs h h' ha hb }

end

end

/-! ## Two sections in either order -/

/-- A section that states its order. -/
def placedSection (title : String) (order : ℤ) : Json :=
  .obj [("section_id", .str title), ("title", .str title),
    ("order", .int order)]

def twoSections (sections : List Json) : CreateVersionArgs :=
  { versionArgs [] with sections := sections }

/-- A report without versions. -/
def oneReport : List Op :=
  [.createReport
    { caseId := "case", title := .str "R", createdBy := .str "a" }
    (callAt 1 "r")]

/-- The second call, with its sections the other way round and another
identifier at hand, returns the first version. -/
theorem createVersion_idempotent_twoSections :
    ∃ version s', createVersion spelledPlatform
        (reached spelledPlatform oneCase oneReport)
        (twoSections [placedSection "A" 1, placedSection "B" 2])
        (callAt 2 "v") = .ok (version, s') ∧
      createVersion spelledPlatform s'
        (twoSections [placedSection "B" 2, placedSection "A" 1])
        (callAt 3 "w") = .ok (version, s') := by
  have hok : (createVersion spelledPlatform
      (reached spelledPlatform oneCase oneReport)
      (twoSections [placedSection "A" 1, placedSection "B" 2])
      (callAt 2 "v")).toOption.isSome = true := by
    decide +kernel
  obtain ⟨⟨version, s'⟩, hok⟩ := exists_ok_of_isSome hok
  obtain ⟨-, -, hdecides⟩ := createVersion_idempotent_by_content
    (P := spelledPlatform) Custody.spellOut_injective oneCase oneReport
  have hsame : SameInput
      (twoSections [placedSection "A" 1, placedSection "B" 2])
      (twoSections [placedSection "B" 2, placedSection "A" 1]) := by
    refine sameInput_of_perm (List.Perm.swap _ _ _) fun raw hraw i j => ?_
    rcases List.mem_cons.mp hraw with rfl | hraw
    · rfl
    · obtain rfl := List.mem_singleton.mp hraw
      rfl
  exact ⟨version, s', hok, (hdecides _ _ version s' hok).again _ _ hsame⟩

end ApexForensic.Reports
