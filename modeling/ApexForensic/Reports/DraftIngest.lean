import Mathlib.Data.List.DropRight
import ApexForensic.Reports.VersionIdentity
import ApexForensic.Support.Atomicity

/-!
# Ingesting an AI draft

A draft without a report gets a placeholder report, stored before the version
is created.  The ingest runs most checks of `create_version` first; it is
atomic exactly when those it leaves out pass.
-/

namespace ApexForensic.Reports

open ApexForensic.Support ApexForensic.Domain

/-- An AI request, as far as an ingest reads it. -/
structure AiRequest where
  assistanceRequestId : String
  caseId : String
  contextSnapshotId : String

/-- The AI requests behind a world, each stored under its own id and for a
snapshot. -/
structure AiRequests (world : World) where
  getRequest : String → Except PyError AiRequest
  caseOf : ∀ {id request}, getRequest id = .ok request →
    world.aiRequestCase id = .ok request.caseId
  idOf : ∀ {id request}, getRequest id = .ok request →
    request.assistanceRequestId = id
  snapshotOf : ∀ {id request}, getRequest id = .ok request →
    request.contextSnapshotId ≠ ""

/-- What the checks of an ingest make of a payload. -/
structure IngestPlan where
  caseId : String
  request : AiRequest
  contextSnapshotIds : List String
  aiResultIds : List String
  providerMetadata : List (String × Json)
  createdBy : String
  title : String
  executiveSummary : String
  sections : List (List (String × Json))
  citations : List (List (String × Json))
  limitations : List String
  snapshots : List ContextSnapshot
  sectionObjects : List ReportSection
  sourceReference : String

section

variable (P : Platform)

def metadataString (value : Json) (target : String) :
    Except PyError String :=
  match value with
  | .null => .ok "UNKNOWN"
  | .str s =>
      if s = "" then
        .error (validationError "Provider metadata must be a non-empty string."
          (some target) [])
      else if maxRendererIdLength < s.length then
        .error (reportError "REPORT_CONTENT_LIMIT_EXCEEDED"
          "Provider metadata exceeds the maximum length." (some target) []
          false)
      else if forbiddenKeyParts.any fun part =>
          containsText part (P.casefold target) then
        .error (validationError "Provider metadata target is forbidden."
          (some target) [])
      else .ok s
  | _ => .error (validationError
      "Provider metadata must be a non-empty string." (some target) [])

def providerMetadata (payload : List (String × Json)) :
    Except PyError (List (String × Json)) := do
  let unknown := Json.str "UNKNOWN"
  let providerId ← metadataString P (getDefault payload "provider_id" unknown)
    "provider_id"
  let providerVersion ← metadataString P
    (getDefault payload "provider_version" unknown) "provider_version"
  let modelId ← metadataString P (getDefault payload "model_id" unknown)
    "model_id"
  let responseHash ← requiredNonEmpty P (getKey payload "response_hash")
    "response_hash"
  return [("provider_id", .str providerId),
    ("provider_version", .str providerVersion), ("model_id", .str modelId),
    ("external_request_id", getKey payload "external_request_id"),
    ("response_hash", .str responseHash),
    ("generated_at", getKey payload "generated_at"),
    ("correlation_id", getKey payload "correlation_id")]

def requiredList (payload : List (String × Json)) (field : String) :
    Except PyError (List Json) :=
  requiredOptionalList (getKey payload field) field

/-- An item of the sections, which must be a mapping. -/
def sectionMapping : Json → Except PyError (List (String × Json))
  | .obj fields => .ok fields
  | _ => .error (validationError "Sections must be JSON objects."
      (some "sections") [])

variable {world : World} (requests : AiRequests world)

/-- `ingest_ai_draft` before it stores anything. -/
def ingestRead (payload : List (String × Json)) (createdBy : Json) :
    Except PyError IngestPlan := do
  validateContractPayload P (.obj payload) "ai_report_draft"
  let caseId ← requiredNonEmpty P (getKey payload "case_id") "case_id"
  let requestId ← requiredNonEmpty P (getKey payload "assistance_request_id")
    "assistance_request_id"
  let request ← requests.getRequest requestId
  if request.caseId ≠ caseId then
    .error (reportError "REPORT_REFERENCE_CASE_MISMATCH"
      "AI assistance request belongs to another case."
      (some "assistance_request_id") [] false)
  let snapshotIds ← stringList
    (getDefault payload "context_snapshot_ids"
      (.arr [.str request.contextSnapshotId]))
    "context_snapshot_ids" maxContextSnapshotCount
  let contextSnapshotIds :=
    if request.contextSnapshotId ∈ snapshotIds then snapshotIds
    else snapshotIds ++ [request.contextSnapshotId]
  let aiResultIds ← stringList (getDefault payload "ai_result_ids" (.arr []))
    "ai_result_ids" maxReferenceCount
  let _ ← validateAiResultIds world caseId aiResultIds
  let metadata ← providerMetadata P payload
  let createdBy ← boundedNonEmpty createdBy "created_by" maxActorIdLength
  let title ← boundedNonEmpty (getKey payload "title") "title"
    maxReportTitleLength
  let title ← safeText P title "title"
  let executiveSummary ← boundedNonEmpty (getKey payload "executive_summary")
    "executive_summary" maxReportTextLength
  let executiveSummary ← safeText P executiveSummary "executive_summary"
  let rawSections ← requiredList payload "sections"
  if rawSections = [] ∨ maxSectionCount < rawSections.length then
    .error (sectionLimitError
      "Report version must contain a bounded non-empty section list."
      "sections")
  let fields ← rawSections.mapM sectionMapping
  let sections := fields.map (setDefault "source_kind" (.str "AI_DRAFT"))
  let rawCitations ← listOrEmpty (getKey payload "citations")
  let citations ← rawCitations.mapM pyDict
  let limitations ← stringList
    (getDefault payload "limitations"
      (.arr [.str "AI draft requires human review."]))
    "limitations" maxLimitationCount
  validateStringLengths limitations "limitations" maxLimitationLength
  let snapshots ← requireSnapshots world caseId contextSnapshotIds
  let sectionObjects ← sectionsFromInput P world caseId snapshots 1
    (sections.map Json.obj)
  let _ ← validateCitations P world caseId snapshots citations false
    "citations"
  let external := getKey payload "external_request_id"
  let sourceReference ← boundedNonEmpty
    (if truthy external then external else .str request.assistanceRequestId)
    "source_reference_id" maxIdLength
  return {
    caseId, request, contextSnapshotIds, aiResultIds
    providerMetadata := metadata
    createdBy, title, executiveSummary, sections, citations, limitations,
    snapshots, sectionObjects, sourceReference }

def IngestPlan.placeholder (plan : IngestPlan) : CreateReportArgs where
  caseId := plan.caseId
  title := .str plan.title
  createdBy := .str plan.createdBy
  description := .str
    "AI draft ingest placeholder; content remains in immutable versions."

def IngestPlan.versionArgs (plan : IngestPlan) (reportId : String) :
    CreateVersionArgs where
  reportId := reportId
  sourceKind := .str "AI_DRAFT"
  sourceReferenceId := .str plan.sourceReference
  createdBy := .str plan.createdBy
  title := .str plan.title
  executiveSummary := .str plan.executiveSummary
  sections := plan.sections.map Json.obj
  contextSnapshotIds := jsonStrs plan.contextSnapshotIds
  aiAssistanceRequestIds := jsonStrs [plan.request.assistanceRequestId]
  aiResultIds := jsonStrs plan.aiResultIds
  citations := plan.citations.map Json.obj
  limitations := jsonStrs plan.limitations
  analyzerVersions := .obj plan.providerMetadata

/-- The report that the version is for: the given one, or a placeholder that
is stored in a transaction of its own. -/
def ingestTarget (reportId : Option String) (inputs : CallInputs)
    (plan : IngestPlan) : Service Store PyError String :=
  match reportId with
  | some reportId => pure reportId
  | none => Service.commit fun s => do
      let (report, s) ← createReport P s plan.placeholder inputs
      .ok (report.reportId, s)

def ingestAiDraft (payload : List (String × Json)) (reportId : Option String)
    (createdBy : Json) (inputs : ℕ → CallInputs) :
    Service Store PyError ReportVersion := do
  let plan ← Service.read fun _ => ingestRead P requests payload createdBy
  let reportId ← ingestTarget P reportId (inputs 0) plan
  Service.commit fun s =>
    createVersion P s (plan.versionArgs reportId) (inputs 1)

end

/-! ## Checks that run twice -/

theorem prefix_stripChars (cs : List Char) :
    stripChars cs <+: cs.dropWhile isSpace :=
  List.rdropWhile_prefix isSpace _

theorem stripChars_stripChars (cs : List Char) :
    stripChars (stripChars cs) = stripChars cs := by
  have hfixed : (stripChars cs).dropWhile isSpace = stripChars cs := by
    refine List.dropWhile_eq_self_iff.mpr fun hpos => ?_
    rw [(prefix_stripChars cs).getElem hpos]
    exact List.dropWhile_get_zero_not isSpace cs
      (hpos.trans_le (prefix_stripChars cs).length_le)
  rw [stripChars, hfixed]
  exact List.rdropWhile_idempotent isSpace (cs.dropWhile isSpace)

theorem strip_strip (s : String) : strip (strip s) = strip s := by
  rw [strip, strip, String.toList_ofList, stripChars_stripChars]

theorem length_strip_le (s : String) : (strip s).length ≤ s.length := by
  rw [strip, String.length_ofList, ← String.length_toList]
  exact (prefix_stripChars _).length_le.trans
    (List.dropWhile_sublist _).length_le

theorem boundedNonEmpty_again {value : Json} {target : String} {maximum : ℕ}
    {text : String} (h : boundedNonEmpty value target maximum = .ok text) :
    boundedNonEmpty (.str text) target maximum = .ok text ∧
      strip text = text ∧ text ≠ "" ∧ text.length ≤ maximum := by
  rw [boundedNonEmpty.eq_def] at h
  split at h
  · rename_i s
    split_ifs at h with hempty hlength
    obtain rfl := Except.ok.inj h
    have hle := (length_strip_le s).trans (not_lt.mp hlength)
    refine ⟨?_, strip_strip s, hempty, hle⟩
    rw [boundedNonEmpty.eq_def]
    simp [strip_strip, hempty, hle]
  · cases h

theorem requiredNonEmpty_ne {P : Platform} {value : Json}
    {target text : String} (h : requiredNonEmpty P value target = .ok text) :
    text ≠ "" := by
  rw [requiredNonEmpty.eq_def] at h
  split at h
  · cases h
  · simp only [Bool.false_eq_true, false_or] at h
    split_ifs at h with hempty
    obtain rfl := Except.ok.inj h
    exact hempty

theorem safeText_eq_ok {P : Platform} {value target text : String}
    (h : safeText P value target = .ok text) : text = value := by
  rw [safeText] at h
  split_ifs at h
  exact (Except.ok.inj h).symm

theorem strings?_map_str (values : List String) :
    strings? (values.map Json.str) = some values := by
  induction values with
  | nil => rfl
  | cons value values ih => rw [List.map_cons, strings?, ih]; rfl

theorem dedupe_dedupe (values : List String) :
    dedupe (dedupe values) = dedupe values := by
  have hkept : (dedupe values).filter (· ≠ "") = dedupe values := by
    refine List.filter_eq_self.mpr fun v hv => ?_
    rw [dedupe, mem_sortedUnique] at hv
    exact (List.mem_filter.mp hv).2
  have hnodup : (dedupe values).Nodup := nodup_sortedUnique _
  rw [dedupe, hkept, sortedUnique, hnodup.dedup]
  exact (List.pairwise_insertionSort _ _).insertionSort_eq

theorem stringList_jsonStrs {values : List String} (target : String)
    {maxItems : ℕ} (hne : "" ∉ values) :
    stringList (jsonStrs values) target maxItems =
      if maxItems < values.length then .error (listLimitError target)
      else .ok (dedupe values) := by
  rw [jsonStrs, stringList.eq_def]
  simp only [strings?_map_str, if_neg hne]

theorem stringList_again {value : Json} {target : String} {maxItems : ℕ}
    {values : List String} (h : stringList value target maxItems = .ok values) :
    "" ∉ values ∧ dedupe values = values ∧ values.length ≤ maxItems := by
  rw [stringList.eq_def] at h
  split at h
  · obtain rfl := Except.ok.inj h
    exact ⟨List.not_mem_nil, rfl, Nat.zero_le _⟩
  · split at h
    · rename_i items texts htexts
      split_ifs at h with hempty hlength
      obtain rfl := Except.ok.inj h
      refine ⟨fun hmem => ?_, dedupe_dedupe texts, ?_⟩
      · rw [dedupe, mem_sortedUnique] at hmem
        exact absurd rfl (of_decide_eq_true (List.mem_filter.mp hmem).2)
      · refine le_trans ?_ (not_lt.mp hlength)
        rw [dedupe, sortedUnique, List.length_insertionSort]
        exact (List.dedup_sublist _).length_le.trans
          (List.length_filter_le _ _)
    · cases h
  · cases h

/-! ## What an ingest has checked -/

/-- What `create_version` need not find out again. -/
structure Checked (P : Platform) (world : World)
    (payload : List (String × Json)) (plan : IngestPlan) : Prop where
  ownCase : requiredNonEmpty P (getKey payload "case_id") "case_id" =
    .ok plan.caseId
  requestCase :
    world.aiRequestCase plan.request.assistanceRequestId = .ok plan.caseId
  requestId : plan.request.assistanceRequestId ≠ ""
  snapshotId : plan.request.contextSnapshotId ≠ "" ∧
    plan.request.contextSnapshotId ∈ plan.contextSnapshotIds
  snapshotIds : "" ∉ plan.contextSnapshotIds
  aiResultIds : "" ∉ plan.aiResultIds ∧
    dedupe plan.aiResultIds = plan.aiResultIds ∧
    plan.aiResultIds.length ≤ maxReferenceCount
  aiResults : ∃ ids,
    validateAiResultIds world plan.caseId plan.aiResultIds = .ok ids
  createdBy : boundedNonEmpty (.str plan.createdBy) "created_by"
    maxActorIdLength = .ok plan.createdBy
  title : boundedNonEmpty (.str plan.title) "title" maxReportTitleLength =
    .ok plan.title
  safeTitle : safeText P plan.title "title" = .ok plan.title
  summary : strip plan.executiveSummary = plan.executiveSummary ∧
    plan.executiveSummary ≠ "" ∧
    plan.executiveSummary.length ≤ maxReportTextLength
  safeSummary : safeText P plan.executiveSummary "executive_summary" =
    .ok plan.executiveSummary
  sections : ¬ (plan.sections.map Json.obj = [] ∨
    maxSectionCount < (plan.sections.map Json.obj).length)
  citations : ∃ citations, validateCitations P world plan.caseId
    plan.snapshots plan.citations false "citations" = .ok citations
  limitations : "" ∉ plan.limitations ∧
    dedupe plan.limitations = plan.limitations ∧
    plan.limitations.length ≤ maxLimitationCount
  limitationLengths : validateStringLengths plan.limitations "limitations"
    maxLimitationLength = .ok ()
  snapshots : requireSnapshots world plan.caseId plan.contextSnapshotIds =
    .ok plan.snapshots
  sectionObjects : sectionsFromInput P world plan.caseId plan.snapshots 1
    (plan.sections.map Json.obj) = .ok plan.sectionObjects
  sourceReference : plan.sourceReference.length ≤ maxIdLength
  metadata : plan.providerMetadata ≠ []

variable {P : Platform} {world : World} {requests : AiRequests world}
  {payload : List (String × Json)} {createdBy : Json} {plan : IngestPlan}

theorem ingestRead_eq_ok (h : ingestRead P requests payload createdBy =
    .ok plan) : Checked P world payload plan := by
  rw [ingestRead.eq_def] at h
  obtain ⟨-, -, h⟩ := bind_ok h
  obtain ⟨caseId, hcase, h⟩ := bind_ok h
  obtain ⟨requestId, hrequestId, h⟩ := bind_ok h
  obtain ⟨request, hrequest, h⟩ := bind_ok h
  obtain ⟨hsame, h⟩ := check_ok h
  obtain ⟨snapshotIds, hsnapshotIds, h⟩ := bind_ok h
  obtain ⟨aiResultIds, haiResultIds, h⟩ := bind_ok h
  obtain ⟨owned, howned, h⟩ := bind_ok h
  obtain ⟨metadata, hmetadata, h⟩ := bind_ok h
  obtain ⟨createdBy, hcreatedBy, h⟩ := bind_ok h
  obtain ⟨rawTitle, htitle, h⟩ := bind_ok h
  obtain ⟨title, hsafeTitle, h⟩ := bind_ok h
  obtain ⟨rawSummary, hsummary, h⟩ := bind_ok h
  obtain ⟨summary, hsafeSummary, h⟩ := bind_ok h
  obtain ⟨rawSections, hrawSections, h⟩ := bind_ok h
  obtain ⟨hbounded, h⟩ := check_ok h
  obtain ⟨fields, hfields, h⟩ := bind_ok h
  obtain ⟨rawCitations, -, h⟩ := bind_ok h
  obtain ⟨citations, -, h⟩ := bind_ok h
  obtain ⟨limitations, hlimitations, h⟩ := bind_ok h
  obtain ⟨_, hlengths, h⟩ := bind_ok h
  obtain ⟨snapshots, hsnapshots, h⟩ := bind_ok h
  obtain ⟨sectionObjects, hsections, h⟩ := bind_ok h
  obtain ⟨checkedCitations, hcitations, h⟩ := bind_ok h
  obtain ⟨sourceReference, hreference, h⟩ := bind_ok h
  obtain rfl := Except.ok.inj h
  obtain rfl := safeText_eq_ok hsafeTitle
  obtain rfl := safeText_eq_ok hsafeSummary
  obtain rfl := requests.idOf hrequest
  obtain rfl := not_not.mp hsame
  obtain ⟨-, hstripped, hne, hle⟩ := boundedNonEmpty_again hsummary
  have hlength := (mapM_eq_ok_iff.mp hfields).length_eq
  refine
    { ownCase := hcase
      requestCase := requests.caseOf hrequest
      requestId := requiredNonEmpty_ne hrequestId
      snapshotId := ⟨requests.snapshotOf hrequest, ?_⟩
      snapshotIds := ?_
      aiResultIds := stringList_again haiResultIds
      aiResults := ⟨owned, howned⟩
      createdBy := (boundedNonEmpty_again hcreatedBy).1
      title := (boundedNonEmpty_again htitle).1
      safeTitle := hsafeTitle
      summary := ⟨hstripped, hne, hle⟩
      safeSummary := hsafeSummary
      sections := ?_
      citations := ⟨checkedCitations, hcitations⟩
      limitations := stringList_again hlimitations
      limitationLengths := hlengths
      snapshots := hsnapshots
      sectionObjects := hsections
      sourceReference := (boundedNonEmpty_again hreference).2.2.2
      metadata := ?_ }
  · dsimp only
    split_ifs with hmem
    · exact hmem
    · exact List.mem_append_right _ (List.mem_singleton_self _)
  · dsimp only
    split_ifs
    · exact (stringList_again hsnapshotIds).1
    · rw [List.mem_append, List.mem_singleton, not_or]
      exact ⟨(stringList_again hsnapshotIds).1,
        (requests.snapshotOf hrequest).symm⟩
  · dsimp only
    rw [← List.length_eq_zero_iff, List.length_map, List.length_map, ← hlength,
      List.length_eq_zero_iff]
    exact hbounded
  · obtain ⟨_, -, hmetadata⟩ := bind_ok hmetadata
    obtain ⟨_, -, hmetadata⟩ := bind_ok hmetadata
    obtain ⟨_, -, hmetadata⟩ := bind_ok hmetadata
    obtain ⟨_, -, hmetadata⟩ := bind_ok hmetadata
    rw [← Except.ok.inj hmetadata]
    exact List.cons_ne_nil _ _

/-! ## The version of a plan -/

theorem mapM_pyDict_obj (items : List (List (String × Json))) :
    (items.map Json.obj).mapM pyDict = .ok items := by
  rw [mapM_eq_ok_iff, List.forall₂_map_left_iff, List.forall₂_same]
  exact fun _ _ => rfl

theorem orEmptyList_jsonStrs (values : List String) :
    orEmptyList (jsonStrs values) = jsonStrs values := by
  cases values with
  | nil => rfl
  | cons value values => rfl

theorem requireSnapshots_dedupe (caseId : String) (ids : List String) :
    requireSnapshots world caseId (dedupe ids) =
      requireSnapshots world caseId ids := by
  rw [requireSnapshots, dedupe_dedupe, requireSnapshots]

theorem dedupe_singleton {id : String} (h : id ≠ "") : dedupe [id] = [id] := by
  have hkept : [id].filter (· ≠ "") = [id] :=
    List.filter_eq_self.mpr fun v hv => by
      rw [List.mem_singleton.mp hv]
      exact decide_eq_true h
  rw [dedupe, hkept]
  rfl

/-- The draft of a plan whose result ids and citations are checked. -/
def IngestPlan.draft (plan : IngestPlan) (aiResultIds : List String)
    (citations : List Json) : VersionDraft where
  sourceKind := .aiDraft
  sourceReferenceId := some plan.sourceReference
  createdBy := plan.createdBy
  title := plan.title
  executiveSummary := plan.executiveSummary
  sections := plan.sectionObjects.insertionSort
    (orderBy ReportSection.order ReportSection.sectionId)
  snapshots := plan.snapshots
  evidenceIds := []
  searchExecutionIds := []
  timelineRevisions := []
  aiAssistanceRequestIds := [plan.request.assistanceRequestId]
  aiResultIds := aiResultIds
  citations := citations
  limitations := plan.limitations
  analyzerVersions := plan.providerMetadata

/-- The checks of `create_version` that an ingest does not run. -/
theorem versionDraft_plan (h : Checked P world payload plan)
    (reportId : String) :
    ∃ aiResultIds citations,
      versionDraft P world plan.caseId (plan.versionArgs reportId) =
        if maxContextSnapshotCount < plan.contextSnapshotIds.length then
          .error (listLimitError "context_snapshot_ids")
        else if plan.limitations = [] then
          .error (reportError "REPORT_LIMITATIONS_REQUIRED"
            "Report versions must record limitations." (some "limitations")
            [] false)
        else validateContractPayload P (.obj plan.providerMetadata)
          "analyzer_versions" >>= fun _ =>
            .ok (plan.draft aiResultIds citations) := by
  obtain ⟨results, hresults⟩ := h.aiResults
  obtain ⟨citations, hcitations⟩ := h.citations
  have hkind : enumValue SourceKind.members SourceKind.value
      (.str "AI_DRAFT") "source_kind" = .ok .aiDraft := rfl
  have hreference : boundedOptionalText (.str plan.sourceReference)
      "source_reference_id" maxIdLength = .ok (some plan.sourceReference) :=
    if_neg (not_lt.mpr h.sourceReference)
  have hsummary : requiredNonEmpty P (.str plan.executiveSummary)
      "executive_summary" = .ok plan.executiveSummary := by
    rw [requiredNonEmpty.eq_def]
    simp [pyStr, h.summary.1, h.summary.2.1]
  have hrequests : validateAiRequestIds world plan.caseId
      [plan.request.assistanceRequestId] =
        .ok [plan.request.assistanceRequestId] := by
    rw [validateAiRequestIds, validateReferences, dedupe_singleton h.requestId,
      List.mapM_cons, h.requestCase, ok_bind, if_neg (not_not.mpr rfl)]
    rfl
  have hmetadata : pyDictOrEmpty (.obj plan.providerMetadata) =
      .ok plan.providerMetadata := by
    rw [pyDictOrEmpty, if_pos]
    · rfl
    · simpa [truthy] using h.metadata
  have hsnapshots : requireSnapshots world plan.caseId
      (dedupe plan.contextSnapshotIds) = .ok plan.snapshots :=
    (requireSnapshots_dedupe _ _).trans h.snapshots
  have hnone (target : String) :
      stringList (orEmptyList .null) target maxReferenceCount = .ok [] := rfl
  have hnoInts : integerList (orEmptyList .null) "timeline_revisions"
      maxReferenceCount = .ok [] := rfl
  have hnoEvidence : validateEvidenceIds world plan.caseId [] = .ok [] := rfl
  have hnoSearches : validateSearchExecutionIds world plan.caseId [] =
    .ok [] := rfl
  have hagain {values : List String} (target : String) {maximum : ℕ}
      (hlist : "" ∉ values ∧ dedupe values = values ∧
        values.length ≤ maximum) :
      stringList (jsonStrs values) target maximum = .ok values := by
    rw [stringList_jsonStrs _ hlist.1, if_neg (not_lt.mpr hlist.2.2),
      hlist.2.1]
  have hrequest : stringList (jsonStrs [plan.request.assistanceRequestId])
      "ai_assistance_request_ids" maxReferenceCount =
        .ok [plan.request.assistanceRequestId] := by
    refine hagain _ ⟨?_, dedupe_singleton h.requestId,
      (by decide : 1 ≤ maxReferenceCount)⟩
    rw [List.mem_singleton]
    exact h.requestId.symm
  refine ⟨results, citations, ?_⟩
  rw [versionDraft.eq_def]
  simp only [IngestPlan.versionArgs, hkind, h.createdBy, h.title,
    h.safeTitle, hreference, hsummary, h.safeSummary, ok_bind,
    if_neg (not_lt.mpr h.summary.2.2), if_neg h.sections,
    orEmptyList_jsonStrs, stringList_jsonStrs _ h.snapshotIds]
  split_ifs with hmany hlimitations
  · rfl
  · simp only [ok_bind, hsnapshots, hnone, hnoInts, hnoEvidence, hnoSearches,
      hrequest, hrequests, hagain _ h.aiResultIds, hresults, mapM_pyDict_obj,
      hcitations, hagain _ h.limitations, if_pos hlimitations]
    rfl
  · simp only [ok_bind, hsnapshots, hnone, hnoInts, hnoEvidence, hnoSearches,
      hrequest, hrequests, hagain _ h.aiResultIds, hresults, mapM_pyDict_obj,
      hcitations, hagain _ h.limitations, if_neg hlimitations,
      h.limitationLengths, hmetadata, h.sectionObjects]
    rfl

/-! ## The placeholder -/

variable {s s' : Store} {inputs : CallInputs} {report : ReportRecord}
  {args : CreateVersionArgs} {version : ReportVersion}

/-- What an ingest without a report needs beyond its own checks. -/
structure Accepts (P : Platform) (s : Store) (plan : IngestPlan)
    (inputs : CallInputs) : Prop where
  limitations : plan.limitations ≠ []
  snapshotIds : plan.contextSnapshotIds.length ≤ maxContextSnapshotCount
  metadata : validateContractPayload P (.obj plan.providerMetadata)
    "analyzer_versions" = .ok ()
  sectionIds : (plan.sectionObjects.map ReportSection.sectionId).Nodup
  snapshotTimes : ∀ snapshot ∈ plan.snapshots,
    ∃ text, toJsonTimestamp snapshot.createdAt = .ok text
  clock : ∃ text, toJsonTimestamp inputs.now = .ok text
  newId : ∀ v ∈ s.versions, inputs.newId ≠ v.reportVersionId

theorem createReport_placeholder
    (h : createReport P s plan.placeholder inputs = .ok (report, s')) :
    s' = { s with reports := s.reports ++ [report] } ∧
      s.report? report.reportId = none ∧
      s'.getReport report.reportId = .ok report ∧
      report.caseId = plan.caseId ∧ report.status = .draft ∧
      report.activeVersionId = none := by
  obtain ⟨hread, hnone, rfl⟩ := createReport_spec h
  have hfound : Store.report? { s with reports := s.reports ++ [report] }
      report.reportId = some report := by
    rw [Store.report?] at hnone
    rw [Store.report?, List.find?_append, hnone]
    simp
  have hget : Store.getReport { s with reports := s.reports ++ [report] }
      report.reportId = .ok report := by
    rw [Store.getReport, hfound]
  obtain ⟨title, -, hread⟩ := bind_ok hread
  obtain ⟨createdBy, -, hread⟩ := bind_ok hread
  obtain ⟨description, -, hread⟩ := bind_ok hread
  split at hread
  · cases hread
  · obtain ⟨_, -, hread⟩ := bind_ok hread
    obtain ⟨_, -, hread⟩ := bind_ok hread
    obtain ⟨_, -, hread⟩ := bind_ok hread
    obtain ⟨_, -, hread⟩ := bind_ok hread
    obtain rfl := Except.ok.inj hread
    exact ⟨rfl, hnone, hget, rfl, rfl, rfl⟩

/-- A version of a report without versions is stored unless its row is
refused. -/
theorem createVersion_first_iff {draft : VersionDraft}
    {previous : Option ReportVersion} {revisions : List Json}
    (hread : VersionRead P s args report draft previous revisions)
    (hnone : ∀ v ∈ s.versions, v.reportId ≠ report.reportId) :
    (∃ r, createVersion P s args inputs = .ok r) ↔
      (∃ text, toJsonTimestamp inputs.now = .ok text) ∧
      (∀ v ∈ s.versions, inputs.newId ≠ v.reportVersionId) ∧
      Store.checkVersionRows
        (newVersion P report previous draft revisions inputs) = .ok () := by
  have hfound : s.versionByFingerprint? report.reportId
      (newVersion P report previous draft revisions
        inputs).contentFingerprint = none :=
    List.find?_eq_none.mpr fun v hv h =>
      hnone v hv (of_decide_eq_true h).1
  have hcreate : createVersion P s args inputs =
      toJsonTimestamp inputs.now >>= fun _ =>
        s.saveReportVersion
          (newVersion P report previous draft revisions inputs)
          (report.afterVersion
            (newVersion P report previous draft revisions inputs)
            inputs.now) >>= fun t =>
          .ok (newVersion P report previous draft revisions inputs, t) := by
    rw [createVersion.eq_def, hread.header, ok_bind,
      if_neg hread.notArchived]
    simp only [hread.drafted, hread.active, hread.revised, ok_bind, hfound]
    rfl
  rw [hcreate]
  constructor
  · rintro ⟨⟨v, t⟩, h⟩
    obtain ⟨text, hclock, h⟩ := bind_ok h
    obtain ⟨u, hsave, -⟩ := bind_ok h
    obtain ⟨versions, hinsert, hsave⟩ := bind_ok hsave
    obtain ⟨_, hrows, -⟩ := bind_ok hsave
    refine ⟨⟨text, hclock⟩, fun w hw => ?_, hrows⟩
    have hkeys := (insertRow_eq_ok_iff.mp hinsert).2
    exact of_decide_eq_false (hkeys _ List.mem_cons_self w hw)
  · rintro ⟨⟨text, hclock⟩, hnew, hrows⟩
    refine ⟨_, bind_eq_ok_iff.mpr ⟨text, hclock, bind_eq_ok_iff.mpr ⟨_,
      bind_eq_ok_iff.mpr ⟨_, insertRow_eq_ok_iff.mpr ⟨rfl, ?_⟩,
        bind_eq_ok_iff.mpr ⟨(), hrows, rfl⟩⟩, rfl⟩⟩⟩
    intro c hc w hw
    have hother := hnone w hw
    rcases List.mem_cons.mp hc with rfl | hc
    · exact decide_eq_false (hnew w hw)
    rcases List.mem_cons.mp hc with rfl | hc
    · exact decide_eq_false fun h => hother h.1.symm
    · obtain rfl := List.mem_singleton.mp hc
      exact decide_eq_false fun h => hother h.1.symm

theorem exists_mapM_ok {α β : Type} {f : α → Except PyError β} {l : List α}
    (h : ∀ a ∈ l, ∃ b, f a = .ok b) : ∃ r, l.mapM f = .ok r := by
  induction l with
  | nil => exact ⟨[], rfl⟩
  | cons a l ih =>
      obtain ⟨b, hb⟩ := h a List.mem_cons_self
      obtain ⟨r, hr⟩ := ih fun x hx => h x (List.mem_cons_of_mem a hx)
      exact ⟨b :: r, by rw [List.mapM_cons, hb, ok_bind, hr]; rfl⟩

theorem sourceRevisions_ok_iff {snapshots : List ContextSnapshot} :
    (∃ revisions, (snapshots.insertionSort fun a b =>
      a.contextSnapshotId ≤ b.contextSnapshotId).mapM (sourceRevision P) =
        .ok revisions) ↔
      ∀ snapshot ∈ snapshots,
        ∃ text, toJsonTimestamp snapshot.createdAt = .ok text := by
  constructor
  · rintro ⟨revisions, h⟩ snapshot hsnapshot
    obtain ⟨_, -, hrevision⟩ := exists_ok_of_mem_mapM h
      ((List.mem_insertionSort _).mpr hsnapshot)
    obtain ⟨text, htext, -⟩ := bind_ok hrevision
    exact ⟨text, htext⟩
  · intro h
    refine exists_mapM_ok fun snapshot hsnapshot => ?_
    obtain ⟨text, htext⟩ := h snapshot ((List.mem_insertionSort _).mp hsnapshot)
    exact ⟨_, bind_eq_ok_iff.mpr ⟨text, htext, rfl⟩⟩

theorem checkVersionRows_eq_ok_iff :
    Store.checkVersionRows version = .ok () ↔
      (version.sections.map ReportSection.sectionId).Nodup ∧
        version.timelineRevisions.Nodup := by
  rw [Store.checkVersionRows]
  split
  · rename_i hsections
    exact iff_of_false (fun h => by cases h) fun h => hsections h.1
  · rename_i hsections
    split
    · rename_i htimeline
      exact iff_of_false (fun h => by cases h) fun h => htimeline h.2
    · rename_i htimeline
      exact iff_of_true rfl ⟨not_not.mp hsections, not_not.mp htimeline⟩

/-- The version of a placeholder is stored exactly when the plan is one that
is accepted. -/
theorem createVersion_placeholder_iff (hs : Numbered s) (inputs' : CallInputs)
    (hplan : Checked P s.world payload plan)
    (h : createReport P s plan.placeholder inputs = .ok (report, s')) :
    (∃ r, createVersion P s' (plan.versionArgs report.reportId) inputs' =
      .ok r) ↔ Accepts P s plan inputs' := by
  obtain ⟨rfl, hnew, hget, hcase, hstatus, hactive⟩ :=
    createReport_placeholder h
  obtain ⟨aiResultIds, citations, hdraft⟩ :=
    versionDraft_plan hplan report.reportId
  rw [← hcase] at hdraft
  have hnone : ∀ v ∈ s.versions, v.reportId ≠ report.reportId := by
    intro v hv heq
    have howned := hs.owned v hv
    rw [heq, hnew] at howned
    cases howned
  have hsections : ((plan.draft aiResultIds citations).sections.map
      ReportSection.sectionId).Nodup ↔
        (plan.sectionObjects.map ReportSection.sectionId).Nodup :=
    ((List.perm_insertionSort _ _).map _).nodup_iff
  constructor
  · rintro ⟨⟨version, t⟩, hcreate⟩
    obtain ⟨r, draft, previous, revisions, hread, -⟩ :=
      createVersion_cases hcreate
    obtain rfl := Except.ok.inj (hget.symm.trans hread.header)
    obtain ⟨hclock, hfresh, hrows⟩ :=
      (createVersion_first_iff hread hnone).mp ⟨_, hcreate⟩
    have hdrafted := hdraft.symm.trans hread.drafted
    split_ifs at hdrafted with hmany hempty
    obtain ⟨_, hmetadata, hdrafted⟩ := bind_ok hdrafted
    obtain rfl := Except.ok.inj hdrafted
    exact
      { limitations := hempty
        snapshotIds := not_lt.mp hmany
        metadata := hmetadata
        sectionIds := hsections.mp (checkVersionRows_eq_ok_iff.mp hrows).1
        snapshotTimes := sourceRevisions_ok_iff.mp ⟨_, hread.revised⟩
        clock := hclock
        newId := hfresh }
  · intro haccepts
    rw [if_neg (not_lt.mpr haccepts.snapshotIds),
      if_neg haccepts.limitations, haccepts.metadata, ok_bind] at hdraft
    obtain ⟨revisions, hrevisions⟩ :=
      sourceRevisions_ok_iff.mpr haccepts.snapshotTimes
    have hread : VersionRead P { s with reports := s.reports ++ [report] }
        (plan.versionArgs report.reportId) report
        (plan.draft aiResultIds citations) none revisions :=
      { header := hget
        notArchived := by rw [hstatus]; exact ReportStatus.noConfusion
        drafted := hdraft
        active := by rw [activeVersion, hactive]
        revised := hrevisions }
    refine (createVersion_first_iff hread hnone).mpr
      ⟨haccepts.clock, haccepts.newId, checkVersionRows_eq_ok_iff.mpr ⟨?_, ?_⟩⟩
    · exact hsections.mpr haccepts.sectionIds
    · exact List.nodup_nil

/-! ## The law -/

/-- The version is stored, for a report of the payload's case. -/
def Ingested (P : Platform) (payload : List (String × Json))
    (version : ReportVersion) (s : Store) : Prop :=
  version ∈ s.versions ∧ ∃ report,
    s.report? version.reportId = some report ∧
    requiredNonEmpty P (getKey payload "case_id") "case_id" =
      .ok report.caseId

theorem createVersion_ingested
    (h : createVersion P s args inputs = .ok (version, s')) :
    ∃ report stored, s.getReport args.reportId = .ok report ∧
      version ∈ s'.versions ∧ version.reportId = report.reportId ∧
      s'.report? version.reportId = some stored ∧
      stored.caseId = report.caseId := by
  obtain ⟨report, draft, previous, revisions, hread, hid, -, -, hcases⟩ :=
    createVersion_found h
  obtain ⟨hfound, hown⟩ := getReport_eq_ok hread.header
  rw [← hown] at hfound
  rcases hcases with ⟨rfl, -⟩ | ⟨-, rfl⟩
  · exact ⟨report, report, hread.header, createVersion_mem h, hid,
      by rw [hid, hfound], rfl⟩
  · refine ⟨report, report.afterVersion version inputs.now, hread.header,
      createVersion_mem h, hid, ?_, rfl⟩
    rw [report?_withVersion hfound, if_pos hid.symm]

theorem caseId_of_requireSnapshots {caseId id : String} {ids : List String}
    {snapshots : List ContextSnapshot}
    (h : requireSnapshots world caseId ids = .ok snapshots) (hid : id ∈ ids)
    (hne : id ≠ "") :
    ∃ snapshot, world.snapshot id = some snapshot ∧
      snapshot.caseId = caseId := by
  have hmem : id ∈ dedupe ids := by
    rw [dedupe, mem_sortedUnique]
    exact List.mem_filter.mpr ⟨hid, decide_eq_true hne⟩
  obtain ⟨snapshot, -, hsnapshot⟩ := exists_ok_of_mem_mapM h hmem
  split at hsnapshot
  · cases hsnapshot
  · rename_i found hfound
    split_ifs at hsnapshot with hcase
    exact ⟨found, hfound, not_not.mp hcase⟩

/-- A version of a plan is accepted by reports of the plan's case only. -/
theorem caseId_of_versionDraft {caseId reportId : String}
    {draft : VersionDraft} (hplan : Checked P world payload plan)
    (h : versionDraft P world caseId (plan.versionArgs reportId) =
      .ok draft) : caseId = plan.caseId := by
  obtain ⟨_, -, h⟩ := bind_ok h
  obtain ⟨_, -, h⟩ := bind_ok h
  obtain ⟨_, -, h⟩ := bind_ok h
  obtain ⟨_, -, h⟩ := bind_ok h
  obtain ⟨_, -, h⟩ := bind_ok h
  obtain ⟨_, -, h⟩ := bind_ok h
  obtain ⟨_, -, h⟩ := bind_ok h
  obtain ⟨-, h⟩ := check_ok h
  obtain ⟨-, h⟩ := check_ok h
  obtain ⟨ids, hids, h⟩ := bind_ok h
  obtain ⟨snapshots, hsnapshots, -⟩ := bind_ok h
  have hlist : stringList (jsonStrs plan.contextSnapshotIds)
      "context_snapshot_ids" maxContextSnapshotCount = .ok ids := by
    rw [← orEmptyList_jsonStrs]
    exact hids
  rw [stringList_jsonStrs _ hplan.snapshotIds] at hlist
  split_ifs at hlist
  obtain rfl := Except.ok.inj hlist
  rw [requireSnapshots_dedupe] at hsnapshots
  obtain ⟨hne, hmem⟩ := hplan.snapshotId
  obtain ⟨one, hone, rfl⟩ := caseId_of_requireSnapshots hsnapshots hmem hne
  obtain ⟨two, htwo, heq⟩ :=
    caseId_of_requireSnapshots hplan.snapshots hmem hne
  rw [← heq, Option.some.inj (hone.symm.trans htwo)]

theorem Ingested.of_createVersion (hplan : Checked P s.world payload plan)
    {reportId : String} (h : createVersion P s (plan.versionArgs reportId)
      inputs = .ok (version, s')) : Ingested P payload version s' := by
  obtain ⟨report, draft, _, _, hread, -⟩ := createVersion_cases h
  obtain ⟨report', stored, hget, hmem, -, hstored, hcase⟩ :=
    createVersion_ingested h
  obtain rfl := Except.ok.inj (hread.header.symm.trans hget)
  refine ⟨hmem, stored, hstored, ?_⟩
  rw [hcase, caseId_of_versionDraft hplan hread.drafted]
  exact hplan.ownCase

theorem atomicAt_createVersion (hplan : Checked P s.world payload plan)
    {reportId : String} :
    Service.AtomicAt (Ingested P payload)
      (Service.commit fun s =>
        createVersion P s (plan.versionArgs reportId) inputs) s := by
  rcases Service.commit_cases (fun s =>
    createVersion P s (plan.versionArgs reportId) inputs) s with
    ⟨e, hresult, hafter⟩ | ⟨version, hresult, hcreate⟩
  · refine ⟨fun _ _ => hafter, fun version h => ?_⟩
    rw [hresult] at h
    cases h
  · refine ⟨fun e h => ?_, fun version' h => ?_⟩
    · rw [hresult] at h
      cases h
    · obtain rfl := Except.ok.inj (hresult.symm.trans h)
      exact .of_createVersion hplan hcreate

theorem ingestTarget_none_of_ok
    (h : createReport P s plan.placeholder inputs = .ok (report, s')) :
    (ingestTarget P none inputs plan).result s = .ok report.reportId ∧
      (ingestTarget P none inputs plan).after s = s' := by
  have hcommit : ingestTarget P none inputs plan s =
      (.ok report.reportId, s') := by
    rw [ingestTarget, Service.commit, h]
    rfl
  rw [Service.result, Service.after, hcommit]
  exact ⟨rfl, rfl⟩

/-- A report that was stored is not taken back with its version. -/
theorem after_createVersion_ne
    (hget : s'.getReport report.reportId = .ok report)
    (hnew : s.report? report.reportId = none) :
    (Service.commit fun t => createVersion P t
      (plan.versionArgs report.reportId) inputs).after s' ≠ s := by
  intro heq
  rcases Service.after_commit_cases (fun t => createVersion P t
    (plan.versionArgs report.reportId) inputs) s' with hsame | ⟨v, hcreate⟩
  · rw [← hsame, heq, Store.getReport, hnew] at hget
    cases hget
  · obtain ⟨report', stored, hget', -, hid, hstored, -⟩ :=
      createVersion_ingested hcreate
    obtain rfl := Except.ok.inj (hget.symm.trans hget')
    rw [heq, hid, hnew] at hstored
    cases hstored

theorem atomicAt_placeholder_iff (hs : Numbered s)
    (hplan : Checked P s.world payload plan) {inputs' : CallInputs} :
    Service.AtomicAt (Ingested P payload)
        (ingestTarget P none inputs plan >>= fun reportId =>
          Service.commit fun t =>
            createVersion P t (plan.versionArgs reportId) inputs') s ↔
      ∀ report s', createReport P s plan.placeholder inputs =
        .ok (report, s') → Accepts P s plan inputs' := by
  cases hcreate : createReport P s plan.placeholder inputs with
  | error e =>
      refine iff_of_true ?_ fun report s' h => by cases h
      have hrolls : Service.RollsBack (ingestTarget P none inputs plan) := by
        intro t e' h
        rcases Service.commit_cases _ t with ⟨-, -, hafter⟩ | ⟨a, hok, -⟩
        · exact hafter
        · cases h.symm.trans hok
      refine Service.atomicAt_of_error hrolls (e := e) ?_
      rw [ingestTarget, Service.result, Service.commit, hcreate]
      rfl
  | ok r =>
      obtain ⟨report, s'⟩ := r
      obtain ⟨hresult, hafter⟩ := ingestTarget_none_of_ok hcreate
      obtain ⟨hstored, hnew, hget, -⟩ := createReport_placeholder hcreate
      have hworld : s'.world = s.world := by rw [hstored]
      rw [Service.atomicAt_bind_iff_of_changed hresult (by
        rw [hafter]
        exact after_createVersion_ne hget hnew), hafter]
      have hiff := createVersion_placeholder_iff hs inputs' hplan hcreate
      constructor
      · rintro ⟨version, hversion, -⟩ report' t heq
        exact hiff.mp ⟨_, Service.commit_eq_ok hversion⟩
      · intro h
        obtain ⟨⟨version, t⟩, hversion⟩ := hiff.mpr (h report s' rfl)
        have hcommit := Service.commit_of_ok (f := fun t => createVersion P t
          (plan.versionArgs report.reportId) inputs') hversion
        refine ⟨version, congrArg Prod.fst hcommit, ?_⟩
        rw [Service.after, hcommit]
        exact .of_createVersion (hworld ▸ hplan) hversion

end ApexForensic.Reports
