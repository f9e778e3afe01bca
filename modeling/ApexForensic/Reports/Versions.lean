import ApexForensic.Reports.Model

/-!
# Creating reports and versions

A version is built from sections and references that are all checked against
the case of the report.  Its content fingerprint is the digest of what it
says, and a second version with the content of an earlier one is that one.
-/

namespace ApexForensic.Reports

open ApexForensic.Support ApexForensic.Domain

def maxReportTextLength : ℕ := 40000
def maxSectionCount : ℕ := 200
def maxSectionContentLength : ℕ := 20000
def maxLimitationCount : ℕ := 100
def maxIdLength : ℕ := 128
def maxActorIdLength : ℕ := 256
def maxReportTitleLength : ℕ := 500
def maxReportDescriptionLength : ℕ := 4000
def maxSectionTitleLength : ℕ := 500
def maxLimitationLength : ℕ := 4000
def maxContextSnapshotCount : ℕ := 1000
def maxCitationCount : ℕ := 1000
def maxStaleReasonCount : ℕ := 1000
def maxStaleReasonLength : ℕ := 500
def maxReferenceCount : ℕ := 10000

/-! ## Mappings -/

def pairFields (acc : List (String × Json)) :
    List Json → Except PyError (List (String × Json))
  | [] => .ok acc
  | .arr [.str key, value] :: items => pairFields (setItem key value acc) items
  | _ :: _ => .error (.builtin .typeError "cannot convert to a dictionary")

/-- `dict(value)`, of a mapping or of a list of pairs. -/
def pyDict : Json → Except PyError (List (String × Json))
  | .obj fields => .ok fields
  | .arr items => pairFields [] items
  | _ => .error (.builtin .typeError "cannot convert to a dictionary")

/-- `dict(value or {})`. -/
def pyDictOrEmpty (value : Json) : Except PyError (List (String × Json)) :=
  if truthy value then pyDict value else .ok []

/-- `mapping.setdefault(key, value)`. -/
def setDefault (key : String) (value : Json)
    (fields : List (String × Json)) : List (String × Json) :=
  if (Json.lookup key fields).isSome then fields
  else fields ++ [(key, value)]

section

variable (P : Platform) (world : World)

/-! ## References -/

/-- Every reference must exist and belong to the case. -/
def validateReferences (ownerOf : String → Except PyError String)
    (mismatch target caseId : String) (ids : List String) :
    Except PyError (List String) :=
  (dedupe ids).mapM fun id => do
    let owner ← ownerOf id
    if owner ≠ caseId then
      .error (reportError "REPORT_REFERENCE_CASE_MISMATCH" mismatch
        (some target) [] false)
    else .ok id

def referenceNotFound (message target : String) : PyError :=
  reportError "REPORT_REFERENCE_NOT_FOUND" message (some target) [] false

def validateEvidenceIds (caseId : String) (evidenceIds : List String) :
    Except PyError (List String) :=
  validateReferences
    (fun id =>
      match world.ledger.getEvidence id with
      | some evidence => .ok evidence.caseId
      | none => .error (referenceNotFound "Evidence not found."
          "evidence_ids"))
    "Evidence belongs to another case." "evidence_ids" caseId evidenceIds

def validateSearchExecutionIds (caseId : String)
    (executionIds : List String) : Except PyError (List String) :=
  validateReferences
    (fun id =>
      match world.searchExecutionCase id with
      | some owner => .ok owner
      | none => .error (referenceNotFound "Search execution not found."
          "search_execution_ids"))
    "Search execution belongs to another case." "search_execution_ids"
    caseId executionIds

def validateAiRequestIds (caseId : String) (requestIds : List String) :
    Except PyError (List String) :=
  validateReferences world.aiRequestCase
    "AI assistance request belongs to another case."
    "ai_assistance_request_ids" caseId requestIds

def validateAiResultIds (caseId : String) (resultIds : List String) :
    Except PyError (List String) :=
  validateReferences
    (fun id =>
      match world.aiResultCase id with
      | some owner => .ok owner
      | none => .error (referenceNotFound "AI result not found."
          "ai_result_ids"))
    "AI result belongs to another case." "ai_result_ids" caseId resultIds

def requireSnapshots (caseId : String) (snapshotIds : List String) :
    Except PyError (List ContextSnapshot) :=
  (dedupe snapshotIds).mapM fun id =>
    match world.snapshot id with
    | none => .error (referenceNotFound "Context snapshot not found."
        "context_snapshot_id")
    | some snapshot =>
        if snapshot.caseId ≠ caseId then
          .error (reportError "REPORT_REFERENCE_CASE_MISMATCH"
            "Context snapshot belongs to another case."
            (some "context_snapshot_id") [] false)
        else .ok snapshot

/-! ## Citations -/

def citationIdFields : List String :=
  ["id", "case_id", "evidence_id", "source_id", "file_id", "artifact_id",
    "timeline_event_id", "search_result_id"]

def citationTextFields : List (String × ℕ) :=
  [("label", 100), ("source_path", 4096), ("source_reference", 4096),
    ("excerpt", 4000), ("encoding", 80)]

def validateCitationFields (citation : List (String × Json))
    (target : String) : Except PyError Unit := do
  citationIdFields.forM fun field => do
    if ¬ (getKey citation field matches .null) then
      let _ ← boundedNonEmpty (getKey citation field)
        (target ++ "." ++ field) maxIdLength
  let _ ← boundedNonEmpty (getKey citation "source_kind")
    (target ++ ".source_kind") 80
  citationTextFields.forM fun (field, maximum) => do
    let _ ← boundedOptionalText (getKey citation field)
      (target ++ "." ++ field) maximum

def resourceTypeForCitation (sourceKind : String) : String :=
  match sourceKind with
  | "FILE" => "FILE_SYSTEM_NODE"
  | "WINDOWS_ARTIFACT" => "ARTIFACT"
  | "BROWSER_ARTIFACT" => "ARTIFACT"
  | "MEDIA_ARTIFACT" => "ARTIFACT"
  | sourceKind => sourceKind

def ContextSnapshot.resourceIds (snapshot : ContextSnapshot)
    (resourceType : String) : List String :=
  ((snapshot.includedResourceIds.find? fun r => r.1 = resourceType).map
    Prod.snd).getD []

def citationError (code message target : String) : PyError :=
  reportError code message (some target) [] false

/-- `str(citation["evidence_id"])`, unless it is missing or null. -/
def citedEvidence (citation : List (String × Json)) : Option String :=
  match getKey citation "evidence_id" with
  | .null => none
  | value => some (pyStr P value)

def checkCitedSource (caseId : String) (snapshots : List ContextSnapshot)
    (target : String) (evidenceId : Option String)
    (sourceKind sourceId : String) : Except PyError Unit :=
  match world.resource (resourceTypeForCitation sourceKind) sourceId with
  | none => .error (citationError "REPORT_CITATION_NOT_FOUND"
      "Citation source could not be resolved." target)
  | some info =>
      if info.caseId ≠ caseId then
        .error (citationError "REPORT_REFERENCE_CASE_MISMATCH"
          "Citation source belongs to another case." target)
      else if evidenceId.isSome ∧ info.evidenceId.isSome ∧
          info.evidenceId ≠ evidenceId then
        .error (citationError "REPORT_REFERENCE_CASE_MISMATCH"
          "Citation evidence_id does not match cited resource." target)
      else if snapshots ≠ [] ∧ ¬ snapshots.any fun snapshot =>
          sourceId ∈ snapshot.resourceIds info.resourceType then
        .error (citationError "REPORT_CITATION_SCOPE_MISMATCH"
          "Citation source is outside the report context snapshots." target)
      else .ok ()

def validateCitation (caseId : String) (snapshots : List ContextSnapshot)
    (target : String) (citation : List (String × Json)) :
    Except PyError Unit := do
  validateCitationFields citation target
  if equalsStr? (getKey citation "case_id") (some caseId) = false then
    .error (citationError "REPORT_REFERENCE_CASE_MISMATCH"
      "Citation case_id does not match report case." target)
  let evidenceId := citedEvidence P citation
  evidenceId.forM fun id => do
    let _ ← validateEvidenceIds world caseId [id]
  let sourceKind := pyStr P (getDefault citation "source_kind" (.str ""))
  let sourceId := pyStr P (getDefault citation "source_id" (.str ""))
  if sourceKind ≠ "" ∧ sourceId ≠ "" then
    checkCitedSource world caseId snapshots target evidenceId sourceKind
      sourceId

def validateCitations (caseId : String) (snapshots : List ContextSnapshot)
    (citations : List (List (String × Json))) (requireDirect : Bool)
    (target : String) : Except PyError (List Json) := do
  if citations = [] then
    if requireDirect then
      .error (citationError "REPORT_CITATION_REQUIRED"
        "Report content requires at least one citation." target)
    else return []
  if maxCitationCount < citations.length then
    .error (citationError "REPORT_CONTENT_LIMIT_EXCEEDED"
      "Citation collection exceeds the maximum item count." target)
  citations.forM (validateCitation P world caseId snapshots target)
  return stableItems P (citations.map Json.obj)

/-! ## Sections -/

def validateSourceResourceIds (snapshots : List ContextSnapshot)
    (resourceIds : List String) : Except PyError Unit :=
  if snapshots ≠ [] ∧ resourceIds.any fun id =>
      id ∉ snapshots.flatMap fun snapshot =>
        snapshot.includedResourceIds.flatMap Prod.snd then
    .error (citationError "REPORT_CITATION_SCOPE_MISMATCH"
      "Section source resource is outside report context snapshots."
      "source_resource_ids")
  else .ok ()

def sectionLimitError (message target : String) : PyError :=
  reportError "REPORT_CONTENT_LIMIT_EXCEEDED" message (some target) [] false

/-- A string value, or an error as for an enumeration. -/
def stringMember (members : List String) (value : Json) (target : String) :
    Except PyError String :=
  enumValue members id value target

def sectionFromInput (caseId : String) (snapshots : List ContextSnapshot)
    (raw : List (String × Json)) (index : ℕ) :
    Except PyError ReportSection := do
  validateContractPayload P (.obj raw) "section"
  let sectionType ← stringMember sectionTypes
    (getDefault raw "section_type" (.str "OTHER")) "section_type"
  let contentKind ← stringMember contentKinds
    (getDefault raw "content_kind" (.str "PLAIN_TEXT")) "content_kind"
  let title ← boundedNonEmpty (getKey raw "title") "section.title"
    maxSectionTitleLength
  let title ← safeText P title "section.title"
  let content ← safeText P (pyStr P (getDefault raw "content" (.str "")))
    "section.content"
  if maxSectionContentLength < content.length then
    .error (sectionLimitError
      "Report section content exceeds the maximum length." "section.content")
  let structuredData ← pyDictOrEmpty (getKey raw "structured_data")
  validateContractPayload P (.obj structuredData) "section.structured_data"
  let order ← limit P (getDefault raw "order" (.int index)) 1 10000 "order"
  let sourceKind ← enumValue SourceKind.members SourceKind.value
    (getDefault raw "source_kind" (.str "ANALYST_DRAFT")) "source_kind"
  let contextSnapshotIds ← stringList
    (getDefault raw "context_snapshot_ids"
      (jsonStrs (snapshots.map ContextSnapshot.contextSnapshotId)))
    "context_snapshot_ids" maxContextSnapshotCount
  if contextSnapshotIds.any fun id =>
      id ∉ snapshots.map ContextSnapshot.contextSnapshotId then
    .error (citationError "REPORT_CITATION_SCOPE_MISMATCH"
      "Section snapshots must belong to the declared report context."
      "section.context_snapshot_ids")
  let sectionSnapshots := snapshots.filter fun snapshot =>
    snapshot.contextSnapshotId ∈ contextSnapshotIds
  let citedSnapshots :=
    if sectionSnapshots = [] then snapshots else sectionSnapshots
  let rawCitations ← listOrEmpty (getKey raw "citations")
  let rawCitations ← rawCitations.mapM pyDict
  let citations ← validateCitations P world caseId citedSnapshots rawCitations
    (truthy (getDefault raw "require_citation" (.bool false)))
    "section.citations"
  let sourceResourceIds ← stringList
    (getDefault raw "source_resource_ids" (.arr [])) "source_resource_ids"
    maxReferenceCount
  validateSourceResourceIds citedSnapshots sourceResourceIds
  let isPartial := truthy (getDefault raw "is_partial" (.bool false)) ||
    sectionSnapshots.any ContextSnapshot.isPartial
  let rawStaleReasons ← stringList (getDefault raw "stale_reasons" (.arr []))
    "section.stale_reasons" maxStaleReasonCount
  let staleReasons := dedupe (rawStaleReasons ++
    sectionSnapshots.flatMap ContextSnapshot.staleReasons)
  if maxStaleReasonCount < staleReasons.length then
    .error (sectionLimitError
      "Section stale reasons exceed the maximum item count."
      "section.stale_reasons")
  validateStringLengths staleReasons "section.stale_reasons"
    maxStaleReasonLength
  let coverage ← pyDictOrEmpty (getKey raw "coverage")
  let coverage := setDefault "status"
    (.str (if sectionSnapshots = [] then "UNKNOWN" else "SNAPSHOT_DERIVED"))
    coverage
  let rawWarnings ← requiredOptionalList
    (getDefault raw "warnings" (.arr [])) "section.warnings"
  let warnings ← boundedWarnings P (.arr (rawWarnings ++
    (if isPartial ∧ ¬ hasWarning rawWarnings "REPORT_SECTION_PARTIAL" then
      [.obj [("code", .str "REPORT_SECTION_PARTIAL")]] else []) ++
    (if staleReasons ≠ [] ∧
        ¬ hasWarning rawWarnings "REPORT_SECTION_STALE" then
      [.obj [("code", .str "REPORT_SECTION_STALE")]] else [])))
    "section.warnings"
  let sectionFingerprint := digest P (.obj
    [("section_type", .str sectionType),
     ("title", .str title),
     ("order", .int order),
     ("content_kind", .str contentKind),
     ("content", .str content),
     ("structured_data", .obj structuredData),
     ("source_kind", .str sourceKind.value),
     ("source_resource_ids", jsonStrs sourceResourceIds),
     ("context_snapshot_ids", jsonStrs contextSnapshotIds),
     ("citations", .arr citations),
     ("is_partial", .bool isPartial),
     ("stale_reasons", jsonStrs staleReasons),
     ("coverage", .obj coverage),
     ("warnings", .arr warnings)])
  let sectionId ← boundedNonEmpty
    (if truthy (getKey raw "section_id") then getKey raw "section_id"
      else .str ("section-" ++
        String.ofList (sectionFingerprint.toList.take 32)))
    "section.section_id" maxIdLength
  return {
    sectionId, sectionType, title, order, contentKind, content,
    structuredData, sourceKind, sourceResourceIds, contextSnapshotIds,
    citations, isPartial, staleReasons, coverage, warnings,
    sectionFingerprint }

def sectionsFromInput (caseId : String) (snapshots : List ContextSnapshot) :
    ℕ → List Json → Except PyError (List ReportSection)
  | _, [] => .ok []
  | index, raw :: sections => do
      let fields ← pyDict raw
      let first ← sectionFromInput P world caseId snapshots fields index
      let rest ← sectionsFromInput caseId snapshots (index + 1) sections
      .ok (first :: rest)

/-! ## Summaries of snapshots and sections -/

def partialState (snapshots : List ContextSnapshot)
    (sections : List ReportSection) : Json :=
  let reasons :=
    ((snapshots.filter ContextSnapshot.isPartial).map fun snapshot =>
      "snapshot:" ++ snapshot.contextSnapshotId) ++
    ((sections.filter ReportSection.isPartial).map fun s =>
      "section:" ++ s.sectionId)
  .obj [("is_partial", .bool (!reasons.isEmpty)),
    ("partial_reasons", jsonStrs (dedupe reasons))]

def staleReasonsOf (snapshots : List ContextSnapshot)
    (sections : List ReportSection) : List String :=
  snapshots.flatMap ContextSnapshot.staleReasons ++
    sections.flatMap ReportSection.staleReasons

def snapshotCoverage (snapshot : ContextSnapshot) : Json :=
  .obj [("status", .str "SNAPSHOT_DERIVED"),
    ("resource_counts", .obj (snapshot.includedResourceIds.map fun r =>
      (r.1, .int r.2.length)))]

def coverageSummary (snapshots : List ContextSnapshot)
    (sections : List ReportSection) : Json :=
  .obj [("snapshot_count", .int snapshots.length),
    ("section_count", .int sections.length),
    ("coverage", .obj (snapshots.foldl (fun fields snapshot =>
      setItem snapshot.contextSnapshotId (snapshotCoverage snapshot) fields)
      [])),
    ("section_coverage", .obj (sections.foldl (fun fields s =>
      setItem s.sectionId (.obj s.coverage) fields) []))]

def sourceRevision (snapshot : ContextSnapshot) : Except PyError Json := do
  let generatedAt ← toJsonTimestamp snapshot.createdAt
  return .obj
    [("context_snapshot_id", .str snapshot.contextSnapshotId),
     ("context_fingerprint", .str snapshot.contextFingerprint),
     ("source_revision_fingerprint", .str
        (if snapshot.sourceRevisions = [] then
          digest P (.obj
            [("context_snapshot_id", .str snapshot.contextSnapshotId)])
        else digest P (.arr snapshot.sourceRevisions))),
     ("generated_at", .str generatedAt),
     ("is_partial", .bool snapshot.isPartial),
     ("is_stale", .bool (!snapshot.staleReasons.isEmpty))]

/-! ## Operations -/

def defaultLocale : String := "ko-KR"
def defaultTimezone : String := "Asia/Seoul"

structure CreateReportArgs where
  caseId : String
  title : Json
  createdBy : Json
  description : Json := .null
  reportType : Json := .str "INVESTIGATION"
  locale : Option String := none
  timezone : Option String := none

/-- `a or b or c` of optional texts. -/
def firstText (a : Option String) (b c : String) : String :=
  if a.getD "" ≠ "" then a.getD ""
  else if b ≠ "" then b
  else c

def createReportRead (args : CreateReportArgs) (inputs : CallInputs) :
    Except PyError ReportRecord := do
  let title ← boundedNonEmpty args.title "title" maxReportTitleLength
  let createdBy ← boundedNonEmpty args.createdBy "created_by"
    maxActorIdLength
  let description ← boundedOptionalText args.description "description"
    maxReportDescriptionLength
  match world.caseLocale args.caseId with
  | none => .error (notFoundError "CASE_NOT_FOUND" "Case not found."
      (some "case_id"))
  | some (caseLocale, caseTimezone) => do
      let title ← safeText P title "title"
      description.forM fun text => do
        let _ ← safeText P text "description"
      let reportType ← stringMember reportTypes args.reportType "report_type"
      let locale := firstText args.locale caseLocale defaultLocale
      let timezone := firstText args.timezone caseTimezone defaultTimezone
      let _ ← toJsonTimestamp inputs.now
      return {
        reportId := inputs.newId
        caseId := args.caseId
        title, description, reportType, locale, timezone
        status := .draft
        activeVersionId := none
        latestVersionNumber := 0
        createdBy
        createdAt := inputs.now
        updatedAt := inputs.now
        archivedAt := none
        reportFingerprint := digest P (.obj
          [("case_id", .str args.caseId),
           ("title", .str title),
           ("description", jsonStr? description),
           ("report_type", .str reportType),
           ("locale", .str locale),
           ("timezone", .str timezone),
           ("created_by", .str createdBy)]) }

structure CreateVersionArgs where
  reportId : String
  sourceKind : Json
  createdBy : Json
  title : Json
  executiveSummary : Json
  sections : List Json
  sourceReferenceId : Json := .null
  contextSnapshotIds : Json := .null
  evidenceIds : Json := .null
  searchExecutionIds : Json := .null
  timelineRevisions : Json := .null
  aiAssistanceRequestIds : Json := .null
  aiResultIds : Json := .null
  citations : List Json := []
  limitations : Json := .null
  analyzerVersions : Json := .null

/-- What a version says, before it is stored. -/
structure VersionDraft where
  sourceKind : SourceKind
  sourceReferenceId : Option String
  createdBy : String
  title : String
  executiveSummary : String
  sections : List ReportSection
  snapshots : List ContextSnapshot
  evidenceIds : List String
  searchExecutionIds : List String
  timelineRevisions : List ℤ
  aiAssistanceRequestIds : List String
  aiResultIds : List String
  citations : List Json
  limitations : List String
  analyzerVersions : List (String × Json)

/-- The checks of `create_version`. -/
def versionDraft (caseId : String) (args : CreateVersionArgs) :
    Except PyError VersionDraft := do
  let sourceKind ← enumValue SourceKind.members SourceKind.value
    args.sourceKind "source_kind"
  let createdBy ← boundedNonEmpty args.createdBy "created_by"
    maxActorIdLength
  let title ← boundedNonEmpty args.title "title" maxReportTitleLength
  let title ← safeText P title "title"
  let sourceReferenceId ← boundedOptionalText args.sourceReferenceId
    "source_reference_id" maxIdLength
  let executiveSummary ← requiredNonEmpty P args.executiveSummary
    "executive_summary"
  let executiveSummary ← safeText P executiveSummary "executive_summary"
  if maxReportTextLength < executiveSummary.length then
    .error (sectionLimitError
      "Executive summary exceeds the maximum length." "executive_summary")
  if args.sections = [] ∨ maxSectionCount < args.sections.length then
    .error (sectionLimitError
      "Report version must contain a bounded non-empty section list."
      "sections")
  let contextSnapshotIds ← stringList (orEmptyList args.contextSnapshotIds)
    "context_snapshot_ids" maxContextSnapshotCount
  let snapshots ← requireSnapshots world caseId contextSnapshotIds
  let evidenceIds ← stringList (orEmptyList args.evidenceIds) "evidence_ids"
    maxReferenceCount
  let evidenceIds ← validateEvidenceIds world caseId evidenceIds
  let searchExecutionIds ← stringList (orEmptyList args.searchExecutionIds)
    "search_execution_ids" maxReferenceCount
  let searchExecutionIds ← validateSearchExecutionIds world caseId
    searchExecutionIds
  let aiAssistanceRequestIds ← stringList
    (orEmptyList args.aiAssistanceRequestIds) "ai_assistance_request_ids"
    maxReferenceCount
  let aiAssistanceRequestIds ← validateAiRequestIds world caseId
    aiAssistanceRequestIds
  let aiResultIds ← stringList (orEmptyList args.aiResultIds) "ai_result_ids"
    maxReferenceCount
  let aiResultIds ← validateAiResultIds world caseId aiResultIds
  let timelineRevisions ← integerList (orEmptyList args.timelineRevisions)
    "timeline_revisions" maxReferenceCount
  let rawCitations ← args.citations.mapM pyDict
  let citations ← validateCitations P world caseId snapshots rawCitations
    false "citations"
  let limitations ← stringList (orEmptyList args.limitations) "limitations"
    maxLimitationCount
  if limitations = [] then
    .error (reportError "REPORT_LIMITATIONS_REQUIRED"
      "Report versions must record limitations." (some "limitations") []
      false)
  validateStringLengths limitations "limitations" maxLimitationLength
  let analyzerVersions ← pyDictOrEmpty args.analyzerVersions
  validateContractPayload P (.obj analyzerVersions) "analyzer_versions"
  let sections ← sectionsFromInput P world caseId snapshots 1 args.sections
  return {
    sourceKind, sourceReferenceId, createdBy, title, executiveSummary
    sections := sections.insertionSort
      (orderBy ReportSection.order ReportSection.sectionId)
    snapshots, evidenceIds, searchExecutionIds
    timelineRevisions := timelineRevisions.insertionSort (· ≤ ·)
    aiAssistanceRequestIds, aiResultIds, citations, limitations,
    analyzerVersions }

/-- The digest of what a version says. -/
def contentFingerprint (report : ReportRecord) (draft : VersionDraft)
    (sourceRevisions : List Json) : String :=
  let staleReasons := staleReasonsOf draft.snapshots draft.sections
  digest P (.obj
    [("report_id", .str report.reportId),
     ("case_id", .str report.caseId),
     ("source_kind", .str draft.sourceKind.value),
     ("source_reference_id", jsonStr? draft.sourceReferenceId),
     ("title", .str draft.title),
     ("executive_summary", .str draft.executiveSummary),
     ("sections", .arr (draft.sections.map ReportSection.toSchemaDict)),
     ("context_snapshot_ids",
        jsonStrs (draft.snapshots.map ContextSnapshot.contextSnapshotId)),
     ("evidence_ids", jsonStrs draft.evidenceIds),
     ("search_execution_ids", jsonStrs draft.searchExecutionIds),
     ("timeline_revisions", .arr (draft.timelineRevisions.map Json.int)),
     ("ai_assistance_request_ids", jsonStrs draft.aiAssistanceRequestIds),
     ("ai_result_ids", jsonStrs draft.aiResultIds),
     ("citations", .arr draft.citations),
     ("limitations", jsonStrs draft.limitations),
     ("analyzer_versions", .obj draft.analyzerVersions),
     ("partial_state", partialState draft.snapshots draft.sections),
     ("stale_state", .obj
        [("is_stale", .bool (!staleReasons.isEmpty)),
         ("stale_reasons", jsonStrs (dedupe staleReasons))]),
     ("coverage_summary", coverageSummary draft.snapshots draft.sections),
     ("source_revisions", .arr sourceRevisions)])

/-- `str(citation["id"])` of the citations that have one. -/
def citationIds (citations : List Json) : List String :=
  sortedUnique (citations.filterMap fun
    | .obj fields =>
        match getKey fields "id" with
        | .null => none
        | value => some (pyStr P value)
    | _ => none)

/-- The version of a draft and the header that points to it. -/
def newVersion (report : ReportRecord) (previous : Option ReportVersion)
    (draft : VersionDraft) (sourceRevisions : List Json)
    (inputs : CallInputs) : ReportVersion where
  reportVersionId := inputs.newId
  reportId := report.reportId
  caseId := report.caseId
  versionNumber := report.latestVersionNumber + 1
  previousVersionId := previous.map ReportVersion.reportVersionId
  sourceKind := draft.sourceKind
  sourceReferenceId := draft.sourceReferenceId
  createdBy := draft.createdBy
  title := draft.title
  executiveSummary := draft.executiveSummary
  sections := draft.sections
  contextSnapshotIds :=
    draft.snapshots.map ContextSnapshot.contextSnapshotId
  evidenceIds := draft.evidenceIds
  searchExecutionIds := draft.searchExecutionIds
  timelineRevisions := draft.timelineRevisions
  aiAssistanceRequestIds := draft.aiAssistanceRequestIds
  aiResultIds := draft.aiResultIds
  citationIds := citationIds P draft.citations
  partialState := partialState draft.snapshots draft.sections
  isStale := !(staleReasonsOf draft.snapshots draft.sections).isEmpty
  staleReasons := dedupe (staleReasonsOf draft.snapshots draft.sections)
  coverageSummary := coverageSummary draft.snapshots draft.sections
  limitations := draft.limitations
  analyzerVersions := .obj draft.analyzerVersions
  sourceRevisions := .arr sourceRevisions
  contentFingerprint := contentFingerprint P report draft sourceRevisions
  previousContentFingerprint := previous.map ReportVersion.contentFingerprint
  createdAt := inputs.now

end

section

variable (P : Platform) (store : Store)

def createReport (args : CreateReportArgs) (inputs : CallInputs) :
    Except PyError (ReportRecord × Store) := do
  let report ← createReportRead P store.world args inputs
  let store ← store.saveReport report
  .ok (report, store)

/-- The version the header points to. -/
def activeVersion (report : ReportRecord) :
    Except PyError (Option ReportVersion) :=
  match report.activeVersionId with
  | none => .ok none
  | some reportVersionId => some <$> store.getVersion reportVersionId

def createVersion (args : CreateVersionArgs) (inputs : CallInputs) :
    Except PyError (ReportVersion × Store) := do
  let report ← store.getReport args.reportId
  if report.status = .archived then
    .error (reportError "REPORT_REVIEW_TRANSITION_INVALID"
      "Archived reports cannot receive new versions." (some "report_id") []
      false)
  let draft ← versionDraft P store.world report.caseId args
  let previous ← activeVersion store report
  let sourceRevisions ← (draft.snapshots.insertionSort fun a b =>
    a.contextSnapshotId ≤ b.contextSnapshotId).mapM (sourceRevision P)
  let version := newVersion P report previous draft sourceRevisions inputs
  match store.versionByFingerprint? report.reportId
      version.contentFingerprint with
  | some existing => .ok (existing, store)
  | none => do
      let _ ← toJsonTimestamp inputs.now
      let store ← store.saveReportVersion version
        { report with
          activeVersionId := some version.reportVersionId
          latestVersionNumber := version.versionNumber
          status := .reviewRequired
          updatedAt := inputs.now }
      .ok (version, store)

def archiveReport (reportId : String) (actorId reason : Json)
    (inputs : CallInputs) : Except PyError (ReportRecord × Store) := do
  let _ ← boundedNonEmpty actorId "actor_id" maxActorIdLength
  let _ ← requiredReason P reason
  let report ← store.getReport reportId
  let _ ← toJsonTimestamp inputs.now
  let report :=
    { report with
      status := .archived
      archivedAt := some inputs.now
      updatedAt := inputs.now }
  .ok (report, store.updateReport report)

def setActiveVersion (reportId reportVersionId : String)
    (actorId reason : Json) (inputs : CallInputs) :
    Except PyError (ReportRecord × Store) := do
  let _ ← boundedNonEmpty actorId "actor_id" maxActorIdLength
  let _ ← requiredReason P reason
  let report ← store.getReport reportId
  let version ← store.getVersion reportVersionId
  if version.reportId ≠ report.reportId then
    .error (reportError "REPORT_APPROVAL_VERSION_MISMATCH"
      "Report version belongs to another report." (some "report_version_id")
      [] false)
  let _ ← toJsonTimestamp inputs.now
  let report :=
    { report with
      activeVersionId := some version.reportVersionId
      status := .reviewRequired
      updatedAt := inputs.now }
  .ok (report, store.updateReport report)

end

end ApexForensic.Reports
