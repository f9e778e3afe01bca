import ApexForensic.Timeline.Projection

/-!
# Listing artifacts

An artifact is stored with the text of the time that sorts it, and with folded
copies of two of its fields.  A listing binds its filters to the clauses of a
query; the cursor of a page names the digest of the query, and the sort value
of the last artifact of the page, printed anew from the artifact that was
read.
-/

namespace ApexForensic.Artifacts

open ApexForensic.Support ApexForensic.Domain
open ApexForensic.Timeline (ArtifactType)

inductive ArtifactParseStatus where
  | success
  | partlyParsed
  | unsupported
  | corrupt
  | failed
  deriving DecidableEq

/-- `ArtifactParseStatus.value`. -/
def ArtifactParseStatus.value : ArtifactParseStatus → String
  | success => "SUCCESS"
  | partlyParsed => "PARTIAL"
  | unsupported => "UNSUPPORTED"
  | corrupt => "CORRUPT"
  | failed => "FAILED"

/-- The document in the text of a cursor. -/
def cursorPayload (queryKey sortValue artifactId : String) : Json :=
  .obj [("after", .arr [.str sortValue, .str artifactId]),
    ("query", .str queryKey)]

/-- What the listing takes from the Python library and from SQLite.  `int` has
no value where it raises a `TypeError` or a `ValueError`, `cursorJson` where
reading a cursor raises a `ValueError`, and `fromisoformat` reads back the text
of an instant in UTC. -/
structure Platform where
  casefold : String → String
  nfc : String → String
  upper : String → String
  sha256 : ByteArray → String
  str : Json → String
  int : Json → Option ℤ
  fromisoformat : String → Option Datetime
  cursorText : Json → String
  cursorJson : String → Option Json
  sqlJsonText : Json → String
  sqlRealText : FloatText → String
  sqlRealInteger : FloatText → ℤ
  fromisoformat_clock : ∀ i : Instant,
    fromisoformat (String.ofList (i.clock ++ "+00:00".toList)) =
      some i.toDatetime
  cursorJson_cursorText : ∀ queryKey sortValue artifactId,
    cursorJson (cursorText (cursorPayload queryKey sortValue artifactId)) =
      some (cursorPayload queryKey sortValue artifactId)

/-- An observed fact, as far as a listing reads it. -/
structure ArtifactRecord where
  artifactId : String
  caseId : String
  evidenceId : String
  sourceFileNodeId : String
  artifactType : ArtifactType
  artifactSubtype : String
  analyzerId : String
  observedAtUtc : Option Datetime
  fields : List (String × Json)
  warnings : List Json
  parseStatus : ArtifactParseStatus
  createdAt : Datetime

/-- The columns of `artifacts` that a listing reads. -/
structure ArtifactRow where
  artifactId : String
  caseId : String
  evidenceId : String
  sourceFileNodeId : String
  artifactType : ArtifactType
  artifactSubtype : String
  analyzerId : String
  observedAtUtc : Option String
  sortTimestamp : String
  fieldsJson : List (String × Json)
  warningsJson : List Json
  parseStatus : ArtifactParseStatus
  createdAt : String
  eventId : Option ℤ
  registryPathKey : Option String
  executableNameKey : Option String
  hasWarnings : Bool

section

variable (P : Platform)

/-! ## Rows -/

/-- `None if value is None else str(value)`. -/
def textUnlessNone : Json → Option String
  | .null => none
  | value => some (P.str value)

/-- `_artifact_event_id`. -/
def artifactEventId (artifact : ArtifactRecord) : Option ℤ :=
  match getKey artifact.fields "event_id" with
  | .null => none
  | value => P.int value

/-- `_artifact_registry_path`. -/
def artifactRegistryPath (artifact : ArtifactRecord) : Option String :=
  textUnlessNone P (getKey artifact.fields "registry_path")

/-- `_artifact_executable_name`. -/
def artifactExecutableName (artifact : ArtifactRecord) : Option String :=
  match getKey artifact.fields "executable_name" with
  | .null => textUnlessNone P (getKey artifact.fields "executable_candidate")
  | value => textUnlessNone P value

/-- `_artifact_values`. -/
def artifactValues (artifact : ArtifactRecord) :
    Except PyError ArtifactRow := do
  let observedAtUtc ← artifact.observedAtUtc.mapM toJsonTimestamp
  let sortTimestamp ←
    toJsonTimestamp (artifact.observedAtUtc.getD artifact.createdAt)
  let createdAt ← toJsonTimestamp artifact.createdAt
  return {
    artifactId := artifact.artifactId
    caseId := artifact.caseId
    evidenceId := artifact.evidenceId
    sourceFileNodeId := artifact.sourceFileNodeId
    artifactType := artifact.artifactType
    artifactSubtype := artifact.artifactSubtype
    analyzerId := artifact.analyzerId
    observedAtUtc
    sortTimestamp
    fieldsJson := artifact.fields
    warningsJson := artifact.warnings
    parseStatus := artifact.parseStatus
    createdAt
    eventId := artifactEventId P artifact
    registryPathKey := (artifactRegistryPath P artifact).map P.casefold
    executableNameKey := (artifactExecutableName P artifact).map P.casefold
    hasWarnings := !artifact.warnings.isEmpty }

/-- `value[:-1] + "+00:00" if value.endswith("Z") else value`. -/
def normalizedTimestamp (value : String) : String :=
  if value.toList.getLast? = some 'Z' then
    String.ofList (value.toList.dropLast ++ "+00:00".toList)
  else value

/-- Parse an ISO 8601 timestamp stored by APEX; a naive one is one of UTC. -/
def parseTimestamp (value : String) : Except PyError Datetime :=
  match P.fromisoformat (normalizedTimestamp value) with
  | none => .error (.builtin .valueError "Invalid isoformat string")
  | some parsed => do
      let _ ← isoWallClock parsed.utcMicros
      return ⟨parsed.utcMicros, some 0⟩

def ArtifactRow.withTimes (row : ArtifactRow) (observedAtUtc : Option Datetime)
    (createdAt : Datetime) : ArtifactRecord where
  artifactId := row.artifactId
  caseId := row.caseId
  evidenceId := row.evidenceId
  sourceFileNodeId := row.sourceFileNodeId
  artifactType := row.artifactType
  artifactSubtype := row.artifactSubtype
  analyzerId := row.analyzerId
  observedAtUtc
  fields := row.fieldsJson
  warnings := row.warningsJson
  parseStatus := row.parseStatus
  createdAt

/-- `_row_to_artifact`. -/
def rowToArtifact (row : ArtifactRow) : Except PyError ArtifactRecord := do
  let observedAtUtc ← row.observedAtUtc.mapM (parseTimestamp P)
  let createdAt ← parseTimestamp P row.createdAt
  return row.withTimes observedAtUtc createdAt

structure ArtifactCoverage where
  jobId : String
  evidenceId : String
  updatedAt : String

/-- Later `updated_at` first, then larger `job_id`. -/
abbrev newestCoverage : ArtifactCoverage → ArtifactCoverage → Prop :=
  inDirection true (orderBy ArtifactCoverage.updatedAt ArtifactCoverage.jobId)

/-- The tables a listing reads.  Every artifact row was written by
`save_artifacts`. -/
structure Store where
  cases : List String
  evidence : List String
  artifacts : Table ArtifactRow.artifactId
  coverage : List ArtifactCoverage
  written : ∀ row ∈ artifacts.rows, ∃ artifact,
    artifactValues P artifact = .ok row

/-- `latest_artifact_coverage`. -/
def Store.latestArtifactCoverage {P : Platform} (store : Store P)
    (evidenceId : String) : Option ArtifactCoverage :=
  ((store.coverage.filter (·.evidenceId = evidenceId)).insertionSort
    newestCoverage).head?

/-! ## Values in SQL -/

inductive SqlValue where
  | null
  | integer (n : ℤ)
  | real (text : FloatText)
  | text (s : String)

/-- `json_extract(fields_json, '$.a.b')`. -/
def jsonExtract (fields : List (String × Json)) (path : List String) :
    SqlValue :=
  match path.foldlM (fun value key => value.field? key) (Json.obj fields) with
  | none => .null
  | some .null => .null
  | some (.bool b) => .integer (if b then 1 else 0)
  | some (.int n) => .integer n
  | some (.float text) => .real text
  | some (.str s) => .text s
  | some value => .text (P.sqlJsonText value)

/-- `lower`, which changes ASCII letters only. -/
def sqlLower : SqlValue → Option String
  | .null => none
  | .integer n => some (toString n)
  | .real text => some (P.sqlRealText text)
  | .text s => some (String.ofList (s.toList.map Char.toLower))

/-- `value = ?` for a text. -/
def SqlValue.isText : SqlValue → String → Bool
  | text s, t => s = t
  | _, _ => false

def isSqlSpace (c : Char) : Bool :=
  c ∈ [' ', '\t', '\n', '\x0b', '\x0c', '\r']

/-- The value of the decimal digits that a text starts with. -/
def leadingDigits (text : List Char) : ℕ :=
  Nat.ofDigitChars 10 (text.takeWhile Char.isDigit) 0

/-- `CAST(text AS INTEGER)`. -/
def castText (text : List Char) : ℤ :=
  let value : ℤ :=
    match text.dropWhile isSqlSpace with
    | '-' :: digits => -(leadingDigits digits : ℤ)
    | '+' :: digits => leadingDigits digits
    | digits => leadingDigits digits
  max (-2 ^ 63) (min value (2 ^ 63 - 1))

/-- `CAST(value AS INTEGER)`. -/
def castInteger : SqlValue → Option ℤ
  | .null => none
  | .integer n => some n
  | .real text => some (P.sqlRealInteger text)
  | .text s => some (castText s.toList)

/-! ## Queries -/

/-- Stable artifact query filters, but for the cursor. -/
structure ArtifactQuery where
  caseId : String
  evidenceId : Option String := none
  sourceFileNodeId : Option String := none
  artifactType : Option ArtifactType := none
  artifactSubtype : Option String := none
  analyzerId : Option String := none
  eventId : Option ℤ := none
  registryPath : Option String := none
  executableName : Option String := none
  mediaKind : Option String := none
  browserProfile : Option String := none
  browserDatabase : Option String := none
  browserTable : Option String := none
  browserRowId : Option ℤ := none
  observedFrom : Option Datetime := none
  observedTo : Option Datetime := none
  parseStatus : Option ArtifactParseStatus := none
  hasWarnings : Option Bool := none
  limit : ℤ := 100

/-- The filters as the clauses of the query compare them. -/
structure BoundFilters where
  caseId : String
  evidenceId : Option String
  sourceFileNodeId : Option String
  artifactType : Option ArtifactType
  artifactSubtype : Option String
  analyzerId : Option String
  eventId : Option ℤ
  registryPath : Option String
  executableName : Option String
  mediaKind : Option String
  browserProfile : Option String
  browserDatabase : Option String
  browserTable : Option String
  browserRowId : Option ℤ
  observedFrom : Option String
  observedTo : Option String
  parseStatus : Option ArtifactParseStatus
  hasWarnings : Option Bool
  deriving DecidableEq

/-- What `query_artifacts` binds. -/
def ArtifactQuery.bound (query : ArtifactQuery) :
    Except PyError BoundFilters := do
  let observedFrom ← query.observedFrom.mapM toJsonTimestamp
  let observedTo ← query.observedTo.mapM toJsonTimestamp
  return {
    caseId := query.caseId
    evidenceId := query.evidenceId
    sourceFileNodeId := query.sourceFileNodeId
    artifactType := query.artifactType
    artifactSubtype := query.artifactSubtype
    analyzerId := query.analyzerId
    eventId := query.eventId
    registryPath := query.registryPath.map P.casefold
    executableName := query.executableName.map P.casefold
    mediaKind := query.mediaKind.map P.upper
    browserProfile := query.browserProfile.map P.casefold
    browserDatabase := query.browserDatabase.map P.casefold
    browserTable := query.browserTable
    browserRowId := query.browserRowId
    observedFrom
    observedTo
    parseStatus := query.parseStatus
    hasWarnings := query.hasWarnings }

/-- `column LIKE '%text%'`; `NULL` is like no text. -/
def containsLike (column : Option String) (text : String) : Bool :=
  column.any fun column => like ('%' :: text.toList ++ ['%']) column.toList

/-- One of two places of `fields_json`, in lower case, is like the text. -/
def eitherLike (fields : List (String × Json)) (path path' : List String)
    (text : String) : Bool :=
  containsLike (sqlLower P (jsonExtract P fields path)) text ||
    containsLike (sqlLower P (jsonExtract P fields path')) text

/-- The clauses of the query but for those on times and on the cursor. -/
def BoundFilters.selects (filters : BoundFilters) (row : ArtifactRow) : Bool :=
  row.caseId = filters.caseId &&
    (filters.evidenceId.all fun id => row.evidenceId = id) &&
    (filters.sourceFileNodeId.all fun id => row.sourceFileNodeId = id) &&
    (filters.artifactType.all fun t => row.artifactType.value = t.value) &&
    (filters.artifactSubtype.all fun t => row.artifactSubtype = t) &&
    (filters.analyzerId.all fun id => row.analyzerId = id) &&
    (filters.eventId.all fun id => row.eventId = some id) &&
    (filters.registryPath.all fun path =>
      containsLike row.registryPathKey path) &&
    (filters.executableName.all fun name =>
      containsLike row.executableNameKey name) &&
    (filters.mediaKind.all fun kind =>
      (jsonExtract P row.fieldsJson ["media_kind"]).isText kind) &&
    (filters.browserProfile.all fun profile =>
      eitherLike P row.fieldsJson ["browser_profile", "name"]
        ["browser_profile_name"] profile) &&
    (filters.browserDatabase.all fun database =>
      eitherLike P row.fieldsJson ["database", "path"] ["database_path"]
        database) &&
    (filters.browserTable.all fun table =>
      (jsonExtract P row.fieldsJson ["row_provenance", "table"]).isText table ||
        (jsonExtract P row.fieldsJson ["table"]).isText table) &&
    (filters.browserRowId.all fun id =>
      castInteger P (jsonExtract P row.fieldsJson
          ["row_provenance", "row_id"]) = some id ||
        castInteger P (jsonExtract P row.fieldsJson ["row_id"]) = some id) &&
    (filters.parseStatus.all fun status =>
      row.parseStatus.value = status.value) &&
    (filters.hasWarnings.all fun hasWarnings => row.hasWarnings = hasWarnings)

/-- `sort_timestamp >= ?` and `sort_timestamp <= ?`. -/
def BoundFilters.withinTimes (filters : BoundFilters) (row : ArtifactRow) :
    Bool :=
  (filters.observedFrom.all fun t => t ≤ row.sortTimestamp) &&
    (filters.observedTo.all fun t => row.sortTimestamp ≤ t)

/-- `ORDER BY sort_timestamp, artifact_id`. -/
abbrev rowOrder : ArtifactRow → ArtifactRow → Prop :=
  orderBy ArtifactRow.sortTimestamp ArtifactRow.artifactId

/-- The clause on the cursor. -/
def follows (after : String × String) (row : ArtifactRow) : Bool :=
  after.1 < row.sortTimestamp ||
    (row.sortTimestamp = after.1 && after.2 < row.artifactId)

/-- Query artifacts by typed filters with stable cursor ordering. -/
def queryArtifacts (artifacts : Table ArtifactRow.artifactId)
    (query : ArtifactQuery) (after : Option (String × String)) (limit : ℕ) :
    Except PyError (List ArtifactRecord) := do
  let filters ← query.bound P
  let rows := ((artifacts.rows.filter fun row =>
      filters.selects P row && filters.withinTimes row &&
        after.all fun after => follows after row).insertionSort
    rowOrder).take limit
  rows.mapM (rowToArtifact P)

/-! ## Cursors -/

/-- `_comparison_text`. -/
def comparisonText (value : Option String) : Option String :=
  value.map fun value => P.casefold (P.nfc value)

def optionalInt (value : Option ℤ) : Json :=
  value.elim .null .int

def optionalBool (value : Option Bool) : Json :=
  value.elim .null .bool

/-- The fields of the document whose digest stands for a query. -/
def documentFields (query : ArtifactQuery)
    (observedFrom observedTo : Option String) : List (String × Json) := [
  ("case_id", .str query.caseId),
  ("evidence_id", optionalText query.evidenceId),
  ("source_file_node_id", optionalText query.sourceFileNodeId),
  ("artifact_type", optionalText (query.artifactType.map ArtifactType.value)),
  ("artifact_subtype", optionalText query.artifactSubtype),
  ("analyzer_id", optionalText query.analyzerId),
  ("event_id", optionalInt query.eventId),
  ("registry_path", optionalText (comparisonText P query.registryPath)),
  ("executable_name", optionalText (comparisonText P query.executableName)),
  ("media_kind", optionalText (comparisonText P query.mediaKind)),
  ("browser_profile", optionalText (comparisonText P query.browserProfile)),
  ("browser_database", optionalText (comparisonText P query.browserDatabase)),
  ("browser_table", optionalText (comparisonText P query.browserTable)),
  ("browser_row_id", optionalInt query.browserRowId),
  ("observed_from", optionalText observedFrom),
  ("observed_to", optionalText observedTo),
  ("parse_status",
    optionalText (query.parseStatus.map ArtifactParseStatus.value)),
  ("has_warnings", optionalBool query.hasWarnings),
  ("sort", .arr [.str "observed_or_created_at", .str "artifact_id"])]

/-- The document whose digest stands for a query. -/
def queryDocument (query : ArtifactQuery) : Except PyError Json := do
  let observedFrom ← query.observedFrom.mapM toJsonTimestamp
  let observedTo ← query.observedTo.mapM toJsonTimestamp
  return .obj (documentFields P query observedFrom observedTo)

/-- `_query_fingerprint`. -/
def queryFingerprint (query : ArtifactQuery) : Except PyError String := do
  let document ← queryDocument P query
  return canonicalSha256 P.sha256 document []

/-- `_encode_cursor`. -/
def encodeCursor (queryKey sortValue artifactId : String) : String :=
  P.cursorText (cursorPayload queryKey sortValue artifactId)

def invalidCursor (message : String) : PyError :=
  validationError message (some "cursor") []

/-- The times that a cursor may carry: those that `parse_timestamp` reads. -/
def checkCursorTimestamp (sortValue : String) : Except PyError Unit :=
  match parseTimestamp P sortValue with
  | .ok _ => .ok ()
  | .error (.builtin .valueError _) =>
      .error (invalidCursor "Invalid artifact cursor timestamp.")
  | .error error => .error error

/-- `_decode_cursor`. -/
def decodeCursor (cursor queryKey : String) :
    Except PyError (String × String) :=
  match P.cursorJson cursor with
  | none => .error (invalidCursor "Invalid artifact cursor.")
  | some (.obj data) =>
      if equalsStr? (getKey data "query") (some queryKey) = false then
        .error (invalidCursor
          "Artifact cursor does not match the current query.")
      else
        match getKey data "after" with
        | .arr [.str sortValue, .str artifactId] => do
            checkCursorTimestamp P sortValue
            return (sortValue, artifactId)
        | _ => .error (invalidCursor "Invalid artifact cursor payload.")
  | some _ => .error (.builtin .attributeError "get")

/-- `.replace("+00:00", "Z")`; the characters of a text that was found are
passed over. -/
def replaceUtcOffset : ℕ → List Char → List Char
  | _, [] => []
  | skip + 1, _ :: cs => replaceUtcOffset skip cs
  | 0, c :: cs =>
      if "+00:00".toList.isPrefixOf (c :: cs) then 'Z' :: replaceUtcOffset 5 cs
      else c :: replaceUtcOffset 0 cs

/-- `isoformat(timespec="microseconds")`. -/
def isoformat (value : Datetime) : Except PyError String :=
  match value.offsetSeconds with
  | some offset => isoformatWithOffset value.utcMicros offset
  | none => do
      let clock ← isoWallClock value.utcMicros
      return String.ofList clock

/-- The sort value of an artifact, as a cursor carries it. -/
def sortValue (artifact : ArtifactRecord) : Except PyError String := do
  let text ← isoformat (artifact.observedAtUtc.getD artifact.createdAt)
  return String.ofList (replaceUtcOffset 0 text.toList)

def cursorAt (queryKey : String) (last : ArtifactRecord) :
    Except PyError String := do
  let sortValue ← sortValue last
  return encodeCursor P queryKey sortValue last.artifactId

/-! ## The listing -/

structure ArtifactPage where
  items : List ArtifactRecord
  nextCursor : Option String
  hasMore : Bool
  returned : ℕ
  coverage : Option ArtifactCoverage

def Store.ensureCaseExists {P : Platform} (store : Store P) (caseId : String) :
    Except PyError Unit := do
  if ¬ caseId ∈ store.cases then
    .error (notFoundError "CASE_NOT_FOUND" s!"Case not found: {caseId}"
      (some "case_id"))

def Store.ensureEvidenceExists {P : Platform} (store : Store P)
    (evidenceId : String) : Except PyError Unit := do
  if ¬ evidenceId ∈ store.evidence then
    .error (notFoundError "EVIDENCE_NOT_FOUND"
      s!"Evidence not found: {evidenceId}" (some "evidence_id"))

/-- Return stable cursor-paginated artifacts. -/
def listArtifacts (store : Store P) (query : ArtifactQuery)
    (cursor : Option String) : Except PyError ArtifactPage := do
  store.ensureCaseExists query.caseId
  query.evidenceId.forM store.ensureEvidenceExists
  if query.limit < 1 ∨ query.limit > 1000 then
    .error (validationError "limit must be between 1 and 1000."
      (some "limit") [])
  let queryKey ← queryFingerprint P query
  let after ← cursor.mapM fun cursor => decodeCursor P cursor queryKey
  let limit := query.limit.toNat
  let rows ← queryArtifacts P store.artifacts query after (limit + 1)
  let hasMore := decide (rows.length > limit)
  let items := rows.take limit
  let last := if hasMore then items.getLast? else none
  let nextCursor ← last.mapM (cursorAt P queryKey)
  return {
    items
    nextCursor
    hasMore
    returned := items.length
    coverage := query.evidenceId.bind store.latestArtifactCoverage }

end

end ApexForensic.Artifacts
