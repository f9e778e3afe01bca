import ApexForensic.Search.Query

/-!
# Answering and recording queries

A plan holds what a query computes before it asks the index: the query as it
is recorded, its options and the key of its cache entry.  The ids and times
that a call draws are inputs; ids are new.
-/

namespace ApexForensic.Search

open ApexForensic.Support ApexForensic.Domain

/-- One persisted search result hit. -/
structure SearchResult extends Hit where
  resultId : String
  queryId : String
  createdAt : String

/-- Immutable reproduction record for one search run. -/
structure SearchExecution where
  executionId : String
  queryId : String
  caseId : String
  queryText : String
  queryMode : SearchQueryMode
  keywordSetId : Option String
  keywordSetVersion : Option ℕ
  options : List (String × Json)
  optionsFingerprint : String
  indexRevision : ℕ
  sourceRevisionFingerprint : String
  startedAt : String
  completedAt : Option String
  status : String
  isPartial : Bool
  resultCount : ℕ
  warnings : List Json
  cacheKey : String
  cacheHit : Bool
  zeroResultKeywordIds : List String

/-- A cached answer; `invalidated` says that the entry has an
`invalidated_at`. -/
structure SearchCacheEntry where
  cacheKey : String
  caseId : String
  queryFingerprint : String
  keywordSetVersion : Option ℕ
  indexRevision : ℕ
  sourceRevisionFingerprint : String
  isPartial : Bool
  resultCount : ℕ
  results : List Hit
  createdAt : String
  hitCount : ℕ
  invalidated : Bool

/-- The tables of the search service. -/
structure SearchStore where
  cases : List String
  sources : Table SourceRow.position
  keywords : KeywordStore
  index : SearchIndex
  queries : List SearchQuery
  executions : List SearchExecution
  results : List SearchResult
  cache : Table SearchCacheEntry.cacheKey

structure QueryArgs where
  caseId : String
  queryText : String
  queryMode : SearchQueryMode
  evidenceIds : List String
  sourceTypes : List SearchSourceType
  documentTypes : List SearchDocumentType
  timeFrom : Option String
  timeTo : Option String
  pathScope : Option String
  filters : List (String × Json)
  keywordSetId : Option String
  keywordSetVersion : Option ℕ
  caseSensitive : Bool
  cursor : Option String
  limit : ℤ
  sort : String
  useCache : Bool

/-- The ids and times that a query draws. -/
structure QueryInputs where
  queryId : String
  executionId : String
  resultId : ℕ → String
  now : String
  completedAt : String
  cachedAt : String

/-- What a query computes before it asks the index. -/
structure QueryPlan where
  query : SearchQuery
  options : List (String × Json)
  sourceRevisionFingerprint : String
  cacheKey : String
  keywordSet : Option KeywordSet
  after : Option (ℚ × String)

def maxQueryLimit : ℕ := 1000
def maxQueryLength : ℕ := 4096
def searchNormalizationVersion : String := "apex-search-normalization-ko-v1"
def searchTokenizerVersion : String := "sqlite-fts5-unicode61-apex-ko-v1"

/-! ## Texts -/

section

variable (P : QueryPlatform)

/-- `re.sub` of each maximal run of some characters by one character. -/
def collapseRuns (p : Char → Bool) (by_ : Char) : List Char → List Char
  | [] => []
  | c :: cs =>
      if p c then
        if (cs.head?.any p) then collapseRuns p by_ cs
        else by_ :: collapseRuns p by_ cs
      else c :: collapseRuns p by_ cs

/-- `_normalize_search_copy`. -/
def normalizeSearchCopy (value : String) : String :=
  let slashed := (P.nfc value).toList.map fun c => if c = '\\' then '/' else c
  let folded := (P.casefold (String.ofList slashed)).toList
  let paths := collapseRuns (· = '/') '/' folded
  strip (String.ofList (collapseRuns isSpace ' ' paths))

/-- The terms that a keyword set adds to a query. -/
def enabledTerms (keywordSet : Option KeywordSet) : List String :=
  keywordSet.elim [] fun set =>
    (set.keywords.filter (·.enabled)).map (·.term)

/-- `_effective_query_text`. -/
def rawEffectiveQueryText (queryText : String)
    (keywordSet : Option KeywordSet) : String :=
  let text := strip queryText
  match keywordSet with
  | none => text
  | some set =>
      let terms := enabledTerms (some set)
      if text = "" ∧ terms ≠ [] then " ".intercalate terms
      else if terms ≠ [] then strip (" ".intercalate (text :: terms))
      else text

def queryError (message : String) : PyError :=
  validationError message (some "query") []

def validateQuery (queryText : String) (queryMode : SearchQueryMode) :
    Except PyError Unit := do
  if strip queryText = "" then
    .error (queryError "Search query cannot be empty.")
  if maxQueryLength < queryText.length then
    .error (queryError "Search query cannot exceed 4096 characters.")
  if queryMode = .regexMetadata then validateSafeRegex P.toPlatform queryText

def validateLimit (limit : ℤ) : Except PyError ℕ := do
  if limit < 1 ∨ maxQueryLimit < limit then
    .error (validationError "Limit must be between 1 and 1000."
      (some "limit") [])
  .ok limit.toNat

def invalidSearchCursor : PyError :=
  validationError "Invalid search cursor." (some "cursor") []

def decodeSearchCursor (cursor : String) : Except PyError (ℚ × String) :=
  match P.cursorJson cursor with
  | some (.obj data) =>
      match (Json.lookup "rank" data).bind P.float,
          Json.lookup "document_id" data with
      | some rank, some documentId => .ok (rank, P.str documentId)
      | _, _ => .error invalidSearchCursor
  | _ => .error invalidSearchCursor

/-! ## The plan of a query -/

/-- `current_search_index_revision`. -/
def currentSearchIndexRevision (index : SearchIndex) (caseId : String) : ℕ :=
  match index.revisions.lookup caseId with
  | some revision => revision
  | none => ((index.documents.rows.filter fun d => d.caseId = caseId).map
      fun d => d.indexRevision).foldr max 0

def texts (values : List String) : Json :=
  .arr (values.map .str)

/-- The options that are recorded with an execution. -/
def queryOptions (args : QueryArgs) (rawText effectiveText : String)
    (keywordSetVersion : Option ℕ) (limit : ℕ) : List (String × Json) :=
  [("case_id", .str args.caseId),
   ("query_text", .str effectiveText),
   ("original_query_text", .str args.queryText),
   ("effective_query_text", .str effectiveText),
   ("raw_effective_query_text", .str rawText),
   ("normalized_effective_query_text", .str effectiveText),
   ("normalization_version", .str searchNormalizationVersion),
   ("tokenizer_version", .str searchTokenizerVersion),
   ("query_mode", .str args.queryMode.value),
   ("evidence_ids", texts args.evidenceIds),
   ("source_types", texts (args.sourceTypes.map SearchSourceType.value)),
   ("document_types",
      texts (args.documentTypes.map SearchDocumentType.value)),
   ("time_from", optionalText args.timeFrom),
   ("time_to", optionalText args.timeTo),
   ("path_scope", optionalText args.pathScope),
   ("filters", .obj args.filters),
   ("keyword_set_id", optionalText args.keywordSetId),
   ("keyword_set_version", keywordSetVersion.elim .null fun v => .int v),
   ("case_sensitive", .bool args.caseSensitive),
   ("cursor", optionalText args.cursor),
   ("limit", .int limit),
   ("sort", .str args.sort),
   ("cache_ttl_seconds", .null)]

def fingerprintOptions (options : List (String × Json)) :
    List (String × Json) :=
  options.filter fun option =>
    option.1 ∉ ["original_query_text", "raw_effective_query_text"]

/-- The document whose digest is the key of a cache entry. -/
def cacheKeyDocument (args : QueryArgs) (optionsFingerprint : String)
    (keywordSetVersion : Option ℕ) (indexRevision : ℕ)
    (sourceRevisionFingerprint : String) : Json :=
  .obj [
    ("case_id", .str args.caseId),
    ("evidence_scope", texts args.evidenceIds),
    ("query_fingerprint", .str optionsFingerprint),
    ("keyword_set_version", keywordSetVersion.elim .null fun v => .int v),
    ("index_revision", .int indexRevision),
    ("source_revision_fingerprint", .str sourceRevisionFingerprint),
    ("time_range", .obj [("from", optionalText args.timeFrom),
      ("to", optionalText args.timeTo)]),
    ("filters", .obj args.filters),
    ("cursor", optionalText args.cursor),
    ("sort", .str args.sort)]

def requireCase (store : SearchStore) (caseId : String) :
    Except PyError Unit := do
  if ¬ caseId ∈ store.cases then
    .error (notFoundError "CASE_NOT_FOUND" "Case not found." (some "case_id"))

def namedKeywordSet (store : SearchStore) (args : QueryArgs) :
    Except PyError (Option KeywordSet) :=
  args.keywordSetId.mapM fun id =>
    getKeywordSet store.keywords id args.keywordSetVersion

def effectiveQueryText (rawText : String) (queryMode : SearchQueryMode) :
    String :=
  if queryMode = .regexMetadata then rawText
  else normalizeSearchCopy P rawText

def queryPlan (store : SearchStore) (args : QueryArgs)
    (inputs : QueryInputs) : Except PyError QueryPlan := do
  requireCase store args.caseId
  validateQuery P args.queryText args.queryMode
  let limit ← validateLimit args.limit
  let after ← args.cursor.mapM (decodeSearchCursor P)
  let keywordSet ← namedKeywordSet store args
  let keywordSetVersion :=
    keywordSet.elim args.keywordSetVersion fun set => some set.version
  let rawText := rawEffectiveQueryText args.queryText keywordSet
  validateQuery P rawText args.queryMode
  let text := effectiveQueryText P rawText args.queryMode
  let indexRevision := currentSearchIndexRevision store.index args.caseId
  let fingerprint := searchSourceRevisionFingerprint P.sha256 store.sources
    args.caseId args.evidenceIds args.sourceTypes
  let options := queryOptions args rawText text keywordSetVersion limit
  let optionsFingerprint :=
    canonicalSha256 P.sha256 (.obj (fingerprintOptions options)) []
  let cacheKey := canonicalSha256 P.sha256 (cacheKeyDocument args
    optionsFingerprint keywordSetVersion indexRevision fingerprint) []
  .ok {
    query := {
      queryId := inputs.queryId
      queryText := text
      queryMode := args.queryMode
      caseId := args.caseId
      evidenceIds := args.evidenceIds
      sourceTypes := args.sourceTypes
      documentTypes := args.documentTypes
      timeFrom := args.timeFrom
      timeTo := args.timeTo
      pathScope := args.pathScope
      filters := args.filters
      keywordSetId := args.keywordSetId
      keywordSetVersion := keywordSetVersion
      indexRevision := indexRevision
      optionsFingerprint := optionsFingerprint
      createdAt := inputs.now
      sort := args.sort
      limit := limit
      caseSensitive := args.caseSensitive }
    options := options
    sourceRevisionFingerprint := fingerprint
    cacheKey := cacheKey
    keywordSet := keywordSet
    after := after }

end

end ApexForensic.Search
