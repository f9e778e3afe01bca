import ApexForensic.Search.Keywords
import ApexForensic.Search.Sources
import ApexForensic.Support.Service

/-!
# Queries of the search index

A query is planned first: its arguments are checked, its text is expanded with
the terms of a keyword set and normalised, and the digest of its options is
the key of its cache entry.  Then it is recorded and answered, from the cache
or from the index.  Regular expressions are matched in Python, on a bounded
number of candidates; an exact query filters a page of phrase matches.
-/

namespace ApexForensic.Search

open ApexForensic.Support ApexForensic.Domain

inductive SearchQueryMode where
  | term | phrase | prefixed | exactly | regexMetadata
  deriving DecidableEq

def SearchQueryMode.value : SearchQueryMode → String
  | term => "TERM"
  | phrase => "PHRASE"
  | prefixed => "PREFIX"
  | exactly => "EXACT"
  | regexMetadata => "REGEX_METADATA"

/-- The document in the text of a cursor. -/
def searchCursorPayload (rank : Json) (documentId : String) : Json :=
  .obj [("document_id", .str documentId), ("rank", rank)]

/-- What a query takes from the Python library and from SQLite.  Ranks are the
values of finite doubles.  `float` is `float(value)`, with no value where that
raises, and `floatJson` writes a double; `cursorText` is the unpadded base64
text of a JSON document and `cursorJson` reads it back, with no value where
that raises a `ValueError`.  `ftsMatch` compiles a full-text query into a
predicate on the three indexed texts of a row, unless it is malformed; `bm25`
ranks a row of the full-text table. -/
structure QueryPlatform extends Platform where
  isWord : Char → Bool
  str : Json → String
  float : Json → Option ℚ
  floatJson : ℚ → Json
  cursorText : Json → String
  cursorJson : String → Option Json
  ftsMatch : String → Option (String → String → String → Bool)
  bm25 : String → List FtsRow → FtsRow → ℚ
  snippet : String → FtsRow → String
  str_str : ∀ s, str (.str s) = s
  float_floatJson : ∀ rank, float (floatJson rank) = some rank
  cursorJson_cursorText : ∀ rank documentId,
    cursorJson (cursorText (searchCursorPayload (floatJson rank) documentId)) =
      some (searchCursorPayload (floatJson rank) documentId)

/-- Immutable search query options used for reproduction.  Times are JSON
timestamps. -/
structure SearchQuery where
  queryId : String
  queryText : String
  queryMode : SearchQueryMode
  caseId : String
  evidenceIds : List String
  sourceTypes : List SearchSourceType
  documentTypes : List SearchDocumentType
  timeFrom : Option String
  timeTo : Option String
  pathScope : Option String
  filters : List (String × Json)
  keywordSetId : Option String
  keywordSetVersion : Option ℕ
  indexRevision : ℕ
  optionsFingerprint : String
  createdAt : String
  sort : String
  limit : ℕ
  caseSensitive : Bool

/-- A row of a query's answer. -/
structure Hit where
  documentId : String
  sourceType : SearchSourceType
  sourceId : String
  rank : ℚ
  matchedFields : List String
  matchedTerms : List String
  snippet : String
  rawLocator : Json
  citations : Json
  isPartial : Bool
  indexRevision : ℕ

/-- A document with its rank and the snippet of a full-text query. -/
structure RankedDocument where
  document : SearchDocument
  rank : ℚ
  snippet : String

def RankedDocument.documentId (row : RankedDocument) : String :=
  row.document.documentId

section Texts

variable (P : QueryPlatform)

/-- The words of a text, split at white space and quotes. -/
def queryTerms (value : String) : List String :=
  ((value.toList.splitOnP fun c => isSpace c || c = '"').filter
    fun word => !word.isEmpty).map String.ofList

def quoteFts (value : String) : String :=
  String.ofList ('"' :: (value.toList.flatMap fun c =>
    if c = '"' then ['"', '"'] else [c]) ++ ['"'])

def prefixFtsToken (value : String) : String :=
  let cleaned := value.toList.filter fun c =>
    P.isWord c || ('\u0080' ≤ c && c ≤ '\uffff')
  if cleaned.isEmpty then quoteFts value
  else String.ofList (cleaned ++ ['*'])

def ftsQuery (queryText : String) : SearchQueryMode → String
  | .phrase | .exactly => quoteFts queryText
  | .prefixed => " ".intercalate ((queryTerms queryText).map (prefixFtsToken P))
  | _ => " ".intercalate ((queryTerms queryText).map quoteFts)

/-- The values of the structured fields, as one text. -/
def structuredText (d : SearchDocument) : String :=
  " ".intercalate (d.structuredFields.map fun field => P.str field.2)

/-- The text in which an exact query looks for its needle. -/
def haystack (d : SearchDocument) : String :=
  " ".intercalate
    [d.title, d.path.getD "", d.searchableText, structuredText P d]

def matchedFields (terms : List String) (d : SearchDocument) : List String :=
  let contains := fun text : String =>
    terms.any fun term => containsText (P.casefold term) (P.casefold text)
  let fields :=
    (if contains d.title then ["title"] else []) ++
    (if contains (d.path.getD "") then ["path"] else []) ++
    (if contains d.searchableText then ["searchable_text"] else []) ++
    (if contains (structuredText P d) then ["structured_fields"] else [])
  if fields.isEmpty then ["searchable_text"] else fields

def hitFromRow (query : SearchQuery) (row : RankedDocument) : Hit where
  documentId := row.document.documentId
  sourceType := row.document.sourceType
  sourceId := row.document.sourceId
  rank := row.rank
  matchedFields := matchedFields P (queryTerms query.queryText) row.document
  matchedTerms := queryTerms query.queryText
  snippet := if row.snippet = "" then row.document.title else row.snippet
  rawLocator := row.document.rawLocator
  citations := row.document.citations
  isPartial := row.document.isPartial
  indexRevision := row.document.indexRevision

end Texts

/-! ## The queries of the repository -/

section Repository

variable (P : QueryPlatform)

def filterClauses (query : SearchQuery) (d : SearchDocument) : Bool :=
  d.caseId = query.caseId && !d.isStale &&
    (query.evidenceIds.isEmpty || d.evidenceId ∈ query.evidenceIds) &&
    (query.sourceTypes.isEmpty || d.sourceType ∈ query.sourceTypes) &&
    (query.documentTypes.isEmpty || d.documentType ∈ query.documentTypes) &&
    (query.timeFrom.all fun bound =>
      d.observedAtUtc.any fun time => bound ≤ time) &&
    (query.timeTo.all fun bound =>
      d.observedAtUtc.any fun time => time ≤ bound) &&
    query.pathScope.all fun scope =>
      scope = "" || d.normalizedPath.any fun path =>
        like ('%' :: (P.casefold scope).toList ++ ['%']) path.toList

/-- The rows of a full-text query, before the clause on the cursor. -/
def rankedDocuments (index : SearchIndex) (query : SearchQuery)
    (texts : String → String → String → Bool) : List RankedDocument :=
  let text := ftsQuery P query.queryText query.queryMode
  (index.joined.filter fun hit =>
      filterClauses P query hit.1.toSearchDocument &&
        texts hit.2.title hit.2.path hit.2.searchableText).map fun hit =>
    { document := hit.1.toSearchDocument
      rank := P.bm25 text index.fts.rows hit.2
      snippet := P.snippet text hit.2 }

/-- `rank > ? OR (rank = ? AND document_id > ?)`. -/
def ranksAfter (after : ℚ × String) (row : RankedDocument) : Bool :=
  after.1 < row.rank ||
    (row.rank = after.1 && after.2 < row.documentId)

/-- The test that an exact query makes on a phrase match. -/
def containsNeedle (query : SearchQuery) (d : SearchDocument) : Bool :=
  if query.caseSensitive then containsText query.queryText (haystack P d)
  else containsText (P.casefold query.queryText) (P.casefold (haystack P d))

/-- The documents that the filters select, in the order of their ids, after an
id. -/
def candidates (index : SearchIndex) (query : SearchQuery)
    (afterId : Option String) : List SearchDocument :=
  ((index.documents.rows.map DocumentRow.toSearchDocument).filter fun d =>
      filterClauses P query d &&
        afterId.all fun id => id < d.documentId).insertionSort
    fun a b => a.documentId ≤ b.documentId

/-- How many candidates a regular expression is tried on. -/
def candidateLimit (limit : ℕ) : ℕ :=
  min (max (limit * 20) 500) 5000

/-- The pattern is found in the structured fields. -/
def matchesPattern (query : SearchQuery) (d : SearchDocument) : Bool :=
  P.reSearch query.queryText (!query.caseSensitive) (structuredText P d)

def querySearchRegex (index : SearchIndex) (query : SearchQuery)
    (after : Option (ℚ × String)) (limit : ℕ) : List Hit :=
  -- the loop stops at the `limit`-th match, and `limit` is positive
  (((candidates P index query (after.map Prod.snd)).take
      (candidateLimit limit)).filter (matchesPattern P query)).take limit
    |>.map fun d =>
      { hitFromRow P query { document := d, rank := 0, snippet := "" } with
        matchedTerms := [query.queryText]
        matchedFields := ["structured_fields"] }

/-- The full-text predicate of a query, unless SQLite refuses its text. -/
def compileFts (query : SearchQuery) :
    Except PyError (String → String → String → Bool) :=
  match P.ftsMatch (ftsQuery P query.queryText query.queryMode) with
  | some texts => .ok texts
  | none => .error (.builtin .operationalError "fts5: syntax error")

/-- Execute a parameterized search query and return result rows. -/
def querySearchDocuments (index : SearchIndex) (query : SearchQuery)
    (after : Option (ℚ × String)) (limit : ℕ) : Except PyError (List Hit) :=
  if query.queryMode = .regexMetadata then
    .ok (querySearchRegex P index query after limit)
  else do
    let texts ← compileFts P query
    let rows := (((rankedDocuments P index query texts).filter fun row =>
        after.all fun after => ranksAfter after row).insertionSort
      (orderBy RankedDocument.rank RankedDocument.documentId)).take limit
    let results := if query.queryMode = .exactly then
        rows.filter fun row => containsNeedle P query row.document
      else rows
    .ok ((results.take limit).map (hitFromRow P query))

end Repository

end ApexForensic.Search
