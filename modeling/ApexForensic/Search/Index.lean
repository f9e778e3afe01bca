import ApexForensic.Domain.Table
import ApexForensic.Domain.PyJson
import ApexForensic.Support.Run

/-!
# The search index

`search_documents` holds the projections of the sources and
`search_documents_fts` the texts that full-text queries match.  A document
names its row of the second table by a row number, which may be absent.  The
operations below are transactions: one that raises changes nothing.
-/

namespace ApexForensic.Search

open ApexForensic.Support ApexForensic.Domain

inductive SearchSourceType where
  | fileSystemNode | windowsArtifact | timelineEvent
  deriving DecidableEq

def SearchSourceType.value : SearchSourceType → String
  | fileSystemNode => "FILE_SYSTEM_NODE"
  | windowsArtifact => "WINDOWS_ARTIFACT"
  | timelineEvent => "TIMELINE_EVENT"

inductive SearchDocumentType where
  | file | directory | registry | eventLog | prefetch | media | browser
  | communication | timeline | other
  deriving DecidableEq

def SearchDocumentType.value : SearchDocumentType → String
  | file => "FILE"
  | directory => "DIRECTORY"
  | registry => "REGISTRY"
  | eventLog => "EVENT_LOG"
  | prefetch => "PREFETCH"
  | media => "MEDIA"
  | browser => "BROWSER"
  | communication => "COMMUNICATION"
  | timeline => "TIMELINE"
  | other => "OTHER"

/-- What a source is known by in the index. -/
structure SourceKey where
  caseId : String
  evidenceId : String
  sourceType : SearchSourceType
  sourceId : String
  deriving DecidableEq

/-- A searchable projection of filesystem metadata, artifacts, or timeline
events. -/
structure SearchDocument where
  documentId : String
  caseId : String
  evidenceId : String
  sourceType : SearchSourceType
  sourceId : String
  sourceRevision : ℕ
  documentType : SearchDocumentType
  title : String
  path : Option String
  normalizedPath : Option String
  searchableText : String
  structuredFields : List (String × Json)
  observedAtUtc : Option String
  rawLocator : Json
  citations : Json
  isPartial : Bool
  indexRevision : ℕ
  isStale : Bool

def SearchDocument.source (d : SearchDocument) : SourceKey where
  caseId := d.caseId
  evidenceId := d.evidenceId
  sourceType := d.sourceType
  sourceId := d.sourceId

/-- The columns of the unique constraint of `search_documents`. -/
def SearchDocument.identity (d : SearchDocument) :
    SourceKey × ℕ × SearchDocumentType :=
  (d.source, d.sourceRevision, d.documentType)

/-- A row of `search_documents`. -/
structure DocumentRow extends SearchDocument where
  ftsRowid : Option ℕ

def DocumentRow.id (row : DocumentRow) : String := row.documentId

/-- A row of `search_documents_fts`. -/
structure FtsRow where
  rowid : ℕ
  documentId : String
  title : String
  path : String
  searchableText : String
  deriving DecidableEq

/-- The row that holds the texts of a document. -/
def SearchDocument.ftsRow (d : SearchDocument) (rowid : ℕ) : FtsRow where
  rowid := rowid
  documentId := d.documentId
  title := d.title
  path := d.path.getD ""
  searchableText := d.searchableText

structure SearchIndex where
  documents : Table DocumentRow.id
  fts : Table FtsRow.rowid
  /-- `search_index_metadata`: the index revision of each case. -/
  revisions : List (String × ℕ)

namespace SearchIndex

def empty : SearchIndex where
  documents := Table.empty _
  fts := Table.empty _
  revisions := []

def uniqueDocumentError : PyError :=
  .builtin .integrityError ("UNIQUE constraint failed: " ++
    "search_documents.case_id, search_documents.evidence_id, " ++
    "search_documents.source_type, search_documents.source_id, " ++
    "search_documents.source_revision, search_documents.document_type")

/-- The row that an insert of a document leaves: on a conflict of the id, the
old row with the columns that are updated. -/
def upsertedRow (index : SearchIndex) (document : SearchDocument) :
    DocumentRow :=
  match index.documents.find? document.documentId with
  | none => { document with ftsRowid := none }
  | some old =>
      { old with
        sourceRevision := document.sourceRevision
        title := document.title
        path := document.path
        normalizedPath := document.normalizedPath
        searchableText := document.searchableText
        structuredFields := document.structuredFields
        observedAtUtc := document.observedAtUtc
        rawLocator := document.rawLocator
        citations := document.citations
        isPartial := document.isPartial
        indexRevision := document.indexRevision
        isStale := document.isStale }

def upsertDocument (index : SearchIndex) (document : SearchDocument) :
    Except PyError SearchIndex :=
  let row := index.upsertedRow document
  if index.documents.rows.any fun d =>
      d.documentId ≠ row.documentId && d.identity = row.identity then
    .error uniqueDocumentError
  else .ok { index with documents := index.documents.put row }

/-- The row number that an insert without one gets. -/
def nextRowid (index : SearchIndex) : ℕ :=
  (index.fts.rows.map FtsRow.rowid).foldr max 0 + 1

/-- Insert the texts of a document, and set its row number. -/
def insertFts (index : SearchIndex) (row : DocumentRow) : SearchIndex :=
  { index with
    fts := index.fts.put (row.ftsRow index.nextRowid)
    documents := index.documents.update
      (fun d => d.documentId = row.documentId)
      (fun d => { d with ftsRowid := some index.nextRowid }) fun _ => rfl }

/-- Delete the row of a number, and insert the texts of a document there. -/
def replaceFts (index : SearchIndex) (row : DocumentRow) (rowid : ℕ) :
    SearchIndex :=
  { index with fts := index.fts.put (row.ftsRow rowid) }

def upsertMetadata (index : SearchIndex) (caseId : String) (revision : ℕ) :
    SearchIndex :=
  { index with
    revisions := setItem caseId
      (max ((index.revisions.lookup caseId).getD 0) revision)
      index.revisions }

def indexDocument (index : SearchIndex) (document : SearchDocument) :
    Except PyError SearchIndex := do
  let upserted ← index.upsertDocument document
  let row := index.upsertedRow document
  let linked := match row.ftsRowid with
    | some rowid => upserted.replaceFts row rowid
    | none => upserted.insertFts row
  .ok (linked.upsertMetadata document.caseId document.indexRevision)

/-- Batch insert metadata search documents and their FTS rows. -/
def batchIndexSearchDocuments (documents : List SearchDocument)
    (index : SearchIndex) : Except PyError (ℕ × SearchIndex) := do
  let index' ← documents.foldlM indexDocument index
  .ok (documents.length, index')

/-- Mark old document revisions for one source as stale. -/
def markSearchSourceStale (source : SourceKey) (currentSourceRevision : ℕ)
    (index : SearchIndex) : SearchIndex :=
  { index with
    documents := index.documents.update
      (fun d => d.source = source && d.sourceRevision ≠ currentSourceRevision)
      (fun d => { d with isStale := true }) fun _ => rfl }

/-- The documents that a rebuild is about. -/
def inCase (caseId : Option String) (d : DocumentRow) : Bool :=
  caseId.all fun caseId => d.caseId = caseId

/-- Delete the texts of the documents in the case, and their row numbers. -/
def clearFts (caseId : Option String) (index : SearchIndex) : SearchIndex :=
  { index with
    fts := match caseId with
      | none => Table.empty _
      | some _ => index.fts.filter fun row =>
          ! index.documents.rows.any fun d =>
            inCase caseId d && d.ftsRowid = some row.rowid
    documents := index.documents.update (inCase caseId)
      (fun d => { d with ftsRowid := none }) fun _ => rfl }

/-- Rebuild the FTS table from persisted search documents. -/
def rebuildSearchIndex (caseId : Option String) (index : SearchIndex) :
    ℕ × SearchIndex :=
  let cleared := clearFts caseId index
  let rows := (cleared.documents.rows.filter fun d =>
      inCase caseId d && !d.isStale).insertionSort
    fun a b => a.documentId ≤ b.documentId
  (rows.length, rows.foldl insertFts cleared)

/-- `search_documents_fts JOIN search_documents d ON d.fts_rowid = rowid`. -/
def joined (index : SearchIndex) : List (DocumentRow × FtsRow) :=
  index.documents.rows.flatMap fun d =>
    (index.fts.rows.filter fun row => d.ftsRowid = some row.rowid).map
      fun row => (d, row)

/-- The documents of a full-text query: those that are not stale, that the
filters select and whose row has matching texts. -/
def matched (index : SearchIndex) (selects : SearchDocument → Bool)
    (texts : String → String → String → Bool) : List SearchDocument :=
  (index.joined.filter fun hit =>
      !hit.1.isStale && selects hit.1.toSearchDocument &&
        texts hit.2.title hit.2.path hit.2.searchableText).map
    fun hit => hit.1.toSearchDocument

end SearchIndex

/-! ## Runs -/

inductive IndexOp where
  | batchIndex (documents : List SearchDocument)
  | markStale (source : SourceKey) (currentSourceRevision : ℕ)
  | rebuild (caseId : Option String)

def IndexOp.step (index : SearchIndex) : IndexOp → SearchIndex
  | batchIndex documents =>
      match index.batchIndexSearchDocuments documents with
      | .ok (_, index') => index'
      | .error _ => index
  | markStale source revision => index.markSearchSourceStale source revision
  | rebuild caseId => (index.rebuildSearchIndex caseId).2

/-- The documents that operations bring into the index. -/
def IndexOp.documents : IndexOp → List SearchDocument
  | batchIndex documents => documents
  | markStale _ _ => []
  | rebuild _ => []

/-- The index after some operations, in a new database. -/
def indexAfter (ops : List IndexOp) : SearchIndex :=
  run IndexOp.step SearchIndex.empty ops

end ApexForensic.Search
