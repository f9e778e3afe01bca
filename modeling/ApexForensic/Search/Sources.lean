import ApexForensic.Domain.Canonical
import ApexForensic.Domain.Rows
import ApexForensic.Search.Index

/-!
# The sources of the index

The rows of the other services' tables, projected into search-document input
rows.  They are read in the order of source type and source id, a bounded
number after a position at a time.
-/

namespace ApexForensic.Search

open ApexForensic.Support ApexForensic.Domain

/-- A source as the index reads it. -/
structure SourceRow where
  caseId : String
  evidenceId : String
  sourceType : SearchSourceType
  sourceId : String
  sourceRevision : ℕ
  documentType : SearchDocumentType
  title : String
  path : Option String
  normalizedPath : Option String
  searchableText : String
  structuredFields : List (String × Json)
  observedAtUtc : Option String
  rawLocator : Json
  citations : Json
  isPartial : Bool

/-- `(source_type, source_id)`: the primary key of a source. -/
def SourceRow.position (row : SourceRow) : String × String :=
  (row.sourceType.value, row.sourceId)

/-- `_iter_fs_search_rows` and the queries of the other two tables. -/
def iterRows (sources : Table SourceRow.position) (caseId : String)
    (evidenceIds : List String) (sourceType : SearchSourceType)
    (afterId : Option String) (limit : ℕ) : List SourceRow :=
  ((sources.rows.filter fun row =>
      row.sourceType = sourceType && row.caseId = caseId &&
        (evidenceIds.isEmpty || row.evidenceId ∈ evidenceIds) &&
        afterId.all fun id => id < row.sourceId).insertionSort
    fun a b => a.sourceId ≤ b.sourceId).take limit

/-- The source types in the order of their texts. -/
def sortedSourceTypes : List SearchSourceType :=
  [.fileSystemNode, .timelineEvent, .windowsArtifact]

/-- The source types that are read; without any, those of nodes and
artifacts. -/
def selectedTypes (sourceTypes : List SearchSourceType) :
    List SearchSourceType :=
  if sourceTypes.isEmpty then [.fileSystemNode, .windowsArtifact]
  else sourceTypes

/-- The rows of one source type that are added to those read so far. -/
def extendRows (sources : Table SourceRow.position) (caseId : String)
    (evidenceIds : List String) (sourceTypes : List SearchSourceType)
    (afterSource : Option (String × String)) (limit : ℕ)
    (rows : List SourceRow) (sourceType : SearchSourceType) :
    List SourceRow :=
  if sourceType ∉ selectedTypes sourceTypes ∨ limit ≤ rows.length then rows
  else
    match afterSource with
    | none =>
        rows ++ iterRows sources caseId evidenceIds sourceType none
          (limit - rows.length)
    | some (afterType, afterId) =>
        if sourceType.value < afterType then rows
        else rows ++ iterRows sources caseId evidenceIds sourceType
          (if sourceType.value = afterType then some afterId else none)
          (limit - rows.length)

/-- Return existing source rows projected into search-document input rows. -/
def iterSearchSourceRows (sources : Table SourceRow.position)
    (caseId : String) (evidenceIds : List String)
    (sourceTypes : List SearchSourceType)
    (afterSource : Option (String × String)) (limit : ℕ) : List SourceRow :=
  ((sortedSourceTypes.foldl (extendRows sources caseId evidenceIds sourceTypes
      afterSource limit) []).insertionSort
    (orderBy (fun row => row.sourceType.value) SourceRow.sourceId)).take limit

/-- Return a deterministic source-revision fingerprint for cache keys. -/
def searchSourceRevisionFingerprint (sha256 : ByteArray → String)
    (sources : Table SourceRow.position) (caseId : String)
    (evidenceIds : List String) (sourceTypes : List SearchSourceType) :
    String :=
  canonicalSha256 sha256
    (.arr ((iterSearchSourceRows sources caseId evidenceIds sourceTypes none
        1000000).map fun row => .obj [
      ("source_type", .str row.sourceType.value),
      ("source_id", .str row.sourceId),
      ("source_revision", .int row.sourceRevision)])) []

end ApexForensic.Search
