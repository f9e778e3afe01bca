import ApexForensic.Domain.Table
import ApexForensic.Domain.Canonical
import ApexForensic.Domain.PyJson
import ApexForensic.Domain.Rows

/-!
# Stored file-system nodes and index coverage

The rows of `fs_nodes` and `fs_index_coverage`, with the columns that the
index and its queries read.
-/

namespace ApexForensic.FileSystem

open ApexForensic.Support ApexForensic.Domain

inductive FileSystemNodeType where
  | root | directory | file | symlink | reparsePoint | other
  deriving DecidableEq

def FileSystemNodeType.value : FileSystemNodeType → String
  | root => "ROOT"
  | directory => "DIRECTORY"
  | file => "FILE"
  | symlink => "SYMLINK"
  | reparsePoint => "REPARSE_POINT"
  | other => "OTHER"

inductive IndexCoverageStatus where
  | notStarted | isPartial | complete | failed | cancelled
  deriving DecidableEq

inductive AnalysisProfileType where
  | quickTriage | selectedScope | fullAnalysis | custom
  deriving DecidableEq

/-- A provider-neutral metadata node in an evidence file tree. -/
structure FileSystemNode where
  nodeId : String
  caseId : String
  evidenceId : String
  providerId : String
  providerVersion : String
  parentNodeId : Option String
  originalName : String
  originalRelativePath : String
  displayPath : String
  comparisonPath : String
  nodeType : FileSystemNodeType
  fileSize : Option ℕ
  extension : Option String
  isDeleted : Bool
  isReadable : Bool
  isLink : Bool
  isTraversed : Bool
  indexRevision : ℕ
  createdAt : String
  updatedAt : String
  deriving DecidableEq

/-- Progress and coverage counters for one filesystem index revision. -/
structure IndexCoverage where
  caseId : String
  evidenceId : String
  providerId : String
  providerVersion : String
  profileType : AnalysisProfileType
  optionFingerprint : String
  status : IndexCoverageStatus
  discoveredItems : ℕ
  processedItems : ℕ
  skippedItems : ℕ
  warningCount : ℕ
  errorCount : ℕ
  currentPath : Option String
  indexRevision : ℕ
  jobId : Option String
  createdAt : String
  updatedAt : String
  deriving DecidableEq

structure Store where
  evidence : List String
  nodes : Table FileSystemNode.nodeId
  coverage : List IndexCoverage

/-- `ORDER BY updated_at DESC, index_revision DESC`. -/
def newestCoverage (a b : IndexCoverage) : Prop :=
  b.updatedAt < a.updatedAt ∨
    (b.updatedAt = a.updatedAt ∧ b.indexRevision ≤ a.indexRevision)

instance : DecidableRel newestCoverage := fun a b =>
  inferInstanceAs (Decidable (b.updatedAt < a.updatedAt ∨
    (b.updatedAt = a.updatedAt ∧ b.indexRevision ≤ a.indexRevision)))

/-- Return latest coverage for evidence. -/
def Store.latestFsCoverage (store : Store) (evidenceId : String) :
    Option IndexCoverage :=
  ((store.coverage.filter fun c => c.evidenceId = evidenceId).insertionSort
    newestCoverage).head?

def Store.ensureEvidenceExists (store : Store) (evidenceId : String) :
    Except PyError Unit := do
  if ¬ evidenceId ∈ store.evidence then
    .error (notFoundError "EVIDENCE_NOT_FOUND"
      s!"Evidence not found: {evidenceId}" (some "evidence_id"))

end ApexForensic.FileSystem
