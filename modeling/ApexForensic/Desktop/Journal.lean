import ApexForensic.Support.PyValue

/-!
# The journal of the desktop tasks

The receipts of the tasks are kept in a JSON file.  A file that is not a list
of records is put aside under another name; the records of any other file are
loaded with the statuses of live tasks replaced.  The loader checks three
fields of a record, and the writer asks for more.
-/

namespace ApexForensic.Desktop

open ApexForensic.Support

/-- What the journal takes from Python: `json.loads` of the UTF-8 text of a
file, with none for an exception, the bytes of a document that `json.dumps`
can write, `not text.strip()`, and how deep a value may be nested for each. -/
structure JournalPlatform where
  loads : List UInt8 → Option PyValue
  document : PyValue → List UInt8
  isBlank : PyStr → Bool
  loadDepth : ℕ
  dumpDepth : ℕ
  not_isBlank_interrupted : isBlank (py "INTERRUPTED") = false
  three_le_loadDepth : 3 ≤ loadDepth
  three_le_dumpDepth : 3 ≤ dumpDepth
  distinctKeys_of_loads : ∀ {content v}, loads content = some v →
    v.DistinctKeys
  depth_of_loads : ∀ {content v}, loads content = some v →
    v.depth ≤ loadDepth
  loads_document : ∀ {v : PyValue}, v.encodable = true → v.DistinctKeys →
    v.depth ≤ loadDepth → v.depth ≤ dumpDepth → loads (document v) = some v

variable (P : JournalPlatform)

/-! ## Loading -/

def liveStatuses : List PyStr :=
  [py "RUNNING", py "QUEUED", py "CANCELLING"]

/-- The field is a text that is not blank. -/
def validField (item : PyFields) (key : PyStr) : Bool :=
  match item.lookup key with
  | some (.str s) => !P.isBlank s
  | _ => false

/-- A record that passes the checks of the loader. -/
def validItem? : PyValue → Option PyFields
  | .dict item =>
      if [py "task_id", py "case_id", py "status"].all (validField P item) then
        some item
      else none
  | _ => none

/-- The records of a file that is not corrupt. -/
def readJournal (content : List UInt8) : Option (List PyFields) :=
  match P.loads content with
  | some (.list items) => items.mapM (validItem? P)
  | _ => none

/-- The field holds this text. -/
def isText (text : PyStr) : PyValue → Bool
  | .str s => s = text
  | _ => false

/-- The status of a live task is replaced. -/
def interrupted (item : PyFields) : PyFields :=
  if (item.lookup (py "status")).any fun status =>
      liveStatuses.any fun live => isText live status then
    setField (py "status") (.str (py "INTERRUPTED")) item
  else item

def restarted (item : PyFields) : PyFields :=
  setDefaultField (py "error") .null
    (setDefaultField (py "job") .null
      (setDefaultField (py "kind") (.str (py "UNKNOWN"))
        (setField (py "actions") (.list []) (interrupted item))))

/-- `item["task_id"]` of a record that was checked. -/
def taskIdOf (item : PyFields) : PyStr :=
  match item.lookup (py "task_id") with
  | some (.str s) => s
  | _ => []

abbrev Records := List (PyStr × PyFields)

/-- How the corrupt file is put aside: it is renamed, or else copied, and the
disk can refuse both. -/
inductive PutAside where
  | renamed
  | copied
  | refused
  deriving DecidableEq

/-- The tasks after the constructor; `kept` is what stands under the corrupt
name. -/
structure LoadedTasks where
  records : Records
  journalRecovered : Bool
  kept : Option (List UInt8)

/-- `Tasks.__init__` over a journal with this content. -/
def loadTasks (content : List UInt8) (putAside : PutAside) : LoadedTasks :=
  match readJournal P content with
  | some items =>
      { records := items.foldl (fun records item =>
          setField (taskIdOf item) (restarted item) records) []
        journalRecovered := false
        kept := none }
  | none =>
      { records := []
        journalRecovered := true
        kept := if putAside = .refused then none else some content }

/-! ## Saving -/

/-- The kinds of tasks whose results are summed up. -/
def resultKinds : List PyStr :=
  [py "RECOVERY", py "STREAM_EXPORT", py "CARVING", py "OCR", py "STT"]

def summaryKeys : List PyStr :=
  ["node_id", "evidence_id", "output_path", "manifest_path", "run_id",
    "sha256", "stream", "exported_bytes", "logical_size", "output_size",
    "recovered_bytes", "missing_ranges", "missing_range_policy", "partial",
    "recovery_method", "warnings", "scope", "semantics", "next_offset",
    "coverage_complete", "scanned_bytes", "candidate_read_bytes",
    "max_file_bytes", "skipped_signatures", "candidate_count",
    "candidate_ids"].map py

def summary (result : PyFields) : PyFields :=
  let picked := pickFields summaryKeys result
  match result.lookup (py "candidates") with
  | some (.list candidates) =>
      setField (py "candidate_count") (.int candidates.length) picked
  | _ => picked

def savedFields (record : PyFields) : PyFields :=
  record.filter fun f => f.1 ∉ [py "result", py "receipt_error"]

def receipt (record : PyFields) : PyFields :=
  match record.lookup (py "kind"), record.lookup (py "result") with
  | some (.str kind), some (.dict result) =>
      if kind ∈ resultKinds then
        savedFields record ++ [(py "result", .dict (summary result))]
      else savedFields record
  | _, _ => savedFields record

/-- What `_save` can raise, besides an `OSError` of the disk. -/
inductive SaveFault where
  | keyError
  | typeError
  | recursionError
  | unicodeEncodeError
  deriving DecidableEq

/-- `record["kind"] in {...}` asks for the hash of the kind. -/
def receiptOf (record : PyFields) : Except SaveFault PyFields :=
  match record.lookup (py "kind") with
  | none => .error .keyError
  | some kind =>
      if kind.hashable then .ok (receipt record) else .error .typeError

/-- `json.dumps(receipts, ensure_ascii=False)` encoded as UTF-8. -/
def writeReceipts (receipts : List PyFields) :
    Except SaveFault (List UInt8) :=
  let value := PyValue.list (receipts.map .dict)
  if P.dumpDepth < value.depth then .error .recursionError
  else if value.encodable then .ok (P.document value)
  else .error .unicodeEncodeError

/-- `_save` on a disk that accepts the write: the new content of the journal.
-/
def saveTasks (records : Records) : Except SaveFault (List UInt8) := do
  let receipts ← records.mapM fun r => receiptOf r.2
  writeReceipts P receipts

end ApexForensic.Desktop
