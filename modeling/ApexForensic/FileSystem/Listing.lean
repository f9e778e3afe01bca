import ApexForensic.FileSystem.Model
import ApexForensic.Support.Keyset

/-!
# Listing file-system nodes

A listing is a query over `fs_nodes` in the order of comparison path and node
id.  The cursor of a page is a JSON document in a text: the digest of the
query and the path and id of the last node of the page.
-/

namespace ApexForensic.FileSystem

open ApexForensic.Support ApexForensic.Domain

/-- The document in the text of a cursor. -/
def cursorPayload (queryKey comparisonPath nodeId : String) : Json :=
  .obj [("after", .arr [.str comparisonPath, .str nodeId]),
    ("query", .str queryKey), ("version", .int 1)]

/-- What the listing takes from the Python library.  `cursorText` is the
unpadded base64 text of a JSON document, `cursorJson` reads such a text back
and has no value where that raises a `ValueError`, and `str` is the text of a
JSON value. -/
structure Platform where
  casefold : String → String
  nfc : String → String
  sha256 : ByteArray → String
  cursorText : Json → String
  cursorJson : String → Option Json
  str : Json → String
  cursorJson_cursorText : ∀ queryKey comparisonPath nodeId,
    cursorJson (cursorText (cursorPayload queryKey comparisonPath nodeId)) =
      some (cursorPayload queryKey comparisonPath nodeId)
  str_str : ∀ s, str (.str s) = s

/-- The arguments of `list_nodes` but for the cursor. -/
structure ListArgs where
  evidenceId : String
  parentNodeId : Option String
  allNodes : Bool
  directoriesOnly : Bool
  filesOnly : Bool
  extension : Option String
  nameOrPath : Option String
  limit : ℤ

structure CursorPage where
  nextCursor : Option String
  hasMore : Bool
  returned : ℕ
  deriving DecidableEq

/-- A page of filesystem nodes plus coverage metadata. -/
structure FileTreePage where
  items : List FileSystemNode
  page : CursorPage
  coverage : Option IndexCoverage
  deriving DecidableEq

section

variable (P : Platform)

def comparisonText (value : Option String) : Option String :=
  value.map fun value => P.casefold (P.nfc value)

/-- `extension.casefold().lstrip(".")`. -/
def foldedExtension (extension : String) : String :=
  String.ofList ((P.casefold extension).toList.dropWhile (· = '.'))

/-- The clauses of the query, but for the one on the cursor. -/
def ListArgs.selects (args : ListArgs) (node : FileSystemNode) : Bool :=
  node.evidenceId = args.evidenceId &&
    (args.allNodes || node.parentNodeId = args.parentNodeId) &&
    (!args.directoriesOnly ||
      node.nodeType = .root || node.nodeType = .directory) &&
    (!args.filesOnly || node.nodeType = .file) &&
    (args.extension.all fun extension =>
      node.extension = some (foldedExtension P extension)) &&
    (comparisonText P args.nameOrPath).all fun text =>
      like ('%' :: (P.casefold text).toList ++ ['%'])
        node.comparisonPath.toList

/-- `comparison_path > ? OR (comparison_path = ? AND node_id > ?)`. -/
def follows (after : String × String) (node : FileSystemNode) : Bool :=
  after.1 < node.comparisonPath ||
    (node.comparisonPath = after.1 && after.2 < node.nodeId)

/-- Query filesystem nodes with stable path/id ordering. -/
def queryFsNodes (store : Store) (args : ListArgs)
    (after : Option (String × String)) (limit : ℕ) : List FileSystemNode :=
  ((store.nodes.rows.filter fun node =>
      args.selects P node && after.all fun after => follows after node)
    |>.insertionSort
      (orderBy FileSystemNode.comparisonPath FileSystemNode.nodeId)).take limit

/-- The document whose digest stands for a query. -/
def queryDocument (args : ListArgs) : Json :=
  .obj [
    ("evidence_id", .str args.evidenceId),
    ("parent_node_id", optionalText args.parentNodeId),
    ("all_nodes", .bool args.allNodes),
    ("directories_only", .bool args.directoriesOnly),
    ("files_only", .bool args.filesOnly),
    ("extension", optionalText (args.extension.map (foldedExtension P))),
    ("name_or_path", optionalText (comparisonText P args.nameOrPath)),
    ("sort", .arr [.str "comparison_path", .str "node_id"])]

def queryFingerprint (args : ListArgs) : String :=
  canonicalSha256 P.sha256 (queryDocument P args) []

def encodeCursor (queryKey comparisonPath nodeId : String) : String :=
  P.cursorText (cursorPayload queryKey comparisonPath nodeId)

def invalidCursor (message : String) : PyError :=
  validationError message (some "cursor") []

def decodeCursor (cursor queryKey : String) :
    Except PyError (String × String) :=
  match P.cursorJson cursor with
  | none => .error (invalidCursor "Invalid cursor.")
  | some (.obj payload) =>
      if ¬ equalsInt (getKey payload "version") 1 ∨
          ¬ equalsStr? (getKey payload "query") (some queryKey) then
        .error (invalidCursor "Cursor does not match query options.")
      else
        match getKey payload "after" with
        | .arr [path, id] => .ok (P.str path, P.str id)
        | _ => .error (invalidCursor "Invalid cursor payload.")
  | some _ => .error (.builtin .attributeError "get")

/-- Return a stable cursor page of filesystem nodes. -/
def listNodes (store : Store) (args : ListArgs) (cursor : Option String) :
    Except PyError FileTreePage := do
  store.ensureEvidenceExists args.evidenceId
  if args.directoriesOnly && args.filesOnly then
    .error (validationError
      "directories_only and files_only are mutually exclusive." none [])
  if args.limit < 1 ∨ args.limit > 500 then
    .error (validationError "limit must be between 1 and 500."
      (some "limit") [])
  let queryKey := queryFingerprint P args
  let after ← cursor.mapM fun cursor => decodeCursor P cursor queryKey
  let limit := args.limit.toNat
  let rows := queryFsNodes P store args after (limit + 1)
  let hasMore := decide (rows.length > limit)
  let items := rows.take limit
  let nextCursor := if hasMore then
      items.getLast?.map fun last =>
        encodeCursor P queryKey last.comparisonPath last.nodeId
    else none
  .ok {
    items := items
    page := {
      nextCursor := nextCursor, hasMore := hasMore, returned := items.length }
    coverage := store.latestFsCoverage args.evidenceId }

end

end ApexForensic.FileSystem
