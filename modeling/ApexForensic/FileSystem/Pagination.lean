import ApexForensic.FileSystem.Listing

/-!
# The pages of a listing

`matching` is what a listing asks for: the selected nodes in the order of
comparison path and node id.  Following the cursors returns exactly that list,
because the cursor of a page stands between its last node and the rest
(`StandsBefore`).  Two queries take each other's cursors exactly when their
arguments agree after the normalisation that the query itself applies
(`SameQuery`).
-/

namespace ApexForensic.FileSystem

open ApexForensic.Support ApexForensic.Domain

variable {nodes : List FileSystemNode} {cursor : Option String}
  {args' : ListArgs}

variable {P : Platform} {store : Store} {args : ListArgs}

variable (P store args) in
/-- The nodes a listing is about, in its order. -/
def matching : List FileSystemNode :=
  (store.nodes.rows.filter fun node => args.selects P node).insertionSort
    (orderBy FileSystemNode.comparisonPath FileSystemNode.nodeId)

/-- What `list_nodes` checks of its arguments. -/
structure ListArgs.Valid (store : Store) (args : ListArgs) : Prop where
  evidence : args.evidenceId ∈ store.evidence
  kinds : ¬ (args.directoriesOnly = true ∧ args.filesOnly = true)
  limit : 1 ≤ args.limit ∧ args.limit ≤ 500

/-! ## The order of the nodes -/

theorem separates_nodes (nodes : Table FileSystemNode.nodeId) :
    Separates (orderBy FileSystemNode.comparisonPath FileSystemNode.nodeId)
      nodes.rows := by
  intro a ha b hb hab hba
  exact nodes.row_unique ha hb (orderBy_antisymm hab hba).2

theorem follows_eq (last node : FileSystemNode) :
    follows (last.comparisonPath, last.nodeId) node =
      ! decide (orderBy FileSystemNode.comparisonPath FileSystemNode.nodeId
        node last) := by
  rw [follows, ← decide_not, Bool.eq_iff_iff, decide_eq_true_iff,
    not_orderBy_iff]
  simp only [Bool.or_eq_true, Bool.and_eq_true, decide_eq_true_eq]

variable (P store args) in
theorem nodup_matching : (matching P store args).Nodup := by
  rw [matching, (List.perm_insertionSort _ _).nodup_iff]
  apply List.Nodup.filter
  exact store.nodes.keys_nodup.of_map

variable (P store args) in
theorem separates_matching :
    Separates (orderBy FileSystemNode.comparisonPath FileSystemNode.nodeId)
      (matching P store args) :=
  ((separates_nodes store.nodes).filter _).of_perm
    (List.perm_insertionSort _ _)

theorem queryFsNodes_none (n : ℕ) :
    queryFsNodes P store args none n = (matching P store args).take n := by
  simp [queryFsNodes, matching]

theorem queryFsNodes_some {before rest : List FileSystemNode}
    {last : FileSystemNode}
    (h : matching P store args = before ++ last :: rest) (n : ℕ) :
    queryFsNodes P store args (some (last.comparisonPath, last.nodeId)) n =
      rest.take n := by
  have hselected : (store.nodes.rows.filter fun node =>
      args.selects P node &&
        (some (last.comparisonPath, last.nodeId)).all fun after =>
          follows after node) =
      (store.nodes.rows.filter fun node => args.selects P node).filter
        fun node => ! decide (orderBy FileSystemNode.comparisonPath
          FileSystemNode.nodeId node last) := by
    rw [List.filter_filter]
    apply List.filter_congr
    intro node _
    rw [Option.all_some, follows_eq, Bool.and_comm]
  have hsorted : (matching P store args).Pairwise
      (orderBy FileSystemNode.comparisonPath FileSystemNode.nodeId) :=
    List.pairwise_insertionSort _ _
  have hnodup := nodup_matching P store args
  have hseparates := separates_matching P store args
  rw [queryFsNodes, hselected,
    insertionSort_filter ((separates_nodes store.nodes).filter _)]
  rw [h] at hsorted hnodup hseparates
  rw [← matching, h, filter_after_eq hsorted hnodup hseparates]

/-! ## Cursors -/

theorem decodeCursor_encodeCursor (queryKey path id queryKey' : String) :
    decodeCursor P (encodeCursor P queryKey path id) queryKey' =
      if queryKey = queryKey' then .ok (path, id)
      else .error (invalidCursor "Cursor does not match query options.") := by
  rw [decodeCursor, encodeCursor, P.cursorJson_cursorText, cursorPayload]
  by_cases h : queryKey = queryKey'
  · simp [getKey, equalsInt, equalsStr?, h, P.str_str]
  · simp [getKey, equalsInt, equalsStr?, h]

variable (P store args) in
/-- The cursor stands before these nodes of the listing. -/
def StandsBefore : Option String → List FileSystemNode → Prop
  | none, nodes => matching P store args = nodes
  | some cursor, nodes => ∃ before last,
      matching P store args = before ++ last :: nodes ∧
      cursor = encodeCursor P (queryFingerprint P args) last.comparisonPath
        last.nodeId

/-- What `list_nodes` reads: the cursor's position, and the nodes after it. -/
theorem exists_after (h : StandsBefore P store args cursor nodes) :
    ∃ after, (cursor.mapM fun cursor =>
        decodeCursor P cursor (queryFingerprint P args)) = .ok after ∧
      ∀ n, queryFsNodes P store args after n = nodes.take n := by
  cases cursor with
  | none =>
      refine ⟨none, rfl, fun n => ?_⟩
      rw [queryFsNodes_none, show matching P store args = nodes from h]
  | some cursor =>
      obtain ⟨before, last, hmatching, rfl⟩ := h
      refine ⟨some (last.comparisonPath, last.nodeId), ?_, fun n => ?_⟩
      · rw [Option.mapM_some, decodeCursor_encodeCursor, if_pos rfl]
        rfl
      · exact queryFsNodes_some hmatching n

theorem StandsBefore.isSuffix (h : StandsBefore P store args cursor nodes) :
    nodes <:+ matching P store args := by
  cases cursor with
  | none => exact ⟨[], (show matching P store args = nodes from h).symm⟩
  | some cursor =>
      obtain ⟨before, last, hmatching, -⟩ := h
      exact ⟨before ++ [last], by rw [hmatching, List.append_assoc]; rfl⟩

/-- The cursor of a page that holds the first nodes stands before the
others. -/
theorem StandsBefore.of_getLast? {items rest : List FileSystemNode}
    {last : FileSystemNode}
    (h : StandsBefore P store args cursor (items ++ rest))
    (hlast : items.getLast? = some last) :
    StandsBefore P store args (some (encodeCursor P (queryFingerprint P args)
      last.comparisonPath last.nodeId)) rest := by
  obtain ⟨init, rfl⟩ := List.getLast?_eq_some_iff.mp hlast
  obtain ⟨before, hbefore⟩ := h.isSuffix
  refine ⟨before ++ init, last, ?_, rfl⟩
  rw [← hbefore, List.append_assoc, List.append_assoc]
  rfl

variable (P store args) in
/-- The page of the first nodes of a list. -/
def firstPage (nodes : List FileSystemNode) : FileTreePage where
  items := nodes.take args.limit.toNat
  page := {
    nextCursor := if args.limit.toNat < nodes.length then
        (nodes.take args.limit.toNat).getLast?.map fun last =>
          encodeCursor P (queryFingerprint P args) last.comparisonPath
            last.nodeId
      else none
    hasMore := decide (args.limit.toNat < nodes.length)
    returned := (nodes.take args.limit.toNat).length }
  coverage := store.latestFsCoverage args.evidenceId

theorem listNodes_eq (hargs : args.Valid store)
    (h : StandsBefore P store args cursor nodes) :
    listNodes P store args cursor = .ok (firstPage P store args nodes) := by
  obtain ⟨after, hafter, hrows⟩ := exists_after h
  obtain ⟨hevidence, hkinds, hlow, hhigh⟩ := hargs
  have hkinds' : (args.directoriesOnly && args.filesOnly) = false := by
    simpa using hkinds
  have hmore : args.limit.toNat <
      (nodes.take (args.limit.toNat + 1)).length ↔
      args.limit.toNat < nodes.length := by
    rw [List.length_take]
    omega
  have hmin : min args.limit.toNat (args.limit.toNat + 1) =
      args.limit.toNat := by omega
  simp only [listNodes, Store.ensureEvidenceExists, hevidence, hkinds',
    hafter, hrows, not_true_eq_false, if_false, Bool.false_eq_true,
    not_lt.mpr hlow, not_lt.mpr hhigh, gt_iff_lt, or_self, pure, bind,
    Except.bind, Except.pure, List.take_take, firstPage, hmore, hmin,
    decide_eq_true_eq]

/-- One page of the listing: the first nodes after the cursor, at most
`limit`, and a cursor that stands before the others. -/
theorem listNodes_page (hargs : args.Valid store)
    (h : StandsBefore P store args cursor nodes) :
    Fetched (StandsBefore P store args) (·.page.nextCursor) (·.items) nodes
      (firstPage P store args nodes) := by
  have hpos : 0 < args.limit.toNat := by
    have := hargs.limit.1
    omega
  rw [← List.take_append_drop args.limit.toNat nodes] at h
  constructor
  · intro hnext
    apply List.take_of_length_le
    by_contra hlen
    have hlt : args.limit.toNat < nodes.length := by omega
    simp only [firstPage, if_pos hlt, Option.map_eq_none_iff,
      List.getLast?_eq_none_iff, List.take_eq_nil_iff] at hnext
    rcases hnext with hnext | rfl
    · omega
    · simp at hlt
  · intro c hnext
    simp only [firstPage, Option.ite_none_right_eq_some,
      Option.map_eq_some_iff] at hnext
    obtain ⟨hlt, last, hlast, rfl⟩ := hnext
    refine ⟨?_, nodes.drop args.limit.toNat,
      (List.take_append_drop _ _).symm, h.of_getLast? hlast⟩
    rintro hnil
    rw [show nodes.take args.limit.toNat = [] from hnil] at hlast
    cases hlast

theorem firstPage_bounds (hargs : args.Valid store) :
    ((firstPage P store args nodes).items.length : ℤ) ≤ args.limit ∧
      (firstPage P store args nodes).page.hasMore =
        (firstPage P store args nodes).page.nextCursor.isSome := by
  have hlow := hargs.limit.1
  constructor
  · simp only [firstPage, List.length_take]
    omega
  · simp only [firstPage]
    split
    · rename_i hlt
      have hpos : args.limit.toNat ≠ 0 := by omega
      have hne : nodes ≠ [] := by
        rintro rfl
        simp at hlt
      simp [hlt, hpos, hne, Option.isSome_iff_ne_none]
    · simp_all

/-! ## Queries that take each other's cursors -/

variable (P) in
/-- The arguments agree, filters after the query's own normalisation. -/
structure SameQuery (args args' : ListArgs) : Prop where
  evidenceId : args.evidenceId = args'.evidenceId
  parentNodeId : args.parentNodeId = args'.parentNodeId
  allNodes : args.allNodes = args'.allNodes
  directoriesOnly : args.directoriesOnly = args'.directoriesOnly
  filesOnly : args.filesOnly = args'.filesOnly
  extension : args.extension.map (foldedExtension P) =
    args'.extension.map (foldedExtension P)
  nameOrPath : comparisonText P args.nameOrPath =
    comparisonText P args'.nameOrPath

theorem SameQuery.queryDocument_eq (h : SameQuery P args args') :
    queryDocument P args = queryDocument P args' := by
  simp only [queryDocument, h.evidenceId, h.parentNodeId, h.allNodes,
    h.directoriesOnly, h.filesOnly, h.extension, h.nameOrPath]

theorem SameQuery.matching_eq (h : SameQuery P args args') :
    matching P store args = matching P store args' := by
  have hextension : ∀ node : FileSystemNode,
      (args.extension.all fun e =>
        node.extension = some (foldedExtension P e)) =
      args'.extension.all fun e =>
        node.extension = some (foldedExtension P e) := by
    intro node
    have hmap := congrArg (fun o => o.all fun e : String =>
      node.extension = some e) h.extension
    simpa only [Option.all_map] using hmap
  have hselects : ∀ node, args.selects P node = args'.selects P node := by
    intro node
    simp only [ListArgs.selects, hextension, h.evidenceId, h.parentNodeId,
      h.allNodes, h.directoriesOnly, h.filesOnly, h.nameOrPath]
  rw [matching, matching, List.filter_congr fun node _ => hselects node]

theorem sameQuery_of_canonicalJsonBytes_eq
    (h : canonicalJsonBytes (queryDocument P args) [] =
      canonicalJsonBytes (queryDocument P args') []) :
    SameQuery P args args' := by
  have hform := canonicalForm_eq_of_bytes_eq h
  have hfield : ∀ (key : String) {a b : Json}, a.isScalar = true →
      (queryDocument P args).field? key = some a →
      (queryDocument P args').field? key = some b → a = b := by
    intro key a b hscalar ha hb
    have ha := (field?_canonicalForm_scalar (List.not_mem_nil (a := key))
      hscalar).mpr ha
    rw [hform, field?_canonicalForm_scalar List.not_mem_nil hscalar, hb] at ha
    exact (Option.some.inj ha).symm
  constructor
  · exact Json.str.inj (hfield "evidence_id" rfl rfl rfl)
  · exact optionalText_inj (hfield "parent_node_id" (isScalar_optionalText _)
      rfl rfl)
  · exact Json.bool.inj (hfield "all_nodes" rfl rfl rfl)
  · exact Json.bool.inj (hfield "directories_only" rfl rfl rfl)
  · exact Json.bool.inj (hfield "files_only" rfl rfl rfl)
  · exact optionalText_inj (hfield "extension" (isScalar_optionalText _)
      rfl rfl)
  · exact optionalText_inj (hfield "name_or_path" (isScalar_optionalText _)
      rfl rfl)

/-- The cursor was returned by a listing with these arguments. -/
def Issued (P : Platform) (store : Store) (args : ListArgs)
    (cursor : String) : Prop :=
  ∃ c page, listNodes P store args c = .ok page ∧
    page.page.nextCursor = some cursor

theorem Issued.eq_encodeCursor {cursor : String}
    (h : Issued P store args cursor) :
    ∃ path id, cursor = encodeCursor P (queryFingerprint P args) path id := by
  obtain ⟨c, page, hpage, hnext⟩ := h
  unfold listNodes at hpage
  obtain ⟨_, -, hpage⟩ := bind_ok hpage
  obtain ⟨-, hpage⟩ := check_ok hpage
  obtain ⟨-, hpage⟩ := check_ok hpage
  obtain ⟨after, -, hpage⟩ := bind_ok hpage
  obtain rfl := Except.ok.inj hpage
  simp only [Option.ite_none_right_eq_some, Option.map_eq_some_iff] at hnext
  obtain ⟨-, last, -, rfl⟩ := hnext
  exact ⟨_, _, rfl⟩

theorem listNodes_mismatch {path id : String}
    (h : queryFingerprint P args ≠ queryFingerprint P args') :
    ∃ error, listNodes P store args' (some (encodeCursor P
        (queryFingerprint P args) path id)) = .error error ∧
      (args'.Valid store → error =
        invalidCursor "Cursor does not match query options.") := by
  have hdecode := decodeCursor_encodeCursor (P := P)
    (queryFingerprint P args) path id (queryFingerprint P args')
  rw [if_neg h] at hdecode
  cases hlisted : listNodes P store args' (some (encodeCursor P
      (queryFingerprint P args) path id)) with
  | ok page =>
      unfold listNodes at hlisted
      obtain ⟨_, -, hlisted⟩ := bind_ok hlisted
      obtain ⟨-, hlisted⟩ := check_ok hlisted
      obtain ⟨-, hlisted⟩ := check_ok hlisted
      obtain ⟨after, hafter, -⟩ := bind_ok hlisted
      rw [Option.mapM_some, hdecode] at hafter
      cases hafter
  | error error =>
      refine ⟨error, rfl, fun hvalid => ?_⟩
      obtain ⟨hevidence, hkinds, hlow, hhigh⟩ := hvalid
      have hkinds' : (args'.directoriesOnly && args'.filesOnly) = false := by
        simpa using hkinds
      simp only [listNodes, Store.ensureEvidenceExists, hevidence, hkinds',
        not_true_eq_false, if_false, Bool.false_eq_true, not_lt.mpr hlow,
        not_lt.mpr hhigh, or_self, pure, bind, Except.bind,
        Except.pure, Option.mapM_some, hdecode, Functor.map,
        Except.map] at hlisted
      exact (Except.error.inj hlisted).symm

theorem listNodes_issued (hvalid : args'.Valid store) {path id : String}
    (h : queryFingerprint P args = queryFingerprint P args') :
    ∃ page, listNodes P store args' (some (encodeCursor P
      (queryFingerprint P args) path id)) = .ok page := by
  have hdecode := decodeCursor_encodeCursor (P := P)
    (queryFingerprint P args) path id (queryFingerprint P args')
  rw [if_pos h] at hdecode
  obtain ⟨hevidence, hkinds, hlow, hhigh⟩ := hvalid
  have hkinds' : (args'.directoriesOnly && args'.filesOnly) = false := by
    simpa using hkinds
  simp only [listNodes, Store.ensureEvidenceExists, hevidence, hkinds',
    not_true_eq_false, if_false, Bool.false_eq_true, not_lt.mpr hlow,
    not_lt.mpr hhigh, gt_iff_lt, or_self, pure, bind, Except.bind,
    Except.pure, Option.mapM_some, hdecode, Functor.map, Except.map]
  exact ⟨_, rfl⟩

/-! ## The listing as a whole -/

/-- Following the cursors of a listing returns the matching nodes, each once,
in the order of path and id; a cursor is taken exactly by the queries that
agree with its own after normalisation, and these match the same nodes. -/
theorem listNodes_pages (hargs : args.Valid store) :
    (∃ pages, follow (listNodes P store args) (·.page.nextCursor)
        ((matching P store args).length + 1) none = .ok pages ∧
      pages.flatMap (·.items) = matching P store args ∧
      ∀ page ∈ pages, page.items.length ≤ args.limit ∧
        page.page.hasMore = page.page.nextCursor.isSome) ∧
    (matching P store args).Nodup ∧
    (∀ node, node ∈ matching P store args ↔
      node ∈ store.nodes.rows ∧ args.selects P node = true) ∧
    (matching P store args).Pairwise
      (orderBy FileSystemNode.comparisonPath FileSystemNode.nodeId) ∧
    ∀ cursor, Issued P store args cursor → ∀ args' : ListArgs,
      (SameQuery P args args' → args'.Valid store →
        matching P store args' = matching P store args ∧
        ∃ page, listNodes P store args' (some cursor) = .ok page) ∧
      (¬ SameQuery P args args' →
        (queryFingerprint P args = queryFingerprint P args' →
          canonicalJsonBytes (queryDocument P args) [] =
            canonicalJsonBytes (queryDocument P args') []) →
        ∀ store' : Store, ∃ error,
          listNodes P store' args' (some cursor) = .error error ∧
          (args'.Valid store' → error =
            invalidCursor "Cursor does not match query options.")) := by
  refine ⟨?_, nodup_matching P store args, fun node => ?_,
    List.pairwise_insertionSort _ _, ?_⟩
  · have hstart : StandsBefore P store args none (matching P store args) :=
      rfl
    exact follow_eq_ok (fun c nodes hstands =>
      ⟨firstPage P store args nodes, listNodes_eq hargs hstands,
        listNodes_page hargs hstands, firstPage_bounds hargs⟩)
      hstart (Nat.lt_succ_self _)
  · rw [matching, List.mem_insertionSort, List.mem_filter]
  · intro cursor hissued args'
    obtain ⟨path, id, rfl⟩ := hissued.eq_encodeCursor
    constructor
    · intro hsame hvalid
      refine ⟨hsame.matching_eq.symm, listNodes_issued hvalid ?_⟩
      rw [queryFingerprint, queryFingerprint, hsame.queryDocument_eq]
    · intro hdiffer hcollision store'
      apply listNodes_mismatch
      intro heq
      exact hdiffer (sameQuery_of_canonicalJsonBytes_eq (hcollision heq))

/-! ## One spelling of an extension and another -/

/-- A platform for ASCII texts whose cursors are the JSON texts themselves; a
text has its bytes for a digest. -/
noncomputable def jsonTextPlatform : Platform where
  casefold s := String.ofList (s.toList.map Char.toLower)
  nfc s := s
  sha256 bytes := String.ofList (bytes.data.toList.map fun b =>
    Char.ofNat b.toNat)
  cursorText payload := String.ofList payload.render
  cursorJson text := by
    classical
    exact if h : ∃ payload : Json, String.ofList payload.render = text then
        some h.choose
      else none
  str
    | .str s => s
    | value => String.ofList value.render
  cursorJson_cursorText queryKey comparisonPath nodeId := by
    have h : ∃ payload : Json, String.ofList payload.render = String.ofList
        (cursorPayload queryKey comparisonPath nodeId).render := ⟨_, rfl⟩
    rw [dif_pos h]
    exact congrArg some
      (Json.render_injective (String.ofList_injective h.choose_spec))
  str_str _ := rfl

def textNode (id path : String) : FileSystemNode where
  nodeId := id
  caseId := "case"
  evidenceId := "evidence"
  providerId := "logical"
  providerVersion := "1"
  parentNodeId := none
  originalName := path
  originalRelativePath := path
  displayPath := path
  comparisonPath := path
  nodeType := .file
  fileSize := some 1
  extension := some "txt"
  isDeleted := false
  isReadable := true
  isLink := false
  isTraversed := false
  indexRevision := 1
  createdAt := "t"
  updatedAt := "t"

def textStore : Store where
  evidence := ["evidence"]
  nodes := {
    rows := [textNode "2" "b.txt", textNode "1" "a.txt"]
    keys_nodup := by decide }
  coverage := []

def extensionArgs (extension : String) : ListArgs where
  evidenceId := "evidence"
  parentNodeId := none
  allNodes := true
  directoriesOnly := false
  filesOnly := false
  extension := some extension
  nameOrPath := none
  limit := 1

theorem extensionArgs_valid (extension : String) :
    (extensionArgs extension).Valid textStore where
  evidence := by simp [extensionArgs, textStore]
  kinds := by simp [extensionArgs]
  limit := by simp [extensionArgs]

theorem matching_textStore :
    matching jsonTextPlatform textStore (extensionArgs "txt") =
      [textNode "1" "a.txt", textNode "2" "b.txt"] := by
  decide +kernel

theorem jsonTextPlatform_sha256_injective :
    Function.Injective jsonTextPlatform.sha256 := by
  intro a b h
  have hbyte : Function.Injective fun b : UInt8 => Char.ofNat b.toNat := by
    intro a b h
    have hvalid : ∀ b : UInt8, b.toNat.isValidChar := fun b =>
      Or.inl (b.toNat_lt.trans (by decide))
    have htoNat : ∀ b : UInt8, (Char.ofNat b.toNat).toNat = b.toNat := by
      intro b
      rw [Char.ofNat, dif_pos (hvalid b)]
      rfl
    have h := congrArg Char.toNat h
    simp only [htoNat] at h
    exact UInt8.toNat_inj.mp h
  have hlist := hbyte.list_map (String.ofList_injective h)
  exact ByteArray.ext (Array.toList_inj.mp hlist)

/-- The cursor of the first page. -/
noncomputable def textCursor : String :=
  encodeCursor jsonTextPlatform
    (queryFingerprint jsonTextPlatform (extensionArgs "txt")) "a.txt" "1"

theorem issued_textCursor :
    Issued jsonTextPlatform textStore (extensionArgs "txt") textCursor :=
  ⟨none, firstPage jsonTextPlatform textStore (extensionArgs "txt")
      [textNode "1" "a.txt", textNode "2" "b.txt"],
    listNodes_eq (extensionArgs_valid "txt") matching_textStore, rfl⟩

theorem listNodes_pages_text :
    (∃ pages, follow (listNodes jsonTextPlatform textStore
        (extensionArgs "txt")) (·.page.nextCursor) 3 none = .ok pages ∧
      pages.flatMap (·.items) =
        [textNode "1" "a.txt", textNode "2" "b.txt"]) ∧
    listNodes jsonTextPlatform textStore (extensionArgs "pdf")
        (some textCursor) =
      .error (invalidCursor "Cursor does not match query options.") := by
  obtain ⟨⟨pages, hpages, hitems, -⟩, -, -, -, hcursors⟩ :=
    listNodes_pages (P := jsonTextPlatform) (extensionArgs_valid "txt")
  rw [matching_textStore] at hpages hitems
  refine ⟨⟨pages, hpages, hitems⟩, ?_⟩
  have hdiffer : ¬ SameQuery jsonTextPlatform (extensionArgs "txt")
      (extensionArgs "pdf") := fun h =>
    absurd h.extension (by decide +kernel)
  obtain ⟨error, herror, hvalid⟩ :=
    (hcursors textCursor issued_textCursor (extensionArgs "pdf")).2 hdiffer
      (fun h => jsonTextPlatform_sha256_injective h) textStore
  rw [herror, hvalid (extensionArgs_valid "pdf")]

/-- A query for the extension `.TXT` differs from one for `txt` and takes its
cursor. -/
theorem other_spelling_takes_cursor :
    ¬ ∀ (P : Platform) (store : Store) (args args' : ListArgs)
        (cursor : String), args.Valid store → args'.Valid store →
      args.extension ≠ args'.extension → Issued P store args cursor →
      ∃ error, listNodes P store args' (some cursor) = .error error := by
  intro h
  obtain ⟨error, herror⟩ := h jsonTextPlatform textStore (extensionArgs "txt")
    (extensionArgs ".TXT") textCursor (extensionArgs_valid "txt")
    (extensionArgs_valid ".TXT") (by decide) issued_textCursor
  have hsame : SameQuery jsonTextPlatform (extensionArgs "txt")
      (extensionArgs ".TXT") := by
    constructor <;> decide +kernel
  have hkey : queryFingerprint jsonTextPlatform (extensionArgs "txt") =
      queryFingerprint jsonTextPlatform (extensionArgs ".TXT") := by
    rw [queryFingerprint, queryFingerprint, hsame.queryDocument_eq]
  obtain ⟨page, hpage⟩ : ∃ page, listNodes jsonTextPlatform textStore
      (extensionArgs ".TXT") (some textCursor) = .ok page :=
    listNodes_issued (extensionArgs_valid ".TXT") hkey
  rw [hpage] at herror
  cases herror

end ApexForensic.FileSystem
