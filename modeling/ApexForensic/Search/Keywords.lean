import ApexForensic.Domain.Rows
import ApexForensic.Domain.Table
import ApexForensic.Support.PyText

/-!
# Keyword sets of the search service

Every change of a keyword set stores a new version with all its keywords.  A
timestamp is kept as the text it is stored as.
-/

namespace ApexForensic.Search

open ApexForensic.Support ApexForensic.Domain

/-- What the service takes from the Python library: the Unicode tables, the
compiler of regular expressions with its error text, and the engine. -/
structure Platform where
  casefold : String → String
  nfc : String → String
  digitValue : Char → Option ℕ
  reError : String → Option String
  reSearch : String → Bool → String → Bool
  sha256 : ByteArray → String

/-- A platform for ASCII texts and literal patterns; a text has its length for
a digest. -/
def asciiPlatform : Platform where
  casefold s := String.ofList (s.toList.map Char.toLower)
  nfc s := s
  digitValue c := if c.isDigit then some (c.toNat - 48) else none
  reError _ := none
  reSearch pattern _ text := containsText pattern text
  sha256 bytes := String.ofList (Nat.toDigits 10 bytes.size)

/-! ## Safe patterns -/

def maxRegexLength : ℕ := 512
def maxRegexBoundedRepeat : ℕ := 1000

/-- `_regex_lexical_tokens`: character classes are masked. -/
def regexLexicalTokens (inClass : Bool) : List Char → List Char
  | '\\' :: c :: rest =>
      (if inClass then ['_', '_'] else ['\\', c]) ++
        regexLexicalTokens inClass rest
  | c :: rest =>
      if c = '[' ∧ inClass = false then '_' :: regexLexicalTokens true rest
      else if c = ']' ∧ inClass = true then
        '_' :: regexLexicalTokens false rest
      else (if inClass then '_' else c) :: regexLexicalTokens inClass rest
  | [] => []

section

variable (P : Platform)

/-- `\d+` at the start of a text, as a number. -/
def digits (cs : List Char) : Option ℕ × List Char :=
  let (ds, rest) := cs.span fun c => (P.digitValue c).isSome
  (if ds = [] then none
    else some (ds.foldl (fun n c => 10 * n + (P.digitValue c).getD 0) 0), rest)

/-- `\{(\d+)(?:,(\d*))?\}` at the start of a text. -/
def repeatBounds : List Char → Option (ℕ × Option (Option ℕ))
  | '{' :: cs =>
      match digits P cs with
      | (some lower, '}' :: _) => some (lower, none)
      | (some lower, ',' :: cs) =>
          match digits P cs with
          | (upper, '}' :: _) => some (lower, some upper)
          | _ => none
      | _ => none
  | _ => none

/-- `\)(?:[*+?]|\{\d+(?:,\d*)?\})` at the start of a text. -/
def quantifiedGroup : List Char → Bool
  | ')' :: c :: cs => c ∈ ['*', '+', '?'] || (repeatBounds P (c :: cs)).isSome
  | _ => false

/-- The suffixes of a text that no backslash precedes. -/
def unescapedTails : List Char → List (List Char)
  | [] => []
  | c :: cs =>
      (c :: cs) ::
        ((c :: cs).tails.filterMap fun
          | d :: tail => if d = '\\' ∨ tail = [] then none else some tail
          | [] => none)

def variableQuantifiers (lexical : List Char) : ℕ :=
  (unescapedTails lexical).countP (fun tail =>
      tail.head?.any fun c => c ∈ ['*', '+', '?']) +
    (unescapedTails lexical).countP fun tail =>
      (repeatBounds P tail).any fun bounds => bounds.2.isSome

def repeatUpper (bounds : ℕ × Option (Option ℕ)) : ℕ :=
  (bounds.2.bind id).getD bounds.1

def regexError (message : String) : PyError :=
  validationError message (some "regex") []

/-- `_validate_safe_regex`. -/
def validateSafeRegex (pattern : String) : Except PyError Unit := do
  if maxRegexLength < pattern.length then
    .error (regexError "Regex keyword is too long.")
  match P.reError pattern with
  | some error =>
      .error (validationError "Invalid regex." (some "regex")
        [("error", .str error)])
  | none => .ok ()
  let lexical := regexLexicalTokens false pattern.toList
  let text := String.ofList lexical
  if searchText (fun
      | '\\' :: c :: _ => '1' ≤ c && c ≤ '9'
      | _ => false) text || containsText "(?P=" text then
    .error (regexError "Regex backreferences are not allowed.")
  if containsText "(?" text then
    .error (regexError "Extended regex groups are not allowed.")
  if containsText "|" text then
    .error (regexError "Regex alternation is not allowed.")
  if searchText (quantifiedGroup P) text then
    .error (regexError "Quantified regex groups are not allowed.")
  if 1 < variableQuantifiers P lexical then
    .error (regexError "Regex may contain at most one variable quantifier.")
  if (unescapedTails lexical).any fun tail =>
      (repeatBounds P tail).any fun bounds =>
        maxRegexBoundedRepeat < repeatUpper bounds then
    .error (regexError "Regex bounded repeat is too large.")

/-! ## Keywords -/

inductive KeywordType where
  | fileName | processName | account | email | domain | url | ipAddress
  | registryPath | command | path | documentTerm | hash | regex | relatedTerm
  | transliteration | typoVariant | other
  deriving DecidableEq

def KeywordType.value : KeywordType → String
  | .fileName => "FILE_NAME"
  | .processName => "PROCESS_NAME"
  | .account => "ACCOUNT"
  | .email => "EMAIL"
  | .domain => "DOMAIN"
  | .url => "URL"
  | .ipAddress => "IP_ADDRESS"
  | .registryPath => "REGISTRY_PATH"
  | .command => "COMMAND"
  | .path => "PATH"
  | .documentTerm => "DOCUMENT_TERM"
  | .hash => "HASH"
  | .regex => "REGEX"
  | .relatedTerm => "RELATED_TERM"
  | .transliteration => "TRANSLITERATION"
  | .typoVariant => "TYPO_VARIANT"
  | .other => "OTHER"

inductive KeywordMatchMode where
  | term | phrase | prefixed | exactly | regexMetadata
  deriving DecidableEq

def KeywordMatchMode.value : KeywordMatchMode → String
  | .term => "TERM"
  | .phrase => "PHRASE"
  | .prefixed => "PREFIX"
  | .exactly => "EXACT"
  | .regexMetadata => "REGEX_METADATA"

inductive KeywordSetStatus where
  | draft | active | archived
  deriving DecidableEq

structure Keyword where
  keywordId : String
  term : String
  keywordType : KeywordType
  matchMode : KeywordMatchMode
  caseSensitive : Bool
  enabled : Bool
  notes : Option String
  source : String
  createdAt : String

structure KeywordSet where
  keywordSetId : String
  keywordSetVersionId : String
  caseId : String
  name : String
  description : Option String
  version : ℕ
  status : KeywordSetStatus
  createdBy : Option String
  createdAt : String
  updatedAt : String
  keywords : List Keyword
  defaultOptions : Json
  previousVersionId : Option String

/-- `_require_non_empty`. -/
def requireNonEmpty (value target : String) : Except PyError String :=
  if strip value = "" then
    .error (validationError "Value cannot be empty." (some target) [])
  else .ok (strip value)

def validateKeyword (keyword : Keyword) : Except PyError Unit := do
  let _ ← requireNonEmpty keyword.term "term"
  if keyword.keywordType = .regex ∨ keyword.matchMode = .regexMetadata then
    validateSafeRegex P keyword.term

/-- `keyword.term if keyword.case_sensitive else keyword.term.casefold()`. -/
def Keyword.normalizedTerm (keyword : Keyword) : String :=
  if keyword.caseSensitive then keyword.term else P.casefold keyword.term

/-- What makes two keywords of a set duplicates. -/
def Keyword.key (keyword : Keyword) : String × KeywordMatchMode × Bool :=
  (keyword.normalizedTerm P, keyword.matchMode, keyword.caseSensitive)

def validateKeywordDuplicates (keywords : List Keyword) :
    Except PyError Unit := do
  let _ ← keywords.foldlM (fun seen keyword => do
    validateKeyword P keyword
    if keyword.key P ∈ seen then
      .error (validationError "Duplicate keyword." (some "keywords") [])
    .ok (keyword.key P :: seen)) []

/-! ## Stored versions -/

/-- A row of `keyword_sets`: the version a set is at. -/
structure KeywordSetRow where
  keywordSetId : String
  currentVersionId : String

structure KeywordStore where
  sets : Table KeywordSetRow.keywordSetId
  versions : List KeywordSet

namespace KeywordStore

def empty : KeywordStore where
  sets := Table.empty _
  versions := []

/-- The keywords of a version are read in the order of their creation. -/
def row (version : KeywordSet) : KeywordSet :=
  { version with
    keywords := version.keywords.insertionSort
      (orderBy Keyword.createdAt Keyword.keywordId) }

/-- `get_keyword_set`. -/
def getKeywordSet (store : KeywordStore) (keywordSetId : String)
    (version : Option ℕ) : Option KeywordSet :=
  match version with
  | none => do
      let set ← store.sets.find? keywordSetId
      let found ← store.versions.find? fun v =>
        v.keywordSetVersionId = set.currentVersionId
      return row found
  | some version =>
      (store.versions.find? fun v =>
        v.keywordSetId = keywordSetId ∧ v.version = version).map row

def versionConstraints : List (String × (KeywordSet → KeywordSet → Bool)) :=
  [("keyword_set_versions.keyword_set_version_id",
      fun v w => v.keywordSetVersionId = w.keywordSetVersionId),
   ("keyword_set_versions.keyword_set_id, keyword_set_versions.version",
      fun v w => v.keywordSetId = w.keywordSetId ∧ v.version = w.version)]

def keywordConstraints : List (String × (Keyword → Keyword → Bool)) :=
  [("keywords.keyword_set_version_id, keywords.keyword_id",
      fun k l => k.keywordId = l.keywordId),
   ("keywords.keyword_set_version_id, keywords.normalized_term, " ++
      "keywords.match_mode, keywords.case_sensitive",
      fun k l => k.key P = l.key P)]

/-- `save_keyword_set`: one transaction. -/
def saveKeywordSet (store : KeywordStore) (set : KeywordSet) :
    Except PyError KeywordStore := do
  let versions ← insertRow versionConstraints store.versions set
  let _ ← set.keywords.foldlM (insertRow (keywordConstraints P)) []
  let sets := store.sets.put ⟨set.keywordSetId, set.keywordSetVersionId⟩
  return { sets, versions }

end KeywordStore

/-- `_new_keyword_set_version`. -/
def newKeywordSetVersion (store : KeywordStore) (current : KeywordSet)
    (keywords : List Keyword) (status : KeywordSetStatus)
    (now newId : String) : Except PyError (KeywordSet × KeywordStore) := do
  validateKeywordDuplicates P keywords
  let set : KeywordSet :=
    { current with
      keywordSetVersionId := newId
      version := current.version + 1
      status
      updatedAt := now
      keywords
      previousVersionId := some current.keywordSetVersionId }
  let store ← store.saveKeywordSet P set
  return (set, store)

def keywordSetNotFound : PyError :=
  notFoundError "KEYWORD_SET_NOT_FOUND" "Keyword set not found." none

/-- `SearchService.get_keyword_set`. -/
def getKeywordSet (store : KeywordStore) (keywordSetId : String)
    (version : Option ℕ) : Except PyError KeywordSet :=
  match store.getKeywordSet keywordSetId version with
  | some set => .ok set
  | none => .error keywordSetNotFound

structure AddKeywordArgs where
  term : String
  keywordType : KeywordType
  matchMode : KeywordMatchMode
  caseSensitive : Bool
  enabled : Bool
  notes : Option String
  source : String

/-- What the clock and the id generator return while a keyword is added. -/
structure AddKeywordInputs where
  now : String
  keywordId : String
  versionNow : String
  versionId : String

def addKeyword (store : KeywordStore) (keywordSetId : String)
    (args : AddKeywordArgs) (inputs : AddKeywordInputs) :
    Except PyError (KeywordSet × KeywordStore) := do
  let set ← getKeywordSet store keywordSetId none
  let term ← requireNonEmpty args.term "term"
  let keyword : Keyword :=
    { keywordId := inputs.keywordId
      term
      keywordType := args.keywordType
      matchMode := args.matchMode
      caseSensitive := args.caseSensitive
      enabled := args.enabled
      notes := args.notes
      source := args.source
      createdAt := inputs.now }
  validateKeyword P keyword
  newKeywordSetVersion P store set (set.keywords ++ [keyword]) .draft
    inputs.versionNow inputs.versionId

def removeKeyword (store : KeywordStore) (keywordSetId keywordId : String)
    (versionNow versionId : String) :
    Except PyError (KeywordSet × KeywordStore) := do
  let set ← getKeywordSet store keywordSetId none
  let keywords := set.keywords.filter fun keyword =>
    keyword.keywordId ≠ keywordId
  if keywords.length = set.keywords.length then
    .error (notFoundError "KEYWORD_NOT_FOUND" "Keyword not found."
      (some "keyword_id"))
  newKeywordSetVersion P store set keywords .draft versionNow versionId

/-- `activate_keyword_set`, `archive_keyword_set` and `version_keyword_set`
store the same keywords under another status; only the first asks for some. -/
def changeKeywordSetStatus (store : KeywordStore) (keywordSetId : String)
    (status : KeywordSetStatus) (versionNow versionId : String) :
    Except PyError (KeywordSet × KeywordStore) := do
  let set ← getKeywordSet store keywordSetId none
  if status = .active ∧ set.keywords = [] then
    .error (validationError "Cannot activate an empty keyword set."
      (some "keyword_set_id") [])
  newKeywordSetVersion P store set set.keywords status versionNow versionId

structure KeywordInput where
  keywordId : Option String
  term : String
  keywordType : KeywordType := .other
  matchMode : KeywordMatchMode := .term
  caseSensitive : Bool := false
  enabled : Bool := true
  notes : Option String := none
  source : String := "ANALYST"

/-- `_keyword_from_input`. -/
def keywordFromInput (input : KeywordInput) (now newId : String) :
    Except PyError Keyword := do
  let term ← requireNonEmpty input.term "term"
  let keywordId :=
    if input.keywordId.getD "" = "" then newId else input.keywordId.getD ""
  let keyword : Keyword :=
    { keywordId, term
      keywordType := input.keywordType
      matchMode := input.matchMode
      caseSensitive := input.caseSensitive
      enabled := input.enabled
      notes := input.notes
      source := input.source
      createdAt := now }
  validateKeyword P keyword
  return keyword

structure CreateKeywordSetArgs where
  caseId : String
  name : String
  description : Option String := none
  createdBy : Option String := none
  keywords : List KeywordInput := []
  defaultOptions : List (String × Json) := []

/-- What the clock and the id generator return while a set is created. -/
structure CreateKeywordSetInputs where
  now : String
  keywordSetId : String
  versionId : String
  keywordIds : ℕ → String

/-- `create_keyword_set` for a case that exists. -/
def createKeywordSet (store : KeywordStore) (args : CreateKeywordSetArgs)
    (inputs : CreateKeywordSetInputs) :
    Except PyError (KeywordSet × KeywordStore) := do
  let name ← requireNonEmpty args.name "name"
  let keywords ← args.keywords.zipIdx.mapM fun (input, i) =>
    keywordFromInput P input inputs.now (inputs.keywordIds i)
  let set : KeywordSet :=
    { keywordSetId := inputs.keywordSetId
      keywordSetVersionId := inputs.versionId
      caseId := args.caseId
      name
      description := args.description
      version := 1
      status := .draft
      createdBy := args.createdBy
      createdAt := inputs.now
      updatedAt := inputs.now
      keywords
      defaultOptions :=
        if args.defaultOptions = [] then .obj [("case_sensitive", .bool false)]
        else .obj args.defaultOptions
      previousVersionId := none }
  validateKeywordDuplicates P keywords
  let store ← store.saveKeywordSet P set
  return (set, store)

/-! ## Changes of the keyword sets -/

/-- A call that changes keyword sets. -/
inductive KeywordOp where
  | create (args : CreateKeywordSetArgs) (inputs : CreateKeywordSetInputs)
  | add (keywordSetId : String) (args : AddKeywordArgs)
      (inputs : AddKeywordInputs)
  | remove (keywordSetId keywordId versionNow versionId : String)
  | changeStatus (keywordSetId : String) (status : KeywordSetStatus)
      (versionNow versionId : String)

def KeywordOp.apply (store : KeywordStore) :
    KeywordOp → Except PyError (KeywordSet × KeywordStore)
  | .create args inputs => createKeywordSet P store args inputs
  | .add keywordSetId args inputs => addKeyword P store keywordSetId args inputs
  | .remove keywordSetId keywordId versionNow versionId =>
      removeKeyword P store keywordSetId keywordId versionNow versionId
  | .changeStatus keywordSetId status versionNow versionId =>
      changeKeywordSetStatus P store keywordSetId status versionNow versionId

end

/-! ## Every set is at a version of its own -/

/-- The version a set is at exists and belongs to it, and versions have
distinct ids. -/
structure KeywordStore.WellFormed (store : KeywordStore) : Prop where
  versionIds : (store.versions.map KeywordSet.keywordSetVersionId).Nodup
  current : ∀ row ∈ store.sets.rows, ∃ version ∈ store.versions,
    version.keywordSetVersionId = row.currentVersionId ∧
      version.keywordSetId = row.keywordSetId

theorem KeywordStore.wellFormed_empty : KeywordStore.empty.WellFormed where
  versionIds := List.nodup_nil
  current := fun _ h => absurd h List.not_mem_nil

variable {P : Platform} {store store' : KeywordStore} {set : KeywordSet}

theorem KeywordStore.saveKeywordSet_eq_ok
    (h : store.saveKeywordSet P set = .ok store') :
    store'.sets = store.sets.put ⟨set.keywordSetId, set.keywordSetVersionId⟩ ∧
      store'.versions = store.versions ++ [set] ∧
      ∀ version ∈ store.versions,
        set.keywordSetVersionId ≠ version.keywordSetVersionId := by
  obtain ⟨versions, hversions, h⟩ := bind_ok h
  obtain ⟨-, -, h⟩ := bind_ok h
  obtain rfl := Except.ok.inj h
  obtain ⟨rfl, hnew⟩ := insertRow_eq_ok_iff.mp hversions
  refine ⟨rfl, rfl, fun version hmem heq => ?_⟩
  have hclash := hnew _ (List.mem_cons_self) version hmem
  simp [heq] at hclash

theorem KeywordStore.WellFormed.saveKeywordSet (hstore : store.WellFormed)
    (h : store.saveKeywordSet P set = .ok store') : store'.WellFormed := by
  obtain ⟨hsets, hversions, hnew⟩ := saveKeywordSet_eq_ok h
  constructor
  · rw [hversions, List.map_append, List.map_singleton]
    refine List.nodup_append.mpr ⟨hstore.versionIds, List.nodup_singleton _, ?_⟩
    intro id hid id' hid' heq
    obtain ⟨version, hmem, rfl⟩ := List.mem_map.mp hid
    exact hnew version hmem (List.mem_singleton.mp hid' ▸ heq.symm)
  · rw [hsets, hversions]
    intro row hrow
    rcases Table.mem_put.mp hrow with rfl | ⟨hrow, -⟩
    · exact ⟨set, List.mem_append_right _ List.mem_cons_self, rfl, rfl⟩
    · obtain ⟨version, hmem, hversion⟩ := hstore.current row hrow
      exact ⟨version, List.mem_append_left _ hmem, hversion⟩

theorem newKeywordSetVersion_eq_ok {current : KeywordSet}
    {keywords : List Keyword} {status : KeywordSetStatus} {now newId : String}
    (h : newKeywordSetVersion P store current keywords status now newId =
      .ok (set, store')) :
    set.keywordSetId = current.keywordSetId ∧ set.keywords = keywords ∧
      store.saveKeywordSet P set = .ok store' := by
  obtain ⟨-, -, h⟩ := bind_ok h
  obtain ⟨store'', hsave, h⟩ := bind_ok h
  obtain ⟨rfl, rfl⟩ := ok_pair_inj h
  exact ⟨rfl, rfl, hsave⟩

theorem addKeyword_eq_ok {keywordSetId : String} {args : AddKeywordArgs}
    {inputs : AddKeywordInputs}
    (h : addKeyword P store keywordSetId args inputs = .ok (set, store')) :
    ∃ current keyword, getKeywordSet store keywordSetId none = .ok current ∧
      keyword.term = strip args.term ∧
      set.keywordSetId = current.keywordSetId ∧
      set.keywords = current.keywords ++ [keyword] ∧
      store.saveKeywordSet P set = .ok store' := by
  obtain ⟨current, hcurrent, h⟩ := bind_ok h
  obtain ⟨term, hterm, h⟩ := bind_ok h
  obtain ⟨-, -, h⟩ := bind_ok h
  have hstrip : term = strip args.term := by
    rw [requireNonEmpty] at hterm
    split at hterm
    · cases hterm
    · exact (Except.ok.inj hterm).symm
  exact ⟨current, _, hcurrent, hstrip, newKeywordSetVersion_eq_ok h⟩

theorem KeywordOp.apply_eq_ok {op : KeywordOp}
    (h : op.apply P store = .ok (set, store')) :
    store.saveKeywordSet P set = .ok store' := by
  cases op with
  | create args inputs =>
      obtain ⟨_, -, h⟩ := bind_ok h
      obtain ⟨_, -, h⟩ := bind_ok h
      obtain ⟨_, -, h⟩ := bind_ok h
      obtain ⟨store'', hsave, h⟩ := bind_ok h
      obtain ⟨rfl, rfl⟩ := ok_pair_inj h
      exact hsave
  | add keywordSetId args inputs =>
      obtain ⟨-, -, -, -, -, -, hsave⟩ := addKeyword_eq_ok h
      exact hsave
  | remove keywordSetId keywordId versionNow versionId =>
      obtain ⟨_, -, h⟩ := bind_ok h
      obtain ⟨-, h⟩ := check_ok h
      exact (newKeywordSetVersion_eq_ok h).2.2
  | changeStatus keywordSetId status versionNow versionId =>
      obtain ⟨_, -, h⟩ := bind_ok h
      obtain ⟨-, h⟩ := check_ok h
      exact (newKeywordSetVersion_eq_ok h).2.2

theorem KeywordStore.WellFormed.keywordSetId_of_get (hstore : store.WellFormed)
    {keywordSetId : String}
    (h : store.getKeywordSet keywordSetId none = some set) :
    set.keywordSetId = keywordSetId := by
  obtain ⟨row, hrow, h⟩ := Option.bind_eq_some_iff.mp h
  obtain ⟨version, hversion, h⟩ := Option.bind_eq_some_iff.mp h
  obtain rfl := Option.some.inj h
  obtain ⟨hmem, rfl⟩ := Table.find?_eq_some_iff.mp hrow
  obtain ⟨own, hown, hid, hset⟩ := hstore.current row hmem
  have heq : version.keywordSetVersionId = row.currentVersionId := by
    simpa using List.find?_some hversion
  have hsame : version = own := List.inj_on_of_nodup_map hstore.versionIds
    (List.mem_of_find?_eq_some hversion) hown (heq.trans hid.symm)
  rw [KeywordStore.row, hsame, hset]

/-- After a version is stored its set is read from it; other sets are read as
before. -/
theorem KeywordStore.WellFormed.getKeywordSet_save (hstore : store.WellFormed)
    (h : store.saveKeywordSet P set = .ok store') (keywordSetId : String) :
    store'.getKeywordSet keywordSetId none =
      if set.keywordSetId = keywordSetId then some (KeywordStore.row set)
      else store.getKeywordSet keywordSetId none := by
  obtain ⟨hsets, hversions, hnew⟩ := saveKeywordSet_eq_ok h
  simp only [getKeywordSet, hsets, hversions, Table.find?_put,
    List.find?_append]
  by_cases hid : set.keywordSetId = keywordSetId
  · have hnone : (store.versions.find? fun v =>
        v.keywordSetVersionId = set.keywordSetVersionId) = none := by
      refine List.find?_eq_none.mpr fun v hv => ?_
      simpa using fun heq => hnew v hv heq.symm
    simp [hid, hnone]
  · rw [if_neg hid, if_neg hid]
    cases hrow : store.sets.find? keywordSetId with
    | none => rfl
    | some row =>
        obtain ⟨hmem, -⟩ := Table.find?_eq_some_iff.mp hrow
        obtain ⟨own, hown, hversion, -⟩ := hstore.current row hmem
        have hsome : (store.versions.find? fun v =>
            v.keywordSetVersionId = row.currentVersionId).isSome := by
          exact List.find?_isSome.mpr ⟨own, hown, by simpa using hversion⟩
        obtain ⟨found, hfound⟩ := Option.isSome_iff_exists.mp hsome
        simp [hfound]

end ApexForensic.Search
