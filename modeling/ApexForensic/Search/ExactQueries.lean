import Mathlib.Data.Rat.Encodable
import Mathlib.Logic.Equiv.List
import ApexForensic.Search.IndexInvariant
import ApexForensic.Search.NormalForms
import ApexForensic.Support.Keyset

/-!
# Exact queries and letter case

An exact query looks for the folded copy of its text: first for its words, in
the rows that rank first, then for the copy itself in the texts as they are
stored.  Stored titles and paths are not folded and the searchable text is, so
asking for one letter case finds every other too, and may not find its own.
-/

namespace ApexForensic.Search

open ApexForensic.Support ApexForensic.Domain

variable {d : SearchDocument} {row : RankedDocument}

/-! ## Exact queries of the service -/

section

variable (P : QueryPlatform)

/-- The results of `query` where there is no cache entry. -/
def uncachedResults (store : SearchStore) (args : QueryArgs)
    (inputs : QueryInputs) : Except PyError (List Hit) := do
  let plan ← queryPlan P store args inputs
  let rows ← querySearchDocuments P store.index plan.query plan.after
    (plan.query.limit + 1)
  .ok (rows.take plan.query.limit)

/-- The exact query for a text, without a keyword set and from its first
page. -/
def QueryArgs.exact (args : QueryArgs) (text : String)
    (caseSensitive : Bool) : QueryArgs :=
  { args with
    queryText := text
    queryMode := .exactly
    keywordSetId := none
    caseSensitive := caseSensitive
    cursor := none }

/-- What the repository answers such a query from. -/
def exactQuery (args : QueryArgs) (text : String) (caseSensitive : Bool) :
    SearchQuery where
  queryId := ""
  queryText := normalizeSearchCopy P (strip text)
  queryMode := .exactly
  caseId := args.caseId
  evidenceIds := args.evidenceIds
  sourceTypes := args.sourceTypes
  documentTypes := args.documentTypes
  timeFrom := args.timeFrom
  timeTo := args.timeTo
  pathScope := args.pathScope
  filters := args.filters
  keywordSetId := none
  keywordSetVersion := none
  indexRevision := 0
  optionsFingerprint := ""
  createdAt := ""
  sort := args.sort
  limit := args.limit.toNat
  caseSensitive := caseSensitive

/-- The case exists, and the text and the limit pass their checks. -/
structure Accepts (store : SearchStore) (args : QueryArgs) (text : String) :
    Prop where
  requireCase : requireCase store args.caseId = .ok ()
  validateQuery : validateQuery P text .exactly = .ok ()
  validateStripped : Search.validateQuery P (strip text) .exactly = .ok ()
  validateLimit : validateLimit args.limit = .ok args.limit.toNat

/-! ## What is promised -/

/-- A document that counts and that the filters of the query select. -/
def Selects (index : SearchIndex) (args : QueryArgs) (d : SearchDocument) :
    Prop :=
  d ∈ index.documents.rows.map DocumentRow.toSearchDocument ∧
    filterClauses P (exactQuery P args "" true) d = true

/-- A field has the text in its letter case, both in normal form. -/
def SpelledIn (text field : String) : Prop :=
  containsText (pathCopy P (strip text)) (pathCopy P field) = true

/-- The title, the path or the original text has the text in its letter
case. -/
def Spells (original : String → String) (text : String)
    (d : SearchDocument) : Prop :=
  SpelledIn P text d.title ∨ (∃ path ∈ d.path, SpelledIn P text path) ∨
    SpelledIn P text (original d.documentId)

/-- Two texts that differ in nothing but letter case. -/
def SameLetters (text text' : String) : Prop :=
  P.casefold (P.nfc (strip text)) = P.casefold (P.nfc (strip text'))

/-- With its letter case a query returns the documents that have the text so,
without it at least those, and then for every letter case the same. -/
structure SearchesExactly (store : SearchStore) (original : String → String)
    (args : QueryArgs) (text : String) (inputs : QueryInputs) : Prop where
  sensitive : ∃ hits,
    uncachedResults P store (args.exact text true) inputs = .ok hits ∧
      ∀ id, id ∈ hits.map Hit.documentId ↔
        ∃ d, Selects P store.index args d ∧ Spells P original text d ∧
          d.documentId = id
  insensitive : ∃ hits,
    uncachedResults P store (args.exact text false) inputs = .ok hits ∧
      ∀ d, Selects P store.index args d → Spells P original text d →
        d.documentId ∈ hits.map Hit.documentId
  letterCase : ∀ text' inputs', Accepts P store args text' →
    SameLetters P text text' →
      uncachedResults P store (args.exact text' false) inputs' =
        uncachedResults P store (args.exact text false) inputs

/-! ## When it is kept -/

/-- Few enough rows of the phrase come before the document, and few enough of
those that contain the needle. -/
def OnPage (index : SearchIndex) (query : SearchQuery)
    (texts : String → String → String → Bool) (d : SearchDocument) : Prop :=
  ∀ row ∈ rankedDocuments P index query texts, row.document = d →
    ((rankedDocuments P index query texts).filter fun other =>
      ranksAfter (other.rank, other.documentId) row).length ≤ query.limit ∧
    ((rankedDocuments P index query texts).filter fun other =>
      containsNeedle P query other.document &&
        ranksAfter (other.rank, other.documentId) row).length < query.limit

def HasWords (texts : String → String → String → Bool) (d : SearchDocument) :
    Prop :=
  texts d.title (d.path.getD "") d.searchableText = true

/-- A document that has the text in its letter case has its words, ranks on
the page and, unless it is the original text that has it, has its folded copy
as it is stored; and one that has the words and the copy on the page has the
text in its letter case. -/
structure Distinct (index : SearchIndex) (original : String → String)
    (args : QueryArgs) (text : String)
    (texts : String → String → String → Bool) (d : SearchDocument) : Prop where
  words : Spells P original text d → HasWords texts d
  page : Spells P original text d → ∀ caseSensitive,
    OnPage P index (exactQuery P args text caseSensitive) texts d
  stored : Spells P original text d →
    ¬ SpelledIn P text (original d.documentId) →
      containsNeedle P (exactQuery P args text true) d = true
  spelled : HasWords texts d →
    OnPage P index (exactQuery P args text true) texts d →
      containsNeedle P (exactQuery P args text true) d = true →
        Spells P original text d

end

variable {P : QueryPlatform}

/-! ## From the service to the repository -/

theorem uncachedResults_exact {store : SearchStore} {args : QueryArgs}
    {text : String} (h : Accepts P store args text) (caseSensitive : Bool)
    (inputs : QueryInputs) :
    uncachedResults P store (args.exact text caseSensitive) inputs =
      (querySearchDocuments P store.index
        (exactQuery P args text caseSensitive) none (args.limit.toNat + 1) >>=
          fun rows => .ok (rows.take args.limit.toNat)) := by
  rw [uncachedResults, queryPlan]
  simp only [QueryArgs.exact]
  rw [h.requireCase, ok_bind, h.validateQuery, ok_bind, h.validateLimit,
    ok_bind]
  simp only [Option.mapM_none, namedKeywordSet, pure_bind, Option.elim_none,
    rawEffectiveQueryText]
  rw [h.validateStripped, ok_bind, ok_bind]
  rfl

/-! ## The ranked rows -/

section Ranked

variable {index : SearchIndex} {query : SearchQuery}
  {texts : String → String → String → Bool}

theorem of_mem_rankedDocuments (h : index.WellFormed)
    (hrow : row ∈ rankedDocuments P index query texts) :
    row.document ∈ index.documents.rows.map DocumentRow.toSearchDocument ∧
      filterClauses P query row.document = true ∧
      HasWords texts row.document := by
  obtain ⟨hit, hhit, rfl⟩ := List.mem_map.mp hrow
  obtain ⟨hjoined, hselected⟩ := List.mem_filter.mp hhit
  obtain ⟨d, hd, hmap⟩ := List.mem_flatMap.mp hjoined
  obtain ⟨f, hf, rfl⟩ := List.mem_map.mp hmap
  obtain ⟨hf, hrowid⟩ := List.mem_filter.mp hf
  rw [Bool.and_eq_true] at hselected
  have hrowid := of_decide_eq_true hrowid
  have hsame : f = d.ftsRow f.rowid :=
    index.fts.row_unique hf (h.linked.holds d hd f.rowid hrowid) rfl
  refine ⟨List.mem_map_of_mem hd, hselected.1, ?_⟩
  have hwords := hselected.2
  rw [hsame] at hwords
  exact hwords

theorem exists_mem_rankedDocuments (h : index.WellFormed) (query : SearchQuery)
    (hd : d ∈ index.documents.rows.map DocumentRow.toSearchDocument)
    (hselected : filterClauses P query d = true) (hwords : HasWords texts d) :
    ∃ row ∈ rankedDocuments P index query texts, row.document = d := by
  obtain ⟨stored, hstored, rfl⟩ := List.mem_map.mp hd
  have hstale : stored.isStale = false := by
    rw [filterClauses] at hselected
    simp only [Bool.and_eq_true, Bool.not_eq_true'] at hselected
    exact hselected.1.1.1.1.1.1.2
  obtain ⟨rowid, hrowid⟩ :=
    Option.ne_none_iff_exists'.mp (h.complete stored hstored hstale)
  refine ⟨_, List.mem_map.mpr ⟨(stored, stored.ftsRow rowid), ?_, rfl⟩, rfl⟩
  rw [List.mem_filter]
  refine ⟨List.mem_flatMap.mpr
    ⟨stored, hstored, List.mem_map.mpr ⟨_, ?_, rfl⟩⟩, ?_⟩
  · rw [h.linked.filter_rowid_eq hstored hrowid]
    exact List.mem_singleton_self _
  · rw [Bool.and_eq_true]
    exact ⟨hselected, hwords⟩

theorem nodup_rankedDocuments (h : index.WellFormed) (query : SearchQuery)
    (texts : String → String → String → Bool) :
    ((rankedDocuments P index query texts).map
      RankedDocument.documentId).Nodup := by
  have hjoined : ∀ rows ⊆ index.documents.rows,
      ((rows.flatMap fun d =>
        (index.fts.rows.filter fun row => d.ftsRowid = some row.rowid).map
          fun row => (d, row)).map fun hit => hit.1.id).Sublist
        (rows.map DocumentRow.id) := by
    intro rows hrows
    induction rows with
    | nil => exact List.Sublist.refl _
    | cons d rows ih =>
        have hd := hrows List.mem_cons_self
        have ih := ih fun e he => hrows (List.mem_cons_of_mem d he)
        rw [List.flatMap_cons, List.map_append, List.map_cons]
        cases hrowid : d.ftsRowid with
        | none =>
            rw [List.filter_eq_nil_iff.mpr (by simp)]
            exact ih.cons _
        | some rowid =>
            have hfilter := h.linked.filter_rowid_eq hd hrowid
            rw [hrowid] at hfilter
            rw [hfilter]
            exact ih.cons_cons _
  rw [rankedDocuments, List.map_map]
  have hids : (index.joined.map fun hit => hit.1.id).Nodup :=
    index.documents.keys_nodup.sublist (hjoined _ (List.Subset.refl _))
  exact hids.sublist (List.filter_sublist.map _)

theorem separates_rankedDocuments (h : index.WellFormed) :
    Separates (orderBy RankedDocument.rank RankedDocument.documentId)
      (rankedDocuments P index query texts) := by
  intro a ha b hb hab hba
  exact List.inj_on_of_nodup_map (nodup_rankedDocuments h query texts) ha hb
    (orderBy_antisymm hab hba).2

theorem not_orderBy_eq_ranksAfter (row other : RankedDocument) :
    (! decide (orderBy RankedDocument.rank RankedDocument.documentId row
      other)) = ranksAfter (other.rank, other.documentId) row := by
  rw [Bool.eq_iff_iff, Bool.not_eq_true', decide_eq_false_iff_not,
    not_orderBy_iff, ranksAfter, Bool.or_eq_true, Bool.and_eq_true,
    decide_eq_true_iff, decide_eq_true_iff, decide_eq_true_iff]

end Ranked

/-! ## What an exact query returns -/

section Results

variable {index : SearchIndex} {args : QueryArgs} {text : String}
  {caseSensitive : Bool} {texts : String → String → String → Bool}

/-- The rows that an exact query returns: of those that rank first, the ones
with the needle, a page at most. -/
def exactPage (P : QueryPlatform) (index : SearchIndex) (query : SearchQuery)
    (texts : String → String → String → Bool) : List RankedDocument :=
  ((((rankedDocuments P index query texts).insertionSort
    (orderBy RankedDocument.rank RankedDocument.documentId)).take
      (query.limit + 1)).filter fun row =>
        containsNeedle P query row.document).take query.limit

theorem querySearchDocuments_exact
    (hcompile : compileFts P (exactQuery P args text caseSensitive) =
      .ok texts) :
    (querySearchDocuments P index (exactQuery P args text caseSensitive) none
      (args.limit.toNat + 1) >>= fun rows =>
        .ok (rows.take args.limit.toNat)) =
      .ok ((exactPage P index (exactQuery P args text caseSensitive)
        texts).map (hitFromRow P (exactQuery P args text caseSensitive))) := by
  have hall : (rankedDocuments P index (exactQuery P args text caseSensitive)
      texts).filter (fun row => (none : Option (ℚ × String)).all
        fun after => ranksAfter after row) =
      rankedDocuments P index (exactQuery P args text caseSensitive) texts :=
    List.filter_eq_self.mpr fun _ _ => rfl
  rw [querySearchDocuments, if_neg (by exact SearchQueryMode.noConfusion),
    hcompile, ok_bind, hall]
  simp only [ok_bind]
  have hmode : (exactQuery P args text caseSensitive).queryMode = .exactly :=
    rfl
  rw [if_pos hmode, ← List.map_take, List.take_take,
    Nat.min_eq_left (Nat.le_succ _)]
  rfl

theorem mem_ranked_of_mem_exactPage {query : SearchQuery}
    (h : row ∈ exactPage P index query texts) :
    row ∈ rankedDocuments P index query texts := by
  rw [exactPage] at h
  have hsorted := List.mem_of_mem_take
    (List.mem_of_mem_filter (List.mem_of_mem_take h))
  exact (List.mem_insertionSort _).mp hsorted

theorem mem_exactPage_iff (h : index.WellFormed)
    (hrow : row ∈ rankedDocuments P index
      (exactQuery P args text caseSensitive) texts) :
    row ∈ exactPage P index (exactQuery P args text caseSensitive) texts ↔
      containsNeedle P (exactQuery P args text caseSensitive) row.document =
          true ∧
        OnPage P index (exactQuery P args text caseSensitive) texts
          row.document := by
  have hnodup := nodup_rankedDocuments (P := P) h
    (exactQuery P args text caseSensitive) texts
  rw [exactPage, mem_page_iff (hnodup.of_map _) (separates_rankedDocuments h)]
  simp only [not_orderBy_eq_ranksAfter]
  rw [Nat.lt_succ_iff]
  constructor
  · rintro ⟨-, hneedle, hbefore, hneedles⟩
    refine ⟨hneedle, fun other hother hsame => ?_⟩
    obtain rfl := List.inj_on_of_nodup_map hnodup hother hrow
      (congrArg SearchDocument.documentId hsame)
    exact ⟨hbefore, hneedles⟩
  · rintro ⟨hneedle, hpage⟩
    exact ⟨hrow, hneedle, hpage row hrow rfl⟩

theorem filterClauses_exactQuery (d : SearchDocument) :
    filterClauses P (exactQuery P args text caseSensitive) d =
      filterClauses P (exactQuery P args "" true) d := by
  simp only [filterClauses, exactQuery]
  rfl

theorem mem_exactPage_documentId_iff (h : index.WellFormed) {id : String} :
    id ∈ (exactPage P index (exactQuery P args text caseSensitive)
        texts).map RankedDocument.documentId ↔
      ∃ d, Selects P index args d ∧ HasWords texts d ∧
        OnPage P index (exactQuery P args text caseSensitive) texts d ∧
        containsNeedle P (exactQuery P args text caseSensitive) d = true ∧
        d.documentId = id := by
  constructor
  · intro hid
    obtain ⟨row, hrow, rfl⟩ := List.mem_map.mp hid
    have hranked := mem_ranked_of_mem_exactPage hrow
    obtain ⟨hmem, hfilter, hwords⟩ := of_mem_rankedDocuments h hranked
    obtain ⟨hneedle, hpage⟩ := (mem_exactPage_iff h hranked).mp hrow
    rw [filterClauses_exactQuery] at hfilter
    exact ⟨row.document, ⟨hmem, hfilter⟩, hwords, hpage, hneedle, rfl⟩
  · rintro ⟨d, ⟨hmem, hfilter⟩, hwords, hpage, hneedle, rfl⟩
    rw [← filterClauses_exactQuery] at hfilter
    obtain ⟨row, hranked, rfl⟩ := exists_mem_rankedDocuments h
      (exactQuery P args text caseSensitive) hmem hfilter hwords
    exact List.mem_map_of_mem
      ((mem_exactPage_iff h hranked).mpr ⟨hneedle, hpage⟩)

end Results

/-! ## Needles -/

section Needles

variable {args : QueryArgs} {text : String} {fold : Char → List Char}

theorem containsNeedle_exactQuery (d : SearchDocument) :
    containsNeedle P (exactQuery P args text true) d =
      containsText (normalizeSearchCopy P (strip text)) (haystack P d) :=
  if_pos rfl

theorem containsNeedle_exactQuery_false (d : SearchDocument) :
    containsNeedle P (exactQuery P args text false) d =
      containsText (P.casefold (normalizeSearchCopy P (strip text)))
        (P.casefold (haystack P d)) :=
  if_neg Bool.false_ne_true

theorem containsNeedle_false (hfold : FoldsLetters P.casefold fold)
    (h : containsNeedle P (exactQuery P args text true) d = true) :
    containsNeedle P (exactQuery P args text false) d = true := by
  rw [containsNeedle_exactQuery] at h
  rw [containsNeedle_exactQuery_false]
  exact hfold.containsText_casefold h

theorem containsNeedle_of_original (hfold : FoldsLetters P.casefold fold)
    {original : String}
    (hcopy : d.searchableText = normalizeSearchCopy P original)
    (h : SpelledIn P text original) :
    containsNeedle P (exactQuery P args text true) d = true := by
  have hfolded := hfold.containsText_casefold h
  rw [← hfold.normalizeSearchCopy_eq, ← hfold.normalizeSearchCopy_eq, ← hcopy,
    containsText_iff] at hfolded
  rw [containsNeedle_exactQuery, containsText_iff]
  refine hfolded.trans ⟨(d.title ++ " " ++ d.path.getD "" ++ " ").toList,
    (" " ++ structuredText P d).toList, ?_⟩
  have hhaystack : haystack P d = d.title ++ " " ++ d.path.getD "" ++ " " ++
      d.searchableText ++ " " ++ structuredText P d := rfl
  rw [hhaystack]
  simp

end Needles

/-! ## Exact queries -/

section Exact

variable {store : SearchStore} {original : String → String} {args : QueryArgs}
  {text : String} {inputs : QueryInputs} {fold : Char → List Char}
  {texts : String → String → String → Bool}

theorem Selects.eq {index : SearchIndex} {e : SearchDocument}
    (hd : Selects P index args d) (he : Selects P index args e)
    (hid : d.documentId = e.documentId) : d = e := by
  obtain ⟨row, hrow, rfl⟩ := List.mem_map.mp hd.1
  obtain ⟨row', hrow', rfl⟩ := List.mem_map.mp he.1
  exact congrArg DocumentRow.toSearchDocument
    (index.documents.row_unique hrow hrow' hid)

theorem compileFts_exactQuery (caseSensitive : Bool) :
    compileFts P (exactQuery P args text caseSensitive) =
      compileFts P (exactQuery P args text true) :=
  rfl

theorem uncachedResults_eq_ok (haccepts : Accepts P store args text)
    (hcompile : compileFts P (exactQuery P args text true) = .ok texts)
    (inputs : QueryInputs) (caseSensitive : Bool) :
    ∃ hits, uncachedResults P store (args.exact text caseSensitive) inputs =
        .ok hits ∧
      hits.map Hit.documentId =
        (exactPage P store.index (exactQuery P args text caseSensitive)
          texts).map RankedDocument.documentId := by
  refine ⟨_, (uncachedResults_exact haccepts caseSensitive inputs).trans
    (querySearchDocuments_exact
      ((compileFts_exactQuery caseSensitive).trans hcompile)), ?_⟩
  rw [List.map_map]
  rfl

theorem exists_compileFts (haccepts : Accepts P store args text)
    {hits : List Hit}
    (h : uncachedResults P store (args.exact text true) inputs = .ok hits) :
    ∃ texts, compileFts P (exactQuery P args text true) = .ok texts := by
  rw [uncachedResults_exact haccepts] at h
  obtain ⟨rows, hrows, -⟩ := bind_ok h
  rw [querySearchDocuments, if_neg (by exact SearchQueryMode.noConfusion)]
    at hrows
  obtain ⟨texts, hcompile, -⟩ := bind_ok hrows
  exact ⟨texts, hcompile⟩

theorem uncachedResults_congr (hfold : FoldsLetters P.casefold fold)
    (haccepts : Accepts P store args text) {text' : String}
    (haccepts' : Accepts P store args text') (hsame : SameLetters P text text')
    (caseSensitive : Bool) (inputs inputs' : QueryInputs) :
    uncachedResults P store (args.exact text' caseSensitive) inputs' =
      uncachedResults P store (args.exact text caseSensitive) inputs := by
  have hquery : exactQuery P args text' caseSensitive =
      exactQuery P args text caseSensitive := by
    rw [exactQuery, exactQuery, hfold.normalizeSearchCopy_congr hsame]
  rw [uncachedResults_exact haccepts, uncachedResults_exact haccepts', hquery]

end Exact

/-! ## One letter case for another -/

theorem toLower_cases (c : Char) : c.toLower = c ∨
    isSpace c = false ∧ isSpace c.toLower = false ∧ c ≠ '/' ∧ c ≠ '\\' ∧
      c.toLower ≠ '/' ∧ c.toLower ≠ '\\' := by
  by_cases h : 65 ≤ c.toNat ∧ c.toNat ≤ 90
  · right
    have hall : ∀ n ∈ List.range' 65 26, isSpace (Char.ofNat n) = false ∧
        isSpace (Char.ofNat n).toLower = false ∧ Char.ofNat n ≠ '/' ∧
        Char.ofNat n ≠ '\\' ∧ (Char.ofNat n).toLower ≠ '/' ∧
        (Char.ofNat n).toLower ≠ '\\' := by
      decide
    have hc := hall c.toNat (List.mem_range'_1.mpr (by omega))
    rwa [Char.ofNat_toNat] at hc
  · left
    apply dif_neg
    rintro ⟨ha, hz⟩
    exact h ⟨UInt32.le_iff_toNat_le.mp ha, UInt32.le_iff_toNat_le.mp hz⟩

theorem asciiPlatform_foldsLetters :
    FoldsLetters asciiPlatform.casefold fun c => [c.toLower] where
  casefold_eq s := by
    show String.ofList _ = _
    rw [← List.map_eq_flatMap]
  space c hc := by
    rcases toLower_cases c with h | ⟨h, -⟩
    · rw [h]
    · rw [hc] at h
      cases h
  not_space c hc := by
    refine ⟨List.cons_ne_nil _ _, fun x hx => ?_⟩
    obtain rfl := List.mem_singleton.mp hx
    rcases toLower_cases c with h | ⟨-, h, -⟩
    · rw [h, hc]
    · exact h
  slash := rfl
  not_slash c hc := by
    refine ⟨List.cons_ne_nil _ _, fun hslash => ?_⟩
    have hlower := List.mem_singleton.mp hslash
    rcases toLower_cases c with h | ⟨-, -, -, -, h, -⟩
    · exact hc (h ▸ hlower.symm)
    · exact h hlower.symm
  backslash := rfl
  not_backslash c hc := by
    intro hslash
    have hlower := List.mem_singleton.mp hslash
    rcases toLower_cases c with h | ⟨-, -, -, -, -, h⟩
    · exact hc (h ▸ hlower.symm)
    · exact h hlower.symm

/-- The words of a text: letters and digits, in small letters. -/
def asciiWords (s : String) : List (List Char) :=
  ((s.toList.map Char.toLower).splitOnP fun c => !c.isAlphanum).filter
    fun word => !word.isEmpty

/-- The words of the phrase in a row. -/
def hasPhrase (phrase s : String) : Bool :=
  !(asciiWords phrase).isEmpty &&
    (asciiWords s).tails.any fun tail => (asciiWords phrase).isPrefixOf tail

/-- The position of a cursor, written as the length of a text. -/
def lengthCursor : Json → String
  | .obj [("document_id", .str documentId), ("rank", .arr [.int n, .int d])] =>
      String.ofList (List.replicate
        (Encodable.encode (n, d, documentId.toList.map Char.toNat)) 'a')
  | _ => ""

def lengthCursorJson (cursor : String) : Option Json :=
  (Encodable.decode (α := ℤ × ℤ × List ℕ) cursor.length).map
    fun (n, d, documentId) => .obj
      [("document_id", .str (String.ofList (documentId.map Char.ofNat))),
       ("rank", .arr [.int n, .int d])]

/-- A full-text search of the words of ASCII phrases; a single row that a
phrase matches has the rank of `bm25`. -/
def phrasePlatform : QueryPlatform where
  toPlatform := asciiPlatform
  isWord c := c.isAlphanum || c = '_'
  str
    | .str s => s
    | _ => ""
  float
    | .arr [.int n, .int d] => some (n / d)
    | _ => none
  floatJson rank := .arr [.int rank.num, .int rank.den]
  cursorText := lengthCursor
  cursorJson := lengthCursorJson
  ftsMatch phrase := some fun title path searchableText =>
    hasPhrase phrase title || hasPhrase phrase path ||
      hasPhrase phrase searchableText
  bm25 _ _ _ := -1 / 1000000
  snippet _ row := row.title
  str_str _ := rfl
  float_floatJson rank := congrArg some rank.num_div_den
  cursorJson_cursorText rank documentId := by
    have hchars : (documentId.toList.map Char.toNat).map Char.ofNat =
        documentId.toList := by
      rw [List.map_map]
      exact (List.map_congr_left fun c _ => Char.ofNat_toNat c).trans
        (List.map_id _)
    rw [searchCursorPayload, lengthCursor, lengthCursorJson,
      String.length_ofList, List.length_replicate, Encodable.encodek,
      Option.map_some]
    simp only [hchars, String.ofList_toList]

/-- A document that says it in capital letters. -/
def shoutedDocument : SearchDocument where
  documentId := "doc"
  caseId := "case"
  evidenceId := "evidence"
  sourceType := .windowsArtifact
  sourceId := "source"
  sourceRevision := 1
  documentType := .other
  title := "a"
  path := none
  normalizedPath := none
  searchableText := "report"
  structuredFields := []
  observedAtUtc := none
  rawLocator := .obj []
  citations := .arr []
  isPartial := false
  indexRevision := 1
  isStale := false

def shoutedText : String → String := fun _ => "REPORT"

def shoutedStore : SearchStore where
  cases := ["case"]
  sources := Table.empty _
  keywords := KeywordStore.empty
  index := indexAfter [.batchIndex [shoutedDocument]]
  queries := []
  executions := []
  results := []
  cache := Table.empty _

def caseArgs : QueryArgs where
  caseId := "case"
  queryText := ""
  queryMode := .exactly
  evidenceIds := []
  sourceTypes := []
  documentTypes := []
  timeFrom := none
  timeTo := none
  pathScope := none
  filters := []
  keywordSetId := none
  keywordSetVersion := none
  caseSensitive := true
  cursor := none
  limit := 100
  sort := "rank"
  useCache := false

def queryInputs : QueryInputs where
  queryId := "query"
  executionId := "execution"
  resultId _ := "result"
  now := ""
  completedAt := ""
  cachedAt := ""

theorem shoutedStore_rows : shoutedStore.index.documents.rows =
    [{ shoutedDocument with ftsRowid := some 1 }] := by
  rfl

theorem shoutedStore_original : ∀ d ∈ shoutedStore.index.documents.rows,
    d.searchableText =
      normalizeSearchCopy phrasePlatform (shoutedText d.documentId) := by
  rw [shoutedStore_rows]
  intro d hd
  obtain rfl := List.mem_singleton.mp hd
  decide +kernel

theorem shoutedStore_accepts (text : String)
    (h : text = "Report" ∨ text = "b") :
    Accepts phrasePlatform shoutedStore caseArgs text := by
  constructor
  · rfl
  · rcases h with rfl | rfl
    · exact eq_ok_of_toOption (by decide +kernel)
    · exact eq_ok_of_toOption (by decide +kernel)
  · rcases h with rfl | rfl
    · exact eq_ok_of_toOption (by decide +kernel)
    · exact eq_ok_of_toOption (by decide +kernel)
  · exact eq_ok_of_toOption (by decide +kernel)

theorem shoutedDocument_not_spells (text : String)
    (h : text = "Report" ∨ text = "b") :
    ¬ Spells phrasePlatform shoutedText text shoutedDocument := by
  rintro (htitle | ⟨path, hpath, -⟩ | horiginal)
  · rcases h with rfl | rfl
    · exact absurd htitle (by unfold SpelledIn; decide +kernel)
    · exact absurd htitle (by unfold SpelledIn; decide +kernel)
  · cases hpath
  · rcases h with rfl | rfl
    · exact absurd horiginal (by unfold SpelledIn; decide +kernel)
    · exact absurd horiginal (by unfold SpelledIn; decide +kernel)

end ApexForensic.Search
