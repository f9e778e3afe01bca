import ApexForensic.Search.Index
import ApexForensic.Domain.Rows

/-!
# The two tables of the search index agree

`Linked` says that a row number set in a document names a row with that
document's texts, and that every row of the full-text table is named so.  With
row numbers on all documents that are not stale (`Complete`), such a document
has exactly one row.  A rebuild keeps the documents but for their row numbers,
so that it changes no query.
-/

namespace ApexForensic.Search

open ApexForensic.Support ApexForensic.Domain

variable {d row : DocumentRow} {document : SearchDocument}
  {documents : List SearchDocument} {rowid : ℕ} {index' : SearchIndex}

namespace SearchIndex

/-- The rows of the full-text table are the texts of the documents that have a
row number, each at its number. -/
structure Linked (index : SearchIndex) : Prop where
  holds : ∀ d ∈ index.documents.rows, ∀ rowid, d.ftsRowid = some rowid →
    d.ftsRow rowid ∈ index.fts.rows
  named : ∀ row ∈ index.fts.rows, ∃ d ∈ index.documents.rows,
    d.ftsRowid = some row.rowid ∧ row = d.ftsRow row.rowid

/-- Every document that is not stale has a row number. -/
def Complete (index : SearchIndex) : Prop :=
  ∀ d ∈ index.documents.rows, d.isStale = false → d.ftsRowid ≠ none

variable {index : SearchIndex}

theorem linked_empty : empty.Linked where
  holds d hd := by cases hd
  named row hrow := by cases hrow

theorem complete_empty : empty.Complete := by
  intro d hd
  cases hd

theorem Linked.document_unique (h : index.Linked) {e : DocumentRow}
    (hd : d ∈ index.documents.rows) (he : e ∈ index.documents.rows)
    (hdr : d.ftsRowid = some rowid) (her : e.ftsRowid = some rowid) :
    d = e := by
  have hrow := index.fts.row_unique (h.holds d hd rowid hdr)
    (h.holds e he rowid her) rfl
  exact index.documents.row_unique hd he (congrArg FtsRow.documentId hrow)

theorem Linked.row_eq (h : index.Linked) (hd : d ∈ index.documents.rows)
    {row : FtsRow} (hrow : row ∈ index.fts.rows)
    (hid : row.documentId = d.documentId) :
    d.ftsRowid = some row.rowid ∧ row = d.ftsRow row.rowid := by
  obtain ⟨e, he, hrowid, heq⟩ := h.named row hrow
  have hde : e = d := by
    apply index.documents.row_unique he hd
    rw [DocumentRow.id, DocumentRow.id, ← hid, heq]
    rfl
  exact hde ▸ ⟨hrowid, heq⟩

/-! ## The row numbers -/

theorem rowid_lt_nextRowid {row : FtsRow} (hrow : row ∈ index.fts.rows) :
    row.rowid < index.nextRowid := by
  have hmem : row.rowid ∈ index.fts.rows.map FtsRow.rowid :=
    List.mem_map_of_mem hrow
  have hle : ∀ (numbers : List ℕ), row.rowid ∈ numbers →
      row.rowid ≤ numbers.foldr max 0 := by
    intro numbers hmem
    induction numbers with
    | nil => cases hmem
    | cons n numbers ih =>
        rw [List.foldr_cons]
        rcases List.mem_cons.mp hmem with h | h
        · exact h ▸ le_max_left _ _
        · exact (ih h).trans (le_max_right _ _)
  exact Nat.lt_succ_of_le (hle _ hmem)

theorem mem_documents_insertFts :
    d ∈ (index.insertFts row).documents.rows ↔
      ∃ e ∈ index.documents.rows, (if e.documentId = row.documentId then
        { e with ftsRowid := some index.nextRowid } else e) = d := by
  refine List.mem_map.trans ?_
  simp only [decide_eq_true_eq]

theorem mem_fts_insertFts {f : FtsRow} :
    f ∈ (index.insertFts row).fts.rows ↔
      f = row.ftsRow index.nextRowid ∨ f ∈ index.fts.rows := by
  rw [insertFts, Table.mem_put]
  constructor
  · rintro (h | ⟨h, -⟩)
    · exact Or.inl h
    · exact Or.inr h
  · rintro (h | h)
    · exact Or.inl h
    · exact Or.inr ⟨h, (rowid_lt_nextRowid h).ne⟩

theorem Linked.insertFts (h : index.Linked) (hrow : row ∈ index.documents.rows)
    (hnone : row.ftsRowid = none) : (index.insertFts row).Linked := by
  have hself : ∀ e ∈ index.documents.rows, e.documentId = row.documentId →
      e = row := fun e he hid => index.documents.row_unique he hrow hid
  constructor
  · intro d hd rowid hrowid
    obtain ⟨e, he, rfl⟩ := mem_documents_insertFts.mp hd
    rw [mem_fts_insertFts]
    by_cases hid : e.documentId = row.documentId
    · rw [if_pos hid] at hrowid ⊢
      obtain rfl := Option.some.inj hrowid
      obtain rfl := hself e he hid
      exact Or.inl rfl
    · rw [if_neg hid] at hrowid ⊢
      exact Or.inr (h.holds e he rowid hrowid)
  · intro f hf
    rcases mem_fts_insertFts.mp hf with rfl | hf
    · exact ⟨{ row with ftsRowid := some index.nextRowid },
        mem_documents_insertFts.mpr ⟨row, hrow, if_pos rfl⟩, rfl, rfl⟩
    · obtain ⟨e, he, hrowid, heq⟩ := h.named f hf
      have hid : e.documentId ≠ row.documentId := by
        intro hid
        rw [hself e he hid, hnone] at hrowid
        cases hrowid
      exact ⟨e, mem_documents_insertFts.mpr ⟨e, he, if_neg hid⟩, hrowid, heq⟩

theorem Linked.replaceFts (h : index.Linked) {old : DocumentRow}
    (hold : old ∈ index.documents.rows) (hid : old.documentId = row.documentId)
    (hold_rowid : old.ftsRowid = some rowid)
    (hrow_rowid : row.ftsRowid = some rowid) :
    ({ index with documents := index.documents.put row }.replaceFts row
      rowid).Linked := by
  constructor
  · intro d hd r hr
    rw [SearchIndex.replaceFts, Table.mem_put]
    rcases Table.mem_put.mp hd with rfl | ⟨hmem, hne⟩
    · obtain rfl := Option.some.inj (hrow_rowid.symm.trans hr)
      exact Or.inl rfl
    · refine Or.inr ⟨h.holds d hmem r hr, fun heq => hne ?_⟩
      have heq : r = rowid := heq
      rw [h.document_unique hmem hold hr (heq ▸ hold_rowid)]
      exact hid
  · intro f hf
    rcases Table.mem_put.mp hf with rfl | ⟨hf, hne⟩
    · exact ⟨row, Table.mem_put.mpr (Or.inl rfl), hrow_rowid, rfl⟩
    · obtain ⟨e, he, hrowid, heq⟩ := h.named f hf
      refine ⟨e, Table.mem_put.mpr (Or.inr ⟨he, ?_⟩), hrowid, heq⟩
      intro hkey
      have hkey : e.documentId = old.documentId := hkey.trans hid.symm
      obtain rfl := index.documents.row_unique he hold hkey
      exact hne (Option.some.inj (hrowid.symm.trans hold_rowid))

theorem Linked.put (h : index.Linked) (hnone : row.ftsRowid = none)
    (hold : ∀ old ∈ index.documents.rows, old.documentId = row.documentId →
      old.ftsRowid = none) :
    ({ index with documents := index.documents.put row } :
      SearchIndex).Linked := by
  constructor
  · intro d hd rowid hrowid
    rcases Table.mem_put.mp hd with rfl | ⟨hd, -⟩
    · rw [hnone] at hrowid
      cases hrowid
    · exact h.holds d hd rowid hrowid
  · intro f hf
    obtain ⟨e, he, hrowid, heq⟩ := h.named f hf
    refine ⟨e, Table.mem_put.mpr (Or.inr ⟨he, fun hkey => ?_⟩), hrowid, heq⟩
    rw [hold e he hkey] at hrowid
    cases hrowid

theorem Linked.update (h : index.Linked) {p : DocumentRow → Bool}
    {f : DocumentRow → DocumentRow} (hf : ∀ d, (f d).id = d.id)
    (hrowid : ∀ d, (f d).ftsRowid = d.ftsRowid)
    (htexts : ∀ d rowid, (f d).ftsRow rowid = d.ftsRow rowid) :
    ({ index with documents := index.documents.update p f hf } :
      SearchIndex).Linked := by
  have hsame : ∀ d : DocumentRow, (if p d then f d else d).ftsRowid =
      d.ftsRowid ∧ ∀ rowid, (if p d then f d else d).ftsRow rowid =
        d.ftsRow rowid := by
    intro d
    split
    · exact ⟨hrowid d, htexts d⟩
    · exact ⟨rfl, fun _ => rfl⟩
  constructor
  · intro d hd rowid hr
    obtain ⟨e, he, rfl⟩ := List.mem_map.mp hd
    rw [(hsame e).2]
    rw [(hsame e).1] at hr
    exact h.holds e he rowid hr
  · intro row hrow
    obtain ⟨e, he, hr, heq⟩ := h.named row hrow
    have hmem : (if p e then f e else e) ∈
        (index.documents.update p f hf).rows :=
      List.mem_map.mpr ⟨e, he, rfl⟩
    exact ⟨_, hmem, (hsame e).1.trans hr, heq.trans ((hsame e).2 _).symm⟩

theorem Linked.upsertMetadata (h : index.Linked) (caseId : String)
    (revision : ℕ) : (index.upsertMetadata caseId revision).Linked :=
  ⟨h.holds, h.named⟩

/-! ## The operations -/

/-- What an insert of a document leaves: the old row with its row number and
the new texts, or a new row. -/
theorem upsertedRow_cases (index : SearchIndex) (document : SearchDocument) :
    (∃ old ∈ index.documents.rows,
      old.documentId = document.documentId ∧
      (index.upsertedRow document).ftsRowid = old.ftsRowid ∧
      (index.upsertedRow document).source = old.source ∧
      (index.upsertedRow document).documentType = old.documentType) ∨
    ((∀ old ∈ index.documents.rows,
      old.documentId ≠ document.documentId) ∧
      index.upsertedRow document = { document with ftsRowid := none }) := by
  rw [upsertedRow]
  cases hfind : index.documents.find? document.documentId with
  | none =>
      refine Or.inr ⟨fun old hold hid => ?_, rfl⟩
      exact Table.find?_eq_none_iff.mp hfind (List.mem_map.mpr ⟨old, hold, hid⟩)
  | some old =>
      obtain ⟨hold, hid⟩ := Table.find?_eq_some_iff.mp hfind
      exact Or.inl ⟨old, hold, hid, rfl, rfl, rfl⟩

@[simp] theorem upsertedRow_documentId (index : SearchIndex)
    (document : SearchDocument) :
    (index.upsertedRow document).documentId = document.documentId := by
  rw [upsertedRow]
  split
  · rfl
  · rename_i old hfind
    exact (Table.find?_eq_some_iff.mp hfind).2

@[simp] theorem upsertedRow_sourceRevision (index : SearchIndex)
    (document : SearchDocument) :
    (index.upsertedRow document).sourceRevision =
      document.sourceRevision := by
  rw [upsertedRow]
  split <;> rfl

/-- The two tables agree, and the documents that count have their row. -/
structure WellFormed (index : SearchIndex) : Prop where
  linked : index.Linked
  complete : index.Complete

theorem wellFormed_empty : empty.WellFormed where
  linked := linked_empty
  complete := complete_empty

theorem upsertDocument_eq_ok {upserted : SearchIndex}
    (h : index.upsertDocument document = .ok upserted) :
    upserted = { index with
      documents := index.documents.put (index.upsertedRow document) } := by
  rw [upsertDocument] at h
  split at h
  · cases h
  · exact (Except.ok.inj h).symm

/-- After a document came in, its row has a row number, and the other
documents are as before. -/
theorem indexDocument_eq_ok (h : index.indexDocument document = .ok index') :
    ∃ row : DocumentRow, row.ftsRowid ≠ none ∧
      row.toSearchDocument =
        (index.upsertedRow document).toSearchDocument ∧
      (∀ d, d ∈ index'.documents.rows ↔
        d = row ∨ d ∈ index.documents.rows ∧
          d.documentId ≠ document.documentId) ∧
      (index.Linked → index'.Linked) := by
  obtain ⟨upserted, hupserted, h⟩ := bind_ok h
  obtain rfl := upsertDocument_eq_ok hupserted
  obtain rfl := (Except.ok.inj h)
  have hid := upsertedRow_documentId index document
  have hcases := upsertedRow_cases index document
  revert hid hcases
  generalize index.upsertedRow document = row
  intro hid hcases
  cases hrowid : row.ftsRowid with
  | some rowid =>
      refine ⟨row, by simp [hrowid], rfl, fun d => ?_, fun hlinked => ?_⟩
      · exact Table.mem_put.trans (by rw [DocumentRow.id, DocumentRow.id, hid])
      · rcases hcases with ⟨old, hold, holdid, hsame, -⟩ | ⟨-, hnew⟩
        · exact (hlinked.replaceFts hold (holdid.trans hid.symm)
            (hsame.symm.trans hrowid) hrowid).upsertMetadata _ _
        · rw [hnew] at hrowid
          cases hrowid
  | none =>
      let upserted : SearchIndex :=
        { index with documents := index.documents.put row }
      refine ⟨{ row with ftsRowid := some upserted.nextRowid }, by simp, rfl,
        fun d => ?_, fun hlinked => ?_⟩
      · refine mem_documents_insertFts.trans ?_
        constructor
        · rintro ⟨e, he, rfl⟩
          rcases Table.mem_put.mp he with rfl | ⟨he, hne⟩
          · exact Or.inl (if_pos rfl)
          · have hne : e.documentId ≠ row.documentId := hne
            rw [if_neg hne]
            exact Or.inr ⟨he, hid ▸ hne⟩
        · rintro (rfl | ⟨hd, hne⟩)
          · exact ⟨row, Table.mem_put.mpr (Or.inl rfl), if_pos rfl⟩
          · have hne : d.documentId ≠ row.documentId := hid.symm ▸ hne
            exact ⟨d, Table.mem_put.mpr (Or.inr ⟨hd, hne⟩), if_neg hne⟩
      · have hold : ∀ old ∈ index.documents.rows,
            old.documentId = row.documentId → old.ftsRowid = none := by
          intro old hmem holdid
          rcases hcases with ⟨old', hold', holdid', hsame, -⟩ | ⟨hnew, -⟩
          · have heq : old = old' := index.documents.row_unique hmem hold'
              (holdid.trans (hid.trans holdid'.symm))
            rw [heq, ← hsame, hrowid]
          · exact absurd (holdid.trans hid) (hnew old hmem)
        have hupserted : upserted.Linked := hlinked.put hrowid hold
        have hmem : row ∈ upserted.documents.rows :=
          Table.mem_put.mpr (Or.inl rfl)
        exact (hupserted.insertFts hmem hrowid).upsertMetadata _ _

theorem WellFormed.indexDocument (h : index.WellFormed)
    (hok : index.indexDocument document = .ok index') : index'.WellFormed := by
  obtain ⟨row, hrowid, -, hmem, hlinked⟩ := indexDocument_eq_ok hok
  refine ⟨hlinked h.linked, fun d hd hstale => ?_⟩
  rcases (hmem d).mp hd with rfl | ⟨hd, -⟩
  · exact hrowid
  · exact h.complete d hd hstale

theorem WellFormed.batchIndexSearchDocuments (h : index.WellFormed) {count : ℕ}
    (hok : index.batchIndexSearchDocuments documents = .ok (count, index')) :
    index'.WellFormed := by
  obtain ⟨indexed, hindexed, heq⟩ := bind_ok hok
  obtain ⟨-, rfl⟩ := ok_pair_inj heq
  clear hok heq
  induction documents generalizing index with
  | nil =>
      obtain rfl := Except.ok.inj hindexed
      exact h
  | cons document documents ih =>
      obtain ⟨next, hnext, hindexed⟩ := bind_ok hindexed
      exact ih (h.indexDocument hnext) hindexed

theorem WellFormed.markSearchSourceStale (h : index.WellFormed)
    (source : SourceKey) (revision : ℕ) :
    (index.markSearchSourceStale source revision).WellFormed := by
  constructor
  · exact h.linked.update (f := fun d => { d with isStale := true })
      (fun _ => rfl) (fun _ => rfl) fun _ _ => rfl
  · intro d hd hstale
    obtain ⟨e, he, rfl⟩ := List.mem_map.mp hd
    dsimp only at hstale ⊢
    split at hstale
    · cases hstale
    · rename_i hnot
      rw [if_neg hnot]
      exact h.complete e he hstale

/-! ## Rebuilding -/

theorem mem_documents_clearFts {caseId : Option String} :
    d ∈ (index.clearFts caseId).documents.rows ↔
      ∃ e ∈ index.documents.rows,
        (if inCase caseId e then { e with ftsRowid := none } else e) = d :=
  List.mem_map

theorem Linked.mem_fts_clearFts (h : index.Linked) {caseId : Option String}
    {row : FtsRow} :
    row ∈ (index.clearFts caseId).fts.rows ↔ row ∈ index.fts.rows ∧
      ∀ d ∈ index.documents.rows, d.ftsRowid = some row.rowid →
        inCase caseId d = false := by
  cases caseId with
  | none =>
      constructor
      · intro hrow
        cases hrow
      · rintro ⟨hrow, hnone⟩
        obtain ⟨d, hd, hrowid, -⟩ := h.named row hrow
        cases hnone d hd hrowid
  | some caseId =>
      refine List.mem_filter.trans ?_
      simp only [Bool.not_eq_true', Bool.eq_false_iff, ne_eq,
        List.any_eq_true, Bool.and_eq_true, decide_eq_true_eq, not_exists,
        not_and]
      constructor
      · rintro ⟨hrow, hnone⟩
        exact ⟨hrow, fun d hd hrowid hcase => hnone d hd hcase hrowid⟩
      · rintro ⟨hrow, hnone⟩
        exact ⟨hrow, fun d hd hcase hrowid => hnone d hd hrowid hcase⟩

theorem Linked.clearFts (h : index.Linked) (caseId : Option String) :
    (index.clearFts caseId).Linked := by
  constructor
  · intro d hd rowid hrowid
    obtain ⟨e, he, rfl⟩ := mem_documents_clearFts.mp hd
    split at hrowid
    · cases hrowid
    · rename_i hnot
      rw [if_neg hnot, h.mem_fts_clearFts]
      refine ⟨h.holds e he rowid hrowid, fun d hd hd_rowid => ?_⟩
      rw [h.document_unique hd he hd_rowid hrowid]
      exact Bool.not_eq_true _ ▸ hnot
  · intro row hrow
    obtain ⟨hrow, hnone⟩ := h.mem_fts_clearFts.mp hrow
    obtain ⟨e, he, hrowid, heq⟩ := h.named row hrow
    refine ⟨e, mem_documents_clearFts.mpr ⟨e, he, ?_⟩, hrowid, heq⟩
    rw [hnone e he hrowid, if_neg Bool.false_ne_true]

/-- The documents are the same but for their row numbers. -/
def SameDocuments (index index' : SearchIndex) : Prop :=
  index'.documents.rows.map DocumentRow.toSearchDocument =
    index.documents.rows.map DocumentRow.toSearchDocument

theorem SameDocuments.update {p : DocumentRow → Bool}
    {f : DocumentRow → DocumentRow} (index : SearchIndex)
    (hf : ∀ d, (f d).toSearchDocument = d.toSearchDocument) :
    (index.documents.rows.map fun d => if p d then f d else d).map
        DocumentRow.toSearchDocument =
      index.documents.rows.map DocumentRow.toSearchDocument := by
  rw [List.map_map]
  apply List.map_congr_left
  intro d _
  by_cases h : p d
  · simp [h, hf]
  · simp [h]

theorem sameDocuments_clearFts (caseId : Option String)
    (index : SearchIndex) : SameDocuments index (index.clearFts caseId) :=
  SameDocuments.update (f := fun d => { d with ftsRowid := none }) index
    fun _ => rfl

theorem sameDocuments_insertFts (row : DocumentRow) (index : SearchIndex) :
    SameDocuments index (index.insertFts row) :=
  SameDocuments.update
    (f := fun d => { d with ftsRowid := some index.nextRowid }) index
    fun _ => rfl

/-- The documents of a list that have no row number get one each, and the
other documents stay as they are. -/
theorem foldl_insertFts {rows : List DocumentRow} :
    ∀ {index : SearchIndex}, index.Linked →
      (rows.map DocumentRow.id).Nodup →
      (∀ row ∈ rows, row ∈ index.documents.rows ∧ row.ftsRowid = none) →
      (rows.foldl SearchIndex.insertFts index).Linked ∧
        SameDocuments index (rows.foldl SearchIndex.insertFts index) ∧
        ∀ d ∈ (rows.foldl SearchIndex.insertFts index).documents.rows,
          d.ftsRowid ≠ none ∨
            d ∈ index.documents.rows ∧ d.id ∉ rows.map DocumentRow.id := by
  induction rows with
  | nil =>
      intro index h _ _
      exact ⟨h, rfl, fun d hd => Or.inr ⟨hd, List.not_mem_nil⟩⟩
  | cons row rows ih =>
      intro index h hnodup hrows
      obtain ⟨hrow, hnone⟩ := hrows row List.mem_cons_self
      rw [List.map_cons, List.nodup_cons] at hnodup
      have hnext : ∀ r ∈ rows, r ∈ (index.insertFts row).documents.rows ∧
          r.ftsRowid = none := by
        intro r hr
        obtain ⟨hmem, hrnone⟩ := hrows r (List.mem_cons_of_mem row hr)
        refine ⟨mem_documents_insertFts.mpr ⟨r, hmem, if_neg ?_⟩, hrnone⟩
        intro hid
        exact hnodup.1 (List.mem_map.mpr ⟨r, hr, hid⟩)
      obtain ⟨hlinked, hsame, hdocuments⟩ :=
        ih (h.insertFts hrow hnone) hnodup.2 hnext
      refine ⟨hlinked, hsame.trans (sameDocuments_insertFts row index),
        fun d hd => ?_⟩
      rcases hdocuments d hd with hsome | ⟨hd, hnot⟩
      · exact Or.inl hsome
      · obtain ⟨e, he, rfl⟩ := mem_documents_insertFts.mp hd
        by_cases hid : e.documentId = row.documentId
        · rw [if_pos hid]
          exact Or.inl (Option.some_ne_none _)
        · rw [if_neg hid] at hnot ⊢
          refine Or.inr ⟨he, ?_⟩
          rw [List.map_cons, List.mem_cons]
          exact fun h => h.elim hid hnot

theorem rebuildSearchIndex_spec (h : index.WellFormed)
    (caseId : Option String) :
    (index.rebuildSearchIndex caseId).2.WellFormed ∧
      SameDocuments index (index.rebuildSearchIndex caseId).2 := by
  have hcleared := h.linked.clearFts caseId
  let rows := ((index.clearFts caseId).documents.rows.filter fun d =>
      inCase caseId d && !d.isStale).insertionSort
    fun a b => a.documentId ≤ b.documentId
  have hmem : ∀ d, d ∈ rows ↔ d ∈ (index.clearFts caseId).documents.rows ∧
      inCase caseId d = true ∧ d.isStale = false := by
    intro d
    rw [List.mem_insertionSort, List.mem_filter, Bool.and_eq_true,
      Bool.not_eq_true']
  have hnodup : (rows.map DocumentRow.id).Nodup := by
    have hperm : rows.Perm ((index.clearFts caseId).documents.rows.filter
        fun d => inCase caseId d && !d.isStale) :=
      List.perm_insertionSort _ _
    rw [(hperm.map DocumentRow.id).nodup_iff]
    exact (index.clearFts caseId).documents.keys_nodup.sublist
      (List.filter_sublist.map _)
  have hrows : ∀ row ∈ rows, row ∈ (index.clearFts caseId).documents.rows ∧
      row.ftsRowid = none := by
    intro row hrow
    obtain ⟨hrow, hcase, -⟩ := (hmem row).mp hrow
    refine ⟨hrow, ?_⟩
    obtain ⟨e, he, rfl⟩ := mem_documents_clearFts.mp hrow
    split at hcase
    · rename_i h
      rw [if_pos h]
    · rename_i h
      exact absurd hcase h
  obtain ⟨hlinked, hsame, hdocuments⟩ := foldl_insertFts hcleared hnodup hrows
  refine ⟨⟨hlinked, fun d hd hstale => ?_⟩,
    hsame.trans (sameDocuments_clearFts caseId index)⟩
  rcases hdocuments d hd with hsome | ⟨hd, hnot⟩
  · exact hsome
  · obtain ⟨e, he, rfl⟩ := mem_documents_clearFts.mp hd
    by_cases hcase : inCase caseId e = true
    · refine absurd (List.mem_map_of_mem ((hmem _).mpr ⟨hd, ?_, hstale⟩)) hnot
      rw [if_pos hcase]
      exact hcase
    · rw [if_neg hcase] at hstale ⊢
      exact h.complete e he hstale

/-! ## Queries -/

theorem Linked.filter_rowid_eq (h : index.Linked)
    (hd : d ∈ index.documents.rows) (hrowid : d.ftsRowid = some rowid) :
    index.fts.rows.filter (fun row => d.ftsRowid = some row.rowid) =
      [d.ftsRow rowid] := by
  rw [← index.fts.filter_key_eq (h.holds d hd rowid hrowid)]
  apply List.filter_congr
  intro row _
  rw [hrowid, decide_eq_decide, Option.some.injEq, eq_comm]
  rfl

theorem WellFormed.filter_documentId_eq (h : index.WellFormed)
    (hd : d ∈ index.documents.rows) (hstale : d.isStale = false) :
    ∃ rowid, d.ftsRowid = some rowid ∧
      index.fts.rows.filter (fun row => row.documentId = d.documentId) =
        [d.ftsRow rowid] := by
  obtain ⟨rowid, hrowid⟩ :=
    Option.ne_none_iff_exists'.mp (h.complete d hd hstale)
  refine ⟨rowid, hrowid, ?_⟩
  rw [← h.linked.filter_rowid_eq hd hrowid]
  apply List.filter_congr
  intro row hrow
  rw [decide_eq_decide]
  constructor
  · intro hid
    exact (h.linked.row_eq hd hrow hid).1
  · intro hsame
    have hmem := h.linked.holds d hd row.rowid hsame
    exact congrArg FtsRow.documentId (index.fts.row_unique hrow hmem rfl)

theorem WellFormed.matched_eq (h : index.WellFormed)
    (selects : SearchDocument → Bool)
    (texts : String → String → String → Bool) :
    index.matched selects texts =
      (index.documents.rows.map DocumentRow.toSearchDocument).filter fun d =>
        !d.isStale && selects d &&
          texts d.title (d.path.getD "") d.searchableText := by
  have hjoined : ∀ rows ⊆ index.documents.rows,
      ((rows.flatMap fun d =>
        (index.fts.rows.filter fun row => d.ftsRowid = some row.rowid).map
          fun row => (d, row)).filter fun hit =>
            !hit.1.isStale && selects hit.1.toSearchDocument &&
              texts hit.2.title hit.2.path hit.2.searchableText).map
          (fun hit => hit.1.toSearchDocument) =
        (rows.map DocumentRow.toSearchDocument).filter fun d =>
          !d.isStale && selects d &&
            texts d.title (d.path.getD "") d.searchableText := by
    intro rows hrows
    induction rows with
    | nil => rfl
    | cons d rows ih =>
        have hd := hrows List.mem_cons_self
        have ih := ih fun e he => hrows (List.mem_cons_of_mem d he)
        rw [List.flatMap_cons, List.filter_append, List.map_append, ih,
          List.map_cons, List.filter_cons]
        cases hstale : d.isStale with
        | true =>
            rw [List.filter_eq_nil_iff.mpr]
            · simp [hstale]
            · intro hit hhit
              obtain ⟨row, -, rfl⟩ := List.mem_map.mp hhit
              simp [hstale]
        | false =>
            obtain ⟨rowid, hrowid⟩ :=
              Option.ne_none_iff_exists'.mp (h.complete d hd hstale)
            rw [h.linked.filter_rowid_eq hd hrowid]
            simp only [List.map_cons, List.map_nil, List.filter_cons, hstale,
              SearchDocument.ftsRow, Bool.not_false, Bool.true_and,
              List.filter_nil]
            split <;> rfl
  exact hjoined _ (List.Subset.refl _)

theorem WellFormed.matched_rebuildSearchIndex (h : index.WellFormed)
    (caseId : Option String) (selects : SearchDocument → Bool)
    (texts : String → String → String → Bool) :
    (index.rebuildSearchIndex caseId).2.matched selects texts =
      index.matched selects texts := by
  obtain ⟨hrebuilt, hsame⟩ := rebuildSearchIndex_spec h caseId
  rw [hrebuilt.matched_eq, h.matched_eq, hsame]

/-! ## Revisions -/

/-- Only documents of one revision of the source count. -/
def OnlyRevision (source : SourceKey) (revision : ℕ)
    (index : SearchIndex) : Prop :=
  ∀ d ∈ index.documents.rows, d.source = source → d.isStale = false →
    d.sourceRevision = revision

/-- A document's source is that of a document that came in with its id. -/
def SourcesFrom (documents : List SearchDocument)
    (index : SearchIndex) : Prop :=
  ∀ d ∈ index.documents.rows, ∃ document ∈ documents,
    document.documentId = d.documentId ∧ document.source = d.source

theorem onlyRevision_markSearchSourceStale (source : SourceKey) (revision : ℕ) :
    OnlyRevision source revision
      (index.markSearchSourceStale source revision) := by
  intro d hd hsource hstale
  obtain ⟨e, he, rfl⟩ := List.mem_map.mp hd
  by_contra hne
  dsimp only at hsource hstale hne
  split at hstale
  · cases hstale
  · rename_i hnot
    rw [if_neg hnot] at hsource hne
    exact hnot (by simp [hsource, hne])

/-- Documents with one id are of one source. -/
def IdsName (documents : List SearchDocument) : Prop :=
  ∀ d ∈ documents, ∀ e ∈ documents, d.documentId = e.documentId →
    d.source = e.source

theorem IdsName.mono {documents' : List SearchDocument} (h : IdsName documents)
    (hsub : documents' ⊆ documents) : IdsName documents' :=
  fun d hd e he => h d (hsub hd) e (hsub he)

/-- A document that comes in takes the source of the document it replaces, and
that is its own. -/
theorem source_upsertedRow (hfrom : SourcesFrom documents index)
    (hids : IdsName (documents ++ [document])) :
    (index.upsertedRow document).source = document.source := by
  rcases upsertedRow_cases index document with
    ⟨old, hold, hid, -, hsource, -⟩ | ⟨-, hnew⟩
  · obtain ⟨e, he, heid, hesource⟩ := hfrom old hold
    rw [hsource, ← hesource]
    exact hids e (List.mem_append_left _ he) document (by simp) (heid.trans hid)
  · rw [hnew]

theorem SourcesFrom.indexDocument (hfrom : SourcesFrom documents index)
    (hids : IdsName (documents ++ [document]))
    (hok : index.indexDocument document = .ok index') :
    SourcesFrom (documents ++ [document]) index' := by
  obtain ⟨row, -, hrow, hmem, -⟩ := indexDocument_eq_ok hok
  intro d hd
  rcases (hmem d).mp hd with rfl | ⟨hd, -⟩
  · refine ⟨document, by simp, ?_, ?_⟩
    · rw [hrow, upsertedRow_documentId]
    · rw [hrow, source_upsertedRow hfrom hids]
  · obtain ⟨e, he, hsame⟩ := hfrom d hd
    exact ⟨e, List.mem_append_left _ he, hsame⟩

theorem OnlyRevision.indexDocument {source : SourceKey} {revision : ℕ}
    (h : OnlyRevision source revision index)
    (hfrom : SourcesFrom documents index)
    (hids : IdsName (documents ++ [document]))
    (hrevision : document.source = source →
      document.sourceRevision = revision)
    (hok : index.indexDocument document = .ok index') :
    OnlyRevision source revision index' := by
  obtain ⟨row, -, hrow, hmem, -⟩ := indexDocument_eq_ok hok
  intro d hd hsource hstale
  rcases (hmem d).mp hd with rfl | ⟨hd, -⟩
  · rw [hrow, upsertedRow_sourceRevision]
    apply hrevision
    rw [← hsource, hrow, source_upsertedRow hfrom hids]
  · exact h d hd hsource hstale

/-- What a batch keeps: where its documents come from, and the only revision
of a source that the batch does not bring another revision of. -/
theorem batchIndexSearchDocuments_sources {batch : List SearchDocument}
    {count : ℕ}
    (hok : index.batchIndexSearchDocuments batch = .ok (count, index'))
    (hids : IdsName (documents ++ batch)) (hfrom : SourcesFrom documents index)
    :
    SourcesFrom (documents ++ batch) index' ∧
      ∀ {source revision}, OnlyRevision source revision index →
        (∀ document ∈ batch, document.source = source →
          document.sourceRevision = revision) →
        OnlyRevision source revision index' := by
  obtain ⟨indexed, hindexed, heq⟩ := bind_ok hok
  obtain ⟨-, rfl⟩ := ok_pair_inj heq
  clear hok heq
  induction batch generalizing index documents with
  | nil =>
      obtain rfl := Except.ok.inj hindexed
      rw [List.append_nil]
      exact ⟨hfrom, fun h _ => h⟩
  | cons document batch ih =>
      obtain ⟨next, hnext, hindexed⟩ := bind_ok hindexed
      rw [List.append_cons] at hids ⊢
      have hids' : IdsName (documents ++ [document]) := fun d hd e he =>
        hids d (List.mem_append_left _ hd) e (List.mem_append_left _ he)
      obtain ⟨hfrom', hrevisions⟩ :=
        ih hids (hfrom.indexDocument hids' hnext) hindexed
      refine ⟨hfrom', fun h hbatch => hrevisions ?_ fun d hd => ?_⟩
      · exact h.indexDocument hfrom hids' (hbatch document (by simp)) hnext
      · exact hbatch d (List.mem_cons_of_mem document hd)

theorem SameDocuments.exists_mem (h : SameDocuments index index')
    (hd : d ∈ index'.documents.rows) :
    ∃ e ∈ index.documents.rows, e.toSearchDocument = d.toSearchDocument := by
  have hmem : d.toSearchDocument ∈
      index'.documents.rows.map DocumentRow.toSearchDocument :=
    List.mem_map_of_mem hd
  rw [h] at hmem
  exact List.mem_map.mp hmem

/-- Marking and rebuilding leave no document with other columns but that it
may be stale. -/
theorem exists_mem_of_not_batch {op : IndexOp} (hop : op.documents = [])
    (h : index.WellFormed) (hd : d ∈ (op.step index).documents.rows) :
    ∃ e ∈ index.documents.rows, e.documentId = d.documentId ∧
      e.source = d.source ∧ e.sourceRevision = d.sourceRevision ∧
      (d.isStale = false → e.isStale = false) := by
  cases op with
  | batchIndex documents =>
      obtain rfl : documents = [] := hop
      exact ⟨d, hd, rfl, rfl, rfl, id⟩
  | markStale source revision =>
      obtain ⟨e, he, rfl⟩ := List.mem_map.mp hd
      refine ⟨e, he, ?_⟩
      dsimp only
      split
      · exact ⟨rfl, rfl, rfl, fun hstale => by cases hstale⟩
      · exact ⟨rfl, rfl, rfl, id⟩
  | rebuild caseId =>
      obtain ⟨e, he, heq⟩ := (rebuildSearchIndex_spec h caseId).2.exists_mem hd
      refine ⟨e, he, ?_⟩
      rw [SearchDocument.source, SearchDocument.source, heq]
      exact ⟨rfl, rfl, rfl, id⟩

end SearchIndex

open SearchIndex

/-! ## Runs -/

theorem IndexOp.wellFormed_step (op : IndexOp) {index : SearchIndex}
    (h : index.WellFormed) : (op.step index).WellFormed := by
  cases op with
  | batchIndex documents =>
      rw [step]
      split
      · rename_i count index' hok
        exact h.batchIndexSearchDocuments hok
      · exact h
  | markStale source revision => exact h.markSearchSourceStale source revision
  | rebuild caseId => exact (rebuildSearchIndex_spec h caseId).1

theorem wellFormed_indexAfter (ops : List IndexOp) :
    (indexAfter ops).WellFormed :=
  run_invariant (fun (index : SearchIndex) op (h : index.WellFormed) =>
    op.wellFormed_step h) wellFormed_empty ops

/-- The documents that a run brings into the index. -/
def indexed (ops : List IndexOp) : List SearchDocument :=
  ops.flatMap IndexOp.documents

theorem indexed_concat (ops : List IndexOp) (op : IndexOp) :
    indexed (ops ++ [op]) = indexed ops ++ op.documents := by
  rw [indexed, List.flatMap_append, List.flatMap_singleton, indexed]

/-- What one operation keeps of the sources of the documents and of the only
revision of a source. -/
theorem IndexOp.sources_step {index : SearchIndex} (h : index.WellFormed)
    (hfrom : SourcesFrom documents index) (op : IndexOp)
    (hids : IdsName (documents ++ op.documents)) :
    SourcesFrom (documents ++ op.documents) (op.step index) ∧
      ∀ {source revision}, OnlyRevision source revision index →
        (∀ document ∈ op.documents, document.source = source →
          document.sourceRevision = revision) →
        OnlyRevision source revision (op.step index) := by
  by_cases hnone : op.documents = []
  · constructor
    · intro d hd
      obtain ⟨e, he, hid, hsource, -⟩ := exists_mem_of_not_batch hnone h hd
      obtain ⟨document, hdocument, hdid, hdsource⟩ := hfrom e he
      exact ⟨document, List.mem_append_left _ hdocument, hdid.trans hid,
        hdsource.trans hsource⟩
    · intro source revision honly _ d hd hsource hstale
      obtain ⟨e, he, -, hesource, hrevision, hestale⟩ :=
        exists_mem_of_not_batch hnone h hd
      rw [← hrevision]
      exact honly e he (hesource.trans hsource) (hestale hstale)
  · cases op with
    | batchIndex batch =>
        rw [step]
        split
        · rename_i count index' hok
          exact batchIndexSearchDocuments_sources hok hids hfrom
        · refine ⟨fun d hd => ?_, fun honly _ => honly⟩
          obtain ⟨e, he, hsame⟩ := hfrom d hd
          exact ⟨e, List.mem_append_left _ he, hsame⟩
    | markStale source revision => exact absurd rfl hnone
    | rebuild caseId => exact absurd rfl hnone

theorem sourcesFrom_indexAfter {ops : List IndexOp}
    (hids : IdsName (indexed ops)) :
    SourcesFrom (indexed ops) (indexAfter ops) := by
  induction ops using List.reverseRecOn with
  | nil =>
      intro d hd
      cases hd
  | append_singleton ops op ih =>
      rw [indexAfter, run_concat]
      rw [indexed_concat] at hids ⊢
      have hfrom := ih (hids.mono (List.subset_append_left _ _))
      exact (op.sources_step (wellFormed_indexAfter ops) hfrom hids).1

/-- A source that was re-indexed at a revision, and for which no document of
another revision came in since, has documents of that revision only. -/
theorem onlyRevision_indexAfter {before after : List IndexOp}
    {source : SourceKey} {revision : ℕ} (hids : IdsName
      (indexed (before ++ .markStale source revision :: after)))
    (hafter : ∀ document ∈ indexed after, document.source = source →
      document.sourceRevision = revision) :
    OnlyRevision source revision
      (indexAfter (before ++ .markStale source revision :: after)) := by
  induction after using List.reverseRecOn with
  | nil =>
      rw [indexAfter, run_concat]
      exact onlyRevision_markSearchSourceStale source revision
  | append_singleton after op ih =>
      rw [← List.cons_append, ← List.append_assoc] at hids ⊢
      rw [indexed_concat] at hids hafter
      have hids' := hids.mono (List.subset_append_left _ _)
      rw [indexAfter, run_concat]
      refine (op.sources_step (wellFormed_indexAfter _)
        (sourcesFrom_indexAfter hids') hids).2 (ih hids' ?_) ?_
      · intro document hdocument
        exact hafter document (List.mem_append_left _ hdocument)
      · intro document hdocument
        exact hafter document (List.mem_append_right _ hdocument)

/-- After every sequence of operations each document that is not stale has one
row in the full-text table, the one its row number names, with its texts; no
two documents share a row number; a re-indexed source has documents of one
revision; and a rebuild changes no query. -/
theorem index_invariant (ops : List IndexOp) :
    (∀ d ∈ (indexAfter ops).documents.rows, d.isStale = false →
      ∃ rowid, d.ftsRowid = some rowid ∧
        (indexAfter ops).fts.rows.filter
          (fun row => row.documentId = d.documentId) = [d.ftsRow rowid]) ∧
    (∀ d ∈ (indexAfter ops).documents.rows,
      ∀ e ∈ (indexAfter ops).documents.rows, ∀ rowid,
        d.ftsRowid = some rowid → e.ftsRowid = some rowid → d = e) ∧
    (∀ before after source revision,
      ops = before ++ .markStale source revision :: after →
      IdsName (indexed ops) →
      (∀ document ∈ indexed after, document.source = source →
        document.sourceRevision = revision) →
      ∀ d ∈ (indexAfter ops).documents.rows, d.source = source →
        d.isStale = false → d.sourceRevision = revision) ∧
    ∀ caseId selects texts,
      (indexAfter (ops ++ [.rebuild caseId])).matched selects texts =
        (indexAfter ops).matched selects texts := by
  have h := wellFormed_indexAfter ops
  refine ⟨fun d hd hstale => h.filter_documentId_eq hd hstale,
    fun d hd e he rowid hdr her => h.linked.document_unique hd he hdr her,
    ?_, ?_⟩
  · rintro before after source revision rfl hids hafter
    exact onlyRevision_indexAfter hids hafter
  · intro caseId selects texts
    rw [indexAfter, run_concat]
    exact h.matched_rebuildSearchIndex caseId selects texts

end ApexForensic.Search
