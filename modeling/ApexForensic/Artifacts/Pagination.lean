import ApexForensic.Artifacts.Listing
import ApexForensic.FileSystem.Pagination

/-!
# The pages of the artifacts

The sort value of a cursor is printed from the time that was read back from a
row, and the column from the time that was stored; both print the same instant
alike (`sortValue_readBack`), so that following the cursors returns every
matching artifact once.  The digest in a cursor identifies filter texts that
the clauses of the query tell apart, and a cursor is refused by every other
query exactly when there are none of these.
-/

namespace ApexForensic.Artifacts

open ApexForensic.Support ApexForensic.Domain
open ApexForensic.Timeline (ArtifactType)

variable {page : ArtifactPage} {artifact : ArtifactRecord}
  {cursor : Option String} {row : ArtifactRow} {observed : Option Instant}
  {created : Instant} {after : Option (String × String)} {queryKey : String}
  {query' : ArtifactQuery}

/-! ## Times and their texts -/

theorem isoformat_toDatetime (i : Instant) :
    isoformat i.toDatetime =
      .ok (String.ofList (i.clock ++ "+00:00".toList)) := by
  have hclock : isoWallClock (i.micros + 0 * 1000000) = .ok i.clock := by
    rw [zero_mul, add_zero]
    exact i.isoWallClock_micros
  simp only [isoformat, Instant.toDatetime, isoformatWithOffset, hclock]
  rfl

theorem plus_notMem_padded (width n : ℕ) : '+' ∉ padded width n := by
  rw [padded, List.mem_append, not_or]
  refine ⟨fun h => ?_, fun h => ?_⟩
  · exact absurd (List.eq_of_mem_replicate h) (by decide)
  · have hdigit := Nat.isDigit_of_mem_toDigits (by decide) (by decide) h
    exact absurd hdigit (by decide)

theorem plus_notMem_clock (i : Instant) : '+' ∉ i.clock := by
  have hpadded := plus_notMem_padded
  simp [Instant.clock, hpadded]

theorem replaceUtcOffset_append {clock : List Char} (h : '+' ∉ clock) :
    replaceUtcOffset 0 (clock ++ "+00:00".toList) = clock ++ ['Z'] := by
  induction clock with
  | nil => rfl
  | cons c clock ih =>
      rw [List.mem_cons, not_or] at h
      have hprefix : "+00:00".toList.isPrefixOf
          (c :: (clock ++ "+00:00".toList)) = false := by
        simp [List.isPrefixOf, h.1]
      rw [List.cons_append, replaceUtcOffset, hprefix, ih h.2]
      rfl

def ArtifactRecord.time (artifact : ArtifactRecord) : Datetime :=
  artifact.observedAtUtc.getD artifact.createdAt

theorem sortValue_of_time {i : Instant} (h : artifact.time = i.toDatetime) :
    sortValue artifact = .ok i.text := by
  rw [ArtifactRecord.time] at h
  rw [sortValue, h, isoformat_toDatetime]
  simp only [bind, Except.bind, pure, Except.pure, String.toList_ofList]
  rw [replaceUtcOffset_append (plus_notMem_clock i)]
  rfl

section

variable {P : Platform}

theorem parseTimestamp_text (i : Instant) :
    parseTimestamp P i.text = .ok i.toDatetime := by
  have hnormalized : normalizedTimestamp i.text =
      String.ofList (i.clock ++ "+00:00".toList) := by
    simp [normalizedTimestamp, Instant.text]
  simp only [parseTimestamp, hnormalized, P.fromisoformat_clock,
    Instant.toDatetime, i.isoWallClock_micros]
  rfl

/-! ## Rows and what is read of them -/

/-- The texts of a row are those of instants. -/
structure TimesAre (row : ArtifactRow) (observed : Option Instant)
    (created : Instant) : Prop where
  observedAtUtc : row.observedAtUtc = observed.map Instant.text
  createdAt : row.createdAt = created.text
  sortTimestamp : row.sortTimestamp = (observed.getD created).text

theorem exists_timesAre (h : artifactValues P artifact = .ok row) :
    ∃ observed created, TimesAre row observed created := by
  rw [artifactValues] at h
  obtain ⟨observedAtUtc, hobserved, h⟩ := bind_ok h
  obtain ⟨sortTimestamp, hsort, h⟩ := bind_ok h
  obtain ⟨createdAt, hcreated, h⟩ := bind_ok h
  obtain rfl := Except.ok.inj h
  obtain ⟨created, -, rfl⟩ := exists_instant_of_toJsonTimestamp hcreated
  cases htime : artifact.observedAtUtc with
  | none =>
      rw [htime] at hobserved hsort
      obtain rfl := Except.ok.inj hobserved
      rw [Option.getD_none, hcreated] at hsort
      exact ⟨none, created, rfl, rfl, (Except.ok.inj hsort).symm⟩
  | some time =>
      rw [htime] at hobserved hsort
      rw [Option.getD_some] at hsort
      obtain ⟨observed, -, rfl⟩ := exists_instant_of_toJsonTimestamp hsort
      rw [Option.mapM_some, hsort] at hobserved
      obtain rfl := Except.ok.inj hobserved
      exact ⟨some observed, created, rfl, rfl, rfl⟩

variable (P) in
/-- The artifact that is read from a row. -/
def readBack (row : ArtifactRow) : ArtifactRecord :=
  row.withTimes
    (row.observedAtUtc.bind fun text => (parseTimestamp P text).toOption)
    ((parseTimestamp P row.createdAt).toOption.getD ⟨0, some 0⟩)

theorem time_readBack (h : TimesAre row observed created) :
    (readBack P row).time = (observed.getD created).toDatetime := by
  cases observed with
  | none => simp [readBack, ArtifactRow.withTimes, ArtifactRecord.time,
      h.observedAtUtc, h.createdAt, parseTimestamp_text, Except.toOption]
  | some i => simp [readBack, ArtifactRow.withTimes, ArtifactRecord.time,
      h.observedAtUtc, parseTimestamp_text, Except.toOption]

theorem rowToArtifact_eq (h : TimesAre row observed created) :
    rowToArtifact P row = .ok (readBack P row) := by
  cases observed with
  | none =>
      simp [rowToArtifact, readBack, h.observedAtUtc, h.createdAt,
        parseTimestamp_text, Except.toOption, bind, Except.bind, pure,
        Except.pure]
  | some i =>
      simp [rowToArtifact, readBack, h.observedAtUtc, h.createdAt,
        parseTimestamp_text, Except.toOption, bind, Except.bind, pure,
        Except.pure, Functor.map, Except.map]

theorem sortValue_readBack (h : TimesAre row observed created) :
    sortValue (readBack P row) = .ok row.sortTimestamp := by
  rw [h.sortTimestamp]
  exact sortValue_of_time (time_readBack h)

variable {store : Store P} {query : ArtifactQuery} {filters : BoundFilters}

theorem Store.timesAre (store : Store P) (h : row ∈ store.artifacts.rows) :
    ∃ observed created, TimesAre row observed created := by
  obtain ⟨artifact, hvalues⟩ := store.written row h
  exact exists_timesAre hvalues

theorem mapM_rowToArtifact (store : Store P) {rows : List ArtifactRow}
    (h : ∀ row ∈ rows, row ∈ store.artifacts.rows) :
    rows.mapM (rowToArtifact P) = .ok (rows.map (readBack P)) := by
  induction rows with
  | nil => rfl
  | cons row rows ih =>
      rw [List.forall_mem_cons] at h
      obtain ⟨observed, created, htimes⟩ := store.timesAre h.1
      rw [List.mapM_cons, rowToArtifact_eq htimes, ih h.2]
      rfl

/-! ## What a listing is about -/

variable (store) in
/-- The rows that a listing reads, in its order. -/
def matchingRows (filters : BoundFilters) : List ArtifactRow :=
  (store.artifacts.rows.filter fun row =>
    filters.selects P row && filters.withinTimes row).insertionSort rowOrder

variable (store query) in
/-- The artifacts that a listing is about, in its order. -/
def matching : List ArtifactRecord :=
  match query.bound P with
  | .ok filters => (matchingRows store filters).map (readBack P)
  | .error _ => []

theorem matching_eq (h : query.bound P = .ok filters) :
    matching store query = (matchingRows store filters).map (readBack P) := by
  rw [matching, h]

variable (store query) in
/-- What `list_artifacts` checks of a query. -/
structure Valid : Prop where
  case : query.caseId ∈ store.cases
  evidence : ∀ id ∈ query.evidenceId, id ∈ store.evidence
  limit : 1 ≤ query.limit ∧ query.limit ≤ 1000
  times : ∃ filters, query.bound P = .ok filters

theorem mem_matchingRows :
    row ∈ matchingRows store filters ↔ row ∈ store.artifacts.rows ∧
      filters.selects P row = true ∧ filters.withinTimes row = true := by
  rw [matchingRows, List.mem_insertionSort, List.mem_filter, Bool.and_eq_true]

theorem separates_rows (artifacts : Table ArtifactRow.artifactId) :
    Separates rowOrder artifacts.rows := by
  intro a ha b hb hab hba
  exact artifacts.row_unique ha hb (orderBy_antisymm hab hba).2

variable (store filters) in
theorem separates_matchingRows :
    Separates rowOrder (matchingRows store filters) :=
  ((separates_rows store.artifacts).filter _).of_perm
    (List.perm_insertionSort _ _)

variable (store filters) in
theorem nodup_matchingRows :
    ((matchingRows store filters).map ArtifactRow.artifactId).Nodup := by
  rw [matchingRows, ((List.perm_insertionSort _ _).map _).nodup_iff]
  exact store.artifacts.keys_nodup.sublist (List.filter_sublist.map _)

theorem follows_eq (last row : ArtifactRow) :
    follows (last.sortTimestamp, last.artifactId) row =
      ! decide (rowOrder row last) := by
  rw [follows, ← decide_not, Bool.eq_iff_iff, decide_eq_true_iff,
    not_orderBy_iff]
  simp only [Bool.or_eq_true, Bool.and_eq_true, decide_eq_true_eq]

variable (store filters) in
def rowsAfter (after : Option (String × String)) : List ArtifactRow :=
  (store.artifacts.rows.filter fun row =>
    filters.selects P row && filters.withinTimes row &&
      after.all fun after => follows after row).insertionSort rowOrder

theorem mem_rows_of_mem_rowsAfter (h : row ∈ rowsAfter store filters after) :
    row ∈ store.artifacts.rows :=
  List.mem_of_mem_filter ((List.mem_insertionSort _).mp h)

variable (store) in
theorem queryArtifacts_eq (hbound : query.bound P = .ok filters)
    (after : Option (String × String)) (n : ℕ) :
    queryArtifacts P store.artifacts query after n =
      .ok (((rowsAfter store filters after).map (readBack P)).take n) := by
  simp only [queryArtifacts, hbound, bind, Except.bind]
  rw [← List.map_take]
  refine mapM_rowToArtifact store fun row hrow => ?_
  exact mem_rows_of_mem_rowsAfter (List.mem_of_mem_take hrow)

theorem queryArtifacts_none (hbound : query.bound P = .ok filters) (n : ℕ) :
    queryArtifacts P store.artifacts query none n =
      .ok ((matching store query).take n) := by
  rw [queryArtifacts_eq store hbound, matching_eq hbound, rowsAfter]
  simp only [Option.all_none, Bool.and_true]
  rfl

theorem queryArtifacts_some (hbound : query.bound P = .ok filters)
    {before rest : List ArtifactRow} {last : ArtifactRow}
    (h : matchingRows store filters = before ++ last :: rest) (n : ℕ) :
    queryArtifacts P store.artifacts query
        (some (last.sortTimestamp, last.artifactId)) n =
      .ok ((rest.map (readBack P)).take n) := by
  have hselected : (store.artifacts.rows.filter fun row =>
      filters.selects P row && filters.withinTimes row &&
        (some (last.sortTimestamp, last.artifactId)).all fun after =>
          follows after row) =
      (store.artifacts.rows.filter fun row =>
        filters.selects P row && filters.withinTimes row).filter
        fun row => ! decide (rowOrder row last) := by
    rw [List.filter_filter]
    apply List.filter_congr
    intro row _
    rw [Option.all_some, follows_eq, Bool.and_comm]
  have hsorted : (matchingRows store filters).Pairwise rowOrder :=
    List.pairwise_insertionSort _ _
  have hnodup := (nodup_matchingRows store filters).of_map
  have hseparates := separates_matchingRows store filters
  rw [queryArtifacts_eq store hbound, rowsAfter, hselected,
    insertionSort_filter ((separates_rows store.artifacts).filter _)]
  rw [h] at hsorted hnodup hseparates
  rw [← matchingRows, h, filter_after_eq hsorted hnodup hseparates]

/-! ## Cursors -/

theorem decodeCursor_encodeCursor (queryKey queryKey' artifactId : String)
    (i : Instant) :
    decodeCursor P (encodeCursor P queryKey i.text artifactId) queryKey' =
      if queryKey = queryKey' then .ok (i.text, artifactId)
      else .error (invalidCursor
        "Artifact cursor does not match the current query.") := by
  rw [decodeCursor, encodeCursor, P.cursorJson_cursorText, cursorPayload]
  by_cases h : queryKey = queryKey'
  · simp [getKey, equalsStr?, h, checkCursorTimestamp, parseTimestamp_text,
      bind, Except.bind, pure, Except.pure]
  · simp [getKey, equalsStr?, h]

variable (P) in
/-- The cursor of a page that ends with the artifact. -/
def cursorOf (queryKey : String) (artifact : ArtifactRecord) : String :=
  encodeCursor P queryKey ((sortValue artifact).toOption.getD "")
    artifact.artifactId

theorem cursorOf_readBack (h : row ∈ store.artifacts.rows) (queryKey : String) :
    cursorOf P queryKey (readBack P row) =
      encodeCursor P queryKey row.sortTimestamp row.artifactId := by
  obtain ⟨observed, created, htimes⟩ := store.timesAre h
  rw [cursorOf, sortValue_readBack htimes]
  rfl

theorem decodeCursor_row (h : row ∈ store.artifacts.rows)
    (queryKey queryKey' : String) :
    decodeCursor P
        (encodeCursor P queryKey row.sortTimestamp row.artifactId) queryKey' =
      if queryKey = queryKey' then .ok (row.sortTimestamp, row.artifactId)
      else .error (invalidCursor
        "Artifact cursor does not match the current query.") := by
  obtain ⟨observed, created, htimes⟩ := store.timesAre h
  rw [htimes.sortTimestamp]
  exact decodeCursor_encodeCursor queryKey queryKey' row.artifactId _

/-- What `list_artifacts` reads: the position of the cursor, and the artifacts
after it. -/
theorem exists_after (hbound : query.bound P = .ok filters)
    {artifacts : List ArtifactRecord}
    (h : StandsAfter (cursorOf P queryKey) (matching store query) cursor
      artifacts) :
    ∃ after, (cursor.mapM fun cursor => decodeCursor P cursor queryKey) =
        .ok after ∧
      ∀ n, queryArtifacts P store.artifacts query after n =
        .ok (artifacts.take n) := by
  cases cursor with
  | none =>
      obtain rfl : matching store query = artifacts := h
      exact ⟨none, rfl, queryArtifacts_none hbound⟩
  | some cursor =>
      obtain ⟨before, last, hmatching, rfl⟩ := h
      rw [matching_eq hbound, List.map_eq_append_iff] at hmatching
      obtain ⟨rowsBefore, rows, hrows, -, hmap⟩ := hmatching
      obtain ⟨row, rest, rfl, rfl, rfl⟩ := List.map_eq_cons_iff.mp hmap
      have hrow : row ∈ store.artifacts.rows := by
        have hmem : row ∈ matchingRows store filters := by
          rw [hrows]
          exact List.mem_append_right _ List.mem_cons_self
        exact (mem_matchingRows.mp hmem).1
      refine ⟨some (row.sortTimestamp, row.artifactId), ?_, fun n => ?_⟩
      · rw [cursorOf_readBack hrow, Option.mapM_some, decodeCursor_row hrow,
          if_pos rfl]
        rfl
      · exact queryArtifacts_some hbound hrows n

/-! ## Pages -/

theorem mem_matching (hbound : query.bound P = .ok filters) :
    artifact ∈ matching store query ↔ ∃ row ∈ store.artifacts.rows,
      filters.selects P row = true ∧ filters.withinTimes row = true ∧
        readBack P row = artifact := by
  rw [matching_eq hbound, List.mem_map]
  simp only [mem_matchingRows, and_assoc]

variable (store query) in
/-- The page of the first artifacts of a list. -/
def firstPage (queryKey : String) (artifacts : List ArtifactRecord) :
    ArtifactPage where
  items := artifacts.take query.limit.toNat
  nextCursor := cursorAfter (cursorOf P queryKey) query.limit.toNat artifacts
  hasMore := decide (query.limit.toNat < artifacts.length)
  returned := (artifacts.take query.limit.toNat).length
  coverage := query.evidenceId.bind store.latestArtifactCoverage

theorem mapM_eq_ok {α β : Type} {o : Option α} {f : α → Except PyError β}
    {g : α → β} (h : ∀ a ∈ o, f a = .ok (g a)) : o.mapM f = .ok (o.map g) := by
  cases o with
  | none => rfl
  | some a =>
      rw [Option.mapM_some, h a rfl]
      rfl

theorem Valid.forM_evidence (h : Valid store query) :
    query.evidenceId.forM store.ensureEvidenceExists = .ok () := by
  cases hid : query.evidenceId with
  | none => rfl
  | some id =>
      have hmem := h.evidence id hid
      simp [Store.ensureEvidenceExists, hmem, pure, Except.pure]

theorem listArtifacts_eq_of_query (hvalid : Valid store query)
    (hkey : queryFingerprint P query = .ok queryKey)
    (hafter : (cursor.mapM fun cursor => decodeCursor P cursor queryKey) =
      .ok after) (artifacts : List ArtifactRecord)
    (hquery : queryArtifacts P store.artifacts query after
      (query.limit.toNat + 1) =
        .ok (artifacts.take (query.limit.toNat + 1)))
    (hsort : ∀ artifact ∈ artifacts, ∃ text,
      sortValue artifact = .ok text) :
    listArtifacts P store query cursor =
      .ok (firstPage store query queryKey artifacts) := by
  have hlimit : ¬ (query.limit < 1 ∨ query.limit > 1000) := by
    have := hvalid.limit
    omega
  have hmore : query.limit.toNat <
      (artifacts.take (query.limit.toNat + 1)).length ↔
      query.limit.toNat < artifacts.length := by
    rw [List.length_take]
    omega
  have hmin : min query.limit.toNat (query.limit.toNat + 1) =
      query.limit.toNat := by omega
  have hcursor : ((if query.limit.toNat < artifacts.length then
      (artifacts.take query.limit.toNat).getLast? else none).mapM
        (cursorAt P queryKey)) =
      .ok (cursorAfter (cursorOf P queryKey) query.limit.toNat
        artifacts) := by
    rw [mapM_eq_ok (g := cursorOf P queryKey)]
    · rw [cursorAfter]
      split
      · rfl
      · rfl
    · intro last hlast
      rw [Option.mem_def, Option.ite_none_right_eq_some] at hlast
      obtain ⟨text, htext⟩ := hsort last
        (List.mem_of_mem_take (List.mem_of_getLast? hlast.2))
      rw [cursorAt, cursorOf, htext]
      rfl
  simp only [listArtifacts, Store.ensureCaseExists, hvalid.case,
    hvalid.forM_evidence, hkey, hafter, hquery, hlimit, not_true_eq_false,
    if_false, decide_eq_true_eq, gt_iff_lt, hmore, hmin, List.take_take,
    hcursor, pure, bind, Except.bind, Except.pure]
  rfl

theorem exists_sortValue (h : row ∈ store.artifacts.rows) :
    ∃ text, sortValue (readBack P row) = .ok text := by
  obtain ⟨observed, created, htimes⟩ := store.timesAre h
  exact ⟨_, sortValue_readBack htimes⟩

theorem exists_sortValue_of_mem
    (h : artifact ∈ (rowsAfter store filters after).map (readBack P)) :
    ∃ text, sortValue artifact = .ok text := by
  obtain ⟨row, hrow, rfl⟩ := List.mem_map.mp h
  exact exists_sortValue (mem_rows_of_mem_rowsAfter hrow)

theorem listArtifacts_eq (hvalid : Valid store query)
    (hkey : queryFingerprint P query = .ok queryKey)
    {artifacts : List ArtifactRecord}
    (h : StandsAfter (cursorOf P queryKey) (matching store query) cursor
      artifacts) :
    listArtifacts P store query cursor =
      .ok (firstPage store query queryKey artifacts) := by
  obtain ⟨filters, hbound⟩ := hvalid.times
  obtain ⟨after, hafter, hquery⟩ := exists_after hbound h
  exact listArtifacts_eq_of_query hvalid hkey hafter artifacts (hquery _)
    fun artifact hmem => by
      obtain ⟨row, hrow, -, -, rfl⟩ :=
        (mem_matching hbound).mp (h.isSuffix.mem hmem)
      exact exists_sortValue hrow

theorem exists_queryKey (hbound : query.bound P = .ok filters) :
    ∃ document, queryDocument P query = .ok document ∧
      queryFingerprint P query =
        .ok (canonicalSha256 P.sha256 document []) := by
  rw [ArtifactQuery.bound] at hbound
  obtain ⟨observedFrom, hfrom, hbound⟩ := bind_ok hbound
  obtain ⟨observedTo, hto, -⟩ := bind_ok hbound
  have hdocument : ∃ document, queryDocument P query = .ok document := by
    rw [queryDocument, hfrom]
    simp only [bind, Except.bind, hto]
    exact ⟨_, rfl⟩
  obtain ⟨document, hdocument⟩ := hdocument
  refine ⟨document, hdocument, ?_⟩
  rw [queryFingerprint, hdocument]
  rfl

/-- Following the cursors reads the artifacts that match, in the order of the
columns. -/
theorem follow_listArtifacts (hvalid : Valid store query) :
    ∃ pages, follow (listArtifacts P store query) (·.nextCursor)
        ((matching store query).length + 1) none = .ok pages ∧
      pages.flatMap (·.items) = matching store query ∧
      ∀ page ∈ pages, (page.items.length : ℤ) ≤ query.limit := by
  obtain ⟨filters, hbound⟩ := hvalid.times
  obtain ⟨document, -, hkey⟩ := exists_queryKey hbound
  have hlow := hvalid.limit.1
  have hpos : 0 < query.limit.toNat := by omega
  have hstart : StandsAfter
      (cursorOf P (canonicalSha256 P.sha256 document []))
      (matching store query) none (matching store query) := rfl
  refine follow_eq_ok (fun cursor artifacts hstands => ?_) hstart
    (Nat.lt_succ_self _)
  refine ⟨_, listArtifacts_eq hvalid hkey hstands,
    fetched_of_take hpos hstands rfl rfl, ?_⟩
  have hlength := List.length_take_le query.limit.toNat artifacts
  simp only [firstPage]
  omega

/-! ## The order of time -/

theorem rowOrder_iff {a b : ArtifactRow} (ha : a ∈ store.artifacts.rows)
    (hb : b ∈ store.artifacts.rows) :
    rowOrder a b ↔ orderBy (fun x : ArtifactRecord => x.time.utcMicros)
      ArtifactRecord.artifactId (readBack P a) (readBack P b) := by
  obtain ⟨observed, created, htimes⟩ := store.timesAre ha
  obtain ⟨observed', created', htimes'⟩ := store.timesAre hb
  change (a.sortTimestamp < b.sortTimestamp ∨
      (a.sortTimestamp = b.sortTimestamp ∧ a.artifactId ≤ b.artifactId)) ↔
    (readBack P a).time.utcMicros < (readBack P b).time.utcMicros ∨
      ((readBack P a).time.utcMicros = (readBack P b).time.utcMicros ∧
        a.artifactId ≤ b.artifactId)
  rw [time_readBack htimes, time_readBack htimes', htimes.sortTimestamp,
    htimes'.sortTimestamp, Instant.text_lt_text_iff,
    Instant.text_injective.eq_iff]
  exact or_congr_right (and_congr_left' Instant.micros_inj.symm)

theorem pairwise_matching (hbound : query.bound P = .ok filters) :
    (matching store query).Pairwise
      (orderBy (fun x : ArtifactRecord => x.time.utcMicros)
        ArtifactRecord.artifactId) := by
  have hsorted : (matchingRows store filters).Pairwise rowOrder :=
    List.pairwise_insertionSort _ _
  rw [matching_eq hbound, List.pairwise_map]
  exact hsorted.imp_of_mem fun ha hb h =>
    (rowOrder_iff (mem_matchingRows.mp ha).1 (mem_matchingRows.mp hb).1).mp h

theorem all_text_iff (le : String → String → Bool) (leMicros : ℤ → ℤ → Prop)
    (hle : ∀ j i : Instant,
      le j.text i.text = true ↔ leMicros j.micros i.micros)
    {t : Option Datetime} {text : Option String}
    (h : t.mapM toJsonTimestamp = .ok text) (i : Instant) :
    (text.all fun t => le t i.text) = true ↔
      ∀ d ∈ t, leMicros d.utcMicros i.micros := by
  cases t with
  | none =>
      obtain rfl := Except.ok.inj h
      simp
  | some d =>
      rw [Option.mapM_some] at h
      obtain ⟨text, htext, h⟩ := bind_ok h
      obtain rfl := Except.ok.inj h
      obtain ⟨j, hj, rfl⟩ := exists_instant_of_toJsonTimestamp htext
      rw [Option.all_some, hle, hj]
      simp

variable (P query) in
/-- The artifact of the row is within the times of the query. -/
def WithinTimes (row : ArtifactRow) : Prop :=
  (∀ d ∈ query.observedFrom,
    d.utcMicros ≤ (readBack P row).time.utcMicros) ∧
  ∀ d ∈ query.observedTo, (readBack P row).time.utcMicros ≤ d.utcMicros

theorem withinTimes_iff (hbound : query.bound P = .ok filters)
    (hrow : row ∈ store.artifacts.rows) :
    filters.withinTimes row = true ↔ WithinTimes P query row := by
  obtain ⟨observed, created, htimes⟩ := store.timesAre hrow
  rw [ArtifactQuery.bound] at hbound
  obtain ⟨observedFrom, hfrom, hbound⟩ := bind_ok hbound
  obtain ⟨observedTo, hto, hbound⟩ := bind_ok hbound
  obtain rfl := Except.ok.inj hbound
  rw [BoundFilters.withinTimes, Bool.and_eq_true, WithinTimes,
    time_readBack htimes, htimes.sortTimestamp]
  exact and_congr
    (all_text_iff (fun t x => t ≤ x) (· ≤ ·) Instant.decide_text_le_iff hfrom _)
    (all_text_iff (fun t x => x ≤ t) (· ≥ ·)
      (fun j i => Instant.decide_text_le_iff i j) hto _)

/-! ## Cursors that were issued -/

theorem exists_rows_of_ok (h : listArtifacts P store query cursor = .ok page) :
    ∃ filters queryKey, ∃ rows : List ArtifactRow, Valid store query ∧
      query.bound P = .ok filters ∧
      queryFingerprint P query = .ok queryKey ∧
      (∀ c ∈ cursor, ∃ after, decodeCursor P c queryKey = .ok after) ∧
      (∀ row ∈ rows, row ∈ store.artifacts.rows) ∧
      rows.length ≤ (matching store query).length ∧
      page = firstPage store query queryKey (rows.map (readBack P)) := by
  have hpage := h
  rw [listArtifacts] at h
  obtain ⟨_, hcase, h⟩ := bind_ok h
  obtain ⟨_, hevidence, h⟩ := bind_ok h
  obtain ⟨hlimit, h⟩ := check_ok h
  obtain ⟨queryKey, hkey, h⟩ := bind_ok h
  obtain ⟨after, hafter, h⟩ := bind_ok h
  obtain ⟨records, hrecords, h⟩ := bind_ok h
  obtain ⟨filters, hbound⟩ : ∃ filters, query.bound P = .ok filters := by
    rw [queryArtifacts] at hrecords
    obtain ⟨filters, hbound, -⟩ := bind_ok hrecords
    exact ⟨filters, hbound⟩
  have hvalid : Valid store query := by
    refine ⟨?_, fun id hid => ?_, by omega, filters, hbound⟩
    · by_contra hnot
      simp [Store.ensureCaseExists, hnot] at hcase
    · by_contra hnot
      rw [hid] at hevidence
      simp [Store.ensureEvidenceExists, hnot] at hevidence
  refine ⟨filters, queryKey, rowsAfter store filters after, hvalid, hbound,
    hkey, ?_, fun row => mem_rows_of_mem_rowsAfter, ?_, ?_⟩
  · intro c hc
    rw [Option.mem_def.mp hc, Option.mapM_some] at hafter
    obtain ⟨after, hdecoded, -⟩ := bind_ok hafter
    exact ⟨after, hdecoded⟩
  · rw [matching_eq hbound, List.length_map, rowsAfter, matchingRows,
      List.length_insertionSort, List.length_insertionSort]
    refine List.Sublist.length_le
      (List.monotone_filter_right _ fun row hrow => ?_)
    exact (Bool.and_eq_true_iff.mp hrow).1
  · have heq := listArtifacts_eq_of_query hvalid hkey hafter _
      (queryArtifacts_eq store hbound after _)
      fun artifact => exists_sortValue_of_mem
    exact Except.ok.inj (hpage.symm.trans heq)

/-! ## Queries that take each other's cursors -/

variable (store query) in
/-- The cursor was returned by a listing of the query. -/
def Issued (cursor : String) : Prop :=
  ∃ c page, listArtifacts P store query c = .ok page ∧
    page.nextCursor = some cursor

theorem exists_last_row {c : Option String} {cursor : String}
    (h : listArtifacts P store query c = .ok page)
    (hnext : page.nextCursor = some cursor) :
    query.limit < (matching store query).length ∧
      ∃ row ∈ store.artifacts.rows, ∃ queryKey,
        page.items.getLast? = some (readBack P row) ∧
        queryFingerprint P query = .ok queryKey ∧
        cursor = encodeCursor P queryKey row.sortTimestamp row.artifactId := by
  obtain ⟨filters, queryKey, rows, hvalid, hbound, hkey, -, hrows, hlength,
    rfl⟩ := exists_rows_of_ok h
  simp only [firstPage, cursorAfter, Option.ite_none_right_eq_some,
    Option.map_eq_some_iff, List.length_map] at hnext
  obtain ⟨hlt, last, hlast, rfl⟩ := hnext
  refine ⟨by omega, ?_⟩
  obtain ⟨row, hrow, rfl⟩ := List.mem_map.mp
    (List.mem_of_mem_take (List.mem_of_getLast? hlast))
  exact ⟨row, hrows row hrow, queryKey, hlast, hkey,
    cursorOf_readBack (hrows row hrow) queryKey⟩

theorem isCanonical_of_isScalar {v : Json} (h : v.isScalar = true) :
    canonicalForm v [] = v := by
  rw [canonicalForm, Json.withoutKeys_scalar h, Json.sortKeys_scalar h]

theorem isScalar_optionalInt (value : Option ℤ) :
    (optionalInt value).isScalar = true := by
  cases value <;> rfl

theorem isScalar_optionalBool (value : Option Bool) :
    (optionalBool value).isScalar = true := by
  cases value <;> rfl

theorem isCanonical_documentFields (query : ArtifactQuery)
    (observedFrom observedTo : Option String) :
    ∀ p ∈ documentFields P query observedFrom observedTo,
      canonicalForm p.2 [] = p.2 := by
  have htext : ∀ value, canonicalForm (optionalText value) [] =
      optionalText value := fun value =>
    isCanonical_of_isScalar (isScalar_optionalText value)
  have hint : ∀ value, canonicalForm (optionalInt value) [] =
      optionalInt value := fun value =>
    isCanonical_of_isScalar (isScalar_optionalInt value)
  have hbool : ∀ value, canonicalForm (optionalBool value) [] =
      optionalBool value := fun value =>
    isCanonical_of_isScalar (isScalar_optionalBool value)
  have hstr : ∀ value, canonicalForm (.str value) [] = .str value :=
    fun value => isCanonical_of_isScalar rfl
  have hsort := canonicalForm_texts [] ["observed_or_created_at", "artifact_id"]
  rw [List.map_cons, List.map_cons, List.map_nil] at hsort
  simp only [documentFields, List.forall_mem_cons, List.not_mem_nil,
    false_imp_iff, implies_true, and_true, htext, hint, hbool, hstr, hsort]

def documentKeys : List String :=
  ["case_id", "evidence_id", "source_file_node_id", "artifact_type",
    "artifact_subtype", "analyzer_id", "event_id", "registry_path",
    "executable_name", "media_kind", "browser_profile", "browser_database",
    "browser_table", "browser_row_id", "observed_from", "observed_to",
    "parse_status", "has_warnings", "sort"]

theorem document_eq_of_bytes_eq {document document' : Json}
    (h : queryDocument P query = .ok document)
    (h' : queryDocument P query' = .ok document')
    (hbytes : canonicalJsonBytes document [] =
      canonicalJsonBytes document' []) : document = document' := by
  rw [queryDocument] at h h'
  obtain ⟨observedFrom, -, h⟩ := bind_ok h
  obtain ⟨observedTo, -, h⟩ := bind_ok h
  obtain ⟨observedFrom', -, h'⟩ := bind_ok h'
  obtain ⟨observedTo', -, h'⟩ := bind_ok h'
  obtain rfl := Except.ok.inj h
  obtain rfl := Except.ok.inj h'
  have hkeys : (documentFields P query observedFrom observedTo).map Prod.fst =
      documentKeys := rfl
  have hnodup : ((documentFields P query observedFrom observedTo).map
      Prod.fst).Nodup := by
    rw [hkeys]
    decide
  exact congrArg Json.obj (eq_of_canonicalForm_obj_eq rfl hnodup
    (isCanonical_documentFields query observedFrom observedTo)
    (isCanonical_documentFields query' observedFrom' observedTo')
    (canonicalForm_eq_of_bytes_eq hbytes))

theorem takes_cursor (hvalid' : Valid store query') {cursor : String}
    (hissued : Issued store query cursor)
    (hsame : queryDocument P query = queryDocument P query') :
    ∃ page, listArtifacts P store query' (some cursor) = .ok page := by
  obtain ⟨c, page, hpage, hnext⟩ := hissued
  obtain ⟨-, row, hrow, queryKey, -, hkey, rfl⟩ := exists_last_row hpage hnext
  obtain ⟨filters', hbound'⟩ := hvalid'.times
  have hkey' : queryFingerprint P query' = .ok queryKey := by
    rw [← hkey, queryFingerprint, queryFingerprint, hsame]
  have hdecoded := decodeCursor_row hrow queryKey queryKey
  rw [if_pos rfl] at hdecoded
  have hafter : ((some (encodeCursor P queryKey row.sortTimestamp
      row.artifactId)).mapM fun cursor => decodeCursor P cursor queryKey) =
      .ok (some (row.sortTimestamp, row.artifactId)) := by
    rw [Option.mapM_some, hdecoded]
    rfl
  exact ⟨_, listArtifacts_eq_of_query hvalid' hkey' hafter _
    (queryArtifacts_eq store hbound' _ _)
    fun artifact => exists_sortValue_of_mem⟩

theorem queryKey_eq_of_takes {cursor : String}
    (hissued : Issued store query cursor)
    (h : listArtifacts P store query' (some cursor) = .ok page) :
    Valid store query' ∧ ∃ queryKey, queryFingerprint P query = .ok queryKey ∧
      queryFingerprint P query' = .ok queryKey := by
  obtain ⟨c, page, hpage, hnext⟩ := hissued
  obtain ⟨-, row, hrow, queryKey, -, hkey, rfl⟩ := exists_last_row hpage hnext
  obtain ⟨filters', queryKey', rows, hvalid', -, hkey', hdecoded, -⟩ :=
    exists_rows_of_ok h
  obtain ⟨after, hafter⟩ := hdecoded _ rfl
  rw [decodeCursor_row hrow] at hafter
  split_ifs at hafter with hsame
  exact ⟨hvalid', queryKey, hkey, hsame ▸ hkey'⟩

/-! ## The listing as a whole -/

variable (store query) in
/-- Following the cursors returns the matching artifacts, each once, in the
order of time and id, and a cursor carries the columns of the last row. -/
structure Paged : Prop where
  complete : ∃ pages, follow (listArtifacts P store query) (·.nextCursor)
      ((matching store query).length + 1) none = .ok pages ∧
    pages.flatMap (·.items) = matching store query ∧
    ∀ page ∈ pages, (page.items.length : ℤ) ≤ query.limit
  once : ((matching store query).map ArtifactRecord.artifactId).Nodup
  exactly : ∀ filters, query.bound P = .ok filters → ∀ artifact,
    artifact ∈ matching store query ↔ ∃ row ∈ store.artifacts.rows,
      filters.selects P row = true ∧ WithinTimes P query row ∧
        readBack P row = artifact
  ordered : (matching store query).Pairwise
    (orderBy (fun x : ArtifactRecord => x.time.utcMicros)
      ArtifactRecord.artifactId)
  stamped : ∀ c page cursor, listArtifacts P store query c = .ok page →
    page.nextCursor = some cursor →
      ∃ row ∈ store.artifacts.rows, ∃ queryKey,
        page.items.getLast? = some (readBack P row) ∧
        queryFingerprint P query = .ok queryKey ∧
        cursor = encodeCursor P queryKey row.sortTimestamp row.artifactId

variable (store query) in
/-- A query with other filters rejects the cursors. -/
def Confined (query' : ArtifactQuery) : Prop :=
  ∀ cursor, Issued store query cursor → query.bound P ≠ query'.bound P →
    ∃ error, listArtifacts P store query' (some cursor) = .error error

theorem paged (hvalid : Valid store query) : Paged store query := by
  obtain ⟨filters, hbound⟩ := hvalid.times
  refine ⟨follow_listArtifacts hvalid, ?_, ?_, pairwise_matching hbound, ?_⟩
  · rw [matching_eq hbound, List.map_map]
    exact nodup_matchingRows store filters
  · intro filters' hbound' artifact
    rw [mem_matching hbound']
    refine exists_congr fun row => and_congr_right fun hrow => ?_
    rw [withinTimes_iff hbound' hrow]
  · intro c page cursor hpage hnext
    exact (exists_last_row hpage hnext).2

theorem exists_issued (hvalid : Valid store query)
    (h : query.limit < (matching store query).length) :
    ∃ cursor, Issued store query cursor := by
  obtain ⟨filters, hbound⟩ := hvalid.times
  obtain ⟨document, -, hkey⟩ := exists_queryKey hbound
  have hlow := hvalid.limit.1
  have hstart : StandsAfter
      (cursorOf P (canonicalSha256 P.sha256 document []))
      (matching store query) none (matching store query) := rfl
  have hpage := listArtifacts_eq hvalid hkey hstart
  have hmore : cursorAfter (cursorOf P (canonicalSha256 P.sha256 document []))
      query.limit.toNat (matching store query) ≠ none := by
    rw [Ne, cursorAfter_eq_none_iff (by omega)]
    omega
  obtain ⟨cursor, hcursor⟩ := Option.ne_none_iff_exists'.mp hmore
  exact ⟨cursor, none, _, hpage, hcursor⟩

variable (P) in
/-- The filters of two queries agree, each as the digest of a query takes
it. -/
structure DigestedAlike (query query' : ArtifactQuery) : Prop where
  caseId : query.caseId = query'.caseId
  evidenceId : query.evidenceId = query'.evidenceId
  sourceFileNodeId : query.sourceFileNodeId = query'.sourceFileNodeId
  artifactType : query.artifactType = query'.artifactType
  artifactSubtype : query.artifactSubtype = query'.artifactSubtype
  analyzerId : query.analyzerId = query'.analyzerId
  eventId : query.eventId = query'.eventId
  registryPath : comparisonText P query.registryPath =
    comparisonText P query'.registryPath
  executableName : comparisonText P query.executableName =
    comparisonText P query'.executableName
  mediaKind : comparisonText P query.mediaKind =
    comparisonText P query'.mediaKind
  browserProfile : comparisonText P query.browserProfile =
    comparisonText P query'.browserProfile
  browserDatabase : comparisonText P query.browserDatabase =
    comparisonText P query'.browserDatabase
  browserTable : comparisonText P query.browserTable =
    comparisonText P query'.browserTable
  browserRowId : query.browserRowId = query'.browserRowId
  observedFrom : query.observedFrom.map Datetime.utcMicros =
    query'.observedFrom.map Datetime.utcMicros
  observedTo : query.observedTo.map Datetime.utcMicros =
    query'.observedTo.map Datetime.utcMicros
  parseStatus : query.parseStatus = query'.parseStatus
  hasWarnings : query.hasWarnings = query'.hasWarnings

variable (P) in
/-- The texts that the digest folds agree, each as its clause compares it. -/
structure ComparedAlike (query query' : ArtifactQuery) : Prop where
  registryPath : query.registryPath.map P.casefold =
    query'.registryPath.map P.casefold
  executableName : query.executableName.map P.casefold =
    query'.executableName.map P.casefold
  mediaKind : query.mediaKind.map P.upper = query'.mediaKind.map P.upper
  browserProfile : query.browserProfile.map P.casefold =
    query'.browserProfile.map P.casefold
  browserDatabase : query.browserDatabase.map P.casefold =
    query'.browserDatabase.map P.casefold
  browserTable : query.browserTable = query'.browserTable

theorem artifactType_value_injective :
    Function.Injective ArtifactType.value := by
  let all : List ArtifactType := [.registryKey, .registryValue,
    .registryAutorun, .registryUsbDevice, .registryTimezone,
    .registryUserassist, .eventLogRecord, .prefetchExecution, .mediaImage,
    .mediaVideo, .mediaAudio, .browserProfile, .browserVisit, .browserSearch,
    .browserDownload, .browserCookie, .browserCredential, .browserCacheEntry,
    .browserDeletedSqliteRow, .browserPrivateModeCandidate,
    .communicationProfile, .communicationAccount, .communicationConversation,
    .communicationMessage, .communicationAttachment,
    .communicationUnsupportedStore, .unknownWindowsArtifact]
  have hmem : ∀ t : ArtifactType, t ∈ all := by
    intro t
    cases t <;> decide
  have hnodup : (all.map ArtifactType.value).Nodup := by decide +kernel
  intro a b h
  exact List.inj_on_of_nodup_map hnodup (hmem a) (hmem b) h

theorem ArtifactParseStatus.value_injective :
    Function.Injective ArtifactParseStatus.value := by
  intro a b h
  cases a <;> cases b <;> first | rfl | exact absurd h (by decide)

theorem optionalInt_injective : Function.Injective optionalInt := by
  intro a b h
  cases a <;> cases b <;> simp_all [optionalInt]

theorem optionalBool_injective : Function.Injective optionalBool := by
  intro a b h
  cases a <;> cases b <;> simp_all [optionalBool]

theorem timestamps_eq_iff {a b : Option Datetime} {s t : Option String}
    (ha : a.mapM toJsonTimestamp = .ok s)
    (hb : b.mapM toJsonTimestamp = .ok t) :
    s = t ↔ a.map Datetime.utcMicros = b.map Datetime.utcMicros := by
  have hinstant : ∀ {a : Option Datetime} {s : Option String},
      a.mapM toJsonTimestamp = .ok s → ∃ i : Option Instant,
        a.map Datetime.utcMicros = i.map Instant.micros ∧
          s = i.map Instant.text := by
    intro a s h
    cases a with
    | none => exact ⟨none, rfl, (Except.ok.inj h).symm⟩
    | some value =>
        rw [Option.mapM_some] at h
        obtain ⟨text, htext, h⟩ := bind_ok h
        obtain ⟨i, hi, rfl⟩ := exists_instant_of_toJsonTimestamp htext
        exact ⟨some i, congrArg some hi.symm, (Except.ok.inj h).symm⟩
  obtain ⟨i, hi, rfl⟩ := hinstant ha
  obtain ⟨j, hj, rfl⟩ := hinstant hb
  have hmicros : Function.Injective Instant.micros := fun i j h =>
    Instant.micros_inj.mp h
  rw [hi, hj, (Option.map_injective Instant.text_injective).eq_iff,
    (Option.map_injective hmicros).eq_iff]

/-- Two queries have one document exactly when their filters are digested
alike. -/
theorem queryDocument_eq_iff (hvalid : Valid store query)
    (hvalid' : Valid store query') :
    queryDocument P query = queryDocument P query' ↔
      DigestedAlike P query query' := by
  obtain ⟨filters, hbound⟩ := hvalid.times
  obtain ⟨filters', hbound'⟩ := hvalid'.times
  rw [ArtifactQuery.bound] at hbound hbound'
  obtain ⟨observedFrom, hfrom, hbound⟩ := bind_ok hbound
  obtain ⟨observedTo, hto, -⟩ := bind_ok hbound
  obtain ⟨observedFrom', hfrom', hbound'⟩ := bind_ok hbound'
  obtain ⟨observedTo', hto', -⟩ := bind_ok hbound'
  have hdocument : queryDocument P query =
      .ok (.obj (documentFields P query observedFrom observedTo)) := by
    rw [queryDocument, hfrom, ok_bind, hto, ok_bind]
    rfl
  have hdocument' : queryDocument P query' =
      .ok (.obj (documentFields P query' observedFrom' observedTo')) := by
    rw [queryDocument, hfrom', ok_bind, hto', ok_bind]
    rfl
  have htext : ∀ a b, optionalText a = optionalText b ↔ a = b := fun a b =>
    ⟨optionalText_inj, congrArg optionalText⟩
  have htype := (Option.map_injective artifactType_value_injective).eq_iff
    (a := query.artifactType) (b := query'.artifactType)
  have hstatus := (Option.map_injective
    ArtifactParseStatus.value_injective).eq_iff
    (a := query.parseStatus) (b := query'.parseStatus)
  rw [hdocument, hdocument', Except.ok.injEq, Json.obj.injEq]
  simp only [documentFields, List.cons.injEq, Prod.mk.injEq, true_and, and_true,
    Json.str.injEq, htext, htype, hstatus, optionalInt_injective.eq_iff,
    optionalBool_injective.eq_iff, timestamps_eq_iff hfrom hfrom',
    timestamps_eq_iff hto hto']
  constructor
  · rintro ⟨h1, h2, h3, h4, h5, h6, h7, h8, h9, h10, h11, h12, h13, h14, h15,
      h16, h17, h18⟩
    exact ⟨h1, h2, h3, h4, h5, h6, h7, h8, h9, h10, h11, h12, h13, h14, h15,
      h16, h17, h18⟩
  · intro h
    exact ⟨h.caseId, h.evidenceId, h.sourceFileNodeId, h.artifactType,
      h.artifactSubtype, h.analyzerId, h.eventId, h.registryPath,
      h.executableName, h.mediaKind, h.browserProfile, h.browserDatabase,
      h.browserTable, h.browserRowId, h.observedFrom, h.observedTo,
      h.parseStatus, h.hasWarnings⟩

/-- Filters that are digested alike are bound alike exactly when their folded
texts are compared alike. -/
theorem bound_eq_iff (hvalid : Valid store query) (hvalid' : Valid store query')
    (h : DigestedAlike P query query') :
    query.bound P = query'.bound P ↔ ComparedAlike P query query' := by
  obtain ⟨filters, hbound⟩ := hvalid.times
  obtain ⟨filters', hbound'⟩ := hvalid'.times
  rw [hbound, hbound', Except.ok.injEq]
  rw [ArtifactQuery.bound] at hbound hbound'
  obtain ⟨observedFrom, hfrom, hbound⟩ := bind_ok hbound
  obtain ⟨observedTo, hto, hbound⟩ := bind_ok hbound
  obtain ⟨observedFrom', hfrom', hbound'⟩ := bind_ok hbound'
  obtain ⟨observedTo', hto', hbound'⟩ := bind_ok hbound'
  obtain rfl := Except.ok.inj hbound
  obtain rfl := Except.ok.inj hbound'
  have hsameFrom := (timestamps_eq_iff hfrom hfrom').mpr h.observedFrom
  have hsameTo := (timestamps_eq_iff hto hto').mpr h.observedTo
  simp only [BoundFilters.mk.injEq, h.caseId, h.evidenceId, h.sourceFileNodeId,
    h.artifactType, h.artifactSubtype, h.analyzerId, h.eventId, h.browserRowId,
    hsameFrom, hsameTo, h.parseStatus, h.hasWarnings, true_and, and_true]
  constructor
  · rintro ⟨h1, h2, h3, h4, h5, h6⟩
    exact ⟨h1, h2, h3, h4, h5, h6⟩
  · intro h
    exact ⟨h.registryPath, h.executableName, h.mediaKind, h.browserProfile,
      h.browserDatabase, h.browserTable⟩

/-- A query is paged soundly against another exactly when, as soon as it has a
second page, filters that are digested alike are compared alike. -/
theorem paged_and_confined_iff (query query' : ArtifactQuery)
    (hvalid : Valid store query)
    (hsha : ∀ document document', queryDocument P query = .ok document →
      queryDocument P query' = .ok document' →
      canonicalSha256 P.sha256 document [] =
        canonicalSha256 P.sha256 document' [] →
      canonicalJsonBytes document [] = canonicalJsonBytes document' []) :
    Paged store query ∧ Confined store query query' ↔
      (query.limit < (matching store query).length → Valid store query' →
        DigestedAlike P query query' → ComparedAlike P query query') := by
  constructor
  · rintro ⟨-, hconfined⟩ hmore hvalid' halike
    by_contra hcompared
    have hsame := (queryDocument_eq_iff hvalid hvalid').mpr halike
    have hbound := mt (bound_eq_iff hvalid hvalid' halike).mp hcompared
    obtain ⟨cursor, hissued⟩ := exists_issued hvalid hmore
    obtain ⟨error, herror⟩ := hconfined cursor hissued hbound
    obtain ⟨page, hpage⟩ := takes_cursor hvalid' hissued hsame
    rw [hpage] at herror
    cases herror
  · intro h
    refine ⟨paged hvalid, fun cursor hissued hbound => ?_⟩
    cases hlisted : listArtifacts P store query' (some cursor) with
    | error error => exact ⟨error, rfl⟩
    | ok page =>
        obtain ⟨hvalid', queryKey, hkey, hkey'⟩ :=
          queryKey_eq_of_takes hissued hlisted
        obtain ⟨c, first, hfirst, hnext⟩ := hissued
        have hmore := (exists_last_row hfirst hnext).1
        refine absurd ?_ hbound
        suffices halike : DigestedAlike P query query' from
          (bound_eq_iff hvalid hvalid' halike).mpr (h hmore hvalid' halike)
        apply (queryDocument_eq_iff hvalid hvalid').mp
        rw [queryFingerprint] at hkey hkey'
        obtain ⟨document, hdocument, hkey⟩ := bind_ok hkey
        obtain ⟨document', hdocument', hkey'⟩ := bind_ok hkey'
        have hdigest : canonicalSha256 P.sha256 document [] =
            canonicalSha256 P.sha256 document' [] :=
          (Except.ok.inj hkey).trans (Except.ok.inj hkey').symm
        rw [hdocument, hdocument', document_eq_of_bytes_eq hdocument hdocument'
          (hsha _ _ hdocument hdocument' hdigest)]

end

/-! ## One spelling of a table and another -/

/-- A platform for ASCII texts whose cursors are the JSON texts themselves; a
text has its bytes for a digest. -/
noncomputable def plainPlatform : Platform where
  casefold s := String.ofList (s.toList.map Char.toLower)
  nfc s := s
  upper s := String.ofList (s.toList.map Char.toUpper)
  sha256 := FileSystem.jsonTextPlatform.sha256
  str
    | .str s => s
    | value => String.ofList value.render
  int
    | .int n => some n
    | _ => none
  fromisoformat text := by
    classical
    exact if h : ∃ i : Instant,
        String.ofList (i.clock ++ "+00:00".toList) = text then
        some h.choose.toDatetime
      else none
  cursorText payload := String.ofList payload.render
  cursorJson text := by
    classical
    exact if h : ∃ payload : Json, String.ofList payload.render = text then
        some h.choose
      else none
  sqlJsonText value := String.ofList value.render
  sqlRealText text := String.ofList text
  sqlRealInteger _ := 0
  fromisoformat_clock i := by
    have h : ∃ j : Instant, String.ofList (j.clock ++ "+00:00".toList) =
        String.ofList (i.clock ++ "+00:00".toList) := ⟨i, rfl⟩
    have hclock := List.append_cancel_right
      (String.ofList_injective h.choose_spec)
    have htext : h.choose.text = i.text := by
      rw [Instant.text, Instant.text, hclock]
    rw [dif_pos h, Instant.text_injective htext]
  cursorJson_cursorText queryKey sortValue artifactId := by
    have h : ∃ payload : Json, String.ofList payload.render = String.ofList
        (cursorPayload queryKey sortValue artifactId).render := ⟨_, rfl⟩
    rw [dif_pos h]
    exact congrArg some
      (Json.render_injective (String.ofList_injective h.choose_spec))

def tableArtifact (id : String) : ArtifactRecord where
  artifactId := id
  caseId := "case"
  evidenceId := "evidence"
  sourceFileNodeId := "node"
  artifactType := .browserVisit
  artifactSubtype := "visit"
  analyzerId := "browser"
  observedAtUtc := none
  fields := [("table", .str "urls")]
  warnings := []
  parseStatus := .success
  createdAt := ⟨0, some 0⟩

def tableRow (id : String) : ArtifactRow where
  artifactId := id
  caseId := "case"
  evidenceId := "evidence"
  sourceFileNodeId := "node"
  artifactType := .browserVisit
  artifactSubtype := "visit"
  analyzerId := "browser"
  observedAtUtc := none
  sortTimestamp := "1970-01-01T00:00:00.000000Z"
  fieldsJson := [("table", .str "urls")]
  warningsJson := []
  parseStatus := .success
  createdAt := "1970-01-01T00:00:00.000000Z"
  eventId := none
  registryPathKey := none
  executableNameKey := none
  hasWarnings := false

theorem artifactValues_tableArtifact (id : String) :
    artifactValues plainPlatform (tableArtifact id) = .ok (tableRow id) := by
  have htime : toJsonTimestamp ⟨0, some 0⟩ =
      .ok "1970-01-01T00:00:00.000000Z" := rfl
  simp only [artifactValues, tableArtifact, Option.mapM_none, Option.getD_none,
    htime]
  rfl

def tableStore : Store plainPlatform where
  cases := ["case"]
  evidence := ["evidence"]
  artifacts := {
    rows := [tableRow "1", tableRow "2"]
    keys_nodup := by decide }
  coverage := []
  written row hrow := by
    simp only [List.mem_cons, List.not_mem_nil, or_false] at hrow
    rcases hrow with rfl | rfl
    · exact ⟨_, artifactValues_tableArtifact "1"⟩
    · exact ⟨_, artifactValues_tableArtifact "2"⟩

def tableQuery (table : String) : ArtifactQuery where
  caseId := "case"
  browserTable := some table
  limit := 1

theorem valid_tableQuery (table : String) :
    Valid tableStore (tableQuery table) where
  case := List.mem_singleton.mpr rfl
  evidence _ h := nomatch h
  limit := by simp [tableQuery]
  times := ⟨_, rfl⟩

theorem length_matching_tableStore :
    (tableQuery "urls").limit <
      (matching tableStore (tableQuery "urls")).length := by
  have hbound : (tableQuery "urls").bound plainPlatform = .ok _ := rfl
  rw [matching_eq hbound, List.length_map]
  decide +kernel

/-- The digest does not tell the names of two tables apart that the query
does; each takes the cursors of the other. -/
theorem other_table_takes_cursor :
    ¬ Confined tableStore (tableQuery "urls") (tableQuery "URLS") := by
  intro hconfined
  have hdocument : queryDocument plainPlatform (tableQuery "urls") =
      queryDocument plainPlatform (tableQuery "URLS") := by
    have htable : comparisonText plainPlatform (some "urls") =
        comparisonText plainPlatform (some "URLS") := by
      decide +kernel
    simp only [queryDocument, documentFields, tableQuery, htable]
  have hbound : (tableQuery "urls").bound plainPlatform ≠
      (tableQuery "URLS").bound plainPlatform := by
    intro h
    have htables := congrArg BoundFilters.browserTable (Except.ok.inj h)
    exact absurd htables (by decide)
  obtain ⟨cursor, hissued⟩ := exists_issued (valid_tableQuery "urls")
    length_matching_tableStore
  obtain ⟨error, herror⟩ := hconfined cursor hissued hbound
  obtain ⟨page, hpage⟩ := takes_cursor (valid_tableQuery "URLS") hissued
    hdocument
  rw [hpage] at herror
  cases herror

theorem paged_and_confined_tableQuery :
    Paged tableStore (tableQuery "urls") ∧
      Confined tableStore (tableQuery "urls") (tableQuery "visits") := by
  refine (paged_and_confined_iff (tableQuery "urls") (tableQuery "visits")
    (valid_tableQuery "urls") ?_).mpr ?_
  · intro document document' _ _ h
    exact FileSystem.jsonTextPlatform_sha256_injective h
  · intro _ _ halike
    have htexts : comparisonText plainPlatform (some "urls") =
        comparisonText plainPlatform (some "visits") := halike.browserTable
    exact absurd htexts (by decide +kernel)

end ApexForensic.Artifacts
