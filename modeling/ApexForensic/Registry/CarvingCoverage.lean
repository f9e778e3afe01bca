import ApexForensic.Registry.CarvingLimit
import Mathlib.Data.List.Pairwise

/-!
# Where candidates come from

Each candidate is a whole free cell or a place in the slack of a bin.  So they
stay inside their bin, clear of its allocated cells, and have different
offsets.  Records of cells inside a larger free cell, or in the slack, are not
among them: of a free cell only the first record is read, and in the slack the
signature is looked for where the size of a cell would stand.
-/

namespace ApexForensic.Registry

open ApexForensic.Partitions (slice)

/-! ## Records and the cells that hold them -/

/-- A key or a value record whose fields are within bounds. -/
inductive WellFormed (isPrintable : Char → Bool) (data : List UInt8)
    (body available : ℕ) : CandidateType → Prop where
  | nk {nameLength : ℕ}
      (signature : slice data body (body + 2) = CandidateType.nk.signature)
      (read : u16 data (body + 72) = some nameLength)
      (pos : 1 ≤ nameLength) (le : nameLength ≤ maxNameBytes)
      (fits : 76 + nameLength ≤ available)
      (credible : plausibleName isPrintable
        (decodeName (slice data (body + 76) (body + 76 + nameLength))
          (((u16 data (body + 2)).getD 0).testBit 5)) = true) :
      WellFormed isPrintable data body available .nk
  | vk {nameLength rawSize typeId : ℕ}
      (signature : slice data body (body + 2) = CandidateType.vk.signature)
      (read : u16 data (body + 2) = some nameLength)
      (le : nameLength ≤ maxNameBytes)
      (fits : 20 + nameLength ≤ available)
      (size : u32 data (body + 4) = some rawSize)
      (type : u32 data (body + 12) = some typeId)
      (size_le : rawSize % 2 ^ 31 ≤ maxCellSize)
      (credible : plausibleName isPrintable
        (if nameLength = 0 then ['@']
          else decodeName (slice data (body + 20) (body + 20 + nameLength))
            (((u16 data (body + 16)).getD 0).testBit 0)) = true) :
      WellFormed isPrintable data body available .vk

/-- A cell of a bin, at a multiple of eight bytes, that holds a record. -/
structure RecordCell (isPrintable : Char → Bool) (data : List UInt8)
    (hbin : Hbin) (cell : Cell) (kind : CandidateType) : Prop where
  start_le : hbin.offset ≤ cell.offset
  aligned : (cell.offset - hbin.offset) % 8 = 0
  fits : CellFits data hbin.stop cell
  record : WellFormed isPrintable data (cell.offset + 4) (cell.size - 4) kind

/-- A cell in a free cell of a bin, or in its slack. -/
def Unallocated (data : List UInt8) (hbin : Hbin) (cell : Cell) : Prop :=
  (∃ free ∈ hbin.cells data, free.Free ∧ free.offset ≤ cell.offset ∧
    cell.stop ≤ free.stop) ∨
  hbin.slackStart data ≤ cell.offset

/-- The bins of what is taken as a hive. -/
def hiveHbins (data : List UInt8) : List Hbin :=
  if Supported data then hbins data hiveHeaderSize else []

/-- Where the record of a candidate begins. -/
def Candidate.body (c : Candidate) : ℕ :=
  match c.sourceRegion with
  | .freeCell => c.absoluteOffset + 4
  | .hbinSlack => c.absoluteOffset

/-- A candidate for the record of a cell. -/
def Reports (candidates : List Candidate) (cell : Cell)
    (kind : CandidateType) : Prop :=
  ∃ c ∈ candidates, c.candidateType = kind ∧ c.body = cell.offset + 4

/-- Candidates lie in their bin, clear of its allocated cells, at different
offsets. -/
structure Contained (data : List UInt8) (candidates : List Candidate) :
    Prop where
  inside : ∀ c ∈ candidates, ∃ hbin ∈ hiveHbins data,
    c.hbinOffset = hbin.offset ∧ hbin.offset ≤ c.absoluteOffset ∧
      c.stop ≤ hbin.stop
  clear : ∀ c ∈ candidates, ∀ hbin ∈ hiveHbins data,
    c.hbinOffset = hbin.offset → ∀ cell ∈ hbin.cells data, cell.Allocated →
      c.stop ≤ cell.offset ∨ cell.stop ≤ c.absoluteOffset
  distinct : (candidates.map Candidate.absoluteOffset).Nodup

/-- Every record of an unallocated cell has its candidate. -/
def Complete (isPrintable : Char → Bool) (data : List UInt8)
    (candidates : List Candidate) : Prop :=
  ∀ hbin ∈ hiveHbins data, ∀ cell kind,
    RecordCell isPrintable data hbin cell kind →
      Unallocated data hbin cell → Reports candidates cell kind

/-- Every record of an unallocated cell is in a cell of its own: none lies
inside a larger free cell, and none in the slack. -/
def RecordsInWholeCells (isPrintable : Char → Bool) (data : List UInt8) :
    Prop :=
  ∀ hbin ∈ hiveHbins data, ∀ cell kind,
    RecordCell isPrintable data hbin cell kind →
      Unallocated data hbin cell → cell ∈ hbin.cells data

section Parsers

variable {isPrintable : Char → Bool} {data : List UInt8} {site : Site}
  {c : Candidate}

/-! ## What the parsers return -/

/-- A candidate is where its parser was asked to look. -/
structure At (site : Site) (c : Candidate) : Prop where
  region : c.sourceRegion = site.sourceRegion
  offset : c.absoluteOffset = site.offset
  length : c.length = site.length
  hbin : c.hbinOffset = site.hbinOffset

theorem at_of_parseNk (h : parseNk isPrintable data site = some c) :
    At site c := by
  unfold parseNk at h
  split_ifs at h
  dsimp only at h
  split at h
  · cases h
  · split_ifs at h
    obtain rfl := Option.some.inj h
    exact ⟨rfl, rfl, rfl, rfl⟩

theorem at_of_parseVk (h : parseVk isPrintable data site = some c) :
    At site c := by
  unfold parseVk at h
  dsimp only at h
  repeat' split at h
  -- what is left of the branches that return nothing is the last one
  all_goals cases h
  all_goals exact ⟨rfl, rfl, rfl, rfl⟩

theorem at_of_candidateFromBody
    (h : candidateFromBody isPrintable data site = some c) : At site c := by
  unfold candidateFromBody at h
  dsimp only at h
  split_ifs at h
  · exact at_of_parseNk h
  · exact at_of_parseVk h
  · obtain rfl := Option.some.inj h
    exact ⟨rfl, rfl, rfl, rfl⟩

theorem WellFormed.candidateFromBody {kind : CandidateType}
    (h : WellFormed isPrintable data site.absoluteOffset site.available kind) :
    ∃ c, candidateFromBody isPrintable data site = some c ∧
      c.candidateType = kind := by
  unfold Registry.candidateFromBody
  dsimp only
  cases h with
  | nk signature read pos le fits credible =>
      rw [if_pos signature]
      unfold parseNk
      dsimp only
      rw [read]
      dsimp only
      rw [if_neg (by omega), if_neg (by omega), if_neg (by omega),
        if_pos credible]
      exact ⟨_, rfl, rfl⟩
  | vk signature read le fits size type size_le credible =>
      have hne : CandidateType.vk.signature ≠ CandidateType.nk.signature := by
        decide
      rw [signature, if_neg hne, if_pos rfl]
      unfold parseVk
      dsimp only
      rw [read, size, type]
      dsimp only
      rw [if_neg (by omega), if_neg (by omega), if_neg (by omega),
        if_pos credible]
      exact ⟨_, rfl, rfl⟩

end Parsers

section Candidates

variable {isPrintable : Char → Bool} {data : List UInt8} {hbin : Hbin}
  {c : Candidate}

/-! ## The candidates of a bin -/

theorem walkCells_covered (o : ℕ) (walk : CellWalk) (hle : hbin.offset ≤ o)
    (hcovered : ∀ i, walk.covered i = decide (hbin.offset + i < o)) (i : ℕ) :
    (walkCells isPrintable data none hbin o walk).covered i =
      decide (hbin.offset + i < slackStart data hbin.stop o) := by
  induction o using cells_induction generalizing walk with
  | stop o h =>
      rw [walkCells_of_none h, (cells_of_none h).2]
      exact hcovered i
  | step o cell h ih =>
      obtain ⟨rfl, hfits⟩ := cellAt_eq_some_iff.mp h
      have hstop := hfits.lt_stop
      have hpast : ∀ i, (walk.past hbin cell).covered i =
          decide (hbin.offset + i < cell.stop) := by
        intro i
        have hsize : cell.stop = cell.offset + cell.size := rfl
        rw [Bool.eq_iff_iff]
        simp only [CellWalk.past, CellWalk.cover, hcovered, Bool.or_eq_true,
          Bool.and_eq_true, decide_eq_true_eq]
        omega
      rw [walkCells_of_some h, (cells_of_some h).2]
      cases cellCandidate isPrintable data hbin cell with
      | none => exact ih _ (by omega) hpast
      | some candidate =>
          simp only [limitReached_none, Bool.false_eq_true, if_false]
          exact ih _ (by omega) hpast

theorem hbinWalk_covered (i : ℕ) :
    (hbinWalk isPrintable data none hbin).covered i =
      decide (hbin.offset + i < hbin.slackStart data) := by
  unfold hbinWalk Hbin.slackStart
  apply walkCells_covered
  · omega
  · intro i
    simp

/-- A candidate of a free cell. -/
structure FromCell (isPrintable : Char → Bool) (data : List UInt8)
    (hbin : Hbin) (cell : Cell) (c : Candidate) : Prop where
  mem : cell ∈ hbin.cells data
  free : cell.Free
  candidate : candidateFromCell isPrintable data hbin.offset cell = some c

/-- A candidate of a place in the slack. -/
structure FromSlack (isPrintable : Char → Bool) (data : List UInt8)
    (hbin : Hbin) (relative : ℕ) (c : Candidate) : Prop where
  mem : relative ∈ slackPlaces hbin.size
  uncovered : hbin.slackStart data ≤ hbin.offset + relative
  candidate : candidateFromSlack isPrintable data hbin relative = some c

theorem cellCandidate_eq_some_iff {cell : Cell} :
    cellCandidate isPrintable data hbin cell = some c ↔
      cell.Free ∧
        candidateFromCell isPrintable data hbin.offset cell = some c := by
  unfold cellCandidate Cell.Free
  split_ifs with hfree
  · exact ⟨fun h => ⟨hfree, h⟩, fun h => h.2⟩
  · exact ⟨nofun, fun h => absurd h.1 hfree⟩

theorem carveHbin_candidates :
    (carveHbin isPrintable data none hbin).candidates =
      (hbin.cells data).filterMap (cellCandidate isPrintable data hbin) ++
        ((slackPlaces hbin.size).filter fun relative =>
          decide (hbin.slackStart data ≤ hbin.offset + relative)).filterMap
            (candidateFromSlack isPrintable data hbin) := by
  rw [carveHbin_none, slackResult, scanSlack_none]
  have hplaces : (fun relative =>
        !(hbinWalk isPrintable data none hbin).covered relative) =
      fun relative =>
        decide (hbin.slackStart data ≤ hbin.offset + relative) := by
    funext relative
    rw [hbinWalk_covered, ← decide_not]
    simp only [not_lt]
  rw [hplaces, hbinWalk, walkCells_candidates]
  rfl

theorem mem_carveHbin :
    c ∈ (carveHbin isPrintable data none hbin).candidates ↔
      (∃ cell, FromCell isPrintable data hbin cell c) ∨
        ∃ relative, FromSlack isPrintable data hbin relative c := by
  rw [carveHbin_candidates, List.mem_append, List.mem_filterMap,
    List.mem_filterMap]
  apply or_congr
  · apply exists_congr
    intro cell
    rw [cellCandidate_eq_some_iff]
    exact ⟨fun h => ⟨h.1, h.2.1, h.2.2⟩, fun h => ⟨h.mem, h.free, h.candidate⟩⟩
  · apply exists_congr
    intro relative
    rw [List.mem_filter, decide_eq_true_eq]
    exact ⟨fun h => ⟨h.1.1, h.1.2, h.2⟩,
      fun h => ⟨⟨h.mem, h.uncovered⟩, h.candidate⟩⟩

theorem mem_carve :
    c ∈ (carve isPrintable none (.ok data)).candidates ↔
      ∃ hbin ∈ hiveHbins data,
        c ∈ (carveHbin isPrintable data none hbin).candidates := by
  by_cases hsupported : Supported data
  · rw [carve_of_supported none hsupported, hiveReport_candidates,
      carveHbins_candidates, hiveHbins, if_pos hsupported, List.nil_append,
      List.mem_flatMap]
  · rw [carve_of_unsupported none hsupported, hiveHbins, if_neg hsupported]
    simp [unsupportedReport]

/-! ## Where they are -/

theorem FromCell.at_cell {cell : Cell}
    (h : FromCell isPrintable data hbin cell c) :
    c.sourceRegion = .freeCell ∧ c.absoluteOffset = cell.offset ∧
      c.stop = cell.stop ∧ c.hbinOffset = hbin.offset := by
  have hat := at_of_candidateFromBody h.candidate
  have hsize : cell.size ≠ 0 := by
    have := (mem_cells h.mem).1.size_ge
    omega
  have hlength : c.length = cell.size := by
    rw [hat.length]
    exact if_neg hsize
  refine ⟨hat.region, hat.offset, ?_, hat.hbin⟩
  rw [Candidate.stop, hat.offset, hlength]
  rfl

theorem mem_slackPlaces {size relative : ℕ} (h : relative ∈ slackPlaces size) :
    hbinHeaderSize ≤ relative ∧ relative + 2 < size ∧ relative % 8 = 0 := by
  obtain ⟨i, hi, rfl⟩ := List.mem_range'.mp h
  unfold hbinHeaderSize at *
  omega

theorem FromSlack.at_place {relative : ℕ}
    (h : FromSlack isPrintable data hbin relative c) :
    c.sourceRegion = .hbinSlack ∧
      c.absoluteOffset = hbin.offset + relative ∧
      c.stop ≤ hbin.stop ∧ c.hbinOffset = hbin.offset := by
  have hcandidate := h.candidate
  unfold candidateFromSlack at hcandidate
  dsimp only at hcandidate
  split_ifs at hcandidate
  have hat := at_of_candidateFromBody hcandidate
  have hlength : c.length =
      min 512 (hbin.offset + hbin.size - (hbin.offset + relative)) :=
    hat.length
  refine ⟨hat.region, hat.offset, ?_, hat.hbin⟩
  have hoffset : c.absoluteOffset = hbin.offset + relative := hat.offset
  have hplace := mem_slackPlaces h.mem
  unfold Candidate.stop Hbin.stop
  omega

theorem related_of_ne {α : Type*} {r : α → α → Prop} {l : List α}
    (h : l.Pairwise r) {a b : α} (ha : a ∈ l) (hb : b ∈ l) (hne : a ≠ b) :
    r a b ∨ r b a := by
  have hsymm : Std.Symm fun a b => r a b ∨ r b a := ⟨fun _ _ => Or.symm⟩
  have hboth : l.Pairwise fun a b => r a b ∨ r b a := h.imp Or.inl
  exact hboth.forall ha hb hne

theorem mem_hiveHbins (hmem : hbin ∈ hiveHbins data) :
    hbin ∈ hbins data hiveHeaderSize := by
  unfold hiveHbins at hmem
  split_ifs at hmem
  · exact hmem
  · cases hmem

theorem hiveHbins_pairwise :
    (hiveHbins data).Pairwise fun a b => a.stop ≤ b.offset := by
  unfold hiveHbins
  split_ifs
  · exact hbins_pairwise hiveHeaderSize
  · exact List.Pairwise.nil

theorem hbin_eq_of_offset {other : Hbin} (hmem : hbin ∈ hiveHbins data)
    (hother : other ∈ hiveHbins data) (h : hbin.offset = other.offset) :
    hbin = other := by
  by_contra hne
  have hpos := (mem_hbins (mem_hiveHbins hmem)).2.1
  have hpos' := (mem_hbins (mem_hiveHbins hother)).2.1
  have hapart := related_of_ne hiveHbins_pairwise hmem hother hne
  unfold Hbin.stop at hapart
  unfold hbinHeaderSize at hpos hpos'
  omega

theorem inside_of_mem
    (hmem : c ∈ (carveHbin isPrintable data none hbin).candidates) :
    c.hbinOffset = hbin.offset ∧ hbin.offset ≤ c.absoluteOffset ∧
      c.absoluteOffset < hbin.stop ∧ c.stop ≤ hbin.stop := by
  rcases mem_carveHbin.mp hmem with ⟨cell, hcell⟩ | ⟨relative, hslack⟩
  · obtain ⟨-, hoffset, hstop, hhbin⟩ := hcell.at_cell
    obtain ⟨hfits, hle, -⟩ := mem_cells hcell.mem
    have hlt := hfits.lt_stop
    have hle' := hfits.stop_le
    rw [hoffset, hstop]
    exact ⟨hhbin, by omega, by omega, hle'⟩
  · obtain ⟨-, hoffset, hstop, hhbin⟩ := hslack.at_place
    have hplace := mem_slackPlaces hslack.mem
    rw [hoffset]
    refine ⟨hhbin, by omega, ?_, hstop⟩
    unfold Hbin.stop
    omega

theorem body_inside_of_mem
    (hmem : c ∈ (carveHbin isPrintable data none hbin).candidates) :
    hbin.offset ≤ c.body ∧ c.body < hbin.stop := by
  obtain ⟨-, hle, hlt, -⟩ := inside_of_mem hmem
  unfold Candidate.body
  rcases mem_carveHbin.mp hmem with ⟨cell, hcell⟩ | ⟨relative, hslack⟩
  · obtain ⟨hregion, hoffset, -, -⟩ := hcell.at_cell
    obtain ⟨hfits, -, -⟩ := mem_cells hcell.mem
    have hge := hfits.size_ge
    have hstop := hfits.stop_le
    unfold Cell.stop at hstop
    rw [hregion]
    dsimp only
    omega
  · rw [hslack.at_place.1]
    exact ⟨hle, hlt⟩

theorem clear_of_mem {cell : Cell} (hmem : c ∈ (carveHbin isPrintable data none
      hbin).candidates) (hcell : cell ∈ hbin.cells data)
    (hallocated : cell.Allocated) :
    c.stop ≤ cell.offset ∨ cell.stop ≤ c.absoluteOffset := by
  rcases mem_carveHbin.mp hmem with ⟨free, hfree⟩ | ⟨relative, hslack⟩
  · obtain ⟨-, hoffset, hstop, -⟩ := hfree.at_cell
    have hne : free ≠ cell := by
      rintro rfl
      exact absurd hfree.free (Int.lt_asymm hallocated)
    rw [hoffset, hstop]
    exact related_of_ne (cells_pairwise _) hfree.mem hcell hne
  · obtain ⟨-, hoffset, -, -⟩ := hslack.at_place
    right
    rw [hoffset]
    exact (mem_cells hcell).2.2.trans hslack.uncovered

theorem carveHbin_sorted :
    (carveHbin isPrintable data none hbin).candidates.Pairwise
      fun a b => a.absoluteOffset < b.absoluteOffset := by
  rw [carveHbin_candidates, List.pairwise_append]
  refine ⟨?_, ?_, ?_⟩
  · rw [List.pairwise_filterMap]
    refine (cells_pairwise _).imp_of_mem ?_
    intro a b ha hb hab c hc c' hc'
    obtain ⟨hfree, hcandidate⟩ := cellCandidate_eq_some_iff.mp hc
    obtain ⟨hfree', hcandidate'⟩ := cellCandidate_eq_some_iff.mp hc'
    obtain ⟨-, hoffset, -, -⟩ := FromCell.at_cell ⟨ha, hfree, hcandidate⟩
    obtain ⟨-, hoffset', -, -⟩ := FromCell.at_cell ⟨hb, hfree', hcandidate'⟩
    have hlt := (mem_cells ha).1.lt_stop
    omega
  · rw [List.pairwise_filterMap]
    have hplaces : (slackPlaces hbin.size).Pairwise (· < ·) :=
      List.pairwise_lt_range' 8
    refine (hplaces.filter _).imp_of_mem ?_
    intro a b ha hb hab c hc c' hc'
    obtain ⟨hmem, huncovered⟩ := List.mem_filter.mp ha
    obtain ⟨hmem', huncovered'⟩ := List.mem_filter.mp hb
    obtain ⟨-, hoffset, -, -⟩ :=
      FromSlack.at_place ⟨hmem, of_decide_eq_true huncovered, hc⟩
    obtain ⟨-, hoffset', -, -⟩ :=
      FromSlack.at_place ⟨hmem', of_decide_eq_true huncovered', hc'⟩
    omega
  · intro a ha b hb
    obtain ⟨cell, hcell, hc⟩ := List.mem_filterMap.mp ha
    obtain ⟨relative, hrelative, hc'⟩ := List.mem_filterMap.mp hb
    obtain ⟨hfree, hcandidate⟩ := cellCandidate_eq_some_iff.mp hc
    obtain ⟨hmem, huncovered⟩ := List.mem_filter.mp hrelative
    have hplace := of_decide_eq_true huncovered
    obtain ⟨-, hoffset, -, -⟩ := FromCell.at_cell ⟨hcell, hfree, hcandidate⟩
    obtain ⟨-, hoffset', -, -⟩ := FromSlack.at_place ⟨hmem, hplace, hc'⟩
    obtain ⟨hfits, -, hstop⟩ := mem_cells hcell
    have hlt := hfits.lt_stop
    unfold Hbin.slackStart at hplace
    omega

/-! ## The hive -/

theorem carve_sorted :
    (carve isPrintable none (.ok data)).candidates.Pairwise
      fun a b => a.absoluteOffset < b.absoluteOffset := by
  have hbinsSorted : ((hiveHbins data).flatMap fun hbin =>
      (carveHbin isPrintable data none hbin).candidates).Pairwise
        fun a b => a.absoluteOffset < b.absoluteOffset := by
    rw [List.pairwise_flatMap]
    refine ⟨fun _ _ => carveHbin_sorted, hiveHbins_pairwise.imp ?_⟩
    intro first second hstop a ha b hb
    obtain ⟨-, -, hlt, -⟩ := inside_of_mem ha
    obtain ⟨-, hle, -, -⟩ := inside_of_mem hb
    omega
  by_cases hsupported : Supported data
  · rw [hiveHbins, if_pos hsupported] at hbinsSorted
    rw [carve_of_supported none hsupported, hiveReport_candidates,
      carveHbins_candidates, List.nil_append]
    exact hbinsSorted
  · rw [carve_of_unsupported none hsupported]
    exact List.Pairwise.nil

theorem carve_contained (maxCandidates : Option ℕ) :
    Contained data (carve isPrintable maxCandidates (.ok data)).candidates := by
  have hinitial := carve_candidates_prefix isPrintable maxCandidates data
  constructor
  · intro c hc
    obtain ⟨hbin, hhbin, hmem⟩ := mem_carve.mp (hinitial.subset hc)
    obtain ⟨hoffset, hle, -, hstop⟩ := inside_of_mem hmem
    exact ⟨hbin, hhbin, hoffset, hle, hstop⟩
  · intro c hc hbin hhbin hoffset cell hcell hallocated
    obtain ⟨found, hfound, hmem⟩ := mem_carve.mp (hinitial.subset hc)
    have hsame : found = hbin := by
      apply hbin_eq_of_offset hfound hhbin
      rw [← hoffset, (inside_of_mem hmem).1]
    rw [hsame] at hmem
    exact clear_of_mem hmem hcell hallocated
  · have hsorted : (carve isPrintable none
        (.ok data)).candidates.Pairwise fun a b =>
          a.absoluteOffset < b.absoluteOffset :=
      carve_sorted
    have hnodup := hsorted.sublist hinitial.sublist
    rw [List.Nodup, List.pairwise_map]
    exact hnodup.imp fun hlt => hlt.ne

/-! ## Records that have a candidate -/

theorem reports_of_mem {cell : Cell} {kind : CandidateType}
    (hhbin : hbin ∈ hiveHbins data)
    (hrecord : RecordCell isPrintable data hbin cell kind)
    (hmem : cell ∈ hbin.cells data) (hfree : cell.Free) :
    Reports (carve isPrintable none (.ok data)).candidates cell kind := by
  obtain ⟨c, hcandidate, hkind⟩ : ∃ c,
      candidateFromCell isPrintable data hbin.offset cell = some c ∧
        c.candidateType = kind :=
    WellFormed.candidateFromBody hrecord.record
  have hcell : FromCell isPrintable data hbin cell c :=
    ⟨hmem, hfree, hcandidate⟩
  obtain ⟨hregion, hoffset, -, -⟩ := hcell.at_cell
  refine ⟨c, mem_carve.mpr ⟨hbin, hhbin, mem_carveHbin.mpr ?_⟩, hkind, ?_⟩
  · exact Or.inl ⟨cell, hcell⟩
  · unfold Candidate.body
    rw [hregion, hoffset]

theorem mem_of_offset_eq {cell free : Cell}
    (hfits : CellFits data hbin.stop cell) (hmem : free ∈ hbin.cells data)
    (h : free.offset = cell.offset) : cell ∈ hbin.cells data := by
  have hread := (mem_cells hmem).1.read
  rw [h, hfits.read] at hread
  obtain ⟨offset, rawSize⟩ := cell
  obtain ⟨offset', rawSize'⟩ := free
  obtain rfl : offset' = offset := h
  obtain rfl := Option.some.inj hread
  exact hmem

theorem mem_of_reports {cell : Cell} {kind : CandidateType}
    (hhbin : hbin ∈ hiveHbins data)
    (hrecord : RecordCell isPrintable data hbin cell kind)
    (h : Reports (carve isPrintable none (.ok data)).candidates cell kind) :
    cell ∈ hbin.cells data := by
  obtain ⟨c, hc, -, hbody⟩ := h
  obtain ⟨found, hfound, hmem⟩ := mem_carve.mp hc
  have hfits := hrecord.fits
  have hlt := hfits.stop_le
  have hge := hfits.size_ge
  have hsize : cell.stop = cell.offset + cell.size := rfl
  have hsame : found = hbin := by
    by_contra hne
    have hinside := body_inside_of_mem hmem
    have hstart := hrecord.start_le
    have hapart := related_of_ne hiveHbins_pairwise hfound hhbin hne
    omega
  subst hsame
  rcases mem_carveHbin.mp hmem with ⟨free, hfree⟩ | ⟨relative, hslack⟩
  · obtain ⟨hregion, hoffset, -, -⟩ := hfree.at_cell
    apply mem_of_offset_eq hfits hfree.mem
    unfold Candidate.body at hbody
    rw [hregion] at hbody
    dsimp only at hbody
    omega
  · obtain ⟨hregion, hoffset, -, -⟩ := hslack.at_place
    have hplace := mem_slackPlaces hslack.mem
    have haligned := hrecord.aligned
    have hstart := hrecord.start_le
    unfold Candidate.body at hbody
    rw [hregion] at hbody
    dsimp only at hbody
    omega

theorem free_of_unallocated {cell : Cell} (hmem : cell ∈ hbin.cells data)
    (h : Unallocated data hbin cell) : cell.Free := by
  obtain ⟨hfits, -, hstop⟩ := mem_cells hmem
  have hlt := hfits.lt_stop
  rcases h with ⟨free, hfree, hisFree, hle, hle'⟩ | hslack
  · have hsame : free = cell := by
      by_contra hne
      have hapart := related_of_ne (cells_pairwise _) hfree hmem hne
      omega
    rwa [← hsame]
  · unfold Hbin.slackStart at hslack
    omega

/-- Carving is contained whatever the limit.  Without a limit it is complete
exactly if no record is inside a larger free cell or in the slack. -/
theorem carve_complete_iff (isPrintable : Char → Bool) (data : List UInt8) :
    ((∀ maxCandidates, Contained data
        (carve isPrintable maxCandidates (.ok data)).candidates) ∧
      Complete isPrintable data
        (carve isPrintable none (.ok data)).candidates) ↔
      RecordsInWholeCells isPrintable data := by
  constructor
  · rintro ⟨-, hcomplete⟩ hbin hhbin cell kind hrecord hunallocated
    apply mem_of_reports hhbin hrecord
    exact hcomplete hbin hhbin cell kind hrecord hunallocated
  · intro hwhole
    refine ⟨carve_contained, ?_⟩
    intro hbin hhbin cell kind hrecord hunallocated
    have hmem := hwhole hbin hhbin cell kind hrecord hunallocated
    apply reports_of_mem hhbin hrecord hmem
    exact free_of_unallocated hmem hunallocated

end Candidates

/-! ## A record in the slack -/

/-- A bin without cells.  In its slack stands the cell of a value record. -/
def slackHbin : List UInt8 :=
  hbinSignature ++ [0, 0, 0, 0, 72, 0, 0, 0] ++ List.replicate 28 0 ++
    [32, 0, 0, 0, 0x76, 0x6B, 1, 0, 4, 0, 0, 0x80, 7, 0, 0, 0, 4, 0, 0, 0,
      1, 0, 0, 0, 0x41, 0, 0, 0, 0, 0, 0, 0]

theorem hiveHbins_slackHbin :
    ⟨hiveHeaderSize, 72⟩ ∈ hiveHbins (hiveOf slackHbin) := by
  have hheader : headerAt (hiveOf slackHbin) hiveHeaderSize = .hbin 72 := by
    rw [headerAt_hbin_iff]
    decide +kernel
  rw [hiveHbins, if_pos (supported_hiveOf _), hbins_of_hbin hheader]
  exact List.mem_cons_self

theorem cells_slackHbin :
    Hbin.cells (hiveOf slackHbin) ⟨hiveHeaderSize, 72⟩ = [] ∧
      Hbin.slackStart (hiveOf slackHbin) ⟨hiveHeaderSize, 72⟩ =
        hiveHeaderSize + hbinHeaderSize := by
  apply cells_of_none
  decide +kernel

theorem recordCell_slackHbin :
    RecordCell (fun _ => true) (hiveOf slackHbin) ⟨hiveHeaderSize, 72⟩
      ⟨hiveHeaderSize + 40, 32⟩ .vk where
  start_le := by decide
  aligned := by decide
  fits := by constructor <;> decide +kernel
  record := by
    refine @WellFormed.vk _ _ _ _ 1 0x80000004 4 ?_ ?_ ?_ ?_ ?_ ?_ ?_ ?_ <;>
      decide +kernel

/-- No candidate is for the record in the slack. -/
theorem slackHbin_not_complete :
    ¬ Complete (fun _ => true) (hiveOf slackHbin)
      (carve (fun _ => true) none (.ok (hiveOf slackHbin))).candidates := by
  intro hcomplete
  have hreports := hcomplete _ hiveHbins_slackHbin _ _ recordCell_slackHbin
    (Or.inr (cells_slackHbin.2.trans_le (by decide)))
  have hmem := mem_of_reports hiveHbins_slackHbin recordCell_slackHbin hreports
  rw [cells_slackHbin.1] at hmem
  cases hmem

end ApexForensic.Registry
