import Mathlib.Algebra.Group.Int.Defs
import ApexForensic.Partitions.Reader

/-!
# Bins and cells of a registry hive

A hive is a header and a row of bins, and a bin is a header and a row of
cells.  Each is as long as it says; the first one whose size cannot be right
ends its row.  What the cells of a bin leave over is its slack.
-/

namespace ApexForensic.Registry

open ApexForensic.Partitions (slice unpackLE)

variable {o offset : ℕ}

def hiveHeaderSize : ℕ := 4096
def hbinHeaderSize : ℕ := 32
def maxHbinSize : ℕ := 64 * 1024 * 1024
def maxCellSize : ℕ := 16 * 1024 * 1024

/-- `b"regf"`. -/
def regfSignature : List UInt8 := [0x72, 0x65, 0x67, 0x66]

/-- `b"hbin"`. -/
def hbinSignature : List UInt8 := [0x68, 0x62, 0x69, 0x6E]

section Readers

variable (data : List UInt8) (offset : ℕ)

/-- `_u16`. -/
def u16 : Option ℕ :=
  if data.length < offset + 2 then none else some (unpackLE 2 data offset)

/-- `_u32`. -/
def u32 : Option ℕ :=
  if data.length < offset + 4 then none else some (unpackLE 4 data offset)

/-- `_i32`. -/
def i32 : Option ℤ :=
  (u32 data offset).map fun n =>
    if n < 2 ^ 31 then (n : ℤ) else (n : ℤ) - 2 ^ 32

/-- `data.find(b"hbin", start)`. -/
def findHbin (start : ℕ) : Option ℕ :=
  (List.range' start (data.length - start)).find? fun i =>
    slice data i (i + 4) = hbinSignature

end Readers

/-! ## Cells -/

structure Cell where
  offset : ℕ
  rawSize : ℤ
  deriving DecidableEq

/-- `abs(raw_size)`. -/
def Cell.size (cell : Cell) : ℕ := cell.rawSize.natAbs

def Cell.stop (cell : Cell) : ℕ := cell.offset + cell.size

/-- A positive size marks a free cell. -/
def Cell.Free (cell : Cell) : Prop := 0 < cell.rawSize

def Cell.Allocated (cell : Cell) : Prop := cell.rawSize < 0

instance : DecidablePred Cell.Free := fun _ => Int.decLt _ _
instance : DecidablePred Cell.Allocated := fun _ => Int.decLt _ _

section Cells

variable (data : List UInt8) (hbinEnd : ℕ)

/-- The cell at an offset, unless its size cannot be right. -/
def cellAt (cellOffset : ℕ) : Option Cell :=
  if cellOffset + 4 ≤ hbinEnd then
    match i32 data cellOffset with
    | none => none
    | some rawSize =>
        if rawSize = 0 then none
        else if rawSize.natAbs < 8 ∨ maxCellSize < rawSize.natAbs ∨
            hbinEnd < cellOffset + rawSize.natAbs then none
        else some ⟨cellOffset, rawSize⟩
  else none

/-- What a cell has to be for the walk over a bin to take it. -/
structure CellFits (cell : Cell) : Prop where
  read : i32 data cell.offset = some cell.rawSize
  size_ge : 8 ≤ cell.size
  size_le : cell.size ≤ maxCellSize
  stop_le : cell.stop ≤ hbinEnd

variable {data hbinEnd}

theorem cellAt_eq_some_iff {cellOffset : ℕ} {cell : Cell} :
    cellAt data hbinEnd cellOffset = some cell ↔
      cell.offset = cellOffset ∧ CellFits data hbinEnd cell := by
  obtain ⟨o, raw⟩ := cell
  constructor
  · intro h
    unfold cellAt at h
    split at h
    · split at h
      · cases h
      · next rawSize hraw =>
          split_ifs at h with hzero hbounds
          simp only [not_or, not_lt] at hbounds
          obtain ⟨rfl, rfl⟩ := Cell.mk.inj (Option.some.inj h)
          exact ⟨rfl, hraw, hbounds.1, hbounds.2.1, hbounds.2.2⟩
    · cases h
  · rintro ⟨rfl, hread, hge, hle, hstop⟩
    simp only [Cell.size, Cell.stop] at hread hge hle hstop
    have hroom : o + 4 ≤ hbinEnd := by omega
    have hzero : raw ≠ 0 := by
      rintro rfl
      exact absurd hge (by decide)
    unfold cellAt
    rw [if_pos hroom, hread]
    simp only [hzero, if_false]
    rw [if_neg (by omega)]

theorem offset_of_cellAt {cellOffset : ℕ} {cell : Cell}
    (h : cellAt data hbinEnd cellOffset = some cell) :
    cell.offset = cellOffset :=
  (cellAt_eq_some_iff.mp h).1

theorem CellFits.lt_stop {cell : Cell} (h : CellFits data hbinEnd cell) :
    cell.offset < cell.stop := by
  have := h.size_ge
  unfold Cell.stop
  omega

variable (data hbinEnd)

/-- The cells of a bin from an offset on. -/
def cells (cellOffset : ℕ) : List Cell :=
  match _h : cellAt data hbinEnd cellOffset with
  | none => []
  | some cell => cell :: cells cell.stop
termination_by hbinEnd - cellOffset
decreasing_by
  obtain ⟨rfl, hfits⟩ := cellAt_eq_some_iff.mp _h
  have := hfits.lt_stop
  have := hfits.stop_le
  omega

/-- Where the cells of a bin end and its slack begins. -/
def slackStart (cellOffset : ℕ) : ℕ :=
  match _h : cellAt data hbinEnd cellOffset with
  | none => cellOffset
  | some cell => slackStart cell.stop
termination_by hbinEnd - cellOffset
decreasing_by
  obtain ⟨rfl, hfits⟩ := cellAt_eq_some_iff.mp _h
  have := hfits.lt_stop
  have := hfits.stop_le
  omega

variable {data hbinEnd}

theorem cells_of_none (h : cellAt data hbinEnd o = none) :
    cells data hbinEnd o = [] ∧ slackStart data hbinEnd o = o := by
  constructor
  · rw [cells]
    split <;> simp_all
  · rw [slackStart]
    split <;> simp_all

theorem cells_of_some {cell : Cell} (h : cellAt data hbinEnd o = some cell) :
    cells data hbinEnd o = cell :: cells data hbinEnd cell.stop ∧
      slackStart data hbinEnd o = slackStart data hbinEnd cell.stop := by
  constructor
  · rw [cells]
    split <;> simp_all
  · rw [slackStart]
    split <;> simp_all

theorem cells_induction {motive : ℕ → Prop}
    (stop : ∀ o, cellAt data hbinEnd o = none → motive o)
    (step : ∀ o cell, cellAt data hbinEnd o = some cell →
      motive cell.stop → motive o) (o : ℕ) : motive o := by
  induction o using slackStart.induct data hbinEnd with
  | case1 o h => exact stop o h
  | case2 o cell h ih => exact step o cell h ih

theorem le_slackStart (o : ℕ) : o ≤ slackStart data hbinEnd o := by
  induction o using cells_induction with
  | stop o h => exact (cells_of_none h).2.ge
  | step o cell h ih =>
      obtain ⟨rfl, hfits⟩ := cellAt_eq_some_iff.mp h
      rw [(cells_of_some h).2]
      exact hfits.lt_stop.le.trans ih

theorem mem_cells {cell : Cell} (hmem : cell ∈ cells data hbinEnd o) :
    CellFits data hbinEnd cell ∧ o ≤ cell.offset ∧
      cell.stop ≤ slackStart data hbinEnd o := by
  induction o using cells_induction with
  | stop o h =>
      rw [(cells_of_none h).1] at hmem
      cases hmem
  | step o first h ih =>
      obtain ⟨hoffset, hfits⟩ := cellAt_eq_some_iff.mp h
      rw [(cells_of_some h).2]
      rw [(cells_of_some h).1] at hmem
      rcases List.mem_cons.mp hmem with rfl | hrest
      · exact ⟨hfits, hoffset.ge, le_slackStart _⟩
      · obtain ⟨hcell, hle, hstop⟩ := ih hrest
        refine ⟨hcell, ?_, hstop⟩
        exact hoffset.ge.trans (hfits.lt_stop.le.trans hle)

theorem cells_pairwise (o : ℕ) :
    (cells data hbinEnd o).Pairwise fun a b => a.stop ≤ b.offset := by
  induction o using cells_induction with
  | stop o h =>
      rw [(cells_of_none h).1]
      exact List.Pairwise.nil
  | step o first h ih =>
      rw [(cells_of_some h).1]
      refine List.Pairwise.cons ?_ ih
      intro cell hmem
      exact (mem_cells hmem).2.1

end Cells

/-! ## Bins -/

structure Hbin where
  offset : ℕ
  size : ℕ
  deriving DecidableEq

def Hbin.stop (hbin : Hbin) : ℕ := hbin.offset + hbin.size

def Hbin.cells (data : List UInt8) (hbin : Hbin) : List Cell :=
  Registry.cells data hbin.stop (hbin.offset + hbinHeaderSize)

/-- Where the slack of a bin begins. -/
def Hbin.slackStart (data : List UInt8) (hbin : Hbin) : ℕ :=
  Registry.slackStart data hbin.stop (hbin.offset + hbinHeaderSize)

/-- A declared size of a bin that is within bounds. -/
def SizeValid (data : List UInt8) (offset size : ℕ) : Prop :=
  hbinHeaderSize ≤ size ∧ size ≤ maxHbinSize ∧ offset + size ≤ data.length

instance (data : List UInt8) (offset size : ℕ) :
    Decidable (SizeValid data offset size) := by
  unfold SizeValid
  infer_instance

/-- What stands at an offset where a bin is expected. -/
inductive Header where
  /-- Too few bytes, or no signature from there on. -/
  | missing
  | skipped (nextHbin : ℕ)
  | sizeInvalid (declared : Option ℕ)
  | hbin (size : ℕ)

section Hbins

variable (data : List UInt8)

def headerAt (offset : ℕ) : Header :=
  if offset + hbinHeaderSize ≤ data.length then
    if slice data offset (offset + 4) ≠ hbinSignature then
      match findHbin data (offset + 8) with
      | none => .missing
      | some nextHbin => .skipped nextHbin
    else
      match u32 data (offset + 8) with
      | none => .sizeInvalid none
      | some size =>
          if SizeValid data offset size then .hbin size
          else .sizeInvalid (some size)
  else .missing

variable {data}

theorem headerAt_skipped {nextHbin : ℕ}
    (h : headerAt data offset = .skipped nextHbin) :
    offset + 8 ≤ nextHbin ∧ nextHbin < data.length := by
  unfold headerAt at h
  split_ifs at h with hroom hsignature
  · split at h
    · cases h
    · next found hfind =>
        obtain rfl := Header.skipped.inj h
        have hmem := List.mem_range'.mp (List.mem_of_find?_eq_some hfind)
        omega
  · split at h
    · cases h
    · split_ifs at h

theorem headerAt_hbin_iff {size : ℕ} :
    headerAt data offset = .hbin size ↔
      slice data offset (offset + 4) = hbinSignature ∧
        u32 data (offset + 8) = some size ∧ SizeValid data offset size := by
  constructor
  · intro h
    unfold headerAt at h
    split_ifs at h with hroom hsignature
    · split at h <;> cases h
    · push Not at hsignature
      split at h
      · cases h
      · next found hsize =>
          split_ifs at h with hvalid
          obtain rfl := Header.hbin.inj h
          exact ⟨hsignature, hsize, hvalid⟩
  · rintro ⟨hsignature, hsize, hvalid⟩
    have hroom : offset + hbinHeaderSize ≤ data.length := by
      have hge := hvalid.1
      have hle := hvalid.2.2
      omega
    unfold headerAt
    rw [if_pos hroom, if_neg (not_not_intro hsignature), hsize]
    simp only [hvalid, if_true]

theorem sizeValid_of_headerAt {size : ℕ} (h : headerAt data offset = .hbin size)
    : SizeValid data offset size :=
  (headerAt_hbin_iff.mp h).2.2

variable (data)

/-- The bins of a hive from an offset on. -/
def hbins (offset : ℕ) : List Hbin :=
  match _h : headerAt data offset with
  | .missing => []
  | .skipped nextHbin => hbins nextHbin
  | .sizeInvalid _ => []
  | .hbin size => ⟨offset, size⟩ :: hbins (offset + size)
termination_by data.length - offset
decreasing_by
  · have := headerAt_skipped _h
    omega
  · obtain ⟨hge, -, hle⟩ := sizeValid_of_headerAt _h
    unfold hbinHeaderSize at hge
    omega

variable {data}

theorem hbins_of_missing (h : headerAt data o = .missing) :
    hbins data o = [] := by
  rw [hbins]
  split <;> simp_all

theorem hbins_of_skipped {nextHbin : ℕ}
    (h : headerAt data o = .skipped nextHbin) :
    hbins data o = hbins data nextHbin := by
  rw [hbins]
  split <;> simp_all

theorem hbins_of_sizeInvalid {declared : Option ℕ}
    (h : headerAt data o = .sizeInvalid declared) : hbins data o = [] := by
  rw [hbins]
  split <;> simp_all

theorem hbins_of_hbin {size : ℕ} (h : headerAt data o = .hbin size) :
    hbins data o = ⟨o, size⟩ :: hbins data (o + size) := by
  rw [hbins]
  split <;> simp_all

theorem hbins_induction {motive : ℕ → Prop}
    (missing : ∀ o, headerAt data o = .missing → motive o)
    (skipped : ∀ o nextHbin, headerAt data o = .skipped nextHbin →
      motive nextHbin → motive o)
    (sizeInvalid : ∀ o declared, headerAt data o = .sizeInvalid declared →
      motive o)
    (hbin : ∀ o size, headerAt data o = .hbin size → motive (o + size) →
      motive o) (o : ℕ) : motive o := by
  induction o using hbins.induct data with
  | case1 o h => exact missing o h
  | case2 o nextHbin h ih => exact skipped o nextHbin h ih
  | case3 o declared h => exact sizeInvalid o declared h
  | case4 o size h ih => exact hbin o size h ih

theorem mem_hbins {hbin : Hbin} (hmem : hbin ∈ hbins data o) :
    o ≤ hbin.offset ∧ SizeValid data hbin.offset hbin.size := by
  induction o using hbins_induction with
  | missing o h =>
      rw [hbins_of_missing h] at hmem
      cases hmem
  | skipped o nextHbin h ih =>
      rw [hbins_of_skipped h] at hmem
      obtain ⟨hle, hvalid⟩ := ih hmem
      have hnext := headerAt_skipped h
      exact ⟨by omega, hvalid⟩
  | sizeInvalid o declared h =>
      rw [hbins_of_sizeInvalid h] at hmem
      cases hmem
  | hbin o size h ih =>
      rw [hbins_of_hbin h] at hmem
      rcases List.mem_cons.mp hmem with rfl | hrest
      · exact ⟨le_rfl, sizeValid_of_headerAt h⟩
      · obtain ⟨hle, hvalid⟩ := ih hrest
        exact ⟨by omega, hvalid⟩

theorem hbins_pairwise (o : ℕ) :
    (hbins data o).Pairwise fun a b => a.stop ≤ b.offset := by
  induction o using hbins_induction with
  | missing o h =>
      rw [hbins_of_missing h]
      exact List.Pairwise.nil
  | skipped o nextHbin h ih =>
      rw [hbins_of_skipped h]
      exact ih
  | sizeInvalid o declared h =>
      rw [hbins_of_sizeInvalid h]
      exact List.Pairwise.nil
  | hbin o size h ih =>
      rw [hbins_of_hbin h]
      refine List.Pairwise.cons ?_ ih
      intro hbin hmem
      exact (mem_hbins hmem).1

end Hbins

end ApexForensic.Registry
