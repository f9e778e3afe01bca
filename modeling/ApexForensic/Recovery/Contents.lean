import ApexForensic.Carving.Hits
import ApexForensic.Recovery.Runs
import ApexForensic.Support.Patchwork

/-!
# What the data runs say of the file

The extents of a file map some of its places to places in the image.  A place
that no extent maps, or one mapped past the end of the image, has no source
byte.  Sorted runs, read one after the other with holes between them, give
the source bytes of the whole file in order.
-/

namespace ApexForensic.Recovery

open ApexForensic.Support ApexForensic.Domain
open ApexForensic.Partitions (Reader maxEvidenceReadSize)
open ApexForensic.Carving (bytesAt)

variable {i : ℕ} {run : DataRun} {runs : List DataRun} {reader : Reader}

/-! ## Bytes of the image -/

/-- The byte of the image at an offset, if the image is that long. -/
def byteAt? (reader : Reader) (offset : ℕ) : Option UInt8 :=
  if offset < reader.size then some (reader.content offset) else none

def imageCells (reader : Reader) (offset length : ℕ) : List (Option UInt8) :=
  (List.range' offset length).map (byteAt? reader)

theorem length_imageCells (reader : Reader) (offset length : ℕ) :
    (imageCells reader offset length).length = length := by
  simp [imageCells]

theorem imageCells_add (reader : Reader) (offset m n : ℕ) :
    imageCells reader offset (m + n) =
      imageCells reader offset m ++ imageCells reader (offset + m) n := by
  rw [imageCells, imageCells, imageCells, ← List.map_append,
    List.range'_append_1]

theorem imageCells_of_le {offset : ℕ} (h : reader.size ≤ offset) (length : ℕ) :
    imageCells reader offset length = List.replicate length none := by
  rw [imageCells, List.eq_replicate_iff]
  refine ⟨by simp, ?_⟩
  intro cell hcell
  obtain ⟨i, hi, rfl⟩ := List.mem_map.mp hcell
  exact if_neg (Nat.not_lt.mpr (h.trans (List.mem_range'_1.mp hi).1))

/-- A read gives the bytes that the image has, and comes back short only at
its end. -/
theorem readAt_eq_ok {offset length : ℕ} {data : List UInt8}
    (h : reader.readAt offset length = .ok data) :
    data.length ≤ length ∧
      data.map some = imageCells reader offset data.length ∧
        (data.length < length → reader.size ≤ offset + data.length) := by
  unfold Reader.readAt at h
  split_ifs at h with hbound hnone
  · obtain rfl := Except.ok.inj h
    refine ⟨Nat.zero_le _, rfl, ?_⟩
    intro hlt
    rw [List.length_nil] at hlt ⊢
    omega
  · obtain rfl := Except.ok.inj h
    rw [List.length_map, List.length_range]
    refine ⟨min_le_left _ _, ?_, by omega⟩
    rw [imageCells, List.range'_eq_map_range, List.map_map, List.map_map]
    refine List.map_congr_left fun i hi => ?_
    have hlt := List.mem_range.mp hi
    have hin : offset + i < reader.size := by omega
    exact (if_pos hin).symm

/-! ## Source bytes -/

/-- The run maps a place of the file. -/
def DataRun.Covers (run : DataRun) (i : ℕ) : Prop :=
  run.fileOffset ≤ i ∧ i < run.stop

instance (run : DataRun) (i : ℕ) : Decidable (run.Covers i) :=
  inferInstanceAs (Decidable (_ ∧ _))

/-- The byte of the image that a run maps to a place of the file, if there is
a run and a byte. -/
def sourceByte (reader : Reader) (runs : List DataRun) (i : ℕ) :
    Option UInt8 :=
  (runs.find? fun run => run.Covers i).bind fun run =>
    byteAt? reader (run.byteOffset + (i - run.fileOffset))

theorem sourceByte_of_covers (h : run.Covers i) (runs : List DataRun) :
    sourceByte reader (run :: runs) i =
      byteAt? reader (run.byteOffset + (i - run.fileOffset)) := by
  rw [sourceByte, List.find?_cons_of_pos (by simpa using h)]
  rfl

theorem sourceByte_of_not_covers (h : ¬ run.Covers i) (runs : List DataRun) :
    sourceByte reader (run :: runs) i = sourceByte reader runs i := by
  rw [sourceByte, List.find?_cons_of_neg (by simpa using h), sourceByte]

theorem sourceByte_eq_none (h : ∀ run ∈ runs, ¬ run.Covers i) :
    sourceByte reader runs i = none := by
  have hfind : (runs.find? fun run => run.Covers i) = none :=
    List.find?_eq_none.mpr fun run hrun => by simpa using h run hrun
  rw [sourceByte, hfind]
  rfl

theorem sourceByte_of_mem (hapart : runs.Pairwise Apart) (hrun : run ∈ runs)
    (h : run.Covers i) :
    sourceByte reader runs i =
      byteAt? reader (run.byteOffset + (i - run.fileOffset)) := by
  induction hapart with
  | nil => exact absurd hrun List.not_mem_nil
  | cons hfirst _ ih =>
      rcases List.mem_cons.mp hrun with rfl | hrun
      · exact sourceByte_of_covers h _
      · rw [sourceByte_of_not_covers, ih hrun]
        intro hcovers
        have hapart := hfirst run hrun
        unfold Apart Before at hapart
        unfold DataRun.Covers at h hcovers
        omega

theorem sourceByte_perm {runs' : List DataRun} (hperm : runs.Perm runs')
    (hapart : runs.Pairwise Apart) :
    sourceByte reader runs = sourceByte reader runs' := by
  have hsymm : ∀ {a b : DataRun}, Apart a b → Apart b a := fun h => h.symm
  have hapart' := (hperm.pairwise_iff hsymm).mp hapart
  funext i
  by_cases hcovered : ∃ run ∈ runs, run.Covers i
  · obtain ⟨run, hrun, h⟩ := hcovered
    rw [sourceByte_of_mem hapart hrun h,
      sourceByte_of_mem hapart' (hperm.mem_iff.mp hrun) h]
  · push Not at hcovered
    rw [sourceByte_eq_none hcovered, sourceByte_eq_none fun run hrun =>
      hcovered run (hperm.mem_iff.mpr hrun)]

/-! ## Runs in order -/

theorem range'_split {a b c : ℕ} (hab : a ≤ b) (hbc : b ≤ c) :
    List.range' a (c - a) =
      List.range' a (b - a) ++ List.range' b (c - b) := by
  obtain ⟨m, rfl⟩ := Nat.exists_eq_add_of_le hab
  obtain ⟨n, rfl⟩ := Nat.exists_eq_add_of_le hbc
  rw [Nat.add_sub_cancel_left, Nat.add_sub_cancel_left, List.range'_append_1]
  congr 1
  omega

/-- The file from a place on, run by run with holes between them. -/
def layout (reader : Reader) (size : ℕ) :
    List DataRun → ℕ → List (Option UInt8)
  | [], cursor => List.replicate (size - cursor) none
  | run :: runs, cursor =>
      List.replicate (run.fileOffset - cursor) none ++
        imageCells reader run.byteOffset run.byteLength ++
          layout reader size runs run.stop

/-- Laid out in order, sorted runs give every place its source byte. -/
theorem layout_eq {size : ℕ} (hbefore : runs.Pairwise Before)
    (hstop : ∀ run ∈ runs, run.stop ≤ size) {cursor : ℕ}
    (hcursor : ∀ run ∈ runs, cursor ≤ run.fileOffset) (hsize : cursor ≤ size) :
    layout reader size runs cursor =
      (List.range' cursor (size - cursor)).map (sourceByte reader runs) := by
  induction hbefore generalizing cursor with
  | nil =>
      rw [layout, eq_comm, List.eq_replicate_iff]
      refine ⟨by simp, ?_⟩
      intro cell hcell
      obtain ⟨i, -, rfl⟩ := List.mem_map.mp hcell
      rfl
  | @cons run runs hfirst _ ih =>
      have hrun := hcursor run List.mem_cons_self
      have hend := hstop run List.mem_cons_self
      have hstart : run.fileOffset ≤ run.stop := Nat.le_add_right _ _
      have hlength : run.stop - run.fileOffset = run.byteLength :=
        Nat.add_sub_cancel_left _ _
      have hsplit : List.range' cursor (size - cursor) =
          List.range' cursor (run.fileOffset - cursor) ++
            List.range' run.fileOffset run.byteLength ++
              List.range' run.stop (size - run.stop) := by
        rw [range'_split (hrun.trans hstart) hend, range'_split hrun hstart,
          hlength]
      have hgap : ∀ i ∈ List.range' cursor (run.fileOffset - cursor),
          sourceByte reader (run :: runs) i = none := by
        intro i hi
        have hlt := (List.mem_range'_1.mp hi).2
        refine sourceByte_eq_none fun r hr hcovers => ?_
        have hoffset : run.fileOffset ≤ r.fileOffset := by
          rcases List.mem_cons.mp hr with rfl | hr
          · exact le_rfl
          · exact hstart.trans (hfirst r hr)
        unfold DataRun.Covers at hcovers
        omega
      have hdata : ∀ i ∈ List.range' run.fileOffset run.byteLength,
          sourceByte reader (run :: runs) i =
            byteAt? reader (run.byteOffset + (i - run.fileOffset)) := by
        intro i hi
        obtain ⟨hle, hlt⟩ := List.mem_range'_1.mp hi
        exact sourceByte_of_covers ⟨hle, hlt⟩ runs
      have hrest : ∀ i ∈ List.range' run.stop (size - run.stop),
          sourceByte reader (run :: runs) i = sourceByte reader runs i := by
        intro i hi
        have hle := (List.mem_range'_1.mp hi).1
        exact sourceByte_of_not_covers
          (fun hcovers => Nat.not_lt.mpr hle hcovers.2) runs
      rw [layout, hsplit, List.map_append, List.map_append,
        List.map_congr_left hrest, ← ih
          (fun r hr => hstop r (List.mem_cons_of_mem _ hr)) hfirst hend]
      congr 2
      · rw [eq_comm, List.eq_replicate_iff]
        refine ⟨by simp, ?_⟩
        intro cell hcell
        obtain ⟨i, hi, rfl⟩ := List.mem_map.mp hcell
        exact hgap i hi
      · rw [List.map_congr_left hdata, imageCells,
          List.range'_eq_map_range, List.range'_eq_map_range,
          List.map_map, List.map_map]
        refine List.map_congr_left fun i _ => ?_
        simp only [Function.comp_apply, Nat.add_sub_cancel_left]

end ApexForensic.Recovery
