import Mathlib.Algebra.Ring.Int.Defs
import ApexForensic.Domain.Errors
import Mathlib.Algebra.BigOperators.Group.List.Basic
import Mathlib.Data.List.Pairwise

/-!
# The slack of a file in an image

The provider lists the runs of a file's attributes as extents, and takes as
slack what they are longer than the file, in front of the end of the extent
that is last in the file.  What it does not look at is whether a run is sparse,
and whether the excess fits into that extent.
-/

namespace ApexForensic.FileSystem

open ApexForensic.Support ApexForensic.Domain

/-- A data run of an attribute, in blocks.  Whether it is a hole is among its
flags. -/
structure DataRun where
  addr : ℤ
  len : ℤ
  offset : ℕ
  sparse : Bool

structure AttributeInfo where
  type : ℤ
  /-- `bool(info.name)` -/
  named : Bool

/-- An attribute of a file; there are no runs where listing them raises.
Whether its runs hold the content of the file is known to the file system. -/
structure Attribute where
  info : Option AttributeInfo
  runs : Option (List DataRun)
  holdsContent : Bool

/-- What the provider reads of an entry, its file system and its volume. -/
structure Entry where
  ftype : ℤ
  blockSize : ℕ
  volumeOffset : ℕ
  attrs : Option (List Attribute)

structure Extent where
  fileOffset : ℤ
  volumeBlock : ℤ
  byteOffset : ℤ
  byteLength : ℤ

/-- Only the unnamed `$DATA` stream of an NTFS file is listed. -/
def Attribute.skipped (entry : Entry) (attr : Attribute) : Bool :=
  entry.ftype = 1 &&
    attr.info.any fun info => decide (info.type ≠ 128) || info.named

def DataRun.extent? (entry : Entry) (run : DataRun) : Option Extent :=
  if run.addr < 0 ∨ run.len ≤ 0 then none
  else some
    { fileOffset := run.offset * entry.blockSize
      volumeBlock := run.addr
      byteOffset := entry.volumeOffset + run.addr * entry.blockSize
      byteLength := run.len * entry.blockSize }

def extents (entry : Entry) : List Extent :=
  match entry.attrs with
  | none => []
  | some attrs => attrs.flatMap fun attr =>
      if attr.skipped entry then []
      else (attr.runs.getD []).filterMap (DataRun.extent? entry)

/-- `max(extents, key=lambda item: item["file_offset"])`, the first one of
several. -/
def lastExtent (first : Extent) (rest : List Extent) : Extent :=
  rest.foldl
    (fun last item => if last.fileOffset < item.fileOffset then item else last)
    first

inductive Slack where
  | unavailable (reason : String)
  | available (byteOffset byteLength allocatedSize : ℤ) (logicalSize : ℕ)

def slack (fileSize : Option ℕ) (extents : List Extent) : Slack :=
  match fileSize, extents with
  | none, _ => .unavailable "NOT_REGULAR_FILE"
  | _, [] => .unavailable "NOT_REGULAR_FILE"
  | some fileSize, first :: rest =>
      let allocatedSize := ((first :: rest).map Extent.byteLength).sum
      let slackLength := allocatedSize - fileSize
      if slackLength ≤ 0 then .unavailable "NO_SLACK"
      else
        let last := lastExtent first rest
        .available (last.byteOffset + last.byteLength - slackLength)
          slackLength allocatedSize fileSize

/-! ## Export -/

/-- `read_at` of a reader of an image, with its largest read. -/
def readAt (image : List UInt8) (maxReadSize : ℕ) (offset length : ℤ) :
    Except PyError (List UInt8) :=
  if offset < 0 then
    .error (validationError "offset must be non-negative." (some "offset") [])
  else if maxReadSize < length then
    .error (validationError
      "Requested read length exceeds the evidence reader limit."
      (some "length") [("max_read_size", .int maxReadSize)])
  else .ok ((image.drop offset.toNat).take length.toNat)

/-- The bytes that `export_file_slack` writes. -/
def exportFileSlack (image : List UInt8) (maxReadSize : ℕ) (slack : Slack) :
    Except PyError (List UInt8) :=
  match slack with
  | .unavailable _ =>
      .error (unsupportedCapabilityError
        "File slack is not available for this node." "FILE_SLACK_EXPORT")
  | .available byteOffset byteLength _ _ => do
      if byteLength ≤ 0 then
        .error (validationError "Slack range has no bytes to export."
          (some "node_id") [])
      let data ← readAt image maxReadSize byteOffset byteLength
      if data.isEmpty then
        .error (validationError
          "Slack range produced no bytes and was not exported."
          (some "node_id") [])
      return data

/-! ## Runs on the image -/

/-- A run with an address, on the image. -/
structure StoredRun where
  extent : Extent
  allocated : Bool
  content : Bool

def Attribute.storedRuns (entry : Entry) (attr : Attribute) : List StoredRun :=
  (attr.runs.getD []).filterMap fun run =>
    (run.extent? entry).map fun extent =>
      { extent := extent
        allocated := !run.sparse
        content := attr.holdsContent && !run.sparse }

/-- The runs of all attributes of an entry, listed or not. -/
def storedRuns (entry : Entry) : List StoredRun :=
  (entry.attrs.getD []).flatMap (Attribute.storedRuns entry)

/-- A byte of the image in a range. -/
def InRange (byteOffset byteLength byte : ℤ) : Prop :=
  byteOffset ≤ byte ∧ byte < byteOffset + byteLength

/-- A reported range is inside one allocated run of the file, holds no byte
of its content, and is all that is exported. -/
def SlackSound (entry : Entry) (fileSize : Option ℕ) : Prop :=
  ∀ byteOffset byteLength allocatedSize logicalSize,
    slack fileSize (extents entry) =
      .available byteOffset byteLength allocatedSize logicalSize →
    (∃ run ∈ storedRuns entry, run.allocated = true ∧
      ∀ byte, InRange byteOffset byteLength byte →
        InRange run.extent.byteOffset run.extent.byteLength byte) ∧
    (∀ run ∈ storedRuns entry, run.content = true → ∀ k : ℤ, 0 ≤ k →
      k < run.extent.byteLength → run.extent.fileOffset + k < logicalSize →
        ¬ InRange byteOffset byteLength (run.extent.byteOffset + k)) ∧
    ∀ image maxReadSize data,
      exportFileSlack image maxReadSize
          (slack fileSize (extents entry)) = .ok data →
        ∀ (i : ℕ) (byte : UInt8), data[i]? = some byte →
          InRange byteOffset byteLength (byteOffset + i) ∧
            image[(byteOffset + i).toNat]? = some byte

/-- The length of the listed extents together. -/
def totalLength (entry : Entry) : ℤ :=
  ((extents entry).map Extent.byteLength).sum

/-- The bytes at the end of an extent by which all of them exceed the file. -/
def tailStart (entry : Entry) (fileSize : ℕ) (last : Extent) : ℤ :=
  last.byteOffset + last.byteLength - (totalLength entry - fileSize)

/-- The tail of the last extent is in an allocated run and apart from the
parts of the content runs that lie before the end of the file. -/
structure TailFree (entry : Entry) (fileSize : ℕ) (last : Extent) : Prop where
  covered : ∃ run ∈ storedRuns entry, run.allocated = true ∧
    run.extent.byteOffset ≤ tailStart entry fileSize last ∧
      last.byteOffset + last.byteLength ≤
        run.extent.byteOffset + run.extent.byteLength
  apart : ∀ run ∈ storedRuns entry, run.content = true →
    (fileSize : ℤ) ≤ run.extent.fileOffset ∨
      run.extent.byteOffset +
          min run.extent.byteLength (fileSize - run.extent.fileOffset) ≤
        tailStart entry fileSize last ∨
      last.byteOffset + last.byteLength ≤ run.extent.byteOffset

/-- Allocated runs share no byte of the image with another run. -/
def RunsApart (entry : Entry) : Prop :=
  (storedRuns entry).Pairwise fun r r' =>
    r.allocated = true ∨ r'.allocated = true →
      ∀ byte, ¬ (InRange r.extent.byteOffset r.extent.byteLength byte ∧
        InRange r'.extent.byteOffset r'.extent.byteLength byte)

/-- The last extent is allocated, what the runs exceed the file by fits into
it, and where it holds content no run before it is counted twice. -/
def FitsLast (entry : Entry) (fileSize : ℕ) (last : Extent) : Prop :=
  ∃ run ∈ storedRuns entry, run.extent = last ∧ run.allocated = true ∧
    totalLength entry ≤ fileSize + last.byteLength ∧
      (run.content = true →
        totalLength entry ≤ last.fileOffset + last.byteLength)

/-! ## Extents and runs -/

theorem mem_lastExtent (first : Extent) (rest : List Extent) :
    lastExtent first rest ∈ first :: rest := by
  have hfold : ∀ last ∈ first :: rest, ∀ items, (∀ item ∈ items,
      item ∈ first :: rest) → lastExtent last items ∈ first :: rest := by
    intro last hlast items
    induction items generalizing last with
    | nil => intro _; exact hlast
    | cons item items ih =>
        intro hitems
        obtain ⟨hitem, hitems⟩ := List.forall_mem_cons.mp hitems
        rw [lastExtent, List.foldl_cons, ← lastExtent]
        split
        · exact ih item hitem hitems
        · exact ih last hlast hitems
  exact hfold first List.mem_cons_self rest
    fun item h => List.mem_cons_of_mem first h

variable {entry : Entry}

theorem exists_storedRun_of_mem_extents {extent : Extent}
    (h : extent ∈ extents entry) :
    ∃ run ∈ storedRuns entry, run.extent = extent := by
  rw [extents] at h
  cases hattrs : entry.attrs with
  | none =>
      rw [hattrs] at h
      exact absurd h List.not_mem_nil
  | some attrs =>
      rw [hattrs] at h
      obtain ⟨attr, hattr, h⟩ := List.mem_flatMap.mp h
      by_cases hskip : attr.skipped entry = true
      · rw [if_pos hskip] at h
        exact absurd h List.not_mem_nil
      · rw [if_neg hskip] at h
        obtain ⟨run, hrun, hextent⟩ := List.mem_filterMap.mp h
        refine ⟨⟨extent, !run.sparse, attr.holdsContent && !run.sparse⟩,
          ?_, rfl⟩
        rw [storedRuns, hattrs]
        refine List.mem_flatMap.mpr ⟨attr, hattr, ?_⟩
        rw [Attribute.storedRuns]
        refine List.mem_filterMap.mpr ⟨run, hrun, ?_⟩
        rw [hextent]
        rfl

variable {run : StoredRun}

theorem exists_dataRun (h : run ∈ storedRuns entry) :
    ∃ dataRun : DataRun, 0 < dataRun.len ∧
      run.extent.fileOffset = dataRun.offset * entry.blockSize ∧
        run.extent.byteLength = dataRun.len * entry.blockSize := by
  obtain ⟨attr, -, h⟩ := List.mem_flatMap.mp h
  obtain ⟨dataRun, -, h⟩ := List.mem_filterMap.mp h
  obtain ⟨extent, hextent, rfl⟩ := Option.map_eq_some_iff.mp h
  rw [DataRun.extent?] at hextent
  by_cases hrun : dataRun.addr < 0 ∨ dataRun.len ≤ 0
  · rw [if_pos hrun] at hextent
    cases hextent
  · rw [if_neg hrun] at hextent
    obtain rfl := Option.some.inj hextent
    exact ⟨dataRun, by omega, rfl, rfl⟩

theorem StoredRun.byteLength_pos (h : run ∈ storedRuns entry)
    (hblock : 0 < entry.blockSize) : 0 < run.extent.byteLength := by
  obtain ⟨dataRun, hlen, -, hlength⟩ := exists_dataRun h
  rw [hlength]
  exact Int.mul_pos hlen (Int.natCast_pos.mpr hblock)

theorem blockSize_pos (h : 0 < totalLength entry) : 0 < entry.blockSize := by
  by_contra hzero
  have hblock : entry.blockSize = 0 := Nat.eq_zero_of_not_pos hzero
  have hsum : totalLength entry = 0 := by
    apply List.sum_eq_zero
    intro length hlength
    obtain ⟨extent, hextent, rfl⟩ := List.mem_map.mp hlength
    obtain ⟨run, hrun, rfl⟩ := exists_storedRun_of_mem_extents hextent
    obtain ⟨dataRun, -, -, hlength⟩ := exists_dataRun hrun
    rw [hlength, hblock, Int.natCast_zero, Int.mul_zero]
  omega

/-! ## When slack is reported -/

theorem slack_eq_available_iff {fileSize : Option ℕ}
    {byteOffset byteLength allocatedSize : ℤ} {logicalSize : ℕ} :
    slack fileSize (extents entry) =
        .available byteOffset byteLength allocatedSize logicalSize ↔
      ∃ first rest, fileSize = some logicalSize ∧
        extents entry = first :: rest ∧ logicalSize < totalLength entry ∧
          byteOffset = tailStart entry logicalSize (lastExtent first rest) ∧
            byteLength = totalLength entry - logicalSize ∧
              allocatedSize = totalLength entry := by
  simp only [tailStart, totalLength]
  cases fileSize with
  | none => exact iff_of_false nofun fun ⟨_, _, h, _⟩ => nomatch h
  | some size =>
      cases hextents : extents entry with
      | nil => exact iff_of_false nofun fun ⟨_, _, _, h, _⟩ => nomatch h
      | cons first rest =>
          rw [slack]
          dsimp only
          split
          · refine iff_of_false nofun ?_
            rintro ⟨first', rest', hsize, -, hlt, -⟩
            obtain rfl := Option.some.inj hsize
            omega
          · rw [Slack.available.injEq]
            constructor
            · rintro ⟨rfl, rfl, rfl, rfl⟩
              exact ⟨first, rest, rfl, rfl, by omega, rfl, rfl, rfl⟩
            · rintro ⟨first', rest', hsize, hcons, -, rfl, rfl, rfl⟩
              obtain rfl := Option.some.inj hsize
              obtain ⟨rfl, rfl⟩ := List.cons.inj hcons
              exact ⟨rfl, rfl, rfl, rfl⟩

theorem exportFileSlack_eq_ok {image : List UInt8} {maxReadSize : ℕ}
    {byteOffset byteLength allocatedSize : ℤ} {logicalSize : ℕ}
    {data : List UInt8}
    (h : exportFileSlack image maxReadSize (.available byteOffset byteLength
      allocatedSize logicalSize) = .ok data) {i : ℕ} {byte : UInt8}
    (hbyte : data[i]? = some byte) :
    InRange byteOffset byteLength (byteOffset + i) ∧
      image[(byteOffset + i).toNat]? = some byte := by
  rw [exportFileSlack] at h
  obtain ⟨-, h⟩ := check_ok h
  obtain ⟨read, hread, h⟩ := bind_ok h
  obtain ⟨-, h⟩ := check_ok h
  obtain rfl := Except.ok.inj h
  rw [readAt] at hread
  by_cases hneg : byteOffset < 0
  · rw [if_pos hneg] at hread
    cases hread
  · by_cases hlong : (maxReadSize : ℤ) < byteLength
    · rw [if_neg hneg, if_pos hlong] at hread
      cases hread
    · rw [if_neg hneg, if_neg hlong] at hread
      obtain rfl := Except.ok.inj hread
      obtain ⟨hlt, -⟩ := List.getElem?_eq_some_iff.mp hbyte
      rw [List.length_take] at hlt
      rw [List.getElem?_take_of_lt (by omega), List.getElem?_drop] at hbyte
      refine ⟨⟨by omega, by omega⟩, ?_⟩
      rwa [show (byteOffset + i).toNat = byteOffset.toNat + i by omega]

/-! ## The reported range -/

/-- A condition on the last extent, for every entry with slack. -/
def WhenReported (entry : Entry) (fileSize : Option ℕ)
    (C : ℕ → Extent → Prop) : Prop :=
  ∀ size first rest, fileSize = some size → extents entry = first :: rest →
    totalLength entry ≤ size ∨ C size (lastExtent first rest)

theorem content_apart_iff {fileSize : ℕ} {start stop : ℤ}
    (hlength : 0 < run.extent.byteLength) (hrange : start < stop) :
    (∀ k : ℤ, 0 ≤ k → k < run.extent.byteLength →
        run.extent.fileOffset + k < fileSize →
          ¬ InRange start (stop - start) (run.extent.byteOffset + k)) ↔
      (fileSize : ℤ) ≤ run.extent.fileOffset ∨
        run.extent.byteOffset +
            min run.extent.byteLength (fileSize - run.extent.fileOffset) ≤
          start ∨ stop ≤ run.extent.byteOffset := by
  constructor
  · intro h
    by_contra hmeets
    push Not at hmeets
    obtain ⟨hsize, hafter, hbefore⟩ := hmeets
    -- the first content byte that is not in front of the range
    refine h (max 0 (start - run.extent.byteOffset)) (by omega) (by omega)
      (by omega) ⟨by omega, by omega⟩
  · rintro h k hk hlt hcontent ⟨hle, hin⟩
    omega

theorem slackSound_iff_tailFree (entry : Entry) (fileSize : Option ℕ) :
    SlackSound entry fileSize ↔
      WhenReported entry fileSize (TailFree entry) := by
  have hstop : ∀ size last, last.byteOffset + last.byteLength -
      tailStart entry size last = totalLength entry - size := by
    intro size last
    rw [tailStart]
    omega
  constructor
  · intro h size first rest hsize hextents
    by_cases hlt : (size : ℤ) < totalLength entry
    · right
      obtain ⟨⟨run, hrun, hallocated, hin⟩, hcontent, -⟩ :=
        h _ _ _ _ (slack_eq_available_iff.mpr
          ⟨first, rest, hsize, hextents, hlt, rfl, rfl, rfl⟩)
      have hblock := blockSize_pos (Int.lt_of_le_of_lt
        (Int.natCast_nonneg size) hlt)
      have hfirst := hin (tailStart entry size (lastExtent first rest))
        ⟨by omega, by omega⟩
      have hlast := hin ((lastExtent first rest).byteOffset +
        (lastExtent first rest).byteLength - 1)
          ⟨by rw [tailStart]; omega, by rw [tailStart]; omega⟩
      refine ⟨⟨run, hrun, hallocated, hfirst.1, ?_⟩, ?_⟩
      · have := hlast.2
        omega
      · intro run hrun hholds
        refine (content_apart_iff (StoredRun.byteLength_pos hrun hblock)
          (by rw [tailStart]; omega)).mp ?_
        rw [hstop]
        exact hcontent run hrun hholds
    · exact Or.inl (Int.not_lt.mp hlt)
  · intro h byteOffset byteLength allocatedSize logicalSize hslack
    obtain ⟨first, rest, hsize, hextents, hlt, rfl, rfl, rfl⟩ :=
      slack_eq_available_iff.mp hslack
    have hblock := blockSize_pos (Int.lt_of_le_of_lt
      (Int.natCast_nonneg logicalSize) hlt)
    rcases h logicalSize first rest hsize hextents with hle | hfree
    · omega
    · obtain ⟨⟨run, hrun, hallocated, hstart, hend⟩, hapart⟩ := hfree
      refine ⟨⟨run, hrun, hallocated, ?_⟩, ?_, ?_⟩
      · rintro byte ⟨hle, hin⟩
        rw [← hstop logicalSize (lastExtent first rest)] at hin
        exact ⟨by omega, by omega⟩
      · intro run hrun hholds
        have := (content_apart_iff (StoredRun.byteLength_pos hrun hblock)
          (by rw [tailStart]; omega)).mpr (hapart run hrun hholds)
        rwa [hstop] at this
      · intro image maxReadSize data hexport i byte hbyte
        rw [hslack] at hexport
        exact exportFileSlack_eq_ok hexport hbyte

/-- On entries whose runs are apart, only the last extent can hold its own
end. -/
theorem tailFree_iff_fitsLast (hapart : RunsApart entry) {size : ℕ}
    {first : Extent} {rest : List Extent}
    (hextents : extents entry = first :: rest)
    (hlt : (size : ℤ) < totalLength entry) :
    TailFree entry size (lastExtent first rest) ↔
      FitsLast entry size (lastExtent first rest) := by
  have hblock := blockSize_pos (Int.lt_of_le_of_lt
    (Int.natCast_nonneg size) hlt)
  obtain ⟨last, hlastRun, hlast⟩ := exists_storedRun_of_mem_extents
    (show lastExtent first rest ∈ extents entry by
      rw [hextents]
      exact mem_lastExtent first rest)
  have hpos := StoredRun.byteLength_pos hlastRun hblock
  rw [← hlast]
  -- two runs with a byte in common, one of them allocated, are one run
  have hsame : ∀ run ∈ storedRuns entry, run.allocated = true ∨
      last.allocated = true → ∀ byte,
        InRange run.extent.byteOffset run.extent.byteLength byte →
          InRange last.extent.byteOffset last.extent.byteLength byte →
            run = last := by
    intro run hrun hallocated byte hin hin'
    by_contra hne
    have hsymm : Std.Symm fun r r' : StoredRun =>
        r.allocated = true ∨ r'.allocated = true → ∀ byte,
          ¬ (InRange r.extent.byteOffset r.extent.byteLength byte ∧
            InRange r'.extent.byteOffset r'.extent.byteLength byte) :=
      ⟨fun r r' h hallocated byte hboth => h hallocated.symm byte hboth.symm⟩
    exact List.Pairwise.forall hapart hrun hlastRun hne hallocated byte
      ⟨hin, hin'⟩
  constructor
  · rintro ⟨⟨run, hrun, hallocated, hstart, hend⟩, hfree⟩
    have htail : tailStart entry size last.extent <
        last.extent.byteOffset + last.extent.byteLength := by
      rw [tailStart]
      omega
    obtain rfl := hsame run hrun (Or.inl hallocated)
      (last.extent.byteOffset + last.extent.byteLength - 1)
      ⟨by omega, by omega⟩ ⟨by omega, by omega⟩
    rw [tailStart] at hstart
    refine ⟨run, hrun, rfl, hallocated, by omega, ?_⟩
    · intro hcontent
      have := hfree run hrun hcontent
      rw [tailStart] at this
      omega
  · rintro ⟨run, hrun, hextent, hallocated, hfits, hcontent⟩
    refine ⟨⟨run, hrun, hallocated, ?_, ?_⟩, ?_⟩
    · rw [hextent, tailStart]
      omega
    · rw [hextent]
    · intro other hother hholds
      by_contra hmeets
      push Not at hmeets
      obtain ⟨hsize, hafter, hbefore⟩ := hmeets
      rw [tailStart] at hafter
      have hlen := StoredRun.byteLength_pos hother hblock
      have hlastAllocated : last.allocated = true := by
        have := hsame run hrun (Or.inl hallocated) last.extent.byteOffset
          (by rw [hextent]; exact ⟨by omega, by omega⟩) ⟨by omega, by omega⟩
        rwa [this] at hallocated
      -- the tail starts in the last run, so both hold a byte of the tail
      obtain rfl := hsame other hother (Or.inr hlastAllocated)
        (max other.extent.byteOffset (last.extent.byteOffset +
          last.extent.byteLength - (totalLength entry - size)))
        ⟨by omega, by omega⟩ ⟨by omega, by omega⟩
      have := hcontent (by
        rw [hsame run hrun (Or.inl hallocated) other.extent.byteOffset
          (by rw [hextent]; exact ⟨by omega, by omega⟩) ⟨by omega, by omega⟩]
        exact hholds)
      omega

/-- A reported slack range is sound exactly when the tail of the last extent
is in an allocated run and free of content; on entries whose runs are apart,
when that extent is allocated, holds the whole excess, and nothing in front of
it is counted twice. -/
theorem slackSound_iff (entry : Entry) (fileSize : Option ℕ) :
    (SlackSound entry fileSize ↔
        WhenReported entry fileSize (TailFree entry)) ∧
      (RunsApart entry →
        (SlackSound entry fileSize ↔
          WhenReported entry fileSize (FitsLast entry))) := by
  refine ⟨slackSound_iff_tailFree entry fileSize, fun hapart => ?_⟩
  rw [slackSound_iff_tailFree]
  constructor
  · intro h size first rest hsize hextents
    by_cases hlt : (size : ℤ) < totalLength entry
    · exact (h size first rest hsize hextents).imp_right
        (tailFree_iff_fitsLast hapart hextents hlt).mp
    · exact Or.inl (Int.not_lt.mp hlt)
  · intro h size first rest hsize hextents
    by_cases hlt : (size : ℤ) < totalLength entry
    · exact (h size first rest hsize hextents).imp_right
        (tailFree_iff_fitsLast hapart hextents hlt).mpr
    · exact Or.inl (Int.not_lt.mp hlt)

/-- An NTFS file with an unnamed stream of some runs. -/
def ntfsEntry (runs : List DataRun) : Entry :=
  { ftype := 1
    blockSize := 4096
    volumeOffset := 0
    attrs := some
      [{ info := some { type := 128, named := false }
         runs := some runs
         holdsContent := true }] }

/-- A file of one run, with the rest of its block as slack. -/
theorem slackSound_oneRun :
    SlackSound (ntfsEntry [⟨100, 1, 0, false⟩]) (some 4000) := by
  have hruns : storedRuns (ntfsEntry [⟨100, 1, 0, false⟩]) =
      [⟨⟨0, 100, 409600, 4096⟩, true, true⟩] := rfl
  have hapart : RunsApart (ntfsEntry [⟨100, 1, 0, false⟩]) := by
    rw [RunsApart, hruns]
    exact List.pairwise_singleton _ _
  refine ((slackSound_iff _ _).2 hapart).mpr ?_
  intro size first rest hsize hextents
  obtain rfl := Option.some.inj hsize
  obtain ⟨rfl, rfl⟩ := List.cons.inj hextents
  exact Or.inr ⟨⟨⟨0, 100, 409600, 4096⟩, true, true⟩,
    List.mem_singleton.mpr rfl, rfl, rfl, by decide, by decide⟩

/-- Three preallocated blocks in two runs for 4106 bytes: what is reported
starts in front of the second run, in blocks of another file. -/
theorem not_slackSound_twoRuns :
    ¬ SlackSound (ntfsEntry [⟨100, 2, 0, false⟩, ⟨500, 1, 2, false⟩])
      (some 4106) := by
  intro h
  obtain ⟨⟨run, hrun, -, hin⟩, -⟩ := h 2043914 8182 12288 4106 rfl
  have hfirst := hin 2043914 ⟨by decide, by decide⟩
  rw [show storedRuns (ntfsEntry [⟨100, 2, 0, false⟩, ⟨500, 1, 2, false⟩]) =
    [⟨⟨0, 100, 409600, 8192⟩, true, true⟩,
      ⟨⟨8192, 500, 2048000, 4096⟩, true, true⟩] from rfl] at hrun
  rcases List.mem_pair.mp hrun with rfl | rfl
  · exact absurd hfirst.2 (by decide)
  · exact absurd hfirst.1 (by decide)

end ApexForensic.FileSystem
