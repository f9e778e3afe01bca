import ApexForensic.Partitions.Parser

/-!
# Extents and the gaps between them

An extent is what the listing and the store see of a volume: its scheme,
whether it is a gap, and its byte range.  `fillGaps` is the gap loop on
extents.  The loop's cursor is always on a sector boundary or at the end of
the image, and everything below is by induction over the sorted extents with
the cursor generalized.
-/

namespace ApexForensic.Partitions

open ApexForensic.Support ApexForensic.Domain

variable {b : ℕ} {table : Table}

structure Extent where
  scheme : VolumeScheme
  isGap : Bool
  offset : ℕ
  length : ℕ
  deriving DecidableEq

namespace Extent

/-- The byte lies in the extent. -/
def Holds (e : Extent) (b : ℕ) : Prop :=
  e.offset ≤ b ∧ b < e.offset + e.length

/-- What the uniqueness constraint of the store compares. -/
def key (e : Extent) : VolumeScheme × ℕ × ℕ :=
  (e.scheme, e.offset, e.length)

end Extent

/-! ## Sector boundaries -/

section Fill

variable (ss size : ℕ)

/-- The start of the sector a byte lies in. -/
def sectorStart (b : ℕ) : ℕ :=
  b / ss * ss

variable {ss size}

theorem sectorStart_le (b : ℕ) : sectorStart ss b ≤ b :=
  Nat.div_mul_le_self b ss

theorem lt_sectorStart_add (hss : 0 < ss) (b : ℕ) :
    b < sectorStart ss b + ss :=
  Nat.lt_div_mul_add hss

theorem sectorStart_of_dvd (h : ss ∣ b) : sectorStart ss b = b :=
  Nat.div_mul_cancel h

theorem dvd_sectorStart (b : ℕ) : ss ∣ sectorStart ss b :=
  Nat.dvd_mul_left ss (b / ss)

theorem le_sectorStart (hss : 0 < ss) {a : ℕ} (ha : ss ∣ a) (hab : a ≤ b) :
    a ≤ sectorStart ss b := by
  obtain ⟨k, rfl⟩ := ha
  rw [sectorStart, Nat.mul_comm ss k]
  apply Nat.mul_le_mul_right
  exact (Nat.le_div_iff_mul_le hss).mpr (by rwa [Nat.mul_comm])

theorem sectorStart_lt_of_lt {a : ℕ} (hss : 0 < ss) (ha : ss ∣ a) (hba : b < a)
    : sectorStart ss b + ss ≤ a := by
  obtain ⟨k, rfl⟩ := ha
  have hk : b / ss < k := (Nat.div_lt_iff_lt_mul hss).mpr (by rwa [Nat.mul_comm])
  calc
    sectorStart ss b + ss = (b / ss + 1) * ss := by rw [sectorStart]; ring
    _ ≤ k * ss := Nat.mul_le_mul_right ss hk
    _ = ss * k := Nat.mul_comm k ss

/-! ## Extents of volumes and gaps -/

/-- An extent of a declared number of sectors, cut at the image end. -/
structure Placed (ss size : ℕ) (e : Extent) : Prop where
  aligned : ss ∣ e.offset
  clipped : ∃ count, e.length = clippedLength size e.offset (count * ss)

theorem Placed.end_le {e : Extent} (he : Placed ss size e) :
    e.offset + e.length ≤ max size e.offset := by
  obtain ⟨count, hlength⟩ := he.clipped
  rw [hlength, clippedLength]
  split_ifs <;> omega

theorem Placed.end_aligned {e : Extent} (he : Placed ss size e) :
    ss ∣ e.offset + e.length ∨ e.offset + e.length = size := by
  obtain ⟨count, hlength⟩ := he.clipped
  rw [hlength, clippedLength]
  split_ifs with hbeyond hcut
  · exact Or.inl he.aligned
  · exact Or.inr (by omega)
  · exact Or.inl (Nat.dvd_add he.aligned (Nat.dvd_mul_left ss count))

variable (ss size)

/-- The extent of the gap listed from a cursor. -/
def gapExtent (scheme : VolumeScheme) (cursor length : ℕ) : Extent where
  scheme := scheme
  isGap := true
  offset := sectorStart ss cursor
  length := clippedLength size (sectorStart ss cursor)
    (ceilTrueDiv length ss * ss)

/-- The gap loop on extents. -/
def fillGaps (scheme : VolumeScheme) (endLimit : ℕ) :
    ℕ → List Extent → List Extent
  | cursor, [] =>
      if cursor < endLimit then
        [gapExtent ss size scheme cursor (endLimit - cursor)]
      else []
  | cursor, e :: rest =>
      (if cursor < e.offset then
        [gapExtent ss size scheme cursor (e.offset - cursor)] else []) ++
        e :: fillGaps scheme endLimit (max cursor (e.offset + e.length)) rest

/-- The cursor stands on a sector boundary or at the end of the image. -/
def CursorAt (cursor : ℕ) : Prop :=
  ss ∣ cursor ∨ cursor = size

variable {ss size}

theorem CursorAt.advance {cursor : ℕ} (hcursor : CursorAt ss size cursor)
    {e : Extent} (he : Placed ss size e) :
    CursorAt ss size (max cursor (e.offset + e.length)) := by
  rcases max_choice cursor (e.offset + e.length) with hmax | hmax
  · rw [hmax]
    exact hcursor
  · rw [hmax]
    exact he.end_aligned

theorem CursorAt.dvd_of_lt {cursor : ℕ} (hcursor : CursorAt ss size cursor)
    (hlt : cursor < size) : ss ∣ cursor := by
  rcases hcursor with h | h
  · exact h
  · omega

end Fill

/-! ## The extents of a listing -/

/-- What the listing and the store see of a volume. -/
def EvidenceVolume.extent (v : EvidenceVolume) : Extent where
  scheme := v.scheme
  isGap := decide (v.partitionType = "UNALLOCATED")
  offset := v.byteOffset
  length := v.byteLength

section Listing

variable (ctx : Context) (reader : Reader)

def specExtent (spec : VolumeSpec) : Extent where
  scheme := spec.scheme
  isGap := decide (spec.partitionType = "UNALLOCATED")
  offset := spec.startLba * reader.sectorSize
  length := clippedLength reader.size (spec.startLba * reader.sectorSize)
    (spec.sectorCount * reader.sectorSize)

theorem placed_specExtent (spec : VolumeSpec) :
    Placed reader.sectorSize reader.size (specExtent reader spec) :=
  ⟨Nat.dvd_mul_left _ _, spec.sectorCount, rfl⟩

theorem extent_unallocatedGap (scheme : VolumeScheme)
    (gapIndex cursor length : ℕ) :
    (unallocatedGap ctx reader scheme gapIndex cursor length).extent =
      gapExtent reader.sectorSize reader.size scheme cursor length := rfl

/-- The gap loop acts on extents as `fillGaps`. -/
theorem map_extent_combineGaps (scheme : VolumeScheme) (endLimit : ℕ)
    (volumes : List EvidenceVolume) (cursor gapIndex : ℕ) :
    (combineGaps ctx reader scheme endLimit cursor gapIndex volumes).map
        EvidenceVolume.extent =
      fillGaps reader.sectorSize reader.size scheme endLimit cursor
        (volumes.map EvidenceVolume.extent) := by
  induction volumes generalizing cursor gapIndex with
  | nil =>
      rw [combineGaps, List.map_nil, fillGaps]
      split_ifs
      · rw [List.map_singleton, extent_unallocatedGap]
      · rfl
  | cons v rest ih =>
      rw [combineGaps, List.map_cons, fillGaps]
      by_cases hlt : cursor < v.byteOffset
      · rw [if_pos hlt, if_pos (show cursor < v.extent.offset from hlt),
          List.map_cons, List.map_cons, ih, extent_unallocatedGap]
        rfl
      · rw [if_neg hlt, if_neg (show ¬ cursor < v.extent.offset from hlt),
          List.map_cons, ih]
        rfl

theorem map_extent_renumber (volumes : List EvidenceVolume) :
    (renumber volumes).map EvidenceVolume.extent =
      volumes.map EvidenceVolume.extent := by
  rw [renumber, List.map_map,
    show EvidenceVolume.extent ∘
      (fun v : EvidenceVolume × ℕ => { v.1 with volumeIndex := v.2 }) =
        EvidenceVolume.extent ∘ Prod.fst from rfl,
    ← List.map_map, List.zipIdx_map_fst]

theorem map_extent_markOverlaps (volumes : List EvidenceVolume) :
    (markOverlaps volumes).map EvidenceVolume.extent =
      volumes.map EvidenceVolume.extent := by
  rw [markOverlaps, List.map_map]
  calc
    _ = volumes.zipIdx.map (EvidenceVolume.extent ∘ Prod.fst) := by
      apply List.map_congr_left
      intro v _
      simp only [Function.comp_apply]
      split_ifs <;> rfl
    _ = volumes.map EvidenceVolume.extent := by
      rw [← List.map_map, List.zipIdx_map_fst]

theorem offsetIdLE_trans {a b c : EvidenceVolume}
    (hab : offsetIdLE a b) (hbc : offsetIdLE b c) : offsetIdLE a c := by
  rcases hab with hab | ⟨hab, hab'⟩
  · rcases hbc with hbc | ⟨hbc, -⟩
    · exact Or.inl (hab.trans hbc)
    · exact Or.inl (hbc ▸ hab)
  · rcases hbc with hbc | ⟨hbc, hbc'⟩
    · exact Or.inl (hab ▸ hbc)
    · exact Or.inr ⟨hab.trans hbc, le_trans hab' hbc'⟩

theorem offsetIdLE_total (a b : EvidenceVolume) :
    offsetIdLE a b ∨ offsetIdLE b a := by
  rcases lt_trichotomy a.byteOffset b.byteOffset with h | h | h
  · exact Or.inl (Or.inl h)
  · rcases le_total a.volumeId b.volumeId with hid | hid
    · exact Or.inl (Or.inr ⟨h, hid⟩)
    · exact Or.inr (Or.inr ⟨h.symm, hid⟩)
  · exact Or.inr (Or.inl h)

/-- A listing with gaps is the gap loop over its volumes' extents in offset
order. -/
theorem exists_sorted_extents (scheme : VolumeScheme)
    {allocated : List EvidenceVolume} (hne : allocated ≠ [])
    (gapStartLba : ℕ) (gapEndLba : Option ℕ) :
    ∃ es : List Extent,
      es.Perm (allocated.map EvidenceVolume.extent) ∧
        (es.Pairwise fun a b => a.offset ≤ b.offset) ∧
        (withUnallocatedGaps ctx reader scheme allocated gapStartLba
            gapEndLba).map EvidenceVolume.extent =
          fillGaps reader.sectorSize reader.size scheme
            (gapEndLimit reader gapEndLba)
            (gapStart reader gapStartLba gapEndLba) es := by
  have : Std.Total offsetIdLE := ⟨offsetIdLE_total⟩
  have : IsTrans EvidenceVolume offsetIdLE := ⟨fun _ _ _ => offsetIdLE_trans⟩
  refine ⟨(allocated.insertionSort offsetIdLE).map EvidenceVolume.extent,
    (List.perm_insertionSort offsetIdLE allocated).map _, ?_, ?_⟩
  · rw [List.pairwise_map]
    apply (List.pairwise_insertionSort offsetIdLE allocated).imp
    rintro a b (h | ⟨h, -⟩)
    · exact h.le
    · exact h.le
  · rw [withUnallocatedGaps, if_neg hne, map_extent_renumber,
      map_extent_combineGaps]

end Listing

/-! ## The volumes of a table that are no gaps -/

section Specs

variable (reader : Reader)

/-- The `_volume` calls for a table, gaps apart. -/
def Table.specs : Table → List VolumeSpec
  | .empty => []
  | .superfloppy warnings => [superfloppySpec reader warnings]
  | .protective entry => [protectiveSpec entry]
  | .mbr items => mbrSpecs reader 0 items
  | .gptTooLarge header =>
      [warningSpec reader 0 .gpt (header.entryLba * reader.sectorSize)
        (tooLargeWarning header)]
  | .gpt header warnings entries =>
      entries.zipIdx.map (gptSpec reader header warnings)

/-- How the listing of a table is completed: with the scheme of the gaps and
the area they fill, or not at all. -/
def Table.gaps : Table → Option (VolumeScheme × ℕ × ℕ)
  | .protective _ => some (.unpartitioned, gapStart reader 0 none,
      gapEndLimit reader none)
  | .mbr _ => some (.unpartitioned, gapStart reader 0 none,
      gapEndLimit reader none)
  | .gpt header _ _ =>
      some (.gpt, gapStart reader header.firstUsable (some header.lastUsable),
        gapEndLimit reader (some header.lastUsable))
  | _ => none

theorem ofList_ne_unallocated {c : Char} {cs : List Char} (hc : c ≠ 'U') :
    String.ofList (c :: cs) ≠ "UNALLOCATED" := by
  intro h
  have hlist := congrArg String.toList h
  rw [String.toList_ofList] at hlist
  exact hc (List.cons.inj hlist).1

theorem typeText_ne (partitionType : ℕ) :
    typeText partitionType ≠ "UNALLOCATED" :=
  ofList_ne_unallocated (by decide)

theorem uuidText_ne (data : List UInt8) : uuidText data ≠ "UNALLOCATED" :=
  ofList_ne_unallocated (Nat.digitChar_ne 'U' (by decide))

def VolumeSpec.IsVolume (spec : VolumeSpec) : Prop :=
  spec.partitionType ≠ "UNALLOCATED"

/-- The `_volume` calls the parser makes for what it reads. -/
inductive ParserSpec : VolumeSpec → Prop
  | superfloppy (warnings : List Warning) :
      ParserSpec (superfloppySpec reader warnings)
  | protective (entry : MbrEntry) : ParserSpec (protectiveSpec entry)
  | primary (index : ℕ) (entry : MbrEntry) :
      ParserSpec (primarySpec index entry)
  | logical (index : ℕ) (logical : Logical × ℕ) :
      ParserSpec (logicalSpec index logical)
  | parserWarning (index : ℕ) (scheme : VolumeScheme) (byteOffset : ℕ)
      (w : Warning) : ParserSpec (warningSpec reader index scheme byteOffset w)
  | gpt (header : GptHeader) (warnings : List Warning) (entry : GptEntry × ℕ) :
      ParserSpec (gptSpec reader header warnings entry)

theorem parserSpec_chainSpecs (firstVolumeIndex : ℕ) (walk : ChainWalk) :
    ∀ spec ∈ chainSpecs reader firstVolumeIndex walk, ParserSpec reader spec := by
  have happend {specs : List VolumeSpec} {spec : VolumeSpec}
      (hspecs : ∀ s ∈ specs, ParserSpec reader s)
      (hspec : ParserSpec reader spec) :
      ∀ s ∈ specs ++ [spec], ParserSpec reader s := by
    intro s hs
    rcases List.mem_append.mp hs with hs | hs
    · exact hspecs s hs
    · rwa [List.mem_singleton.mp hs]
  have hlogicals : ∀ s ∈ walk.logicals.zipIdx.map
      (logicalSpec firstVolumeIndex), ParserSpec reader s := by
    intro s hs
    obtain ⟨logical, -, rfl⟩ := List.mem_map.mp hs
    exact .logical firstVolumeIndex logical
  unfold chainSpecs
  dsimp only
  split_ifs
  all_goals first
    | exact hlogicals
    | exact happend hlogicals (.parserWarning _ _ _ _)
    | exact happend (happend hlogicals (.parserWarning _ _ _ _))
        (.parserWarning _ _ _ _)

theorem parserSpec_mbrSpecs (items : List MbrItem) (index : ℕ) :
    ∀ spec ∈ mbrSpecs reader index items, ParserSpec reader spec := by
  induction items generalizing index with
  | nil => exact fun spec hspec => (List.not_mem_nil hspec).elim
  | cons item items ih =>
      intro spec hspec
      rcases List.mem_append.mp hspec with hspec | hspec
      · cases item with
        | primary entry =>
            rw [List.mem_singleton.mp hspec]
            exact .primary index entry
        | extended walk =>
            exact parserSpec_chainSpecs reader index walk spec hspec
      · exact ih _ spec hspec

theorem parserSpec_specs (table : Table) :
    ∀ spec ∈ table.specs reader, ParserSpec reader spec := by
  intro spec hspec
  cases table with
  | empty => exact (List.not_mem_nil hspec).elim
  | superfloppy warnings =>
      rw [List.mem_singleton.mp hspec]
      exact .superfloppy warnings
  | protective entry =>
      rw [List.mem_singleton.mp hspec]
      exact .protective entry
  | mbr items => exact parserSpec_mbrSpecs reader items 0 spec hspec
  | gptTooLarge header =>
      rw [List.mem_singleton.mp hspec]
      exact .parserWarning _ _ _ _
  | gpt header warnings entries =>
      obtain ⟨entry, -, rfl⟩ := List.mem_map.mp hspec
      exact .gpt header warnings entry

theorem ParserSpec.isVolume {spec : VolumeSpec}
    (h : ParserSpec reader spec) : spec.IsVolume := by
  cases h with
  | superfloppy warnings => simp [VolumeSpec.IsVolume, superfloppySpec]
  | protective entry => simp [VolumeSpec.IsVolume, protectiveSpec]
  | primary index entry => exact typeText_ne _
  | logical index logical => exact typeText_ne _
  | parserWarning index scheme byteOffset w =>
      simp [VolumeSpec.IsVolume, warningSpec]
  | gpt header warnings entry =>
      unfold gptSpec
      split_ifs
      · simp [VolumeSpec.IsVolume, warningSpec]
      · exact uuidText_ne _

theorem placed_specs {es : List Extent}
    (hperm : es.Perm ((table.specs reader).map (specExtent reader))) :
    ∀ e ∈ es, Placed reader.sectorSize reader.size e ∧ e.isGap = false := by
  intro e he
  obtain ⟨spec, hspec, rfl⟩ := List.mem_map.mp (hperm.mem_iff.mp he)
  exact ⟨placed_specExtent reader spec,
    decide_eq_false (parserSpec_specs reader table spec hspec).isVolume⟩

/-! ## What a table that was read looks like -/

theorem length_readAt {offset length : ℕ} {data : List UInt8}
    (h : reader.readAt offset length = .ok data) :
    data.length ≤ length ∧ length ≤ maxEvidenceReadSize := by
  unfold Reader.readAt at h
  split_ifs at h
  · obtain rfl := Except.ok.inj h
    exact ⟨Nat.zero_le _, by omega⟩
  · obtain rfl := Except.ok.inj h
    rw [List.length_map, List.length_range]
    exact ⟨min_le_left _ _, by omega⟩

/-- The tables that reading an image can return. -/
inductive ReadTable (reader : Reader) : Table → Prop
  | empty : ReadTable reader .empty
  | superfloppy (warnings : List Warning) :
      ReadTable reader (.superfloppy warnings)
  | protective (entry : MbrEntry) (hsector : 512 ≤ reader.sectorSize) :
      ReadTable reader (.protective entry)
  | mbr (entries : List MbrEntry) (items : List MbrItem)
      (hsector : 512 ≤ reader.sectorSize) (hentries : entries.length = 4)
      (hitems : mbrItems reader entries = .ok items)
      (hne : mbrSpecs reader 0 items ≠ []) : ReadTable reader (.mbr items)
  | gptTooLarge (header : GptHeader) (hsector : 512 ≤ reader.sectorSize) :
      ReadTable reader (.gptTooLarge header)
  | gpt (header : GptHeader) (warnings : List Warning)
      (entries : List GptEntry) (hsector : 512 ≤ reader.sectorSize)
      (hne : entries ≠ []) (hlength : entries.length ≤ maxEvidenceReadSize) :
      ReadTable reader (.gpt header warnings entries)

theorem length_gptEntries (entryCount entrySize : ℕ) (data : List UInt8) :
    (gptEntries entryCount entrySize data).length ≤ data.length := by
  calc
    (gptEntries entryCount entrySize data).length ≤
        min entryCount (data.length / entrySize) := by
      apply (List.length_filter_le _ _).trans
      rw [List.length_map, List.length_range]
    _ ≤ data.length := (min_le_right _ _).trans (Nat.div_le_self _ _)

theorem readTable_of_gptTable (hsector : 512 ≤ reader.sectorSize)
    (h : gptTable reader = .ok (some table)) : ReadTable reader table := by
  unfold gptTable at h
  obtain ⟨sector, -, h⟩ := bind_ok h
  cases hheader : gptHeader sector with
  | none => simp [hheader] at h
  | some header =>
      simp only [hheader] at h
      split_ifs at h
      · obtain rfl := Option.some.inj (Except.ok.inj h)
        exact .gptTooLarge header hsector
      · simp at h
      · obtain ⟨data, hdata, h⟩ := bind_ok h
        split_ifs at h with hempty
        · simp at h
        obtain rfl := Option.some.inj (Except.ok.inj h)
        refine .gpt header _ _ hsector ?_ ?_
        · intro hnil
          rw [hnil] at hempty
          exact hempty rfl
        · have := length_readAt reader hdata
          exact (length_gptEntries _ _ data).trans (this.1.trans this.2)

theorem readTable_of_partitionTable (h : partitionTable reader = .ok table) :
    ReadTable reader table := by
  unfold partitionTable at h
  split_ifs at h
  · obtain rfl := Except.ok.inj h
    exact .empty
  obtain ⟨boot, hboot, h⟩ := bind_ok h
  split_ifs at h with hshort hsignature
  · obtain rfl := Except.ok.inj h
    exact .superfloppy _
  · obtain rfl := Except.ok.inj h
    exact .superfloppy _
  have hsector : 512 ≤ reader.sectorSize := by
    have := (length_readAt reader hboot).1
    omega
  dsimp only at h
  split at h
  · obtain ⟨found, hfound, h⟩ := bind_ok h
    cases found with
    | none =>
        obtain rfl := Except.ok.inj h
        exact .protective _ hsector
    | some gpt =>
        obtain rfl := Except.ok.inj h
        exact readTable_of_gptTable reader hsector hfound
  · obtain ⟨items, hitems, h⟩ := bind_ok h
    split_ifs at h with hempty
    · obtain rfl := Except.ok.inj h
      exact .superfloppy _
    · obtain rfl := Except.ok.inj h
      refine .mbr (mbrEntries boot) items hsector rfl hitems ?_
      intro hnil
      rw [hnil] at hempty
      exact hempty rfl

theorem specs_ne_nil (h : ReadTable reader table)
    (hgaps : (table.gaps reader).isSome = true) : table.specs reader ≠ [] := by
  cases h with
  | empty => simp [Table.gaps] at hgaps
  | superfloppy warnings => simp [Table.gaps] at hgaps
  | protective entry hsector => simp [Table.specs]
  | mbr entries items hsector hentries hitems hne => exact hne
  | gptTooLarge header hsector => simp [Table.specs]
  | gpt header warnings entries hsector hne hlength =>
      simpa [Table.specs] using hne

/-! ## The extents listed for a table -/

theorem map_extent_specs (ctx : Context) (specs : List VolumeSpec) :
    (specs.map (volume ctx reader)).map EvidenceVolume.extent =
      specs.map (specExtent reader) := by
  rw [List.map_map]
  rfl

theorem volumes_of_gaps_none (ctx : Context) (hgaps : table.gaps reader = none)
    :
    (table.volumes ctx reader).map EvidenceVolume.extent =
      (table.specs reader).map (specExtent reader) := by
  cases table <;> first | rfl | simp [Table.gaps] at hgaps

theorem volumes_of_gaps_some (ctx : Context) (hspecs : table.specs reader ≠ [])
    {scheme : VolumeScheme} {start limit : ℕ}
    (hgaps : table.gaps reader = some (scheme, start, limit)) :
    ∃ es : List Extent,
      es.Perm ((table.specs reader).map (specExtent reader)) ∧
        (es.Pairwise fun a b => a.offset ≤ b.offset) ∧
        (table.volumes ctx reader).map EvidenceVolume.extent =
          fillGaps reader.sectorSize reader.size scheme limit start es := by
  have hlisting (allocated : List EvidenceVolume)
      (hextents : allocated.map EvidenceVolume.extent =
        (table.specs reader).map (specExtent reader))
      (gapStartLba : ℕ) (gapEndLba : Option ℕ)
      (hvolumes : table.volumes ctx reader =
        withUnallocatedGaps ctx reader scheme allocated gapStartLba gapEndLba)
      (hstart : gapStart reader gapStartLba gapEndLba = start)
      (hlimit : gapEndLimit reader gapEndLba = limit) := by
    have hne : allocated ≠ [] := by
      rintro rfl
      exact hspecs (List.map_eq_nil_iff.mp hextents.symm)
    have h := exists_sorted_extents ctx reader scheme hne gapStartLba gapEndLba
    rwa [← hvolumes, hextents, hstart, hlimit] at h
  cases table with
  | protective entry =>
      obtain ⟨rfl, rfl, rfl⟩ : _ ∧ _ ∧ _ := by simpa [Table.gaps] using hgaps
      exact hlisting _ rfl 0 none rfl rfl rfl
  | mbr items =>
      obtain ⟨rfl, rfl, rfl⟩ : _ ∧ _ ∧ _ := by simpa [Table.gaps] using hgaps
      refine hlisting _ ?_ 0 none rfl rfl rfl
      rw [map_extent_markOverlaps, map_extent_specs]
      rfl
  | gpt header warnings entries =>
      obtain ⟨rfl, rfl, rfl⟩ : _ ∧ _ ∧ _ := by simpa [Table.gaps] using hgaps
      refine hlisting _ ?_ _ _ rfl rfl rfl
      rw [map_extent_markOverlaps, Table.specs, List.map_map, List.map_map]
      rfl
  | empty => simp [Table.gaps] at hgaps
  | superfloppy warnings => simp [Table.gaps] at hgaps
  | gptTooLarge header => simp [Table.gaps] at hgaps

end Specs

end ApexForensic.Partitions
