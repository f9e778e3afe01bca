import ApexForensic.Partitions.DeclaredRanges
import ApexForensic.Partitions.VolumeStore

/-!
# Storing a volume listing

A listing is stored exactly when no extended chain of its table is corrupt,
the declared ranges are listed under distinct keys at byte offsets that fit a
column, and no GPT entry is followed, at or behind the end of the image, by a
gap of its own range.
-/

namespace ApexForensic.Partitions

open ApexForensic.Support ApexForensic.Domain

variable {v : EvidenceVolume} {spec : VolumeSpec} {scheme : VolumeScheme}
  {rows volumes : List EvidenceVolume}

/-! ## What is listed -/

section Listing

variable (ctx : Context) (reader : Reader)

/-- A volume as the parser lists it, whatever its number and warnings. -/
structure Listed (v : EvidenceVolume) : Prop where
  named : v.Named ctx.uuid5
  evidenceId : v.evidenceId = ctx.evidenceId
  readerId : v.readerId = reader.readerId
  readerVersion : v.readerVersion = reader.readerVersion
  sectorSize : v.sectorSize = reader.sectorSize
  byteOffset : v.byteOffset = v.startLba * reader.sectorSize
  byteLength : v.byteLength =
    clippedLength reader.size v.byteOffset v.rawLocator.declaredByteLength
  endLba : v.endLba = v.startLba + (if v.byteLength = 0 then 0
    else ceilTrueDiv v.byteLength reader.sectorSize : ℕ) - 1

theorem colon_not_mem_hexByte (upper : Bool) (byte : UInt8) :
    ':' ∉ hexByte upper byte := by
  have hdigit : ∀ i < 16, ':' ≠ Nat.digitChar i ∧
      ':' ≠ (Nat.digitChar i).toUpper := by decide
  have hlt : byte.toNat < 256 := byte.toNat_lt
  have hhigh := hdigit (byte.toNat / 16) (by omega)
  have hlow := hdigit (byte.toNat % 16) (by omega)
  cases upper
  · simp [hexByte, hhigh.1, hlow.1]
  · simp [hexByte, hhigh.2, hlow.2]

theorem plain_typeText (partitionType : ℕ) :
    Plain (typeText partitionType) := by
  rw [Plain, typeText, String.toList_ofList]
  simp [colon_not_mem_hexByte]

theorem plain_uuidText (data : List UInt8) : Plain (uuidText data) := by
  rw [Plain, uuidText, String.toList_ofList]
  simp [colon_not_mem_hexByte]

theorem listed_volume (htype : Plain spec.partitionType)
    (hguid : Plain (spec.guid.getD "")) :
    Listed ctx reader (volume ctx reader spec) where
  named := ⟨rfl, ctx.caseId_plain, ctx.evidenceId_plain, htype, hguid⟩
  evidenceId := rfl
  readerId := rfl
  readerVersion := rfl
  sectorSize := rfl
  byteOffset := rfl
  byteLength := rfl
  endLba := rfl

theorem listed_of_parserSpec (h : ParserSpec reader spec) :
    Listed ctx reader (volume ctx reader spec) := by
  have hwarning (index : ℕ) (scheme : VolumeScheme) (byteOffset : ℕ)
      (w : Warning) : Listed ctx reader
        (volume ctx reader (warningSpec reader index scheme byteOffset w)) :=
    listed_volume ctx reader (by simp only [warningSpec]; decide)
      (by simp only [warningSpec]; decide)
  cases h with
  | superfloppy warnings =>
      exact listed_volume ctx reader (by simp only [superfloppySpec]; decide)
        (by simp only [superfloppySpec]; decide)
  | protective entry =>
      exact listed_volume ctx reader (by simp only [protectiveSpec]; decide)
        (by simp only [protectiveSpec]; decide)
  | primary index entry =>
      exact listed_volume ctx reader (plain_typeText _)
        (by simp only [primarySpec]; decide)
  | logical index logical =>
      exact listed_volume ctx reader (plain_typeText _)
        (by simp only [logicalSpec]; decide)
  | parserWarning index scheme byteOffset w =>
      exact hwarning index scheme byteOffset w
  | gpt header warnings entry =>
      unfold gptSpec
      split_ifs
      · exact hwarning _ _ _ _
      · exact listed_volume ctx reader (plain_uuidText _) (plain_uuidText _)

theorem listed_unallocatedGap (scheme : VolumeScheme)
    (gapIndex cursor length : ℕ) :
    Listed ctx reader
      (unallocatedGap ctx reader scheme gapIndex cursor length) :=
  listed_volume ctx reader (by simp only [unallocatedGapSpec]; decide)
    (by simp only [unallocatedGapSpec]; decide)

variable {ctx reader}

theorem Listed.with_warnings (h : Listed ctx reader v) (warnings : List Warning)
    : Listed ctx reader { v with warnings := warnings } := by
  obtain ⟨⟨h1, h2, h3, h4, h5⟩, h6, h7, h8, h9, h10, h11, h12⟩ := h
  exact ⟨⟨h1, h2, h3, h4, h5⟩, h6, h7, h8, h9, h10, h11, h12⟩

theorem Listed.with_index (h : Listed ctx reader v) (index : ℕ) :
    Listed ctx reader { v with volumeIndex := index } := by
  obtain ⟨⟨h1, h2, h3, h4, h5⟩, h6, h7, h8, h9, h10, h11, h12⟩ := h
  exact ⟨⟨h1, h2, h3, h4, h5⟩, h6, h7, h8, h9, h10, h11, h12⟩

theorem listed_markOverlaps (h : ∀ v ∈ volumes, Listed ctx reader v) :
    ∀ v ∈ markOverlaps volumes, Listed ctx reader v := by
  intro v hv
  obtain ⟨⟨w, position⟩, hw, rfl⟩ := List.mem_map.mp hv
  have hlisted := h w (List.fst_mem_of_mem_zipIdx hw)
  dsimp only
  split_ifs
  · exact hlisted.with_warnings _
  · exact hlisted

theorem listed_combineGaps {endLimit : ℕ}
    (h : ∀ v ∈ volumes, Listed ctx reader v) (cursor gapIndex : ℕ) :
    ∀ v ∈ combineGaps ctx reader scheme endLimit cursor gapIndex volumes,
      Listed ctx reader v := by
  induction volumes generalizing cursor gapIndex with
  | nil =>
      intro v hv
      rw [combineGaps] at hv
      split_ifs at hv
      · rw [List.mem_singleton.mp hv]
        exact listed_unallocatedGap ctx reader _ _ _ _
      · exact (List.not_mem_nil hv).elim
  | cons w rest ih =>
      rw [List.forall_mem_cons] at h
      rw [combineGaps]
      split_ifs
      · exact List.forall_mem_cons.mpr
          ⟨listed_unallocatedGap ctx reader _ _ _ _,
            List.forall_mem_cons.mpr ⟨h.1, ih h.2 _ _⟩⟩
      · exact List.forall_mem_cons.mpr ⟨h.1, ih h.2 _ _⟩

theorem listed_withUnallocatedGaps {allocated : List EvidenceVolume}
    (h : ∀ v ∈ allocated, Listed ctx reader v) (gapStartLba : ℕ)
    (gapEndLba : Option ℕ) :
    ∀ v ∈ withUnallocatedGaps ctx reader scheme allocated gapStartLba
        gapEndLba, Listed ctx reader v ∧ v.volumeIndex <
          (withUnallocatedGaps ctx reader scheme allocated gapStartLba
            gapEndLba).length := by
  intro v hv
  unfold withUnallocatedGaps at hv ⊢
  split_ifs at hv ⊢
  · exact (List.not_mem_nil hv).elim
  · obtain ⟨⟨w, position⟩, hw, rfl⟩ := List.mem_map.mp hv
    have hsorted : ∀ x ∈ allocated.insertionSort offsetIdLE,
        Listed ctx reader x := by
      intro x hx
      exact h x ((List.perm_insertionSort _ _).mem_iff.mp hx)
    refine ⟨(listed_combineGaps hsorted _ _ w
      (List.fst_mem_of_mem_zipIdx hw)).with_index position, ?_⟩
    have hposition := List.snd_lt_of_mem_zipIdx hw
    simpa [renumber] using hposition

theorem listed_volumes (table : Table) :
    ∀ v ∈ table.volumes ctx reader, Listed ctx reader v ∧
      v.volumeIndex < (table.volumes ctx reader).length := by
  have hspecs : ∀ spec ∈ table.specs reader,
      Listed ctx reader (volume ctx reader spec) :=
    fun spec hspec =>
      listed_of_parserSpec ctx reader (parserSpec_specs reader table spec hspec)
  have hmap : ∀ v ∈ (table.specs reader).map (volume ctx reader),
      Listed ctx reader v := by
    intro v hv
    obtain ⟨spec, hspec, rfl⟩ := List.mem_map.mp hv
    exact hspecs spec hspec
  cases table with
  | empty => exact fun v hv => (List.not_mem_nil hv).elim
  | superfloppy warnings =>
      intro v hv
      obtain rfl := List.mem_singleton.mp hv
      exact ⟨hspecs _ List.mem_cons_self, Nat.one_pos⟩
  | protective entry => exact listed_withUnallocatedGaps hmap _ _
  | mbr items =>
      exact listed_withUnallocatedGaps (listed_markOverlaps hmap) _ _
  | gptTooLarge header =>
      intro v hv
      obtain rfl := List.mem_singleton.mp hv
      exact ⟨hspecs _ List.mem_cons_self, Nat.one_pos⟩
  | gpt header warnings entries =>
      refine listed_withUnallocatedGaps (listed_markOverlaps ?_) _ _
      rwa [Table.specs, List.map_map] at hmap

end Listing

/-! ## Storable listings -/

/-- The store accepts the volumes next to the rows of other evidence. -/
structure Storable (volumes : List EvidenceVolume) : Prop where
  ids : (volumes.map EvidenceVolume.volumeId).Nodup
  ranges : (volumes.map fun v => (v.scheme, v.byteOffset, v.byteLength)).Nodup
  integers : ∀ v ∈ volumes, ∀ n ∈ v.integers, FitsColumn n

/-- The range starts in the last sector or behind the image, is listed there,
and a later one starts behind the image. -/
def DeclaredRange.StrayBefore (reader : Reader) (u v : DeclaredRange) : Prop :=
  sectorStart reader.sectorSize reader.size ≤ u.startLba * reader.sectorSize ∧
    u.startLba < v.startLba ∧ reader.size < v.startLba * reader.sectorSize ∧
    (reader.size ≤ u.startLba * reader.sectorSize ∨ 0 < u.sectorCount)

/-- What a table must declare for its listing to be stored. -/
structure StorableTable (reader : Reader) (table : Table) : Prop where
  chainsIntact : ∀ walk ∈ table.chains, walk.corrupt = false
  rangesDistinct :
    ((table.ranges reader).map (DeclaredRange.listedKey reader)).Nodup
  offsetsFit : ∀ r ∈ table.ranges reader,
    r.startLba * reader.sectorSize < 2 ^ 63
  noStray : ∀ u ∈ table.ranges reader, ∀ v ∈ table.ranges reader,
    u.scheme = .gpt → ¬ u.StrayBefore reader v

section Table

variable {ctx : Context} {reader : Reader} {table : Table}

theorem clippedLength_pos_iff {size offset sectors ss : ℕ} (hss : 0 < ss)
    (hlt : offset < size) :
    0 < clippedLength size offset (sectors * ss) ↔ 0 < sectors := by
  have hcount : sectors = 0 ∨ ss ≤ sectors * ss := by
    rcases Nat.eq_zero_or_pos sectors with h | h
    · exact Or.inl h
    · exact Or.inr (Nat.le_mul_of_pos_left ss h)
  rcases hcount with rfl | hcount
  · simp [clippedLength]
    omega
  · have hpos : 0 < sectors := by
      by_contra h
      rw [Nat.eq_zero_of_not_pos h, Nat.zero_mul] at hcount
      omega
    simp only [hpos, iff_true, clippedLength]
    split_ifs <;> omega

theorem stray_iff_strayBefore {es : List Extent}
    (hperm : es.Perm ((table.specs reader).map (specExtent reader)))
    (hranges : (table.specs reader).map VolumeSpec.range =
      table.ranges reader) :
    Stray reader.sectorSize reader.size scheme es ↔
      ∃ u ∈ table.ranges reader, ∃ v ∈ table.ranges reader,
        u.scheme = scheme ∧ u.StrayBefore reader v := by
  have hss := reader.sectorSize_pos
  have hlast (r : DeclaredRange) :
      (reader.size ≤ r.startLba * reader.sectorSize ∨
        0 < clippedLength reader.size (r.startLba * reader.sectorSize)
          (r.sectorCount * reader.sectorSize)) ↔
      (reader.size ≤ r.startLba * reader.sectorSize ∨ 0 < r.sectorCount) := by
    rcases le_or_gt reader.size (r.startLba * reader.sectorSize) with h | h
    · simp [h]
    · rw [clippedLength_pos_iff hss h]
  constructor
  · rintro ⟨u, hu, v, hv, hscheme, hstart, huv, hsize, hreach⟩
    obtain ⟨a, ha, rfl⟩ := List.mem_map.mp (hperm.mem_iff.mp hu)
    obtain ⟨b, hb, rfl⟩ := List.mem_map.mp (hperm.mem_iff.mp hv)
    exact ⟨a.range, hranges ▸ List.mem_map_of_mem ha,
      b.range, hranges ▸ List.mem_map_of_mem hb, hscheme, hstart,
      Nat.lt_of_mul_lt_mul_right huv, hsize, (hlast a.range).mp hreach⟩
  · rintro ⟨u, hu, v, hv, hscheme, hstart, huv, hsize, hreach⟩
    rw [← hranges] at hu hv
    obtain ⟨a, ha, rfl⟩ := List.mem_map.mp hu
    obtain ⟨b, hb, rfl⟩ := List.mem_map.mp hv
    exact ⟨specExtent reader a, hperm.mem_iff.mpr (List.mem_map_of_mem ha),
      specExtent reader b, hperm.mem_iff.mpr (List.mem_map_of_mem hb), hscheme,
      hstart, Nat.mul_lt_mul_of_pos_right huv hss, hsize,
      (hlast a.range).mpr hreach⟩

theorem scheme_eq_gaps_iff {start limit : ℕ}
    (hgaps : table.gaps reader = some (scheme, start, limit)) :
    ∀ u ∈ table.ranges reader, u.scheme = scheme ↔ u.scheme = .gpt := by
  intro u hu
  cases table with
  | protective entry =>
      obtain ⟨rfl, -, -⟩ : _ ∧ _ ∧ _ := by simpa [Table.gaps] using hgaps
      rw [List.mem_singleton.mp hu]
      simp
  | mbr items =>
      obtain ⟨rfl, -, -⟩ : _ ∧ _ ∧ _ := by simpa [Table.gaps] using hgaps
      obtain ⟨item, -, hu⟩ := List.mem_flatMap.mp hu
      cases item with
      | primary entry =>
          rw [List.mem_singleton.mp hu]
          simp
      | extended walk =>
          have hscheme : u.scheme = .mbrExtended := by
            rcases List.mem_append.mp hu with hu | hu
            · obtain ⟨logical, -, rfl⟩ := List.mem_map.mp hu
              rfl
            · split_ifs at hu
              · exact (List.not_mem_nil hu).elim
              · rw [List.mem_singleton.mp hu]
          simp [hscheme]
  | gpt header warnings entries =>
      obtain ⟨rfl, -, -⟩ : _ ∧ _ ∧ _ := by simpa [Table.gaps] using hgaps
      rfl
  | empty => simp [Table.gaps] at hgaps
  | superfloppy warnings => simp [Table.gaps] at hgaps
  | gptTooLarge header => simp [Table.gaps] at hgaps

theorem gaps_bounds {start limit : ℕ}
    (hgaps : table.gaps reader = some (scheme, start, limit)) :
    CursorAt reader.sectorSize reader.size start ∧ start ≤ limit ∧
      limit ≤ reader.size := by
  have hbounds (gapStartLba : ℕ) (gapEndLba : Option ℕ) :
      CursorAt reader.sectorSize reader.size
          (gapStart reader gapStartLba gapEndLba) ∧
        gapStart reader gapStartLba gapEndLba ≤
          gapEndLimit reader gapEndLba ∧
        gapEndLimit reader gapEndLba ≤ reader.size :=
    ⟨cursorAt_gapStart _ _, min_le_left _ _, (limitAt_gapEndLimit _).2⟩
  cases table with
  | protective entry =>
      obtain ⟨-, rfl, rfl⟩ : _ ∧ _ ∧ _ := by simpa [Table.gaps] using hgaps
      exact hbounds 0 none
  | mbr items =>
      obtain ⟨-, rfl, rfl⟩ : _ ∧ _ ∧ _ := by simpa [Table.gaps] using hgaps
      exact hbounds 0 none
  | gpt header warnings entries =>
      obtain ⟨-, rfl, rfl⟩ : _ ∧ _ ∧ _ := by simpa [Table.gaps] using hgaps
      exact hbounds header.firstUsable (some header.lastUsable)
  | empty => simp [Table.gaps] at hgaps
  | superfloppy warnings => simp [Table.gaps] at hgaps
  | gptTooLarge header => simp [Table.gaps] at hgaps

/-- The ranges of a listing are distinct exactly when its table meets the
first, second and last condition. -/
theorem nodup_ranges_iff (h : ReadTable reader table) :
    ((table.volumes ctx reader).map fun v =>
        (v.scheme, v.byteOffset, v.byteLength)).Nodup ↔
      (∀ walk ∈ table.chains, walk.corrupt = false) ∧
        ((table.ranges reader).map (DeclaredRange.listedKey reader)).Nodup ∧
        ∀ u ∈ table.ranges reader, ∀ v ∈ table.ranges reader,
          u.scheme = .gpt → ¬ u.StrayBefore reader v := by
  have hkeys : (table.volumes ctx reader).map (fun v =>
      (v.scheme, v.byteOffset, v.byteLength)) =
        ((table.volumes ctx reader).map EvidenceVolume.extent).map
          Extent.key := by
    rw [List.map_map]
    rfl
  rw [hkeys]
  cases hgaps : table.gaps reader with
  | none =>
      rw [volumes_of_gaps_none reader ctx hgaps, nodup_specs_iff reader h]
      have hnoStray : ∀ u ∈ table.ranges reader, ∀ v ∈ table.ranges reader,
          u.scheme = .gpt → ¬ u.StrayBefore reader v := by
        rintro u hu v hv hscheme ⟨-, hlt, -⟩
        cases table with
        | empty => exact List.not_mem_nil hu
        | superfloppy warnings =>
            rw [List.mem_singleton.mp hu] at hscheme
            exact VolumeScheme.noConfusion hscheme
        | gptTooLarge header =>
            rw [List.mem_singleton.mp hu, List.mem_singleton.mp hv] at hlt
            exact lt_irrefl _ hlt
        | _ => simp [Table.gaps] at hgaps
      exact ⟨fun hnodup => ⟨hnodup.1, hnodup.2, hnoStray⟩,
        fun hall => ⟨hall.1, hall.2.1⟩⟩
  | some area =>
      obtain ⟨scheme, start, limit⟩ := area
      obtain ⟨es, hperm, hsorted, hvolumes⟩ := volumes_of_gaps_some reader ctx
        (specs_ne_nil reader h (by rw [hgaps]; rfl)) hgaps
      obtain ⟨hcursor, hstart, hlimit⟩ := gaps_bounds hgaps
      rw [hvolumes, nodup_fillGaps_iff reader.sectorSize_pos hlimit
        (placed_specs reader hperm) hsorted hcursor (hstart.trans hlimit),
        (hperm.map Extent.key).nodup_iff, nodup_specs_iff reader h, and_assoc]
      refine and_congr_right fun hcorrupt => and_congr_right fun _ => ?_
      rw [stray_iff_strayBefore hperm (map_range_specs reader h hcorrupt)]
      have hscheme := scheme_eq_gaps_iff hgaps
      constructor
      · intro hnot u hu v hv hgpt hstray
        exact hnot ⟨u, hu, v, hv, (hscheme u hu).mpr hgpt, hstray⟩
      · rintro hnot ⟨u, hu, v, hv, hgap, hstray⟩
        exact hnot u hu v hv ((hscheme u hu).mp hgap) hstray

/-! ## Integers -/

theorem length_fillGaps_le (ss size : ℕ) (scheme : VolumeScheme)
    (endLimit cursor : ℕ) (es : List Extent) :
    (fillGaps ss size scheme endLimit cursor es).length ≤
      2 * es.length + 1 := by
  induction es generalizing cursor with
  | nil =>
      rw [fillGaps]
      split_ifs <;> simp
  | cons e rest ih =>
      have := ih (max cursor (e.offset + e.length))
      rw [fillGaps_cons]
      split_ifs <;> simp <;> omega

theorem length_chainSpecs_le (reader : Reader) (walk : ChainWalk) (index : ℕ) :
    (chainSpecs reader index walk).length ≤ walk.logicals.length + 2 := by
  unfold chainSpecs
  dsimp only
  split_ifs <;> simp

theorem length_mbrSpecs_le (reader : Reader) {items : List MbrItem}
    (hwalked : ∀ item ∈ items, item.Walked) (index : ℕ) :
    (mbrSpecs reader index items).length ≤ 130 * items.length := by
  induction items generalizing index with
  | nil => exact le_rfl
  | cons item items ih =>
      rw [List.forall_mem_cons] at hwalked
      have hitem : (itemSpecs reader index item).length ≤ 130 := by
        cases item with
        | primary entry => simp [itemSpecs]
        | extended walk =>
            have hlength := length_chainSpecs_le reader walk index
            have hlimit : walk.logicals.length ≤ 128 := hwalked.1.2
            rw [itemSpecs]
            omega
      have htail := ih hwalked.2 (index + (itemSpecs reader index item).length)
      rw [mbrSpecs, List.length_append, List.length_cons]
      omega

theorem length_specs_le (h : ReadTable reader table) :
    (table.specs reader).length ≤ 16 * 1024 * 1024 := by
  cases h with
  | empty => simp [Table.specs]
  | superfloppy warnings => simp [Table.specs]
  | protective entry hsector => simp [Table.specs]
  | gptTooLarge header hsector => simp [Table.specs]
  | mbr entries items hsector hentries hitems hne =>
      obtain ⟨hlength, hwalked⟩ := walked_mbrItems hitems
      have := length_mbrSpecs_le reader hwalked 0
      simp only [Table.specs]
      omega
  | gpt header warnings entries hsector hne hlength =>
      simpa [Table.specs, maxEvidenceReadSize] using hlength

theorem length_volumes_lt (h : ReadTable reader table) :
    (table.volumes ctx reader).length < 2 ^ 63 := by
  have hspecs := length_specs_le h
  rw [← List.length_map EvidenceVolume.extent]
  cases hgaps : table.gaps reader with
  | none =>
      rw [volumes_of_gaps_none reader ctx hgaps, List.length_map]
      omega
  | some area =>
      obtain ⟨scheme, start, limit⟩ := area
      obtain ⟨es, hperm, -, hvolumes⟩ := volumes_of_gaps_some reader ctx
        (specs_ne_nil reader h (by rw [hgaps]; rfl)) hgaps
      have hes := hperm.length_eq
      rw [List.length_map] at hes
      have := length_fillGaps_le reader.sectorSize reader.size scheme limit
        start es
      rw [hvolumes]
      omega

/-- The offset of a listed range is declared, or lies before the end of the
image or a declared offset. -/
theorem offset_lt_of_mem (h : ReadTable reader table) {bound : ℕ}
    (hsize : reader.size < bound) (hspecs : ∀ spec ∈ table.specs reader,
      spec.startLba * reader.sectorSize < bound)
    (hv : v ∈ table.volumes ctx reader) : v.byteOffset < bound := by
  have hmem : v.extent ∈
      (table.volumes ctx reader).map EvidenceVolume.extent :=
    List.mem_map_of_mem hv
  have hdeclared {e : Extent}
      (he : e ∈ (table.specs reader).map (specExtent reader)) :
      e.offset < bound := by
    obtain ⟨spec, hspec, rfl⟩ := List.mem_map.mp he
    exact hspecs spec hspec
  cases hgaps : table.gaps reader with
  | none =>
      rw [volumes_of_gaps_none reader ctx hgaps] at hmem
      exact hdeclared hmem
  | some area =>
      obtain ⟨scheme, start, limit⟩ := area
      obtain ⟨es, hperm, -, hvolumes⟩ := volumes_of_gaps_some reader ctx
        (specs_ne_nil reader h (by rw [hgaps]; rfl)) hgaps
      obtain ⟨hcursor, -, hlimit⟩ := gaps_bounds hgaps
      rw [hvolumes] at hmem
      rcases mem_of_mem_fillGaps hmem with hes | hgap
      · exact hdeclared (hperm.mem_iff.mp hes)
      · obtain ⟨c, stop, -, -, hlt, hextent, hstop⟩ :=
          exists_cursor_of_gap (placed_specs reader hperm) hcursor hmem hgap
        have hoffset : v.byteOffset = sectorStart reader.sectorSize c :=
          congrArg Extent.offset hextent
        have hstart : sectorStart reader.sectorSize c ≤ c := sectorStart_le c
        rcases hstop with rfl | ⟨w, hw, rfl⟩
        · omega
        · have := hdeclared (hperm.mem_iff.mp hw)
          omega

theorem exists_volume_of_spec (h : ReadTable reader table)
    (hspec : spec ∈ table.specs reader) :
    ∃ v ∈ table.volumes ctx reader, v.extent = specExtent reader spec := by
  have hmem : specExtent reader spec ∈
      (table.volumes ctx reader).map EvidenceVolume.extent := by
    cases hgaps : table.gaps reader with
    | none =>
        rw [volumes_of_gaps_none reader ctx hgaps]
        exact List.mem_map_of_mem hspec
    | some area =>
        obtain ⟨scheme, start, limit⟩ := area
        obtain ⟨es, hperm, -, hvolumes⟩ := volumes_of_gaps_some reader ctx
          (specs_ne_nil reader h (by rw [hgaps]; rfl)) hgaps
        have hes := hperm.mem_iff.mpr (List.mem_map_of_mem hspec)
        have hfilter : (fillGaps reader.sectorSize reader.size scheme limit
            start es).filter (fun e => !e.isGap) = es :=
          filter_fillGaps fun e he => (placed_specs reader hperm e he).2
        rw [hvolumes]
        rw [← hfilter] at hes
        exact (List.mem_filter.mp hes).1
  obtain ⟨v, hv, hextent⟩ := List.mem_map.mp hmem
  exact ⟨v, hv, hextent⟩

theorem clippedLength_cases (size offset length : ℕ) :
    clippedLength size offset length = 0 ∨
      offset + clippedLength size offset length ≤ size := by
  unfold clippedLength
  split_ifs <;> omega

theorem Listed.fits (hv : Listed ctx reader v) (hindex : v.volumeIndex < 2 ^ 63)
    (hoffset : v.byteOffset < 2 ^ 63)
    (hsector : 512 ≤ reader.sectorSize ∨ v.startLba = 0) :
    ∀ n ∈ v.integers, FitsColumn n := by
  have hss := reader.sectorSize_pos
  have hsize := reader.size_lt
  have hlength : v.byteLength = 0 ∨ v.byteLength ≤ reader.size := by
    rw [hv.byteLength]
    have := clippedLength_cases reader.size v.byteOffset
      v.rawLocator.declaredByteLength
    omega
  have hstart : v.startLba ≤ v.byteOffset := by
    rw [hv.byteOffset]
    exact Nat.le_mul_of_pos_right _ hss
  have hend : v.startLba +
      ceilTrueDiv v.byteLength reader.sectorSize ≤ 2 ^ 63 := by
    rcases hsector with hsector | hzero
    · have hstart' : v.startLba * 512 ≤ v.byteOffset := by
        rw [hv.byteOffset]
        exact Nat.mul_le_mul_left _ hsector
      have hsectors : ceilTrueDiv v.byteLength reader.sectorSize ≤ 2 ^ 54 := by
        apply ceilTrueDiv_le_two_pow hss
        have := Nat.mul_le_mul_left (2 ^ 54) hsector
        omega
      omega
    · have hsectors : ceilTrueDiv v.byteLength reader.sectorSize ≤ 2 ^ 63 := by
        apply ceilTrueDiv_le_two_pow hss
        have := Nat.mul_le_mul_left (2 ^ 63) hss
        omega
      omega
  have hsectorSize := reader.sectorSize_lt
  have hlba := hv.endLba
  have hfield := hv.sectorSize
  intro n hn
  simp only [EvidenceVolume.integers, List.mem_cons, List.not_mem_nil,
    or_false] at hn
  unfold FitsColumn
  rcases hn with rfl | rfl | rfl | rfl | rfl | rfl
  · omega
  · omega
  · rw [hlba]
    split_ifs <;> omega
  · omega
  · omega
  · omega

theorem sectorSize_or_startLba (h : ReadTable reader table)
    (hv : v ∈ table.volumes ctx reader) :
    512 ≤ reader.sectorSize ∨ v.startLba = 0 := by
  cases h with
  | empty => exact (List.not_mem_nil hv).elim
  | superfloppy warnings =>
      rw [List.mem_singleton.mp hv]
      exact Or.inr rfl
  | protective entry hsector => exact Or.inl hsector
  | mbr entries items hsector hentries hitems hne => exact Or.inl hsector
  | gptTooLarge header hsector => exact Or.inl hsector
  | gpt header warnings entries hsector hne hlength => exact Or.inl hsector

theorem integersFit_iff (h : ReadTable reader table) :
    (∀ v ∈ table.volumes ctx reader, ∀ n ∈ v.integers, FitsColumn n) ↔
      ∀ spec ∈ table.specs reader,
        spec.startLba * reader.sectorSize < 2 ^ 63 := by
  constructor
  · intro hfits spec hspec
    obtain ⟨v, hv, hextent⟩ : ∃ v ∈ table.volumes ctx reader,
        v.extent = specExtent reader spec := exists_volume_of_spec h hspec
    have hoffset : v.byteOffset = spec.startLba * reader.sectorSize :=
      congrArg Extent.offset hextent
    have := (hfits v hv v.byteOffset (by simp [EvidenceVolume.integers])).2
    omega
  · intro hspecs v hv
    obtain ⟨hlisted, hindex⟩ := listed_volumes table v hv
    exact hlisted.fits (hindex.trans (length_volumes_lt h))
      (offset_lt_of_mem h reader.size_lt hspecs hv)
      (sectorSize_or_startLba h hv)

/-! ## Which tables are storable -/

theorem storableTable_of_storable (h : ReadTable reader table)
    (hstorable : Storable (table.volumes ctx reader)) :
    StorableTable reader table := by
  obtain ⟨hcorrupt, hdistinct, hstray⟩ :=
    (nodup_ranges_iff h).mp hstorable.ranges
  refine ⟨hcorrupt, hdistinct, ?_, hstray⟩
  intro r hr
  rw [← map_range_specs reader h hcorrupt] at hr
  obtain ⟨spec, hspec, rfl⟩ := List.mem_map.mp hr
  exact (integersFit_iff h).mp hstorable.integers spec hspec

/-- Volumes of distinct ranges have distinct names, and distinct ids unless
two of the names collide. -/
theorem nodup_ids (hlisted : ∀ v ∈ volumes, Listed ctx reader v)
    (hcollision : ∀ v ∈ volumes, ∀ w ∈ volumes,
      ctx.uuid5 v.idName = ctx.uuid5 w.idName → v.idName = w.idName)
    (hranges : (volumes.map fun v =>
      (v.scheme, v.byteOffset, v.byteLength)).Nodup) :
    (volumes.map EvidenceVolume.volumeId).Nodup := by
  rw [List.Nodup, List.pairwise_map] at hranges ⊢
  refine hranges.imp_of_mem ?_
  intro v w hv hw hne hid
  have hlv := hlisted v hv
  have hlw := hlisted w hw
  rw [hlv.named.volumeId, hlw.named.volumeId] at hid
  obtain ⟨-, hscheme, hstart, hlength⟩ :=
    hlv.named.eq_of_idName_eq hlw.named (hcollision v hv w hw hid)
  have hoffset : v.byteOffset = w.byteOffset := by
    rw [hlv.byteOffset, hlw.byteOffset, hstart]
  have hbytes : v.byteLength = w.byteLength := by
    rw [hlv.byteLength, hlw.byteLength, hoffset, hlength]
  exact hne (by rw [hscheme, hoffset, hbytes])

theorem nodup_uniqueColumns
    (hranges : (volumes.map fun v =>
      (v.scheme, v.byteOffset, v.byteLength)).Nodup) :
    (volumes.map EvidenceVolume.uniqueColumns).Nodup := by
  rw [List.Nodup, List.pairwise_map] at hranges ⊢
  refine hranges.imp ?_
  intro v w hne hcolumns
  simp only [EvidenceVolume.uniqueColumns, Prod.mk.injEq] at hcolumns
  obtain ⟨-, -, -, hscheme, hoffset, hlength⟩ := hcolumns
  exact hne (by
    rw [VolumeScheme.value_injective hscheme, hoffset, hlength])

theorem nodup_ranges_of_uniqueColumns
    (hlisted : ∀ v ∈ volumes, Listed ctx reader v)
    (hcolumns : (volumes.map EvidenceVolume.uniqueColumns).Nodup) :
    (volumes.map fun v => (v.scheme, v.byteOffset, v.byteLength)).Nodup := by
  rw [List.Nodup, List.pairwise_map] at hcolumns ⊢
  refine hcolumns.imp_of_mem ?_
  intro v w hv hw hne hrange
  simp only [Prod.mk.injEq] at hrange
  obtain ⟨hscheme, hoffset, hlength⟩ := hrange
  have hlv := hlisted v hv
  have hlw := hlisted w hw
  exact hne (by
    rw [EvidenceVolume.uniqueColumns, EvidenceVolume.uniqueColumns,
      hlv.evidenceId, hlw.evidenceId, hlv.readerId, hlw.readerId,
      hlv.readerVersion, hlw.readerVersion, hscheme, hoffset, hlength])

theorem storable_of_storableTable (h : ReadTable reader table)
    (hcollision : ∀ v ∈ table.volumes ctx reader,
      ∀ w ∈ table.volumes ctx reader,
        ctx.uuid5 v.idName = ctx.uuid5 w.idName → v.idName = w.idName)
    (htable : StorableTable reader table) :
    Storable (table.volumes ctx reader) := by
  have hranges : ((table.volumes ctx reader).map fun v =>
      (v.scheme, v.byteOffset, v.byteLength)).Nodup :=
    (nodup_ranges_iff h).mpr
      ⟨htable.chainsIntact, htable.rangesDistinct, htable.noStray⟩
  refine ⟨nodup_ids (fun v hv => (listed_volumes table v hv).1) hcollision
    hranges, hranges, ?_⟩
  refine (integersFit_iff h).mpr fun spec hspec => ?_
  have hrange : spec.range ∈ table.ranges reader := by
    rw [← map_range_specs reader h htable.chainsIntact]
    exact List.mem_map_of_mem hspec
  exact htable.offsetsFit spec.range hrange

theorem enumerateVolumes_eq_ok_iff {rows' : List EvidenceVolume}
    (htable : partitionTable reader = .ok table) :
    enumerateVolumes ctx reader rows =
        .ok (table.volumes ctx reader, rows') ↔
      (table.volumes ctx reader).foldlM insertVolume
        (rows.filter fun row => row.evidenceId ≠ ctx.evidenceId) =
          .ok rows' := by
  simp [enumerateVolumes, parse, htable, replaceEvidenceVolumes,
    bind_eq_ok_iff]

theorem storable_of_enumerateVolumes {rows' : List EvidenceVolume}
    (htable : partitionTable reader = .ok table)
    (h : enumerateVolumes ctx reader rows =
      .ok (table.volumes ctx reader, rows')) :
    Storable (table.volumes ctx reader) := by
  rw [enumerateVolumes_eq_ok_iff htable, foldlM_insertVolume_eq_ok_iff] at h
  obtain ⟨-, hfits, hids, hcolumns, -⟩ := h
  have hlisted : ∀ v ∈ table.volumes ctx reader, Listed ctx reader v :=
    fun v hv => (listed_volumes table v hv).1
  exact ⟨hids, nodup_ranges_of_uniqueColumns hlisted hcolumns, hfits⟩

theorem enumerateVolumes_of_storable
    (htable : partitionTable reader = .ok table)
    (hrows : ∀ row ∈ rows, row.Named ctx.uuid5)
    (hcollision : ∀ row ∈ rows, ∀ v ∈ table.volumes ctx reader,
      ctx.uuid5 row.idName = ctx.uuid5 v.idName → row.idName = v.idName)
    (hs : Storable (table.volumes ctx reader)) :
    ∃ rows', enumerateVolumes ctx reader rows =
      .ok (table.volumes ctx reader, rows') := by
  refine ⟨_, (enumerateVolumes_eq_ok_iff htable).mpr
    (foldlM_insertVolume_eq_ok_iff.mpr ⟨rfl, hs.integers, hs.ids,
      nodup_uniqueColumns hs.ranges, ?_⟩)⟩
  intro v hv row hrow
  obtain ⟨hrow, hother⟩ := List.mem_filter.mp hrow
  have hlisted := (listed_volumes table v hv).1
  have hne : row.evidenceId ≠ v.evidenceId := by
    rw [hlisted.evidenceId]
    simpa using hother
  constructor
  · intro hid
    have hnamed := hrows row hrow
    rw [hnamed.volumeId, hlisted.named.volumeId] at hid
    exact hne (hnamed.eq_of_idName_eq hlisted.named
      (hcollision row hrow v hv hid)).1
  · intro hcolumns
    exact hne (Prod.ext_iff.mp hcolumns).1

/-- The list of a table is storable, and stored next to the volumes of other
evidence, exactly when the table is. -/
theorem enumerateVolumes_storable_iff (ctx : Context) (reader : Reader)
    (table : Table) (rows : List EvidenceVolume)
    (htable : partitionTable reader = .ok table)
    (hrows : ∀ row ∈ rows, row.Named ctx.uuid5)
    (hcollision : ∀ v ∈ rows ++ table.volumes ctx reader,
      ∀ w ∈ rows ++ table.volumes ctx reader,
        ctx.uuid5 v.idName = ctx.uuid5 w.idName → v.idName = w.idName) :
    (Storable (table.volumes ctx reader) ↔ StorableTable reader table) ∧
      ((∃ rows', enumerateVolumes ctx reader rows =
        .ok (table.volumes ctx reader, rows')) ↔
          StorableTable reader table) := by
  have hread := readTable_of_partitionTable reader htable
  have hstorable : Storable (table.volumes ctx reader) ↔
      StorableTable reader table := by
    refine ⟨storableTable_of_storable hread,
      storable_of_storableTable hread fun v hv w hw => ?_⟩
    exact hcollision v (List.mem_append_right _ hv) w
      (List.mem_append_right _ hw)
  refine ⟨hstorable, ?_⟩
  rw [← hstorable]
  constructor
  · rintro ⟨rows', h⟩
    exact storable_of_enumerateVolumes htable h
  · intro hs
    refine enumerateVolumes_of_storable htable hrows ?_ hs
    intro row hrow v hv
    exact hcollision row (List.mem_append_left _ hrow) v
      (List.mem_append_right _ hv)

end Table

/-- The law at an image with a cut sector. -/
theorem enumerateVolumes_storable_cutSector :
    (Storable (cutSectorTable.volumes sampleContext cutSector) ↔
      StorableTable cutSector cutSectorTable) ∧
    ((∃ rows', enumerateVolumes sampleContext cutSector [] =
      .ok (cutSectorTable.volumes sampleContext cutSector, rows')) ↔
        StorableTable cutSector cutSectorTable) :=
  enumerateVolumes_storable_iff sampleContext cutSector cutSectorTable []
    cutSector_table (fun _ h => (List.not_mem_nil h).elim)
    (fun _ _ _ _ h => h)

/-! ## A listing that is not stored -/

/-- An extended partition at sector 1, which holds no boot record. -/
def corruptChain : Reader :=
  patchedReader [(450, 0x05), (454, 1), (458, 1), (510, 0x55), (511, 0xAA)]
    2048 sectors_lt

def corruptChainTable : Table :=
  .mbr [.extended ⟨[], true, [1], 1, false, false⟩]

set_option maxRecDepth 20000 in
theorem corruptChain_table :
    partitionTable corruptChain = .ok corruptChainTable := rfl

/-- The corrupt record is listed twice under one range, and the listing is
not stored. -/
theorem corruptChain_not_stored :
    parse sampleContext corruptChain =
        .ok (corruptChainTable.volumes sampleContext corruptChain) ∧
      ¬ Storable (corruptChainTable.volumes sampleContext corruptChain) ∧
      ¬ ∃ rows', enumerateVolumes sampleContext corruptChain [] =
        .ok (corruptChainTable.volumes sampleContext corruptChain, rows') := by
  have hnot :
      ¬ Storable (corruptChainTable.volumes sampleContext corruptChain) := by
    intro hs
    have htable := storableTable_of_storable
      (readTable_of_partitionTable corruptChain corruptChain_table) hs
    have hintact := htable.chainsIntact ⟨[], true, [1], 1, false, false⟩
      List.mem_cons_self
    exact Bool.noConfusion hintact
  refine ⟨parse_of_table corruptChain_table, hnot, ?_⟩
  rintro ⟨rows', h⟩
  exact hnot (storable_of_enumerateVolumes corruptChain_table h)

end ApexForensic.Partitions
