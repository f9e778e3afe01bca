import ApexForensic.Partitions.Extents

/-!
# Coverage of an image by its listed volumes

For images of at most `2 ^ 53` sectors the gap loop covers every whole sector
of the managed area, keeps gaps apart, and keeps them off the whole sectors
of the listed volumes.  A sector cut by the end of the image may be listed
twice, and nothing is promised for a GPT that passes the parser's bound.
-/

namespace ApexForensic.Partitions

open ApexForensic.Support ApexForensic.Domain

variable {b cursor endLimit limit : ℕ} {es : List Extent}

section Fill

variable {ss size : ℕ} {scheme : VolumeScheme}

/-! ## One gap -/

theorem gap_length_cases (hss : 0 < ss) (hsize : size ≤ 2 ^ 53 * ss) :
    limit - cursor < ceilTrueDiv (limit - cursor) ss * ss + ss ∨
      size ≤ cursor + ceilTrueDiv (limit - cursor) ss * ss := by
  rcases le_or_gt ((limit - cursor) / ss) (2 ^ 53) with hle | hgt
  · left
    have hk : (limit - cursor) / ss ≤ ceilTrueDiv (limit - cursor) ss :=
      le_ceilTrueDiv hss hle (Nat.div_mul_le_self _ _)
    calc
      limit - cursor < (limit - cursor) / ss * ss + ss :=
        Nat.lt_div_mul_add hss
      _ ≤ ceilTrueDiv (limit - cursor) ss * ss + ss :=
        Nat.add_le_add_right (Nat.mul_le_mul_right ss hk) ss
  · right
    have hmul : 2 ^ 53 * ss ≤ limit - cursor :=
      (Nat.mul_le_mul_right ss hgt.le).trans (Nat.div_mul_le_self _ _)
    have hk : 2 ^ 53 ≤ ceilTrueDiv (limit - cursor) ss :=
      le_ceilTrueDiv hss le_rfl hmul
    have := Nat.mul_le_mul_right ss hk
    omega

theorem gap_length_le (hss : 0 < ss) (hcursor : ss ∣ cursor)
    (hlimit : ss ∣ limit) (hlt : cursor < limit) (hsize : size ≤ 2 ^ 53 * ss) :
    cursor + ceilTrueDiv (limit - cursor) ss * ss ≤ limit ∨
      size ≤ limit := by
  obtain ⟨k, hk⟩ := Nat.dvd_sub hlimit hcursor
  rcases le_or_gt k (2 ^ 53) with hle | hgt
  · left
    rw [hk, Nat.mul_comm ss k, ceilTrueDiv_mul hss hle, Nat.mul_comm k ss, ← hk]
    omega
  · right
    have : 2 ^ 53 * ss ≤ ss * k := by
      rw [Nat.mul_comm ss k]
      exact Nat.mul_le_mul_right ss hgt.le
    omega

theorem gap_sound (hss : 0 < ss) (hsize : size ≤ 2 ^ 53 * ss)
    (hcursor : CursorAt ss size cursor) (hlimit : ss ∣ limit ∨ limit = size)
    (hlt : cursor < limit)
    (h : (gapExtent ss size scheme cursor (limit - cursor)).Holds b) :
    b < size ∧ b < limit ∧ cursor ≤ size ∧
      (cursor ≤ b ∨ sectorStart ss size ≤ b) := by
  obtain ⟨hlow, hhigh⟩ := h
  simp only [gapExtent, clippedLength] at hlow hhigh
  rcases hcursor with hdvd | heq
  · rw [sectorStart_of_dvd hdvd] at hlow hhigh
    rcases hlimit with hlimit | hlimit
    · have hlength := gap_length_le hss hdvd hlimit hlt hsize
      split_ifs at hhigh <;> omega
    · split_ifs at hhigh <;> omega
  · subst heq
    have : sectorStart ss cursor ≤ cursor := sectorStart_le cursor
    split_ifs at hhigh <;> omega

theorem gap_complete (hss : 0 < ss) (hsize : size ≤ 2 ^ 53 * ss)
    (hcursor : CursorAt ss size cursor) (hlow : cursor ≤ b)
    (hlimit : b < sectorStart ss limit) (hb : b < size) :
    (gapExtent ss size scheme cursor (limit - cursor)).Holds b := by
  have hdvd : ss ∣ cursor := hcursor.dvd_of_lt (by omega)
  have hend : b < cursor + ceilTrueDiv (limit - cursor) ss * ss := by
    by_contra hpast
    have hdeclared : ss ∣ cursor + ceilTrueDiv (limit - cursor) ss * ss :=
      Nat.dvd_add hdvd (Nat.dvd_mul_left ss _)
    have hnext := sectorStart_lt_of_lt hss (dvd_sectorStart limit)
      (lt_of_le_of_lt (not_lt.mp hpast) hlimit)
    rw [sectorStart_of_dvd hdeclared] at hnext
    have hle : sectorStart ss limit ≤ limit := sectorStart_le limit
    have hgap : limit - cursor < ceilTrueDiv (limit - cursor) ss * ss + ss ∨
        size ≤ cursor + ceilTrueDiv (limit - cursor) ss * ss :=
      gap_length_cases hss hsize
    rcases hgap with h | h
    · omega
    · omega
  constructor
  · simp only [gapExtent]
    rw [sectorStart_of_dvd hdvd]
    exact hlow
  · simp only [gapExtent, clippedLength]
    rw [sectorStart_of_dvd hdvd]
    split_ifs <;> omega

/-! ## The whole loop -/

/-- The end of the managed area is a sector boundary or the image end. -/
def LimitAt (ss size endLimit : ℕ) : Prop :=
  (ss ∣ endLimit ∨ endLimit = size) ∧ endLimit ≤ size

theorem Placed.holds_lt {e : Extent} (he : Placed ss size e) (hb : e.Holds b) :
    b < size := by
  have hend := he.end_le
  obtain ⟨count, hlength⟩ := he.clipped
  obtain ⟨hlow, hhigh⟩ := hb
  by_cases hbeyond : size < e.offset
  · rw [hlength, clippedLength, if_pos hbeyond] at hhigh
    omega
  · omega

theorem fillGaps_cons (endLimit cursor : ℕ) (e : Extent) (rest : List Extent) :
    fillGaps ss size scheme endLimit cursor (e :: rest) =
      (if cursor < e.offset then
        [gapExtent ss size scheme cursor (e.offset - cursor)] else []) ++
        e :: fillGaps ss size scheme endLimit
          (max cursor (e.offset + e.length)) rest := rfl

theorem mem_of_mem_fillGaps {x : Extent}
    (hx : x ∈ fillGaps ss size scheme endLimit cursor es) :
    x ∈ es ∨ x.isGap = true := by
  induction es generalizing cursor with
  | nil =>
      rw [fillGaps] at hx
      split_ifs at hx
      · exact Or.inr (by rw [List.mem_singleton.mp hx]; rfl)
      · exact (List.not_mem_nil hx).elim
  | cons e rest ih =>
      rw [fillGaps_cons, List.mem_append, List.mem_cons] at hx
      rcases hx with hx | rfl | hx
      · split_ifs at hx
        · exact Or.inr (by rw [List.mem_singleton.mp hx]; rfl)
        · exact (List.not_mem_nil hx).elim
      · exact Or.inl List.mem_cons_self
      · exact (ih hx).imp_left (List.mem_cons_of_mem e)

/-- A byte of a listed gap comes after the cursor, or lies in the sector cut
by the end of the image. -/
theorem holds_gap_of_mem (hss : 0 < ss) (hsize : size ≤ 2 ^ 53 * ss)
    (hlimit : LimitAt ss size endLimit)
    (hplaced : ∀ e ∈ es, Placed ss size e ∧ e.isGap = false)
    (hcursor : CursorAt ss size cursor) {g : Extent}
    (hg : g ∈ fillGaps ss size scheme endLimit cursor es)
    (hgap : g.isGap = true) (hb : g.Holds b) :
    b < size ∧ cursor ≤ size ∧
      (cursor ≤ b ∨ sectorStart ss size ≤ b) := by
  induction es generalizing cursor with
  | nil =>
      rw [fillGaps] at hg
      split_ifs at hg with hlt
      · rw [List.mem_singleton.mp hg] at hb
        obtain ⟨h₁, -, h₂, h₃⟩ := gap_sound hss hsize hcursor hlimit.1 hlt hb
        exact ⟨h₁, h₂, h₃⟩
      · exact (List.not_mem_nil hg).elim
  | cons e rest ih =>
      rw [List.forall_mem_cons] at hplaced
      obtain ⟨⟨he, hnot⟩, hrest⟩ := hplaced
      rw [fillGaps_cons, List.mem_append, List.mem_cons] at hg
      rcases hg with hg | rfl | hg
      · split_ifs at hg with hlt
        · rw [List.mem_singleton.mp hg] at hb
          obtain ⟨h₁, -, h₂, h₃⟩ :=
            gap_sound hss hsize hcursor (Or.inl he.aligned) hlt hb
          exact ⟨h₁, h₂, h₃⟩
        · exact (List.not_mem_nil hg).elim
      · rw [hnot] at hgap
        exact Bool.noConfusion hgap
      · obtain ⟨h₁, h₂, h₃⟩ := ih hrest (hcursor.advance he) hg
        exact ⟨h₁, by omega, by omega⟩

theorem not_holds_gap_and_volume (hss : 0 < ss) (hsize : size ≤ 2 ^ 53 * ss)
    (hlimit : LimitAt ss size endLimit)
    (hplaced : ∀ e ∈ es, Placed ss size e ∧ e.isGap = false)
    (hsorted : es.Pairwise fun a b => a.offset ≤ b.offset)
    (hcursor : CursorAt ss size cursor) {g v : Extent}
    (hg : g ∈ fillGaps ss size scheme endLimit cursor es)
    (hgap : g.isGap = true) (hv : v ∈ es) (hb : b < sectorStart ss size) :
    ¬ (g.Holds b ∧ v.Holds b) := by
  rintro ⟨hgb, hvb⟩
  induction es generalizing cursor with
  | nil => exact List.not_mem_nil hv
  | cons e rest ih =>
      rw [List.forall_mem_cons] at hplaced
      obtain ⟨⟨he, hnot⟩, hrest⟩ := hplaced
      obtain ⟨hfirst, hsortedRest⟩ := List.pairwise_cons.mp hsorted
      rw [fillGaps_cons, List.mem_append, List.mem_cons] at hg
      rcases hg with hg | rfl | hg
      · -- the gap before `e` ends before `e` and all later volumes
        split_ifs at hg with hlt
        · rw [List.mem_singleton.mp hg] at hgb
          have hsound := gap_sound hss hsize hcursor (Or.inl he.aligned) hlt hgb
          have hoffset : e.offset ≤ v.offset := by
            rcases List.mem_cons.mp hv with rfl | hv
            · exact le_rfl
            · exact hfirst v hv
          have := hvb.1
          omega
        · exact List.not_mem_nil hg
      · rw [hnot] at hgap
        exact Bool.noConfusion hgap
      · rcases List.mem_cons.mp hv with rfl | hv
        · -- later gaps start after `e` ends
          have hlater := holds_gap_of_mem hss hsize hlimit hrest
            (hcursor.advance he) hg hgap hgb
          have := hvb.2
          omega
        · exact ih hrest hsortedRest (hcursor.advance he) hg hv

theorem gaps_pairwise (hss : 0 < ss) (hsize : size ≤ 2 ^ 53 * ss)
    (hlimit : LimitAt ss size endLimit)
    (hplaced : ∀ e ∈ es, Placed ss size e ∧ e.isGap = false)
    (hcursor : CursorAt ss size cursor) :
    (fillGaps ss size scheme endLimit cursor es).Pairwise fun g g' =>
      g.isGap = true → g'.isGap = true → ∀ b, ¬ (g.Holds b ∧ g'.Holds b) := by
  induction es generalizing cursor with
  | nil =>
      rw [fillGaps]
      split_ifs
      · exact List.pairwise_singleton _ _
      · exact List.Pairwise.nil
  | cons e rest ih =>
      rw [List.forall_mem_cons] at hplaced
      obtain ⟨⟨he, hnot⟩, hrest⟩ := hplaced
      have htail := ih hrest (hcursor.advance he)
      rw [fillGaps_cons]
      have hcons : (e :: fillGaps ss size scheme endLimit
          (max cursor (e.offset + e.length)) rest).Pairwise fun g g' =>
            g.isGap = true → g'.isGap = true →
              ∀ b, ¬ (g.Holds b ∧ g'.Holds b) := by
        refine List.pairwise_cons.mpr ⟨?_, htail⟩
        intro g' _ hgap
        rw [hnot] at hgap
        exact Bool.noConfusion hgap
      split_ifs with hlt
      · rw [List.singleton_append]
        refine List.pairwise_cons.mpr ⟨?_, hcons⟩
        rintro g' hg' - hgap' b ⟨hb, hb'⟩
        have hsound := gap_sound hss hsize hcursor (Or.inl he.aligned) hlt hb
        rcases List.mem_cons.mp hg' with rfl | hg'
        · rw [hnot] at hgap'
          exact Bool.noConfusion hgap'
        · have hlater := holds_gap_of_mem hss hsize hlimit hrest
            (hcursor.advance he) hg' hgap' hb'
          -- a later gap in the cut sector would start past the image end
          have hstart : e.offset ≤ sectorStart ss size :=
            le_sectorStart hss he.aligned (by omega)
          omega
      · exact hcons

theorem exists_holds (hss : 0 < ss) (hsize : size ≤ 2 ^ 53 * ss)
    (hlimit : LimitAt ss size endLimit)
    (hplaced : ∀ e ∈ es, Placed ss size e ∧ e.isGap = false)
    (hcursor : CursorAt ss size cursor) (hlow : cursor ≤ b)
    (hb : b < sectorStart ss endLimit) :
    ∃ x ∈ fillGaps ss size scheme endLimit cursor es, x.Holds b := by
  have hbsize : b < size :=
    hb.trans_le ((sectorStart_le endLimit).trans hlimit.2)
  induction es generalizing cursor with
  | nil =>
      have hlt : cursor < endLimit :=
        hlow.trans_lt (hb.trans_le (sectorStart_le endLimit))
      exact ⟨gapExtent ss size scheme cursor (endLimit - cursor),
        by simp [fillGaps, hlt],
        gap_complete hss hsize hcursor hlow hb hbsize⟩
  | cons e rest ih =>
      rw [List.forall_mem_cons] at hplaced
      obtain ⟨⟨he, hnot⟩, hrest⟩ := hplaced
      rw [fillGaps_cons]
      rcases lt_or_ge b e.offset with hbefore | hafter
      · have hlt : cursor < e.offset := hlow.trans_lt hbefore
        refine ⟨gapExtent ss size scheme cursor (e.offset - cursor),
          by simp [hlt], gap_complete hss hsize hcursor hlow ?_ hbsize⟩
        rwa [sectorStart_of_dvd he.aligned]
      · by_cases hin : b < e.offset + e.length
        · exact ⟨e, by simp, hafter, hin⟩
        · obtain ⟨x, hx, hxb⟩ :=
            ih hrest (hcursor.advance he) (max_le hlow (not_lt.mp hin))
          exact ⟨x, by simp [hx], hxb⟩

end Fill

/-! ## Listings -/

/-- The byte lies in the volume's listed range. -/
def EvidenceVolume.Holds (v : EvidenceVolume) (b : ℕ) : Prop :=
  v.byteOffset ≤ b ∧ b < v.endOffset

def EvidenceVolume.IsGap (v : EvidenceVolume) : Prop :=
  v.partitionType = "UNALLOCATED"

/-- The bytes the scheme of a table manages, up to the image end. -/
def Table.managedArea (reader : Reader) : Table → ℕ × ℕ
  | .superfloppy _ => (0, reader.size)
  | .protective _ => (0, reader.size)
  | .mbr _ => (0, reader.size)
  | .gpt header _ _ =>
      (header.firstUsable * reader.sectorSize,
        min reader.size ((header.lastUsable + 1) * reader.sectorSize))
  | _ => (0, 0)

/-- The listed volumes cover the whole sectors of an area; gaps stay off each
other, and off the whole sectors of the volumes. -/
structure Covers (reader : Reader) (volumes : List EvidenceVolume)
    (area : ℕ × ℕ) : Prop where
  inside : ∀ v ∈ volumes, ∀ b, v.Holds b → b < reader.size
  gapsOffVolumes : ∀ g ∈ volumes, g.IsGap → ∀ v ∈ volumes, ¬ v.IsGap →
    ∀ b, b < sectorStart reader.sectorSize reader.size →
      ¬ (g.Holds b ∧ v.Holds b)
  gapsApart : volumes.Pairwise fun g g' =>
    g.IsGap → g'.IsGap → ∀ b, ¬ (g.Holds b ∧ g'.Holds b)
  covered : ∀ b, area.1 ≤ b → b < sectorStart reader.sectorSize area.2 →
    ∃ v ∈ volumes, v.Holds b

theorem isGap_extent {v : EvidenceVolume} :
    v.extent.isGap = true ↔ v.IsGap :=
  decide_eq_true_iff

section Listing

variable {reader : Reader} {volumes : List EvidenceVolume}

theorem covers_of_fillGaps (hsize : reader.size ≤ 2 ^ 53 * reader.sectorSize)
    {scheme : VolumeScheme} {start : ℕ} (hplaced : ∀ e ∈ es,
      Placed reader.sectorSize reader.size e ∧ e.isGap = false)
    (hsorted : es.Pairwise fun a b => a.offset ≤ b.offset)
    (hstart : CursorAt reader.sectorSize reader.size start)
    (hlimit : LimitAt reader.sectorSize reader.size limit)
    (hvolumes : volumes.map EvidenceVolume.extent =
      fillGaps reader.sectorSize reader.size scheme limit start es) {low : ℕ}
    (hlow : start ≤ low) : Covers reader volumes (low, limit) := by
  have hss := reader.sectorSize_pos
  have hmem {v : EvidenceVolume} (hv : v ∈ volumes) :
      v.extent ∈ fillGaps reader.sectorSize reader.size scheme limit start es :=
    hvolumes ▸ List.mem_map_of_mem hv
  constructor
  · intro v hv b hb
    rcases mem_of_mem_fillGaps (hmem hv) with hes | hgap
    · exact (hplaced _ hes).1.holds_lt hb
    · exact (holds_gap_of_mem hss hsize hlimit hplaced hstart (hmem hv) hgap
        hb).1
  · intro g hg hgap v hv hvolume b hb
    have hes : v.extent ∈ es := by
      rcases mem_of_mem_fillGaps (hmem hv) with hes | hgap'
      · exact hes
      · exact (hvolume (isGap_extent.mp hgap')).elim
    exact not_holds_gap_and_volume hss hsize hlimit hplaced hsorted hstart
      (hmem hg) (isGap_extent.mpr hgap) hes hb
  · have hpairwise : (fillGaps reader.sectorSize reader.size scheme limit
        start es).Pairwise fun g g' =>
          g.isGap = true → g'.isGap = true → ∀ b, ¬ (g.Holds b ∧ g'.Holds b) :=
      gaps_pairwise hss hsize hlimit hplaced hstart
    rw [← hvolumes, List.pairwise_map] at hpairwise
    apply hpairwise.imp
    intro g g' h hgap hgap'
    exact h (isGap_extent.mpr hgap) (isGap_extent.mpr hgap')
  · intro b hb hblimit
    obtain ⟨x, hx, hxb⟩ : ∃ x ∈ fillGaps reader.sectorSize reader.size scheme
        limit start es, x.Holds b :=
      exists_holds hss hsize hlimit hplaced hstart (hlow.trans hb) hblimit
    rw [← hvolumes] at hx
    obtain ⟨v, hv, rfl⟩ := List.mem_map.mp hx
    exact ⟨v, hv, hxb⟩

theorem limitAt_gapEndLimit (gapEndLba : Option ℕ) :
    LimitAt reader.sectorSize reader.size (gapEndLimit reader gapEndLba) := by
  cases gapEndLba with
  | none => exact ⟨Or.inr rfl, le_rfl⟩
  | some lba =>
      refine ⟨?_, min_le_left _ _⟩
      rcases min_choice reader.size ((lba + 1) * reader.sectorSize) with h | h
      · exact Or.inr h
      · left
        rw [gapEndLimit, h]
        exact Nat.dvd_mul_left _ _

theorem cursorAt_gapStart (gapStartLba : ℕ) (gapEndLba : Option ℕ) :
    CursorAt reader.sectorSize reader.size
      (gapStart reader gapStartLba gapEndLba) := by
  unfold gapStart
  rcases min_choice (gapEndLimit reader gapEndLba)
    (gapStartLba * reader.sectorSize) with h | h
  · rw [h]
    exact (limitAt_gapEndLimit gapEndLba).1
  · rw [h]
    exact Or.inl (Nat.dvd_mul_left _ _)

/-- A whole image listed as one volume is covered up to its last whole
sector. -/
theorem covers_superfloppy (ctx : Context)
    (hsize : reader.size ≤ 2 ^ 53 * reader.sectorSize)
    (warnings : List Warning) :
    Covers reader [volume ctx reader (superfloppySpec reader warnings)]
      (0, reader.size) := by
  have hss := reader.sectorSize_pos
  have hnot : ¬ (volume ctx reader (superfloppySpec reader warnings)).IsGap :=
    ParserSpec.isVolume reader
      (ParserSpec.superfloppy warnings)
  constructor
  · intro v hv b hb
    obtain rfl := List.mem_singleton.mp hv
    exact (placed_specExtent reader (superfloppySpec reader warnings)).holds_lt
      hb
  · intro g hg hgap
    obtain rfl := List.mem_singleton.mp hg
    exact (hnot hgap).elim
  · exact List.pairwise_singleton _ _
  · intro b _ hb
    refine ⟨_, List.mem_cons_self, ?_⟩
    have hsectors : reader.size / reader.sectorSize ≤
        ceilTrueDiv reader.size reader.sectorSize :=
      le_ceilTrueDiv hss (Nat.div_le_of_le_mul (by rwa [Nat.mul_comm]))
        (Nat.div_mul_le_self _ _)
    have hlength := Nat.mul_le_mul_right reader.sectorSize hsectors
    have hend : sectorStart reader.sectorSize reader.size ≤ reader.size :=
      sectorStart_le reader.size
    have hb' : b < sectorStart reader.sectorSize reader.size := hb
    simp only [sectorStart] at hb' hend
    simp only [EvidenceVolume.Holds, EvidenceVolume.endOffset, volume,
      superfloppySpec, clippedLength, Nat.zero_mul]
    split_ifs <;> omega

/-- The listing of an image of at most `2 ^ 53` sectors covers the area its
scheme manages. -/
theorem parse_covers (ctx : Context) (reader : Reader) (table : Table)
    (htable : partitionTable reader = .ok table)
    (hbound : ∀ header, table ≠ .gptTooLarge header)
    (hsize : reader.size ≤ 2 ^ 53 * reader.sectorSize) :
    ∃ volumes, parse ctx reader = .ok volumes ∧
      Covers reader volumes (table.managedArea reader) := by
  refine ⟨table.volumes ctx reader, by simp [parse, htable, bind, Except.bind],
    ?_⟩
  have hlisting {scheme : VolumeScheme} (gapStartLba : ℕ)
      (gapEndLba : Option ℕ)
      (hgaps : table.gaps reader = some (scheme,
        gapStart reader gapStartLba gapEndLba,
        gapEndLimit reader gapEndLba)) :
      Covers reader (table.volumes ctx reader)
        (gapStartLba * reader.sectorSize, gapEndLimit reader gapEndLba) := by
    have hspecs := specs_ne_nil reader
      (readTable_of_partitionTable reader htable) (by rw [hgaps]; rfl)
    obtain ⟨es, hperm, hsorted, hvolumes⟩ :=
      volumes_of_gaps_some reader ctx hspecs hgaps
    exact covers_of_fillGaps hsize (placed_specs reader hperm) hsorted
      (cursorAt_gapStart _ _) (limitAt_gapEndLimit _) hvolumes
      (min_le_right _ _)
  cases table with
  | empty =>
      refine ⟨by simp [Table.volumes], by simp [Table.volumes],
        List.Pairwise.nil, ?_⟩
      intro b _ hb
      simp [Table.managedArea, sectorStart] at hb
  | superfloppy warnings => exact covers_superfloppy ctx hsize warnings
  | protective entry =>
      have := hlisting 0 none rfl
      rwa [Nat.zero_mul] at this
  | mbr items =>
      have := hlisting 0 none rfl
      rwa [Nat.zero_mul] at this
  | gptTooLarge header => exact (hbound header rfl).elim
  | gpt header warnings entries =>
      exact hlisting header.firstUsable (some header.lastUsable) rfl

/-! ## Images outside the law -/

/-- Image bytes given by their offsets, zero elsewhere. -/
def patched (patches : List (ℕ × UInt8)) (i : ℕ) : UInt8 :=
  (patches.lookup i).getD 0

def patchedReader (patches : List (ℕ × UInt8)) (size : ℕ)
    (hsize : size < 2 ^ 63) : Reader where
  readerId := "apex.raw_image_reader"
  readerVersion := "0.1.0"
  content := patched patches
  size := size
  sectorSize := 512
  size_lt := hsize
  sectorSize_pos := by norm_num
  sectorSize_lt := by norm_num

def sampleContext : Context :=
  ⟨"case", "disk", id, by decide, by decide⟩

/-- A GPT with 2 ^ 18 entries of 128 bytes, using sectors 2 and 3. -/
def oversizedGpt : Reader :=
  patchedReader
    [(450, 0xEE), (458, 1), (510, 0x55), (511, 0xAA),
     (512, 0x45), (513, 0x46), (514, 0x49), (515, 0x20),
     (516, 0x50), (517, 0x41), (518, 0x52), (519, 0x54),
     (524, 92), (552, 2), (560, 3), (584, 2), (594, 4), (596, 128)]
    2048 (by norm_num)

/-- A partition cut by the image end, and one past it. -/
def cutSector : Reader :=
  patchedReader
    [(450, 0x83), (454, 1), (458, 10), (466, 0x83), (470, 5), (474, 1),
     (510, 0x55), (511, 0xAA)]
    1000 (by norm_num)

def cutSectorTable : Table :=
  .mbr [.primary ⟨0, 0x83, 1, 10⟩, .primary ⟨0, 0x83, 5, 1⟩]

/-- One sector partitioned, and 2 ^ 53 + 1 sectors after it. -/
def hugeImage : Reader :=
  patchedReader
    [(450, 0x83), (458, 1), (510, 0x55), (511, 0xAA)]
    ((2 ^ 53 + 2) * 512) (by norm_num)

set_option maxRecDepth 20000 in
theorem oversizedGpt_table : ∃ header,
    partitionTable oversizedGpt = .ok (.gptTooLarge header) ∧
      header.firstUsable = 2 ∧ header.lastUsable = 3 :=
  ⟨_, rfl, rfl, rfl⟩

set_option maxRecDepth 20000 in
theorem cutSector_table :
    partitionTable cutSector = .ok cutSectorTable := rfl

set_option maxRecDepth 20000 in
theorem hugeImage_table :
    partitionTable hugeImage = .ok (.mbr [.primary ⟨0, 0x83, 0, 1⟩]) := rfl

set_option maxRecDepth 20000 in
theorem cutSector_extents :
    (cutSectorTable.volumes sampleContext cutSector).map
        EvidenceVolume.extent =
      [gapExtent 512 1000 .unpartitioned 0 512, ⟨.mbr, false, 512, 488⟩,
       gapExtent 512 1000 .unpartitioned 1000 1560,
       ⟨.mbr, false, 2560, 0⟩] := rfl

set_option maxRecDepth 20000 in
theorem hugeImage_extents :
    ((Table.mbr [.primary ⟨0, 0x83, 0, 1⟩]).volumes sampleContext
        hugeImage).map EvidenceVolume.extent =
      [⟨.mbr, false, 0, 512⟩,
       gapExtent 512 ((2 ^ 53 + 2) * 512) .unpartitioned 512
         ((2 ^ 53 + 1) * 512)] := rfl

theorem ceilTrueDiv_two_pow_succ :
    ceilTrueDiv ((2 ^ 53 + 1) * 512) 512 = 2 ^ 53 := by
  have hq : (((2 ^ 53 + 1) * 512 : ℕ) : ℚ) / (512 : ℕ) =
      ((2 ^ 53 + 1 : ℕ) : ℚ) := by
    push_cast
    norm_num
  have hlog : Int.log 2 ((2 ^ 53 + 1 : ℕ) : ℚ) = 53 := by
    have hnat : Nat.log 2 (2 ^ 53 + 1) = 53 :=
      (Nat.log_eq_iff (Or.inl (by norm_num))).mpr ⟨by norm_num, by norm_num⟩
    rw [Int.log_natCast, hnat]
    rfl
  have hulp : ulp ((2 ^ 53 + 1 : ℕ) : ℚ) = 2 := by
    rw [ulp, hlog]
    norm_num
  have hfloor : ⌊((2 ^ 53 + 1 : ℕ) : ℚ) / 2⌋ = 2 ^ 52 := by
    rw [Int.floor_eq_iff]
    norm_num
  have hround : roundHalfEven (((2 ^ 53 + 1 : ℕ) : ℚ) / 2) = 2 ^ 52 := by
    rw [roundHalfEven, hfloor]
    norm_num
  rw [ceilTrueDiv, trueDiv, hq, nearestDouble, hulp, hround]
  norm_num

theorem parse_of_table {reader : Reader} {table : Table}
    (h : partitionTable reader = .ok table) :
    parse sampleContext reader = .ok (table.volumes sampleContext reader) := by
  simp [parse, h, bind, Except.bind]

/-- Usable sectors of an oversized GPT are not listed, a gap can overlap a
volume in the sector cut by the image end, and one sector past `2 ^ 53` is
lost. -/
theorem coverage_fails :
    (∃ header volumes,
      partitionTable oversizedGpt = .ok (.gptTooLarge header) ∧
        header.firstUsable * 512 ≤ 1024 ∧
        1024 < (header.lastUsable + 1) * 512 ∧
        parse sampleContext oversizedGpt = .ok volumes ∧
        ∀ v ∈ volumes, ¬ v.Holds 1024) ∧
    (∃ volumes, parse sampleContext cutSector = .ok volumes ∧
      ∃ g ∈ volumes, ∃ v ∈ volumes, g.IsGap ∧ ¬ v.IsGap ∧
        g.Holds 600 ∧ v.Holds 600) ∧
    (∃ volumes, parse sampleContext hugeImage = .ok volumes ∧
      ∀ v ∈ volumes, ¬ v.Holds ((2 ^ 53 + 1) * 512)) := by
  refine ⟨?_, ?_, ?_⟩
  · obtain ⟨header, htable, hfirst, hlast⟩ := oversizedGpt_table
    refine ⟨header, _, htable, by omega, by omega, parse_of_table htable, ?_⟩
    intro v hv hholds
    obtain rfl := List.mem_singleton.mp hv
    obtain ⟨hlow, hhigh⟩ := hholds
    simp [volume, warningSpec, EvidenceVolume.endOffset, clippedLength]
      at hlow hhigh
    split_ifs at hhigh <;> omega
  · refine ⟨_, parse_of_table cutSector_table, ?_⟩
    have hpos : 0 < ceilTrueDiv 1560 512 :=
      ceilTrueDiv_pos (by omega) (by omega)
    have hmem {e : Extent}
        (he : e = ⟨.mbr, false, 512, 488⟩ ∨
          e = gapExtent 512 1000 .unpartitioned 1000 1560) :
        e ∈ (cutSectorTable.volumes sampleContext cutSector).map
          EvidenceVolume.extent := by
      rw [cutSector_extents]
      rcases he with rfl | rfl
      · exact List.mem_cons_of_mem _ List.mem_cons_self
      · exact List.mem_cons_of_mem _
          (List.mem_cons_of_mem _ List.mem_cons_self)
    obtain ⟨g, hg, hgextent⟩ := List.mem_map.mp (hmem (Or.inr rfl))
    obtain ⟨v, hv, hvextent⟩ := List.mem_map.mp (hmem (Or.inl rfl))
    refine ⟨g, hg, v, hv, ?_, ?_, ?_, ?_⟩
    · exact isGap_extent.mp (by rw [hgextent]; rfl)
    · intro hisGap
      have := isGap_extent.mpr hisGap
      rw [hvextent] at this
      exact Bool.noConfusion this
    · change g.extent.Holds 600
      rw [hgextent]
      have hend {n : ℕ} (hn : 0 < n) :
          600 < 512 + clippedLength 1000 512 (n * 512) := by
        unfold clippedLength
        split_ifs <;> omega
      have hlength := hend hpos
      rw [show gapExtent 512 1000 .unpartitioned 1000 1560 =
        ⟨.unpartitioned, true, 512,
          clippedLength 1000 512 (ceilTrueDiv 1560 512 * 512)⟩ from rfl]
      generalize clippedLength 1000 512 (ceilTrueDiv 1560 512 * 512) = length
        at hlength ⊢
      exact ⟨show 512 ≤ 600 by omega, hlength⟩
    · change v.extent.Holds 600
      rw [hvextent]
      exact ⟨by norm_num, by norm_num⟩
  · refine ⟨_, parse_of_table hugeImage_table, ?_⟩
    intro v hv hholds
    have hmem := List.mem_map_of_mem (f := EvidenceVolume.extent) hv
    rw [hugeImage_extents] at hmem
    have hextent : v.extent = ⟨.mbr, false, 0, 512⟩ ∨
        v.extent = gapExtent 512 ((2 ^ 53 + 2) * 512) .unpartitioned 512
          ((2 ^ 53 + 1) * 512) := by
      rcases List.mem_cons.mp hmem with h | h
      · exact Or.inl h
      · exact Or.inr (List.mem_singleton.mp h)
    have hholds' : v.extent.Holds ((2 ^ 53 + 1) * 512) := hholds
    rcases hextent with hextent | hextent
    · rw [hextent] at hholds'
      exact absurd hholds'.2 (by norm_num)
    · rw [hextent] at hholds'
      have hhigh := hholds'.2
      have hstart : sectorStart 512 512 = 512 := rfl
      simp only [gapExtent, ceilTrueDiv_two_pow_succ, hstart,
        clippedLength] at hhigh
      split_ifs at hhigh <;> omega

/-- The law at the image with a cut sector. -/
theorem parse_covers_cutSector :
    ∃ volumes, parse sampleContext cutSector = .ok volumes ∧
      Covers cutSector volumes (0, 1000) :=
  parse_covers sampleContext cutSector _ cutSector_table
    (fun _ h => Table.noConfusion h) (by norm_num [cutSector, patchedReader])

end Listing

end ApexForensic.Partitions
