import ApexForensic.FreeSpace.Exactness

/-!
# FAT volumes in a truncated image

A truncated image has the clusters that lie inside it, and the table says of
them what it said before.  The width of the entries is inferred from the number
of clusters, though, and not from the number that the volume declares: where
the cut moves that number below a bound of a width, the table is read in
another width.
-/

namespace ApexForensic.FreeSpace

open ApexForensic.Support ApexForensic.Domain
open ApexForensic.Partitions (Reader slice unpackLE slice_take unpackLE_take
  maxEvidenceReadSize)

/-- The image up to an offset. -/
def cut (reader : Reader) (length : ℕ) : Reader :=
  { reader with
    size := min length reader.size
    size_lt := lt_of_le_of_lt (min_le_right _ _) reader.size_lt }

/-- The volume as far as it lies in the truncated image. -/
def cutVolume (reader : Reader) (length : ℕ) (volume : Volume) : Volume :=
  { volume with
    byteLength :=
      min volume.byteLength ((cut reader length).size - volume.byteOffset) }

/-! ## The boot sector -/

section Boot

variable (boot : List UInt8)

def bootSector : ℕ :=
  unpackLE 2 boot 11

def bootCluster : ℕ :=
  (boot.getD 13 0).toNat

def bootFats : ℕ :=
  (boot.getD 16 0).toNat

def bootFatSectors : ℕ :=
  if unpackLE 2 boot 22 = 0 then unpackLE 4 boot 36 else unpackLE 2 boot 22

def bootTotal : ℕ :=
  if unpackLE 2 boot 19 = 0 then unpackLE 4 boot 32 else unpackLE 2 boot 19

/-- The first sector behind the tables and the root directory. -/
def bootDataSector : ℕ :=
  unpackLE 2 boot 14 + bootFats boot * bootFatSectors boot +
    (unpackLE 2 boot 17 * 32 + bootSector boot - 1) / bootSector boot

/-- The number of whole data clusters in the first bytes of a volume. -/
def fatClusters (size : ℕ) : ℕ :=
  (min (bootTotal boot) (size / bootSector boot) - bootDataSector boot) /
    bootCluster boot

/-- One table of several is in use. -/
def bootMirrored (count : ℕ) : Prop :=
  fatBits count = 32 ∧ (unpackLE 2 boot 40).testBit 7 = true

instance (count : ℕ) : Decidable (bootMirrored boot count) :=
  inferInstanceAs (Decidable (_ ∧ _))

/-- The geometry of a volume with a number of clusters. -/
def geometryOf (base count : ℕ) : FatGeometry where
  sector := bootSector boot
  unit := bootCluster boot * bootSector boot
  dataSector := bootDataSector boot
  count := count
  bits := fatBits count
  fatStart := base + unpackLE 2 boot 14 * bootSector boot +
    if bootMirrored boot count then
      unpackLE 2 boot 40 % 16 * bootFatSectors boot * bootSector boot
    else 0
  fatBytes := bootFatSectors boot * bootSector boot

/-- A volume with a number of clusters has a geometry. -/
def ValidGeometry (count : ℕ) : Prop :=
  count ≠ 0 ∧ bootFatSectors boot ≠ 0 ∧ bootFats boot ≠ 0 ∧
    (bootMirrored boot count → unpackLE 2 boot 40 % 16 < bootFats boot)

variable {boot}

theorem byteAt_eq_ok {data : List UInt8} {index : ℕ} (h : index < data.length) :
    byteAt data index = .ok (data.getD index 0).toNat := by
  rw [byteAt, List.getElem?_eq_getElem h, List.getD_eq_getElem _ _ h]

theorem eq_of_byteAt {data : List UInt8} {index value : ℕ}
    (h : byteAt data index = .ok value) :
    index < data.length ∧ value = (data.getD index 0).toNat := by
  rcases lt_or_ge index data.length with hlt | hge
  · rw [byteAt_eq_ok hlt] at h
    exact ⟨hlt, (Except.ok.inj h).symm⟩
  · rw [byteAt, List.getElem?_eq_none hge] at h
    cases h

theorem fatGeometry_eq_ok_iff {base size : ℕ} (hboot : 42 ≤ boot.length)
    {g : FatGeometry} :
    fatGeometry boot base size = .ok g ↔
      ValidGeometry boot (fatClusters boot size) ∧
        g = geometryOf boot base (fatClusters boot size) := by
  unfold fatGeometry
  rw [byteAt_eq_ok (by omega), byteAt_eq_ok (by omega), ok_bind, ok_bind]
  dsimp only
  constructor
  · intro h
    obtain ⟨hvalid, h⟩ := check_ok h
    obtain ⟨hactive, hpure⟩ := check_ok h
    rw [not_or, not_or] at hvalid
    refine ⟨⟨hvalid.1, hvalid.2.1, hvalid.2.2, fun hmirrored => ?_⟩,
      (Except.ok.inj hpure).symm⟩
    exact not_le.mp fun hle => hactive ⟨hmirrored, hle⟩
  · rintro ⟨⟨hcount, hsectors, hfats, hactive⟩, rfl⟩
    refine check_eq_ok_iff.mpr ⟨?_, check_eq_ok_iff.mpr ⟨?_, rfl⟩⟩
    · rw [not_or, not_or]
      exact ⟨hcount, hsectors, hfats⟩
    · rintro ⟨hmirrored, hle⟩
      exact not_lt.mpr hle (hactive hmirrored)

theorem byteAt_take {data : List UInt8} {k index : ℕ} (h : index < k) :
    byteAt (data.take k) index = byteAt data index := by
  rw [byteAt, byteAt, List.getElem?_take_of_lt h]

theorem fatGeometry_take {k : ℕ} (hk : 42 ≤ k) (base size : ℕ) :
    fatGeometry (boot.take k) base size = fatGeometry boot base size := by
  unfold fatGeometry
  rw [byteAt_take (by omega), byteAt_take (by omega)]
  simp (disch := omega) only [unpackLE_take]

theorem slice_of_slice_take {k start stop : ℕ} {name : List UInt8}
    (hname : name.length = stop - start) (hpos : start < stop)
    (h : slice (boot.take k) start stop = name) :
    slice boot start stop = name := by
  rcases le_or_gt stop k with hle | hgt
  · rwa [slice_take hle] at h
  · have hlength := congrArg List.length h
    rw [slice, List.take_take, List.length_drop, List.length_take] at hlength
    omega

theorem detectFormat_eq_fat_iff :
    detectFormat boot = .ok .fat ↔
      slice boot 3 11 ≠ "NTFS    ".toUTF8.toList ∧
        slice boot 3 11 ≠ "EXFAT   ".toUTF8.toList ∧
        slice boot 1080 1082 ≠ [0x53, 0xEF] ∧
        unpackLE 2 boot 11 ∈ [512, 1024, 2048, 4096] ∧
        ∃ cluster, byteAt boot 13 = .ok cluster ∧
          cluster ∈ [1, 2, 4, 8, 16, 32, 64, 128] := by
  unfold detectFormat
  constructor
  · intro h
    split_ifs at h with hntfs hexfat hext hsector
    · cases h
    · cases h
    · cases h
    · obtain ⟨cluster, hcluster, h⟩ := bind_ok h
      split_ifs at h with hmem
      · exact ⟨hntfs, hexfat, hext, hsector, cluster, hcluster, hmem⟩
      · cases h
    · cases h
  · rintro ⟨hntfs, hexfat, hext, hsector, cluster, hcluster, hmem⟩
    rw [if_neg hntfs, if_neg hexfat, if_neg hext, if_pos hsector, hcluster,
      ok_bind, if_pos hmem]
    rfl

/-- A part of the boot sector of a FAT volume is that of a FAT volume, or of
none. -/
theorem detectFormat_take {k : ℕ} {format : Format}
    (hfat : detectFormat boot = .ok .fat)
    (h : detectFormat (boot.take k) = .ok format) :
    format = .fat ∨ format = .unsupported := by
  obtain ⟨hntfs, hexfat, hext, -⟩ := detectFormat_eq_fat_iff.mp hfat
  have hntfs' : slice (boot.take k) 3 11 ≠ "NTFS    ".toUTF8.toList :=
    fun h => hntfs (slice_of_slice_take (by decide +kernel) (by decide) h)
  have hexfat' : slice (boot.take k) 3 11 ≠ "EXFAT   ".toUTF8.toList :=
    fun h => hexfat (slice_of_slice_take (by decide +kernel) (by decide) h)
  have hext' : slice (boot.take k) 1080 1082 ≠ [0x53, 0xEF] :=
    fun h => hext (slice_of_slice_take (by decide) (by decide) h)
  unfold detectFormat at h
  rw [if_neg hntfs', if_neg hexfat', if_neg hext'] at h
  split_ifs at h with hsector
  · obtain ⟨cluster, -, h⟩ := bind_ok h
    split_ifs at h with hmem
    · exact Or.inl (Except.ok.inj h).symm
    · exact Or.inr (Except.ok.inj h).symm
  · exact Or.inr (Except.ok.inj h).symm

theorem detectFormat_take_of_le {k : ℕ} (hk : 42 ≤ k)
    (hfat : detectFormat boot = .ok .fat) :
    detectFormat (boot.take k) = .ok .fat := by
  rw [detectFormat_eq_fat_iff] at hfat ⊢
  obtain ⟨hntfs, hexfat, hext, hsector, cluster, hcluster, hmem⟩ := hfat
  refine ⟨
    fun h => hntfs (slice_of_slice_take (by decide +kernel) (by decide) h),
    fun h => hexfat (slice_of_slice_take (by decide +kernel) (by decide) h),
    fun h => hext (slice_of_slice_take (by decide) (by decide) h),
    ?_, cluster, ?_, hmem⟩
  · rwa [unpackLE_take (by omega)]
  · rwa [byteAt_take (by omega)]

end Boot

/-! ## Reads of the truncated image -/

theorem readAt_cut {reader : Reader} {offset amount : ℕ} {data : List UInt8}
    (h : reader.readAt offset amount = .ok data) (length : ℕ) :
    (cut reader length).readAt offset amount =
      .ok (data.take ((cut reader length).size - offset)) := by
  have hcontent : (cut reader length).content = reader.content := rfl
  have hsize : (cut reader length).size ≤ reader.size := min_le_right _ _
  rw [Reader.readAt] at h ⊢
  by_cases hbound : maxEvidenceReadSize < amount
  · rw [if_pos hbound] at h
    cases h
  · rw [if_neg hbound] at h ⊢
    by_cases hempty : amount = 0 ∨ reader.size ≤ offset
    · rw [if_pos hempty] at h
      obtain rfl := Except.ok.inj h
      rw [if_pos (by omega), List.take_nil]
    · rw [if_neg hempty] at h
      obtain rfl := Except.ok.inj h
      by_cases hcut : (cut reader length).size ≤ offset
      · rw [if_pos (Or.inr hcut), Nat.sub_eq_zero_of_le hcut, List.take_zero]
      · rw [if_neg (by omega), hcontent, ← List.map_take, List.take_range]
        rw [show min ((cut reader length).size - offset)
          (min amount (reader.size - offset)) =
            min amount ((cut reader length).size - offset) by omega]

/-! ## The loop over the clusters -/

section Clusters

variable {reader : Reader} {g : FatGeometry}

/-- The entry of a cluster lies in the table. -/
def EntryFits (g : FatGeometry) (clusterId : ℕ) : Prop :=
  clusterId * g.bits / 8 + entryWidth g.bits ≤ g.fatBytes

theorem entryWidth_bounds {bits : ℕ}
    (hbits : bits = 12 ∨ bits = 16 ∨ bits = 32) :
    0 < entryWidth bits ∧ entryWidth bits ≤ 4 := by
  rcases hbits with rfl | rfl | rfl <;> decide

theorem FatCache.serve_total (htable : g.fatStart + g.fatBytes ≤ reader.size)
    (cache : FatCache) {offset width : ℕ} (hpos : 0 < width)
    (hwidth : width ≤ 4) (hfits : offset + width ≤ g.fatBytes) :
    ∃ cache', cache.serve reader g offset width = .ok cache' ∧
      (slice cache'.data (offset - cache'.offset)
        (offset - cache'.offset + width)).length = width := by
  rw [FatCache.serve]
  by_cases hserved : cache.offset ≤ offset ∧
      offset + width ≤ cache.offset + cache.data.length
  · refine ⟨cache, if_pos hserved, ?_⟩
    rw [slice, List.length_drop, List.length_take]
    omega
  · rw [if_neg hserved]
    have hbound : ¬ maxEvidenceReadSize < min 65536 (g.fatBytes - offset) := by
      unfold maxEvidenceReadSize
      omega
    have hread : ∃ data, reader.readAt (g.fatStart + offset)
        (min 65536 (g.fatBytes - offset)) = .ok data ∧
          width ≤ data.length := by
      rw [Reader.readAt, if_neg hbound, if_neg (by omega)]
      refine ⟨_, rfl, ?_⟩
      rw [List.length_map, List.length_range]
      omega
    obtain ⟨data, hdata, hlength⟩ := hread
    refine ⟨⟨offset, data⟩, bind_eq_ok_iff.mpr ⟨data, hdata, rfl⟩, ?_⟩
    dsimp only
    rw [slice, List.length_drop, List.length_take]
    omega

theorem scanCluster_total {base : ℕ}
    (hbits : g.bits = 12 ∨ g.bits = 16 ∨ g.bits = 32)
    (htable : g.fatStart + g.fatBytes ≤ reader.size) (scan : FatScan)
    {clusterId : ℕ} (hfits : EntryFits g clusterId) :
    ∃ scan', scanCluster reader base g scan clusterId = .ok scan' := by
  obtain ⟨hpos, hwidth⟩ := entryWidth_bounds hbits
  obtain ⟨cache, hserve, hlength⟩ :=
    FatCache.serve_total htable scan.cache hpos hwidth hfits
  have hfits : ¬ g.fatBytes <
      clusterId * g.bits / 8 + entryWidth g.bits := not_lt.mpr hfits
  unfold scanCluster
  dsimp only
  rw [if_neg hfits, hserve, ok_bind, if_neg fun hne => hne hlength]
  exact ⟨_, rfl⟩

theorem fat_total {boot : List UInt8} {base size : ℕ}
    (hgeometry : fatGeometry boot base size = .ok g)
    (htable : g.fatStart + g.fatBytes ≤ reader.size)
    (hfits : ∀ n < g.count, EntryFits g (2 + n)) :
    ∃ ranges, fat reader boot base size = .ok ranges := by
  obtain ⟨hbits, -, -⟩ := fatGeometry_spec hgeometry
  obtain ⟨scan, hscan⟩ := exists_foldlM_range' (k := 2)
    (fun n s hn => scanCluster_total hbits htable s (hfits n hn))
    (⟨⟨none, []⟩, ⟨0, []⟩⟩ : FatScan)
  exact ⟨_, bind_eq_ok_iff.mpr ⟨g, hgeometry,
    bind_eq_ok_iff.mpr ⟨scan, hscan, rfl⟩⟩⟩

theorem entryFits_of_fat {boot : List UInt8} {base size : ℕ}
    {ranges : List (ℕ × ℕ)} (h : fat reader boot base size = .ok ranges)
    (hgeometry : fatGeometry boot base size = .ok g) :
    ∀ n < g.count, EntryFits g (2 + n) := by
  obtain ⟨g', hgeometry', h⟩ := bind_ok h
  obtain rfl := Except.ok.inj (hgeometry'.symm.trans hgeometry)
  obtain ⟨scan, hscan, -⟩ := bind_ok h
  have hstep (n : ℕ) (s s' : FatScan) (_ : n < g'.count)
      (hs : ∀ m < n, EntryFits g' (2 + m))
      (h : scanCluster reader base g' s (2 + n) = .ok s') :
      ∀ m < n + 1, EntryFits g' (2 + m) := by
    intro m hm
    rcases (Nat.lt_succ_iff.mp hm).lt_or_eq with hlt | rfl
    · exact hs m hlt
    · rw [scanCluster, check_eq_ok_iff] at h
      exact not_lt.mp h.1
  exact foldlM_range'_ok hstep (by simp) hscan

end Clusters

/-! ## The truncated volume -/

section Geometry

variable {boot : List UInt8} {base count size size' : ℕ}

theorem table_le (base : ℕ) (h : ValidGeometry boot count) :
    (geometryOf boot base count).fatStart +
        (geometryOf boot base count).fatBytes ≤
      base + bootDataSector boot * bootSector boot := by
  obtain ⟨-, -, hfats, hactive⟩ := h
  have htables : (unpackLE 2 boot 14 + bootFats boot * bootFatSectors boot) *
      bootSector boot ≤ bootDataSector boot * bootSector boot :=
    Nat.mul_le_mul_right _ (Nat.le_add_right _ _)
  rw [Nat.add_mul] at htables
  simp only [geometryOf]
  split_ifs with hmirrored
  · have hlt := Nat.succ_le_of_lt (hactive hmirrored)
    have hmul := Nat.mul_le_mul_right (bootSector boot)
      (Nat.mul_le_mul_right (bootFatSectors boot) hlt)
    rw [Nat.succ_mul, Nat.add_mul] at hmul
    omega
  · have hmul := Nat.mul_le_mul_right (bootSector boot)
      (Nat.mul_le_mul_right (bootFatSectors boot)
        (Nat.one_le_iff_ne_zero.mpr hfats))
    rw [Nat.one_mul] at hmul
    omega

/-- A cluster of the volume lies in the first bytes of it if it is one of
their clusters. -/
theorem cluster_inside_iff (hcluster : 0 < bootCluster boot)
    (hsector : 0 < bootSector boot) {i : ℕ} (hi : i < fatClusters boot size) :
    bootDataSector boot * bootSector boot +
        (i + 1) * (bootCluster boot * bootSector boot) ≤ size' ↔
      i < fatClusters boot size' := by
  have hlt (bytes : ℕ) : i < fatClusters boot bytes ↔
      bootDataSector boot + (i + 1) * bootCluster boot ≤
        min (bootTotal boot) (bytes / bootSector boot) := by
    have hpos := Nat.mul_pos i.succ_pos hcluster
    rw [fatClusters, ← Nat.succ_le_iff, Nat.le_div_iff_mul_le hcluster,
      Nat.succ_eq_add_one]
    rw [Nat.succ_eq_add_one] at hpos
    omega
  have htotal := ((hlt size).mp hi).trans (min_le_left _ _)
  rw [hlt, le_min_iff, and_iff_right htotal,
    Nat.le_div_iff_mul_le hsector, Nat.add_mul (bootDataSector boot),
    Nat.mul_assoc (i + 1)]

theorem fatClusters_mono (h : size' ≤ size) :
    fatClusters boot size' ≤ fatClusters boot size := by
  have hdiv : size' / bootSector boot ≤ size / bootSector boot :=
    Nat.div_le_div_right h
  exact Nat.div_le_div_right (by omega)

theorem geometryOf_eq {count' : ℕ} (h : fatBits count' = fatBits count) :
    geometryOf boot base count' =
      { geometryOf boot base count with count := count' } := by
  have hmirrored : bootMirrored boot count' ↔ bootMirrored boot count := by
    rw [bootMirrored, bootMirrored, h]
  simp only [geometryOf, h, if_congr hmirrored rfl rfl]

theorem validGeometry_of_eq {count' : ℕ} (h : fatBits count' = fatBits count)
    (hcount : count' ≠ 0) (hvalid : ValidGeometry boot count) :
    ValidGeometry boot count' := by
  obtain ⟨-, hsectors, hfats, hactive⟩ := hvalid
  refine ⟨hcount, hsectors, hfats, fun hmirrored => hactive ?_⟩
  rwa [bootMirrored, h] at hmirrored

end Geometry

section Volume

/-- A run of `free_ranges` reports a byte. -/
def Reports (result : Except PyError ExtScan) (x : ℕ) : Prop :=
  ∃ scan, result = .ok scan ∧ ∃ r ∈ scan.ranges, r.1 ≤ x ∧ x < r.1 + r.2

/-- The allocation unit of a byte lies in the first bytes of the volume. -/
def UnitInside (g : FatGeometry) (base size x : ℕ) : Prop :=
  ∃ i, base + g.dataSector * g.sector + i * g.unit ≤ x ∧
    x < base + g.dataSector * g.sector + (i + 1) * g.unit ∧
    g.dataSector * g.sector + (i + 1) * g.unit ≤ size

/-- Of the truncated volume the ranges are reported that lie in it, and its
table is read in the same width. -/
structure KeepsRanges (reader : Reader) (filesystem : TskFileSystem)
    (volume : Volume) (warnings : Option (List String)) (g : FatGeometry)
    (scan : ExtScan) (length : ℕ) : Prop where
  width : ∀ boot g', (cut reader length).readAt volume.byteOffset 4096 =
    .ok boot →
    fatGeometry boot volume.byteOffset
      (cutVolume reader length volume).byteLength = .ok g' → g'.bits = g.bits
  ranges : ∀ x, Reports (freeRanges (cut reader length) filesystem
      (cutVolume reader length volume) warnings) x ↔
    (∃ r ∈ scan.ranges, r.1 ≤ x ∧ x < r.1 + r.2) ∧
      UnitInside g volume.byteOffset
        (cutVolume reader length volume).byteLength x

/-- Two numbers of clusters lie between the same bounds of a width. -/
def SameWidth (m n : ℕ) : Prop :=
  (m < 4085 ↔ n < 4085) ∧ (m < 65525 ↔ n < 65525)

theorem fatBits_eq_32_iff {n : ℕ} : fatBits n = 32 ↔ 65525 ≤ n := by
  unfold fatBits
  split_ifs <;> simp <;> omega

theorem fatBits_eq_iff {m n : ℕ} : fatBits m = fatBits n ↔ SameWidth m n := by
  unfold fatBits SameWidth
  split_ifs <;> simp <;> omega

variable {reader : Reader} {filesystem : TskFileSystem} {volume : Volume}
  {warnings : Option (List String)} {scan : ExtScan} {boot : List UInt8}
  {length : ℕ}

theorem freeRanges_fat (hboot : reader.readAt volume.byteOffset 4096 = .ok boot)
    (hformat : detectFormat boot = .ok .fat) :
    freeRanges reader filesystem volume warnings = (do
      let ranges ← fat reader boot volume.byteOffset volume.byteLength
      return ⟨ranges, warnings⟩) := by
  unfold freeRanges
  dsimp only
  rw [hboot, ok_bind, hformat, ok_bind]

theorem exists_free_of_reports {g : FatGeometry}
    (hboot : reader.readAt volume.byteOffset 4096 = .ok boot)
    (hformat : detectFormat boot = .ok .fat)
    (hgeometry : fatGeometry boot volume.byteOffset volume.byteLength = .ok g)
    {x : ℕ} (h : Reports (freeRanges reader filesystem volume warnings) x) :
    ∃ i < g.count, FatFree reader.content g i ∧
      volume.byteOffset + g.dataSector * g.sector + i * g.unit ≤ x ∧
        x < volume.byteOffset + g.dataSector * g.sector +
          (i + 1) * g.unit := by
  obtain ⟨scan', hscan', hreported⟩ := h
  rw [freeRanges_fat hboot hformat] at hscan'
  obtain ⟨ranges, hfat, hpure⟩ := bind_ok hscan'
  obtain rfl := Except.ok.inj hpure
  obtain ⟨g', hexact⟩ := fat_exact hfat
  obtain rfl := Except.ok.inj (hgeometry.symm.trans hexact.geometry)
  exact (hexact.exact.exact x).mp hreported

theorem unit_unique {origin unit i j x : ℕ} (hi : origin + i * unit ≤ x)
    (hi' : x < origin + (i + 1) * unit) (hj : origin + j * unit ≤ x)
    (hj' : x < origin + (j + 1) * unit) : i = j := by
  rcases lt_trichotomy i j with hlt | heq | hgt
  · have := Nat.mul_le_mul_right unit (Nat.succ_le_of_lt hlt)
    rw [Nat.succ_eq_add_one] at this
    omega
  · exact heq
  · have := Nat.mul_le_mul_right unit (Nat.succ_le_of_lt hgt)
    rw [Nat.succ_eq_add_one] at this
    omega

/-- The reported bytes whose units lie in the first bytes of the volume are
those of their free clusters. -/
theorem reported_inside_iff {base size size' x : ℕ}
    (hpos : 0 < bootCluster boot * bootSector boot) (hsize : size' ≤ size)
    {free : ℕ → Prop} {ranges : List (ℕ × ℕ)}
    (hexact : FreeUnits (base + bootDataSector boot * bootSector boot)
      (bootCluster boot * bootSector boot) (fatClusters boot size) free
      ranges) :
    (∃ r ∈ ranges, r.1 ≤ x ∧ x < r.1 + r.2) ∧
        UnitInside (geometryOf boot base (fatClusters boot size)) base size' x ↔
      ∃ i < fatClusters boot size', free i ∧
        base + bootDataSector boot * bootSector boot +
            i * (bootCluster boot * bootSector boot) ≤ x ∧
          x < base + bootDataSector boot * bootSector boot +
            (i + 1) * (bootCluster boot * bootSector boot) := by
  have hcluster := Nat.pos_of_mul_pos_right hpos
  have hsector := Nat.pos_of_mul_pos_left hpos
  rw [hexact.exact]
  constructor
  · rintro ⟨⟨i, hi, hfree, hlow, hhigh⟩, j, hlow', hhigh', hinside⟩
    obtain rfl := unit_unique hlow hhigh hlow' hhigh'
    exact ⟨i, (cluster_inside_iff hcluster hsector hi).mp hinside, hfree, hlow,
      hhigh⟩
  · rintro ⟨i, hi, hfree, hlow, hhigh⟩
    have hi' := hi.trans_le (fatClusters_mono hsize)
    exact ⟨⟨i, hi', hfree, hlow, hhigh⟩, i, hlow, hhigh,
      (cluster_inside_iff hcluster hsector hi').mpr hi⟩

theorem le_of_fatClusters {size : ℕ}
    (hsector : unpackLE 2 boot 11 ∈ [512, 1024, 2048, 4096])
    (h : fatClusters boot size ≠ 0) : 512 ≤ size := by
  by_contra hlt
  have hle : 512 ≤ bootSector boot := by
    simp only [List.mem_cons, List.not_mem_nil, or_false] at hsector
    unfold bootSector
    omega
  apply h
  rw [fatClusters, Nat.div_eq_of_lt (b := bootSector boot) (by omega),
    Nat.min_zero, Nat.zero_sub, Nat.zero_div]

theorem le_of_fatGeometry {base size : ℕ} {g : FatGeometry}
    (hsector : unpackLE 2 boot 11 ∈ [512, 1024, 2048, 4096])
    (h : fatGeometry boot base size = .ok g) : 512 ≤ size := by
  obtain ⟨cluster, hcluster, h⟩ := bind_ok h
  obtain ⟨fats, hfats, h⟩ := bind_ok h
  obtain ⟨hvalid, -⟩ := check_ok h
  obtain ⟨-, rfl⟩ := eq_of_byteAt hcluster
  obtain ⟨-, rfl⟩ := eq_of_byteAt hfats
  exact le_of_fatClusters hsector fun hzero => hvalid (Or.inl hzero)

/-- In a volume without a whole data cluster there is no geometry, however
short the boot sector is. -/
theorem fatGeometry_ne_ok {base size k : ℕ} (hboot : 42 ≤ boot.length)
    (hsector : unpackLE 2 boot 11 ∈ [512, 1024, 2048, 4096])
    (hsize : size ≤ k) (hnone : fatClusters boot size = 0) (g : FatGeometry) :
    fatGeometry (boot.take k) base size ≠ .ok g := by
  intro h
  rcases le_or_gt 42 k with hle | hgt
  · rw [fatGeometry_take hle, fatGeometry_eq_ok_iff hboot] at h
    exact h.1.1 hnone
  · have hk : 16 < k := by
      obtain ⟨cluster, -, h⟩ := bind_ok h
      obtain ⟨fats, hfats, -⟩ := bind_ok h
      have hlength := (eq_of_byteAt hfats).1
      rw [List.length_take] at hlength
      omega
    have := le_of_fatGeometry (by rwa [unpackLE_take (by omega)]) h
    omega

theorem not_reports_of_fatClusters_eq_zero (hboot : 42 ≤ boot.length)
    (hread : reader.readAt volume.byteOffset 4096 = .ok boot)
    (hformat : detectFormat boot = .ok .fat)
    (hnone : fatClusters boot (cutVolume reader length volume).byteLength = 0)
    (x : ℕ) :
    ¬ Reports (freeRanges (cut reader length) filesystem
      (cutVolume reader length volume) warnings) x := by
  have hsector := (detectFormat_eq_fat_iff.mp hformat).2.2.2.1
  rintro ⟨scan', hscan', -⟩
  obtain ⟨boot', format, hread', hformat', hexact⟩ :=
    volumeExact_of_freeRanges hscan'
  obtain rfl := Except.ok.inj ((readAt_cut hread length).symm.trans hread')
  rcases detectFormat_take hformat hformat' with rfl | rfl
  · obtain ⟨g', hgeometry, -⟩ := hexact
    exact fatGeometry_ne_ok hboot hsector (min_le_right _ _) hnone g' hgeometry
  · exact hexact

theorem freeRanges_cut (hboot : 42 ≤ boot.length)
    (hread : reader.readAt volume.byteOffset 4096 = .ok boot)
    (hformat : detectFormat boot = .ok .fat)
    (hscan : freeRanges reader filesystem volume warnings = .ok scan)
    (hvalid : ValidGeometry boot (fatClusters boot volume.byteLength))
    (hsome : fatClusters boot
      (cutVolume reader length volume).byteLength ≠ 0)
    (hwidth : fatBits (fatClusters boot
      (cutVolume reader length volume).byteLength) =
        fatBits (fatClusters boot volume.byteLength)) :
    ∃ scan', freeRanges (cut reader length) filesystem
        (cutVolume reader length volume) warnings = .ok scan' ∧
      FreeUnits (volume.byteOffset + bootDataSector boot * bootSector boot)
        (bootCluster boot * bootSector boot)
        (fatClusters boot (cutVolume reader length volume).byteLength)
        (FatFree reader.content (geometryOf boot volume.byteOffset
          (fatClusters boot volume.byteLength))) scan'.ranges := by
  have hsector := (detectFormat_eq_fat_iff.mp hformat).2.2.2.1
  obtain ⟨hpos, hdata⟩ := fatCount_fits hsome
  have hsize := le_of_fatClusters hsector hsome
  have hpart : (cutVolume reader length volume).byteLength ≤
      (cut reader length).size - volume.byteOffset := min_le_right _ _
  have hmono : fatClusters boot (cutVolume reader length volume).byteLength ≤
      fatClusters boot volume.byteLength := fatClusters_mono (min_le_left _ _)
  rw [freeRanges_fat hread hformat] at hscan
  obtain ⟨ranges, hfat, -⟩ := bind_ok hscan
  have hfits := entryFits_of_fat hfat
    ((fatGeometry_eq_ok_iff hboot).mpr ⟨hvalid, rfl⟩)
  have hvalid' := validGeometry_of_eq hwidth hsome hvalid
  have hgeometry' : fatGeometry
      (boot.take ((cut reader length).size - volume.byteOffset))
      volume.byteOffset (cutVolume reader length volume).byteLength =
        .ok (geometryOf boot volume.byteOffset
          (fatClusters boot (cutVolume reader length volume).byteLength)) := by
    rw [fatGeometry_take (by omega)]
    exact (fatGeometry_eq_ok_iff hboot).mpr ⟨hvalid', rfl⟩
  have htable := table_le volume.byteOffset hvalid'
  rw [geometryOf_eq hwidth] at hgeometry' htable
  obtain ⟨ranges', hfat'⟩ := fat_total hgeometry'
    (htable.trans (show _ ≤ (cut reader length).size by omega))
    fun n hn => hfits n (hn.trans_le hmono)
  obtain ⟨g', hexact⟩ := fat_exact hfat'
  obtain rfl := Except.ok.inj (hgeometry'.symm.trans hexact.geometry)
  refine ⟨⟨ranges', warnings⟩, ?_, hexact.exact⟩
  have hread' := readAt_cut hread length
  rw [freeRanges_fat (show (cut reader length).readAt
    (cutVolume reader length volume).byteOffset 4096 = _ from hread')
    (detectFormat_take_of_le (by omega) hformat)]
  exact bind_eq_ok_iff.mpr ⟨ranges', hfat', rfl⟩

/-- A truncated FAT volume keeps the ranges that lie in it exactly when it has
no whole data cluster, or as many as need entries of the same width. -/
theorem fat_keepsRanges_iff
    (hscan : freeRanges reader filesystem volume warnings = .ok scan)
    (hread : reader.readAt volume.byteOffset 4096 = .ok boot)
    (hformat : detectFormat boot = .ok .fat)
    (hinside : volume.byteOffset + volume.byteLength ≤ reader.size)
    (length : ℕ) :
    ∃ g, fatGeometry boot volume.byteOffset volume.byteLength = .ok g ∧
      g.count = fatClusters boot volume.byteLength ∧
      (KeepsRanges reader filesystem volume warnings g scan length ↔
        fatClusters boot (cutVolume reader length volume).byteLength = 0 ∨
          SameWidth
            (fatClusters boot (cutVolume reader length volume).byteLength)
            (fatClusters boot volume.byteLength)) := by
  have hsector := (detectFormat_eq_fat_iff.mp hformat).2.2.2.1
  obtain ⟨g, hfat⟩ : ∃ g, FatExact reader boot volume.byteOffset
      volume.byteLength g scan.ranges := by
    have hscan' := hscan
    rw [freeRanges_fat hread hformat] at hscan'
    obtain ⟨ranges, hfat, hpure⟩ := bind_ok hscan'
    obtain rfl := Except.ok.inj hpure
    exact fat_exact hfat
  have hlarge := le_of_fatGeometry hsector hfat.geometry
  have hboot : 42 ≤ boot.length := by
    have hbound : ¬ maxEvidenceReadSize < 4096 := by decide
    rw [Reader.readAt, if_neg hbound, if_neg (by omega)] at hread
    rw [← Except.ok.inj hread, List.length_map, List.length_range]
    omega
  obtain ⟨hvalid, rfl⟩ := (fatGeometry_eq_ok_iff hboot).mp hfat.geometry
  have hpos := (fatCount_fits hvalid.1).1
  have hmono : (cutVolume reader length volume).byteLength ≤
      volume.byteLength := min_le_left _ _
  have hinsideIff (x : ℕ) := reported_inside_iff (x := x) hpos hmono hfat.exact
  refine ⟨_, hfat.geometry, rfl, ?_⟩
  rw [← fatBits_eq_iff]
  constructor
  · intro hkeeps
    by_contra hnot
    rw [not_or] at hnot
    -- a table in use other than the first needs the widest entries
    have hvalid' : ValidGeometry boot (fatClusters boot
        (cutVolume reader length volume).byteLength) := by
      refine ⟨hnot.1, hvalid.2.1, hvalid.2.2.1, fun hmirrored => ?_⟩
      have hbits := hmirrored.1
      rw [fatBits_eq_32_iff] at hbits
      have hmono : fatClusters boot
          (cutVolume reader length volume).byteLength ≤
            fatClusters boot volume.byteLength :=
        fatClusters_mono (min_le_left _ _)
      have hbits' := fatBits_eq_32_iff.mpr (hbits.trans hmono)
      exact absurd (hmirrored.1.trans hbits'.symm) hnot.2
    have hsize := le_of_fatClusters hsector hnot.1
    have hpart : (cutVolume reader length volume).byteLength ≤
        (cut reader length).size - volume.byteOffset := min_le_right _ _
    refine hnot.2 (hkeeps.width _ (geometryOf boot volume.byteOffset
      (fatClusters boot (cutVolume reader length volume).byteLength))
      (readAt_cut hread length) ?_)
    rw [fatGeometry_take (by omega)]
    exact (fatGeometry_eq_ok_iff hboot).mpr ⟨hvalid', rfl⟩
  · intro hcase
    by_cases hnone : fatClusters boot
        (cutVolume reader length volume).byteLength = 0
    · refine ⟨fun boot' g' hread' hgeometry => ?_, fun x => ?_⟩
      · obtain rfl := Except.ok.inj
          ((readAt_cut hread length).symm.trans hread')
        exact (fatGeometry_ne_ok hboot hsector (min_le_right _ _) hnone g'
          hgeometry).elim
      · refine iff_of_false (not_reports_of_fatClusters_eq_zero hboot hread
          hformat hnone x) fun h => ?_
        obtain ⟨i, hi, -⟩ := (hinsideIff x).mp h
        rw [hnone] at hi
        exact Nat.not_lt_zero i hi
    · have hwidth := hcase.resolve_left hnone
      obtain ⟨scan', hscan', hexact⟩ :=
        freeRanges_cut hboot hread hformat hscan hvalid hnone hwidth
      refine ⟨fun boot' g' hread' hgeometry => ?_, fun x => ?_⟩
      · obtain rfl := Except.ok.inj
          ((readAt_cut hread length).symm.trans hread')
        have hsize := le_of_fatClusters hsector hnone
        have hpart : (cutVolume reader length volume).byteLength ≤
            (cut reader length).size - volume.byteOffset := min_le_right _ _
        rw [fatGeometry_take (by omega), fatGeometry_eq_ok_iff hboot]
          at hgeometry
        obtain rfl := hgeometry.2
        exact hwidth
      · rw [hinsideIff x, ← hexact.exact x]
        constructor
        · rintro ⟨found, hfound, hx⟩
          obtain rfl := Except.ok.inj (hscan'.symm.trans hfound)
          exact hx
        · intro hx
          exact ⟨scan', hscan', hx⟩

/-- Cut after seven sectors, four of the five clusters are left. -/
theorem fat_keepsRanges_iff_fat12 :
    ∃ g, fatGeometry ((List.range 4096).map fat12Reader.content) 0 4096 =
        .ok g ∧
      g.count = 5 ∧
      (KeepsRanges fat12Reader noNtfs ⟨0, 4096⟩ none g
          ⟨[(1536, 512), (3072, 1024)], none⟩ 3584 ↔
        fatClusters ((List.range 4096).map fat12Reader.content) 3584 = 0 ∨
          SameWidth
            (fatClusters ((List.range 4096).map fat12Reader.content) 3584)
            5) := by
  have hscan : freeRanges fat12Reader noNtfs ⟨0, 4096⟩ none =
      .ok ⟨[(1536, 512), (3072, 1024)], none⟩ :=
    eq_ok_of_toOption (by decide +kernel)
  have hread : fat12Reader.readAt 0 4096 =
      .ok ((List.range 4096).map fat12Reader.content) := by
    rw [Reader.readAt, if_neg (by decide), if_neg (by decide)]
    simp only [Nat.zero_add]
    rfl
  have hformat : detectFormat ((List.range 4096).map fat12Reader.content) =
      .ok .fat := eq_ok_of_toOption (by decide +kernel)
  have hcount : fatClusters ((List.range 4096).map fat12Reader.content) 4096 =
      5 := by decide +kernel
  have h := fat_keepsRanges_iff hscan hread hformat (by decide) 3584
  rw [hcount] at h
  exact h

end Volume

/-! ## A volume read in another width -/

/-- FAT16: one reserved sector, one table of sixteen sectors and 4085 clusters,
the fewest of that width.  The first cluster is used. -/
def fat16Reader : Reader :=
  sparseReader 2100224 (by decide)
    [(12, 2), (13, 1), (14, 1), (16, 1), (19, 0x06), (20, 0x10), (22, 16),
     (512, 0xF8), (513, 0xFF), (514, 0xFF), (515, 0xFF), (516, 0xFF),
     (517, 0xFF)]

def fat16Boot : List UInt8 :=
  (List.range 4096).map fat16Reader.content

theorem readAt_fat16 : fat16Reader.readAt 0 4096 = .ok fat16Boot := by
  rw [Reader.readAt, if_neg (by decide), if_neg (by decide)]
  simp only [Nat.zero_add]
  rfl

theorem fatGeometry_fat16 {size count : ℕ}
    (hcount : fatClusters fat16Boot size = count)
    (hvalid : ValidGeometry fat16Boot count) :
    fatGeometry fat16Boot 0 size = .ok (geometryOf fat16Boot 0 count) := by
  have hboot : 42 ≤ fat16Boot.length := by
    rw [fat16Boot, List.length_map, List.length_range]
    decide
  rw [fatGeometry_eq_ok_iff hboot, hcount]
  exact ⟨hvalid, rfl⟩

/-- Cut by its last sector, the volume is read as FAT12: the second cluster is
free in the whole volume and lies in the truncated one, which does not report
it. -/
theorem fat16_not_keepsRanges :
    ∃ scan g, freeRanges fat16Reader noNtfs ⟨0, 2100224⟩ none = .ok scan ∧
      fatGeometry fat16Boot 0 2100224 = .ok g ∧
      (∃ r ∈ scan.ranges, r.1 ≤ 9216 ∧ 9216 < r.1 + r.2) ∧
      UnitInside g 0 2099712 9216 ∧
      ¬ Reports (freeRanges (cut fat16Reader 2099712) noNtfs
        (cutVolume fat16Reader 2099712 ⟨0, 2100224⟩) none) 9216 ∧
      ¬ KeepsRanges fat16Reader noNtfs ⟨0, 2100224⟩ none g scan 2099712 := by
  have hformat : detectFormat fat16Boot = .ok .fat :=
    eq_ok_of_toOption (by decide +kernel)
  have hgeometry : fatGeometry fat16Boot 0 2100224 =
      .ok (geometryOf fat16Boot 0 4085) :=
    fatGeometry_fat16 (by decide +kernel)
      ⟨by decide, by decide +kernel, by decide +kernel, by decide +kernel⟩
  obtain ⟨ranges, hfat⟩ : ∃ ranges,
      fat fat16Reader fat16Boot 0 2100224 = .ok ranges := by
    refine fat_total hgeometry (by decide +kernel) fun n hn => ?_
    have hbytes : (geometryOf fat16Boot 0 4085).fatBytes = 8192 := by
      decide +kernel
    have hn : n < 4085 := hn
    have hentry : (2 + n) * 16 / 8 + 2 ≤ 8192 := by omega
    rw [← hbytes] at hentry
    exact hentry
  have hscan : freeRanges fat16Reader noNtfs ⟨0, 2100224⟩ none =
      .ok ⟨ranges, none⟩ := by
    rw [freeRanges_fat readAt_fat16 hformat]
    exact bind_eq_ok_iff.mpr ⟨ranges, hfat, rfl⟩
  have hcut : (cut fat16Reader 2099712).readAt 0 4096 = .ok fat16Boot :=
    (readAt_cut readAt_fat16 2099712).trans (congrArg Except.ok
      (List.take_of_length_le (by
        rw [fat16Boot, List.length_map, List.length_range]
        decide)))
  have hcutGeometry : fatGeometry fat16Boot 0 2099712 =
      .ok (geometryOf fat16Boot 0 4084) :=
    fatGeometry_fat16 (by decide +kernel)
      ⟨by decide, by decide +kernel, by decide +kernel, by decide +kernel⟩
  refine ⟨⟨ranges, none⟩, _, hscan, hgeometry, ?_,
    ⟨1, by decide +kernel, by decide +kernel, by decide +kernel⟩, ?_, ?_⟩
  · obtain ⟨g, hexact⟩ := fat_exact hfat
    obtain rfl := Except.ok.inj (hgeometry.symm.trans hexact.geometry)
    exact (hexact.exact.exact 9216).mpr ⟨1, by decide, by decide +kernel,
      by decide +kernel, by decide +kernel⟩
  · intro hreported
    have hvolume : cutVolume fat16Reader 2099712 ⟨0, 2100224⟩ =
        ⟨0, 2099712⟩ := by
      simp [cutVolume, cut, fat16Reader, sparseReader]
    rw [hvolume] at hreported
    obtain ⟨i, -, hfree, hlow, hhigh⟩ :=
      @exists_free_of_reports _ _ ⟨0, 2099712⟩ _ _ _ hcut hformat hcutGeometry
        _ hreported
    have hdata : (geometryOf fat16Boot 0 4084).dataSector *
        (geometryOf fat16Boot 0 4084).sector = 8704 := by decide +kernel
    have hunit : (geometryOf fat16Boot 0 4084).unit = 512 := by
      decide +kernel
    rw [hdata, hunit] at hlow hhigh
    have hbase : (⟨0, 2099712⟩ : Volume).byteOffset = 0 := rfl
    rw [hbase] at hlow hhigh
    obtain rfl : i = 1 := by omega
    revert hfree
    decide +kernel
  · intro hkeeps
    have hwidth := hkeeps.width fat16Boot _ hcut hcutGeometry
    revert hwidth
    decide +kernel

end ApexForensic.FreeSpace
