import ApexForensic.FreeSpace.Formats

/-!
# Exactness of the free ranges

Whenever `free_ranges` runs to its end, the ranges are in order, lie in the
volume and cover just the units that the allocation map marks as free, except
for the groups of an EXT volume whose bitmap is not initialized: these are left
out, with a warning.
-/

namespace ApexForensic.FreeSpace

open ApexForensic.Support ApexForensic.Domain
open ApexForensic.Partitions (Reader slice unpackLE)

variable {base n size : ℕ} {g : ExtGeometry} {reader : Reader} {scan : ExtScan}
  {warnings : Option (List String)} {boot : List UInt8}

/-! ## EXT -/

def groupDescriptor (content : ℕ → UInt8) (g : ExtGeometry) (group : ℕ) :
    List UInt8 :=
  contentBytes content (g.table + group * g.descSize) g.descSize

/-- The bit of block `first + i` is zero. -/
def ExtBitFree (content : ℕ → UInt8) (base : ℕ) (g : ExtGeometry) (i : ℕ) :
    Prop :=
  let block := bitmapBlock g.descSize
    (groupDescriptor content g (i / g.perGroup))
  bitAt (fun n => content (base + block * g.unit + n)) (i % g.perGroup) = false

/-- The bitmap of the group of block `first + i` is initialized. -/
def ExtInitialized (content : ℕ → UInt8) (g : ExtGeometry) (i : ℕ) : Prop :=
  isUninitialized (groupDescriptor content g (i / g.perGroup)) = false

def ExtFree (content : ℕ → UInt8) (base : ℕ) (g : ExtGeometry) (i : ℕ) :
    Prop :=
  ExtInitialized content g i ∧ ExtBitFree content base g i

/-- Where the loop over the groups is. -/
structure ExtSeen (reader : Reader) (base : ℕ) (g : ExtGeometry) (n : ℕ)
    (scan : ExtScan) : Prop where
  units : FreeUnits (base + g.first * g.unit) g.unit
    (min (n * g.perGroup) (g.blocks - g.first))
    (ExtFree reader.content base g) scan.ranges
  warned : ∀ group < n,
    isUninitialized (groupDescriptor reader.content g group) = true →
      ∀ warnings, scan.warnings = some warnings → skippedWarning ∈ warnings

theorem mem_warnOnce {warning : String} {result : List String}
    (h : warnOnce warning warnings = some result) : warning ∈ result := by
  obtain ⟨known, -, rfl⟩ := Option.map_eq_some_iff.mp h
  split
  · assumption
  · exact List.mem_append_right _ (List.mem_singleton.mpr rfl)

theorem ExtSeen.append (h : ExtSeen reader base g n scan)
    (hgroup : n * g.perGroup < g.blocks - g.first) {ranges : List (ℕ × ℕ)}
    (hranges : FreeUnits (base + (g.first + n * g.perGroup) * g.unit) g.unit
      (min g.perGroup (g.blocks - (g.first + n * g.perGroup)))
      (fun i => ExtFree reader.content base g (n * g.perGroup + i)) ranges) :
    FreeUnits (base + g.first * g.unit) g.unit
      (min ((n + 1) * g.perGroup) (g.blocks - g.first))
      (ExtFree reader.content base g) (scan.ranges ++ ranges) := by
  have hold := h.units
  rw [Nat.min_eq_left hgroup.le] at hold
  rw [Nat.add_mul g.first, ← Nat.add_assoc] at hranges
  have hcount : min ((n + 1) * g.perGroup) (g.blocks - g.first) =
      n * g.perGroup +
        min g.perGroup (g.blocks - (g.first + n * g.perGroup)) := by
    rw [Nat.add_mul, Nat.one_mul]
    omega
  rw [hcount]
  exact hold.append hranges

theorem div_mod_of_group {perGroup i : ℕ} (hi : i < perGroup) :
    (n * perGroup + i) / perGroup = n ∧ (n * perGroup + i) % perGroup = i := by
  have hpos : 0 < perGroup := (Nat.zero_le i).trans_lt hi
  constructor
  · rw [Nat.mul_comm, Nat.mul_add_div hpos, Nat.div_eq_of_lt hi, Nat.add_zero]
  · rw [Nat.mul_comm, Nat.mul_add_mod, Nat.mod_eq_of_lt hi]

theorem ExtSeen.scanGroup (hunit : 0 < g.unit) {scan' : ExtScan}
    (h : ExtSeen reader base g n scan)
    (hgroup : n * g.perGroup < g.blocks - g.first)
    (hscan : FreeSpace.scanGroup reader base size g scan n = .ok scan') :
    ExtSeen reader base g (n + 1) scan' := by
  rw [FreeSpace.scanGroup, check_eq_ok_iff] at hscan
  obtain ⟨-, hscan⟩ := hscan
  obtain ⟨descriptor, hread, hscan⟩ := bind_ok hscan
  obtain ⟨hlength, hscan⟩ := check_ok hscan
  rw [not_not] at hlength
  have hdescriptor : descriptor = groupDescriptor reader.content g n := by
    have hbytes := (isContent_readAt hread).1.eq_contentBytes
    rwa [hlength] at hbytes
  subst hdescriptor
  dsimp only at hscan
  split at hscan
  · -- an uninitialized group is skipped
    rename_i huninit
    obtain rfl := Except.ok.inj hscan
    refine ⟨?_, fun _ _ _ warnings hwarnings => mem_warnOnce hwarnings⟩
    have hnone : FreeUnits (base + (g.first + n * g.perGroup) * g.unit) g.unit
        (min g.perGroup (g.blocks - (g.first + n * g.perGroup)))
        (fun i => ExtFree reader.content base g (n * g.perGroup + i)) [] := by
      refine freeUnits_nil fun i hi hfree => ?_
      have hinit := hfree.1
      rw [ExtInitialized, (div_mod_of_group (by omega)).1, huninit] at hinit
      cases hinit
    have happend := h.append hgroup hnone
    rwa [List.append_nil] at happend
  · rename_i hinit
    obtain ⟨-, hscan⟩ := check_ok hscan
    obtain ⟨ranges, hruns, hpure⟩ := bind_ok hscan
    obtain rfl := Except.ok.inj hpure
    have hunits := bitmapRuns_freeUnits hunit (readsBits_readAt reader _) hruns
    refine ⟨h.append hgroup (hunits.congr fun i hi => ?_), ?_⟩
    · obtain ⟨hdiv, hmod⟩ := div_mod_of_group
        (show i < g.perGroup by omega) (n := n)
      rw [ExtFree, ExtInitialized, ExtBitFree, hdiv, hmod]
      exact Iff.symm (and_iff_right (by simpa using hinit))
    · intro group hgroup' huninit warnings hwarnings
      refine h.warned group ?_ huninit warnings hwarnings
      refine lt_of_le_of_ne (Nat.le_of_lt_succ hgroup') ?_
      rintro rfl
      exact hinit huninit

theorem shiftLeft_pos (hn : 0 < n) (shift : ℕ) : 0 < n <<< shift := by
  rw [Nat.shiftLeft_eq]
  exact Nat.mul_pos hn (Nat.two_pow_pos shift)

theorem extGeometry_spec {sb : List UInt8}
    (h : extGeometry sb base size = .ok g) :
    0 < g.unit ∧ 0 < g.perGroup ∧ g.first < g.blocks ∧
      g.blocks * g.unit ≤ size := by
  rw [extGeometry, check_eq_ok_iff] at h
  obtain ⟨-, h⟩ := h
  obtain ⟨-, h⟩ := check_ok h
  obtain ⟨-, h⟩ := check_ok h
  obtain ⟨hvalid, hpure⟩ := check_ok h
  obtain rfl := Except.ok.inj hpure
  simp only [not_or, not_not, not_lt] at hvalid
  obtain ⟨⟨hgroup, -⟩, hfirst, hsize, -⟩ := hvalid
  exact ⟨shiftLeft_pos (by decide) _, hgroup, lt_of_not_ge hfirst, hsize⟩

/-- What `_ext` yields. -/
structure ExtExact (reader : Reader) (boot : List UInt8) (base size : ℕ)
    (g : ExtGeometry) (scan : ExtScan) : Prop where
  geometry : extGeometry (boot.drop 1024) base size = .ok g
  exact : FreeUnits (base + g.first * g.unit) g.unit (g.blocks - g.first)
    (ExtFree reader.content base g) scan.ranges
  inside : g.blocks * g.unit ≤ size
  warned : (∃ i < g.blocks - g.first, ¬ ExtInitialized reader.content g i) →
    ∀ warnings, scan.warnings = some warnings → skippedWarning ∈ warnings

theorem ext_exact
    (h : ext reader (boot.drop 1024) base size warnings = .ok scan) :
    ∃ g, ExtExact reader boot base size g scan := by
  obtain ⟨g, hgeometry, h⟩ := bind_ok h
  obtain ⟨hunit, hpos, hfirst, hinside⟩ := extGeometry_spec hgeometry
  have hgroups : ∀ n < extGroups g, n * g.perGroup < g.blocks - g.first := by
    intro n hn
    have hle := (Nat.le_div_iff_mul_le hpos).mp (Nat.succ_le_of_lt hn)
    rw [Nat.succ_mul] at hle
    omega
  have hseen : ExtSeen reader base g (extGroups g) scan := by
    refine foldlM_range'_ok (fun n s s' hn hs hstep => ?_) ?_ h
    · rw [Nat.zero_add] at hstep
      exact hs.scanGroup hunit (hgroups n hn) hstep
    · refine ⟨?_, nofun⟩
      rw [Nat.zero_mul, Nat.zero_min]
      exact freeUnits_nil fun i hi => absurd hi (Nat.not_lt_zero i)
  have hall : g.blocks - g.first ≤ extGroups g * g.perGroup := by
    have hlt := Nat.lt_div_mul_add (a := g.blocks - g.first + g.perGroup - 1)
      hpos
    rw [extGroups]
    omega
  have hunits := hseen.units
  rw [Nat.min_eq_right hall] at hunits
  refine ⟨g, hgeometry, hunits, hinside, ?_⟩
  rintro ⟨i, hi, hinit⟩
  refine hseen.warned (i / g.perGroup) ?_ (by simpa [ExtInitialized] using hinit)
  exact (Nat.div_lt_iff_lt_mul hpos).mpr (hi.trans_le hall)

/-! ## exFAT -/

def BitmapPlace.byteOffset (place : BitmapPlace) (unit p : ℕ) : ℕ :=
  place.chain.getD (p / unit) 0 + p % unit

/-- The bit of cluster `i + 2` is zero. -/
def ExfatFree (content : ℕ → UInt8) (g : ExfatGeometry) (place : BitmapPlace)
    (i : ℕ) : Prop :=
  bitAt (fun p => content (place.byteOffset g.unit p)) i = false

theorem readBitmap_ok {g : ExfatGeometry} {place : BitmapPlace}
    {fuel offset amount : ℕ} {data : List UInt8}
    (h : readBitmap reader g place fuel offset amount = .ok data) :
    data.length ≤ amount ∧ ∀ i (hi : i < data.length),
      data[i] = reader.content (place.byteOffset g.unit (offset + i)) := by
  induction fuel generalizing offset amount data with
  | zero =>
      obtain rfl := Except.ok.inj h
      exact ⟨Nat.zero_le _, fun i hi => absurd hi (Nat.not_lt_zero i)⟩
  | succ fuel ih =>
      rw [readBitmap] at h
      split at h
      · obtain rfl := Except.ok.inj h
        exact ⟨Nat.zero_le _, fun i hi => absurd hi (Nat.not_lt_zero i)⟩
      · obtain ⟨start, hstart, h⟩ := bind_ok h
        obtain ⟨block, hblock, h⟩ := bind_ok h
        obtain ⟨hlength, h⟩ := check_ok h
        obtain ⟨rest, hrest, hpure⟩ := bind_ok h
        obtain rfl := Except.ok.inj hpure
        rw [not_not] at hlength
        have hchain : place.chain.getD (offset / g.unit) 0 = start := by
          rw [List.getD_eq_getElem?_getD]
          rw [chainAt] at hstart
          split at hstart
          · rename_i found hfound
            obtain rfl := Except.ok.inj hstart
            rw [hfound]
            rfl
          · cases hstart
        obtain ⟨hrestLength, hrestBytes⟩ := ih hrest
        refine ⟨by rw [List.length_append]; omega, fun i hi => ?_⟩
        rw [List.length_append] at hi
        by_cases hfirst : i < block.length
        · -- these bytes lie in the cluster of the first one
          have hunit : offset % g.unit + i < g.unit := by omega
          have hpos : 0 < g.unit := by omega
          have hdiv : (offset + i) / g.unit = offset / g.unit := by
            rw [Nat.add_div hpos, Nat.div_eq_of_lt (a := i) (by omega),
              Nat.mod_eq_of_lt (a := i) (by omega), if_neg (by omega)]
            rfl
          have hmod : (offset + i) % g.unit = offset % g.unit + i := by
            rw [Nat.add_mod, Nat.mod_eq_of_lt (a := i) (by omega),
              Nat.mod_eq_of_lt hunit]
          rw [List.getElem_append_left hfirst,
            (isContent_readAt hblock).1 i hfirst, BitmapPlace.byteOffset, hdiv,
            hmod, hchain, Nat.add_assoc]
        · rw [List.getElem_append_right (not_lt.mp hfirst), hrestBytes]
          congr 2
          omega

theorem readsBits_readBitmap (reader : Reader) (g : ExfatGeometry)
    (place : BitmapPlace) :
    ReadsBits
      (fun offset amount => readBitmap reader g place amount offset amount)
      (bitAt fun p => reader.content (place.byteOffset g.unit p)) := by
  intro offset amount data hdata
  obtain ⟨hlength, hbytes⟩ := readBitmap_ok hdata
  refine ⟨hlength, fun m hm => ?_⟩
  have hcontent : IsContent
      (fun p => reader.content (place.byteOffset g.unit p)) offset data :=
    hbytes
  rw [hcontent.bitAt hm,
    bitAt_add (fun p => reader.content (place.byteOffset g.unit p))]

theorem exfatGeometry_spec {g : ExfatGeometry}
    (h : exfatGeometry boot base size = .ok g) :
    0 < g.unit ∧ base ≤ g.heapStart ∧
      g.heapStart + g.count * g.unit ≤ base + size := by
  obtain ⟨sectorShift, -, h⟩ := bind_ok h
  obtain ⟨-, h⟩ := check_ok h
  obtain ⟨clusterShift, -, h⟩ := bind_ok h
  obtain ⟨-, h⟩ := check_ok h
  obtain ⟨hvalid, hpure⟩ := check_ok h
  obtain rfl := Except.ok.inj hpure
  simp only [not_or, not_lt] at hvalid
  obtain ⟨-, hsize, -⟩ := hvalid
  dsimp only at hsize ⊢
  exact ⟨shiftLeft_pos (shiftLeft_pos Nat.one_pos _) _,
    Nat.le_add_right _ _, by omega⟩

/-- What `_exfat` yields. -/
structure ExfatExact (reader : Reader) (boot : List UInt8) (base size : ℕ)
    (g : ExfatGeometry) (place : BitmapPlace) (ranges : List (ℕ × ℕ)) :
    Prop where
  geometry : exfatGeometry boot base size = .ok g
  located : searchRoot reader g 65536 [] g.root = .ok place
  exact : FreeUnits g.heapStart g.unit g.count
    (ExfatFree reader.content g place) ranges
  inside : base ≤ g.heapStart ∧ g.heapStart + g.count * g.unit ≤ base + size

theorem exfat_exact {ranges : List (ℕ × ℕ)}
    (h : exfat reader boot base size = .ok ranges) :
    ∃ g place, ExfatExact reader boot base size g place ranges := by
  obtain ⟨g, hgeometry, h⟩ := bind_ok h
  obtain ⟨place, hplace, h⟩ := bind_ok h
  obtain ⟨hunit, hbase, hinside⟩ := exfatGeometry_spec hgeometry
  exact ⟨g, place, hgeometry, hplace,
    bitmapRuns_freeUnits hunit (readsBits_readBitmap reader g place) h,
    hbase, hinside⟩

/-! ## All formats -/

/-- The ranges of a volume that was taken for one of the three formats. -/
def VolumeExact (reader : Reader) (boot : List UInt8) (base size : ℕ)
    (scan : ExtScan) : Format → Prop
  | .fat => ∃ g, FatExact reader boot base size g scan.ranges
  | .ext => ∃ g, ExtExact reader boot base size g scan
  | .exfat => ∃ g place, ExfatExact reader boot base size g place scan.ranges
  | .ntfs => True
  | .unsupported => False

theorem volumeExact_of_freeRanges {filesystem : TskFileSystem} {volume : Volume}
    (h : freeRanges reader filesystem volume warnings = .ok scan) :
    ∃ boot format, reader.readAt volume.byteOffset 4096 = .ok boot ∧
      detectFormat boot = .ok format ∧
      VolumeExact reader boot volume.byteOffset volume.byteLength scan
        format := by
  obtain ⟨boot, hboot, h⟩ := bind_ok h
  obtain ⟨format, hformat, h⟩ := bind_ok h
  refine ⟨boot, format, hboot, hformat, ?_⟩
  cases format with
  | ntfs => trivial
  | exfat =>
      obtain ⟨ranges, hranges, hpure⟩ := bind_ok h
      obtain rfl := Except.ok.inj hpure
      exact exfat_exact hranges
  | ext => exact ext_exact h
  | fat =>
      obtain ⟨ranges, hranges, hpure⟩ := bind_ok h
      obtain rfl := Except.ok.inj hpure
      exact fat_exact hranges
  | unsupported => cases h

/-- Reads that split a bitmap in any way: each returns some of the bytes it
was asked for. -/
structure SplitsBitmap (read : ℕ → ℕ → Except PyError (List UInt8))
    (bits : ℕ → Bool) (count : ℕ) : Prop where
  bytes : ReadsBits read bits
  some : ∀ offset amount, 0 < amount → 8 * offset < count →
    ∃ data, read offset amount = .ok data ∧ data ≠ []

/-- `bitmap_runs` yields the maximal runs of zero bits, in order. -/
def RunsExact (count unit base : ℕ) (bits : ℕ → Bool)
    (read : ℕ → ℕ → Except PyError (List UInt8)) : Prop :=
  ∃ runs : List (ℕ × ℕ),
    bitmapRuns count unit base read =
        .ok (runs.map fun run => unitRange base unit run.1 run.2) ∧
      runs.Pairwise (fun run run' => run.2 < run'.1) ∧
      ∀ run, run ∈ runs ↔ IsMaximalRun (fun i => !bits i) count run

theorem runsExact_of_splitsBitmap {count unit : ℕ} {bits : ℕ → Bool}
    {read : ℕ → ℕ → Except PyError (List UInt8)}
    (h : SplitsBitmap read bits count) : RunsExact count unit base bits read :=
  ⟨_, bitmapRuns_total h.bytes h.some, maximalRuns_pairwise _ _,
    fun _ => mem_maximalRuns_iff⟩

/-- The ranges of free space are exact, and so are the runs of every bitmap,
however it is read. -/
theorem freeRanges_exact {reader : Reader} {filesystem : TskFileSystem}
    {volume : Volume} {warnings : Option (List String)} {scan : ExtScan}
    {count unit base : ℕ} {bits : ℕ → Bool}
    {read : ℕ → ℕ → Except PyError (List UInt8)}
    (h : freeRanges reader filesystem volume warnings = .ok scan)
    (hsplit : SplitsBitmap read bits count) :
    (∃ boot format, reader.readAt volume.byteOffset 4096 = .ok boot ∧
      detectFormat boot = .ok format ∧
      VolumeExact reader boot volume.byteOffset volume.byteLength scan
        format) ∧
      RunsExact count unit base bits read :=
  ⟨volumeExact_of_freeRanges h, runsExact_of_splitsBitmap hsplit⟩

/-! ## Two images -/

/-- An image of eight sectors given by the bytes that are not zero. -/
def sparseReader (size : ℕ) (hsize : size < 2 ^ 63)
    (bytes : List (ℕ × UInt8)) : Reader where
  readerId := "sparse"
  readerVersion := "1"
  content i := (bytes.lookup i).getD 0
  size := size
  sectorSize := 512
  size_lt := hsize
  sectorSize_pos := by decide
  sectorSize_lt := by decide

def noNtfs : TskFileSystem where
  blockSize := 1
  blockCount := 0
  blockSize_pos := Nat.one_pos
  readBitmapMeta _ _ := .ok []

/-- FAT12: one reserved sector, one table of one sector, sixteen root entries,
five clusters of which the second and the third are used. -/
def fat12Reader : Reader :=
  sparseReader 4096 (by decide)
    [(12, 2), (13, 1), (14, 1), (16, 1), (17, 16), (19, 8), (22, 1),
     (512, 0xF8), (513, 0xFF), (514, 0xFF), (516, 0xF0), (517, 0xFF),
     (518, 0xFF), (519, 0x0F)]

/-- Reads of one byte of a bitmap that is all zero. -/
def zeroByte (_ amount : ℕ) : Except PyError (List UInt8) :=
  .ok (if amount = 0 then [] else [0])

theorem splitsBitmap_zeroByte (count : ℕ) :
    SplitsBitmap zeroByte (fun _ => false) count where
  bytes offset amount data h := by
    obtain rfl := Except.ok.inj h
    split
    · exact ⟨Nat.zero_le _, fun m hm => absurd hm (Nat.not_lt_zero m)⟩
    · refine ⟨by simp only [List.length_singleton]; omega, fun m hm => ?_⟩
      have hm : m < 8 := hm
      rw [bitAt, Nat.div_eq_of_lt hm]
      exact Nat.zero_testBit _
  some offset amount hamount _ := ⟨[0], by rw [zeroByte, if_neg hamount.ne'],
    by decide⟩

theorem freeRanges_exact_fat12 :
    (∃ boot format, fat12Reader.readAt 0 4096 = .ok boot ∧
      detectFormat boot = .ok format ∧
      VolumeExact fat12Reader boot 0 4096
        ⟨[(1536, 512), (3072, 1024)], none⟩ format) ∧
      RunsExact 20 512 0 (fun _ => false) zeroByte :=
  freeRanges_exact
    (eq_ok_of_toOption (by decide +kernel :
      (freeRanges fat12Reader noNtfs ⟨0, 4096⟩ none).toOption =
        some ⟨[(1536, 512), (3072, 1024)], none⟩))
    (splitsBitmap_zeroByte 20)

/-- An EXT volume of eight blocks of 1024 bytes with one group, whose bitmap
is all zero but flagged as not initialized. -/
def extReader : Reader :=
  sparseReader 8192 (by decide)
    [(1028, 8), (1044, 1), (1057, 0x20), (1080, 0x53), (1081, 0xEF),
     (1124, 0x10), (2048, 3), (2066, 2)]

def extExample : ExtGeometry where
  unit := 1024
  perGroup := 8192
  first := 1
  blocks := 8
  descSize := 32
  table := 2048

/-- Seven blocks have a zero bit in the bitmap of the group, and none of them
is yielded. -/
theorem uninitialized_group_skipped :
    ∃ scan, freeRanges extReader noNtfs ⟨0, 8192⟩ none = .ok scan ∧
      extGeometry (((List.range 4096).map extReader.content).drop 1024) 0 8192 =
        .ok extExample ∧
      ¬ FreeUnits 1024 1024 7 (ExtBitFree extReader.content 0 extExample)
        scan.ranges := by
  refine ⟨⟨[], none⟩, eq_ok_of_toOption (by decide +kernel),
    eq_ok_of_toOption (by decide +kernel), fun h => ?_⟩
  have hbyte := (h.exact 1024).mpr ⟨0, by decide, by rfl, by decide, by decide⟩
  simp at hbyte

end ApexForensic.FreeSpace
