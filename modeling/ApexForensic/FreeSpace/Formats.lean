import ApexForensic.FreeSpace.Bitmap

/-!
# The three allocation maps

Which units are free is stated on the bits of the image: an entry of a file
allocation table is free when all its bits are zero, and a unit of the other
two formats when its bit in the bitmap is.
-/

namespace ApexForensic.FreeSpace

open ApexForensic.Support ApexForensic.Domain
open ApexForensic.Partitions (Reader slice unpackLE)

variable {g : FatGeometry} {content : ℕ → UInt8} {base offset size : ℕ}
  {reader : Reader}

/-! ## Bytes that were read -/

theorem bitAt_add (content : ℕ → UInt8) (offset m : ℕ) :
    bitAt (fun i => content (offset + i)) m =
      bitAt content (8 * offset + m) := by
  rw [bitAt, bitAt, Nat.mul_add_div (by decide), Nat.mul_add_mod]

theorem IsContent.bitAt {data : List UInt8} (h : IsContent content offset data)
    {m : ℕ} (hm : m < 8 * data.length) :
    FreeSpace.bitAt (fun i => data.getD i 0) m =
      FreeSpace.bitAt (fun i => content (offset + i)) m := by
  have hi : m / 8 < data.length := (Nat.div_lt_iff_lt_mul (by decide)).mpr
    (by omega)
  rw [FreeSpace.bitAt, FreeSpace.bitAt, List.getD_eq_getElem _ _ hi, h _ hi]

theorem readsBits_readAt (reader : Reader) (start : ℕ) :
    ReadsBits (fun offset amount => reader.readAt (start + offset) amount)
      (bitAt fun i => reader.content (start + i)) := by
  intro offset amount data hdata
  obtain ⟨hcontent, hlength⟩ := isContent_readAt hdata
  refine ⟨hlength, fun m hm => ?_⟩
  rw [hcontent.bitAt hm, ← bitAt_add (fun i => reader.content (start + i))]
  simp only [Nat.add_assoc]

/-- A range of bytes of the image. -/
def contentBytes (content : ℕ → UInt8) (offset length : ℕ) : List UInt8 :=
  (List.range length).map fun i => content (offset + i)

theorem IsContent.eq_contentBytes {data : List UInt8}
    (h : IsContent content offset data) :
    data = contentBytes content offset data.length := by
  refine List.ext_getElem (by simp [contentBytes]) fun i hi _ => ?_
  rw [h i hi]
  simp [contentBytes]

/-! ## FAT -/

/-- The bits of an entry that say whether its cluster is free. -/
def valueBits (bits : ℕ) : ℕ :=
  if bits = 32 then 28 else bits

/-- The entry of unit `i`, which belongs to cluster `i + 2`, is zero. -/
def FatFree (content : ℕ → UInt8) (g : FatGeometry) (i : ℕ) : Prop :=
  ∀ k < valueBits g.bits,
    bitAt (fun n => content (g.fatStart + n)) ((i + 2) * g.bits + k) = false

instance (content : ℕ → UInt8) (g : FatGeometry) (i : ℕ) :
    Decidable (FatFree content g i) :=
  inferInstanceAs (Decidable (∀ k < _, _))

theorem eq_zero_iff_testBit {n : ℕ} :
    n = 0 ↔ ∀ k, n.testBit k = false := by
  constructor
  · rintro rfl k
    exact Nat.zero_testBit k
  · exact Nat.zero_of_testBit_eq_false

/-- How far the first bit of an entry is from the start of its byte. -/
def entryShift (bits clusterId : ℕ) : ℕ :=
  if bits = 12 ∧ clusterId % 2 = 1 then 4 else 0

theorem entryShift_spec {bits : ℕ} (hbits : bits = 12 ∨ bits = 16 ∨ bits = 32)
    (clusterId : ℕ) :
    clusterId * bits = 8 * (clusterId * bits / 8) +
      entryShift bits clusterId := by
  rw [entryShift]
  rcases hbits with rfl | rfl | rfl
  · split
    · omega
    · omega
  · rw [if_neg (by omega)]
    omega
  · rw [if_neg (by omega)]
    omega

theorem entryValue_eq_zero_iff {bits raw : ℕ} {clusterId : ℕ}
    (hbits : bits = 12 ∨ bits = 16 ∨ bits = 32)
    (hraw : bits = 16 → ∀ k ≥ 16, raw.testBit k = false) :
    entryValue bits clusterId raw = 0 ↔
      ∀ k < valueBits bits,
        raw.testBit (entryShift bits clusterId + k) = false := by
  rw [eq_zero_iff_testBit]
  rcases hbits with rfl | rfl | rfl
  · have hmask : 0xFFF = 2 ^ 12 - 1 := rfl
    have hshift : (if clusterId % 2 = 1 then 4 else 0) =
        entryShift 12 clusterId := by
      simp [entryShift]
    have hbit : ∀ k, (entryValue 12 clusterId raw).testBit k =
        (raw.testBit (entryShift 12 clusterId + k) && decide (k < 12)) := by
      intro k
      rw [entryValue, if_pos rfl, hshift, hmask, Nat.testBit_and,
        Nat.testBit_two_pow_sub_one, Nat.testBit_shiftRight]
    simp only [hbit, valueBits]
    constructor
    · intro h k hk
      simpa [show k < 12 from hk] using h k
    · intro h k
      by_cases hk : k < 12
      · rw [h k hk]
        rfl
      · simp [hk]
  · have hvalue : entryValue 16 clusterId raw = raw := rfl
    have hshift : entryShift 16 clusterId = 0 := rfl
    rw [hvalue, hshift]
    simp only [Nat.zero_add]
    constructor
    · exact fun h k _ => h k
    · intro h k
      by_cases hk : k < 16
      · exact h k hk
      · exact hraw rfl k (not_lt.mp hk)
  · have hmask : 0x0FFFFFFF = 2 ^ 28 - 1 := rfl
    have hshift : entryShift 32 clusterId = 0 := rfl
    have hbit : ∀ k, (entryValue 32 clusterId raw).testBit k =
        (raw.testBit k && decide (k < 28)) := by
      intro k
      rw [entryValue, if_neg (by decide), if_pos rfl, hmask, Nat.testBit_and,
        Nat.testBit_two_pow_sub_one]
    rw [hshift]
    simp only [hbit, valueBits, Nat.zero_add]
    constructor
    · intro h k hk
      simpa [show k < 28 from hk] using h k
    · intro h k
      by_cases hk : k < 28
      · rw [h k hk]
        rfl
      · simp [hk]

theorem entryValue_free_iff (hbits : g.bits = 12 ∨ g.bits = 16 ∨ g.bits = 32)
    {entry : List UInt8} {i : ℕ}
    (hentry : IsContent content (g.fatStart + (i + 2) * g.bits / 8) entry)
    (hlength : entry.length = entryWidth g.bits) :
    entryValue g.bits (i + 2) (unpackLE (entryWidth g.bits) entry 0) = 0 ↔
      FatFree content g i := by
  have hraw : unpackLE (entryWidth g.bits) entry 0 =
      entry.foldr (fun byte value => byte.toNat + 256 * value) 0 := by
    rw [unpackLE, slice, Nat.zero_add, ← hlength, List.take_length,
      List.drop_zero]
  have hin : ∀ k < valueBits g.bits,
      entryShift g.bits (i + 2) + k < 8 * entry.length := by
    intro k hk
    rw [hlength, entryWidth, entryShift]
    rw [valueBits] at hk
    rcases hbits with h | h | h
    · rw [h] at hk ⊢
      split
      · simp at hk ⊢
        omega
      · simp at hk ⊢
        omega
    · rw [h] at hk ⊢
      simp at hk ⊢
      omega
    · rw [h] at hk ⊢
      simp at hk ⊢
      omega
  rw [hraw, entryValue_eq_zero_iff hbits, FatFree]
  · refine forall_congr' fun k => imp_congr_right fun hk => ?_
    rw [testBit_foldr, hentry.bitAt (hin k hk)]
    have hplace : (fun n => content (g.fatStart + (i + 2) * g.bits / 8 + n)) =
        fun n => (fun m => content (g.fatStart + m))
          ((i + 2) * g.bits / 8 + n) := by
      funext n
      rw [Nat.add_assoc]
    rw [hplace, bitAt_add (fun m => content (g.fatStart + m)), ← Nat.add_assoc,
      ← entryShift_spec hbits]
  · intro h k hk
    have hout : entry.length ≤ k / 8 := by
      rw [hlength, h]
      exact (Nat.le_div_iff_mul_le (by decide)).mpr hk
    rw [testBit_foldr, bitAt, List.getD_eq_default _ _ hout]
    exact Nat.zero_testBit _

theorem FatCache.serve_ok {cache cache' : FatCache} {width : ℕ}
    (hcache : IsContent reader.content (g.fatStart + cache.offset) cache.data)
    (h : cache.serve reader g offset width = .ok cache') :
    IsContent reader.content (g.fatStart + cache'.offset) cache'.data ∧
      cache'.offset ≤ offset := by
  rw [FatCache.serve] at h
  split at h
  · rename_i hserved
    obtain rfl := Except.ok.inj h
    exact ⟨hcache, hserved.1⟩
  · obtain ⟨data, hdata, hpure⟩ := bind_ok h
    obtain rfl := Except.ok.inj hpure
    exact ⟨(isContent_readAt hdata).1, le_rfl⟩

/-- Where the loop over the clusters is. -/
structure FatSeen (reader : Reader) (base : ℕ) (g : FatGeometry) (n : ℕ)
    (scan : FatScan) : Prop where
  follows : Follows 2 (clusterRange base g) scan.toRunScan
    (RunPass.upTo (fun i => decide (FatFree reader.content g i)) n)
  cache : IsContent reader.content (g.fatStart + scan.cache.offset)
    scan.cache.data

theorem FatSeen.scanCluster (hbits : g.bits = 12 ∨ g.bits = 16 ∨ g.bits = 32)
    {n : ℕ} {scan scan' : FatScan} (h : FatSeen reader base g n scan)
    (hscan : FreeSpace.scanCluster reader base g scan (2 + n) = .ok scan') :
    FatSeen reader base g (n + 1) scan' := by
  rw [FreeSpace.scanCluster, check_eq_ok_iff] at hscan
  obtain ⟨-, hscan⟩ := hscan
  obtain ⟨cache, hserve, hscan⟩ := bind_ok hscan
  rw [check_eq_ok_iff, not_not] at hscan
  obtain ⟨hlength, hpure⟩ := hscan
  obtain rfl := Except.ok.inj hpure
  obtain ⟨hcache, hle⟩ := FatCache.serve_ok h.cache hserve
  refine ⟨?_, hcache⟩
  have hentry := hcache.slice ((2 + n) * g.bits / 8 - cache.offset)
    ((2 + n) * g.bits / 8 - cache.offset + entryWidth g.bits)
  rw [Nat.add_assoc, Nat.add_sub_cancel' hle, Nat.add_comm 2 n] at hentry
  rw [Nat.add_comm 2 n] at hlength
  have hfree := entryValue_free_iff hbits hentry hlength
  have hnext := h.follows.next n (decide (FatFree reader.content g n))
  rw [Nat.add_comm 2 n] at hnext ⊢
  rwa [decide_eq_decide.mpr hfree]

theorem fatCount_fits {total sector cluster dataSector : ℕ}
    (hcount : (min total (size / sector) - dataSector) / cluster ≠ 0) :
    0 < cluster * sector ∧
      dataSector * sector + (min total (size / sector) - dataSector) /
        cluster * (cluster * sector) ≤ size := by
  have hcluster : 0 < cluster := by
    refine Nat.pos_of_ne_zero ?_
    rintro rfl
    exact hcount (Nat.div_zero _)
  have hsector : 0 < sector := by
    refine Nat.pos_of_ne_zero ?_
    rintro rfl
    rw [Nat.div_zero, Nat.min_zero, Nat.zero_sub, Nat.zero_div] at hcount
    exact hcount rfl
  refine ⟨Nat.mul_pos hcluster hsector, ?_⟩
  have hclusters := Nat.div_mul_le_self
    (min total (size / sector) - dataSector) cluster
  have hpos : 0 < min total (size / sector) - dataSector := by
    refine Nat.pos_of_ne_zero fun hzero => hcount ?_
    rw [hzero, Nat.zero_div]
  have hsectors : dataSector + (min total (size / sector) - dataSector) /
      cluster * cluster ≤ size / sector := by
    omega
  have hbytes := (Nat.mul_le_mul_right sector hsectors).trans
    (Nat.div_mul_le_self size sector)
  rwa [Nat.add_mul, Nat.mul_assoc _ cluster sector] at hbytes

theorem fatBits_cases (count : ℕ) :
    fatBits count = 12 ∨ fatBits count = 16 ∨ fatBits count = 32 := by
  rw [fatBits]
  split_ifs
  · exact Or.inl rfl
  · exact Or.inr (Or.inl rfl)
  · exact Or.inr (Or.inr rfl)

theorem fatGeometry_spec {boot : List UInt8}
    (h : fatGeometry boot base size = .ok g) :
    (g.bits = 12 ∨ g.bits = 16 ∨ g.bits = 32) ∧ 0 < g.unit ∧
      g.dataSector * g.sector + g.count * g.unit ≤ size := by
  obtain ⟨cluster, -, h⟩ := bind_ok h
  obtain ⟨fats, -, h⟩ := bind_ok h
  obtain ⟨hvalid, h⟩ := check_ok h
  obtain ⟨-, hpure⟩ := check_ok h
  obtain rfl := Except.ok.inj hpure
  exact ⟨fatBits_cases _, fatCount_fits (not_or.mp hvalid).1⟩

/-- What `_fat` yields. -/
structure FatExact (reader : Reader) (boot : List UInt8) (base size : ℕ)
    (g : FatGeometry) (ranges : List (ℕ × ℕ)) : Prop where
  geometry : fatGeometry boot base size = .ok g
  exact : FreeUnits (base + g.dataSector * g.sector) g.unit g.count
    (FatFree reader.content g) ranges
  inside : g.dataSector * g.sector + g.count * g.unit ≤ size

theorem fat_exact {boot : List UInt8} {ranges : List (ℕ × ℕ)}
    (h : fat reader boot base size = .ok ranges) :
    ∃ g, FatExact reader boot base size g ranges := by
  obtain ⟨g, hgeometry, h⟩ := bind_ok h
  obtain ⟨scan, hscan, hfinish⟩ := bind_ok h
  obtain rfl := Except.ok.inj hfinish
  obtain ⟨hbits, hunit, hinside⟩ := fatGeometry_spec hgeometry
  refine ⟨g, hgeometry, ?_, hinside⟩
  have hseen : FatSeen reader base g g.count scan := by
    refine foldlM_range'_ok (fun n s s' _ hs hstep => hs.scanCluster hbits
      hstep) ⟨follows_initial, ?_⟩ hscan
    exact fun i hi => absurd hi (Nat.not_lt_zero i)
  have hruns : FreeUnits (base + g.dataSector * g.sector) g.unit g.count _ _ :=
    freeUnits_maximalRuns hunit fun i => decide (FatFree reader.content g i)
  rw [Nat.add_comm g.count 2, hseen.follows.finish g.count]
  have hranges : ∀ run : ℕ × ℕ,
      clusterRange base g (2 + run.1) (2 + run.2) =
        unitRange (base + g.dataSector * g.sector) g.unit run.1 run.2 := by
    intro run
    rw [clusterRange, unitRange, Nat.add_sub_cancel_left, Nat.add_sub_add_left]
  simp only [hranges]
  exact hruns.congr fun i _ => decide_eq_true_iff

end ApexForensic.FreeSpace
