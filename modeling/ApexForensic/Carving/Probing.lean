import ApexForensic.Carving.PngFormat
import ApexForensic.Carving.Scan
import ApexForensic.Partitions.Coverage

/-!
# Probing a candidate

A candidate grows block by block until its end is recognized.  For a stable
recognizer that is the end in the whole of the remaining data.  For a ZIP
archive it is, unless a later record ends in an earlier block than the first
one: then the probe stops at the later record.
-/

namespace ApexForensic.Carving

open ApexForensic.Domain
open ApexForensic.Partitions (patched patchedReader slice unpackLE)

/-- How much of a candidate is read when its end is looked for. -/
def IsBlockEnd (available k : ℕ) : Prop :=
  0 < k ∧ k ≤ available ∧ (chunk ∣ k ∨ k = available)

def remainingData (job : Job) (absolute rangeEnd : ℕ) : List UInt8 :=
  bytesAt job.reader.content absolute (rangeEnd - absolute)

theorem stable_candidateLength (platform : Platform) {kind : Kind}
    (h : kind ≠ .zip) : Stable (candidateLength platform kind) := by
  cases kind with
  | png => exact stable_pngEnd
  | jpeg => exact stable_imageEnd platform (List.cons_ne_nil _ _) 3
  | pdf => exact stable_pdfEnd
  | zip => exact absurd rfl h
  | gif => exact stable_imageEnd platform (List.cons_ne_nil _ _) 4

/-- What a probe returns is decided at the first block end at which the
recognizer says yes. -/
theorem probe_spec (platform : Platform) (job : Job) (kind : Kind)
    (absolute available : ℕ) {j : ℕ}
    (hsize : 0 < available → absolute + available ≤ job.reader.size)
    (hj : j ≤ available) (hblock : chunk ∣ j ∨ j = available)
    (hbefore : ∀ k ≤ j, IsBlockEnd available k → candidateLength platform kind
      (bytesAt job.reader.content absolute k) = none) :
    ∃ data found, probe platform job kind absolute available
        (bytesAt job.reader.content absolute j) = .ok (data, found) ∧
      (∀ n, found = some n ↔ ∃ k, IsBlockEnd available k ∧
        candidateLength platform kind
          (bytesAt job.reader.content absolute k) = some n ∧
        ∀ k' < k, IsBlockEnd available k' → candidateLength platform kind
          (bytesAt job.reader.content absolute k') = none) := by
  induction hleft : available - j using Nat.strong_induction_on
    generalizing j with
  | _ left ih =>
    subst hleft
    rw [probe, length_bytesAt]
    by_cases hlt : j < available
    · have hchunk : chunk ∣ j := hblock.resolve_right hlt.ne
      have hpos : 0 < chunk := by unfold chunk; omega
      obtain ⟨m, hm⟩ : ∃ m, m = min chunk (available - j) := ⟨_, rfl⟩
      have hsize' := hsize (by omega)
      have hread : job.reader.readAt (absolute + j) m =
          .ok (bytesAt job.reader.content (absolute + j) m) := by
        rw [readAt_eq_ok (by omega) (by omega), min_eq_left (by omega)]
      have hnext : IsBlockEnd available (j + m) := by
        refine ⟨by omega, by omega, ?_⟩
        rcases min_choice chunk (available - j) with h | h
        · rw [hm, h]
          exact Or.inl (Nat.dvd_add hchunk (Nat.dvd_refl chunk))
        · exact Or.inr (by omega)
      -- no block ends between the bytes read and the next block end
      have hbetween {k : ℕ} (hk : IsBlockEnd available k) (hlt' : k < j + m) :
          k ≤ j := by
        obtain ⟨-, hle, hdvd | rfl⟩ := hk
        · by_contra hnot
          have := Nat.le_of_dvd (by omega) (Nat.dvd_sub hdvd hchunk)
          omega
        · omega
      have hne : bytesAt job.reader.content (absolute + j) m ≠ [] := by
        rw [← List.length_pos_iff, length_bytesAt]
        omega
      rw [if_pos hlt, ← hm, hread]
      simp only [bind, Except.bind, if_neg hne, bytesAt_append]
      rcases hfound : candidateLength platform kind
          (bytesAt job.reader.content absolute (j + m)) with _ | size
      · refine ih _ (by omega) hnext.2.1 hnext.2.2 (fun k hk hend => ?_) rfl
        rcases hk.lt_or_eq with hk | rfl
        · exact hbefore k (hbetween hend hk) hend
        · exact hfound
      · refine ⟨_, _, rfl, fun n => ⟨?_, ?_⟩⟩
        · intro h
          exact ⟨j + m, hnext, hfound.trans h, fun k hk hend =>
            hbefore k (hbetween hend hk) hend⟩
        · rintro ⟨k, hend, hk, hnone⟩
          rcases lt_trichotomy k (j + m) with hlt' | rfl | hgt
          · rw [hbefore k (hbetween hend hlt') hend] at hk
            cases hk
          · exact hfound.symm.trans hk
          · rw [hnone (j + m) hgt hnext] at hfound
            cases hfound
    · rw [if_neg hlt]
      refine ⟨_, _, rfl, fun n => ⟨nofun, ?_⟩⟩
      rintro ⟨k, hend, hk, -⟩
      rw [hbefore k (hend.2.1.trans (not_lt.mp hlt)) hend] at hk
      cases hk

section Probe

variable (platform : Platform) (job : Job) (absolute bound : ℕ)

/-- How much of a candidate is read at most. -/
def availableBytes (rangeEnd : ℕ) : ℕ :=
  min job.maxFileBytes (rangeEnd - absolute)

/-- The probe decides as the recognizer does on the whole of the remaining
data, if the end fits the limit. -/
def ProbeAgrees (kind : Kind) (rangeEnd : ℕ) : Prop :=
  ∃ data found, probe platform job kind absolute
      (availableBytes job absolute rangeEnd) [] = .ok (data, found) ∧
    found = (candidateLength platform kind
      (remainingData job absolute rangeEnd)).filter
        (· ≤ availableBytes job absolute rangeEnd)

/-- No record ends in an earlier block than the first record that ends in the
data. -/
def FirstRecordEndsFirst (data : List UInt8) (available : ℕ) : Prop :=
  ∀ first, ZipRecord data first → zipStop data first ≤ data.length →
    (∀ earlier < first, ZipRecord data earlier →
      data.length < zipStop data earlier) →
    ∀ other, ZipRecord data other → ∀ k, IsBlockEnd available k →
      zipStop data other ≤ k → zipStop data first ≤ k

variable {platform job absolute} {rangeEnd : ℕ} {kind : Kind}

theorem take_remainingData {k : ℕ} (h : k ≤ rangeEnd - absolute) :
    (remainingData job absolute rangeEnd).take k =
      bytesAt job.reader.content absolute k := by
  rw [remainingData, take_bytesAt, min_eq_left h]

theorem available_le :
    availableBytes job absolute rangeEnd ≤ rangeEnd - absolute :=
  min_le_right _ _

/-- The probe returns what is recognized at the first block end at which the
recognizer says yes. -/
theorem probe_remainingData (platform : Platform) (absolute : ℕ) (kind : Kind)
    (hend : rangeEnd ≤ job.reader.size) :
    ∃ data found, probe platform job kind absolute
        (availableBytes job absolute rangeEnd) [] = .ok (data, found) ∧
      ∀ n, found = some n ↔ ∃ k,
        IsBlockEnd (availableBytes job absolute rangeEnd) k ∧
        candidateLength platform kind
          ((remainingData job absolute rangeEnd).take k) = some n ∧
        ∀ k' < k, IsBlockEnd (availableBytes job absolute rangeEnd) k' →
          candidateLength platform kind
            ((remainingData job absolute rangeEnd).take k') = none := by
  have hbytes {k : ℕ}
      (hk : IsBlockEnd (availableBytes job absolute rangeEnd) k) :
      (remainingData job absolute rangeEnd).take k =
        bytesAt job.reader.content absolute k :=
    take_remainingData (hk.2.1.trans available_le)
  obtain ⟨data, found, hprobe, hfound⟩ := probe_spec platform job kind
    absolute (availableBytes job absolute rangeEnd)
    (fun hpos => by unfold availableBytes at hpos ⊢; omega) (Nat.zero_le _)
    (Or.inl (Nat.dvd_zero chunk)) (fun k hk hblock => by
      have := hblock.1
      omega)
  refine ⟨data, found, hprobe, fun n => (hfound n).trans ?_⟩
  refine exists_congr fun k => and_congr_right fun hk => ?_
  rw [hbytes hk]
  refine and_congr_right fun _ => forall₂_congr fun k' _ => ?_
  exact forall_congr' fun hk' => by rw [hbytes hk']

theorem exists_first_blockEnd {available : ℕ} {f : ℕ → Option ℕ}
    (h : ∃ k, IsBlockEnd available k ∧ f k ≠ none) :
    ∃ k n, IsBlockEnd available k ∧ f k = some n ∧
      ∀ k' < k, IsBlockEnd available k' → f k' = none := by
  classical
  obtain ⟨hblock, hne⟩ := Nat.find_spec h
  obtain ⟨n, hn⟩ := Option.ne_none_iff_exists'.mp hne
  refine ⟨Nat.find h, n, hblock, hn, fun k' hlt hblock' => ?_⟩
  by_contra hnot
  exact Nat.find_min h hlt ⟨hblock', hnot⟩

theorem isBlockEnd_available {available : ℕ} (h : 0 < available) :
    IsBlockEnd available available :=
  ⟨h, le_rfl, Or.inr rfl⟩

theorem candidateLength_nil (platform : Platform) (kind : Kind) :
    candidateLength platform kind [] = none := by
  have hfind (marker : List UInt8) (start : ℕ) :
      findFrom marker [] start = none := rfl
  cases kind with
  | png =>
      simp only [candidateLength]
      rw [pngEnd, if_neg (by simp)]
  | zip =>
      simp only [candidateLength]
      rw [zipEnd_eq, hfind]
  | pdf => rfl
  | jpeg =>
      simp only [candidateLength]
      rw [imageEnd_eq platform (List.cons_ne_nil _ _), hfind]
  | gif =>
      simp only [candidateLength]
      rw [imageEnd_eq platform (List.cons_ne_nil _ _), hfind]

theorem stable_probeAgrees (hstable : Stable (candidateLength platform kind))
    (hend : rangeEnd ≤ job.reader.size) :
    ProbeAgrees platform job absolute kind rangeEnd := by
  obtain ⟨data, found, hprobe, hfound⟩ :=
    probe_remainingData platform absolute kind hend
  refine ⟨data, found, hprobe, Option.ext fun n => (hfound n).trans ?_⟩
  rw [Option.filter_eq_some_iff, decide_eq_true_eq]
  constructor
  · rintro ⟨k, hblock, hk, -⟩
    obtain ⟨hwhole, hle⟩ := (hstable _ k n).mp hk
    exact ⟨hwhole, hle.trans hblock.2.1⟩
  · rintro ⟨hwhole, hle⟩
    have hall := (hstable _ _ n).mpr ⟨hwhole, hle⟩
    have hpos : 0 < availableBytes job absolute rangeEnd := by
      rw [Nat.pos_iff_ne_zero]
      intro hzero
      rw [hzero, List.take_zero, candidateLength_nil] at hall
      cases hall
    obtain ⟨k, m, hblock, hk, hnone⟩ := exists_first_blockEnd
      (f := fun k => candidateLength platform kind
        ((remainingData job absolute rangeEnd).take k))
      ⟨_, isBlockEnd_available hpos, by rw [hall]; nofun⟩
    obtain rfl : n = m :=
      Option.some.inj (hwhole.symm.trans ((hstable _ k m).mp hk).1)
    exact ⟨k, hblock, hk, hnone⟩

variable (platform) in
theorem zip_take_eq_some_iff {data : List UInt8} {k n : ℕ}
    (hk : k ≤ data.length) :
    candidateLength platform .zip (data.take k) = some n ↔
      ∃ offset, ZipRecord data offset ∧ zipStop data offset = n ∧ n ≤ k ∧
        ∀ earlier < offset, ZipRecord data earlier →
          k < zipStop data earlier := by
  change zipEnd _ 0 = _ ↔ _
  rw [zipEnd_eq_some_iff, List.length_take, min_eq_left hk]
  constructor
  · rintro ⟨offset, -, hrecord, rfl, hle, hearlier⟩
    obtain ⟨hrecord, hcut⟩ := zipRecord_take.mp hrecord
    rw [zipStop_take hcut] at hle ⊢
    refine ⟨offset, hrecord, rfl, hle, fun earlier hlt hrecord' => ?_⟩
    have := hearlier earlier (Nat.zero_le _) hlt
      (zipRecord_take.mpr ⟨hrecord', by omega⟩)
    rwa [zipStop_take (by omega)] at this
  · rintro ⟨offset, hrecord, rfl, hle, hearlier⟩
    have hcut := (le_zipStop data offset).trans hle
    refine ⟨offset, Nat.zero_le _, zipRecord_take.mpr ⟨hrecord, hcut⟩,
      zipStop_take hcut, hle, fun earlier _ hlt hrecord' => ?_⟩
    obtain ⟨hrecord', hcut'⟩ := zipRecord_take.mp hrecord'
    rw [zipStop_take hcut']
    exact hearlier earlier hlt hrecord'

variable (platform) in
theorem exists_of_zipRecord {data : List UInt8} {k other : ℕ}
    (hk : k ≤ data.length) (hother : ZipRecord data other)
    (hle : zipStop data other ≤ k) :
    ∃ n, candidateLength platform .zip (data.take k) = some n := by
  classical
  have hexists : ∃ offset, ZipRecord data offset ∧ zipStop data offset ≤ k :=
    ⟨other, hother, hle⟩
  obtain ⟨hrecord, hstop⟩ := Nat.find_spec hexists
  refine ⟨_, (zip_take_eq_some_iff platform hk).mpr ⟨Nat.find hexists,
    hrecord, rfl, hstop, fun earlier hlt hrecord' => ?_⟩⟩
  by_contra hnot
  exact Nat.find_min hexists hlt ⟨hrecord', not_lt.mp hnot⟩

theorem zip_probeAgrees_iff (hend : rangeEnd ≤ job.reader.size) :
    ProbeAgrees platform job absolute .zip rangeEnd ↔
      FirstRecordEndsFirst (remainingData job absolute rangeEnd)
        (availableBytes job absolute rangeEnd) := by
  obtain ⟨data, found, hprobe, hfound⟩ :=
    probe_remainingData platform absolute .zip hend
  unfold ProbeAgrees FirstRecordEndsFirst
  simp only [hprobe, Except.ok.injEq, Prod.mk.injEq]
  generalize hW : remainingData job absolute rangeEnd = W at hfound ⊢
  generalize hA : availableBytes job absolute rangeEnd = A at hfound ⊢
  have hAW : A ≤ W.length := by
    rw [← hA, ← hW, remainingData, length_bytesAt]
    exact available_le
  have hpart {k n : ℕ} (hk : k ≤ W.length) :=
    zip_take_eq_some_iff platform (n := n) hk
  have hwhole {n : ℕ} := hpart (n := n) le_rfl
  rw [List.take_length] at hwhole
  constructor
  · rintro ⟨_, _, ⟨rfl, rfl⟩, hagrees⟩ first hfirst hstop hbefore other hother
      k hk hle
    by_contra hnot
    obtain ⟨m, hm⟩ := exists_of_zipRecord platform (hk.2.1.trans hAW) hother hle
    obtain ⟨k', n, hk', hn, hnone⟩ := exists_first_blockEnd
      (f := fun k => candidateLength platform .zip (W.take k))
      ⟨k, hk, by rw [hm]; nofun⟩
    have hle' : k' ≤ k := by
      by_contra hgt
      rw [hnone k (not_le.mp hgt) hk] at hm
      cases hm
    have hreturned := (hfound n).mpr ⟨k', hk', hn, hnone⟩
    rw [hagrees, Option.filter_eq_some_iff] at hreturned
    have hend' := hwhole.mpr ⟨first, hfirst, rfl, hstop, hbefore⟩
    have heq : n = zipStop W first :=
      Option.some.inj (hreturned.1.symm.trans hend')
    obtain ⟨offset, -, -, hnk, -⟩ := (hpart (hk'.2.1.trans hAW)).mp hn
    omega
  · intro hends
    -- what a block end decides is what the whole decides
    have hdecides {k n : ℕ} (hk : IsBlockEnd A k)
        (hn : candidateLength platform .zip (W.take k) = some n) :
        candidateLength platform .zip W = some n := by
      obtain ⟨offset, hrecord, rfl, hle, hearlier⟩ :=
        (hpart (hk.2.1.trans hAW)).mp hn
      obtain ⟨m, hm⟩ := exists_of_zipRecord platform le_rfl hrecord
        (hle.trans (hk.2.1.trans hAW))
      rw [List.take_length] at hm
      obtain ⟨first, hfirst, hstop, hmW, hbefore⟩ := hwhole.mp hm
      have hfirstEnd := hends first hfirst (hstop ▸ hmW) hbefore offset hrecord
        k hk hle
      have hsame : first = offset := by
        rcases lt_trichotomy first offset with hlt | heq | hgt
        · have := hearlier first hlt hfirst
          omega
        · exact heq
        · have := hbefore offset hgt hrecord
          have := hk.2.1
          omega
      rw [hm, ← hstop, hsame]
    refine ⟨data, found, ⟨rfl, rfl⟩, Option.ext fun n => ?_⟩
    rw [Option.filter_eq_some_iff, decide_eq_true_eq, hfound]
    constructor
    · rintro ⟨k, hk, hn, -⟩
      obtain ⟨-, -, -, hle, -⟩ := (hpart (hk.2.1.trans hAW)).mp hn
      exact ⟨hdecides hk hn, hle.trans hk.2.1⟩
    · rintro ⟨hn, hle⟩
      obtain ⟨first, hfirst, rfl, -⟩ := hwhole.mp hn
      have hpos : 0 < A := by
        have := le_zipStop W first
        omega
      obtain ⟨m, hm⟩ := exists_of_zipRecord platform hAW hfirst hle
      obtain ⟨k, n, hk, hkn, hnone⟩ := exists_first_blockEnd
        (f := fun k => candidateLength platform .zip (W.take k))
        ⟨A, isBlockEnd_available hpos, by rw [hm]; nofun⟩
      obtain rfl : zipStop W first = n :=
        Option.some.inj (hn.symm.trans (hdecides hk hkn))
      exact ⟨k, hk, hkn, hnone⟩

end Probe

/-- The length that the probe decides is the one recognized in the whole of
the remaining data, if it fits the limit: always for PNG, PDF and images, and
for a ZIP archive exactly when no record ends in an earlier block than the
first record that ends in the data.  A PNG image is a signature and chunks
with their checksums, the first a header of thirteen bytes and the last an
empty end chunk. -/
theorem probe_agrees_with_whole_iff (platform : Platform) (job : Job)
    (kind : Kind) (absolute bound : ℕ) :
    (ProbeAgrees platform job absolute kind (min bound job.reader.size) ↔
      (kind = .zip → FirstRecordEndsFirst
        (remainingData job absolute (min bound job.reader.size))
        (availableBytes job absolute (min bound job.reader.size)))) ∧
      ∀ rest n, candidateLength platform .png (Kind.png.signature ++ rest) =
          some n ↔
        ∃ chunks tail, rest = chunks.flatMap PngChunk.bytes ++ tail ∧
          n = Kind.png.signature.length +
            (chunks.flatMap PngChunk.bytes).length ∧
          PngBody chunks ∧ StartsWithHeader chunks := by
  constructor
  · by_cases hkind : kind = .zip
    · subst hkind
      rw [zip_probeAgrees_iff (min_le_right _ _)]
      simp only [true_imp_iff]
    · have hagrees : ProbeAgrees platform job absolute kind
          (min bound job.reader.size) :=
        stable_probeAgrees (stable_candidateLength platform hkind)
          (min_le_right _ _)
      simp only [hagrees, hkind, false_imp_iff]
  · intro rest n
    have hdrop : (Kind.png.signature ++ rest).drop 8 = rest :=
      List.drop_left' rfl
    change pngEnd _ 8 = some n ↔ _
    rw [pngEnd_eq_some_iff le_rfl, hdrop]
    simp only [true_imp_iff]
    rfl

/-! ## A record in the comment of a record -/

/-- An archive of two blocks.  The comment of its end record begins in the
first block and ends in the second, and holds another record. -/
def nestedArchive : Job where
  reader := patchedReader
    [(0, 0x50), (1, 0x4B), (2, 0x03), (3, 0x04),
     (4, 0x50), (5, 0x4B), (6, 0x01), (7, 0x02),
     (1048516, 0x50), (1048517, 0x4B), (1048518, 0x05), (1048519, 0x06),
     (1048524, 1), (1048526, 1), (1048528, 0xC0), (1048529, 0xFF),
     (1048530, 0x0F), (1048532, 4), (1048536, 100),
     (1048546, 0x50), (1048547, 0x4B), (1048548, 0x05), (1048549, 0x06),
     (1048554, 1), (1048556, 1), (1048558, 0xDE), (1048559, 0xFF),
     (1048560, 0x0F), (1048562, 4)] 1048638 (by norm_num)
  ranges := [(0, 1048638)]
  formats := [.zip]
  maxFileBytes := 2 * chunk

def samplePlatform : Platform where
  verify _ := false
  sha256 _ := ""
  pillow := true

theorem slice_bytesAt (content : ℕ → UInt8) {n a b : ℕ} (h : b ≤ n) :
    slice (bytesAt content 0 n) a b = bytesAt content a (b - a) := by
  rw [PngChunk.slice_eq, drop_bytesAt, take_bytesAt, Nat.zero_add,
    min_eq_left (by omega)]

theorem unpackLE_bytesAt (content : ℕ → UInt8) {n start length width k : ℕ}
    (hn : start + length ≤ n) (h : k + width ≤ length) :
    unpackLE width (bytesAt content 0 n) (start + k) =
      unpackLE width (bytesAt content start length) k := by
  unfold unpackLE
  rw [slice_bytesAt content (by omega), PngChunk.slice_eq, drop_bytesAt,
    take_bytesAt, min_eq_left (by omega), Nat.add_sub_cancel_left,
    Nat.add_sub_cancel_left]

theorem zipRecord_bytesAt (content : ℕ → UInt8) {n offset : ℕ}
    (central : ℕ) (hlength : offset + 22 ≤ n)
    (hmarker : bytesAt content offset 4 = endOfCentralDirectory)
    (hfields : let record := bytesAt content offset 22
      unpackLE 2 record 4 = 0 ∧ unpackLE 2 record 6 = 0 ∧
        unpackLE 2 record 8 = unpackLE 2 record 10 ∧
        0 < unpackLE 2 record 10 ∧ unpackLE 4 record 16 = central ∧
        central + unpackLE 4 record 12 = offset)
    (hdirectory : bytesAt content central 4 = centralDirectory)
    (hcentral : central + 4 ≤ n) :
    ZipRecord (bytesAt content 0 n) offset := by
  obtain ⟨hdisk, hcentralDisk, htotal, hpos, hstart, hsize⟩ := hfields
  have hread {width k : ℕ} (h : k + width ≤ 22) :=
    unpackLE_bytesAt content hlength h
  refine ⟨?_, ?_, ⟨?_, ?_⟩, ?_, ?_, ?_, ?_⟩
  · rwa [length_bytesAt]
  · have hfour : endOfCentralDirectory.length = 4 := rfl
    rw [MarkerAt, hfour, drop_bytesAt, take_bytesAt, Nat.zero_add,
      min_eq_left (by omega), hmarker]
  · rw [hread (by norm_num), hdisk]
  · rw [hread (by norm_num), hcentralDisk]
  · rw [hread (by norm_num), hread (by norm_num), htotal]
  · rw [hread (by norm_num)]
    exact hpos
  · rw [hread (by norm_num), hread (by norm_num), hstart, hsize]
  · rw [hread (by norm_num), hstart, slice_bytesAt content hcentral,
      Nat.add_sub_cancel_left, hdirectory]

theorem mem_of_patched {patches : List (ℕ × UInt8)} {i : ℕ} {value : UInt8}
    (h : patched patches i = value) (hvalue : value ≠ 0) :
    (i, value) ∈ patches := by
  unfold patched at h
  rcases hlookup : patches.lookup i with _ | found
  · rw [hlookup] at h
    exact absurd h.symm hvalue
  · rw [hlookup] at h
    obtain rfl : found = value := h
    obtain ⟨before, after, rfl, -⟩ := List.lookup_eq_some_iff.mp hlookup
    simp

theorem zipStop_bytesAt (content : ℕ → UInt8) {n offset : ℕ}
    (h : offset + 22 ≤ n) :
    zipStop (bytesAt content 0 n) offset =
      offset + 22 + unpackLE 2 (bytesAt content offset 22) 20 := by
  rw [zipStop, unpackLE_bytesAt content h (by norm_num)]

theorem nestedArchive_no_earlier {earlier : ℕ} (hlt : earlier < 1048516) :
    ¬ ZipRecord (remainingData nestedArchive 0 1048638) earlier := by
  intro hrecord
  have hmarker := hrecord.marker
  have hfour : endOfCentralDirectory.length = 4 := rfl
  rw [MarkerAt, hfour, remainingData, drop_bytesAt, take_bytesAt,
    min_eq_left (by omega), Nat.zero_add] at hmarker
  have hbyte : nestedArchive.reader.content (earlier + 2) = 0x05 := by
    have := congrArg (fun bytes => bytes.getD 2 0) hmarker
    simpa [bytesAt, endOfCentralDirectory, List.range'_succ, List.getD]
      using this
  have hmem := mem_of_patched hbyte (by decide)
  simp at hmem
  omega

/-- The probe stops at the record in the comment, eight bytes before the end
of the first block, and the archive ends 62 bytes behind it. -/
theorem nestedArchive_not_agrees :
    ¬ ProbeAgrees samplePlatform nestedArchive 0 .zip 1048638 := by
  have hend : 1048638 ≤ nestedArchive.reader.size := le_rfl
  rw [zip_probeAgrees_iff hend]
  intro hends
  have hfirst : ZipRecord (remainingData nestedArchive 0 1048638) 1048516 :=
    zipRecord_bytesAt _ 4 (by norm_num) (by decide +kernel) (by decide +kernel)
      (by decide +kernel) (by norm_num)
  have hother : ZipRecord (remainingData nestedArchive 0 1048638) 1048546 :=
    zipRecord_bytesAt _ 4 (by norm_num) (by decide +kernel) (by decide +kernel)
      (by decide +kernel) (by norm_num)
  have hfirstStop :
      zipStop (remainingData nestedArchive 0 1048638) 1048516 = 1048638 :=
    (zipStop_bytesAt _ (by norm_num)).trans (by decide +kernel)
  have hotherStop :
      zipStop (remainingData nestedArchive 0 1048638) 1048546 = 1048568 :=
    (zipStop_bytesAt _ (by norm_num)).trans (by decide +kernel)
  have hblock :
      IsBlockEnd (availableBytes nestedArchive 0 1048638) chunk := by
    refine ⟨by decide, ?_, Or.inl (Nat.dvd_refl chunk)⟩
    simp [availableBytes, nestedArchive, chunk]
  have hcontradiction := hends 1048516 hfirst
    (by rw [hfirstStop, remainingData, length_bytesAt])
    (fun _ hlt hrecord => (nestedArchive_no_earlier hlt hrecord).elim)
    1048546 hother chunk hblock (by rw [hotherStop]; decide)
  rw [hfirstStop] at hcontradiction
  revert hcontradiction
  decide

end ApexForensic.Carving
