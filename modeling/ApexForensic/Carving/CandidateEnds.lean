import ApexForensic.Carving.Hits

/-!
# Candidate ends on a part of the data

A candidate is read block by block, and its end is looked for in the part read
so far.  A recognizer is stable when the part decides as the whole does, as
soon as the end lies in it.  All but the one for ZIP archives are: that one
returns the first record that ends in the part, and a record whose comment
ends behind the part gives way to a later one.
-/

namespace ApexForensic.Carving

open ApexForensic.Partitions (slice unpackLE slice_take unpackLE_take crc32)

variable {i offset : ℕ} {marker : List UInt8}

/-- A part of the data has the end of the whole if it contains it, and no
other. -/
def Stable (recognize : List UInt8 → Option ℕ) : Prop :=
  ∀ (data : List UInt8) (k n : ℕ),
    recognize (data.take k) = some n ↔ recognize data = some n ∧ n ≤ k

/-! ## Markers -/

section Markers

variable {marker data : List UInt8} {start k : ℕ}

/-- The marker stands at an offset. -/
def MarkerAt (marker data : List UInt8) (i : ℕ) : Prop :=
  (data.drop i).take marker.length = marker

theorem MarkerAt.le_length (h : MarkerAt marker data i) (hmarker : marker ≠ [])
    : i + marker.length ≤ data.length := by
  have hpos : 0 < marker.length := List.length_pos_iff.mpr hmarker
  have hlength := congrArg List.length h
  rw [List.length_take, List.length_drop] at hlength
  omega

theorem markerAt_take (hmarker : marker ≠ []) :
    MarkerAt marker (data.take k) i ↔
      MarkerAt marker data i ∧ i + marker.length ≤ k := by
  constructor
  · intro h
    have hle := h.le_length hmarker
    rw [List.length_take] at hle
    refine ⟨?_, by omega⟩
    unfold MarkerAt at h ⊢
    rwa [List.drop_take, List.take_take, min_eq_left (by omega)] at h
  · rintro ⟨h, hle⟩
    unfold MarkerAt at h ⊢
    rwa [List.drop_take, List.take_take, min_eq_left (by omega)]

theorem findFrom_eq_some_iff (hmarker : marker ≠ []) :
    findFrom marker data start = some i ↔
      start ≤ i ∧ MarkerAt marker data i ∧
        ∀ j, start ≤ j → j < i → ¬ MarkerAt marker data j := by
  unfold findFrom
  rw [List.find?_range_eq_some]
  simp only [decide_eq_true_eq, Bool.not_eq_true', decide_eq_false_iff_not,
    not_and, List.mem_range]
  constructor
  · rintro ⟨⟨hstart, hat⟩, -, hnone⟩
    exact ⟨hstart, hat, fun j hj hlt => hnone j hlt hj⟩
  · rintro ⟨hstart, hat, hnone⟩
    have hle := hat.le_length hmarker
    have hpos : 0 < marker.length := List.length_pos_iff.mpr hmarker
    exact ⟨⟨hstart, hat⟩, by omega, fun j hlt hj => hnone j hj hlt⟩

theorem findFrom_eq_none_iff (hmarker : marker ≠ []) :
    findFrom marker data start = none ↔
      ∀ j, start ≤ j → ¬ MarkerAt marker data j := by
  unfold findFrom
  rw [List.find?_eq_none]
  simp only [List.mem_range, decide_eq_true_eq, not_and]
  constructor
  · intro h j hj hat
    have hle := hat.le_length hmarker
    have hpos : 0 < marker.length := List.length_pos_iff.mpr hmarker
    exact h j (by omega) hj hat
  · intro h j _ hj
    exact h j hj

theorem findFrom_take (hmarker : marker ≠ []) (i : ℕ) :
    findFrom marker (data.take k) start = some i ↔
      findFrom marker data start = some i ∧ i + marker.length ≤ k := by
  rw [findFrom_eq_some_iff hmarker, findFrom_eq_some_iff hmarker]
  simp only [markerAt_take hmarker]
  constructor
  · rintro ⟨hstart, ⟨hat, hle⟩, hnone⟩
    exact ⟨⟨hstart, hat, fun j hj hlt hat' =>
      hnone j hj hlt ⟨hat', by omega⟩⟩, hle⟩
  · rintro ⟨⟨hstart, hat, hnone⟩, hle⟩
    exact ⟨hstart, ⟨hat, hle⟩, fun j hj hlt hat' => hnone j hj hlt hat'.1⟩

end Markers

/-! ## PDF documents and images -/

theorem stable_pdfEnd : Stable pdfEnd := by
  intro data k n
  have hmarker : ([0x25, 0x25, 0x45, 0x4F, 0x46] : List UInt8) ≠ [] := nofun
  have hiff (text : List UInt8) : pdfEnd text = some n ↔
      ∃ offset, findFrom [0x25, 0x25, 0x45, 0x4F, 0x46] text 5 = some offset ∧
        (findFrom [0x6F, 0x62, 0x6A] (text.take offset) 0).isSome ∧
          offset + 5 = n := by
    unfold pdfEnd
    cases findFrom [0x25, 0x25, 0x45, 0x4F, 0x46] text 5 with
    | none => simp
    | some offset => simp
  simp only [hiff, findFrom_take hmarker]
  constructor
  · rintro ⟨offset, ⟨hfind, hle⟩, hobj, rfl⟩
    rw [List.take_take, min_eq_left (by simp at hle; omega)] at hobj
    exact ⟨⟨offset, hfind, hobj, rfl⟩, hle⟩
  · rintro ⟨⟨offset, hfind, hobj, rfl⟩, hle⟩
    refine ⟨offset, ⟨hfind, hle⟩, ?_, rfl⟩
    rwa [List.take_take, min_eq_left (by omega)]

theorem imageEnd_eq (platform : Platform) (hmarker : marker ≠ [])
    (data : List UInt8) (start : ℕ) :
    imageEnd platform marker data start =
      match findFrom marker data start with
      | none => none
      | some offset =>
          if platform.verify (data.take (offset + marker.length)) then
            some (offset + marker.length)
          else imageEnd platform marker data (offset + marker.length) := by
  rw [imageEnd]
  split
  · next hfind => simp only [hfind]
  · next offset hfind => simp only [hfind, if_neg hmarker]

theorem le_of_imageEnd (platform : Platform) (hmarker : marker ≠ [])
    {data : List UInt8} {start n : ℕ}
    (h : imageEnd platform marker data start = some n) : start ≤ n := by
  have hpos : 0 < marker.length := List.length_pos_iff.mpr hmarker
  induction hleft : data.length - start using Nat.strong_induction_on
    generalizing start with
  | _ left ih =>
    subst hleft
    rw [imageEnd_eq platform hmarker] at h
    rcases hfind : findFrom marker data start with _ | offset
    · rw [hfind] at h
      cases h
    · have hbounds := findFrom_bounds hfind
      rw [hfind] at h
      dsimp only at h
      split_ifs at h with hverify
      · have := Option.some.inj h
        omega
      · have := ih _ (by omega) h rfl
        omega

theorem stable_imageEnd (platform : Platform) (hmarker : marker ≠ [])
    (start : ℕ) : Stable fun data => imageEnd platform marker data start := by
  intro data k n
  have hpos : 0 < marker.length := List.length_pos_iff.mpr hmarker
  dsimp only
  induction hleft : data.length - start using Nat.strong_induction_on
    generalizing start with
  | _ left ih =>
    subst hleft
    rw [imageEnd_eq platform hmarker (data.take k), imageEnd_eq platform
      hmarker data]
    rcases hfind : findFrom marker data start with _ | offset
    · have hnone : findFrom marker (data.take k) start = none := by
        rw [Option.eq_none_iff_forall_ne_some]
        intro i hi
        rw [findFrom_take hmarker, hfind] at hi
        cases hi.1
      simp [hnone]
    · have hbounds := findFrom_bounds hfind
      by_cases hle : offset + marker.length ≤ k
      · rw [(findFrom_take hmarker offset).mpr ⟨hfind, hle⟩]
        dsimp only
        rw [List.take_take, min_eq_left hle]
        by_cases hverify : platform.verify
            (data.take (offset + marker.length)) = true
        · rw [if_pos hverify, if_pos hverify, Option.some.injEq]
          constructor
          · rintro rfl
            exact ⟨rfl, hle⟩
          · exact And.left
        · rw [if_neg hverify, if_neg hverify]
          exact ih _ (by omega) _ rfl
      · -- the whole ends behind its first marker, which ends behind the part
        have hnone : findFrom marker (data.take k) start = none := by
          rw [Option.eq_none_iff_forall_ne_some]
          intro i hi
          rw [findFrom_take hmarker, hfind] at hi
          exact hle (Option.some.inj hi.1 ▸ hi.2)
        rw [hnone]
        dsimp only
        split_ifs
        · simp only [Option.some.injEq, false_iff, not_and]
          rintro rfl
          exact hle
        · simp only [false_iff, not_and]
          intro hend hn
          have := le_of_imageEnd platform hmarker hend
          omega

/-! ## ZIP archives -/

section Zip

variable {data : List UInt8} {k : ℕ}

/-- An end-of-central-directory record that describes the data before it. -/
structure ZipRecord (data : List UInt8) (offset : ℕ) : Prop where
  le_length : offset + 22 ≤ data.length
  marker : MarkerAt endOfCentralDirectory data offset
  disks : unpackLE 2 data (offset + 4) = 0 ∧ unpackLE 2 data (offset + 6) = 0
  total : unpackLE 2 data (offset + 8) = unpackLE 2 data (offset + 10)
  total_pos : 0 < unpackLE 2 data (offset + 10)
  central : unpackLE 4 data (offset + 16) + unpackLE 4 data (offset + 12) =
    offset
  directory : slice data (unpackLE 4 data (offset + 16))
    (unpackLE 4 data (offset + 16) + 4) = centralDirectory

/-- Where the comment of a record ends. -/
def zipStop (data : List UInt8) (offset : ℕ) : ℕ :=
  offset + 22 + unpackLE 2 data (offset + 20)

theorem le_zipStop (data : List UInt8) (offset : ℕ) :
    offset + 22 ≤ zipStop data offset :=
  Nat.le_add_right _ _

theorem zipStop_take (h : offset + 22 ≤ k) :
    zipStop (data.take k) offset = zipStop data offset := by
  unfold zipStop
  rw [unpackLE_take (by omega)]

theorem zipRecord_take :
    ZipRecord (data.take k) offset ↔
      ZipRecord data offset ∧ offset + 22 ≤ k := by
  have hmarker : endOfCentralDirectory ≠ [] := nofun
  constructor
  · intro h
    have hle : offset + 22 ≤ k := by
      have := h.le_length
      rw [List.length_take] at this
      omega
    obtain ⟨hlength, hat, ⟨hdisk, hcentralDisk⟩, htotal, hpos, hcentral,
      hdirectory⟩ := h
    rw [List.length_take] at hlength
    rw [unpackLE_take (by omega)] at hdisk hcentralDisk
    rw [unpackLE_take (by omega), unpackLE_take (by omega)] at htotal
    rw [unpackLE_take (by omega)] at hpos
    rw [unpackLE_take (by omega), unpackLE_take (by omega)] at hcentral
    rw [unpackLE_take (by omega), slice_take (by omega)] at hdirectory
    exact ⟨⟨by omega, ((markerAt_take hmarker).mp hat).1,
      ⟨hdisk, hcentralDisk⟩, htotal, hpos, hcentral, hdirectory⟩, hle⟩
  · rintro ⟨⟨hlength, hat, ⟨hdisk, hcentralDisk⟩, htotal, hpos, hcentral,
      hdirectory⟩, hle⟩
    have hmarkerLength : endOfCentralDirectory.length = 4 := rfl
    refine ⟨?_, (markerAt_take hmarker).mpr ⟨hat, by omega⟩, ⟨?_, ?_⟩, ?_,
      ?_, ?_, ?_⟩
    · rw [List.length_take]
      omega
    · rwa [unpackLE_take (by omega)]
    · rwa [unpackLE_take (by omega)]
    · rwa [unpackLE_take (by omega), unpackLE_take (by omega)]
    · rwa [unpackLE_take (by omega)]
    · rwa [unpackLE_take (by omega), unpackLE_take (by omega)]
    · rwa [unpackLE_take (by omega), slice_take (by omega)]

theorem markerAt_apart {j : ℕ} (hi : MarkerAt endOfCentralDirectory data i)
    (hj : MarkerAt endOfCentralDirectory data j) (hlt : i < j) : i + 4 ≤ j := by
  by_contra hnot
  have hd : ∀ d < 4, 0 < d →
      (endOfCentralDirectory.drop d).take 1 ≠
        endOfCentralDirectory.take 1 := by decide
  apply hd (j - i) (by omega) (by omega)
  unfold MarkerAt at hi hj
  have hlength : endOfCentralDirectory.length = 4 := rfl
  rw [hlength] at hi hj
  calc
    (endOfCentralDirectory.drop (j - i)).take 1 =
        (((data.drop i).take 4).drop (j - i)).take 1 := by rw [hi]
    _ = (data.drop j).take 1 := by
      rw [List.drop_take, List.drop_drop, List.take_take,
        min_eq_left (by omega), Nat.add_sub_cancel' hlt.le]
    _ = ((data.drop j).take 4).take 1 := by
      rw [List.take_take, min_eq_left (by omega)]
    _ = endOfCentralDirectory.take 1 := by rw [hj]

theorem zipRecord_iff (hlength : offset + 22 ≤ data.length)
    (hmarker : MarkerAt endOfCentralDirectory data offset) :
    ZipRecord data offset ∧ zipStop data offset ≤ data.length ↔
      unpackLE 2 data (offset + 4) = 0 ∧ unpackLE 2 data (offset + 6) = 0 ∧
        unpackLE 2 data (offset + 8) = unpackLE 2 data (offset + 10) ∧
        0 < unpackLE 2 data (offset + 10) ∧
        unpackLE 4 data (offset + 16) + unpackLE 4 data (offset + 12) =
          offset ∧
        zipStop data offset ≤ data.length ∧
        slice data (unpackLE 4 data (offset + 16))
          (unpackLE 4 data (offset + 16) + 4) = centralDirectory := by
  constructor
  · rintro ⟨h, hstop⟩
    exact ⟨h.disks.1, h.disks.2, h.total, h.total_pos, h.central, hstop,
      h.directory⟩
  · rintro ⟨hdisk, hcentralDisk, htotal, hpos, hcentral, hstop, hdirectory⟩
    exact ⟨⟨hlength, hmarker, ⟨hdisk, hcentralDisk⟩, htotal, hpos, hcentral,
      hdirectory⟩, hstop⟩

theorem zipEnd_eq (data : List UInt8) (start : ℕ) :
    zipEnd data start =
      match findFrom endOfCentralDirectory data start with
      | none => none
      | some offset =>
          if data.length < offset + 22 then none
          else if unpackLE 2 data (offset + 4) = 0 ∧
              unpackLE 2 data (offset + 6) = 0 ∧
              unpackLE 2 data (offset + 8) = unpackLE 2 data (offset + 10) ∧
              0 < unpackLE 2 data (offset + 10) ∧
              unpackLE 4 data (offset + 16) + unpackLE 4 data (offset + 12) =
                offset ∧
              zipStop data offset ≤ data.length ∧
              slice data (unpackLE 4 data (offset + 16))
                (unpackLE 4 data (offset + 16) + 4) = centralDirectory then
            some (zipStop data offset)
          else zipEnd data (offset + 4) := by
  rw [zipEnd]
  split
  · next hfind => simp only [hfind]
  · next offset hfind =>
      simp only [hfind, zipStop]
      rfl

theorem zipEnd_eq_some_iff (start n : ℕ) :
    zipEnd data start = some n ↔
      ∃ offset, start ≤ offset ∧ ZipRecord data offset ∧
        zipStop data offset = n ∧ n ≤ data.length ∧
        ∀ earlier, start ≤ earlier → earlier < offset →
          ZipRecord data earlier → data.length < zipStop data earlier := by
  have hmarker : endOfCentralDirectory ≠ [] := nofun
  induction hleft : data.length - start using Nat.strong_induction_on
    generalizing start with
  | _ left ih =>
    subst hleft
    rw [zipEnd_eq]
    rcases hfind : findFrom endOfCentralDirectory data start with _ | first
    · rw [findFrom_eq_none_iff hmarker] at hfind
      simp only [reduceCtorEq, false_iff]
      rintro ⟨offset, hstart, hrecord, -⟩
      exact hfind offset hstart hrecord.marker
    · have hbounds := findFrom_bounds hfind
      rw [findFrom_eq_some_iff hmarker] at hfind
      obtain ⟨hstart, hat, hnone⟩ := hfind
      have hfirst {offset : ℕ} (hoffset : start ≤ offset)
          (hrecord : ZipRecord data offset) : first ≤ offset := by
        by_contra hnot
        exact hnone offset hoffset (not_le.mp hnot) hrecord.marker
      dsimp only
      by_cases hcut : data.length < first + 22
      · rw [if_pos hcut]
        simp only [reduceCtorEq, false_iff]
        rintro ⟨offset, hoffset, hrecord, -⟩
        have := hfirst hoffset hrecord
        have := hrecord.le_length
        omega
      · rw [if_neg hcut]
        by_cases hvalid : ZipRecord data first ∧
            zipStop data first ≤ data.length
        · rw [if_pos ((zipRecord_iff (by omega) hat).mp hvalid),
            Option.some.injEq]
          constructor
          · rintro rfl
            refine ⟨first, hstart, hvalid.1, rfl, hvalid.2, ?_⟩
            intro earlier hearlier hlt hrecord
            have := hfirst hearlier hrecord
            omega
          · rintro ⟨offset, hoffset, hrecord, rfl, hstop, hearlier⟩
            rcases (hfirst hoffset hrecord).lt_or_eq with hlt | rfl
            · have := hearlier first hstart hlt hvalid.1
              have := hvalid.2
              omega
            · rfl
        · rw [if_neg fun h => hvalid ((zipRecord_iff (by omega) hat).mpr h)]
          refine (ih _ (by omega) (first + 4) rfl).trans ?_
          constructor
          · rintro ⟨offset, hoffset, hrecord, hn, hstop, hearlier⟩
            refine ⟨offset, by omega, hrecord, hn, hstop, ?_⟩
            intro earlier hearlier' hlt hrecord'
            rcases (hfirst hearlier' hrecord').lt_or_eq with hbehind | rfl
            · exact hearlier earlier
                (markerAt_apart hat hrecord'.marker hbehind) hlt hrecord'
            · by_contra hnot
              exact hvalid ⟨hrecord', not_lt.mp hnot⟩
          · rintro ⟨offset, hoffset, hrecord, hn, hstop, hearlier⟩
            have hne : first ≠ offset := by
              rintro rfl
              exact hvalid ⟨hrecord, hn ▸ hstop⟩
            have hbehind := lt_of_le_of_ne (hfirst hoffset hrecord) hne
            exact ⟨offset, markerAt_apart hat hrecord.marker hbehind, hrecord,
              hn, hstop, fun earlier h hlt => hearlier earlier (by omega) hlt⟩

end Zip

end ApexForensic.Carving
