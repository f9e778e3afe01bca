import ApexForensic.Partitions.Coverage

/-!
# Uniqueness of the listed ranges

The store keeps at most one volume for each scheme and byte range.  Gaps start
at different sectors, so two of them never agree.  A gap agrees with a volume
only when it is listed from the end of the image on, behind a stray volume.
-/

namespace ApexForensic.Partitions

open ApexForensic.Support ApexForensic.Domain

variable {g : Extent} {es : List Extent} {cursor endLimit : ℕ}

section Fill

variable {ss size : ℕ} {scheme : VolumeScheme}

theorem filter_fillGaps (hnot : ∀ e ∈ es, e.isGap = false) :
    (fillGaps ss size scheme endLimit cursor es).filter (fun e => !e.isGap) =
      es := by
  induction es generalizing cursor with
  | nil =>
      rw [fillGaps]
      split_ifs <;> rfl
  | cons e rest ih =>
      rw [List.forall_mem_cons] at hnot
      rw [fillGaps_cons, List.filter_append, List.filter_cons, hnot.1,
        ih hnot.2]
      split_ifs <;> simp_all [gapExtent]

/-- A gap is listed from a cursor to the next volume or to the end of the
area. -/
theorem exists_cursor_of_gap
    (hplaced : ∀ e ∈ es, Placed ss size e ∧ e.isGap = false)
    (hcursor : CursorAt ss size cursor)
    (hg : g ∈ fillGaps ss size scheme endLimit cursor es)
    (hgap : g.isGap = true) :
    ∃ c limit, cursor ≤ c ∧ CursorAt ss size c ∧ c < limit ∧
      g = gapExtent ss size scheme c (limit - c) ∧
      (limit = endLimit ∨ ∃ v ∈ es, limit = v.offset) := by
  induction es generalizing cursor with
  | nil =>
      rw [fillGaps] at hg
      split_ifs at hg with hlt
      · exact ⟨cursor, endLimit, le_rfl, hcursor, hlt,
          List.mem_singleton.mp hg, Or.inl rfl⟩
      · exact (List.not_mem_nil hg).elim
  | cons e rest ih =>
      rw [List.forall_mem_cons] at hplaced
      obtain ⟨⟨he, hnot⟩, hrest⟩ := hplaced
      rw [fillGaps_cons, List.mem_append, List.mem_cons] at hg
      rcases hg with hg | rfl | hg
      · split_ifs at hg with hlt
        · exact ⟨cursor, e.offset, le_rfl, hcursor, hlt,
            List.mem_singleton.mp hg, Or.inr ⟨e, List.mem_cons_self, rfl⟩⟩
        · exact (List.not_mem_nil hg).elim
      · rw [hnot] at hgap
        exact Bool.noConfusion hgap
      · obtain ⟨c, limit, hle, hat, hlt, rfl, hlimit⟩ :=
          ih hrest (hcursor.advance he) hg
        refine ⟨c, limit, (le_max_left _ _).trans hle, hat, hlt, rfl, ?_⟩
        rcases hlimit with h | ⟨v, hv, h⟩
        · exact Or.inl h
        · exact Or.inr ⟨v, List.mem_cons_of_mem e hv, h⟩

theorem offset_le_of_gap (hss : 0 < ss)
    (hplaced : ∀ e ∈ es, Placed ss size e ∧ e.isGap = false)
    (hcursor : CursorAt ss size cursor)
    (hg : g ∈ fillGaps ss size scheme endLimit cursor es)
    (hgap : g.isGap = true) {b : ℕ} (hb : ss ∣ b) (hle : b ≤ cursor) :
    b ≤ g.offset := by
  obtain ⟨c, limit, hc, -, -, rfl, -⟩ :=
    exists_cursor_of_gap hplaced hcursor hg hgap
  exact le_sectorStart hss hb (hle.trans hc)

theorem gap_offsets_increase (hss : 0 < ss)
    (hplaced : ∀ e ∈ es, Placed ss size e ∧ e.isGap = false)
    (hcursor : CursorAt ss size cursor) :
    (fillGaps ss size scheme endLimit cursor es).Pairwise fun g g' =>
      g.isGap = true → g'.isGap = true → g.offset < g'.offset := by
  induction es generalizing cursor with
  | nil =>
      rw [fillGaps]
      split_ifs
      · exact List.pairwise_singleton _ _
      · exact List.Pairwise.nil
  | cons e rest ih =>
      rw [List.forall_mem_cons] at hplaced
      obtain ⟨⟨he, hnot⟩, hrest⟩ := hplaced
      have hcons : (e :: fillGaps ss size scheme endLimit
          (max cursor (e.offset + e.length)) rest).Pairwise fun g g' =>
            g.isGap = true → g'.isGap = true → g.offset < g'.offset := by
        refine List.pairwise_cons.mpr ⟨?_, ih hrest (hcursor.advance he)⟩
        intro g' _ hgap
        rw [hnot] at hgap
        exact Bool.noConfusion hgap
      rw [fillGaps_cons]
      split_ifs with hlt
      · rw [List.singleton_append]
        refine List.pairwise_cons.mpr ⟨?_, hcons⟩
        intro g' hg' _ hgap'
        rcases List.mem_cons.mp hg' with rfl | hg'
        · rw [hnot] at hgap'
          exact Bool.noConfusion hgap'
        · have hafter : e.offset ≤ g'.offset :=
            offset_le_of_gap hss hrest (hcursor.advance he) hg' hgap'
              he.aligned (by omega)
          have hstart : sectorStart ss cursor ≤ cursor := sectorStart_le cursor
          simp only [gapExtent]
          omega
      · exact hcons

/-! ## Gaps that agree with a volume -/

/-- A volume that reaches the end of the image, or starts behind it, and a
later volume behind the image. -/
def Stray (ss size : ℕ) (scheme : VolumeScheme) (es : List Extent) : Prop :=
  ∃ u ∈ es, ∃ v ∈ es, u.scheme = scheme ∧ sectorStart ss size ≤ u.offset ∧
    u.offset < v.offset ∧ size < v.offset ∧ (size ≤ u.offset ∨ 0 < u.length)

theorem gapExtent_length_of_lt (hss : 0 < ss) {c limit : ℕ} (hdvd : ss ∣ c)
    (hc : c < size) (hlt : c < limit) :
    0 < (gapExtent ss size scheme c (limit - c)).length := by
  have hpos : 0 < ceilTrueDiv (limit - c) ss * ss :=
    Nat.mul_pos (ceilTrueDiv_pos (by omega) hss) hss
  simp only [gapExtent, clippedLength, sectorStart_of_dvd hdvd]
  split_ifs <;> omega

/-- A gap listed from the end of the image on covers what is left of the last
sector. -/
theorem gapExtent_length_of_le (hss : 0 < ss) {c limit : ℕ} (hc : size ≤ c)
    (hlt : c < limit) :
    (gapExtent ss size scheme c (limit - c)).length =
      size - sectorStart ss c := by
  have hlast : c < sectorStart ss c + ss := lt_sectorStart_add hss c
  have hsector : ss ≤ ceilTrueDiv (limit - c) ss * ss :=
    Nat.le_mul_of_pos_left ss (ceilTrueDiv_pos (by omega) hss)
  simp only [gapExtent, clippedLength]
  split_ifs <;> omega

/-- A volume with bytes in the last sector, or behind the image, ends with
the image. -/
theorem Placed.length_of_last {u : Extent} (hu : Placed ss size u)
    (hss : 0 < ss) (hstart : sectorStart ss size ≤ u.offset)
    (hreach : size ≤ u.offset ∨ 0 < u.length) :
    u.length = size - u.offset := by
  obtain ⟨count, hlength⟩ := hu.clipped
  have hlast : size < sectorStart ss size + ss := lt_sectorStart_add hss size
  have hcount : count = 0 ∨ ss ≤ count * ss := by
    rcases Nat.eq_zero_or_pos count with h | h
    · exact Or.inl h
    · exact Or.inr (Nat.le_mul_of_pos_left ss h)
  rw [hlength, clippedLength] at hreach ⊢
  rcases hcount with rfl | hcount
  · split_ifs at hreach ⊢ <;> omega
  · split_ifs at hreach ⊢ <;> omega

theorem stray_of_gap_key_eq (hss : 0 < ss) (hlimit : endLimit ≤ size)
    {e : Extent} {rest : List Extent}
    (hplaced : ∀ x ∈ e :: rest, Placed ss size x ∧ x.isGap = false)
    (hcursor : CursorAt ss size cursor) (hend : e.offset + e.length ≤ cursor)
    (hg : g ∈ fillGaps ss size scheme endLimit cursor rest)
    (hgap : g.isGap = true) (hkey : g.key = e.key) :
    Stray ss size scheme (e :: rest) := by
  rw [List.forall_mem_cons] at hplaced
  obtain ⟨⟨he, -⟩, hrest⟩ := hplaced
  obtain ⟨c, limit, hc, hat, hlt, rfl, hto⟩ :=
    exists_cursor_of_gap hrest hcursor hg hgap
  obtain ⟨hscheme, hoffset, hlength⟩ : scheme = e.scheme ∧
      sectorStart ss c = e.offset ∧
      (gapExtent ss size scheme c (limit - c)).length = e.length := by
    simpa [Extent.key, gapExtent] using hkey
  have hbehind : size ≤ c := by
    by_contra hbefore
    have hdvd : ss ∣ c := hat.dvd_of_lt (by omega)
    have hpos : 0 < (gapExtent ss size scheme c (limit - c)).length :=
      gapExtent_length_of_lt hss hdvd (by omega) hlt
    rw [sectorStart_of_dvd hdvd] at hoffset
    omega
  have hleft : (gapExtent ss size scheme c (limit - c)).length =
      size - sectorStart ss c :=
    gapExtent_length_of_le hss hbehind hlt
  rcases hto with rfl | ⟨v, hv, rfl⟩
  · omega
  · have hstart : sectorStart ss size ≤ sectorStart ss c :=
      Nat.mul_le_mul_right ss (Nat.div_le_div_right hbehind)
    have hle : sectorStart ss c ≤ c := sectorStart_le c
    refine ⟨e, List.mem_cons_self, v, List.mem_cons_of_mem e hv,
      hscheme.symm, ?_, ?_, ?_, ?_⟩ <;> omega

theorem stray_of_key_eq (hss : 0 < ss) (hlimit : endLimit ≤ size)
    (hplaced : ∀ e ∈ es, Placed ss size e ∧ e.isGap = false)
    (hsorted : es.Pairwise fun a b => a.offset ≤ b.offset)
    (hcursor : CursorAt ss size cursor) {u : Extent}
    (hg : g ∈ fillGaps ss size scheme endLimit cursor es)
    (hgap : g.isGap = true) (hu : u ∈ es) (hkey : g.key = u.key) :
    Stray ss size scheme es := by
  induction es generalizing cursor with
  | nil => exact (List.not_mem_nil hu).elim
  | cons e rest ih =>
      have hall := hplaced
      rw [List.forall_mem_cons] at hplaced
      obtain ⟨⟨he, hnot⟩, hrest⟩ := hplaced
      obtain ⟨hfirst, hsortedRest⟩ := List.pairwise_cons.mp hsorted
      rw [fillGaps_cons, List.mem_append, List.mem_cons] at hg
      rcases hg with hg | rfl | hg
      · -- the gap before `e` starts before every volume from `e` on
        split_ifs at hg with hlt
        · obtain rfl := List.mem_singleton.mp hg
          have hoffset : sectorStart ss cursor = u.offset :=
            (Prod.ext_iff.mp (Prod.ext_iff.mp hkey).2).1
          have hle : sectorStart ss cursor ≤ cursor := sectorStart_le cursor
          have hlater : e.offset ≤ u.offset := by
            rcases List.mem_cons.mp hu with rfl | hu
            · exact le_rfl
            · exact hfirst u hu
          omega
        · exact (List.not_mem_nil hg).elim
      · rw [hnot] at hgap
        exact Bool.noConfusion hgap
      · rcases List.mem_cons.mp hu with rfl | hu
        · exact stray_of_gap_key_eq hss hlimit hall (hcursor.advance he)
            (le_max_right _ _) hg hgap hkey
        · obtain ⟨x, hx, v, hv, hstray⟩ :=
            ih hrest hsortedRest (hcursor.advance he) hg hu
          exact ⟨x, List.mem_cons_of_mem e hx, v, List.mem_cons_of_mem e hv,
            hstray⟩

/-- From the end of the image on, a volume behind the cursor is preceded by a
gap that starts at the cursor. -/
theorem gap_from_cursor (hcursor : size ≤ cursor)
    (hplaced : ∀ e ∈ es, Placed ss size e ∧ e.isGap = false) {v : Extent}
    (hv : v ∈ es) (hbehind : cursor < v.offset) :
    ∃ limit, cursor < limit ∧
      gapExtent ss size scheme cursor (limit - cursor) ∈
        fillGaps ss size scheme endLimit cursor es := by
  induction es with
  | nil => exact (List.not_mem_nil hv).elim
  | cons e rest ih =>
      rw [List.forall_mem_cons] at hplaced
      obtain ⟨⟨he, -⟩, hrest⟩ := hplaced
      rw [fillGaps_cons]
      by_cases hlt : cursor < e.offset
      · exact ⟨e.offset, hlt, by simp [hlt]⟩
      · have hstay : max cursor (e.offset + e.length) = cursor := by
          have := he.end_le
          omega
        have hvrest : v ∈ rest := by
          rcases List.mem_cons.mp hv with rfl | hv
          · exact (hlt hbehind).elim
          · exact hv
        obtain ⟨limit, hto, hmem⟩ := ih hrest hvrest
        refine ⟨limit, hto, ?_⟩
        rw [hstay]
        exact List.mem_append_right _ (List.mem_cons_of_mem e hmem)

theorem exists_key_eq_of_stray (hss : 0 < ss)
    (hplaced : ∀ e ∈ es, Placed ss size e ∧ e.isGap = false)
    (hsorted : es.Pairwise fun a b => a.offset ≤ b.offset)
    (hcursor : ∀ e ∈ es, cursor ≤ max size e.offset)
    (hstray : Stray ss size scheme es) :
    ∃ g ∈ fillGaps ss size scheme endLimit cursor es, ∃ u ∈ es,
      g.isGap = true ∧ g.key = u.key := by
  obtain ⟨u, hu, v, hv, hscheme, hstart, huv, hsize, hreach⟩ := hstray
  induction es generalizing cursor with
  | nil => exact (List.not_mem_nil hu).elim
  | cons e rest ih =>
      rw [List.forall_mem_cons] at hplaced
      obtain ⟨⟨he, -⟩, hrest⟩ := hplaced
      obtain ⟨hfirst, hsortedRest⟩ := List.pairwise_cons.mp hsorted
      have hnext := hcursor e List.mem_cons_self
      have heend := he.end_le
      rcases List.mem_cons.mp hu with rfl | hu
      · -- after `u` the cursor is at the image end, or at `u` behind it
        have hlength : u.length = size - u.offset :=
          he.length_of_last hss hstart hreach
        have hvrest : v ∈ rest := by
          rcases List.mem_cons.mp hv with rfl | hv
          · omega
          · exact hv
        have hmax : max cursor (u.offset + u.length) = max size u.offset := by
          omega
        obtain ⟨limit, hto, hmem⟩ : ∃ limit, max size u.offset < limit ∧
            gapExtent ss size scheme (max size u.offset)
                (limit - max size u.offset) ∈
              fillGaps ss size scheme endLimit (max size u.offset) rest :=
          gap_from_cursor (le_max_left size u.offset) hrest hvrest (by omega)
        refine ⟨gapExtent ss size scheme (max size u.offset)
          (limit - max size u.offset), ?_, u, List.mem_cons_self, rfl, ?_⟩
        · rw [fillGaps_cons, hmax]
          exact List.mem_append_right _ (List.mem_cons_of_mem u hmem)
        · have hoffset : sectorStart ss (max size u.offset) = u.offset := by
            rcases le_total size u.offset with h | h
            · rw [max_eq_right h, sectorStart_of_dvd he.aligned]
            · rw [max_eq_left h]
              exact le_antisymm hstart (le_sectorStart hss he.aligned h)
          have hgap : (gapExtent ss size scheme (max size u.offset)
              (limit - max size u.offset)).length =
                size - sectorStart ss (max size u.offset) :=
            gapExtent_length_of_le hss (le_max_left size u.offset) hto
          rw [hoffset, ← hlength] at hgap
          simp only [Extent.key, hgap, hscheme]
          simp only [gapExtent, hoffset]
      · have hvrest : v ∈ rest := by
          rcases List.mem_cons.mp hv with heq | hv
          · have := hfirst u hu
            rw [heq] at huv
            omega
          · exact hv
        have hnextRest : ∀ x ∈ rest,
            max cursor (e.offset + e.length) ≤ max size x.offset := by
          intro x hx
          have := hfirst x hx
          omega
        obtain ⟨g, hg, x, hx, hgap, hkey⟩ :=
          ih hrest hsortedRest hnextRest hu hvrest
        refine ⟨g, ?_, x, List.mem_cons_of_mem e hx, hgap, hkey⟩
        rw [fillGaps_cons]
        exact List.mem_append_right _ (List.mem_cons_of_mem e hg)

/-- The keys of a listing with gaps are distinct exactly when those of its
volumes are and no volume is stray. -/
theorem nodup_fillGaps_iff (hss : 0 < ss) (hlimit : endLimit ≤ size)
    (hplaced : ∀ e ∈ es, Placed ss size e ∧ e.isGap = false)
    (hsorted : es.Pairwise fun a b => a.offset ≤ b.offset)
    (hcursor : CursorAt ss size cursor) (hstart : cursor ≤ size) :
    ((fillGaps ss size scheme endLimit cursor es).map Extent.key).Nodup ↔
      (es.map Extent.key).Nodup ∧ ¬ Stray ss size scheme es := by
  have hfilter : (fillGaps ss size scheme endLimit cursor es).filter
      (fun e => !e.isGap) = es :=
    filter_fillGaps fun e he => (hplaced e he).2
  constructor
  · intro hnodup
    refine ⟨?_, ?_⟩
    · have hsub : es.Sublist (fillGaps ss size scheme endLimit cursor es) := by
        conv_lhs => rw [← hfilter]
        exact List.filter_sublist
      exact hnodup.sublist (hsub.map _)
    · intro hstray
      obtain ⟨g, hg, u, hu, hgap, hkey⟩ := exists_key_eq_of_stray hss hplaced
        hsorted (fun e _ => hstart.trans (le_max_left _ _)) hstray
      have hmem : u ∈ fillGaps ss size scheme endLimit cursor es := by
        rw [← hfilter] at hu
        exact (List.mem_filter.mp hu).1
      have heq : g = u := List.inj_on_of_nodup_map hnodup hg hmem hkey
      rw [heq, (hplaced u hu).2] at hgap
      exact Bool.noConfusion hgap
  · rintro ⟨hes, hstray⟩
    have hgaps : (fillGaps ss size scheme endLimit cursor es).Pairwise
        fun g g' => g.isGap = true → g'.isGap = true → g.offset < g'.offset :=
      gap_offsets_increase hss hplaced hcursor
    have hvolumes : (fillGaps ss size scheme endLimit cursor es).Pairwise
        fun a b => a.isGap = false → b.isGap = false → a.key ≠ b.key := by
      rw [List.Nodup, List.pairwise_map, ← hfilter, List.pairwise_filter] at hes
      simpa using hes
    have hcross {g u : Extent}
        (hg : g ∈ fillGaps ss size scheme endLimit cursor es)
        (hu : u ∈ fillGaps ss size scheme endLimit cursor es)
        (hgap : g.isGap = true) (hvolume : u.isGap = false) : g.key ≠ u.key := by
      intro hkey
      have hes : u ∈ es := by
        rcases mem_of_mem_fillGaps hu with h | h
        · exact h
        · rw [hvolume] at h
          exact Bool.noConfusion h
      exact hstray
        (stray_of_key_eq hss hlimit hplaced hsorted hcursor hg hgap hes hkey)
    rw [List.Nodup, List.pairwise_map]
    refine (hgaps.and hvolumes).imp_of_mem ?_
    rintro a b ha hb ⟨hgap, hvolume⟩
    cases ha' : a.isGap with
    | true =>
        cases hb' : b.isGap with
        | true =>
            intro hkey
            have hoffset : a.offset = b.offset :=
              (Prod.ext_iff.mp (Prod.ext_iff.mp hkey).2).1
            exact (hgap ha' hb').ne hoffset
        | false => exact hcross ha hb ha' hb'
    | false =>
        cases hb' : b.isGap with
        | true => exact (hcross hb ha hb' ha').symm
        | false => exact hvolume ha' hb'

end Fill

end ApexForensic.Partitions
