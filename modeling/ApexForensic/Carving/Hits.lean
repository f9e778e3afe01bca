import ApexForensic.Carving.Model

/-!
# Signatures in an image

No signature contains another one, so the signatures of an image are ordered
alike by where they start and by where they end.  The hits of a window are
then the marks of the scanned part that end in it, and scanning window by
window lists the marks of a range in order.
-/

namespace ApexForensic.Carving

open ApexForensic.Domain
open ApexForensic.Partitions (Reader maxEvidenceReadSize)

variable {a b : Hit} {length low : ℕ}

/-! ## Bytes of an image -/

def bytesAt (content : ℕ → UInt8) (offset length : ℕ) : List UInt8 :=
  (List.range' offset length).map content

theorem length_bytesAt (content : ℕ → UInt8) (offset length : ℕ) :
    (bytesAt content offset length).length = length := by
  simp [bytesAt]

theorem bytesAt_append (content : ℕ → UInt8) (offset m n : ℕ) :
    bytesAt content offset m ++ bytesAt content (offset + m) n =
      bytesAt content offset (m + n) := by
  rw [bytesAt, bytesAt, ← List.map_append, List.range'_append_1, bytesAt]

theorem drop_bytesAt (content : ℕ → UInt8) (offset n k : ℕ) :
    (bytesAt content offset n).drop k =
      bytesAt content (offset + k) (n - k) := by
  rcases le_or_gt k n with h | h
  · obtain ⟨m, rfl⟩ := Nat.exists_eq_add_of_le h
    rw [← bytesAt_append, List.drop_left' (length_bytesAt content offset k),
      Nat.add_sub_cancel_left]
  · rw [List.drop_eq_nil_of_le (by rw [length_bytesAt]; omega),
      Nat.sub_eq_zero_of_le h.le]
    rfl

theorem take_bytesAt (content : ℕ → UInt8) (offset n k : ℕ) :
    (bytesAt content offset n).take k = bytesAt content offset (min k n) := by
  rcases le_or_gt k n with h | h
  · obtain ⟨m, rfl⟩ := Nat.exists_eq_add_of_le h
    rw [← bytesAt_append, List.take_left' (length_bytesAt content offset k),
      min_eq_left (Nat.le_add_right k m)]
  · rw [List.take_of_length_le (by rw [length_bytesAt]; omega),
      min_eq_right h.le]

theorem readAt_eq_ok {reader : Reader} {offset : ℕ}
    (hoffset : offset < reader.size) (hlength : length ≤ chunk) :
    reader.readAt offset length =
      .ok (bytesAt reader.content offset
        (min length (reader.size - offset))) := by
  have hbound : ¬ maxEvidenceReadSize < length := by
    unfold maxEvidenceReadSize
    unfold chunk at hlength
    omega
  unfold Reader.readAt
  rw [if_neg hbound]
  split_ifs with hempty
  · have hzero : length = 0 := by omega
    subst hzero
    simp [bytesAt]
  · rw [bytesAt, List.range'_eq_map_range, List.map_map]
    rfl

/-! ## Marks -/

section Marks

variable (job : Job)

def Hit.endOffset (hit : Hit) : ℕ :=
  hit.offset + hit.kind.signature.length

/-- A signature of one of the formats stands at the offset. -/
def IsMark (hit : Hit) : Prop :=
  hit.kind ∈ job.formats ∧
    bytesAt job.reader.content hit.offset hit.kind.signature.length =
      hit.kind.signature

/-- The marks that lie between two offsets, in order. -/
def marks (low high : ℕ) : List Hit :=
  windowHits job.formats (bytesAt job.reader.content low (high - low)) low low

theorem signature_length_pos (kind : Kind) : 0 < kind.signature.length := by
  cases kind <;> decide

theorem signature_length_le (kind : Kind) : kind.signature.length ≤ 8 := by
  cases kind <;> decide

theorem signature_not_nested (a b : Kind) :
    ∀ d < 8, 0 < d → d + b.signature.length ≤ a.signature.length →
      (a.signature.drop d).take b.signature.length ≠ b.signature := by
  cases a <;> cases b <;> decide

theorem signature_take_one_inj {a b : Kind}
    (h : a.signature.take 1 = b.signature.take 1) : a = b := by
  revert h
  cases a <;> cases b <;> decide

variable {job}

theorem IsMark.kind_eq (ha : IsMark job a) (hb : IsMark job b)
    (h : a.offset = b.offset) : a = b := by
  have hfirst {hit : Hit} (hhit : IsMark job hit) :
      hit.kind.signature.take 1 =
        bytesAt job.reader.content hit.offset 1 := by
    rw [← hhit.2, take_bytesAt, min_eq_left (signature_length_pos hit.kind)]
  have hkind : a.kind = b.kind := by
    apply signature_take_one_inj
    rw [hfirst ha, hfirst hb, h]
  cases a
  cases b
  simp_all

theorem IsMark.end_lt (ha : IsMark job a) (hb : IsMark job b)
    (h : a.offset < b.offset) : a.endOffset < b.endOffset := by
  by_contra hnot
  obtain ⟨d, hd⟩ := Nat.exists_eq_add_of_lt h
  have hinside : d + 1 + b.kind.signature.length ≤
      a.kind.signature.length := by
    unfold Hit.endOffset at hnot
    omega
  have hlength := signature_length_le a.kind
  have hpos := signature_length_pos b.kind
  apply signature_not_nested a.kind b.kind (d + 1) (by omega) (by omega)
    hinside
  calc
    (a.kind.signature.drop (d + 1)).take b.kind.signature.length =
        ((bytesAt job.reader.content a.offset
          a.kind.signature.length).drop (d + 1)).take
            b.kind.signature.length := by rw [ha.2]
    _ = bytesAt job.reader.content b.offset b.kind.signature.length := by
      rw [drop_bytesAt, take_bytesAt, min_eq_left (by omega),
        show a.offset + (d + 1) = b.offset by omega]
    _ = b.kind.signature := hb.2

theorem IsMark.offset_lt (ha : IsMark job a) (hb : IsMark job b)
    (h : a.endOffset < b.endOffset) : a.offset < b.offset := by
  rcases lt_trichotomy a.offset b.offset with hlt | heq | hgt
  · exact hlt
  · rw [ha.kind_eq hb heq] at h
    exact (lt_irrefl _ h).elim
  · have := hb.end_lt ha hgt
    omega

theorem mem_occurrences {marker window : List UInt8} (hmarker : marker ≠ [])
    {i : ℕ} :
    i ∈ occurrences marker window ↔
      i + marker.length ≤ window.length ∧
        (window.drop i).take marker.length = marker := by
  have hpos : 0 < marker.length := List.length_pos_iff.mpr hmarker
  simp only [occurrences, List.mem_filter, List.mem_range, decide_eq_true_eq]
  constructor
  · rintro ⟨hi, htake⟩
    refine ⟨?_, htake⟩
    have hlength := congrArg List.length htake
    rw [List.length_take, List.length_drop] at hlength
    omega
  · rintro ⟨hi, htake⟩
    exact ⟨by omega, htake⟩

theorem mem_windowHits {origin cursor : ℕ} {hit : Hit} :
    hit ∈ windowHits job.formats
        (bytesAt job.reader.content origin length) origin cursor ↔
      IsMark job hit ∧ origin ≤ hit.offset ∧ hit.endOffset ≤ origin + length ∧
        cursor < hit.endOffset := by
  have hoccurrence (kind : Kind) (position : ℕ) :
      position ∈ occurrences kind.signature
          (bytesAt job.reader.content origin length) ↔
        position + kind.signature.length ≤ length ∧
          bytesAt job.reader.content (origin + position)
            kind.signature.length = kind.signature := by
    rw [mem_occurrences (List.length_pos_iff.mp (signature_length_pos kind)),
      length_bytesAt, drop_bytesAt, take_bytesAt]
    refine and_congr_right fun h => ?_
    rw [min_eq_left (by omega)]
  unfold windowHits
  rw [(List.perm_insertionSort _ _).mem_iff, List.mem_dedup, List.mem_flatMap]
  simp only [List.mem_filter, List.mem_map, decide_eq_true_eq, hoccurrence]
  constructor
  · rintro ⟨kind, hkind, ⟨position, ⟨hlength, hbytes⟩, rfl⟩, hcursor⟩
    exact ⟨⟨hkind, hbytes⟩, Nat.le_add_right _ _,
      by simp only [Hit.endOffset]; omega, hcursor⟩
  · rintro ⟨⟨hkind, hbytes⟩, hlow, hhigh, hcursor⟩
    obtain ⟨position, hposition⟩ := Nat.exists_eq_add_of_le hlow
    rw [hposition] at hbytes
    unfold Hit.endOffset at hhigh hcursor
    exact ⟨hit.kind, hkind,
      ⟨position, ⟨by omega, hbytes⟩, by cases hit; simp_all⟩, hcursor⟩

theorem hitLE_trans {c : Hit} (hab : hitLE a b) (hbc : hitLE b c) :
    hitLE a c := by
  rcases hab with hab | ⟨hab, hab'⟩
  · rcases hbc with hbc | ⟨hbc, -⟩
    · exact Or.inl (hab.trans hbc)
    · exact Or.inl (hbc ▸ hab)
  · rcases hbc with hbc | ⟨hbc, hbc'⟩
    · exact Or.inl (hab ▸ hbc)
    · exact Or.inr ⟨hab.trans hbc, le_trans hab' hbc'⟩

theorem hitLE_total (a b : Hit) : hitLE a b ∨ hitLE b a := by
  rcases lt_trichotomy a.offset b.offset with h | h | h
  · exact Or.inl (Or.inl h)
  · rcases le_total a.kind.name b.kind.name with hname | hname
    · exact Or.inl (Or.inr ⟨h, hname⟩)
    · exact Or.inr (Or.inr ⟨h.symm, hname⟩)
  · exact Or.inr (Or.inl h)

theorem windowHits_pairwise (origin cursor length : ℕ) :
    (windowHits job.formats (bytesAt job.reader.content origin length)
      origin cursor).Pairwise fun a b => a.offset < b.offset := by
  have : Std.Total hitLE := ⟨hitLE_total⟩
  have : IsTrans Hit hitLE := ⟨fun _ _ _ => hitLE_trans⟩
  have hmark {hit : Hit} (hhit : hit ∈ windowHits job.formats
      (bytesAt job.reader.content origin length) origin cursor) :
      IsMark job hit := (mem_windowHits.mp hhit).1
  have hsorted : (windowHits job.formats
      (bytesAt job.reader.content origin length) origin cursor).Pairwise
        hitLE := List.pairwise_insertionSort _ _
  have hnodup : (windowHits job.formats
      (bytesAt job.reader.content origin length) origin cursor).Nodup :=
    (List.perm_insertionSort _ _).nodup_iff.mpr (List.nodup_dedup _)
  refine (hsorted.and hnodup).imp_of_mem ?_
  rintro a b ha hb ⟨hle, hne⟩
  rcases hle with hlt | ⟨heq, -⟩
  · exact hlt
  · exact (hne ((hmark ha).kind_eq (hmark hb) heq)).elim

theorem mem_marks {high : ℕ} {hit : Hit} :
    hit ∈ marks job low high ↔
      IsMark job hit ∧ low ≤ hit.offset ∧ hit.endOffset ≤ high := by
  have hpos := signature_length_pos hit.kind
  rw [marks, mem_windowHits]
  unfold Hit.endOffset
  constructor
  · rintro ⟨hmark, hlow, hhigh, hcursor⟩
    exact ⟨hmark, hlow, by omega⟩
  · rintro ⟨hmark, hlow, hhigh⟩
    exact ⟨hmark, hlow, by omega, by omega⟩

variable (job) in
theorem marks_pairwise (low high : ℕ) :
    (marks job low high).Pairwise fun a b => a.offset < b.offset :=
  windowHits_pairwise low low (high - low)

theorem eq_of_mem_iff {xs ys : List Hit}
    (hxs : xs.Pairwise fun a b => a.offset < b.offset)
    (hys : ys.Pairwise fun a b => a.offset < b.offset)
    (h : ∀ hit, hit ∈ xs ↔ hit ∈ ys) : xs = ys := by
  have : Std.Irrefl fun a b : Hit => a.offset < b.offset :=
    ⟨fun a => lt_irrefl a.offset⟩
  have : Std.Antisymm fun a b : Hit => a.offset < b.offset :=
    ⟨fun _ _ hab hba => (lt_asymm hab hba).elim⟩
  exact hxs.eq_of_mem_iff hys h

theorem marks_of_le {high : ℕ} (h : high ≤ low) : marks job low high = [] := by
  rw [List.eq_nil_iff_forall_not_mem]
  intro hit hhit
  obtain ⟨-, hlow, hhigh⟩ := mem_marks.mp hhit
  have := signature_length_pos hit.kind
  unfold Hit.endOffset at hhigh
  omega

/-- The marks up to the end of a window are those up to its start and the
hits of the window, which looks back at least a signature. -/
theorem marks_append {cursor origin : ℕ}
    (horigin : origin = max low (cursor - 16)) (hle : low ≤ cursor) :
    marks job low (cursor + length) =
      marks job low cursor ++
        windowHits job.formats (bytesAt job.reader.content origin
          (cursor + length - origin)) origin cursor := by
  refine eq_of_mem_iff (marks_pairwise _ _ _) ?_ ?_
  · refine List.pairwise_append.mpr
      ⟨marks_pairwise _ _ _, windowHits_pairwise _ _ _, ?_⟩
    intro a ha b hb
    obtain ⟨hmark, -, hhigh⟩ := mem_marks.mp ha
    obtain ⟨hmark', -, -, hcursor⟩ := mem_windowHits.mp hb
    exact hmark.offset_lt hmark' (by omega)
  · intro hit
    have hlength := signature_length_le hit.kind
    rw [List.mem_append, mem_marks, mem_marks, mem_windowHits]
    constructor
    · rintro ⟨hmark, hlow, hhigh⟩
      rcases le_or_gt hit.endOffset cursor with hbefore | hafter
      · exact Or.inl ⟨hmark, hlow, hbefore⟩
      · refine Or.inr ⟨hmark, ?_, by omega, hafter⟩
        unfold Hit.endOffset at hafter
        omega
    · rintro (⟨hmark, hlow, hhigh⟩ | ⟨hmark, hlow, hhigh, -⟩)
      · exact ⟨hmark, hlow, by omega⟩
      · exact ⟨hmark, by omega, by omega⟩

variable (job) in
theorem marks_split {cut : ℕ} (h : low ≤ cut) (high : ℕ) :
    marks job low high =
      (marks job low high).filter (fun hit => hit.offset < cut) ++
        marks job cut high := by
  refine eq_of_mem_iff (marks_pairwise _ _ _) ?_ ?_
  · refine List.pairwise_append.mpr
      ⟨(marks_pairwise _ _ _).filter _, marks_pairwise _ _ _, ?_⟩
    intro a ha b hb
    have hbefore := (List.mem_filter.mp ha).2
    have hafter := (mem_marks.mp hb).2.1
    simp only [decide_eq_true_eq] at hbefore
    omega
  · intro hit
    rw [List.mem_append, List.mem_filter, mem_marks, mem_marks,
      decide_eq_true_eq]
    constructor
    · rintro ⟨hmark, hlow, hhigh⟩
      rcases lt_or_ge hit.offset cut with hbefore | hafter
      · exact Or.inl ⟨⟨hmark, hlow, hhigh⟩, hbefore⟩
      · exact Or.inr ⟨hmark, hafter, hhigh⟩
    · rintro (⟨hmark, -⟩ | ⟨hmark, hlow, hhigh⟩)
      · exact hmark
      · exact ⟨hmark, by omega, hhigh⟩

end Marks

end ApexForensic.Carving
