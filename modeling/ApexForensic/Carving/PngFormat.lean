import ApexForensic.Carving.CandidateEnds

/-!
# PNG images

An image is a header chunk of thirteen bytes, any chunks, and an empty end
chunk, each with the checksum of its kind and payload.  The recognizer returns
the end of exactly these.
-/

namespace ApexForensic.Carving

open ApexForensic.Partitions (slice crc32)

/-- The number that bytes are in big-endian order. -/
def valueBE (bytes : List UInt8) : ℕ :=
  bytes.foldl (fun value byte => 256 * value + byte.toNat) 0

/-- A chunk whose size and checksum are those of its payload. -/
structure PngChunk where
  size : List UInt8
  kind : List UInt8
  payload : List UInt8
  crc : List UInt8
  size_length : size.length = 4
  kind_length : kind.length = 4
  crc_length : crc.length = 4
  size_eq : valueBE size = payload.length
  crc_eq : valueBE crc = crc32 (kind ++ payload)

def PngChunk.bytes (c : PngChunk) : List UInt8 :=
  c.size ++ (c.kind ++ c.payload) ++ c.crc

def headerKind : List UInt8 := [0x49, 0x48, 0x44, 0x52]
def endKind : List UInt8 := [0x49, 0x45, 0x4E, 0x44]

/-- Chunks up to an empty end chunk. -/
inductive PngBody : List PngChunk → Prop
  | last {c : PngChunk} (hkind : c.kind = endKind) (hempty : c.payload = []) :
      PngBody [c]
  | cons {c : PngChunk} {chunks : List PngChunk} (hkind : c.kind ≠ endKind)
      (h : PngBody chunks) : PngBody (c :: chunks)

def StartsWithHeader (chunks : List PngChunk) : Prop :=
  ∃ c ∈ chunks.head?, c.kind = headerKind ∧ c.payload.length = 13

namespace PngChunk

variable {c : PngChunk} {data tail : List UInt8} {offset : ℕ}

theorem length_bytes (c : PngChunk) :
    c.bytes.length = c.payload.length + 12 := by
  simp only [bytes, List.length_append, c.size_length, c.kind_length,
    c.crc_length]
  omega

theorem slice_eq (data : List UInt8) (a b : ℕ) :
    slice data a b = (data.drop a).take (b - a) := by
  rw [slice, List.drop_take]

theorem fields_of_drop (h : data.drop offset = c.bytes ++ tail) :
    unpackBE data offset = c.payload.length ∧
      slice data (offset + 4) (offset + c.payload.length + 12 - 4) =
        c.kind ++ c.payload ∧
      unpackBE data (offset + c.payload.length + 12 - 4) =
        crc32 (c.kind ++ c.payload) ∧
      offset + c.payload.length + 12 ≤ data.length := by
  have hlength := congrArg List.length h
  rw [List.length_drop, List.length_append, length_bytes] at hlength
  have hinner : (c.kind ++ c.payload).length = c.payload.length + 4 := by
    rw [List.length_append, c.kind_length, Nat.add_comm]
  have hbehind (k : ℕ) :
      data.drop (offset + k) = (c.bytes ++ tail).drop k := by
    rw [← h, List.drop_drop]
  refine ⟨?_, ?_, ?_, by omega⟩
  · change valueBE (slice data offset (offset + 4)) = _
    rw [slice_eq, h, bytes, List.append_assoc, List.append_assoc,
      Nat.add_sub_cancel_left, List.take_left' c.size_length, c.size_eq]
  · rw [slice_eq, hbehind, bytes, List.append_assoc, List.append_assoc,
      List.drop_left' c.size_length]
    exact List.take_left' (by omega)
  · change valueBE (slice data _ _) = _
    rw [slice_eq, show offset + c.payload.length + 12 - 4 =
      offset + (c.payload.length + 8) by omega, hbehind, bytes,
      List.append_assoc, List.drop_left'
        (by rw [List.length_append, hinner, c.size_length]; omega),
      List.take_left' (by rw [c.crc_length]; omega), c.crc_eq]

theorem pngEnd_eq (h : data.drop offset = c.bytes ++ tail) :
    pngEnd data offset =
      if offset = 8 ∧ (c.kind ≠ headerKind ∨ c.payload.length ≠ 13) then none
      else if c.kind = endKind then
        if c.payload = [] then some (offset + c.bytes.length) else none
      else pngEnd data (offset + c.bytes.length) := by
  obtain ⟨hsize, hblock, hcrc, hle⟩ := fields_of_drop h
  have hkind : (c.kind ++ c.payload).take 4 = c.kind :=
    List.take_left' c.kind_length
  have hstop : offset + c.payload.length + 12 = offset + c.bytes.length := by
    rw [length_bytes]
    omega
  rw [pngEnd, if_pos (by omega)]
  simp only [hsize, hblock, hcrc, hkind]
  rw [if_neg (by omega), if_neg (by simp), hstop]
  simp only [headerKind, endKind, List.length_eq_zero_iff]
  rfl

theorem exists_of_pngEnd {n : ℕ} (h : pngEnd data offset = some n) :
    ∃ (c : PngChunk) (tail : List UInt8),
      data.drop offset = c.bytes ++ tail := by
  rw [pngEnd] at h
  by_cases hle : offset + 12 ≤ data.length
  · rw [if_pos hle] at h
    dsimp only at h
    generalize hsize : unpackBE data offset = size at h
    by_cases hcut : data.length < offset + size + 12
    · rw [if_pos hcut] at h
      cases h
    · rw [if_neg hcut] at h
      by_cases hcrc : crc32 (slice data (offset + 4)
          (offset + size + 12 - 4)) ≠ unpackBE data (offset + size + 12 - 4)
      · rw [if_pos hcrc] at h
        cases h
      · obtain ⟨whole, hwhole⟩ : ∃ whole, whole = data.drop offset := ⟨_, rfl⟩
        have hlength : whole.length = data.length - offset := by
          rw [hwhole, List.length_drop]
        have hbehind (k : ℕ) : data.drop (offset + k) = whole.drop k := by
          rw [hwhole, List.drop_drop]
        rw [slice_eq, hbehind, not_not] at hcrc
        refine ⟨⟨whole.take 4, (whole.drop 4).take 4,
          (whole.drop 8).take size, (whole.drop (8 + size)).take 4, ?_, ?_, ?_,
          ?_, ?_⟩, whole.drop (12 + size), ?_⟩
        · rw [List.length_take]
          omega
        · rw [List.length_take, List.length_drop]
          omega
        · rw [List.length_take, List.length_drop]
          omega
        · change valueBE (slice data offset (offset + 4)) = size at hsize
          rw [slice_eq, ← hwhole, Nat.add_sub_cancel_left] at hsize
          rw [hsize, List.length_take, List.length_drop]
          omega
        · change _ = valueBE (slice data _ _) at hcrc
          rw [slice_eq, show offset + size + 12 - 4 = offset + (8 + size) by
            omega, hbehind, show offset + (8 + size) + 4 -
            (offset + (8 + size)) = 4 by omega,
            show offset + (8 + size) - (offset + 4) = 4 + size by omega,
            List.take_add, List.drop_drop] at hcrc
          exact hcrc.symm
        · simp only [bytes]
          have hcut (k m : ℕ) : (whole.drop k).take m ++ whole.drop (k + m) =
              whole.drop k := by
            rw [← List.drop_drop, List.take_append_drop]
          rw [← hwhole, List.append_assoc, List.append_assoc,
            List.append_assoc, show 12 + size = 8 + size + 4 by omega,
            hcut (8 + size) 4, hcut 8 size, hcut 4 4,
            List.take_append_drop]
  · rw [if_neg hle] at h
    cases h

end PngChunk

/-- Behind an offset the recognizer accepts chunks up to an empty end chunk,
the first of them a header if it is the first of the image. -/
theorem pngEnd_eq_some_iff {data : List UInt8} {offset n : ℕ}
    (hoffset : 8 ≤ offset) :
    pngEnd data offset = some n ↔
      ∃ chunks tail, data.drop offset =
          chunks.flatMap PngChunk.bytes ++ tail ∧
        n = offset + (chunks.flatMap PngChunk.bytes).length ∧
        PngBody chunks ∧ (offset = 8 → StartsWithHeader chunks) := by
  constructor
  · intro h
    induction hleft : data.length - offset using Nat.strong_induction_on
      generalizing offset with
    | _ left ih =>
      subst hleft
      obtain ⟨c, tail, hdrop⟩ := PngChunk.exists_of_pngEnd h
      have hlength := c.length_bytes
      have hle := (PngChunk.fields_of_drop hdrop).2.2.2
      have hrest : data.drop (offset + c.bytes.length) = tail := by
        rw [← List.drop_drop, hdrop, List.drop_left]
      rw [PngChunk.pngEnd_eq hdrop] at h
      split_ifs at h with hheader hkind hempty
      · refine ⟨[c], tail, by simpa using hdrop, ?_, .last hkind hempty, ?_⟩
        · simpa using (Option.some.inj h).symm
        · intro heq
          by_contra hnot
          refine hheader ⟨heq, ?_⟩
          by_contra hgood
          rw [not_or, not_not, not_not] at hgood
          exact hnot ⟨c, rfl, hgood⟩
      · obtain ⟨chunks, tail', hdrop', rfl, hbody, -⟩ :=
          ih _ (by omega) (by omega) h rfl
        refine ⟨c :: chunks, tail', ?_, ?_, .cons hkind hbody, ?_⟩
        · rw [hdrop, ← hrest, hdrop', List.flatMap_cons, List.append_assoc]
        · rw [List.flatMap_cons, List.length_append]
          omega
        · intro heq
          by_contra hnot
          refine hheader ⟨heq, ?_⟩
          by_contra hgood
          rw [not_or, not_not, not_not] at hgood
          exact hnot ⟨c, rfl, hgood⟩
  · rintro ⟨chunks, tail, hdrop, rfl, hbody, hheader⟩
    have hfirst {c : PngChunk} {chunks : List PngChunk}
        (h : offset = 8 → StartsWithHeader (c :: chunks)) :
        ¬ (offset = 8 ∧ (c.kind ≠ headerKind ∨ c.payload.length ≠ 13)) := by
      rintro ⟨heq, hbad⟩
      obtain ⟨_, hhead, hkind, hsize⟩ := h heq
      obtain rfl := Option.some.inj hhead
      exact hbad.elim (absurd hkind) (absurd hsize)
    induction hbody generalizing offset with
    | last hkind hempty =>
        rw [List.flatMap_singleton] at hdrop ⊢
        rw [PngChunk.pngEnd_eq hdrop, if_neg (hfirst hheader), if_pos hkind,
          if_pos hempty]
    | @cons c chunks hkind h ih =>
        rw [List.flatMap_cons, List.append_assoc] at hdrop
        have hlength := c.length_bytes
        have hrest : data.drop (offset + c.bytes.length) =
            chunks.flatMap PngChunk.bytes ++ tail := by
          rw [← List.drop_drop, hdrop, List.drop_left]
        rw [PngChunk.pngEnd_eq hdrop, if_neg (hfirst hheader), if_neg hkind,
          ih (by omega) hrest (by omega) (by omega), List.flatMap_cons,
          List.length_append, Nat.add_assoc]

theorem PngBody.length_pos {chunks : List PngChunk} (h : PngBody chunks) :
    0 < (chunks.flatMap PngChunk.bytes).length := by
  cases h with
  | @last c _ _ =>
      have := c.length_bytes
      rw [List.flatMap_singleton]
      omega
  | @cons c chunks _ _ =>
      have := c.length_bytes
      rw [List.flatMap_cons, List.length_append]
      omega

theorem stable_pngEnd : Stable fun data => pngEnd data 8 := by
  intro data k n
  simp only [pngEnd_eq_some_iff le_rfl, List.drop_take]
  constructor
  · rintro ⟨chunks, tail, hdrop, rfl, hbody, hheader⟩
    have hlength := congrArg List.length hdrop
    have hpos := hbody.length_pos
    rw [List.length_append, List.length_take] at hlength
    refine ⟨⟨chunks, tail ++ (data.drop 8).drop (k - 8), ?_, rfl, hbody,
      hheader⟩, by omega⟩
    rw [← List.append_assoc, ← hdrop, List.take_append_drop]
  · rintro ⟨⟨chunks, tail, hdrop, rfl, hbody, hheader⟩, hle⟩
    refine ⟨chunks,
      tail.take (k - 8 - (chunks.flatMap PngChunk.bytes).length), ?_, rfl,
      hbody, hheader⟩
    rw [hdrop, List.take_append, List.take_of_length_le (by omega)]

end ApexForensic.Carving
