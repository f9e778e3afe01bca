import ApexForensic.FreeSpace.Units

/-!
# Bitmap runs

However the reads split a bitmap, as long as each returns some of the bytes it
was asked for, `bitmap_runs` yields the maximal runs of zero bits.
-/

namespace ApexForensic.FreeSpace

open ApexForensic.Support ApexForensic.Domain

variable {read : ℕ → ℕ → Except PyError (List UInt8)} {scan : BitScan}

/-- Whatever a read returns are bytes of the bitmap from its offset on, no
more than were asked for. -/
def ReadsBits (read : ℕ → ℕ → Except PyError (List UInt8))
    (bits : ℕ → Bool) : Prop :=
  ∀ offset amount data, read offset amount = .ok data →
    data.length ≤ amount ∧ ∀ m < 8 * data.length,
      bitAt (fun i => data.getD i 0) m = bits (8 * offset + m)

section

variable {count unit base : ℕ} {bits : ℕ → Bool}

/-- The scan has seen the bits before its index. -/
structure HasSeen (count unit base : ℕ) (bits : ℕ → Bool) (scan : BitScan) :
    Prop where
  follows : Follows 0 (unitRange base unit) scan.toRunScan
    (RunPass.upTo (fun i => !bits i) scan.index)
  index_le : scan.index ≤ count

theorem HasSeen.scanBit (h : HasSeen count unit base bits scan) (byte : UInt8)
    (bit : ℕ) (hbit : scan.index < count →
      byte.toNat.testBit bit = bits scan.index) :
    HasSeen count unit base bits
        (FreeSpace.scanBit count unit base byte scan bit) ∧
      (FreeSpace.scanBit count unit base byte scan bit).index =
        min count (scan.index + 1) := by
  rw [FreeSpace.scanBit]
  split
  · rename_i hend
    have hindex := h.index_le
    exact ⟨h, by omega⟩
  · rename_i hmore
    have hflag : (decide (byte.toNat.testBit bit = false)) =
        !bits scan.index := by
      rw [hbit (by omega)]
      cases bits scan.index <;> rfl
    refine ⟨⟨?_, by dsimp only; omega⟩, by dsimp only; omega⟩
    have hnext := h.follows.next scan.index (!bits scan.index)
    rw [Nat.zero_add] at hnext
    rw [hflag]
    exact hnext

theorem hasSeen_foldl_scanBit {byte : UInt8} (n : ℕ)
    (h : HasSeen count unit base bits scan)
    (hbits : ∀ j < n, scan.index + j < count →
      byte.toNat.testBit j = bits (scan.index + j)) :
    HasSeen count unit base bits
        ((List.range n).foldl (scanBit count unit base byte) scan) ∧
      ((List.range n).foldl (scanBit count unit base byte) scan).index =
        min count (scan.index + n) := by
  induction n with
  | zero =>
      have hindex := h.index_le
      refine ⟨h, ?_⟩
      rw [List.range_zero, List.foldl_nil]
      omega
  | succ n ih =>
      obtain ⟨hseen, hindex⟩ := ih fun j hj => hbits j (by omega)
      rw [List.range_succ, List.foldl_concat]
      obtain ⟨hseen', hindex'⟩ := hseen.scanBit byte n
        fun hlt => by
          rw [hindex] at hlt ⊢
          rw [show min count (scan.index + n) = scan.index + n by omega]
          exact hbits n (Nat.lt_succ_self n) (by omega)
      exact ⟨hseen', by omega⟩

theorem HasSeen.scanByte (h : HasSeen count unit base bits scan) (byte : UInt8)
    (hbits : ∀ j < 8, scan.index + j < count →
      byte.toNat.testBit j = bits (scan.index + j)) :
    HasSeen count unit base bits
        (FreeSpace.scanByte count unit base scan byte) ∧
      (FreeSpace.scanByte count unit base scan byte).index =
        min count (scan.index + 8) :=
  hasSeen_foldl_scanBit 8 h hbits

theorem hasSeen_foldl_scanByte (data : List UInt8)
    (h : HasSeen count unit base bits scan)
    (hbits : ∀ m < 8 * data.length, scan.index + m < count →
      bitAt (fun i => data.getD i 0) m = bits (scan.index + m)) :
    HasSeen count unit base bits
        (data.foldl (FreeSpace.scanByte count unit base) scan) ∧
      (data.foldl (FreeSpace.scanByte count unit base) scan).index =
        min count (scan.index + 8 * data.length) := by
  induction data generalizing scan with
  | nil =>
      have hindex := h.index_le
      exact ⟨h, by simp only [List.foldl_nil, List.length_nil]; omega⟩
  | cons byte data ih =>
      rw [List.foldl_cons, List.length_cons]
      obtain ⟨hseen, hindex⟩ := h.scanByte byte fun j hj hlt => by
        have hbit := hbits j (by simp only [List.length_cons]; omega) hlt
        rwa [bitAt, Nat.div_eq_of_lt hj, Nat.mod_eq_of_lt hj] at hbit
      obtain ⟨hrest, hend⟩ := ih hseen fun m hm hlt => by
        rw [hindex] at hlt ⊢
        rw [show min count (scan.index + 8) = scan.index + 8 by omega] at hlt ⊢
        have hbit := hbits (8 + m) (by simp only [List.length_cons]; omega)
          (by omega)
        rw [bitAt, Nat.add_comm 8 m, Nat.add_div_right m (by decide),
          Nat.add_mod_right] at hbit
        rw [Nat.add_assoc, Nat.add_comm 8 m]
        exact hbit
      exact ⟨hrest, by omega⟩

theorem scanBitmap_hasSeen (hread : ReadsBits read bits) {fuel : ℕ}
    {scan' : BitScan} (h : HasSeen count unit base bits scan)
    (hfuel : count - scan.index ≤ fuel)
    (haligned : scan.index < count → 8 ∣ scan.index)
    (hscan : scanBitmap count unit base read fuel scan = .ok scan') :
    HasSeen count unit base bits scan' ∧ scan'.index = count := by
  induction fuel generalizing scan with
  | zero =>
      obtain rfl := Except.ok.inj hscan
      have hindex := h.index_le
      exact ⟨h, by omega⟩
  | succ fuel ih =>
      rw [scanBitmap] at hscan
      split at hscan
      · rename_i hmore
        obtain ⟨data, hdata, hscan⟩ := bind_ok hscan
        rw [check_eq_ok_iff] at hscan
        obtain ⟨hne, hscan⟩ := hscan
        obtain ⟨hlength, hbytes⟩ := hread _ _ _ hdata
        have halign : 8 * (scan.index / 8) = scan.index :=
          Nat.mul_div_cancel' (haligned hmore)
        have hpos := List.length_pos_of_ne_nil hne
        obtain ⟨hseen, hindex⟩ := hasSeen_foldl_scanByte data h
          fun m hm _ => by rw [hbytes m hm, halign]
        refine ih hseen (by omega) (fun hlt => ?_) hscan
        have hdvd : 8 ∣ scan.index + 8 * data.length :=
          (Nat.dvd_add_right (haligned hmore)).mpr (Nat.dvd_mul_right 8 _)
        rwa [hindex, show min count (scan.index + 8 * data.length) =
          scan.index + 8 * data.length by omega]
      · rename_i hend
        obtain rfl := Except.ok.inj hscan
        have hindex := h.index_le
        exact ⟨h, by omega⟩

/-- What `bitmap_runs` yields are the maximal runs of zero bits. -/
theorem bitmapRuns_eq (hread : ReadsBits read bits) {ranges : List (ℕ × ℕ)}
    (h : bitmapRuns count unit base read = .ok ranges) :
    ranges = (maximalRuns (fun i => !bits i) count).map fun run =>
      unitRange base unit run.1 run.2 := by
  obtain ⟨scan, hscan, hfinish⟩ := bind_ok h
  obtain rfl := Except.ok.inj hfinish
  obtain ⟨hseen, hindex⟩ := scanBitmap_hasSeen hread
    ⟨follows_initial, Nat.zero_le count⟩ (Nat.sub_le _ _)
    (fun _ => Nat.dvd_zero 8) hscan
  have hend := hseen.follows.finish count
  rw [Nat.zero_add, hindex] at hend
  simpa only [maximalRuns, Nat.zero_add] using hend

theorem scanBitmap_total (unit base : ℕ)
    (hsome : ∀ offset amount, 0 < amount → 8 * offset < count →
      ∃ data, read offset amount = .ok data ∧ data ≠ []) (fuel : ℕ)
    (scan : BitScan) :
    ∃ scan', scanBitmap count unit base read fuel scan = .ok scan' := by
  induction fuel generalizing scan with
  | zero => exact ⟨scan, rfl⟩
  | succ fuel ih =>
      rw [scanBitmap]
      split
      · obtain ⟨data, hdata, hne⟩ := hsome (scan.index / 8)
          (min 65536 ((count - scan.index + 7) / 8)) (by omega) (by omega)
        obtain ⟨scan', hscan'⟩ := ih
          (data.foldl (scanByte count unit base) scan)
        refine ⟨scan', bind_eq_ok_iff.mpr ⟨data, hdata, ?_⟩⟩
        exact check_eq_ok_iff.mpr ⟨hne, hscan'⟩
      · exact ⟨scan, rfl⟩

theorem bitmapRuns_total (hread : ReadsBits read bits)
    (hsome : ∀ offset amount, 0 < amount → 8 * offset < count →
      ∃ data, read offset amount = .ok data ∧ data ≠ []) :
    bitmapRuns count unit base read =
      .ok ((maximalRuns (fun i => !bits i) count).map fun run =>
        unitRange base unit run.1 run.2) := by
  obtain ⟨scan, hscan⟩ := scanBitmap_total unit base hsome count ⟨⟨none, []⟩, 0⟩
  have hruns : bitmapRuns count unit base read =
      .ok (scan.toRunScan.finish (unitRange base unit) count) :=
    bind_eq_ok_iff.mpr ⟨scan, hscan, rfl⟩
  rw [hruns, bitmapRuns_eq hread hruns]

theorem bitmapRuns_freeUnits (hunit : 0 < unit) (hread : ReadsBits read bits)
    {ranges : List (ℕ × ℕ)} (h : bitmapRuns count unit base read = .ok ranges) :
    FreeUnits base unit count (fun i => bits i = false) ranges := by
  rw [bitmapRuns_eq hread h]
  refine (freeUnits_maximalRuns hunit _).congr fun i _ => ?_
  rw [Bool.not_eq_true']

end

end ApexForensic.FreeSpace
