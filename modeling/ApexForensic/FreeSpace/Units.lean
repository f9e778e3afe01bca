import ApexForensic.FreeSpace.Model
import ApexForensic.Support.MaximalRuns
import Mathlib.Data.Nat.Bitwise
import Mathlib.Tactic.Ring

/-!
# Free units and their byte ranges

A region is a row of units of one size.  A list of byte ranges is exact for a
region when its ranges are in order, lie in the region and cover just the bytes
of the free units.  The scan yields such a list, and lists for adjacent
regions can be put one after the other.
-/

namespace ApexForensic.FreeSpace

open ApexForensic.Support ApexForensic.Domain
open ApexForensic.Partitions (Reader slice unpackLE)

/-- The ranges are exactly the free units of a region. -/
structure FreeUnits (origin unit count : ℕ) (free : ℕ → Prop)
    (ranges : List (ℕ × ℕ)) : Prop where
  positive : ∀ r ∈ ranges, 0 < r.2
  increasing : ranges.Pairwise fun r r' => r.1 + r.2 ≤ r'.1
  inside : ∀ r ∈ ranges, origin ≤ r.1 ∧ r.1 + r.2 ≤ origin + count * unit
  exact : ∀ x, (∃ r ∈ ranges, r.1 ≤ x ∧ x < r.1 + r.2) ↔
    ∃ i < count, free i ∧ origin + i * unit ≤ x ∧
      x < origin + (i + 1) * unit

section

variable {origin unit count : ℕ} {free : ℕ → Prop} {ranges : List (ℕ × ℕ)}

theorem freeUnits_nil (hfree : ∀ i < count, ¬ free i) :
    FreeUnits origin unit count free [] where
  positive := nofun
  increasing := List.Pairwise.nil
  inside := nofun
  exact x := by
    refine iff_of_false (by simp) ?_
    rintro ⟨i, hi, hset, -⟩
    exact hfree i hi hset

theorem FreeUnits.congr {free' : ℕ → Prop}
    (h : FreeUnits origin unit count free ranges)
    (hfree : ∀ i < count, free i ↔ free' i) :
    FreeUnits origin unit count free' ranges where
  positive := h.positive
  increasing := h.increasing
  inside := h.inside
  exact x := by
    rw [h.exact]
    refine exists_congr fun i => and_congr_right fun hi => ?_
    rw [hfree i hi]

theorem mem_unit_iff (hunit : 0 < unit) {a b x : ℕ} :
    origin + a * unit ≤ x ∧ x < origin + b * unit ↔
      ∃ i, a ≤ i ∧ i < b ∧ origin + i * unit ≤ x ∧
        x < origin + (i + 1) * unit := by
  constructor
  · rintro ⟨hle, hlt⟩
    have horigin : origin ≤ x := (Nat.le_add_right _ _).trans hle
    refine ⟨(x - origin) / unit, ?_, ?_, ?_, ?_⟩
    · rw [Nat.le_div_iff_mul_le hunit]
      omega
    · rw [Nat.div_lt_iff_lt_mul hunit]
      omega
    · have hdiv := Nat.div_mul_le_self (x - origin) unit
      omega
    · have hdiv := Nat.lt_div_mul_add (a := x - origin) hunit
      rw [Nat.add_mul, Nat.one_mul]
      omega
  · rintro ⟨i, hai, hib, hle, hlt⟩
    have hlow := Nat.mul_le_mul_right unit hai
    have hhigh := Nat.mul_le_mul_right unit (Nat.succ_le_of_lt hib)
    rw [Nat.succ_eq_add_one] at hhigh
    omega

theorem freeUnits_maximalRuns (hunit : 0 < unit) (p : ℕ → Bool) :
    FreeUnits origin unit count (fun i => p i = true)
      ((maximalRuns p count).map fun run =>
        unitRange origin unit run.1 run.2) := by
  have hstop : ∀ run ∈ maximalRuns p count,
      (unitRange origin unit run.1 run.2).1 +
        (unitRange origin unit run.1 run.2).2 = origin + run.2 * unit := by
    intro run hrun
    have hle := (isMaximalRun_of_mem hrun).nonempty.le
    rw [unitRange]
    dsimp only
    rw [Nat.add_assoc, ← Nat.add_mul, Nat.add_sub_cancel' hle]
  refine ⟨?_, ?_, ?_, ?_⟩
  · intro r hr
    obtain ⟨run, hrun, rfl⟩ := List.mem_map.mp hr
    exact Nat.mul_pos (Nat.sub_pos_of_lt (isMaximalRun_of_mem hrun).nonempty)
      hunit
  · refine List.pairwise_map.mpr ?_
    refine (maximalRuns_pairwise p count).imp_of_mem fun {run run'} hrun _ h =>
      ?_
    rw [hstop run hrun]
    exact Nat.add_le_add_left (Nat.mul_le_mul_right unit h.le) origin
  · intro r hr
    obtain ⟨run, hrun, rfl⟩ := List.mem_map.mp hr
    rw [hstop run hrun]
    exact ⟨Nat.le_add_right _ _, Nat.add_le_add_left
      (Nat.mul_le_mul_right unit (isMaximalRun_of_mem hrun).le_count) origin⟩
  · intro x
    constructor
    · rintro ⟨r, hr, hle, hlt⟩
      obtain ⟨run, hrun, rfl⟩ := List.mem_map.mp hr
      rw [hstop run hrun] at hlt
      obtain ⟨i, hai, hib, hin⟩ := (mem_unit_iff hunit).mp ⟨hle, hlt⟩
      obtain ⟨hi, hset⟩ := exists_mem_maximalRuns_iff.mp ⟨run, hrun, hai, hib⟩
      exact ⟨i, hi, hset, hin⟩
    · rintro ⟨i, hi, hset, hin⟩
      obtain ⟨run, hrun, hai, hib⟩ := exists_mem_maximalRuns_iff.mpr ⟨hi, hset⟩
      refine ⟨_, List.mem_map_of_mem hrun, ?_⟩
      rw [hstop run hrun]
      exact (mem_unit_iff hunit).mpr ⟨i, hai, hib, hin⟩

theorem FreeUnits.append {count' : ℕ} {ranges' : List (ℕ × ℕ)}
    (h : FreeUnits origin unit count free ranges)
    (h' : FreeUnits (origin + count * unit) unit count'
      (fun i => free (count + i)) ranges') :
    FreeUnits origin unit (count + count') free (ranges ++ ranges') where
  positive r hr := (List.mem_append.mp hr).elim (h.positive r) (h'.positive r)
  increasing := by
    refine List.pairwise_append.mpr ⟨h.increasing, h'.increasing,
      fun r hr r' hr' => ?_⟩
    exact (h.inside r hr).2.trans (h'.inside r' hr').1
  inside r hr := by
    rw [Nat.add_mul, ← Nat.add_assoc]
    rcases List.mem_append.mp hr with hold | hnew
    · have hin := h.inside r hold
      exact ⟨hin.1, hin.2.trans (Nat.le_add_right _ _)⟩
    · have hin := h'.inside r hnew
      exact ⟨(Nat.le_add_right _ _).trans hin.1, hin.2⟩
  exact x := by
    simp only [List.mem_append, or_and_right, exists_or, h.exact, h'.exact]
    constructor
    · rintro (⟨i, hi, hfree, hin⟩ | ⟨i, hi, hfree, hle, hlt⟩)
      · exact ⟨i, by omega, hfree, hin⟩
      · refine ⟨count + i, by omega, hfree, ?_, ?_⟩
        · rw [Nat.add_mul]
          omega
        · rw [Nat.add_assoc count, Nat.add_mul]
          omega
    · rintro ⟨i, hi, hfree, hle, hlt⟩
      by_cases hfirst : i < count
      · exact Or.inl ⟨i, hfirst, hfree, hle, hlt⟩
      · obtain ⟨j, rfl⟩ := Nat.exists_eq_add_of_le (not_lt.mp hfirst)
        rw [Nat.add_mul] at hle
        rw [Nat.add_assoc count, Nat.add_mul] at hlt
        exact Or.inr ⟨j, by omega, hfree, by omega, by omega⟩

end

/-! ## Scans -/

/-- The scan of units numbered from `first` is where the pass over their flags
is. -/
structure Follows (first : ℕ) (range : ℕ → ℕ → ℕ × ℕ) (scan : RunScan)
    (pass : RunPass) : Prop where
  start : scan.start = pass.start.map (first + ·)
  ranges : scan.ranges = pass.closed.map fun run =>
    range (first + run.1) (first + run.2)

section

variable {first : ℕ} {range : ℕ → ℕ → ℕ × ℕ} {scan : RunScan} {pass : RunPass}

theorem follows_initial :
    Follows first range ⟨none, []⟩ RunPass.initial :=
  ⟨rfl, rfl⟩

theorem Follows.next (h : Follows first range scan pass) (n : ℕ) (flag : Bool) :
    Follows first range (scan.next range (first + n) flag)
      (pass.next n flag) := by
  rw [RunScan.next, RunPass.next]
  cases flag with
  | true =>
      refine ⟨?_, h.ranges⟩
      rw [if_pos rfl, if_pos rfl, h.start]
      cases pass.start with
      | none => rfl
      | some start => rfl
  | false =>
      rw [if_neg (by simp), if_neg (by simp), h.start]
      cases hstart : pass.start with
      | none =>
          exact h
      | some start =>
          refine ⟨rfl, ?_⟩
          simp only [Option.map_some, h.ranges, List.map_append,
            List.map_singleton]

theorem Follows.finish (h : Follows first range scan pass) (n : ℕ) :
    scan.finish range (first + n) =
      (pass.finish n).map fun run => range (first + run.1) (first + run.2) := by
  rw [RunScan.finish, RunPass.finish, h.start]
  cases pass.start with
  | none => exact h.ranges
  | some start => simp [h.ranges]

end

/-! ## Bits on the disk -/

/-- Bit `n` of a byte string, the lowest bit of a byte first. -/
def bitAt (content : ℕ → UInt8) (n : ℕ) : Bool :=
  (content (n / 8)).toNat.testBit (n % 8)

theorem testBit_foldr (data : List UInt8) (n : ℕ) :
    (data.foldr (fun (byte : UInt8) value => byte.toNat + 256 * value)
        0).testBit n =
      bitAt (fun i => data.getD i 0) n := by
  induction data generalizing n with
  | nil => simp [bitAt]
  | cons byte data ih =>
      have hbyte : byte.toNat < 2 ^ 8 := byte.toNat_lt
      rw [List.foldr_cons, Nat.add_comm]
      refine (Nat.testBit_two_pow_mul_add _ hbyte n).trans ?_
      rw [bitAt]
      split
      · rename_i hn
        rw [Nat.div_eq_of_lt hn, Nat.mod_eq_of_lt hn]
        rfl
      · rename_i hn
        obtain ⟨m, rfl⟩ := Nat.exists_eq_add_of_le (not_lt.mp hn)
        rw [Nat.add_sub_cancel_left, ih, bitAt, Nat.add_comm 8 m,
          Nat.add_div_right m (by decide), Nat.add_mod_right]
        rfl

/-- The bytes are those of the image from an offset on. -/
def IsContent (content : ℕ → UInt8) (offset : ℕ) (data : List UInt8) : Prop :=
  ∀ i (h : i < data.length), data[i] = content (offset + i)

theorem isContent_readAt {reader : Reader} {offset length : ℕ}
    {data : List UInt8} (h : reader.readAt offset length = .ok data) :
    IsContent reader.content offset data ∧ data.length ≤ length := by
  rw [Reader.readAt] at h
  split at h
  · cases h
  split at h
  · obtain rfl := Except.ok.inj h
    exact ⟨fun i hi => absurd hi (Nat.not_lt_zero i), Nat.zero_le _⟩
  · obtain rfl := Except.ok.inj h
    refine ⟨fun i hi => by simp, ?_⟩
    rw [List.length_map, List.length_range]
    exact Nat.min_le_left _ _

theorem IsContent.slice {content : ℕ → UInt8} {offset : ℕ} {data : List UInt8}
    (h : IsContent content offset data) (start stop : ℕ) :
    IsContent content (offset + start) (slice data start stop) := by
  intro i hi
  have hlength : i < stop - start ∧ start + i < data.length := by
    rw [Partitions.slice, List.length_drop, List.length_take] at hi
    omega
  simp only [Partitions.slice, List.getElem_drop, List.getElem_take]
  rw [h (start + i) hlength.2, Nat.add_assoc]

end ApexForensic.FreeSpace
