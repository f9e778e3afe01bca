import Mathlib.Algebra.Order.Group.Nat
import Mathlib.Data.List.Induction

/-!
# Packing bits into bytes

A sequence of bits is cut into groups of eight, and the bit of a group goes to
the place that an order assigns to its position.  A last group of fewer bits
is dropped.
-/

namespace ApexForensic.Support

/-- The groups' bits at their places, from the lowest one up. -/
def placedBits (place : ℕ → ℕ) (bits : List Bool) : ℕ :=
  bits.zipIdx.foldl (fun sum (bit, i) => sum ||| bit.toNat <<< place i) 0

/-- The whole bytes of a sequence of bits. -/
def packed (place : ℕ → ℕ) (bits : List Bool) : List UInt8 :=
  (List.range (bits.length / 8)).map fun k =>
    UInt8.ofNat (placedBits place ((bits.drop (8 * k)).take 8))

/-- The bits after the last whole byte. -/
def unpacked (bits : List Bool) : List Bool :=
  bits.drop (8 * (bits.length / 8))

variable {place : ℕ → ℕ}

theorem placedBits_concat (bits : List Bool) (bit : Bool) :
    placedBits place (bits ++ [bit]) =
      placedBits place bits ||| bit.toNat <<< place bits.length := by
  simp [placedBits, List.zipIdx_append]

theorem placedBits_lt {bits : List Bool}
    (h : ∀ i < bits.length, place i < 8) : placedBits place bits < 2 ^ 8 := by
  induction bits using List.reverseRecOn with
  | nil => exact Nat.two_pow_pos 8
  | append_singleton bits bit ih =>
      rw [List.length_append, List.length_singleton] at h
      rw [placedBits_concat]
      apply Nat.or_lt_two_pow
      · exact ih fun i hi => h i (Nat.lt_succ_of_lt hi)
      · have hplace := h bits.length (Nat.lt_succ_self _)
        calc
          bit.toNat <<< place bits.length ≤ 1 <<< place bits.length := by
            simp only [Nat.shiftLeft_eq]
            exact Nat.mul_le_mul_right _ (Bool.toNat_le bit)
          _ = 2 ^ place bits.length := Nat.one_shiftLeft _
          _ < 2 ^ 8 := Nat.pow_lt_pow_right (by decide) hplace

theorem testBit_placedBits {bits : List Bool}
    (h : ∀ i < bits.length, ∀ j < bits.length, place i = place j → i = j)
    {i : ℕ} (hi : i < bits.length) :
    (placedBits place bits).testBit (place i) = bits[i] := by
  have hother : ∀ bits : List Bool, ∀ p,
      (∀ j < bits.length, place j ≠ p) →
        (placedBits place bits).testBit p = false := by
    intro bits p hp
    induction bits using List.reverseRecOn with
    | nil => exact Nat.zero_testBit p
    | append_singleton bits bit ih =>
        rw [List.length_append, List.length_singleton] at hp
        rw [placedBits_concat, Nat.testBit_or,
          ih fun j hj => hp j (Nat.lt_succ_of_lt hj), Bool.false_or]
        have hne := hp bits.length (Nat.lt_succ_self _)
        cases bit with
        | false => simp
        | true =>
            rw [Bool.toNat_true, Nat.one_shiftLeft]
            exact Nat.testBit_two_pow_of_ne hne
  induction bits using List.reverseRecOn with
  | nil => exact absurd hi (Nat.not_lt_zero i)
  | append_singleton bits bit ih =>
      rw [List.length_append, List.length_singleton] at h hi
      rw [placedBits_concat, Nat.testBit_or]
      rcases Nat.lt_succ_iff_lt_or_eq.mp hi with hlt | rfl
      · rw [ih (fun j hj k hk => h j (Nat.lt_succ_of_lt hj) k
          (Nat.lt_succ_of_lt hk)) hlt, List.getElem_append_left hlt]
        have hne : place bits.length ≠ place i := fun heq =>
          absurd (h _ (Nat.lt_succ_self _) _ hi heq).symm (Nat.ne_of_lt hlt)
        cases bit with
        | false => simp
        | true =>
            rw [Bool.toNat_true, Nat.one_shiftLeft,
              Nat.testBit_two_pow_of_ne hne, Bool.or_false]
      · rw [hother bits _ fun j hj heq => absurd
          (h j (Nat.lt_succ_of_lt hj) _ (Nat.lt_succ_self _) heq)
          (Nat.ne_of_lt hj), Bool.false_or, List.getElem_concat_length rfl]
        cases bit with
        | false => simp
        | true => simp

@[simp] theorem length_packed (bits : List Bool) :
    (packed place bits).length = bits.length / 8 := by simp [packed]

theorem testBit_packed {bits : List Bool} (hlt : ∀ i < 8, place i < 8)
    (hinj : ∀ i < 8, ∀ j < 8, place i = place j → i = j)
    {i : ℕ} (hi : i < 8 * (bits.length / 8)) :
    (packed place bits)[i / 8]?.map
        (fun byte => byte.toNat.testBit (place (i % 8))) = bits[i]? := by
  have hgroup : ((bits.drop (8 * (i / 8))).take 8).length = 8 := by
    rw [List.length_take, List.length_drop]
    omega
  have hrange : (List.range (bits.length / 8))[i / 8]? = some (i / 8) :=
    List.getElem?_range (by omega)
  have hbound : placedBits place ((bits.drop (8 * (i / 8))).take 8) <
      2 ^ 8 := by
    apply placedBits_lt
    rw [hgroup]
    exact hlt
  have hposition : 8 * (i / 8) + i % 8 = i := Nat.div_add_mod i 8
  rw [packed, List.getElem?_map, hrange, Option.map_some, Option.map_some,
    UInt8.toNat_ofNat', Nat.mod_eq_of_lt hbound,
    testBit_placedBits (by rw [hgroup]; exact hinj)
      (show i % 8 < _ by rw [hgroup]; exact Nat.mod_lt i (by decide)),
    List.getElem_take, List.getElem_drop, ← List.getElem?_eq_getElem]
  simp only [hposition]

theorem packed_append {xs : List Bool} (h : 8 ∣ xs.length) (ys : List Bool) :
    packed place (xs ++ ys) = packed place xs ++ packed place ys := by
  obtain ⟨k, hk⟩ := h
  have hlen : (xs ++ ys).length / 8 = xs.length / 8 + ys.length / 8 := by
    rw [List.length_append, hk]
    omega
  rw [packed, hlen, List.range_add, List.map_append, List.map_map]
  congr 1
  · apply List.map_congr_left
    intro j hj
    have hj := List.mem_range.mp hj
    have hroom : 8 ≤ (xs.drop (8 * j)).length := by
      rw [List.length_drop]
      omega
    rw [List.drop_append_of_le_length (by omega),
      List.take_append_of_le_length hroom]
  · apply List.map_congr_left
    intro j _
    have hdrop : 8 * (xs.length / 8 + j) = xs.length + 8 * j := by omega
    rw [Function.comp_apply, hdrop, List.drop_append, Nat.add_sub_cancel_left,
      List.drop_eq_nil_of_le (by omega), List.nil_append]

theorem length_unpacked (bits : List Bool) :
    (unpacked bits).length = bits.length % 8 := by
  rw [unpacked, List.length_drop]
  omega

theorem packed_take_whole (bits : List Bool) :
    packed place (bits.take (8 * (bits.length / 8))) = packed place bits := by
  have hfull : (bits.take (8 * (bits.length / 8))).length =
      8 * (bits.length / 8) := by
    rw [List.length_take]
    omega
  have hnone : packed place (bits.drop (8 * (bits.length / 8))) = [] := by
    apply List.eq_nil_of_length_eq_zero
    rw [length_packed, ← unpacked, length_unpacked]
    omega
  conv_rhs => rw [← List.take_append_drop (8 * (bits.length / 8)) bits]
  rw [packed_append ⟨_, hfull⟩, hnone, List.append_nil]

theorem packed_concat_of_lt (place : ℕ → ℕ) {bits : List Bool}
    (h : bits.length % 8 < 7) (bit : Bool) :
    packed place (bits ++ [bit]) = packed place bits ∧
      unpacked (bits ++ [bit]) = unpacked bits ++ [bit] := by
  have hlen : (bits ++ [bit]).length / 8 = bits.length / 8 := by
    rw [List.length_append, List.length_singleton]
    omega
  constructor
  · rw [packed, hlen]
    apply List.map_congr_left
    intro j hj
    have hj := List.mem_range.mp hj
    have hroom : 8 ≤ (bits.drop (8 * j)).length := by
      rw [List.length_drop]
      omega
    rw [List.drop_append_of_le_length (by omega),
      List.take_append_of_le_length hroom]
  · rw [unpacked, hlen, List.drop_append_of_le_length (by omega)]
    rfl

theorem packed_concat_of_eq (place : ℕ → ℕ) {bits : List Bool}
    (h : bits.length % 8 = 7) (bit : Bool) :
    packed place (bits ++ [bit]) = packed place bits ++
        [UInt8.ofNat (placedBits place (unpacked bits ++ [bit]))] ∧
      unpacked (bits ++ [bit]) = [] := by
  have hfull : (bits.take (8 * (bits.length / 8))).length =
      8 * (bits.length / 8) := by
    rw [List.length_take]
    omega
  have hsplit : bits ++ [bit] = bits.take (8 * (bits.length / 8)) ++
      (unpacked bits ++ [bit]) := by
    rw [unpacked, ← List.append_assoc, List.take_append_drop]
  have hgroup : (unpacked bits ++ [bit]).length = 8 := by
    rw [List.length_append, length_unpacked, h, List.length_singleton]
  have hone : packed place (unpacked bits ++ [bit]) =
      [UInt8.ofNat (placedBits place (unpacked bits ++ [bit]))] := by
    rw [packed, hgroup]
    change [UInt8.ofNat (placedBits place
      ((List.drop 0 (unpacked bits ++ [bit])).take 8))] = _
    rw [List.drop_zero, List.take_of_length_le hgroup.le]
  constructor
  · rw [hsplit, packed_append ⟨_, hfull⟩, hone, packed_take_whole]
  · apply List.eq_nil_of_length_eq_zero
    rw [length_unpacked, List.length_append, List.length_singleton]
    omega

end ApexForensic.Support
