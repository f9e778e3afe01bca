import Mathlib.Data.Int.Log
import Mathlib.Data.Rat.Floor
import Mathlib.Tactic.Positivity

/-!
# True division of naturals

Dividing two integers gives the double nearest to the exact quotient, ties
going to the even significand.  Doubles are represented by the rationals they
denote; the exponent range is not bounded, as no quotient here comes near its
ends.  Rounding never crosses an integer up to `2 ^ 53`, which is what the
callers of `ceilTrueDiv` rely on.
-/

namespace ApexForensic.Support

variable {a b n : ℕ} {x : ℚ}

/-- The integer nearest to `x`, the even one when two are equally near. -/
def roundHalfEven (x : ℚ) : ℤ :=
  if x - ⌊x⌋ < 1 / 2 then ⌊x⌋
  else if 1 / 2 < x - ⌊x⌋ then ⌊x⌋ + 1
  else ⌊x⌋ + ⌊x⌋ % 2

/-- The unit in the last place of a double of the magnitude of `x`. -/
def ulp (x : ℚ) : ℚ :=
  2 ^ (Int.log 2 x - 52)

/-- The double nearest to a nonnegative rational. -/
def nearestDouble (x : ℚ) : ℚ :=
  roundHalfEven (x / ulp x) * ulp x

/-- The double that true division of two naturals returns. -/
def trueDiv (a b : ℕ) : ℚ :=
  nearestDouble (a / b)

/-- The least integer above the double that true division returns. -/
def ceilTrueDiv (a b : ℕ) : ℕ :=
  ⌈trueDiv a b⌉₊

/-! ## Rounding does not cross an integer -/

theorem le_roundHalfEven {n : ℤ} (h : (n : ℚ) ≤ x) : n ≤ roundHalfEven x := by
  have hfloor : n ≤ ⌊x⌋ := Int.le_floor.mpr h
  unfold roundHalfEven
  split_ifs <;> omega

theorem roundHalfEven_le {n : ℤ} (h : x ≤ (n : ℚ)) : roundHalfEven x ≤ n := by
  have hfloor : ⌊x⌋ ≤ n := by
    have := (Int.floor_le x).trans h
    exact_mod_cast this
  unfold roundHalfEven
  split_ifs with hlow
  · exact hfloor
  all_goals
    have hne : ⌊x⌋ ≠ n := by
      rintro rfl
      exact hlow (by linarith)
    omega

theorem ulp_pos (x : ℚ) : 0 < ulp x :=
  zpow_pos (by norm_num) _

theorem mul_ulp_le_nearestDouble {m : ℤ} (h : (m : ℚ) * ulp x ≤ x) :
    (m : ℚ) * ulp x ≤ nearestDouble x := by
  have hm : m ≤ roundHalfEven (x / ulp x) :=
    le_roundHalfEven ((le_div_iff₀ (ulp_pos x)).mpr h)
  exact mul_le_mul_of_nonneg_right (by exact_mod_cast hm) (ulp_pos x).le

theorem nearestDouble_le_mul_ulp {m : ℤ} (h : x ≤ (m : ℚ) * ulp x) :
    nearestDouble x ≤ (m : ℚ) * ulp x := by
  have hm : roundHalfEven (x / ulp x) ≤ m :=
    roundHalfEven_le ((div_le_iff₀ (ulp_pos x)).mpr h)
  exact mul_le_mul_of_nonneg_right (by exact_mod_cast hm) (ulp_pos x).le

/-- Up to `2 ^ 53` every integer is a multiple of the unit in the last
place. -/
theorem multiple_of_ulp (hlog : Int.log 2 x ≤ 52) (n : ℕ) :
    ∃ m : ℤ, (m : ℚ) * ulp x = n := by
  obtain ⟨k, hk⟩ : ∃ k : ℕ, 52 - Int.log 2 x = k :=
    ⟨(52 - Int.log 2 x).toNat, by omega⟩
  refine ⟨n * 2 ^ k, ?_⟩
  have hulp : ulp x = (2 ^ k)⁻¹ := by
    rw [ulp, show Int.log 2 x - 52 = -(k : ℤ) by omega, zpow_neg, zpow_natCast]
  rw [hulp]
  push_cast
  field_simp

theorem zpow_log_le (hlog : 52 < Int.log 2 x) : (2 : ℚ) ^ Int.log 2 x ≤ x := by
  have hx : 0 < x := by
    by_contra hx
    rw [Int.log_of_right_le_zero 2 (not_lt.mp hx)] at hlog
    omega
  exact_mod_cast Int.zpow_log_le_self (b := 2) (by omega) hx

theorem two_pow_le_zpow_log (hlog : 52 < Int.log 2 x) :
    (2 : ℚ) ^ 53 ≤ 2 ^ Int.log 2 x := by
  rw [← zpow_natCast]
  exact zpow_le_zpow_right₀ (by norm_num) (by omega)

theorem two_pow_mul_ulp (x : ℚ) :
    ((2 ^ 52 : ℤ) : ℚ) * ulp x = 2 ^ Int.log 2 x := by
  rw [ulp, zpow_sub₀ (by norm_num)]
  push_cast
  field_simp

theorem natCast_le_nearestDouble (hn : n ≤ 2 ^ 53) (h : (n : ℚ) ≤ x) :
    (n : ℚ) ≤ nearestDouble x := by
  rcases le_or_gt (Int.log 2 x) 52 with hlog | hlog
  · obtain ⟨m, hm⟩ := multiple_of_ulp hlog n
    rw [← hm] at h ⊢
    exact mul_ulp_le_nearestDouble h
  · have hcast : (n : ℚ) ≤ 2 ^ 53 := by exact_mod_cast hn
    have hlow : ((2 ^ 52 : ℤ) : ℚ) * ulp x ≤ x := by
      rw [two_pow_mul_ulp]
      exact zpow_log_le hlog
    calc
      (n : ℚ) ≤ 2 ^ Int.log 2 x := hcast.trans (two_pow_le_zpow_log hlog)
      _ = ((2 ^ 52 : ℤ) : ℚ) * ulp x := (two_pow_mul_ulp x).symm
      _ ≤ nearestDouble x := mul_ulp_le_nearestDouble hlow

theorem nearestDouble_le_natCast (hn : n ≤ 2 ^ 53) (h : x ≤ (n : ℚ)) :
    nearestDouble x ≤ n := by
  rcases le_or_gt (Int.log 2 x) 52 with hlog | hlog
  · obtain ⟨m, hm⟩ := multiple_of_ulp hlog n
    rw [← hm] at h ⊢
    exact nearestDouble_le_mul_ulp h
  · -- past the exact range only `x = n = 2 ^ 53` is left
    have hcast : (n : ℚ) ≤ 2 ^ 53 := by exact_mod_cast hn
    have hlow := two_pow_le_zpow_log hlog
    have hx := zpow_log_le hlog
    have hle : x ≤ ((2 ^ 52 : ℤ) : ℚ) * ulp x := by
      rw [two_pow_mul_ulp]
      linarith
    calc
      nearestDouble x ≤ ((2 ^ 52 : ℤ) : ℚ) * ulp x :=
        nearestDouble_le_mul_ulp hle
      _ = 2 ^ Int.log 2 x := two_pow_mul_ulp x
      _ ≤ n := hx.trans h

theorem nearestDouble_le_two_pow {k : ℕ} (h : x ≤ 2 ^ k) :
    nearestDouble x ≤ 2 ^ k := by
  have hlog : Int.log 2 x ≤ k := by
    rcases le_or_gt x 0 with hx | hx
    · rw [Int.log_of_right_le_zero 2 hx]
      omega
    · have hmono := Int.log_mono_right (b := 2) hx h
      have hpow := Int.log_zpow (R := ℚ) (b := 2) (by omega) (k : ℤ)
      rw [zpow_natCast] at hpow
      push_cast at hpow
      omega
  obtain ⟨j, hj⟩ : ∃ j : ℕ, (k : ℤ) - (Int.log 2 x - 52) = j :=
    ⟨((k : ℤ) - (Int.log 2 x - 52)).toNat, by omega⟩
  have hmul : ((2 ^ j : ℤ) : ℚ) * ulp x = 2 ^ k := by
    rw [ulp]
    push_cast
    rw [← zpow_natCast 2 j, ← zpow_natCast 2 k, ← zpow_add₀ (by norm_num)]
    congr 1
    omega
  rw [← hmul] at h ⊢
  exact nearestDouble_le_mul_ulp h

/-! ## Consequences for the rounded-up quotient -/

theorem le_ceilTrueDiv (hb : 0 < b) (hn : n ≤ 2 ^ 53) (h : n * b ≤ a) :
    n ≤ ceilTrueDiv a b := by
  have hq : (n : ℚ) ≤ a / b := by
    rw [le_div_iff₀ (by exact_mod_cast hb)]
    exact_mod_cast h
  have hle := (natCast_le_nearestDouble hn hq).trans (Nat.le_ceil (trueDiv a b))
  exact_mod_cast hle

theorem ceilTrueDiv_le (hb : 0 < b) (hn : n ≤ 2 ^ 53) (h : a ≤ n * b) :
    ceilTrueDiv a b ≤ n := by
  have hq : (a : ℚ) / b ≤ n := by
    rw [div_le_iff₀ (by exact_mod_cast hb)]
    exact_mod_cast h
  exact Nat.ceil_le.mpr (nearestDouble_le_natCast hn hq)

theorem ceilTrueDiv_le_two_pow {k : ℕ} (hb : 0 < b) (h : a ≤ 2 ^ k * b) :
    ceilTrueDiv a b ≤ 2 ^ k := by
  have hq : (a : ℚ) / b ≤ 2 ^ k := by
    rw [div_le_iff₀ (by exact_mod_cast hb)]
    exact_mod_cast h
  refine Nat.ceil_le.mpr ?_
  push_cast
  exact nearestDouble_le_two_pow hq

theorem ceilTrueDiv_pos (ha : 0 < a) (hb : 0 < b) : 0 < ceilTrueDiv a b := by
  have hq : (0 : ℚ) < a / b :=
    div_pos (by exact_mod_cast ha) (by exact_mod_cast hb)
  have hlow : ((2 ^ 52 : ℤ) : ℚ) * ulp ((a : ℚ) / b) ≤ a / b := by
    rw [two_pow_mul_ulp]
    exact_mod_cast Int.zpow_log_le_self (b := 2) (by omega) hq
  have hpos : (0 : ℚ) < ((2 ^ 52 : ℤ) : ℚ) * ulp ((a : ℚ) / b) :=
    mul_pos (by norm_num) (ulp_pos _)
  exact Nat.ceil_pos.mpr (hpos.trans_le (mul_ulp_le_nearestDouble hlow))

/-- A quotient that is an integer up to `2 ^ 53` is exact. -/
theorem ceilTrueDiv_mul (hb : 0 < b) (hn : n ≤ 2 ^ 53) :
    ceilTrueDiv (n * b) b = n :=
  le_antisymm (ceilTrueDiv_le hb hn le_rfl) (le_ceilTrueDiv hb hn le_rfl)

end ApexForensic.Support
