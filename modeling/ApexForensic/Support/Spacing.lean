import Mathlib.Algebra.Order.Field.Basic
import Mathlib.Algebra.Order.Floor.Semiring
import Mathlib.Data.List.Pairwise
import Mathlib.Tactic.Linarith

/-!
# Times that keep a distance

Times any two of which are a given distance apart cannot be many in a span:
their number there is bounded by the length of the span alone.
-/

namespace ApexForensic.Support

variable {K : Type} [Field K] [LinearOrder K]

/-- Each time is at least a distance after the ones before it. -/
def Spaced (d : K) (times : List K) : Prop :=
  times.Pairwise fun s t => s + d ≤ t

variable {d a b : K} {times : List K}

theorem Spaced.filter (h : Spaced d times) (p : K → Bool) :
    Spaced d (times.filter p) :=
  List.Pairwise.filter p h

theorem Spaced.concat (h : Spaced d times) {t : K}
    (ht : ∀ s ∈ times, s + d ≤ t) : Spaced d (times ++ [t]) := by
  refine List.pairwise_append.mpr ⟨h, List.pairwise_singleton _ _, ?_⟩
  intro s hs u hu
  rw [List.mem_singleton.mp hu]
  exact ht s hs

variable [IsStrictOrderedRing K]

theorem Spaced.length_mul_le (h : Spaced d times) (hne : times ≠ [])
    (hspan : ∀ t ∈ times, a ≤ t ∧ t ≤ b) :
    ((times.length : K) - 1) * d ≤ b - a := by
  induction times generalizing a with
  | nil => exact absurd rfl hne
  | cons s times ih =>
      obtain ⟨has, hsb⟩ := hspan s List.mem_cons_self
      cases times with
      | nil =>
          simp only [List.length_singleton, Nat.cast_one, sub_self, zero_mul]
          linarith
      | cons t rest =>
          obtain ⟨hs, hrest⟩ := List.pairwise_cons.mp h
          have hlater : ∀ u ∈ t :: rest, s + d ≤ u ∧ u ≤ b := fun u hu =>
            ⟨hs u hu, (hspan u (List.mem_cons_of_mem s hu)).2⟩
          have hle := ih hrest (List.cons_ne_nil t rest) hlater
          rw [List.length_cons, Nat.cast_add, Nat.cast_one]
          linarith

variable [FloorSemiring K]

theorem Spaced.length_le (hd : 0 < d) (h : Spaced d times)
    (hspan : ∀ t ∈ times, a ≤ t ∧ t ≤ b) :
    times.length ≤ ⌊(b - a) / d⌋₊ + 1 := by
  rcases times with _ | ⟨t, rest⟩
  · exact Nat.zero_le _
  · have hle := h.length_mul_le (List.cons_ne_nil t rest) hspan
    rw [List.length_cons, Nat.cast_add, Nat.cast_one, add_sub_cancel_right]
      at hle
    rw [List.length_cons]
    refine Nat.succ_le_succ (Nat.le_floor ?_)
    exact (le_div_iff₀ hd).mpr hle

end ApexForensic.Support
