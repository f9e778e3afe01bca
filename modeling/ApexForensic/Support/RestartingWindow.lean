import Mathlib.Algebra.GroupWithZero.Nat
import Mathlib.Algebra.BigOperators.Group.List.Basic
import Mathlib.Algebra.Order.Group.Basic
import Mathlib.Algebra.Order.Group.Nat

/-!
# Windows that restart

A counter that starts again from zero bounds what is spent in every interval
as long as it restarts only when everything spent before is a whole width old.
Then no interval that is shorter than the width holds anything of two windows.
-/

namespace ApexForensic.Support.RestartingWindow

variable {T : Type} [LinearOrder T]

/-- What was spent from one time to another, both included. -/
def spent (start stop : T) (records : List (T × ℕ)) : ℕ :=
  ((records.filter fun r => start ≤ r.1 ∧ r.1 ≤ stop).map Prod.snd).sum

variable {records : List (T × ℕ)}

theorem spent_append (a b : T) (records records' : List (T × ℕ)) :
    spent a b (records ++ records') =
      spent a b records + spent a b records' := by
  rw [spent, List.filter_append, List.map_append, List.sum_append]
  rfl

theorem spent_singleton (a b t : T) (cost : ℕ) :
    spent a b [(t, cost)] = if a ≤ t ∧ t ≤ b then cost else 0 := by
  by_cases h : a ≤ t ∧ t ≤ b
  · rw [spent, List.filter_cons_of_pos (by simpa using h), if_pos h]
    simp
  · rw [spent, List.filter_cons_of_neg (by simpa using h), if_neg h]
    rfl

theorem spent_le_sum (a b : T) (records : List (T × ℕ)) :
    spent a b records ≤ (records.map Prod.snd).sum := by
  induction records with
  | nil => exact Nat.le_refl 0
  | cons r records ih =>
      rw [← List.singleton_append, spent_append, List.map_append,
        List.sum_append]
      refine Nat.add_le_add ?_ ih
      rw [← Prod.mk.eta (p := r), spent_singleton]
      split
      · simp
      · exact Nat.zero_le _

theorem spent_eq_zero {a b : T} (h : ∀ r ∈ records, ¬ (a ≤ r.1 ∧ r.1 ≤ b)) :
    spent a b records = 0 := by
  rw [spent, List.filter_eq_nil_iff.mpr fun r hr => by simpa using h r hr]
  rfl

variable [AddCommGroup T]

/-- The records are those of closed windows, all of them a width before the
open one started, and those that the open one has counted. -/
structure Counted (width : T) (limit : ℕ) (records : List (T × ℕ))
    (start : T) (total : ℕ) : Prop where
  bounded : ∀ a b, b - a < width → spent a b records ≤ limit
  split : ∃ closed counted, records = closed ++ counted ∧
    (∀ r ∈ closed, r.1 + width ≤ start) ∧
      (counted.map Prod.snd).sum ≤ total

variable {width : T} {limit total : ℕ} {start now : T}

theorem counted_nil (width start : T) (limit : ℕ) :
    Counted width limit [] start 0 where
  bounded _ _ _ := Nat.zero_le _
  split := ⟨[], [], rfl, nofun, Nat.le_refl 0⟩

/-- A window may start again when everything recorded is a width old. -/
theorem Counted.restart (h : Counted width limit records start total)
    (hold : ∀ r ∈ records, r.1 + width ≤ now) :
    Counted width limit records now 0 where
  bounded := h.bounded
  split := ⟨records, [], (List.append_nil records).symm, hold, Nat.le_refl 0⟩

variable [IsOrderedAddMonoid T]

theorem Counted.concat (h : Counted width limit records start total)
    (hstart : start ≤ now) {cost : ℕ} (hcost : total + cost ≤ limit) :
    Counted width limit (records ++ [(now, cost)]) start (total + cost) := by
  obtain ⟨closed, counted, rfl, hclosed, hsum⟩ := h.split
  constructor
  · intro a b hab
    rw [spent_append, spent_singleton]
    by_cases hin : a ≤ now ∧ now ≤ b
    · have hnone : spent a b closed = 0 := by
        refine spent_eq_zero fun r hr ⟨har, _⟩ => ?_
        -- the interval would reach from a closed window into the open one
        have hspan : a + width ≤ b :=
          (add_le_add_left har width).trans
            ((hclosed r hr).trans (hstart.trans hin.2))
        exact absurd hab (not_lt_of_ge (le_sub_iff_add_le'.mpr hspan))
      have hcounted := spent_le_sum a b counted
      rw [if_pos hin, spent_append, hnone]
      omega
    · rw [if_neg hin, Nat.add_zero]
      exact h.bounded a b hab
  · refine ⟨closed, counted ++ [(now, cost)], List.append_assoc _ _ _,
      hclosed, ?_⟩
    rw [List.map_append, List.sum_append]
    simpa using hsum

end ApexForensic.Support.RestartingWindow
