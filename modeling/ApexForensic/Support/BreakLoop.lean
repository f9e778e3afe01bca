import Mathlib.Algebra.Order.Group.Nat
import Mathlib.Data.List.Basic

/-!
# Loops that stop at a quota

A `for` loop whose body begins with `if stop: break`.  When its state is
determined by the items consumed so far and the loop stops once a quota of
them is reached, the loop consumes exactly the items up to the quota.  A loop
of this form is again a body of this form, so that nested loops are read off
one at a time.
-/

namespace ApexForensic.Support

variable {α β σ ε : Type}

/-- `for x in xs: if stop(s): break; s = body(s, x)` -/
def breakLoop (stop : σ → Bool) (body : σ → α → Except ε σ) :
    σ → List α → Except ε σ
  | s, [] => .ok s
  | s, x :: xs =>
      if stop s then .ok s
      else do
        let next ← body s x
        breakLoop stop body next xs

variable {stop : σ → Bool} {body : σ → α → Except ε σ}

theorem breakLoop_of_stop {s : σ} (h : stop s = true) (xs : List α) :
    breakLoop stop body s xs = .ok s := by
  cases xs with
  | nil => rfl
  | cons x xs => rw [breakLoop, if_pos h]

theorem breakLoop_eq_of_quota (state : List β → σ) (emit : α → List β)
    (wanted : ℕ) {xs : List α}
    (hstop : ∀ seen, stop (state seen) = decide (wanted ≤ seen.length))
    (hbody : ∀ x ∈ xs, ∀ seen : List β, seen.length < wanted →
      body (state seen) x =
        .ok (state (seen ++ (emit x).take (wanted - seen.length))))
    (seen : List β) :
    breakLoop stop body (state seen) xs =
      .ok (state (seen ++ (xs.flatMap emit).take (wanted - seen.length))) := by
  induction xs generalizing seen with
  | nil => rw [breakLoop, List.flatMap_nil, List.take_nil, List.append_nil]
  | cons x xs ih =>
      by_cases h : wanted ≤ seen.length
      · rw [breakLoop_of_stop (by rw [hstop, decide_eq_true h]),
          Nat.sub_eq_zero_of_le h, List.take_zero, List.append_nil]
      · have hgo : stop (state seen) = false := by
          rw [hstop, decide_eq_false h]
        rw [breakLoop, if_neg (by rw [hgo]; exact Bool.false_ne_true),
          hbody x List.mem_cons_self seen (Nat.lt_of_not_le h)]
        change breakLoop stop body _ xs = _
        rw [ih fun y hy => hbody y (List.mem_cons_of_mem x hy),
          List.flatMap_cons, List.take_append, List.append_assoc,
          List.length_append, List.length_take]
        -- what is left of the quota when it is reached inside the item is none
        rcases Nat.le_total (wanted - seen.length) (emit x).length with hx | hx
        · rw [Nat.min_eq_left hx, Nat.sub_eq_zero_of_le hx,
            show wanted - (seen.length + (wanted - seen.length)) = 0 by omega]
        · rw [Nat.min_eq_right hx, Nat.sub_add_eq]

end ApexForensic.Support
