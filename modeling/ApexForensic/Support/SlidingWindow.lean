import Mathlib.Algebra.Order.Group.Defs
import Mathlib.Algebra.Order.Group.Basic
import Mathlib.Data.List.Induction
import Mathlib.Data.List.Basic
import Mathlib.Data.List.TakeWhile

/-!
# Sliding windows

A limiter keeps the times that its window still counts and admits one more
while they are fewer than its limit.  What follows from one admission after
the other holds of every window, wherever it starts.
-/

namespace ApexForensic.Support.SlidingWindow

variable {T : Type} [AddCommGroup T] [LinearOrder T]

/-- The times that the window which ends now still counts. -/
def recent (width now : T) (times : List T) : List T :=
  times.filter fun t => now - width < t

/-- The times in the window that starts at a time. -/
def startingAt (width start : T) (times : List T) : List T :=
  times.filter fun t => start ≤ t ∧ t < start + width

/-- Each time was recorded while its window held no more than the limit. -/
def Limited (width : T) (limit : ℕ) (times : List T) : Prop :=
  ∀ before t after, times = before ++ t :: after →
    (recent width t (before ++ [t])).length ≤ limit

variable {width now : T} {limit : ℕ} {times bucket : List T}

theorem limited_nil : Limited width limit [] := by
  intro before t after h
  simp at h

theorem Limited.concat (h : Limited width limit times) {t : T}
    (ht : (recent width t (times ++ [t])).length ≤ limit) :
    Limited width limit (times ++ [t]) := by
  intro before u after hsplit
  rcases after.eq_nil_or_concat with rfl | ⟨after', v, rfl⟩
  · obtain ⟨rfl, rfl⟩ := List.append_singleton_inj.mp hsplit
    exact ht
  · rw [List.concat_eq_append, ← List.cons_append, ← List.append_assoc] at hsplit
    exact h before u after' (List.append_inj' hsplit rfl).1

theorem Limited.of_concat {t : T} (h : Limited width limit (times ++ [t])) :
    Limited width limit times := by
  intro before u after hsplit
  refine h before u (after ++ [t]) ?_
  rw [hsplit, List.append_assoc, List.cons_append]

/-! ## What a limiter keeps -/

/-- The limiter has dropped only times that no window counts any more. -/
def Tracks (width now : T) (times bucket : List T) : Prop :=
  ∃ dropped, times = dropped ++ bucket ∧ ∀ t ∈ dropped, t ≤ now - width

theorem Tracks.self : Tracks width now times times :=
  ⟨[], rfl, nofun⟩

theorem Tracks.dropWhile (h : Tracks width now times bucket) :
    Tracks width now times (bucket.dropWhile (· ≤ now - width)) := by
  obtain ⟨dropped, rfl, hold⟩ := h
  refine ⟨dropped ++ bucket.takeWhile (· ≤ now - width), ?_, ?_⟩
  · rw [List.append_assoc, List.takeWhile_append_dropWhile]
  · intro t ht
    rcases List.mem_append.mp ht with hdropped | htaken
    · exact hold t hdropped
    · exact of_decide_eq_true (List.mem_takeWhile_imp
        (p := (· ≤ now - width)) htaken)

theorem Tracks.concat (h : Tracks width now times bucket) (t : T) :
    Tracks width now (times ++ [t]) (bucket ++ [t]) := by
  obtain ⟨dropped, rfl, hold⟩ := h
  exact ⟨dropped, List.append_assoc _ _ _, hold⟩

theorem Tracks.length_recent_le (h : Tracks width now times bucket) :
    (recent width now times).length ≤ bucket.length := by
  obtain ⟨dropped, rfl, hold⟩ := h
  have hnone : recent width now dropped = [] := by
    rw [recent, List.filter_eq_nil_iff]
    intro t ht
    simpa using hold t ht
  rw [recent] at hnone ⊢
  rw [List.filter_append, hnone, List.nil_append]
  exact List.length_filter_le _ _

theorem Tracks.le_of_nil (h : Tracks width now times []) :
    ∀ t ∈ times, t ≤ now - width := by
  obtain ⟨dropped, rfl, hold⟩ := h
  simpa using hold

/-- A record stays limited when a time is added to a bucket that holds fewer
than the limit. -/
theorem Limited.concat_of_tracks (h : Limited width limit times)
    (htracks : Tracks width now times bucket) (hlt : bucket.length < limit) :
    Limited width limit (times ++ [now]) := by
  refine h.concat ?_
  have hlength := htracks.length_recent_le
  have hlast : (recent width now [now]).length ≤ 1 := List.length_filter_le _ _
  rw [recent, List.filter_append, List.length_append]
  exact Nat.le_trans (Nat.add_le_add hlength hlast) hlt

variable [IsOrderedAddMonoid T]

theorem Tracks.later {now' : T} (h : Tracks width now times bucket)
    (hle : now ≤ now') : Tracks width now' times bucket := by
  obtain ⟨dropped, htimes, hold⟩ := h
  exact ⟨dropped, htimes, fun t ht =>
    (hold t ht).trans (sub_le_sub_right hle width)⟩

theorem Limited.length_startingAt_le (h : Limited width limit times)
    (start : T) : (startingAt width start times).length ≤ limit := by
  induction times using List.reverseRecOn with
  | nil => exact Nat.zero_le _
  | append_singleton times t ih =>
      by_cases hin : start ≤ t ∧ t < start + width
      · -- the last time ends a window that contains this one
        refine le_trans (List.Sublist.length_le ?_) (h times t [] rfl)
        refine List.monotone_filter_right _ fun u hu => ?_
        have hstart : start ≤ u := (of_decide_eq_true hu).1
        exact decide_eq_true ((sub_lt_iff_lt_add.mpr hin.2).trans_le hstart)
      · have hskip : startingAt width start (times ++ [t]) =
            startingAt width start times := by
          rw [startingAt, List.filter_append,
            List.filter_cons_of_neg (by simpa using hin), List.filter_nil,
            List.append_nil, startingAt]
        rw [hskip]
        exact ih h.of_concat

end ApexForensic.Support.SlidingWindow
