import Mathlib.Data.List.Nodup
import Mathlib.Data.Nat.Basic
import Mathlib.Order.Basic

/-!
# Walks along links

Each vertex links to at most one other.  A walk follows the links until there
is none, until it comes to a vertex it has visited, or until it has visited as
many vertices as it may.  Which of the three happens is a property of the
links alone.
-/

namespace ApexForensic.Support

inductive WalkStop where
  | ended
  | repeated
  | limited
  deriving DecidableEq

section Walk

variable {α : Type*} (next : α → Option α)

/-- The vertex some links behind a start. -/
def linked (start : α) : ℕ → Option α
  | 0 => some start
  | n + 1 => (linked start n).bind next

/-- The first links behind a start exist, and lead to different vertices. -/
def Fresh (start : α) (n : ℕ) : Prop :=
  (linked next start n).isSome ∧
    ∀ i j, i < j → j ≤ n → linked next start i ≠ linked next start j

/-- The vertices a walk visits from one on, and what ends it. -/
def walk [DecidableEq α] :
    (remaining : ℕ) → (visited : List α) → α → List α × WalkStop
  | remaining, visited, a =>
      if a ∈ visited then ([], .repeated)
      else
        match remaining with
        | 0 => ([], .limited)
        | remaining + 1 =>
            match next a with
            | none => ([a], .ended)
            | some b =>
                let rest := walk remaining (a :: visited) b
                (a :: rest.1, rest.2)

variable {next} {start : α}

theorem linked_isSome_of_le {m n : ℕ} (h : m ≤ n)
    (hn : (linked next start n).isSome) : (linked next start m).isSome := by
  induction h with
  | refl => exact hn
  | step _ ih =>
      apply ih
      rw [linked] at hn
      exact Option.isSome_of_isSome_bind hn

theorem linked_of_link {a b : α} (h : next a = some b) (n : ℕ) :
    linked next a (n + 1) = linked next b n := by
  induction n with
  | zero => exact h
  | succ n ih => rw [linked, ih, linked]

theorem linked_add {m n : ℕ} (k : ℕ)
    (h : linked next start m = linked next start n) :
    linked next start (m + k) = linked next start (n + k) := by
  induction k with
  | zero => exact h
  | succ k ih => rw [← Nat.add_assoc, ← Nat.add_assoc, linked, linked, ih]

theorem linked_isSome_of_repeated {i j : ℕ} (hij : i < j)
    (h : linked next start i = linked next start j)
    (hj : (linked next start j).isSome) (n : ℕ) :
    (linked next start n).isSome := by
  induction n using Nat.strong_induction_on with
  | _ n ih =>
    rcases le_or_gt n j with hle | hgt
    · exact linked_isSome_of_le hle hj
    · have hshift := linked_add (n - j) h
      rw [Nat.add_sub_cancel' hgt.le] at hshift
      rw [← hshift]
      exact ih (i + (n - j)) (by omega)

/-- What a walk that has visited some vertices has found out. -/
structure Walked (next : α → Option α) (start : α) (bound visits : ℕ)
    (stop : WalkStop) : Prop where
  le_bound : visits ≤ bound
  fresh : ∀ m < visits, Fresh next start m
  ended : stop = .ended → linked next start visits = none
  repeated : stop = .repeated → (linked next start visits).isSome ∧
    ∃ i < visits, linked next start i = linked next start visits
  limited : stop = .limited → visits = bound ∧ Fresh next start visits

namespace Walked

variable {bound visits : ℕ} {stop : WalkStop}

theorem ended_iff (h : Walked next start bound visits stop) :
    stop = .ended ↔ ∃ n ≤ bound, linked next start n = none := by
  constructor
  · intro hstop
    exact ⟨visits, h.le_bound, h.ended hstop⟩
  · rintro ⟨n, hn, hnone⟩
    cases stop with
    | ended => rfl
    | repeated =>
        obtain ⟨hsome, i, hi, heq⟩ := h.repeated rfl
        have := linked_isSome_of_repeated hi heq hsome n
        simp [hnone] at this
    | limited =>
        obtain ⟨rfl, hfresh⟩ := h.limited rfl
        have := linked_isSome_of_le hn hfresh.1
        simp [hnone] at this

theorem repeated_iff (h : Walked next start bound visits stop) :
    stop = .repeated ↔ ∃ i j, i < j ∧ j ≤ bound ∧
      (linked next start j).isSome ∧
        linked next start i = linked next start j := by
  constructor
  · intro hstop
    obtain ⟨hsome, i, hi, heq⟩ := h.repeated hstop
    exact ⟨i, visits, hi, h.le_bound, hsome, heq⟩
  · rintro ⟨i, j, hij, hj, hsome, heq⟩
    cases stop with
    | ended =>
        have := linked_isSome_of_repeated hij heq hsome visits
        simp [h.ended rfl] at this
    | repeated => rfl
    | limited =>
        obtain ⟨rfl, hfresh⟩ := h.limited rfl
        exact (hfresh.2 i j hij hj heq).elim

theorem limited_iff (h : Walked next start bound visits stop) :
    stop = .limited ↔ Fresh next start bound := by
  constructor
  · intro hstop
    obtain ⟨rfl, hfresh⟩ := h.limited hstop
    exact hfresh
  · intro hfresh
    cases stop with
    | ended =>
        have := linked_isSome_of_le h.le_bound hfresh.1
        simp [h.ended rfl] at this
    | repeated =>
        obtain ⟨-, i, hi, heq⟩ := h.repeated rfl
        exact (hfresh.2 i visits hi h.le_bound heq).elim
    | limited => rfl

/-- A walk visits all vertices it may before the first that is none or was
visited. -/
theorem lt_visits_iff (h : Walked next start bound visits stop) (n : ℕ) :
    n < visits ↔ n < bound ∧ Fresh next start n := by
  constructor
  · intro hn
    exact ⟨hn.trans_le h.le_bound, h.fresh n hn⟩
  · rintro ⟨hn, hfresh⟩
    by_contra hnot
    have hle : visits ≤ n := not_lt.mp hnot
    cases stop with
    | ended =>
        have := linked_isSome_of_le hle hfresh.1
        simp [h.ended rfl] at this
    | repeated =>
        obtain ⟨-, i, hi, heq⟩ := h.repeated rfl
        exact hfresh.2 i visits hi hle heq
    | limited =>
        obtain ⟨rfl, -⟩ := h.limited rfl
        omega

end Walked

theorem fresh_of_not_mem {n : ℕ} {visited : List α} {a : α}
    (ha : linked next start n = some a)
    (hvisited : ∀ v, v ∈ visited ↔ ∃ i < n, linked next start i = some v)
    (hfresh : ∀ m < n, Fresh next start m) (hnew : a ∉ visited) :
    Fresh next start n := by
  refine ⟨by rw [ha]; rfl, fun i j hij hj heq => ?_⟩
  rcases hj.lt_or_eq with hlt | rfl
  · exact (hfresh j hlt).2 i j hij le_rfl heq
  · exact hnew ((hvisited a).mpr ⟨i, hij, heq.trans ha⟩)

section Run

variable [DecidableEq α]

variable (next start) in
theorem walk_spec_from {bound n : ℕ} (hn : n ≤ bound) (visited : List α)
    {a : α} (ha : linked next start n = some a)
    (hvisited : ∀ v, v ∈ visited ↔ ∃ i < n, linked next start i = some v)
    (hfresh : ∀ m < n, Fresh next start m) :
    Walked next start bound (n + (walk next (bound - n) visited a).1.length)
        (walk next (bound - n) visited a).2 ∧
      ∀ i < (walk next (bound - n) visited a).1.length,
        (walk next (bound - n) visited a).1[i]? =
          linked next start (n + i) := by
  induction hleft : bound - n generalizing n visited a with
  | zero =>
      rw [walk]
      by_cases hmem : a ∈ visited
      · rw [if_pos hmem]
        obtain ⟨i, hi, heq⟩ := (hvisited a).mp hmem
        exact ⟨⟨hn, hfresh, nofun,
          fun _ => ⟨by simp [ha], i, hi, heq.trans ha.symm⟩, nofun⟩, nofun⟩
      · rw [if_neg hmem]
        have heq : n = bound := by omega
        exact ⟨⟨hn, hfresh, nofun, nofun,
          fun _ => ⟨heq, fresh_of_not_mem ha hvisited hfresh hmem⟩⟩, nofun⟩
  | succ left ih =>
      rw [walk]
      by_cases hmem : a ∈ visited
      · rw [if_pos hmem]
        obtain ⟨i, hi, heq⟩ := (hvisited a).mp hmem
        exact ⟨⟨hn, hfresh, nofun,
          fun _ => ⟨by simp [ha], i, hi, heq.trans ha.symm⟩, nofun⟩, nofun⟩
      · have hnew := fresh_of_not_mem ha hvisited hfresh hmem
        have hfresh' : ∀ m < n + 1, Fresh next start m := by
          intro m hm
          rcases (Nat.lt_succ_iff.mp hm).lt_or_eq with hlt | rfl
          · exact hfresh m hlt
          · exact hnew
        rw [if_neg hmem]
        rcases hnext : next a with _ | b
        · have hend : linked next start (n + 1) = none := by
            rw [linked, ha, Option.bind_some, hnext]
          refine ⟨⟨by simp only [List.length_singleton]; omega, hfresh',
            fun _ => hend, nofun, nofun⟩, fun i hi => ?_⟩
          obtain rfl : i = 0 := by simpa using hi
          exact ha.symm
        · have hb : linked next start (n + 1) = some b := by
            rw [linked, ha, Option.bind_some, hnext]
          have hvisited' : ∀ v, v ∈ a :: visited ↔
              ∃ i < n + 1, linked next start i = some v := by
            intro v
            rw [List.mem_cons, hvisited]
            constructor
            · rintro (rfl | ⟨i, hi, heq⟩)
              · exact ⟨n, n.lt_succ_self, ha⟩
              · exact ⟨i, hi.trans n.lt_succ_self, heq⟩
            · rintro ⟨i, hi, heq⟩
              rcases (Nat.lt_succ_iff.mp hi).lt_or_eq with hlt | rfl
              · exact Or.inr ⟨i, hlt, heq⟩
              · exact Or.inl (Option.some.inj (heq.symm.trans ha))
          obtain ⟨hwalked, hpath⟩ :=
            ih (by omega) (a :: visited) hb hvisited' hfresh' (by omega)
          refine ⟨?_, fun i hi => ?_⟩
          · simpa [Nat.add_assoc, Nat.add_comm 1] using hwalked
          · cases i with
            | zero => exact ha.symm
            | succ i =>
                have := hpath i (by simpa using hi)
                simpa [Nat.add_assoc, Nat.add_comm 1] using this

variable (next) in
theorem walk_spec (bound : ℕ) (start : α) :
    Walked next start bound (walk next bound [] start).1.length
        (walk next bound [] start).2 ∧
      ∀ i < (walk next bound [] start).1.length,
        (walk next bound [] start).1[i]? = linked next start i := by
  have h := walk_spec_from next start (Nat.zero_le bound) [] rfl (by simp)
    (by simp)
  simpa using h

end Run

end Walk

end ApexForensic.Support
