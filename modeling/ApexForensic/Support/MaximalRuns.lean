import Mathlib.Data.List.Pairwise
import Mathlib.Order.Basic
import Mathlib.Data.Nat.Basic
import Mathlib.Tactic.Common

/-!
# Maximal runs

One pass over a sequence of flags that keeps the start of the run it is in
finds exactly the maximal runs of set flags, in order.  Runs are half-open
intervals of indices.
-/

namespace ApexForensic.Support

/-- A run that no set flag extends on either side. -/
structure IsMaximalRun (p : ℕ → Bool) (count : ℕ) (run : ℕ × ℕ) : Prop where
  nonempty : run.1 < run.2
  le_count : run.2 ≤ count
  flags : ∀ i, run.1 ≤ i → i < run.2 → p i = true
  left : run.1 = 0 ∨ p (run.1 - 1) = false
  right : run.2 = count ∨ p run.2 = false

/-- Where the pass is: the start of the run that is open, and the runs it has
closed. -/
structure RunPass where
  start : Option ℕ
  closed : List (ℕ × ℕ)

namespace RunPass

def initial : RunPass := ⟨none, []⟩

/-- The pass after one flag. -/
def next (pass : RunPass) (index : ℕ) (flag : Bool) : RunPass :=
  if flag then ⟨some (pass.start.getD index), pass.closed⟩
  else
    match pass.start with
    | some start => ⟨none, pass.closed ++ [(start, index)]⟩
    | none => pass

/-- The runs when the pass ends at an index. -/
def finish (pass : RunPass) (count : ℕ) : List (ℕ × ℕ) :=
  match pass.start with
  | some start => pass.closed ++ [(start, count)]
  | none => pass.closed

/-- The pass over the flags before an index. -/
def upTo (p : ℕ → Bool) : ℕ → RunPass
  | 0 => initial
  | n + 1 => (upTo p n).next n (p n)

end RunPass

/-- The runs that the pass finds. -/
def maximalRuns (p : ℕ → Bool) (count : ℕ) : List (ℕ × ℕ) :=
  (RunPass.upTo p count).finish count

variable {p : ℕ → Bool} {n : ℕ}

/-- The open run reaches the flags seen last, and begins where it can. -/
structure OpenRun (p : ℕ → Bool) (n start : ℕ) : Prop where
  lt : start < n
  flags : ∀ i, start ≤ i → i < n → p i = true
  left : start = 0 ∨ p (start - 1) = false

structure RunPassInvariant (p : ℕ → Bool) (n : ℕ) (pass : RunPass) :
    Prop where
  opened : ∀ start, pass.start = some start → OpenRun p n start
  idle : pass.start = none → n = 0 ∨ p (n - 1) = false
  closed : ∀ run ∈ pass.closed,
    IsMaximalRun p n run ∧ run.2 < n ∧ p run.2 = false
  before : ∀ start, pass.start = some start →
    ∀ run ∈ pass.closed, run.2 < start
  ordered : pass.closed.Pairwise fun run run' => run.2 < run'.1
  complete : ∀ i < n, p i = true →
    (∃ run ∈ pass.closed, run.1 ≤ i ∧ i < run.2) ∨
      ∃ start, pass.start = some start ∧ start ≤ i

theorem IsMaximalRun.extend {run : ℕ × ℕ} (h : IsMaximalRun p n run)
    (hright : p run.2 = false) {m : ℕ} (hle : run.2 ≤ m) :
    IsMaximalRun p m run :=
  ⟨h.nonempty, hle, h.flags, h.left, Or.inr hright⟩

theorem RunPassInvariant.closed_succ {pass : RunPass}
    (h : RunPassInvariant p n pass) :
    ∀ run ∈ pass.closed,
      IsMaximalRun p (n + 1) run ∧ run.2 < n + 1 ∧ p run.2 = false := by
  intro run hrun
  obtain ⟨hmax, hlt, hright⟩ := h.closed run hrun
  exact ⟨hmax.extend hright (by omega), by omega, hright⟩

theorem RunPassInvariant.next {pass : RunPass} (h : RunPassInvariant p n pass) :
    RunPassInvariant p (n + 1) (pass.next n (p n)) := by
  rw [RunPass.next]
  cases hflag : p n with
  | true =>
      rw [if_pos rfl]
      cases hstart : pass.start with
      | none =>
          -- a run starts here
          refine ⟨?_, nofun, h.closed_succ, ?_, h.ordered, ?_⟩
          · rintro start ⟨⟩
            refine ⟨Nat.lt_succ_self n, fun i hle hlt => ?_, ?_⟩
            · rwa [le_antisymm (Nat.le_of_lt_succ hlt) hle]
            · exact (h.idle hstart).imp id id
          · rintro start ⟨⟩ run hrun
            exact (h.closed run hrun).2.1
          · intro i hi hset
            by_cases hn : i = n
            · exact Or.inr ⟨n, rfl, hn.ge⟩
            · rcases h.complete i (by omega) hset with hold | ⟨start, hs, -⟩
              · exact Or.inl hold
              · rw [hstart] at hs
                cases hs
      | some start =>
          -- the open run goes on
          have hopen := h.opened start hstart
          refine ⟨?_, nofun, h.closed_succ, ?_, h.ordered, ?_⟩
          · rintro start' ⟨⟩
            refine ⟨hopen.lt.trans (Nat.lt_succ_self n), fun i hle hlt => ?_,
              hopen.left⟩
            by_cases hn : i = n
            · rwa [hn]
            · exact hopen.flags i hle (by omega)
          · rintro start' ⟨⟩ run hrun
            exact h.before start hstart run hrun
          · intro i hi hset
            by_cases hn : i = n
            · exact Or.inr ⟨start, rfl, by have := hopen.lt; omega⟩
            · rcases h.complete i (by omega) hset with hold | ⟨s, hs, hle⟩
              · exact Or.inl hold
              · rw [hstart] at hs
                obtain rfl := Option.some.inj hs
                exact Or.inr ⟨start, rfl, hle⟩
  | false =>
      rw [if_neg (by simp)]
      cases hstart : pass.start with
      | none =>
          dsimp only
          refine ⟨?_, fun _ => Or.inr hflag, h.closed_succ, ?_, h.ordered, ?_⟩
          · rw [hstart]
            nofun
          · rw [hstart]
            nofun
          · intro i hi hset
            have hn : i ≠ n := fun heq => by simp [heq, hflag] at hset
            exact h.complete i (by omega) hset
      | some start =>
          -- the open run ends before this flag
          have hopen := h.opened start hstart
          have hrun : IsMaximalRun p (n + 1) (start, n) :=
            ⟨hopen.lt, Nat.le_succ n, hopen.flags, hopen.left, Or.inr hflag⟩
          refine ⟨nofun, fun _ => Or.inr hflag, ?_, nofun, ?_, ?_⟩
          · intro run hmem
            rcases List.mem_append.mp hmem with hold | hnew
            · exact h.closed_succ run hold
            · rw [List.mem_singleton.mp hnew]
              exact ⟨hrun, Nat.lt_succ_self n, hflag⟩
          · refine List.pairwise_append.mpr ⟨h.ordered,
              List.pairwise_singleton _ _, fun run hold run' hnew => ?_⟩
            rw [List.mem_singleton.mp hnew]
            exact h.before start hstart run hold
          · intro i hi hset
            have hn : i ≠ n := fun heq => by simp [heq, hflag] at hset
            refine Or.inl ?_
            rcases h.complete i (by omega) hset with ⟨run, hold, hin⟩ |
              ⟨s, hs, hle⟩
            · exact ⟨run, List.mem_append_left _ hold, hin⟩
            · rw [hstart] at hs
              obtain rfl := Option.some.inj hs
              exact ⟨(start, n), List.mem_append_right _
                (List.mem_singleton.mpr rfl), hle, by dsimp only; omega⟩

theorem runPassInvariant_upTo (p : ℕ → Bool) (n : ℕ) :
    RunPassInvariant p n (RunPass.upTo p n) := by
  induction n with
  | zero =>
      refine ⟨nofun, fun _ => Or.inl rfl, nofun, nofun, List.Pairwise.nil, ?_⟩
      intro i hi
      exact absurd hi (Nat.not_lt_zero i)
  | succ n ih => exact ih.next

theorem isMaximalRun_of_mem {run : ℕ × ℕ} (h : run ∈ maximalRuns p n) :
    IsMaximalRun p n run := by
  have hinv := runPassInvariant_upTo p n
  rw [maximalRuns, RunPass.finish] at h
  split at h
  · rename_i start hstart
    have hopen := hinv.opened start hstart
    rcases List.mem_append.mp h with hold | hnew
    · exact (hinv.closed run hold).1
    · rw [List.mem_singleton.mp hnew]
      exact ⟨hopen.lt, le_rfl, hopen.flags, hopen.left, Or.inl rfl⟩
  · exact (hinv.closed run h).1

theorem maximalRuns_pairwise (p : ℕ → Bool) (n : ℕ) :
    (maximalRuns p n).Pairwise fun run run' => run.2 < run'.1 := by
  have hinv := runPassInvariant_upTo p n
  rw [maximalRuns, RunPass.finish]
  split
  · rename_i start hstart
    refine List.pairwise_append.mpr ⟨hinv.ordered, List.pairwise_singleton _ _,
      fun run hold run' hnew => ?_⟩
    rw [List.mem_singleton.mp hnew]
    exact hinv.before start hstart run hold
  · exact hinv.ordered

theorem exists_mem_maximalRuns_iff {i : ℕ} :
    (∃ run ∈ maximalRuns p n, run.1 ≤ i ∧ i < run.2) ↔ i < n ∧ p i = true := by
  have hinv := runPassInvariant_upTo p n
  constructor
  · rintro ⟨run, hrun, hle, hlt⟩
    have hmax := isMaximalRun_of_mem hrun
    exact ⟨hlt.trans_le hmax.le_count, hmax.flags i hle hlt⟩
  · rintro ⟨hi, hset⟩
    rw [maximalRuns, RunPass.finish]
    rcases hinv.complete i hi hset with ⟨run, hold, hin⟩ | ⟨start, hs, hle⟩
    · split
      · exact ⟨run, List.mem_append_left _ hold, hin⟩
      · exact ⟨run, hold, hin⟩
    · rw [hs]
      exact ⟨(start, n), List.mem_append_right _ (List.mem_singleton.mpr rfl),
        hle, hi⟩

theorem mem_maximalRuns_iff {run : ℕ × ℕ} :
    run ∈ maximalRuns p n ↔ IsMaximalRun p n run := by
  refine ⟨isMaximalRun_of_mem, fun h => ?_⟩
  have hfirst : run.1 < n ∧ p run.1 = true :=
    ⟨h.nonempty.trans_le h.le_count, h.flags _ le_rfl h.nonempty⟩
  obtain ⟨run', hmem, hle, hlt⟩ := exists_mem_maximalRuns_iff.mpr hfirst
  have h' := isMaximalRun_of_mem hmem
  have hstart : run'.1 = run.1 := by
    rcases h.left with hzero | hclear
    · omega
    · by_contra hne
      have hset := h'.flags (run.1 - 1) (by omega) (by omega)
      simp [hclear] at hset
  have hstop : run'.2 = run.2 := by
    rcases lt_trichotomy run'.2 run.2 with hless | heq | hmore
    · rcases h'.right with hcount | hclear
      · have hbound := h.le_count
        omega
      · have hset := h.flags run'.2 (by omega) hless
        simp [hclear] at hset
    · exact heq
    · rcases h.right with hcount | hclear
      · have hbound := h'.le_count
        omega
      · have hset := h'.flags run.2 (by have := h.nonempty; omega) hmore
        simp [hclear] at hset
  rwa [← Prod.ext hstart hstop]

end ApexForensic.Support
