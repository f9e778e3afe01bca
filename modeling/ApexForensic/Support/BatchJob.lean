import Mathlib.Data.String.Basic
import ApexForensic.Support.Keyset

/-!
# Jobs that work through ordered rows batch by batch

A job reads the rows after its position, at most a batch of them, works on
them and saves its position and counters, until no rows are left.  It stops
between two batches when it is asked to, or when its budget is used up.  The
rows may come from several tables that are read one after another.
-/

namespace ApexForensic.Support

/-! ## Reading several tables one after another -/

section Tables

variable {ρ κ : Type*} (text : κ → String)
  (read : κ → Option String → ℕ → List ρ)

/-- The rows of one more table, when the limit leaves room for them: all
tables before that of the position are passed over, and that table is read
after the id of the position. -/
def extendRows (after : Option (String × String)) (limit : ℕ) (rows : List ρ)
    (k : κ) : List ρ :=
  if limit ≤ rows.length then rows
  else
    match after with
    | none => rows ++ read k none (limit - rows.length)
    | some (t, id) =>
        if text k < t then rows
        else rows ++ read k (if text k = t then some id else none)
          (limit - rows.length)

def readTables (kinds : List κ) (after : Option (String × String))
    (limit : ℕ) : List ρ :=
  kinds.foldl (extendRows text read after limit) []

variable {text read}

/-- A row comes after a position of table and id. -/
def isAfter (position : ρ → String × String) (after : Option (String × String))
    (row : ρ) : Bool :=
  after.all fun p => decide (p.1 < (position row).1) ||
    (decide ((position row).1 = p.1) && decide (p.2 < (position row).2))

/-- Every table is read in its own order, so reading them one after another
gives the first rows after the position. -/
theorem readTables_eq {rowsOf : κ → List ρ} {position : ρ → String × String}
    (hkind : ∀ k, ∀ row ∈ rowsOf k, (position row).1 = text k)
    (hread : ∀ k id n, read k id n = ((rowsOf k).filter fun row =>
      id.all fun id => decide (id < (position row).2)).take n)
    (kinds : List κ) (after : Option (String × String)) (limit : ℕ) :
    readTables text read kinds after limit =
      ((kinds.flatMap rowsOf).filter (isAfter position after)).take limit := by
  have hextend : ∀ (rows : List ρ) (k : κ), rows.length ≤ limit →
      extendRows text read after limit rows k =
        (rows ++ (rowsOf k).filter (isAfter position after)).take limit := by
    intro rows k hrows
    rw [extendRows.eq_def]
    split
    · rename_i hfull
      have hlength : rows.length = limit := le_antisymm hrows hfull
      rw [List.take_append_of_le_length hlength.ge, ← hlength, List.take_length]
    · rw [List.take_append, List.take_of_length_le hrows]
      cases after with
      | none =>
          have hall : isAfter position none = fun _ => true := rfl
          simp [hread, hall]
      | some p =>
          obtain ⟨t, id⟩ := p
          have hafter : ∀ row ∈ rowsOf k,
              isAfter position (some (t, id)) row =
                (decide (t < text k) ||
                  (decide (text k = t) && decide (id < (position row).2))) := by
            intro row hrow
            rw [isAfter, Option.all_some, hkind k row hrow]
          dsimp only
          rw [List.filter_congr hafter]
          rcases lt_trichotomy (text k) t with hlt | heq | hgt
          · simp [hlt, hlt.not_gt, hlt.ne]
          · simp [heq, hread]
          · simp [hgt, hgt.not_gt, hgt.ne', hread]
  have htake : ∀ a b : List ρ,
      (a.take limit ++ b).take limit = (a ++ b).take limit := by
    intro a b
    rw [List.take_append, List.take_append, List.take_take, min_self,
      List.length_take]
    congr 2
    omega
  have hfold : ∀ (kinds : List κ) (rows : List ρ), rows.length ≤ limit →
      kinds.foldl (extendRows text read after limit) rows =
        (rows ++ (kinds.flatMap rowsOf).filter
          (isAfter position after)).take limit := by
    intro kinds
    induction kinds with
    | nil =>
        intro rows hrows
        simp [List.take_of_length_le hrows]
    | cons k kinds ih =>
        intro rows hrows
        rw [List.foldl_cons, hextend rows k hrows,
          ih _ (List.length_take_le _ _), List.flatMap_cons,
          List.filter_append, ← List.append_assoc, htake]
  exact hfold kinds [] (Nat.zero_le _)

end Tables

/-! ## The loop -/

structure Counters where
  processed : ℕ
  skipped : ℕ
  written : ℕ
  deriving DecidableEq

inductive Interrupt where
  | cancel | pause

inductive JobEnd where
  | succeeded | outOfBudget | paused | cancelled
  deriving DecidableEq

/-- What a batch leaves behind, also when it raised. -/
structure Batched (σ ε : Type) where
  store : σ
  counters : Counters
  error : Option ε

/-- The service's part of a job: how rows are read after a position, what a
batch of them does, and which counters the budget is compared with. -/
structure BatchJob (σ ρ κ ε : Type) where
  fetch : Option κ → ℕ → List ρ
  position : ρ → κ
  batch : σ → Counters → List ρ → Batched σ ε
  inspected : Counters → ℕ
  batchSize : ℕ

/-- The saved position and counters of a job. -/
structure Checkpoint (κ : Type) where
  current : Option κ
  counters : Counters

/-- A running job; `current` is the position of its own last row, and `after`
the position it reads from. -/
structure JobState (σ κ : Type) where
  store : σ
  counters : Counters
  current : Option κ
  after : Option κ
  saved : Checkpoint κ

section Loop

variable {σ ρ κ ε : Type} (job : BatchJob σ ρ κ ε) (budget : Option ℕ)

/-- How many rows are read next. -/
def BatchJob.remainingBatchLimit (counters : Counters) : ℕ :=
  match budget with
  | none => job.batchSize
  | some n => max 1 (min job.batchSize (n - job.inspected counters))

def BatchJob.budgetReached (counters : Counters) : Bool :=
  budget.any fun n => decide (n ≤ job.inspected counters)

/-- The position and counters are saved when a job ends. -/
def JobState.finish (s : JobState σ κ) : JobState σ κ :=
  { s with saved := ⟨s.current, s.counters⟩ }

/-- The job after a batch; a batch that raised leaves the position saved
before. -/
def BatchJob.afterBatch (s : JobState σ κ) (row : ρ) (rows : List ρ) :
    JobState σ κ × Option ε :=
  let batched := job.batch s.store s.counters (row :: rows)
  let last := some (job.position ((row :: rows).getLast (List.cons_ne_nil _ _)))
  match batched.error with
  | some error =>
      ({ s with
        store := batched.store
        counters := batched.counters
        current := last
        after := last }, some error)
  | none =>
      ({
        store := batched.store
        counters := batched.counters
        current := last
        after := last
        saved := ⟨last, batched.counters⟩ }, none)

/-- Run the job; `signal` says what is asked for before each batch.  There is
no result when the fuel is used up. -/
def BatchJob.runLoop (signal : ℕ → Option Interrupt) :
    ℕ → JobState σ κ → Option (JobState σ κ × Except ε JobEnd)
  | 0, _ => none
  | fuel + 1, s =>
      match signal 0 with
      | some .cancel => some (s.finish, .ok .cancelled)
      | some .pause => some (s.finish, .ok .paused)
      | none =>
          if job.budgetReached budget s.counters then
            some (s.finish, .ok .outOfBudget)
          else
            match job.fetch s.after
                (job.remainingBatchLimit budget s.counters) with
            | [] => some (s.finish, .ok .succeeded)
            | row :: rows =>
                match job.afterBatch s row rows with
                | (s', some error) => some (s', .error error)
                | (s', none) => runLoop (fun n => signal (n + 1)) fuel s'

variable {job budget}

theorem BatchJob.afterBatch_store (s : JobState σ κ) (row : ρ) (rows : List ρ) :
    (job.afterBatch s row rows).1.store =
      (job.batch s.store s.counters (row :: rows)).store := by
  unfold BatchJob.afterBatch
  dsimp only
  split
  · rfl
  · rfl

theorem BatchJob.runLoop_cases {signal : ℕ → Option Interrupt} {fuel : ℕ}
    {s s' : JobState σ κ} {result : Except ε JobEnd}
    (h : job.runLoop budget signal (fuel + 1) s = some (s', result)) :
    (s' = s.finish ∧ ∃ ending, result = .ok ending ∧
      (ending = .succeeded →
        job.fetch s.after (job.remainingBatchLimit budget s.counters) = [])) ∨
    ∃ row rows, job.fetch s.after
        (job.remainingBatchLimit budget s.counters) = row :: rows ∧
      ((∃ error, job.afterBatch s row rows = (s', some error) ∧
          result = .error error) ∨
        ∃ t, job.afterBatch s row rows = (t, none) ∧
          job.runLoop budget (fun n => signal (n + 1)) fuel t =
            some (s', result)) := by
  unfold BatchJob.runLoop at h
  split at h
  · obtain ⟨rfl, rfl⟩ := Prod.mk.inj (Option.some.inj h)
    exact Or.inl ⟨rfl, _, rfl, by simp⟩
  · obtain ⟨rfl, rfl⟩ := Prod.mk.inj (Option.some.inj h)
    exact Or.inl ⟨rfl, _, rfl, by simp⟩
  · split at h
    · obtain ⟨rfl, rfl⟩ := Prod.mk.inj (Option.some.inj h)
      exact Or.inl ⟨rfl, _, rfl, by simp⟩
    · split at h
      · rename_i hfetch
        obtain ⟨rfl, rfl⟩ := Prod.mk.inj (Option.some.inj h)
        exact Or.inl ⟨rfl, _, rfl, fun _ => hfetch⟩
      · rename_i row rows hfetch
        refine Or.inr ⟨row, rows, hfetch, ?_⟩
        split at h
        · rename_i error heq
          obtain ⟨rfl, rfl⟩ := Prod.mk.inj (Option.some.inj h)
          exact Or.inl ⟨error, heq, rfl⟩
        · rename_i t heq
          exact Or.inr ⟨t, heq, h⟩

theorem BatchJob.runLoop_store {Inv : σ → Prop}
    (hbatch : ∀ s counters c n, Inv s →
      Inv (job.batch s counters (job.fetch c n)).store) :
    ∀ {fuel : ℕ} {signal : ℕ → Option Interrupt} {s s' : JobState σ κ}
      {result : Except ε JobEnd}, Inv s.store →
      job.runLoop budget signal fuel s = some (s', result) → Inv s'.store
  | 0, _, _, _, _, _, h => by cases h
  | fuel + 1, signal, s, s', result, hs, h => by
      rcases BatchJob.runLoop_cases h with
        ⟨rfl, -⟩ | ⟨row, rows, hrows, hbatched⟩
      · exact hs
      · have hkept := hbatch s.store s.counters s.after
          (job.remainingBatchLimit budget s.counters) hs
        rw [hrows, ← BatchJob.afterBatch_store] at hkept
        rcases hbatched with ⟨error, heq, -⟩ | ⟨t, heq, hrest⟩
        · rwa [heq] at hkept
        · rw [heq] at hkept
          exact runLoop_store hbatch hkept hrest

theorem BatchJob.afterBatch_of_none {s t : JobState σ κ} {row : ρ}
    {rows : List ρ} (h : job.afterBatch s row rows = (t, none)) :
    (job.batch s.store s.counters (row :: rows)).error = none ∧
      t.after = some (job.position
        ((row :: rows).getLast (List.cons_ne_nil _ _))) := by
  unfold BatchJob.afterBatch at h
  dsimp only at h
  split at h
  · cases (Prod.mk.inj h).2
  · obtain ⟨rfl, -⟩ := Prod.mk.inj h
    exact ⟨‹_›, rfl⟩

theorem BatchJob.remainingBatchLimit_pos (hsize : 0 < job.batchSize)
    (counters : Counters) : 0 < job.remainingBatchLimit budget counters := by
  unfold BatchJob.remainingBatchLimit
  cases budget with
  | none => exact hsize
  | some n => exact Nat.lt_of_lt_of_le Nat.one_pos (Nat.le_max_left _ _)

section Ordered

variable {all : List ρ} (hsize : 0 < job.batchSize)
  (hfetch : ∀ c xs, StandsAfter job.position all c xs →
    ∀ n, job.fetch c n = xs.take n)

include hfetch in
theorem BatchJob.standsAfter_afterBatch {s t : JobState σ κ}
    {done xs : List ρ} {row : ρ} {rows : List ρ} {n : ℕ}
    (hall : all = done ++ xs) (hstands : StandsAfter job.position all s.after xs)
    (hrows : job.fetch s.after n = row :: rows)
    (h : job.afterBatch s row rows = (t, none)) :
    all = done ++ (row :: rows) ++ xs.drop n ∧
      StandsAfter job.position all t.after (xs.drop n) := by
  rw [hfetch _ _ hstands] at hrows
  have hall' : all = done ++ ((row :: rows) ++ xs.drop n) := by
    rw [← hrows, List.take_append_drop, hall]
  refine ⟨by rw [List.append_assoc]; exact hall', ?_⟩
  rw [(BatchJob.afterBatch_of_none h).2]
  exact standsAfter_getLast (List.cons_ne_nil row rows) hall'

include hsize hfetch in
/-- A job that succeeded has worked on all rows: `Done done s` says what the
batches have made of the rows so far. -/
theorem BatchJob.runLoop_succeeded {Done : List ρ → σ → Prop}
    (hbatch : ∀ done rows s counters, Done done s →
      (job.batch s counters rows).error = none →
      Done (done ++ rows) (job.batch s counters rows).store) :
    ∀ {fuel : ℕ} {signal : ℕ → Option Interrupt} {s s' : JobState σ κ}
      {done xs : List ρ}, all = done ++ xs →
      StandsAfter job.position all s.after xs → Done done s.store →
      job.runLoop budget signal fuel s = some (s', .ok .succeeded) →
      Done all s'.store
  | 0, _, _, _, _, _, _, _, _, h => by cases h
  | fuel + 1, signal, s, s', done, xs, hall, hstands, hdone, h => by
      have hpos : 0 < job.remainingBatchLimit budget s.counters :=
        BatchJob.remainingBatchLimit_pos hsize _
      rcases BatchJob.runLoop_cases h with
        ⟨rfl, ending, hend, hempty⟩ | ⟨row, rows, hrows, hbatched⟩
      · have hempty := hempty (Except.ok.inj hend).symm
        rw [hfetch _ _ hstands, List.take_eq_nil_iff] at hempty
        rcases hempty with hzero | rfl
        · omega
        · rw [hall, List.append_nil]
          exact hdone
      · rcases hbatched with ⟨error, -, hend⟩ | ⟨t, heq, hrest⟩
        · cases hend
        have hnone := (BatchJob.afterBatch_of_none heq).1
        have hdone' := hbatch done _ s.store s.counters hdone hnone
        rw [← BatchJob.afterBatch_store, heq] at hdone'
        obtain ⟨hall', hstands'⟩ :=
          BatchJob.standsAfter_afterBatch hfetch hall hstands hrows heq
        exact runLoop_succeeded hbatch hall' hstands' hdone' hrest

include hfetch in
theorem BatchJob.runLoop_isSome : ∀ {fuel : ℕ}
    {signal : ℕ → Option Interrupt} {s : JobState σ κ} {done xs : List ρ},
    all = done ++ xs → StandsAfter job.position all s.after xs →
    xs.length < fuel → (job.runLoop budget signal fuel s).isSome = true
  | 0, _, _, _, _, _, _, hfuel => absurd hfuel (Nat.not_lt_zero _)
  | fuel + 1, signal, s, done, xs, hall, hstands, hfuel => by
      unfold BatchJob.runLoop
      split
      · rfl
      · rfl
      · split
        · rfl
        · split
          · rfl
          · rename_i row rows hrows
            split
            · rfl
            · rename_i t heq
              obtain ⟨hall', hstands'⟩ :=
                BatchJob.standsAfter_afterBatch hfetch hall hstands hrows heq
              refine runLoop_isSome hall' hstands' ?_
              rw [hfetch _ _ hstands] at hrows
              have hlength := congrArg List.length hrows
              rw [List.length_take, List.length_cons] at hlength
              rw [List.length_drop]
              omega

end Ordered

end Loop

end ApexForensic.Support
