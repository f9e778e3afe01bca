import Mathlib.Data.List.Infix

/-!
# Runs of a total step function

A system is a total step function on states; an action that is not possible
in a state leaves it as it is.  A run is then a list of actions, and the
induction over runs is done once here: for invariants, for relations between
an earlier and a later state, and for invariants that need every step of the
run to meet a condition on the state in which it is taken.
-/

namespace ApexForensic.Support

theorem split_concat {α : Type*} {l before after : List α} {a x : α}
    (h : l ++ [a] = before ++ x :: after) :
    (before = l ∧ x = a ∧ after = []) ∨
      ∃ rest, after = rest ++ [a] ∧ l = before ++ x :: rest := by
  rcases List.eq_nil_or_concat after with rfl | ⟨rest, y, rfl⟩
  · obtain ⟨rfl, hx⟩ := List.append_inj' h rfl
    exact Or.inl ⟨rfl, (List.singleton_inj.mp hx).symm, rfl⟩
  · rw [List.concat_eq_append] at h ⊢
    rw [← List.cons_append, ← List.append_assoc] at h
    obtain ⟨rfl, hy⟩ := List.append_inj' h rfl
    rw [List.singleton_inj.mp hy]
    exact Or.inr ⟨rest, rfl, rfl⟩

variable {σ α : Type*} (step : σ → α → σ)

/-- The state after a list of actions. -/
def run (s : σ) (actions : List α) : σ :=
  actions.foldl step s

@[simp] theorem run_nil (s : σ) : run step s [] = s := rfl

@[simp] theorem run_cons (s : σ) (a : α) (actions : List α) :
    run step s (a :: actions) = run step (step s a) actions := rfl

theorem run_append (s : σ) (before after : List α) :
    run step s (before ++ after) = run step (run step s before) after :=
  List.foldl_append

theorem run_concat (s : σ) (actions : List α) (a : α) :
    run step s (actions ++ [a]) = step (run step s actions) a := by
  rw [run_append, run_cons, run_nil]

variable {step}

theorem run_invariant {Inv : σ → Prop} (hstep : ∀ s a, Inv s → Inv (step s a))
    {s : σ} (hs : Inv s) (actions : List α) :
    Inv (run step s actions) := by
  induction actions generalizing s with
  | nil => exact hs
  | cons a actions ih => exact ih (hstep s a hs)

/-- A preorder that relates the two ends of every step from an invariant
state relates the two ends of every run. -/
theorem run_related {Inv : σ → Prop} {R : σ → σ → Prop}
    (hstep : ∀ s a, Inv s → Inv (step s a)) (hrefl : ∀ s, R s s)
    (htrans : ∀ {s t u}, R s t → R t u → R s u)
    (hR : ∀ s a, Inv s → R s (step s a))
    {s : σ} (hs : Inv s) (actions : List α) :
    R s (run step s actions) := by
  induction actions generalizing s with
  | nil => exact hrefl s
  | cons a actions ih =>
      exact htrans (hR s a hs) (ih (hstep s a hs))

theorem exists_step_of_run {P : σ → Prop} {s : σ} (hs : ¬ P s)
    {actions : List α} (h : P (run step s actions)) :
    ∃ before a after, actions = before ++ a :: after ∧
      ¬ P (run step s before) ∧ P (run step s (before ++ [a])) := by
  induction actions generalizing s with
  | nil => exact absurd h hs
  | cons a actions ih =>
      by_cases hstep : P (step s a)
      · exact ⟨[], a, actions, rfl, hs, hstep⟩
      · obtain ⟨before, b, after, rfl, hbefore, hb⟩ := ih hstep h
        exact ⟨a :: before, b, after, rfl, hbefore, hb⟩

/-! ## Runs whose steps all meet a condition -/

/-- Every action of the run meets the condition in the state it acts on. -/
def StepsMeet (step : σ → α → σ) (cond : σ → α → Prop) : σ → List α → Prop
  | _, [] => True
  | s, a :: actions => cond s a ∧ StepsMeet step cond (step s a) actions

theorem stepsMeet_append {cond : σ → α → Prop} (s : σ) (before after : List α) :
    StepsMeet step cond s (before ++ after) ↔
      StepsMeet step cond s before ∧
        StepsMeet step cond (run step s before) after := by
  induction before generalizing s with
  | nil => simp [StepsMeet]
  | cons a before ih => simp [StepsMeet, ih, and_assoc]

theorem stepsMeet_of_splits {cond : σ → α → Prop} {s : σ} {actions : List α}
    (h : ∀ before a after, actions = before ++ a :: after →
      cond (run step s before) a) : StepsMeet step cond s actions := by
  induction actions generalizing s with
  | nil => trivial
  | cons a actions ih =>
      refine ⟨h [] a actions rfl, ih fun before b after hsplit => ?_⟩
      exact h (a :: before) b after (by rw [hsplit, List.cons_append])

/-- A predicate kept by every step that meets the condition holds after every
run whose steps all meet it. -/
theorem run_invariant_of_stepsMeet {cond : σ → α → Prop} {Inv : σ → Prop}
    (hstep : ∀ s a, Inv s → cond s a → Inv (step s a))
    {s : σ} (hs : Inv s) {actions : List α}
    (hmeet : StepsMeet step cond s actions) :
    Inv (run step s actions) := by
  induction actions generalizing s with
  | nil => exact hs
  | cons a actions ih => exact ih (hstep s a hs hmeet.1) hmeet.2

end ApexForensic.Support
