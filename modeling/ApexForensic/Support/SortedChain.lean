import Mathlib.Data.List.Sort

/-!
# Hash chains read in an order

Rows are only added, each with the hash that it says comes before its own, and
they are read in an order of their own.  Read so they are a chain for as long
as each row comes last when it is added and names the last hash read.
-/

namespace ApexForensic.Support

variable {α η : Type*}

/-- Each row names the hash of the row before it, the first one `p`. -/
def Chained (previous : α → Option η) (hash : α → η) :
    Option η → List α → Prop
  | _, [] => True
  | p, a :: rows => previous a = p ∧ Chained previous hash (some (hash a)) rows

def lastHash (hash : α → η) (rows : List α) : Option η :=
  rows.getLast?.map hash

variable {previous : α → Option η} {hash : α → η}

@[simp] theorem lastHash_concat (rows : List α) (a : α) :
    lastHash hash (rows ++ [a]) = some (hash a) := by
  simp [lastHash]

theorem chained_append {p : Option η} {xs ys : List α} :
    Chained previous hash p (xs ++ ys) ↔
      Chained previous hash p xs ∧
        Chained previous hash ((lastHash hash xs).or p) ys := by
  induction xs generalizing p with
  | nil => simp [Chained, lastHash]
  | cons a xs ih =>
      rw [List.cons_append, Chained, Chained, ih, and_assoc]
      cases xs with
      | nil => simp [lastHash]
      | cons b xs => simp [lastHash, List.getLast?_cons]

theorem chained_concat {xs : List α} {a : α} :
    Chained previous hash none (xs ++ [a]) ↔
      Chained previous hash none xs ∧ previous a = lastHash hash xs := by
  rw [chained_append, Option.or_none]
  simp [Chained]

theorem eq_nil_of_chained_insert {xs ys : List α} {a : α}
    (hbefore : Chained previous hash none (xs ++ ys))
    (hafter : Chained previous hash none (xs ++ a :: ys))
    (hfresh : ∀ x ∈ xs, hash x ≠ hash a) : ys = [] := by
  cases ys with
  | nil => rfl
  | cons y ys =>
      have hold := (chained_append.mp hbefore).2.1
      have hnew := (chained_append.mp hafter).2.2.1
      rw [Option.or_none] at hold
      have hlast := hold.symm.trans hnew
      obtain ⟨x, hx, hhash⟩ := Option.map_eq_some_iff.mp hlast
      exact absurd hhash (hfresh x (List.mem_of_getLast? hx))

section Sorted

variable {r : α → α → Prop} [DecidableRel r] [Std.Total r] [IsTrans α r]

/-- A row that is added comes in somewhere, and the others are read as
before. -/
theorem exists_insertionSort_concat (rows : List α) (a : α) :
    ∃ xs ys, rows.insertionSort r = xs ++ ys ∧
      (rows ++ [a]).insertionSort r = xs ++ a :: ys := by
  induction rows with
  | nil => exact ⟨[], [], rfl, rfl⟩
  | cons b rows ih =>
      obtain ⟨xs, ys, hold, hnew⟩ := ih
      have hsorted := List.pairwise_insertionSort r (rows ++ [a])
      rw [List.cons_append, List.insertionSort_cons, List.insertionSort_cons,
        hold, hnew]
      rw [hnew] at hsorted
      clear hold hnew
      induction xs with
      | nil =>
          by_cases hba : r b a
          · refine ⟨[b], ys, ?_, ?_⟩
            · cases ys with
              | nil => rfl
              | cons y ys =>
                  have hay := (List.pairwise_cons.mp hsorted).1 y
                    List.mem_cons_self
                  simp [trans_of r hba hay]
            · simp [hba]
          · exact ⟨[], ys.orderedInsert r b, rfl, by simp [hba]⟩
      | cons x xs ihxs =>
          by_cases hbx : r b x
          · exact ⟨b :: x :: xs, ys, by simp [hbx], by simp [hbx]⟩
          · obtain ⟨us, vs, hold, hnew⟩ :=
              ihxs (List.pairwise_cons.mp hsorted).2
            refine ⟨x :: us, vs, ?_, ?_⟩
            · simp [hbx, hold]
            · simp [hbx, hnew]

theorem rel_of_insertionSort_concat {rows : List α} {a : α}
    (h : (rows ++ [a]).insertionSort r = rows.insertionSort r ++ [a])
    {b : α} (hb : b ∈ rows) : r b a := by
  have hsorted := List.pairwise_insertionSort r (rows ++ [a])
  rw [h] at hsorted
  exact (List.pairwise_append.mp hsorted).2.2 b
    ((List.mem_insertionSort r).mpr hb) a List.mem_cons_self

/-- A row that is added keeps the chain if it comes last and names the last
hash, and only then. -/
theorem chained_insertionSort_concat {rows : List α} {a : α}
    (hbefore : Chained previous hash none (rows.insertionSort r))
    (hfresh : ∀ b ∈ rows, hash b ≠ hash a) :
    Chained previous hash none ((rows ++ [a]).insertionSort r) ↔
      (rows ++ [a]).insertionSort r = rows.insertionSort r ++ [a] ∧
        previous a = lastHash hash (rows.insertionSort r) := by
  obtain ⟨xs, ys, hold, hnew⟩ := exists_insertionSort_concat (r := r) rows a
  constructor
  · intro hafter
    have hxs : ∀ x ∈ xs, hash x ≠ hash a := fun x hx => by
      apply hfresh
      rw [← List.mem_insertionSort r, hold]
      exact List.mem_append_left _ hx
    have hnil : ys = [] := by
      rw [hold] at hbefore
      rw [hnew] at hafter
      exact eq_nil_of_chained_insert hbefore hafter hxs
    subst hnil
    rw [List.append_nil] at hold
    rw [hnew, ← hold] at hafter ⊢
    exact ⟨rfl, (chained_concat.mp hafter).2⟩
  · rintro ⟨hlast, hprevious⟩
    rw [hlast, chained_concat]
    exact ⟨hbefore, hprevious⟩

end Sorted

end ApexForensic.Support
