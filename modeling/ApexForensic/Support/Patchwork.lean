import Mathlib.Algebra.GroupWithZero.Nat
import Mathlib.Algebra.BigOperators.Group.List.Basic

/-!
# Sequences with holes

A patchwork is built from its start, a piece of known values or a hole at a
time.  The ranges of its holes are listed as they are made.  They are sorted,
do not meet, and cover exactly what is not known.
-/

namespace ApexForensic.Support

/-- An offset lies in a range, which is an offset and a length. -/
def InRange (range : ℕ × ℕ) (i : ℕ) : Prop :=
  range.1 ≤ i ∧ i < range.1 + range.2

instance (range : ℕ × ℕ) (i : ℕ) : Decidable (InRange range i) :=
  inferInstanceAs (Decidable (_ ∧ _))

/-- A sequence with holes and the ranges of its holes. -/
structure Patchwork (α : Type*) where
  cells : List (Option α)
  holes : List (ℕ × ℕ)
  pos : ∀ hole ∈ holes, 0 < hole.2
  sorted : holes.Pairwise fun a b => a.1 + a.2 ≤ b.1
  inRange_iff : ∀ i, (∃ hole ∈ holes, InRange hole i) ↔ cells[i]? = some none
  sum_holes : (holes.map Prod.snd).sum = cells.countP Option.isNone

namespace Patchwork

variable {α : Type*}

def empty : Patchwork α where
  cells := []
  holes := []
  pos := fun _ h => absurd h List.not_mem_nil
  sorted := List.Pairwise.nil
  inRange_iff := by simp
  sum_holes := rfl

theorem hole_le (p : Patchwork α) {hole : ℕ × ℕ} (h : hole ∈ p.holes) :
    hole.1 + hole.2 ≤ p.cells.length := by
  have hpos := p.pos hole h
  have hlast : p.cells[hole.1 + hole.2 - 1]? = some none :=
    (p.inRange_iff _).mp ⟨hole, h, by unfold InRange; omega⟩
  have hlt := (List.getElem?_eq_some_iff.mp hlast).1
  omega

/-- A piece of known values. -/
def addData (p : Patchwork α) (data : List α) : Patchwork α where
  cells := p.cells ++ data.map some
  holes := p.holes
  pos := p.pos
  sorted := p.sorted
  inRange_iff := by
    intro i
    rw [p.inRange_iff]
    rcases Nat.lt_or_ge i p.cells.length with hi | hi
    · rw [List.getElem?_append_left hi]
    · rw [List.getElem?_append_right hi, List.getElem?_eq_none hi]
      simp
  sum_holes := by
    have hdata : (data.map some).countP Option.isNone = 0 := by
      rw [List.countP_eq_zero]
      simp
    rw [p.sum_holes, List.countP_append, hdata, Nat.add_zero]

/-- A hole, which is listed unless it is empty. -/
def addHole (p : Patchwork α) (n : ℕ) : Patchwork α :=
  if hn : n = 0 then p
  else
    { cells := p.cells ++ List.replicate n none
      holes := p.holes ++ [(p.cells.length, n)]
      pos := by
        intro hole h
        rcases List.mem_append.mp h with h | h
        · exact p.pos hole h
        · obtain rfl := List.mem_singleton.mp h
          exact Nat.pos_of_ne_zero hn
      sorted := by
        refine List.pairwise_append.mpr
          ⟨p.sorted, List.pairwise_singleton _ _, ?_⟩
        intro a ha b hb
        obtain rfl := List.mem_singleton.mp hb
        exact p.hole_le ha
      inRange_iff := by
        intro i
        simp only [List.mem_append, List.mem_singleton, or_and_right,
          exists_or, exists_eq_left, p.inRange_iff]
        rcases Nat.lt_or_ge i p.cells.length with hi | hi
        · rw [List.getElem?_append_left hi]
          exact or_iff_left fun h => absurd h.1 (Nat.not_le.mpr hi)
        · rw [List.getElem?_append_right hi, List.getElem?_eq_none hi,
            List.getElem?_replicate]
          simp only [InRange]
          split_ifs with h
          · simp only [iff_true]
            exact Or.inr ⟨hi, by omega⟩
          · simp only [reduceCtorEq, iff_false]
            rintro (h' | h')
            · cases h'
            · exact h (by omega)
      sum_holes := by
        rw [List.map_append, List.sum_append, p.sum_holes,
          List.countP_append, List.countP_replicate]
        simp }

@[simp] theorem cells_addData (p : Patchwork α) (data : List α) :
    (p.addData data).cells = p.cells ++ data.map some := rfl

@[simp] theorem cells_addHole (p : Patchwork α) (n : ℕ) :
    (p.addHole n).cells = p.cells ++ List.replicate n none := by
  unfold addHole
  split_ifs with hn
  · rw [hn, List.replicate_zero, List.append_nil]
  · rfl

theorem addHole_zero (p : Patchwork α) : p.addHole 0 = p :=
  dif_pos rfl

theorem holes_addHole (p : Patchwork α) {n : ℕ} (hn : 0 < n) :
    (p.addHole n).holes = p.holes ++ [(p.cells.length, n)] := by
  rw [addHole, dif_neg (Nat.ne_of_gt hn)]

/-! ## What is known -/

/-- How many values are known. -/
def known (p : Patchwork α) : ℕ :=
  p.cells.countP Option.isSome

theorem known_addData (p : Patchwork α) (data : List α) :
    (p.addData data).known = p.known + data.length := by
  have hdata : (data.map some).countP Option.isSome = data.length := by
    rw [List.countP_map]
    exact List.countP_eq_length.mpr fun _ _ => rfl
  rw [known, cells_addData, List.countP_append, hdata, known]

theorem known_addHole (p : Patchwork α) (n : ℕ) :
    (p.addHole n).known = p.known := by
  have hhole : (List.replicate n (none : Option α)).countP Option.isSome = 0 :=
    List.countP_eq_zero.mpr fun a ha => by
      rw [List.eq_of_mem_replicate ha]
      exact Bool.false_ne_true
  rw [known, cells_addHole, List.countP_append, hhole, Nat.add_zero, known]

theorem known_add_sum (p : Patchwork α) :
    p.known + (p.holes.map Prod.snd).sum = p.cells.length := by
  rw [p.sum_holes, known, List.length_eq_countP_add_countP Option.isSome]
  congr 1
  exact List.countP_congr fun a _ => by cases a <;> simp

/-- The sequence with its holes filled. -/
def filled (p : Patchwork α) (fill : α) : List α :=
  p.cells.map fun cell => cell.getD fill

theorem filled_addData (p : Patchwork α) (data : List α) (fill : α) :
    (p.addData data).filled fill = p.filled fill ++ data := by
  rw [filled, cells_addData, List.map_append, List.map_map, filled]
  congr 1
  exact List.map_id _

theorem filled_addHole (p : Patchwork α) (n : ℕ) (fill : α) :
    (p.addHole n).filled fill =
      p.filled fill ++ List.replicate n fill := by
  simp [filled]

end Patchwork

end ApexForensic.Support
