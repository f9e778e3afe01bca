import ApexForensic.Support.Service

/-!
# Clean-up of computations on a store

A resource is closed however the computation that uses it ends; what a
computation left is undone only when it raised.  An error of the clean-up
replaces the error it follows.
-/

namespace ApexForensic.Support

namespace Service

universe u v

variable {σ : Type u} {ε : Type v} {α β : Type} {R : σ → σ → Prop}

/-- A sequence ends in the error of its first part, or goes on from what that
left. -/
theorem bind_eq_iff {m : Service σ ε α} {f : α → Service σ ε β} {s t : σ}
    {r : Except ε β} :
    (m >>= f) s = (r, t) ↔
      (∃ e, m s = (.error e, t) ∧ r = .error e) ∨
        ∃ a u, m s = (.ok a, u) ∧ f a u = (r, t) := by
  simp only [bind]
  rcases m s with ⟨e | a, u⟩
  · simp [eq_comm, and_comm]
  · simp

theorem bind_ok_iff {m : Service σ ε α} {f : α → Service σ ε β} {s t : σ}
    {b : β} :
    (m >>= f) s = (.ok b, t) ↔
      ∃ a u, m s = (.ok a, u) ∧ f a u = (.ok b, t) := by
  rw [bind_eq_iff]
  simp

theorem bind_of_ok {m : Service σ ε α} {f : α → Service σ ε β} {s t : σ}
    {a : α} (h : m s = (.ok a, t)) : (m >>= f) s = f a t := by
  simp only [bind, h]

theorem bind_of_error {m : Service σ ε α} {f : α → Service σ ε β} {s t : σ}
    {e : ε} (h : m s = (.error e, t)) : (m >>= f) s = (.error e, t) := by
  simp only [bind, h]

theorem read_of_error {f : σ → Except ε α} {s : σ} {e : ε}
    (h : f s = .error e) : read f s = (.error e, s) := by
  rw [read, h]

theorem commit_of_error {f : σ → Except ε (α × σ)} {s : σ} {e : ε}
    (h : f s = .error e) : commit f s = (.error e, s) := by
  simp only [commit, h]

theorem after_read_bind_eq {f : σ → Except ε α} {rest : α → Service σ ε β}
    {s t : σ} (h : (read f >>= rest).after s = t) :
    (∃ e, f s = .error e ∧ t = s) ∨
      ∃ a, f s = .ok a ∧ (rest a).after s = t := by
  rcases after_read_bind_cases f rest s with ⟨e, he, hsame⟩ | ⟨a, ha, hrest⟩
  · exact Or.inl ⟨e, he, h.symm.trans hsame⟩
  · exact Or.inr ⟨a, ha, hrest.symm.trans h⟩

/-- Close what the computation used, however it ended. -/
def closing (m : Service σ ε α) (close : Service σ ε Unit) :
    Service σ ε α := fun s =>
  match close (m.after s) with
  | (.ok _, t) => (m.result s, t)
  | (.error e, t) => (.error e, t)

/-- Undo what the computation left, if it raised. -/
def undoing (m : Service σ ε α) (undo : Service σ ε Unit) :
    Service σ ε α := fun s =>
  match m s with
  | (.ok a, t) => (.ok a, t)
  | (.error e, t) =>
      match undo t with
      | (.ok _, t') => (.error e, t')
      | (.error e', t') => (.error e', t')

theorem closing_eq_ok {m : Service σ ε α} {close : Service σ ε Unit}
    {s t : σ} {a : α} (h : closing m close s = (.ok a, t)) :
    ∃ u, m s = (.ok a, u) ∧ close u = (.ok (), t) := by
  simp only [closing, result, after] at h
  split at h
  · rename_i heq
    obtain ⟨hresult, rfl⟩ := Prod.mk.inj h
    exact ⟨(m s).2, Prod.ext hresult rfl, heq⟩
  · cases (Prod.mk.inj h).1

theorem respects_closing [IsTrans σ R] {m : Service σ ε α}
    {close : Service σ ε Unit} (hm : Respects R m) (hclose : Respects R close) :
    Respects R (closing m close) := by
  intro s
  have hlast := trans_of R (hm s) (hclose (m.after s))
  simp only [after, closing] at hlast ⊢
  split
  · rename_i heq
    rwa [heq] at hlast
  · rename_i heq
    rwa [heq] at hlast

theorem undoing_eq_iff {m : Service σ ε α} {undo : Service σ ε Unit}
    {s t : σ} {r : Except ε α} :
    undoing m undo s = (r, t) ↔
      (∃ a, m s = (.ok a, t) ∧ r = .ok a) ∨
        ∃ e u, m s = (.error e, u) ∧
          (undo u = (.ok (), t) ∧ r = .error e ∨
            ∃ e', undo u = (.error e', t) ∧ r = .error e') := by
  simp only [undoing]
  rcases m s with ⟨e | a, u⟩
  · rcases h : undo u with ⟨e' | ⟨⟩, u'⟩
    · simp [h, eq_comm, and_comm]
    · simp [h, eq_comm, and_comm]
  · simp [eq_comm, and_comm]

end Service

end ApexForensic.Support
