import Mathlib.Tactic.Common

/-!
# Computations on a store that may raise

What such a computation committed before it raised stays.  A transaction
either commits or leaves the store as it is.  A preorder on stores that every
transaction of a computation respects relates the two ends of the
computation, whichever way it ends.
-/

namespace ApexForensic.Support

universe u v

/-- A computation from a store to a result or an error, and a store. -/
def Service (σ : Type u) (ε : Type v) (α : Type) :=
  σ → Except ε α × σ

namespace Service

variable {σ : Type u} {ε : Type v} {α β : Type}

instance : Monad (Service σ ε) where
  pure a := fun s => (.ok a, s)
  bind m f := fun s =>
    match m s with
    | (.ok a, s') => f a s'
    | (.error e, s') => (.error e, s')

private theorem id_map_service (m : Service σ ε α) : id <$> m = m := by
  funext s
  change (match m s with
    | (.ok a, s') => (.ok a, s')
    | (.error e, s') => (.error e, s')) = m s
  rcases m s with ⟨e | a, s'⟩ <;> rfl

private theorem bind_assoc_service {γ : Type} (m : Service σ ε α)
    (f : α → Service σ ε β) (g : β → Service σ ε γ) :
    m >>= f >>= g = m >>= fun a => f a >>= g := by
  funext s
  simp only [bind]
  rcases m s with ⟨e | a, s'⟩ <;> rfl

instance : LawfulMonad (Service σ ε) :=
  LawfulMonad.mk' _ id_map_service (fun _ _ => rfl) bind_assoc_service

/-- Compute from the store without changing it. -/
def read (f : σ → Except ε α) : Service σ ε α :=
  fun s => (f s, s)

/-- One transaction: an error rolls it back. -/
def commit (f : σ → Except ε (α × σ)) : Service σ ε α := fun s =>
  match f s with
  | .ok (a, s') => (.ok a, s')
  | .error e => (.error e, s)

/-- `try: ... except`: the handler runs on the errors it catches. -/
def handle (m : Service σ ε α) (catches : ε → Bool)
    (handler : ε → Service σ ε α) : Service σ ε α := fun s =>
  match m s with
  | (.ok a, s') => (.ok a, s')
  | (.error e, s') => if catches e then handler e s' else (.error e, s')

/-- A statement of a `try` block: what follows it in the block runs after it,
and the `except` clauses run where it raises. -/
def guarded (m : Service σ ε α) (recover : ε → Service σ ε β)
    (rest : α → Service σ ε β) : Service σ ε β := fun s =>
  match m s with
  | (.ok a, s') => rest a s'
  | (.error e, s') => recover e s'

/-- A computation that an error may come before. -/
def unlessRaised (fault : Option ε) (m : Service σ ε α) : Service σ ε α :=
  fun s => fault.elim (m s) fun e => (.error e, s)

/-- What a computation raised. -/
def errorOf : Except ε α → Option ε
  | .ok _ => none
  | .error e => some e

/-- The store after the computation, however it ended. -/
def after (m : Service σ ε α) (s : σ) : σ :=
  (m s).2

/-- What the computation ends in. -/
def result (m : Service σ ε α) (s : σ) : Except ε α :=
  (m s).1

theorem eq_of_result {m : Service σ ε α} {s : σ} {r : Except ε α}
    (h : m.result s = r) : m s = (r, m.after s) :=
  Prod.ext h rfl

@[simp] theorem after_pure (a : α) (s : σ) :
    after (pure a : Service σ ε α) s = s := rfl

@[simp] theorem after_read (f : σ → Except ε α) (s : σ) :
    after (read f) s = s := rfl

@[simp] theorem result_read (f : σ → Except ε α) (s : σ) :
    result (read f) s = f s := rfl

/-- A sequence stops at the error of its first part or goes on from what the
first part left. -/
theorem after_bind_eq {m : Service σ ε α} {f : α → Service σ ε β}
    {s t : σ} (h : (m >>= f).after s = t) :
    t = m.after s ∨
      ∃ a, m.result s = .ok a ∧ (f a).after (m.after s) = t := by
  simp only [after, result, bind] at h ⊢
  split at h
  · rename_i a t heq
    rw [heq]
    exact Or.inr ⟨a, rfl, h⟩
  · rename_i e t heq
    rw [heq]
    exact Or.inl h.symm

theorem result_bind_eq_ok_iff {m : Service σ ε α} {f : α → Service σ ε β}
    {s : σ} {b : β} :
    (m >>= f).result s = .ok b ↔
      ∃ a, m.result s = .ok a ∧ (f a).result (m.after s) = .ok b := by
  simp only [after, result, bind]
  rcases m s with ⟨e | a, s'⟩
  · simp
  · simp

theorem commit_cases (f : σ → Except ε (α × σ)) (s : σ) :
    (∃ e, (commit f).result s = .error e ∧ (commit f).after s = s) ∨
      ∃ a, (commit f).result s = .ok a ∧
        f s = .ok (a, (commit f).after s) := by
  simp only [after, result, commit]
  cases h : f s with
  | error e => exact Or.inl ⟨e, rfl, rfl⟩
  | ok r => exact Or.inr ⟨r.1, rfl, rfl⟩

theorem commit_eq_ok {f : σ → Except ε (α × σ)} {s : σ} {a : α}
    (h : (commit f).result s = .ok a) :
    f s = .ok (a, (commit f).after s) := by
  rcases commit_cases f s with ⟨e, herror, -⟩ | ⟨b, hok, hf⟩
  · rw [herror] at h
    cases h
  · obtain rfl := Except.ok.inj (hok.symm.trans h)
    exact hf

/-- A sequence whose first part ends well goes on from what it left. -/
theorem after_bind_of_ok {m : Service σ ε α} {f : α → Service σ ε β}
    {s s' : σ} {a : α} (h : m s = (.ok a, s')) :
    (m >>= f).after s = (f a).after s' := by
  simp only [after, bind, h]

theorem after_bind_of_error {m : Service σ ε α} {f : α → Service σ ε β}
    {s : σ} {e : ε} (h : m.result s = .error e) :
    (m >>= f).after s = m.after s := by
  simp only [after, result, bind] at h ⊢
  split
  · rename_i a s' heq
    rw [heq] at h
    cases h
  · rename_i e' s' heq
    rw [heq]

theorem after_bind_of_result {m : Service σ ε α} {f : α → Service σ ε β}
    {s : σ} {a : α} (h : m.result s = .ok a) :
    (m >>= f).after s = (f a).after (m.after s) := by
  simp only [after, result, bind] at h ⊢
  split
  · rename_i b s' heq
    rw [heq] at h ⊢
    rw [Except.ok.inj h]
  · rename_i e s' heq
    rw [heq] at h
    cases h

@[simp] theorem after_bind_pure (m : Service σ ε α) (f : α → β) (s : σ) :
    (m >>= fun a => pure (f a)).after s = m.after s := by
  simp only [after, bind]
  split
  · rename_i a s' heq
    rw [heq]
    rfl
  · rename_i e s' heq
    rw [heq]

theorem after_bind_of_after_eq {m : Service σ ε α} {f : α → Service σ ε β}
    (hf : ∀ a s, (f a).after s = s) (s : σ) :
    (m >>= f).after s = m.after s := by
  rcases after_bind_eq (m := m) (f := f) (s := s) rfl with h | ⟨a, -, h⟩
  · exact h
  · rw [← h, hf]

theorem read_of_ok {f : σ → Except ε α} {s : σ} {a : α} (h : f s = .ok a) :
    read f s = (.ok a, s) := by
  rw [read, h]

theorem commit_of_ok {f : σ → Except ε (α × σ)} {s t : σ} {a : α}
    (h : f s = .ok (a, t)) : commit f s = (.ok a, t) := by
  simp only [commit, h]

theorem after_read_bind_cases (f : σ → Except ε α) (rest : α → Service σ ε β)
    (s : σ) :
    (∃ e, f s = .error e ∧ (read f >>= rest).after s = s) ∨
      ∃ a, f s = .ok a ∧ (read f >>= rest).after s = (rest a).after s := by
  cases h : f s with
  | error e => exact Or.inl ⟨e, rfl, after_bind_of_error h⟩
  | ok a => exact Or.inr ⟨a, rfl, after_bind_of_ok (read_of_ok h)⟩

theorem after_commit_cases (f : σ → Except ε (α × σ)) (s : σ) :
    (commit f).after s = s ∨ ∃ a, f s = .ok (a, (commit f).after s) := by
  rcases commit_cases f s with ⟨-, -, hafter⟩ | ⟨a, -, hf⟩
  · exact Or.inl hafter
  · exact Or.inr ⟨a, hf⟩

@[simp] theorem unlessRaised_none (m : Service σ ε α) :
    unlessRaised none m = m := rfl

theorem elim_orElse {o o' : Option ε} (b : Prop) (f : ε → Prop) :
    (o <|> o').elim b f ↔ o.elim (o'.elim b f) f := by
  cases o <;> rfl

/-- One statement of a `try` block that raises, before it changes anything, the
error given or else its own: a condition on the end of the block, put together
from those on the end of the clauses and of the rest. -/
theorem after_guarded {Q : σ → Prop → Prop} {fault own : Option ε}
    {m : Service σ ε α} {recover : ε → Service σ ε β}
    {rest : α → Service σ ε β} {s t : σ} {a : α} {F : ε → Prop} {G : Prop}
    (hm : m s = own.elim (.ok a, t) fun e => (.error e, s))
    (hrecover : ∀ e, Q ((recover e).after s) (F e))
    (hrest : own = none → Q ((rest a).after t) G) :
    Q ((guarded (unlessRaised fault m) recover rest).after s)
      (fault.elim (own.elim G F) F) := by
  cases fault with
  | some e => exact hrecover e
  | none =>
      rw [unlessRaised_none]
      simp only [after, guarded, hm]
      cases own with
      | some e => exact hrecover e
      | none => exact hrest rfl

theorem after_guarded_read {Q : σ → Prop → Prop} {fault : Option ε}
    {f : σ → Except ε α} {recover : ε → Service σ ε β}
    {rest : α → Service σ ε β} {s : σ} {F : ε → Prop} {G : Prop}
    (hrecover : ∀ e, Q ((recover e).after s) (F e))
    (hrest : ∀ a, f s = .ok a → Q ((rest a).after s) G) :
    Q ((guarded (unlessRaised fault (read f)) recover rest).after s)
      (fault.elim ((errorOf (f s)).elim G F) F) := by
  cases fault with
  | some e => exact hrecover e
  | none =>
      rw [unlessRaised_none]
      simp only [after, guarded, read]
      cases h : f s with
      | error e => exact hrecover e
      | ok a => exact hrest a h

theorem after_guarded_write {Q : σ → Prop → Prop} {fault : Option ε}
    {m : Service σ ε α} {recover : ε → Service σ ε β}
    {rest : α → Service σ ε β} {s t : σ} {a : α} {F : ε → Prop} {G : Prop}
    (hm : m s = (.ok a, t)) (hrecover : ∀ e, Q ((recover e).after s) (F e))
    (hrest : Q ((rest a).after t) G) :
    Q ((guarded (unlessRaised fault m) recover rest).after s)
      (fault.elim G F) := by
  cases fault with
  | some e => exact hrecover e
  | none =>
      rw [unlessRaised_none]
      simp only [after, guarded, hm]
      exact hrest

variable {R : σ → σ → Prop}

/-- The computation relates every store to the one it leaves. -/
def Respects (R : σ → σ → Prop) (m : Service σ ε α) : Prop :=
  ∀ s, R s (m.after s)

theorem respects_pure [Std.Refl R] (a : α) :
    Respects R (pure a : Service σ ε α) :=
  fun s => refl_of R s

theorem respects_read [Std.Refl R] (f : σ → Except ε α) :
    Respects R (read f) :=
  fun s => refl_of R s

theorem respects_commit [Std.Refl R] {f : σ → Except ε (α × σ)}
    (h : ∀ s a s', f s = .ok (a, s') → R s s') : Respects R (commit f) := by
  intro s
  rw [after, commit]
  split
  · exact h s _ _ ‹_›
  · exact refl_of R s

theorem respects_bind [IsTrans σ R] {m : Service σ ε α}
    {f : α → Service σ ε β} (hm : Respects R m)
    (hf : ∀ a, Respects R (f a)) : Respects R (m >>= f) := by
  intro s
  have hfirst := hm s
  simp only [after, bind] at hfirst ⊢
  split
  · rename_i a s' heq
    rw [heq] at hfirst
    exact trans_of R hfirst (hf a s')
  · rename_i e s' heq
    rw [heq] at hfirst
    exact hfirst

theorem respects_read_bind [Std.Refl R] {f : σ → Except ε α}
    {g : α → Service σ ε β} (h : ∀ s a, f s = .ok a → R s ((g a).after s)) :
    Respects R (read f >>= g) := by
  intro s
  rcases after_bind_eq (m := read f) (f := g) (s := s) rfl with
    heq | ⟨a, ha, heq⟩
  · rw [heq]
    exact refl_of R s
  · rw [← heq]
    exact h s a ha

theorem respects_handle [IsTrans σ R] {m : Service σ ε α}
    {catches : ε → Bool} {handler : ε → Service σ ε α}
    (hm : Respects R m) (hhandler : ∀ e, Respects R (handler e)) :
    Respects R (handle m catches handler) := by
  intro s
  have hfirst := hm s
  simp only [after, handle] at hfirst ⊢
  split
  · rename_i a s' heq
    rw [heq] at hfirst
    exact hfirst
  · rename_i e s' heq
    rw [heq] at hfirst
    split
    · exact trans_of R hfirst (hhandler e s')
    · exact hfirst

end Service

end ApexForensic.Support
