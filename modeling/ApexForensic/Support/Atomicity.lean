import ApexForensic.Support.Service

/-!
# Calls that are interrupted

The operations of a call stand at named points, and at any of these points the
call may be interrupted by an error.  A call is atomic at a store when it
either raises and leaves the store as it is or returns and has done what it
is for.
-/

namespace ApexForensic.Support.Service

universe u v

variable {σ : Type u} {ε : Type v} {α β π : Type}

/-- One operation; it changes nothing when it is interrupted. -/
def operation (raises : π → Option ε) (point : π)
    (f : σ → Except ε (α × σ)) : Service σ ε α :=
  commit fun s =>
    match raises point with
    | some e => .error e
    | none => f s

/-- Reads that end at one point. -/
def query (raises : π → Option ε) (point : π) (f : σ → Except ε α) :
    Service σ ε α :=
  read fun s =>
    match raises point with
    | some e => .error e
    | none => f s

theorem result_query_eq_ok_iff {raises : π → Option ε} {point : π}
    {f : σ → Except ε α} {s : σ} {a : α} :
    (query raises point f).result s = .ok a ↔
      raises point = none ∧ f s = .ok a := by
  rw [query, result_read]
  cases raises point with
  | some e => simp
  | none => simp

theorem result_operation_eq_ok_iff {raises : π → Option ε} {point : π}
    {f : σ → Except ε (α × σ)} {s : σ} {a : α} :
    (operation raises point f).result s = .ok a ↔
      raises point = none ∧ ∃ t, f s = .ok (a, t) := by
  rw [operation, result, commit]
  cases raises point with
  | some e => simp
  | none =>
      cases f s with
      | error e => simp
      | ok r => simp [Prod.ext_iff]

theorem after_operation_of_ok {raises : π → Option ε} {point : π}
    {f : σ → Except ε (α × σ)} {s t : σ} {a : α}
    (hpoint : raises point = none) (hf : f s = .ok (a, t)) :
    (operation raises point f).after s = t := by
  rw [operation, after, commit]
  simp [hpoint, hf]

/-! ## Computations that only read -/

/-- The computation leaves every store as it is. -/
def ReadOnly (m : Service σ ε α) : Prop :=
  ∀ s, m.after s = s

theorem readOnly_pure (a : α) : ReadOnly (pure a : Service σ ε α) :=
  fun s => after_pure a s

theorem readOnly_read (f : σ → Except ε α) : ReadOnly (read f) :=
  fun s => after_read f s

theorem readOnly_query (raises : π → Option ε) (point : π)
    (f : σ → Except ε α) : ReadOnly (query raises point f) :=
  readOnly_read _

theorem readOnly_bind {m : Service σ ε α} {f : α → Service σ ε β}
    (hm : ReadOnly m) (hf : ∀ a, ReadOnly (f a)) : ReadOnly (m >>= f) := by
  intro s
  rw [after_bind_of_after_eq hf, hm s]

theorem result_bind_of_ok {m : Service σ ε α} {f : α → Service σ ε β}
    {s : σ} {a : α} (h : m.result s = .ok a) :
    (m >>= f).result s = (f a).result (m.after s) := by
  simp only [after, result, bind] at h ⊢
  split
  · rename_i b s' heq
    rw [heq] at h ⊢
    rw [Except.ok.inj h]
  · rename_i e s' heq
    rw [heq] at h
    cases h

theorem result_bind_of_error {m : Service σ ε α} {f : α → Service σ ε β}
    {s : σ} {e : ε} (h : m.result s = .error e) :
    (m >>= f).result s = .error e := by
  simp only [result, bind] at h ⊢
  split
  · rename_i a s' heq
    rw [heq] at h
    cases h
  · rename_i e' s' heq
    rw [heq] at h
    rw [Except.error.inj h]

/-! ## Computations that change nothing when they raise -/

/-- A computation that raises leaves the store as it is. -/
def RollsBack (m : Service σ ε α) : Prop :=
  ∀ s e, m.result s = .error e → m.after s = s

theorem rollsBack_of_readOnly {m : Service σ ε α} (hm : ReadOnly m) :
    RollsBack m :=
  fun s _ _ => hm s

theorem rollsBack_operation (raises : π → Option ε) (point : π)
    (f : σ → Except ε (α × σ)) : RollsBack (operation raises point f) := by
  intro s e h
  rw [operation] at h ⊢
  rcases commit_cases _ s with ⟨-, -, hafter⟩ | ⟨a, hok, -⟩
  · exact hafter
  · rw [hok] at h
    cases h

theorem rollsBack_bind {m : Service σ ε α} {f : α → Service σ ε β}
    (hm : ReadOnly m) (hf : ∀ a, RollsBack (f a)) : RollsBack (m >>= f) := by
  intro s e h
  cases hresult : m.result s with
  | error e' => rw [after_bind_of_error hresult, hm s]
  | ok a =>
      rw [result_bind_of_ok hresult, hm s] at h
      rw [after_bind_of_result hresult, hm s, hf a s e h]

/-! ## Atomic calls -/

/-- The call raises and leaves the store as it is, or it returns and what it
returns and leaves is as it should be. -/
def AtomicAt (done : α → σ → Prop) (m : Service σ ε α) (s : σ) : Prop :=
  (∀ e, m.result s = .error e → m.after s = s) ∧
    ∀ a, m.result s = .ok a → done a (m.after s)

variable {done : β → σ → Prop}

theorem atomicAt_of_error {m : Service σ ε α} (hm : RollsBack m)
    {f : α → Service σ ε β} {s : σ} {e : ε} (h : m.result s = .error e) :
    AtomicAt done (m >>= f) s := by
  constructor
  · intro _ _
    rw [after_bind_of_error h, hm s e h]
  · intro b hb
    rw [result_bind_of_error h] at hb
    cases hb

theorem atomicAt_bind_iff {m : Service σ ε α} (hm : ReadOnly m)
    {f : α → Service σ ε β} {s : σ} {a : α} (h : m.result s = .ok a) :
    AtomicAt done (m >>= f) s ↔ AtomicAt done (f a) s := by
  rw [AtomicAt, AtomicAt, result_bind_of_ok h, after_bind_of_result h, hm s]

/-- Once a call has changed the store for good, it is atomic exactly when it
goes on to return. -/
theorem atomicAt_bind_iff_of_changed {m : Service σ ε α}
    {f : α → Service σ ε β} {s : σ} {a : α} (h : m.result s = .ok a)
    (hchanged : (f a).after (m.after s) ≠ s) :
    AtomicAt done (m >>= f) s ↔
      ∃ b, (f a).result (m.after s) = .ok b ∧
        done b ((f a).after (m.after s)) := by
  rw [AtomicAt, result_bind_of_ok h, after_bind_of_result h]
  constructor
  · rintro ⟨hraised, hdone⟩
    cases hresult : (f a).result (m.after s) with
    | error e => exact absurd (hraised e hresult) hchanged
    | ok b => exact ⟨b, rfl, hdone b hresult⟩
  · rintro ⟨b, hb, hdone⟩
    rw [hb]
    constructor
    · intro e he
      cases he
    · intro c hc
      obtain rfl := Except.ok.inj hc
      exact hdone

end ApexForensic.Support.Service
