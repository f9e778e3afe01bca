import ApexForensic.Support.Json

/-!
# Domain error model

Structured errors of the application, with the constructors that fix their
codes and message keys, and the built-in exceptions the modelled code lets
escape.
-/

namespace ApexForensic.Domain

open ApexForensic.Support

structure ApexError where
  code : String
  messageKey : String
  developerMessage : Option String
  target : Option String
  retryable : Bool
  details : List (String × Json)

/-- The built-in and driver exceptions that can escape the modelled code. -/
inductive BuiltinError where
  | keyError
  | typeError
  | attributeError
  | runtimeError
  | valueError
  | overflowError
  | zeroDivisionError
  | zoneInfoNotFoundError
  | integrityError
  | indexError
  | operationalError
  deriving DecidableEq

/-- What a call can raise. -/
inductive PyError where
  | apex (error : ApexError)
  | builtin (kind : BuiltinError) (message : String)

/-- The message key of an error whose key is derived from its code. -/
def codeMessageKey (code : String) : String :=
  String.ofList ("error.".toList ++ code.toList.map Char.toLower)

def validationError
    (developerMessage : String) (target : Option String)
    (details : List (String × Json)) : PyError :=
  .apex
    { code := "VALIDATION_ERROR"
      messageKey := "error.validation"
      developerMessage := some developerMessage
      target := target
      retryable := false
      details := details }

def notFoundError
    (code developerMessage : String) (target : Option String) : PyError :=
  .apex
    { code := code
      messageKey := codeMessageKey code
      developerMessage := some developerMessage
      target := target
      retryable := false
      details := [] }

def stateConflictError
    (developerMessage : String) (target : Option String) : PyError :=
  .apex
    { code := "STATE_CONFLICT"
      messageKey := "error.state_conflict"
      developerMessage := some developerMessage
      target := target
      retryable := false
      details := [] }

def unsupportedCapabilityError
    (developerMessage requiredCapability : String) : PyError :=
  .apex
    { code := "CAPABILITY_UNAVAILABLE"
      messageKey := "error.evidence.capability_unavailable"
      developerMessage := some developerMessage
      target := none
      retryable := false
      details := [("required_capability", .str requiredCapability)] }

def reportError
    (code developerMessage : String) (target : Option String)
    (details : List (String × Json)) (retryable : Bool) : PyError :=
  .apex
    { code := code
      messageKey := codeMessageKey code
      developerMessage := some developerMessage
      target := target
      retryable := retryable
      details := details }

theorem bind_eq_ok_iff {ε : Type*} {α β : Type} {x : Except ε α}
    {f : α → Except ε β} {b : β} :
    (x >>= f) = .ok b ↔ ∃ a, x = .ok a ∧ f a = .ok b := by
  cases x with
  | error e => simp [bind, Except.bind]
  | ok a => simp [bind, Except.bind]

theorem bind_ok {ε : Type*} {α β : Type} {x : Except ε α}
    {f : α → Except ε β} {b : β} (h : (x >>= f) = .ok b) :
    ∃ a, x = .ok a ∧ f a = .ok b :=
  bind_eq_ok_iff.mp h

theorem ok_pair_inj {ε : Type*} {α β : Type*} {a a' : α} {b b' : β}
    (h : (Except.ok (a, b) : Except ε (α × β)) = .ok (a', b')) :
    a = a' ∧ b = b' :=
  Prod.mk.inj (Except.ok.inj h)

theorem ok_bind {ε : Type*} {α β : Type} (a : α) (f : α → Except ε β) :
    (Except.ok a >>= f) = f a := rfl

theorem check_eq_ok_iff {ε : Type*} {β : Type} {c : Prop} [Decidable c]
    {e : ε} {f : PUnit → Except ε β} {b : β} :
    (if c then Except.error e >>= f else f ⟨⟩) = .ok b ↔
      ¬ c ∧ f ⟨⟩ = .ok b := by
  by_cases h : c
  · simp [h, bind, Except.bind]
  · simp [h]

theorem check_ok {ε : Type*} {β : Type} {c : Prop} [Decidable c] {e : ε}
    {f : PUnit → Except ε β} {b : β}
    (h : (if c then Except.error e >>= f else f ⟨⟩) = .ok b) :
    ¬ c ∧ f ⟨⟩ = .ok b :=
  check_eq_ok_iff.mp h

theorem forM_eq_ok_iff {ε : Type*} {α : Type} {f : α → Except ε Unit}
    {l : List α} : l.forM f = .ok () ↔ ∀ a ∈ l, f a = .ok () := by
  induction l with
  | nil => exact iff_of_true rfl fun a h => absurd h List.not_mem_nil
  | cons a l ih =>
      rw [List.forM_eq_forM] at ih ⊢
      rw [List.forM_cons, bind_eq_ok_iff, List.forall_mem_cons, ← ih]
      exact ⟨fun ⟨_, ha, hl⟩ => ⟨ha, hl⟩, fun ⟨ha, hl⟩ => ⟨(), ha, hl⟩⟩

theorem mapM_eq_ok_iff {ε : Type*} {α β : Type} {f : α → Except ε β}
    {l : List α} {r : List β} :
    l.mapM f = .ok r ↔ List.Forall₂ (fun a b => f a = .ok b) l r := by
  induction l generalizing r with
  | nil =>
      rw [List.mapM_nil, List.forall₂_nil_left_iff]
      exact ⟨fun h => (Except.ok.inj h).symm, fun h => by rw [h]; rfl⟩
  | cons a l ih =>
      rw [List.mapM_cons, bind_eq_ok_iff, List.forall₂_cons_left_iff]
      constructor
      · rintro ⟨b, hb, h⟩
        obtain ⟨rest, hrest, h⟩ := bind_ok h
        exact ⟨b, rest, hb, ih.mp hrest, (Except.ok.inj h).symm⟩
      · rintro ⟨b, rest, hb, hrest, rfl⟩
        exact ⟨b, hb, bind_eq_ok_iff.mpr ⟨rest, ih.mpr hrest, rfl⟩⟩

theorem exists_ok_of_mem_mapM {ε : Type*} {α β : Type} {f : α → Except ε β}
    {l : List α} {r : List β} (h : l.mapM f = .ok r) {a : α} (ha : a ∈ l) :
    ∃ b ∈ r, f a = .ok b := by
  have h := mapM_eq_ok_iff.mp h
  induction h with
  | nil => cases ha
  | cons hab _ ih =>
      rcases List.mem_cons.mp ha with rfl | ha
      · exact ⟨_, List.mem_cons_self, hab⟩
      · obtain ⟨b, hb, hab⟩ := ih (mapM_eq_ok_iff.mpr ‹_›) ha
        exact ⟨b, List.mem_cons_of_mem _ hb, hab⟩

theorem exists_of_mem_mapM {ε : Type*} {α β : Type} {f : α → Except ε β}
    {l : List α} {r : List β} (h : l.mapM f = .ok r) {b : β} (hb : b ∈ r) :
    ∃ a ∈ l, f a = .ok b := by
  have h := mapM_eq_ok_iff.mp h
  induction h with
  | nil => cases hb
  | cons hab _ ih =>
      rcases List.mem_cons.mp hb with rfl | hb
      · exact ⟨_, List.mem_cons_self, hab⟩
      · obtain ⟨a, ha, hab⟩ := ih (mapM_eq_ok_iff.mpr ‹_›) hb
        exact ⟨a, List.mem_cons_of_mem _ ha, hab⟩

theorem mapError_eq_ok_iff {ε δ : Type*} {α : Type} {x : Except ε α}
    {f : ε → δ} {a : α} : x.mapError f = .ok a ↔ x = .ok a := by
  cases x with
  | error e => simp [Except.mapError]
  | ok b => simp [Except.mapError]

/-- A loop over consecutive indices that returned kept what each turn keeps. -/
theorem foldlM_range'_ok {ε : Type*} {σ : Type} {f : σ → ℕ → Except ε σ}
    {k count : ℕ} {Inv : ℕ → σ → Prop}
    (hstep : ∀ n s s', n < count → Inv n s → f s (k + n) = .ok s' →
      Inv (n + 1) s') {s s' : σ} (hs : Inv 0 s)
    (h : (List.range' k count).foldlM f s = .ok s') : Inv count s' := by
  induction count generalizing s' with
  | zero =>
      obtain rfl := Except.ok.inj h
      exact hs
  | succ count ih =>
      rw [List.range'_concat, List.foldlM_append, bind_eq_ok_iff] at h
      obtain ⟨t, ht, hlast⟩ := h
      rw [List.foldlM_cons, bind_eq_ok_iff] at hlast
      obtain ⟨u, hu, hend⟩ := hlast
      obtain rfl := Except.ok.inj hend
      rw [Nat.one_mul] at hu
      exact hstep count t u (Nat.lt_succ_self count)
        (ih (fun n s s' hn => hstep n s s' (Nat.lt_succ_of_lt hn)) ht) hu

theorem exists_foldlM_range' {ε : Type*} {σ : Type} {f : σ → ℕ → Except ε σ}
    {k count : ℕ} (hstep : ∀ n s, n < count → ∃ s', f s (k + n) = .ok s')
    (s : σ) : ∃ s', (List.range' k count).foldlM f s = .ok s' := by
  induction count with
  | zero => exact ⟨s, rfl⟩
  | succ count ih =>
      obtain ⟨t, ht⟩ := ih fun n s hn => hstep n s (by omega)
      obtain ⟨u, hu⟩ := hstep count t (Nat.lt_succ_self count)
      refine ⟨u, ?_⟩
      rw [List.range'_concat, List.foldlM_append, ht, ok_bind,
        List.foldlM_cons, Nat.one_mul, hu]
      rfl

theorem eq_ok_of_toOption {ε : Type*} {α : Type} {x : Except ε α} {a : α}
    (h : x.toOption = some a) : x = .ok a := by
  cases x with
  | error e => cases h
  | ok b => rw [Option.some.inj h]

theorem exists_ok_of_isSome {ε : Type*} {α : Type} {x : Except ε α}
    (h : x.toOption.isSome = true) : ∃ a, x = .ok a := by
  cases x with
  | error e => cases h
  | ok a => exact ⟨a, rfl⟩

end ApexForensic.Domain
