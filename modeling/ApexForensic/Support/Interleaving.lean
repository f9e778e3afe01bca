import ApexForensic.Support.Run

/-!
# Interleaved requests over one store

A request is a script of transactions.  Each transaction sees the store as all
requests have left it and reports the events it commits; the transactions of
any number of requests interleave freely.  The rule for invariants is that of
rely and guarantee: a script is safe when each of its transactions keeps the
invariant and respects the relation on which the others rely.
-/

namespace ApexForensic.Support

universe u

/-- A computation that reaches the store by transactions only.  What follows a
transaction depends on the store it saw. -/
inductive Script (σ ℓ ε α : Type) where
  | done (result : Except ε α)
  | transaction (effect : σ → σ × List ℓ) (next : σ → Script σ ℓ ε α)

namespace Script

variable {σ ℓ ε α β : Type}

def bind : Script σ ℓ ε α → (α → Script σ ℓ ε β) → Script σ ℓ ε β
  | done (.ok a), f => f a
  | done (.error e), _ => done (.error e)
  | transaction effect next, f => transaction effect fun s => (next s).bind f

instance : Monad (Script σ ℓ ε) where
  pure a := done (.ok a)
  bind := bind

/-- Stop with an error. -/
def raise (e : ε) : Script σ ℓ ε α :=
  done (.error e)

/-- A transaction with its result, the store it leaves and its events. -/
def commit (f : σ → α × σ × List ℓ) : Script σ ℓ ε α :=
  transaction (fun s => (f s).2) fun s => done (.ok (f s).1)

def read (f : σ → α) : Script σ ℓ ε α :=
  commit fun s => (f s, s, [])

def write (f : σ → σ × List ℓ) : Script σ ℓ ε Unit :=
  commit fun s => ((), f s)

theorem read_bind_bind {γ : Type} (g : σ → α) (f : α → Script σ ℓ ε β)
    (f' : β → Script σ ℓ ε γ) :
    ((read g >>= f) >>= f') = read g >>= fun a => f a >>= f' := rfl

/-- The store and the result of a script that runs alone. -/
def alone : Script σ ℓ ε α → σ → σ × Except ε α
  | done result, s => (s, result)
  | transaction effect next, s => alone (next s) (effect s).1

@[simp] theorem alone_commit_bind (g : σ → α × σ × List ℓ)
    (f : α → Script σ ℓ ε β) (s : σ) :
    alone (commit g >>= f) s = alone (f (g s).1) (g s).2.1 := rfl

/-! ## One request among others -/

/-- The transactions of a script, each with the store before and after it, and
its result, when others change the store before each of them. -/
def runAmong (others : ℕ → σ → σ) :
    ℕ → Script σ ℓ ε α → σ → List (σ × σ) × Except ε α
  | _, done result, _ => ([], result)
  | n, transaction effect next, s =>
      let t := others n s
      let rest := runAmong others (n + 1) (next t) (effect t).1
      ((t, (effect t).1) :: rest.1, rest.2)

@[simp] theorem runAmong_commit_bind (others : ℕ → σ → σ) (n : ℕ)
    (g : σ → α × σ × List ℓ) (f : α → Script σ ℓ ε β) (s : σ) :
    runAmong others n (commit g >>= f) s =
      ((others n s, (g (others n s)).2.1) ::
        (runAmong others (n + 1) (f (g (others n s)).1)
          (g (others n s)).2.1).1,
        (runAmong others (n + 1) (f (g (others n s)).1)
          (g (others n s)).2.1).2) := rfl

end Script

/-! ## Any number of requests -/

/-- The store and the events committed so far, each with its request. -/
structure History (σ ι ℓ : Type) where
  store : σ
  log : List (ι × ℓ)

/-- The history after a transaction of a request. -/
def History.after {σ ι ℓ : Type} (h : History σ ι ℓ) (i : ι)
    (next : σ × List ℓ) : History σ ι ℓ where
  store := next.1
  log := h.log ++ next.2.map fun event => (i, event)

/-- How far a request has got. -/
inductive Progress (σ ℓ ε α ρ : Type) where
  | idle
  | running (request : ρ) (script : Script σ ℓ ε α)
  | finished (request : ρ) (result : Except ε α)

def Progress.settle {σ ℓ ε α ρ : Type} (request : ρ) :
    Script σ ℓ ε α → Progress σ ℓ ε α ρ
  | .done result => finished request result
  | script => running request script

structure System (σ ι ℓ ε α ρ : Type) extends History σ ι ℓ where
  progress : ι → Progress σ ℓ ε α ρ

/-- A request starts, or makes its next transaction. -/
inductive Move (ι ρ : Type) where
  | start (i : ι) (request : ρ)
  | advance (i : ι)

namespace System

variable {σ ι ℓ ε α ρ : Type} [DecidableEq ι]
variable (script : ρ → Script σ ℓ ε α)

def initial (store : σ) : System σ ι ℓ ε α ρ where
  store := store
  log := []
  progress _ := .idle

def step (w : System σ ι ℓ ε α ρ) : Move ι ρ → System σ ι ℓ ε α ρ
  | .start i request =>
      match w.progress i with
      | .idle =>
          { w with progress :=
              Function.update w.progress i (.settle request (script request)) }
      | _ => w
  | .advance i =>
      match w.progress i with
      | .running request (.transaction effect next) =>
          { w.toHistory.after i (effect w.store) with
            progress :=
              Function.update w.progress i (.settle request (next w.store)) }
      | _ => w

/-- The system after any interleaving of requests. -/
def reached (store : σ) (moves : List (Move ι ρ)) : System σ ι ℓ ε α ρ :=
  run (step script) (initial store) moves

end System

/-! ## Rely and guarantee -/

section Safe

variable {σ ι ℓ ε α ρ : Type}

/-- What the requests of a system agree on: an invariant, a relation between
earlier and later histories, and what holds of a result from then on. -/
structure Protocol (σ ι ℓ ε α ρ : Type) where
  inv : History σ ι ℓ → Prop
  rely : History σ ι ℓ → History σ ι ℓ → Prop
  post : ι → ρ → Except ε α → History σ ι ℓ → Prop
  refl : ∀ h, rely h h
  trans : ∀ {h k l}, rely h k → rely k l → rely h l
  post_of_rely : ∀ {i request result h k}, rely h k →
    post i request result h → post i request result k

/-- From the history on, and whatever the others do, each transaction of the
script keeps the invariant and respects the relation, and its end establishes
the postcondition. -/
def Script.Safe (p : Protocol σ ι ℓ ε α ρ) (i : ι) (request : ρ) :
    Script σ ℓ ε α → History σ ι ℓ → Prop
  | done result, h => p.post i request result h
  | transaction effect next, h => ∀ k, p.rely h k → p.inv k →
      p.inv (k.after i (effect k.store)) ∧
      p.rely k (k.after i (effect k.store)) ∧
      Safe p i request (next k.store) (k.after i (effect k.store))

variable {p : Protocol σ ι ℓ ε α ρ}

theorem Script.Safe.of_rely {i : ι} {request : ρ} {script : Script σ ℓ ε α}
    {h k : History σ ι ℓ} (hsafe : script.Safe p i request h)
    (hrely : p.rely h k) : script.Safe p i request k := by
  cases script with
  | done result => exact p.post_of_rely hrely hsafe
  | transaction effect next =>
      intro l hkl hinv
      exact hsafe l (p.trans hrely hkl) hinv

theorem Script.safe_commit_bind {β : Type} {i : ι} {request : ρ}
    {g : σ → β × σ × List ℓ} {f : β → Script σ ℓ ε α} {h : History σ ι ℓ}
    (hsafe : ∀ k, p.rely h k → p.inv k →
      p.inv (k.after i (g k.store).2) ∧
      p.rely k (k.after i (g k.store).2) ∧
      (f (g k.store).1).Safe p i request (k.after i (g k.store).2)) :
    (commit g >>= f).Safe p i request h :=
  hsafe

@[simp] theorem History.after_nil (h : History σ ι ℓ) (i : ι) :
    h.after i (h.store, []) = h := by
  simp [History.after]

theorem Script.safe_read_bind {β : Type} {i : ι} {request : ρ} {g : σ → β}
    {f : β → Script σ ℓ ε α} {h : History σ ι ℓ}
    (hsafe : ∀ k, p.rely h k → p.inv k →
      (f (g k.store)).Safe p i request k) :
    (read g >>= f).Safe p i request h := by
  refine Script.safe_commit_bind fun k hrely hinv => ?_
  rw [History.after_nil]
  exact ⟨hinv, p.refl k, hsafe k hrely hinv⟩

/-! The same rules when the result is mapped afterwards. -/

theorem Script.safe_map_commit_bind {β γ : Type} {i : ι} {request : ρ}
    {φ : γ → α} {g : σ → β × σ × List ℓ} {f : β → Script σ ℓ ε γ}
    {h : History σ ι ℓ} (hsafe : ∀ k, p.rely h k → p.inv k →
      p.inv (k.after i (g k.store).2) ∧
      p.rely k (k.after i (g k.store).2) ∧
      (φ <$> f (g k.store).1).Safe p i request
        (k.after i (g k.store).2)) :
    (φ <$> (commit g >>= f)).Safe p i request h :=
  hsafe

theorem Script.safe_map_read_bind {β γ : Type} {i : ι} {request : ρ}
    {φ : γ → α} {g : σ → β} {f : β → Script σ ℓ ε γ} {h : History σ ι ℓ}
    (hsafe : ∀ k, p.rely h k → p.inv k →
      (φ <$> f (g k.store)).Safe p i request k) :
    (φ <$> (read g >>= f)).Safe p i request h := by
  refine Script.safe_map_commit_bind fun k hrely hinv => ?_
  rw [History.after_nil]
  exact ⟨hinv, p.refl k, hsafe k hrely hinv⟩

theorem Script.safe_map_write {i : ι} {request : ρ} {φ : Unit → α}
    {f : σ → σ × List ℓ} {h : History σ ι ℓ}
    (hsafe : ∀ k, p.rely h k → p.inv k →
      p.inv (k.after i (f k.store)) ∧ p.rely k (k.after i (f k.store)) ∧
      p.post i request (.ok (φ ())) (k.after i (f k.store))) :
    (φ <$> (write f : Script σ ℓ ε Unit)).Safe p i request h :=
  hsafe

/-- What holds of how far a request has got. -/
def Progress.Safe (p : Protocol σ ι ℓ ε α ρ) (i : ι) (h : History σ ι ℓ) :
    Progress σ ℓ ε α ρ → Prop
  | .idle => True
  | .running request script => script.Safe p i request h
  | .finished request result => p.post i request result h

theorem Progress.Safe.of_rely {i : ι} {h k : History σ ι ℓ}
    {progress : Progress σ ℓ ε α ρ} (hsafe : progress.Safe p i h)
    (hrely : p.rely h k) : progress.Safe p i k := by
  cases progress with
  | idle => trivial
  | running request script => exact Script.Safe.of_rely hsafe hrely
  | finished request result => exact p.post_of_rely hrely hsafe

theorem Progress.safe_settle {i : ι} {h : History σ ι ℓ} {request : ρ}
    {script : Script σ ℓ ε α} (hsafe : script.Safe p i request h) :
    (Progress.settle request script).Safe p i h := by
  cases script with
  | done result => exact hsafe
  | transaction effect next => exact hsafe

variable [DecidableEq ι] {script : ρ → Script σ ℓ ε α}

/-- The invariant holds and every request is safe. -/
structure System.Sound (p : Protocol σ ι ℓ ε α ρ)
    (w : System σ ι ℓ ε α ρ) : Prop where
  inv : p.inv w.toHistory
  safe : ∀ i, (w.progress i).Safe p i w.toHistory

theorem System.Sound.step {w : System σ ι ℓ ε α ρ} (hw : w.Sound p)
    (hscripts : ∀ i request h, p.inv h →
      (script request).Safe p i request h) (move : Move ι ρ) :
    (w.step script move).Sound p := by
  cases move with
  | start i request =>
      rw [System.step]
      split
      · refine ⟨hw.inv, fun j => ?_⟩
        by_cases hj : j = i
        · subst hj
          simpa using Progress.safe_settle (hscripts j request _ hw.inv)
        · simpa [hj] using hw.safe j
      · exact hw
  | advance i =>
      rw [System.step]
      split
      · rename_i request effect next hrunning
        have hsafe := hw.safe i
        rw [hrunning] at hsafe
        obtain ⟨hinv, hrely, hnext⟩ := hsafe w.toHistory (p.refl _) hw.inv
        refine ⟨hinv, fun j => ?_⟩
        by_cases hj : j = i
        · subst hj
          simpa using Progress.safe_settle hnext
        · simpa [hj] using (hw.safe j).of_rely hrely
      · exact hw

theorem System.Sound.rely_step {w : System σ ι ℓ ε α ρ} (hw : w.Sound p)
    (move : Move ι ρ) : p.rely w.toHistory (w.step script move).toHistory := by
  cases move with
  | start i request =>
      rw [System.step]
      split
      · exact p.refl _
      · exact p.refl _
  | advance i =>
      rw [System.step]
      split
      · rename_i request effect next hrunning
        have hsafe := hw.safe i
        rw [hrunning] at hsafe
        exact (hsafe w.toHistory (p.refl _) hw.inv).2.1
      · exact p.refl _

theorem System.sound_reached
    (hscripts : ∀ i request h, p.inv h →
      (script request).Safe p i request h)
    {store : σ} (hinv : p.inv ⟨store, []⟩) (moves : List (Move ι ρ)) :
    (System.reached script store moves).Sound p :=
  run_invariant (fun _ move hw => hw.step hscripts move)
    ⟨hinv, fun _ => trivial⟩ moves

theorem System.rely_reached
    (hscripts : ∀ i request h, p.inv h →
      (script request).Safe p i request h)
    {store : σ} (hinv : p.inv ⟨store, []⟩) (before after : List (Move ι ρ)) :
    p.rely (System.reached script store before).toHistory
      (System.reached script store (before ++ after)).toHistory := by
  rw [System.reached, System.reached, run_append]
  exact run_related (R := fun w w' => p.rely w.toHistory w'.toHistory)
    (fun _ move hw => hw.step hscripts move) (fun _ => p.refl _) p.trans
    (fun _ move hw => hw.rely_step move)
    (System.sound_reached hscripts hinv before) after

end Safe

end ApexForensic.Support
