import ApexForensic.Support.Interleaving
import ApexForensic.Support.Service

/-!
# The transactions of interleaved requests

What each transaction of every request does to the store, each step of a
system of such requests does.  A request that rolls back can fail only before
it changes anything, so a failed request has left the store alone at each of
its steps.
-/

namespace ApexForensic.Support

variable {σ ι ℓ ε α β ρ : Type}

namespace Script

/-- A transaction that may raise; then it changes nothing. -/
def attempt (f : σ → Except ε (α × σ × List ℓ)) : Script σ ℓ ε α :=
  transaction
    (fun s =>
      match f s with
      | .ok r => r.2
      | .error _ => (s, []))
    fun s => done ((f s).map Prod.fst)

/-- A transaction that reads and may raise. -/
def query (f : σ → Except ε α) : Script σ ℓ ε α :=
  transaction (fun s => (s, [])) fun s => done (f s)

/-- `try: ... except`: the handler runs on the errors it catches. -/
def handle (m : Script σ ℓ ε α) (catches : ε → Bool)
    (handler : ε → Script σ ℓ ε α) : Script σ ℓ ε α :=
  match m with
  | done (.ok a) => done (.ok a)
  | done (.error e) => if catches e then handler e else done (.error e)
  | transaction effect next =>
      transaction effect fun s => (next s).handle catches handler

theorem bind_bind {γ : Type} (m : Script σ ℓ ε α) (f : α → Script σ ℓ ε β)
    (g : β → Script σ ℓ ε γ) :
    ((m >>= f) >>= g) = m >>= fun a => f a >>= g := by
  induction m with
  | done result =>
      cases result with
      | error e => rfl
      | ok a => rfl
  | transaction effect next ih =>
      change transaction effect (fun s => (next s >>= f) >>= g) =
        transaction effect fun s => next s >>= fun a => f a >>= g
      rw [funext ih]

/-- The store, the events and what is left of a script after some of its
transactions, with no other request between them. -/
def advance : ℕ → Script σ ℓ ε α → σ → σ × List ℓ × Script σ ℓ ε α
  | 0, m, s => (s, [], m)
  | _ + 1, done result, s => (s, [], done result)
  | n + 1, transaction effect next, s =>
      let rest := advance n (next s) (effect s).1
      (rest.1, (effect s).2 ++ rest.2.1, rest.2.2)

theorem advance_one_bind {effect : σ → σ × List ℓ} {next : σ → Script σ ℓ ε α}
    {f : α → Script σ ℓ ε β} {s : σ} :
    (transaction effect next >>= f).advance 1 s =
      ((effect s).1, (effect s).2 ++ [], (next s).bind f) := rfl

theorem advance_query_bind {n : ℕ} {g : σ → Except ε α}
    {f : α → Script σ ℓ ε β} {s : σ} {a : α} (h : g s = .ok a) :
    (query g >>= f).advance (n + 1) s = (f a).advance n s := by
  have hnext : ((done (g s) : Script σ ℓ ε α) >>= f) = f a := by
    rw [h]
    rfl
  change ((((done (g s) : Script σ ℓ ε α) >>= f).advance n s).1,
    [] ++ (((done (g s) : Script σ ℓ ε α) >>= f).advance n s).2.1,
    (((done (g s) : Script σ ℓ ε α) >>= f).advance n s).2.2) = _
  rw [hnext]
  rfl

theorem advance_attempt_bind {n : ℕ} {g : σ → Except ε (α × σ × List ℓ)}
    {f : α → Script σ ℓ ε β} {s : σ} {r : α × σ × List ℓ} (h : g s = .ok r) :
    (attempt g >>= f).advance (n + 1) s =
      (((f r.1).advance n r.2.1).1, r.2.2 ++ ((f r.1).advance n r.2.1).2.1,
        ((f r.1).advance n r.2.1).2.2) := by
  have heffect : (match g s with
    | .ok r => r.2
    | .error _ => (s, [])) = r.2 := by rw [h]
  have hnext : ((done ((g s).map Prod.fst) : Script σ ℓ ε α) >>= f) =
      f r.1 := by
    rw [h]
    rfl
  change ((((done ((g s).map Prod.fst) : Script σ ℓ ε α) >>= f).advance n
      (match g s with
        | .ok r => r.2
        | .error _ => (s, [])).1).1,
    (match g s with
      | .ok r => r.2
      | .error _ => (s, [])).2 ++
      (((done ((g s).map Prod.fst) : Script σ ℓ ε α) >>= f).advance n
        (match g s with
          | .ok r => r.2
          | .error _ => (s, [])).1).2.1,
    (((done ((g s).map Prod.fst) : Script σ ℓ ε α) >>= f).advance n
      (match g s with
        | .ok r => r.2
        | .error _ => (s, [])).1).2.2) = _
  rw [heffect, hnext]

/-! ## What each transaction does -/

/-- Each transaction relates the store before it to the store and the events
it leaves. -/
def Respects (R : σ → σ × List ℓ → Prop) : Script σ ℓ ε α → Prop
  | done _ => True
  | transaction effect next => ∀ s, R s (effect s) ∧ (next s).Respects R

variable {R : σ → σ × List ℓ → Prop}

theorem respects_done (result : Except ε α) :
    (done result : Script σ ℓ ε α).Respects R :=
  trivial

theorem respects_bind {m : Script σ ℓ ε α} {f : α → Script σ ℓ ε β}
    (hm : m.Respects R) (hf : ∀ a, (f a).Respects R) :
    (m >>= f).Respects R := by
  induction m with
  | done result =>
      cases result with
      | error e => trivial
      | ok a => exact hf a
  | transaction effect next ih =>
      intro s
      obtain ⟨heffect, hnext⟩ := hm s
      exact ⟨heffect, ih s hnext⟩

theorem respects_query (hrefl : ∀ s, R s (s, [])) (f : σ → Except ε α) :
    (query f : Script σ ℓ ε α).Respects R :=
  fun s => ⟨hrefl s, trivial⟩

theorem respects_attempt (hrefl : ∀ s, R s (s, []))
    {f : σ → Except ε (α × σ × List ℓ)}
    (h : ∀ s a t, f s = .ok (a, t) → R s t) : (attempt f).Respects R := by
  intro s
  refine ⟨?_, trivial⟩
  change R s (match f s with
    | .ok r => r.2
    | .error _ => (s, []))
  cases hf : f s with
  | error e => exact hrefl s
  | ok r => exact h s r.1 r.2 hf

/-! ## Scripts that change nothing when they fail -/

/-- Whatever the script sees, it ends with a result. -/
def Returns : Script σ ℓ ε α → Prop
  | done result => ∃ a, result = .ok a
  | transaction _ next => ∀ s, (next s).Returns

/-- Once the script has changed the store, it ends with a result. -/
def RollsBack : Script σ ℓ ε α → Prop
  | done _ => True
  | transaction effect next =>
      ∀ s, ((effect s).1 = s ∨ (next s).Returns) ∧ (next s).RollsBack

theorem rollsBack_done (result : Except ε α) :
    (done result : Script σ ℓ ε α).RollsBack :=
  trivial

theorem rollsBack_query_bind {g : σ → Except ε α} {f : α → Script σ ℓ ε β}
    (hf : ∀ a, (f a).RollsBack) : (query g >>= f).RollsBack := by
  intro s
  refine ⟨Or.inl rfl, ?_⟩
  change ((done (g s) : Script σ ℓ ε α) >>= f).RollsBack
  cases g s with
  | error e => trivial
  | ok a => exact hf a

theorem rollsBack_attempt_bind {g : σ → Except ε (α × σ × List ℓ)}
    (f : α → β) : (attempt g >>= fun a => pure (f a)).RollsBack := by
  intro s
  change ((match g s with
      | .ok r => r.2
      | .error _ => (s, [])).1 = s ∨
        ((done ((g s).map Prod.fst) : Script σ ℓ ε α) >>=
          fun a => pure (f a)).Returns) ∧
    ((done ((g s).map Prod.fst) : Script σ ℓ ε α) >>=
      fun a => pure (f a)).RollsBack
  cases g s with
  | error e => exact ⟨Or.inl rfl, trivial⟩
  | ok r => exact ⟨Or.inr ⟨f r.1, rfl⟩, trivial⟩

/-! ## Safety -/

section Safe

variable {p : Protocol σ ι ℓ ε α ρ} {i : ι} {request : ρ}
  {h : History σ ι ℓ}

theorem safe_done_bind {result : Except ε β} {f : β → Script σ ℓ ε α}
    (herror : ∀ e, result = .error e → p.post i request (.error e) h)
    (hsafe : ∀ b, result = .ok b → (f b).Safe p i request h) :
    ((done result : Script σ ℓ ε β) >>= f).Safe p i request h := by
  cases result with
  | error e => exact herror e rfl
  | ok b => exact hsafe b rfl

theorem safe_query_bind {g : σ → Except ε β} {f : β → Script σ ℓ ε α}
    (herror : ∀ k e, p.rely h k → p.inv k → g k.store = .error e →
      p.post i request (.error e) k)
    (hsafe : ∀ k b, p.rely h k → p.inv k → g k.store = .ok b →
      (f b).Safe p i request k) :
    (query g >>= f).Safe p i request h := by
  intro k hrely hinv
  have hnext : ((done (g k.store) : Script σ ℓ ε β) >>= f).Safe p i request
      k := by
    cases hg : g k.store with
    | error e => exact herror k e hrely hinv hg
    | ok b => exact hsafe k b hrely hinv hg
  rw [History.after_nil]
  exact ⟨hinv, p.refl k, hnext⟩

theorem safe_attempt_bind {g : σ → Except ε (β × σ × List ℓ)}
    {f : β → Script σ ℓ ε α}
    (herror : ∀ k e, p.rely h k → p.inv k → g k.store = .error e →
      p.post i request (.error e) k)
    (hsafe : ∀ k b t, p.rely h k → p.inv k → g k.store = .ok (b, t) →
      p.inv (k.after i t) ∧ p.rely k (k.after i t) ∧
        (f b).Safe p i request (k.after i t)) :
    (attempt g >>= f).Safe p i request h := by
  intro k hrely hinv
  change p.inv (k.after i (match g k.store with
      | .ok r => r.2
      | .error _ => (k.store, []))) ∧
    p.rely k (k.after i (match g k.store with
      | .ok r => r.2
      | .error _ => (k.store, []))) ∧
    ((done ((g k.store).map Prod.fst) : Script σ ℓ ε β) >>= f).Safe p i
      request (k.after i (match g k.store with
        | .ok r => r.2
        | .error _ => (k.store, [])))
  cases hg : g k.store with
  | error e =>
      simp only [History.after_nil]
      exact ⟨hinv, p.refl k, herror k e hrely hinv hg⟩
  | ok r => exact hsafe k r.1 r.2 hrely hinv hg

end Safe

/-! ## The events of a script -/

/-- What each transaction does, and what holds of the events the script has
caused, at each point and with its result, whatever it sees from here on. -/
def Traces (R : σ → σ × List ℓ → Prop) (Q : List ℓ → Prop)
    (post : List ℓ → Except ε α → Prop) : Script σ ℓ ε α → List ℓ → Prop
  | done result, own => Q own ∧ post own result
  | transaction effect next, own =>
      Q own ∧ ∀ s, R s (effect s) ∧
        (next s).Traces R Q post (own ++ (effect s).2)

theorem Traces.respects {Q : List ℓ → Prop}
    {post : List ℓ → Except ε α → Prop} {m : Script σ ℓ ε α} {own : List ℓ}
    (h : m.Traces R Q post own) : m.Respects R := by
  induction m generalizing own with
  | done result => trivial
  | transaction effect next ih =>
      intro s
      obtain ⟨hR, hnext⟩ := h.2 s
      exact ⟨hR, ih s hnext⟩

section Traces

variable {Q : List ℓ → Prop} {post : List ℓ → Except ε β → Prop}
  {own : List ℓ}

theorem traces_query_bind {g : σ → Except ε α} {f : α → Script σ ℓ ε β}
    (hown : Q own) (hrefl : ∀ s, R s (s, []))
    (herror : ∀ e, post own (.error e))
    (hf : ∀ s a, g s = .ok a → (f a).Traces R Q post own) :
    (query g >>= f).Traces R Q post own := by
  refine ⟨hown, fun s => ⟨hrefl s, ?_⟩⟩
  change ((done (g s) : Script σ ℓ ε α) >>= f).Traces R Q post (own ++ [])
  rw [List.append_nil]
  cases hg : g s with
  | error e => exact ⟨hown, herror e⟩
  | ok a => exact hf s a hg

theorem traces_attempt_bind {g : σ → Except ε (α × σ × List ℓ)}
    {f : α → Script σ ℓ ε β} (hown : Q own) (hrefl : ∀ s, R s (s, []))
    (herror : ∀ e, post own (.error e)) (hf : ∀ s a t, g s = .ok (a, t) →
      R s t ∧ (f a).Traces R Q post (own ++ t.2)) :
    (attempt g >>= f).Traces R Q post own := by
  refine ⟨hown, fun s => ?_⟩
  change R s (match g s with
      | .ok r => r.2
      | .error _ => (s, [])) ∧
    ((done ((g s).map Prod.fst) : Script σ ℓ ε α) >>= f).Traces R Q post
      (own ++ (match g s with
        | .ok r => r.2
        | .error _ => (s, [])).2)
  cases hg : g s with
  | error e =>
      rw [List.append_nil]
      exact ⟨hrefl s, hown, herror e⟩
  | ok r => exact hf s r.1 r.2 hg

end Traces

end Script

def eventsOf [DecidableEq ι] (i : ι) (log : List (ι × ℓ)) : List ℓ :=
  (log.filter fun e => e.1 = i).map Prod.snd

theorem eventsOf_after_self [DecidableEq ι] (h : History σ ι ℓ) (i : ι)
    (t : σ × List ℓ) :
    eventsOf i (h.after i t).log = eventsOf i h.log ++ t.2 := by
  simp [eventsOf, History.after, List.filter_map, Function.comp_def]

theorem eventsOf_after_of_ne [DecidableEq ι] (h : History σ ι ℓ) {i j : ι}
    (hij : i ≠ j) (t : σ × List ℓ) :
    eventsOf i (h.after j t).log = eventsOf i h.log := by
  simp [eventsOf, History.after, List.filter_map, Function.comp_def,
    hij.symm]

/-! ## Runs -/

/-- A request that has started has yet to run a script, or has ended. -/
def Progress.Holds (P : Script σ ℓ ε α → Prop) : Progress σ ℓ ε α ρ → Prop
  | .idle => True
  | .running _ m => P m
  | .finished _ result => P (.done result)

theorem Progress.holds_settle {P : Script σ ℓ ε α → Prop} {request : ρ}
    {m : Script σ ℓ ε α} (h : P m) :
    (Progress.settle request m).Holds P := by
  cases m with
  | done result => exact h
  | transaction effect next => exact h

/-- The request is bound to end with a result. -/
def Progress.Returns : Progress σ ℓ ε α ρ → Prop
  | .idle => False
  | .running _ m => m.Returns
  | .finished _ result => ∃ a, result = .ok a

/-- How far a request has got, and the events it has caused. -/
def Progress.Traces (R : σ → σ × List ℓ → Prop) (Q : List ℓ → Prop)
    (post : ρ → List ℓ → Except ε α → Prop) :
    Progress σ ℓ ε α ρ → List ℓ → Prop
  | .idle, own => own = []
  | .running request m, own => m.Traces R Q (post request) own
  | .finished request result, own => Q own ∧ post request own result

/-- How far a request has got, and what is known of the script it has yet to
run and of the events it has caused. -/
def Progress.Tracks (G : ρ → Script σ ℓ ε α → List ℓ → Prop) :
    Progress σ ℓ ε α ρ → List ℓ → Prop
  | .idle, own => own = []
  | .running request m, own => G request m own
  | .finished request result, own => G request (.done result) own

theorem Progress.tracks_settle {G : ρ → Script σ ℓ ε α → List ℓ → Prop}
    {request : ρ} {m : Script σ ℓ ε α} {own : List ℓ}
    (h : G request m own) : (Progress.settle request m).Tracks G own := by
  cases m with
  | done result => exact h
  | transaction effect next => exact h

theorem Progress.traces_iff {R : σ → σ × List ℓ → Prop}
    {Q : List ℓ → Prop} {post : ρ → List ℓ → Except ε α → Prop}
    {progress : Progress σ ℓ ε α ρ} {own : List ℓ} :
    progress.Traces R Q post own ↔
      progress.Tracks (fun request m own => m.Traces R Q (post request) own)
        own := by
  cases progress with
  | idle => rfl
  | running request m => rfl
  | finished request result => rfl

def Progress.request? : Progress σ ℓ ε α ρ → Option ρ
  | .idle => none
  | .running request _ => some request
  | .finished request _ => some request

namespace System

variable [DecidableEq ι] {script : ρ → Script σ ℓ ε α} {store : σ}

theorem reached_concat (moves : List (Move ι ρ)) (move : Move ι ρ) :
    reached script store (moves ++ [move]) =
      (reached script store moves).step script move :=
  run_concat _ _ _ _

theorem log_grows (script : ρ → Script σ ℓ ε α) (store : σ)
    (before after : List (Move ι ρ)) :
    (reached script store before).log <+:
      (reached script store (before ++ after)).log := by
  rw [reached, reached, run_append]
  refine @run_related _ _ (step script) (fun _ => True)
    (fun w v : System σ ι ℓ ε α ρ => w.log <+: v.log)
    (fun _ _ _ => trivial) (fun w => List.prefix_refl w.log)
    List.IsPrefix.trans (fun w move _ => ?_) _ trivial after
  cases move with
  | start i request =>
      rw [step]
      split
      · exact List.prefix_refl _
      · exact List.prefix_refl _
  | advance i =>
      rw [step]
      split
      · exact List.prefix_append _ _
      · exact List.prefix_refl _

section Hereditary

variable {P : Script σ ℓ ε α → Prop}

theorem holds_step
    (hnext : ∀ {effect next}, P (.transaction effect next) →
      ∀ s, P (next s))
    (hstart : ∀ request, P (script request)) (w : System σ ι ℓ ε α ρ)
    (move : Move ι ρ) (hw : ∀ i, (w.progress i).Holds P) (i : ι) :
    ((w.step script move).progress i).Holds P := by
  cases move with
  | start j request =>
      rw [step]
      split
      · by_cases hij : i = j
        · subst hij
          simpa using Progress.holds_settle (hstart request)
        · simpa [hij] using hw i
      · exact hw i
  | advance j =>
      rw [step]
      split
      · rename_i request effect next hrunning
        have hj := hw j
        rw [hrunning] at hj
        by_cases hij : i = j
        · subst hij
          simpa using Progress.holds_settle (hnext hj w.store)
        · simpa [hij] using hw i
      · exact hw i

theorem run_advance (script : ρ → Script σ ℓ ε α) {i : ι} {request : ρ}
    (n : ℕ) {w : System σ ι ℓ ε α ρ} {m : Script σ ℓ ε α}
    (h : w.progress i = .settle request m) :
    run (step script) w (List.replicate n (.advance i)) =
      { store := (m.advance n w.store).1
        log := w.log ++ (m.advance n w.store).2.1.map fun note => (i, note)
        progress := Function.update w.progress i
          (.settle request (m.advance n w.store).2.2) } := by
  induction n generalizing w m with
  | zero =>
      have hsame := Function.update_eq_self i w.progress
      rw [h] at hsame
      simp [Script.advance, hsame]
  | succ n ih =>
      rw [List.replicate_succ, run_cons]
      cases m with
      | done result =>
          have hstep : w.step script (.advance i) = w := by
            rw [step, h, Progress.settle]
          rw [hstep, ih h]
          cases n with
          | zero => rfl
          | succ n => rfl
      | transaction effect next =>
          have hstep : w.step script (.advance i) =
              { w.toHistory.after i (effect w.store) with
                progress := Function.update w.progress i
                  (.settle request (next w.store)) } := by
            rw [step, h, Progress.settle]
            simp
          rw [hstep, ih (Function.update_self ..)]
          simp [Script.advance, History.after]

theorem exists_run_advance {script : ρ → Script σ ℓ ε α} {i : ι}
    {request : ρ} {n : ℕ} {w : System σ ι ℓ ε α ρ} {m m' : Script σ ℓ ε α}
    {t : σ} {notes : List ℓ} (h : w.progress i = .settle request m)
    (hm : m.advance n w.store = (t, notes, m')) :
    ∃ v, run (step script) w (List.replicate n (.advance i)) = v ∧
      v.store = t ∧ v.log = w.log ++ notes.map (fun note => (i, note)) ∧
      v.progress i = .settle request m' ∧
      ∀ j, j ≠ i → v.progress j = w.progress j := by
  have hrun := run_advance script n h
  rw [hm] at hrun
  refine ⟨_, hrun, rfl, rfl, ?_, fun j hj => ?_⟩
  · simp
  · simp [hj]

theorem exists_transaction_of_running (script : ρ → Script σ ℓ ε α)
    (store : σ) (moves : List (Move ι ρ)) {i : ι} {request : ρ}
    {m : Script σ ℓ ε α}
    (h : (reached script store moves).progress i = .running request m) :
    ∃ effect next, m = .transaction effect next := by
  have hsettle : ∀ r m', Progress.settle r m' = .running request m →
      ∃ effect next, m = .transaction effect next := by
    intro r m' heq
    cases m' with
    | done result => cases heq
    | transaction effect next =>
        obtain ⟨-, rfl⟩ := Progress.running.inj heq
        exact ⟨effect, next, rfl⟩
  induction moves using List.reverseRecOn with
  | nil => cases h
  | append_singleton moves move ih =>
      rw [reached_concat] at h
      cases move with
      | start j r =>
          rw [step] at h
          split at h
          · by_cases hij : i = j
            · subst hij
              exact hsettle r _ (by simpa using h)
            · exact ih (by simpa [hij] using h)
          · exact ih h
      | advance j =>
          rw [step] at h
          split at h
          · by_cases hij : i = j
            · subst hij
              exact hsettle _ _ (by simpa using h)
            · exact ih (by simpa [hij] using h)
          · exact ih h

/-- What every script has and each transaction leaves to what follows, all
running scripts have. -/
theorem holds_reached (store : σ)
    (hnext : ∀ {effect next}, P (.transaction effect next) →
      ∀ s, P (next s))
    (hstart : ∀ request, P (script request)) (moves : List (Move ι ρ)) (i : ι) :
    ((reached script store moves).progress i).Holds P :=
  @run_invariant _ _ (step script) (fun w => ∀ i, (w.progress i).Holds P)
    (fun w move hw => holds_step hnext hstart w move hw) _
    (fun _ => show Progress.Holds P .idle from trivial) moves i

end Hereditary

variable {R : σ → σ × List ℓ → Prop}

theorem history_step (store : σ)
    (hscripts : ∀ request, (script request).Respects R)
    (moves : List (Move ι ρ)) (move : Move ι ρ) :
    (reached script store (moves ++ [move])).toHistory =
        (reached script store moves).toHistory ∨
      ∃ i t, move = .advance i ∧ R (reached script store moves).store t ∧
        (reached script store (moves ++ [move])).toHistory =
          (reached script store moves).toHistory.after i t := by
  rw [reached_concat]
  cases move with
  | start i request =>
      rw [step]
      split
      · exact Or.inl rfl
      · exact Or.inl rfl
  | advance i =>
      rw [step]
      split
      · rename_i request effect next hrunning
        have hi := holds_reached (P := Script.Respects R) store
          (fun h s => (h s).2) hscripts moves i
        rw [hrunning] at hi
        exact Or.inr ⟨i, _, rfl, (hi _).1, rfl⟩
      · exact Or.inl rfl

theorem history_invariant (hscripts : ∀ request, (script request).Respects R)
    {Inv : History σ ι ℓ → Prop} (hfirst : Inv ⟨store, []⟩)
    (hstep : ∀ h i t, Inv h → R h.store t → Inv (h.after i t))
    (moves : List (Move ι ρ)) :
    Inv (reached script store moves).toHistory := by
  induction moves using List.reverseRecOn with
  | nil => exact hfirst
  | append_singleton moves move ih =>
      rcases history_step store hscripts moves move with
        hsame | ⟨i, t, -, hR, hafter⟩
      · rw [hsame]
        exact ih
      · rw [hafter]
        exact hstep _ i t ih hR

section Tracks

variable {G : ρ → Script σ ℓ ε α → List ℓ → Prop}

theorem tracks_step
    (hnext : ∀ {request effect next own},
      G request (.transaction effect next) own →
        ∀ s, G request (next s) (own ++ (effect s).2))
    (hstart : ∀ request, G request (script request) [])
    (w : System σ ι ℓ ε α ρ) (move : Move ι ρ)
    (hw : ∀ i, (w.progress i).Tracks G (eventsOf i w.log)) (i : ι) :
    ((w.step script move).progress i).Tracks G
      (eventsOf i (w.step script move).log) := by
  cases move with
  | start j request =>
      rw [step]
      split
      · rename_i hidle
        by_cases hij : i = j
        · subst hij
          have hnone := hw i
          rw [hidle] at hnone
          simp only [Function.update_self]
          rw [hnone]
          exact Progress.tracks_settle (hstart request)
        · simpa [hij] using hw i
      · exact hw i
  | advance j =>
      rw [step]
      split
      · rename_i request effect next hrunning
        by_cases hij : i = j
        · subst hij
          have hi := hw i
          rw [hrunning] at hi
          rw [eventsOf_after_self]
          simpa using Progress.tracks_settle (hnext hi w.store)
        · rw [eventsOf_after_of_ne _ hij]
          simpa [hij] using hw i
      · exact hw i

/-- What every script has before it causes an event, and each transaction
leaves to what follows, is known in every run. -/
theorem tracks_reached (store : σ) (hnext : ∀ {request effect next own},
      G request (.transaction effect next) own →
        ∀ s, G request (next s) (own ++ (effect s).2))
    (hstart : ∀ request, G request (script request) [])
    (moves : List (Move ι ρ)) (i : ι) :
    ((reached script store moves).progress i).Tracks G
      (eventsOf i (reached script store moves).log) :=
  @run_invariant _ _ (step script)
    (fun w => ∀ i, (w.progress i).Tracks G (eventsOf i w.log))
    (fun w move hw => tracks_step hnext hstart w move hw) (initial store)
    (fun _ => rfl) moves i

/-- Each event in the log comes from a request that has started and that
causes such events. -/
theorem request_of_event (store : σ) {K : ρ → ℓ → Prop}
    (hscripts : ∀ request, (script request).Respects fun _ t =>
      ∀ event ∈ t.2, K request event)
    {moves : List (Move ι ρ)} {i : ι} {event : ℓ}
    (h : (i, event) ∈ (reached script store moves).log) :
    ∃ request,
      ((reached script store moves).progress i).request? = some request ∧
        K request event := by
  have hi := tracks_reached (G := fun request m own =>
      (∀ event ∈ own, K request event) ∧
        m.Respects fun _ t => ∀ event ∈ t.2, K request event)
    store (fun {request effect next own} hm s =>
      ⟨fun e he => (List.mem_append.mp he).elim (hm.1 e) ((hm.2 s).1 e),
        (hm.2 s).2⟩)
    (fun request => ⟨fun e he => absurd he List.not_mem_nil,
      hscripts request⟩) moves i
  have hevent : event ∈ eventsOf i (reached script store moves).log := by
    refine List.mem_map.mpr ⟨(i, event), List.mem_filter.mpr ⟨h, ?_⟩, rfl⟩
    exact decide_eq_true rfl
  cases hprogress : (reached script store moves).progress i with
  | idle =>
      rw [hprogress] at hi
      rw [show eventsOf i (reached script store moves).log = [] from hi]
        at hevent
      cases hevent
  | running request m =>
      rw [hprogress] at hi
      exact ⟨request, rfl, hi.1 event hevent⟩
  | finished request result =>
      rw [hprogress] at hi
      exact ⟨request, rfl, hi.1 event hevent⟩

end Tracks

section Traces

variable {Q : List ℓ → Prop} {post : ρ → List ℓ → Except ε α → Prop}

/-- In every run, what holds of the events of each script holds of those in
the log. -/
theorem traces_reached (store : σ)
    (hscripts : ∀ request, (script request).Traces R Q (post request) [])
    (moves : List (Move ι ρ)) (i : ι) :
    ((reached script store moves).progress i).Traces R Q post
      (eventsOf i (reached script store moves).log) := by
  rw [Progress.traces_iff]
  exact tracks_reached store (fun h s => (h.2 s).2) hscripts moves i

theorem traces_events (store : σ) (hnil : Q [])
    (hscripts : ∀ request, (script request).Traces R Q (post request) [])
    (moves : List (Move ι ρ)) (i : ι) :
    Q (eventsOf i (reached script store moves).log) := by
  have hi := traces_reached store hscripts moves i
  cases hprogress : (reached script store moves).progress i with
  | idle =>
      rw [hprogress] at hi
      rw [show eventsOf i (reached script store moves).log = [] from hi]
      exact hnil
  | running request m =>
      rw [hprogress] at hi
      cases m with
      | done result => exact hi.1
      | transaction effect next => exact hi.1
  | finished request result =>
      rw [hprogress] at hi
      exact hi.1

end Traces

theorem returns_step (w : System σ ι ℓ ε α ρ) (move : Move ι ρ) {i : ι}
    (hw : (w.progress i).Returns) :
    ((w.step script move).progress i).Returns := by
  cases move with
  | start j request =>
      rw [step]
      split
      · rename_i hidle
        have hij : i ≠ j := by
          rintro rfl
          rw [hidle] at hw
          exact hw
        simpa [hij] using hw
      · exact hw
  | advance j =>
      rw [step]
      split
      · rename_i request effect next hrunning
        by_cases hij : i = j
        · subst hij
          rw [hrunning] at hw
          have hnext := hw w.store
          simp only [Function.update_self]
          cases hm : next w.store with
          | done result =>
              rw [hm] at hnext
              exact hnext
          | transaction effect' next' =>
              rw [hm] at hnext
              exact hnext
        · simpa [hij] using hw
      · exact hw

/-- Where requests roll back, one that failed left the store as it was at each
of its steps. -/
theorem store_eq_of_failed
    (hscripts : ∀ request, (script request).RollsBack)
    {before after : List (Move ι ρ)} {i : ι} {request : ρ} {e : ε}
    (h : (reached script store (before ++ .advance i :: after)).progress i =
      .finished request (.error e)) :
    (reached script store (before ++ [.advance i])).store =
      (reached script store before).store := by
  have hi := holds_reached (P := Script.RollsBack) store
    (fun h s => (h s).2) hscripts before i
  rw [reached_concat]
  rw [reached, run_append, run_cons] at h
  change (run (step script) ((reached script store before).step script
    (.advance i)) after).progress i = _ at h
  generalize reached script store before = w at *
  by_contra hchanged
  have hreturns : ((w.step script (.advance i)).progress i).Returns := by
    rw [step] at hchanged ⊢
    split
    · rename_i request' effect next hrunning
      rw [hrunning] at hi hchanged
      obtain ⟨hsame | hnext, -⟩ := hi w.store
      · exact absurd hsame hchanged
      · simp only [Function.update_self]
        cases hm : next w.store with
        | done result =>
            rw [hm] at hnext
            exact hnext
        | transaction effect' next' =>
            rw [hm] at hnext
            exact hnext
    · rename_i hnone
      split at hchanged
      · rename_i request' effect next hrunning
        exact absurd hrunning (hnone request' effect next)
      · exact absurd rfl hchanged
  have hend := @run_invariant _ _ (step script)
    (fun v => (v.progress i).Returns)
    (fun v move hv => returns_step v move hv) _ hreturns after
  rw [h] at hend
  obtain ⟨a, ha⟩ := hend
  cases ha

end System

end ApexForensic.Support
