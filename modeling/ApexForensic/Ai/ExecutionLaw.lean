import ApexForensic.Ai.ExecutionSteps
import ApexForensic.Context.SessionLaw

/-!
# One dispatch and one result for a request

When no call looks for a result while another is underway for it, and nothing
that a call relies on changes before it has stored its result, a request has at
most one result for an operation and one dispatch that did not fail.  Two calls
that overlap may both dispatch the provider and both store a result.
-/

namespace ApexForensic.Ai

open ApexForensic.Support ApexForensic.Domain
open ApexForensic.Context (AnalysisContextSnapshot Sources)

namespace ExecutionWorld

variable {ι : Type}

/-! ## The law -/

/-- The calls that stored a result of the request and operation. -/
def storedBy (w : ExecutionWorld ι) (key : String × String) : List ι :=
  w.log.filterMap fun
    | .stored i key' _ => if key' = key then some i else none
    | .dispatched .. => none

/-- The calls that dispatched the provider, in order. -/
def dispatchers (w : ExecutionWorld ι) : List (ι × (String × String)) :=
  w.log.filterMap fun
    | .dispatched i key _ => some (i, key)
    | .stored .. => none

def failed (w : ExecutionWorld ι) (i : ι) : Bool :=
  (w.calls i).any fun call => call.phase.failed

/-- The dispatches for a request and operation that have not failed. -/
def dispatches (w : ExecutionWorld ι) (key : String × String) :
    List (ι × (String × String)) :=
  w.dispatchers.filter fun d => d.2 = key && !w.failed d.1

/-- What the executions of a request and operation have done so far. -/
structure AtMostOnce (P : Context.Platform) (w : ExecutionWorld ι)
    (key : String × String) : Prop where
  dispatched : (w.dispatches key).length ≤ 1
  unserved : ∀ i store, .dispatched i key store ∈ w.log →
    store.resultsFor key = []
  result : (w.store.resultsFor key).length ≤ 1
  returned : ∀ i call result, w.calls i = some call → call.key = key →
    call.phase = .ended (.ok result) →
      w.store.resultsFor key = [result.result]
  live : ∀ i store, .stored i key store ∈ w.log →
    store.Live key.1 ∧ SourcesCurrent P store key.1

/-! ## The condition -/

/-- No call looks for a result while another call for it is underway; a source
keeps the revision that was read of it, and a request stays live, for the calls
that go on to store a result. -/
def Undisturbed (P : Context.Platform) (w : ExecutionWorld ι) :
    ExecutionMove ι → Prop
  | .start .. => True
  | .advance i => ∀ call request checks, w.calls i = some call →
      call.phase = .looking request checks →
      ∀ j other, w.calls j = some other → other.key = call.key →
        other.phase.underway = false
  | .writeSources sources => ∀ i call, w.calls i = some call →
      isCurrent call.phase.checked = true →
      w.store.resultsFor call.key = [] →
      ∀ check ∈ call.phase.checked, RevisionCurrent P sources check.state
  | .expireRequest requestId => ∀ i call, w.calls i = some call →
      call.phase.isSaving = true → call.args.assistanceRequestId ≠ requestId
  | .setClock now => ∀ i call, w.calls i = some call →
      call.phase.isSaving = true →
      ({ w.store with now } : ExecutionStore).Live call.args.assistanceRequestId

/-! ## The invariant -/

/-- A call that dispatched the provider is pending, has failed, or has stored
its result. -/
def AccountsFor (w : ExecutionWorld ι) (i : ι) (key : String × String)
    (phase : Phase) : Prop :=
  phase.pending = true ∨ phase.failed = true ∨
    (∃ outcome, phase = .ended outcome) ∧ i ∈ w.storedBy key

/-- What an event of the log says still stands. -/
def Logged (P : Context.Platform) (w : ExecutionWorld ι) :
    ExecutionEvent ι → Prop
  | .dispatched i key store => store.resultsFor key = [] ∧
      ∃ call, w.calls i = some call ∧ call.key = key ∧
        w.AccountsFor i key call.phase
  | .stored _ key store =>
      store.Live key.1 ∧ SourcesCurrent P store key.1

structure Sound (P : Context.Platform) (w : ExecutionWorld ι) : Prop where
  knows : ∀ i call, w.calls i = some call →
    Knows P w.store call.key call.phase
  alone : ∀ i j a b, w.calls i = some a → w.calls j = some b →
    a.phase.underway = true → b.phase.underway = true → a.key = b.key → i = j
  result : ∀ key, (w.store.resultsFor key).length ≤ 1
  stored : ∀ key, (w.storedBy key).length = (w.store.resultsFor key).length
  logged : ∀ event ∈ w.log, w.Logged P event
  dispatchers : (w.dispatchers.map Prod.fst).Nodup

variable {P : Context.Platform} {w w' : ExecutionWorld ι}

theorem eq_singleton_of_mem {α : Type} {l : List α} {a : α}
    (hl : l.length ≤ 1) (ha : a ∈ l) : l = [a] := by
  obtain ⟨b, rfl⟩ := List.length_eq_one_iff.mp
    (le_antisymm hl (List.length_pos_of_mem ha))
  rw [List.mem_singleton.mp ha]

theorem mem_storedBy {key : String × String} {i : ι} :
    i ∈ w.storedBy key ↔ ∃ store, .stored i key store ∈ w.log := by
  rw [storedBy, List.mem_filterMap]
  constructor
  · rintro ⟨event, hevent, h⟩
    cases event with
    | dispatched j key' store => cases h
    | stored j key' store =>
        dsimp only at h
        split_ifs at h with hkey
        cases h
        exact ⟨store, hkey ▸ hevent⟩
  · rintro ⟨store, hevent⟩
    exact ⟨_, hevent, if_pos rfl⟩

theorem mem_dispatchers {key : String × String} {i : ι} :
    (i, key) ∈ w.dispatchers ↔ ∃ store, .dispatched i key store ∈ w.log := by
  rw [dispatchers, List.mem_filterMap]
  constructor
  · rintro ⟨event, hevent, h⟩
    cases event with
    | dispatched j key' store =>
        cases h
        exact ⟨store, hevent⟩
    | stored j key' store => cases h
  · rintro ⟨store, hevent⟩
    exact ⟨_, hevent, rfl⟩

theorem Sound.dispatch_unique (h : w.Sound P) {i j : ι}
    {key : String × String} (hi : (i, key) ∈ w.dispatches key)
    (hj : (j, key) ∈ w.dispatches key) : i = j := by
  have hcases : ∀ {k}, (k, key) ∈ w.dispatches key →
      (∃ call, w.calls k = some call ∧ call.key = key ∧
        call.phase.underway = true) ∨ k ∈ w.storedBy key := by
    intro k hk
    rw [dispatches, List.mem_filter] at hk
    obtain ⟨store, hlog⟩ := mem_dispatchers.mp hk.1
    obtain ⟨-, call, hcall, rfl, hphase⟩ := h.logged _ hlog
    rcases hphase with hpending | hfailed | ⟨-, hstored⟩
    · exact Or.inl ⟨call, hcall, rfl, Phase.underway_of_pending hpending⟩
    · have hnot := hk.2
      rw [failed, hcall] at hnot
      simp [hfailed] at hnot
    · exact Or.inr hstored
  have hunserved : ∀ {k l call}, w.calls k = some call → call.key = key →
      call.phase.underway = true → l ∉ w.storedBy key := by
    intro k l call hcall hkey hunderway hstored
    have hnone := (h.knows k call hcall).unserved hunderway
    have hlength := h.stored key
    rw [← hkey, hnone] at hlength
    rw [← hkey, List.length_eq_zero_iff.mp hlength] at hstored
    exact absurd hstored List.not_mem_nil
  rcases hcases hi with ⟨a, ha, hakey, hunder⟩ | hstored
  · rcases hcases hj with ⟨b, hb, hbkey, hunder'⟩ | hstored'
    · exact h.alone i j a b ha hb hunder hunder' (hakey.trans hbkey.symm)
    · exact absurd hstored' (hunserved ha hakey hunder)
  · rcases hcases hj with ⟨b, hb, hbkey, hunder'⟩ | hstored'
    · exact absurd hstored (hunserved hb hbkey hunder')
    · have hone := (h.stored key).trans_le (h.result key)
      rw [eq_singleton_of_mem hone hstored'] at hstored
      exact List.mem_singleton.mp hstored

theorem Sound.atMostOnce (h : w.Sound P) (key : String × String) :
    w.AtMostOnce P key where
  dispatched := by
    have hnodup : (w.dispatches key).Nodup := h.dispatchers.of_map.filter _
    have hkey : ∀ d ∈ w.dispatches key, d = (d.1, key) := by
      intro d hd
      have hpass := (List.mem_filter.mp hd).2
      rw [Bool.and_eq_true, decide_eq_true_eq] at hpass
      exact Prod.ext rfl hpass.1
    cases hlist : w.dispatches key with
    | nil => exact Nat.zero_le 1
    | cons d rest =>
        rw [← hlist]
        suffices hsubset : w.dispatches key ⊆ [d] from
          hnodup.length_le_of_subset hsubset
        intro e he
        have hd : d ∈ w.dispatches key := hlist ▸ List.mem_cons_self
        have hsame : e.1 = d.1 :=
          h.dispatch_unique (hkey e he ▸ he) (hkey d hd ▸ hd)
        rw [List.mem_singleton, hkey e he, hkey d hd, hsame]
  unserved i store hlog := (h.logged _ hlog).1
  result := h.result key
  returned i call result hcall hkey hphase := by
    have hknows := h.knows i call hcall
    rw [hkey, hphase] at hknows
    exact eq_singleton_of_mem (h.result key) hknows
  live i store hlog := h.logged _ hlog

/-! ## Steps -/

theorem Logged.mono {event : ExecutionEvent ι} (h : w.Logged P event)
    (hcalls : ∀ j call, w.calls j = some call →
      w.AccountsFor j call.key call.phase →
      ∃ call', w'.calls j = some call' ∧ call'.key = call.key ∧
        w'.AccountsFor j call.key call'.phase) : w'.Logged P event := by
  cases event with
  | dispatched i key store =>
      obtain ⟨hnone, call, hcall, rfl, haccounts⟩ := h
      exact ⟨hnone, hcalls i call hcall haccounts⟩
  | stored i key store => exact h

theorem Sound.setStore (h : w.Sound P) {store : ExecutionStore}
    (hresults : ∀ key, store.resultsFor key = w.store.resultsFor key)
    (hbears : ∀ i call, w.calls i = some call →
      Bears (P := P) call.key call.phase w.store store) :
    ({ w with store } : ExecutionWorld ι).Sound P where
  knows i call hcall := (h.knows i call hcall).of_bears (hbears i call hcall)
  alone := h.alone
  result key := by
    rw [hresults]
    exact h.result key
  stored key := by
    rw [hresults]
    exact h.stored key
  logged event hevent := (h.logged event hevent).mono
    fun j call hcall haccounts => ⟨call, hcall, rfl, haccounts⟩
  dispatchers := h.dispatchers

/-! ## Changes from elsewhere -/

theorem sound_initial (requests : Table AssistanceRequest.assistanceRequestId)
    (snapshots : Table AnalysisContextSnapshot.contextSnapshotId)
    (sources : Sources) (now : Instant) :
    (initial requests snapshots sources now : ExecutionWorld ι).Sound P where
  knows _ _ := nofun
  alone _ _ _ _ := nofun
  result _ := Nat.zero_le 1
  stored _ := rfl
  logged _ hevent := absurd hevent List.not_mem_nil
  dispatchers := List.nodup_nil

theorem Sound.writeSources (h : w.Sound P) {sources : Sources}
    (hundisturbed : w.Undisturbed P (.writeSources sources)) :
    ({ w with store := { w.store with sources } } :
      ExecutionWorld ι).Sound P := by
  refine h.setStore (fun _ => rfl) fun i call hcall => ?_
  refine ⟨rfl, fun _ hresult => hresult, (h.knows i call hcall).unserved,
    fun hcurrent hnone _ => ?_, fun _ hlive => hlive⟩
  exact hundisturbed i call hcall hcurrent hnone

theorem Sound.setClock (h : w.Sound P) {now : Instant}
    (hundisturbed : w.Undisturbed P (.setClock now)) :
    ({ w with store := { w.store with now } } : ExecutionWorld ι).Sound P := by
  refine h.setStore (fun _ => rfl) fun i call hcall => ?_
  exact ⟨rfl, fun _ hresult => hresult, (h.knows i call hcall).unserved,
    fun _ _ hcurrent => hcurrent,
    fun hsaving _ => hundisturbed i call hcall hsaving⟩

theorem Sound.expireRequest (h : w.Sound P) {requestId : String}
    (hundisturbed : w.Undisturbed P (.expireRequest requestId)) :
    ({ w with store := w.store.expireRequest requestId } :
      ExecutionWorld ι).Sound P := by
  refine h.setStore (fun _ => rfl) fun i call hcall => ?_
  refine ⟨?_, fun _ hresult => hresult, (h.knows i call hcall).unserved,
    fun _ _ hcurrent => hcurrent, fun hsaving hlive => ?_⟩
  · rw [ExecutionStore.snapshotOf, ExecutionStore.expireRequest,
      Table.find?_update, ExecutionStore.snapshotOf, Option.bind_map]
    congr 1
    funext request
    dsimp only [Function.comp]
    split <;> rfl
  · obtain ⟨request, hrequest, hlate⟩ := hlive
    refine ⟨request, ?_, hlate⟩
    have hother := hundisturbed i call hcall hsaving
    have hid := (Table.find?_eq_some_iff.mp hrequest).2
    rw [ExecutionStore.expireRequest, Table.find?_update, hrequest,
      Option.map_some, if_neg]
    rw [decide_eq_true_eq, hid]
    exact hother

/-! ## Steps of a call -/

/-- No other call is underway for the same result. -/
def Alone (w : ExecutionWorld ι) (i : ι) (key : String × String) : Prop :=
  ∀ j other, w.calls j = some other → other.phase.underway = true →
    other.key = key → j = i

theorem Sound.isAlone (h : w.Sound P) {i : ι} {call : ExecuteCall}
    (hcall : w.calls i = some call) (hphase : call.phase.underway = true) :
    w.Alone i call.key := by
  intro j other hother hunderway hkey
  exact h.alone j i other call hother hcall hunderway hphase hkey

/-- A call that has this phase next goes on with its key, and accounts for its
dispatch as before. -/
def Continues (w w' : ExecutionWorld ι) (i : ι) (key : String × String)
    (phase : Phase) : Prop :=
  ∀ old, w.calls i = some old → old.key = key ∧
    (w.AccountsFor i key old.phase → w'.AccountsFor i key phase)

section

variable {C : PayloadChecks} {i : ι} {call : ExecuteCall} {phase : Phase}
  {store : ExecutionStore}

theorem continues_of (hcall : w.calls i = some call)
    (haccounts : w.AccountsFor i call.key call.phase →
      w'.AccountsFor i call.key phase) : w.Continues w' i call.key phase := by
  intro old hold
  cases Option.some.inj (hcall.symm.trans hold)
  exact ⟨rfl, haccounts⟩

theorem bears_self {key : String × String} (h : Knows P w.store key phase) :
    Bears (P := P) key phase w.store w.store where
  snapshot := rfl
  results _ hresult := hresult
  unserved := h.unserved
  current _ _ hcurrent := hcurrent
  live _ hlive := hlive

theorem underway_after {α : Type} {read : Except PyError α} {next : α → Phase}
    (h : (Phase.after read next).underway = true) :
    ∃ a, read = .ok a ∧ (next a).underway = true := by
  cases read with
  | error e => cases h
  | ok a => exact ⟨a, rfl, h⟩

theorem underway_readStep
    (h : (call.readStep P C store).underway = true) :
    call.phase.underway = true ∨
      ∃ request checks, call.phase = .looking request checks := by
  obtain ⟨args, inputs, phase⟩ := call
  cases phase with
  | fetching =>
      obtain ⟨_, -, h⟩ := underway_after h
      obtain ⟨_, -, h⟩ := underway_after h
      cases h
  | validating request =>
      obtain ⟨_, -, h⟩ := underway_after h
      cases h
  | checking request checks states =>
      cases states with
      | nil => cases h
      | cons state states => cases h
  | looking request checks => exact Or.inr ⟨request, checks, rfl⟩
  | reading request checks resultId =>
      obtain ⟨_, -, h⟩ := underway_after h
      cases h
  | ended outcome => cases h
  | _ => exact Or.inl rfl

theorem accountsFor_readStep {key : String × String}
    (hphase : call.phase.isSaving = false)
    (h : w.AccountsFor i key call.phase) :
    w.AccountsFor i key (call.readStep P C store) := by
  obtain ⟨args, inputs, phase⟩ := call
  rcases h with hpending | hended | ⟨⟨outcome, rfl⟩, hstored⟩
  · cases phase with
    | awaiting request checks =>
        cases hanswer : inputs.answer with
        | error e =>
            right; left
            rw [ExecuteCall.readStep]
            dsimp only
            rw [hanswer]
            rfl
        | ok payload =>
            left
            rw [ExecuteCall.readStep]
            dsimp only
            rw [hanswer]
            rfl
    | ingesting request checks payload =>
        rw [ExecuteCall.readStep]
        dsimp only
        cases ingest P C store args.assistanceRequestId args.operation payload
            inputs.newId with
        | error e => exact Or.inr (Or.inl rfl)
        | ok row => exact Or.inl rfl
    | saving request checks row => cases hphase
    | _ => cases hpending
  · cases phase with
    | ended outcome => exact Or.inr (Or.inl hended)
    | _ => cases hended
  · exact Or.inr (Or.inr ⟨⟨outcome, rfl⟩, hstored⟩)

end

variable [DecidableEq ι]

/-- The world once a call has taken a step. -/
def changed (w : ExecutionWorld ι) (i : ι) (call : ExecuteCall)
    (phase : Phase) (store : ExecutionStore)
    (events : List (ExecutionEvent ι)) : ExecutionWorld ι :=
  { w.setPhase i call phase with store, log := w.log ++ events }

section

variable {i j : ι} {call call' : ExecuteCall} {phase : Phase}
  {store : ExecutionStore} {events : List (ExecutionEvent ι)}

theorem changed_calls_self :
    (w.changed i call phase store events).calls i =
      some { call with phase } :=
  Function.update_self ..

theorem changed_calls_of_ne (hj : j ≠ i) :
    (w.changed i call phase store events).calls j = w.calls j :=
  Function.update_of_ne hj ..

theorem setPhase_eq_changed :
    w.setPhase i call phase = w.changed i call phase w.store [] := by
  rw [changed, List.append_nil]
  rfl

theorem storedBy_changed (key : String × String) :
    (w.changed i call phase store events).storedBy key =
      w.storedBy key ++
        ({ w with log := events } : ExecutionWorld ι).storedBy key :=
  List.filterMap_append

theorem dispatchers_changed :
    (w.changed i call phase store events).dispatchers =
      w.dispatchers ++
        ({ w with log := events } : ExecutionWorld ι).dispatchers :=
  List.filterMap_append

/-- A call takes a step: it knows what its next phase needs, the others bear
the change, and the log says what was done. -/
theorem Sound.changed (h : w.Sound P) (hknows : Knows P store call.key phase)
    (hbears : ∀ j other, j ≠ i → w.calls j = some other →
      Bears (P := P) other.key other.phase w.store store)
    (halone : phase.underway = true → w.Alone i call.key)
    (hresult : ∀ key, (store.resultsFor key).length ≤ 1)
    (hstored : ∀ key,
      ((w.changed i call phase store events).storedBy key).length =
        (store.resultsFor key).length)
    (hcontinues : w.Continues (w.changed i call phase store events) i call.key
      phase)
    (hevents : ∀ event ∈ events,
      (w.changed i call phase store events).Logged P event)
    (hdispatchers : ((w.changed i call phase store events).dispatchers.map
      Prod.fst).Nodup) :
    (w.changed i call phase store events).Sound P where
  knows j other hother := by
    by_cases hj : j = i
    · subst hj
      cases Option.some.inj (changed_calls_self.symm.trans hother)
      exact hknows
    · rw [changed_calls_of_ne hj] at hother
      exact (h.knows j other hother).of_bears (hbears j other hj hother)
  alone j k a b ha hb hunder hunder' hkey := by
    by_cases hj : j = i
    · subst hj
      cases Option.some.inj (changed_calls_self.symm.trans ha)
      by_cases hk : k = j
      · exact hk.symm
      · rw [changed_calls_of_ne hk] at hb
        exact (halone hunder k b hb hunder' hkey.symm).symm
    · rw [changed_calls_of_ne hj] at ha
      by_cases hk : k = i
      · subst hk
        cases Option.some.inj (changed_calls_self.symm.trans hb)
        exact halone hunder' j a ha hunder hkey
      · rw [changed_calls_of_ne hk] at hb
        exact h.alone j k a b ha hb hunder hunder' hkey
  result := hresult
  stored := hstored
  logged event hevent := by
    rcases List.mem_append.mp hevent with hold | hnew
    · refine (h.logged event hold).mono fun j other hother haccount => ?_
      by_cases hj : j = i
      · subst hj
        obtain ⟨hkey, hnext⟩ := hcontinues other hother
        rw [hkey] at haccount ⊢
        exact ⟨_, changed_calls_self, rfl, hnext haccount⟩
      · refine ⟨other, by rw [changed_calls_of_ne hj, hother], rfl, ?_⟩
        refine haccount.imp_right (Or.imp_right (And.imp_right fun hmem => ?_))
        rw [storedBy_changed]
        exact List.mem_append_left _ hmem
    · exact hevents event hnew
  dispatchers := hdispatchers

theorem Sound.setPhase (h : w.Sound P) (hknows : Knows P w.store call.key phase)
    (halone : phase.underway = true → w.Alone i call.key)
    (hcontinues : w.Continues w i call.key phase) :
    (w.setPhase i call phase).Sound P := by
  rw [setPhase_eq_changed]
  refine h.changed hknows
    (fun j other _ hother => bears_self (h.knows j other hother)) halone
    h.result ?_ ?_ (fun _ hmem => absurd hmem List.not_mem_nil) ?_
  · intro key
    rw [storedBy_changed, storedBy]
    exact (congrArg List.length (List.append_nil _)).trans (h.stored key)
  · intro old hold
    refine (hcontinues old hold).imp_right fun hnext haccount => ?_
    refine (hnext haccount).imp_right (Or.imp_right (And.imp_right ?_))
    intro hmem
    rw [storedBy_changed]
    exact List.mem_append_left _ hmem
  · rw [dispatchers_changed]
    exact (List.append_nil w.dispatchers).symm ▸ h.dispatchers

theorem Sound.fail (h : w.Sound P) (hcall : w.calls i = some call)
    (e : PyError) : (w.setPhase i call (.ended (.error e))).Sound P :=
  h.setPhase trivial nofun (continues_of hcall fun _ => Or.inr (Or.inl rfl))

theorem Sound.start (h : w.Sound P) (hnone : w.calls i = none)
    (args : ExecuteArgs) (inputs : ExecuteInputs) :
    (w.setPhase i ⟨args, inputs, .fetching⟩ .fetching).Sound P := by
  refine h.setPhase trivial nofun fun old hold => ?_
  rw [hnone] at hold
  cases hold

variable {C : PayloadChecks}

theorem Sound.readStep (h : w.Sound P) (hcall : w.calls i = some call)
    (hphase : call.phase.isSaving = false)
    (hundisturbed : w.Undisturbed P (.advance i)) :
    (w.setPhase i call (call.readStep P C w.store)).Sound P := by
  refine h.setPhase (h.knows i call hcall).readStep ?_
    (continues_of hcall (accountsFor_readStep hphase))
  intro hunderway
  rcases underway_readStep hunderway with hbefore | ⟨request, checks, hlook⟩
  · exact h.isAlone hcall hbefore
  · intro j other hother hunder hkey
    have hnone := hundisturbed call request checks hcall hlook j other hother
      hkey
    rw [hunder] at hnone
    cases hnone

theorem Sound.dispatch (h : w.Sound P) (hcall : w.calls i = some call)
    {request : AssistanceRequest} {checks : List RevisionCheck}
    (hphase : call.phase = .generating request checks) :
    (w.changed i call (.awaiting request checks) w.store
      [.dispatched i call.key w.store]).Sound P := by
  have hknows := h.knows i call hcall
  rw [hphase] at hknows
  have hnew : i ∉ w.dispatchers.map Prod.fst := by
    intro hmem
    obtain ⟨⟨_, key⟩, hd, rfl⟩ := List.mem_map.mp hmem
    obtain ⟨store, hlog⟩ := mem_dispatchers.mp hd
    obtain ⟨-, call', hcall', -, haccounts⟩ := h.logged _ hlog
    cases Option.some.inj (hcall.symm.trans hcall')
    rw [hphase] at haccounts
    rcases haccounts with hno | hno | ⟨⟨_, hno⟩, -⟩ <;> cases hno
  refine h.changed hknows
    (fun j other _ hother => bears_self (h.knows j other hother))
    (fun _ => h.isAlone hcall (by rw [hphase]; rfl)) h.result ?_
    (continues_of hcall fun _ => Or.inl rfl) ?_ ?_
  · intro key
    rw [storedBy_changed]
    exact (congrArg List.length (List.append_nil _)).trans (h.stored key)
  · intro event hevent
    rw [List.mem_singleton.mp hevent]
    exact ⟨Dispatching.unserved hknows, _, changed_calls_self, rfl, Or.inl rfl⟩
  · rw [dispatchers_changed, List.map_append]
    refine List.nodup_append.mpr
      ⟨h.dispatchers, List.nodup_singleton i, fun j hj k hk heq => hnew ?_⟩
    have hki : k = i := List.mem_singleton.mp hk
    rwa [← hki, ← heq]

theorem Sound.save (h : w.Sound P) (hcall : w.calls i = some call)
    {request : AssistanceRequest} {checks : List RevisionCheck}
    {row : StoredResult} (hphase : call.phase = .saving request checks row)
    (hsave : saveResult w.store row = .ok store) :
    (w.changed i call
      (.ended (.ok (call.executionResult request checks row false))) store
      [.stored i call.key w.store]).Sound P := by
  have hsaves := saves_of_saveResult hsave
  have hknows := h.knows i call hcall
  rw [hphase] at hknows
  obtain ⟨hdispatching, hlive, hkey⟩ := hknows
  have halone := h.isAlone hcall (by rw [hphase]; rfl)
  have hrow := hsaves.resultsFor_of_eq hkey
  rw [Dispatching.unserved hdispatching] at hrow
  refine h.changed (hrow.mem_iff.mpr (List.mem_singleton_self row))
    (fun j other hj hother => ?_) nofun (fun key => ?_) (fun key => ?_)
    (continues_of hcall fun _ => Or.inr (Or.inr ⟨⟨_, rfl⟩, ?_⟩)) ?_ ?_
  · refine hsaves.bears (h.knows j other hother) fun hunderway hsame => ?_
    exact hj (halone j other hother hunderway (hsame.symm.trans hkey))
  · by_cases hsame : call.key = key
    · rw [← hsame, hrow.length_eq]
      exact Nat.le_refl 1
    · rw [(hsaves.resultsFor_of_ne (hkey ▸ hsame)).length_eq]
      exact h.result key
  · rw [storedBy_changed, List.length_append, h.stored]
    by_cases hsame : call.key = key
    · rw [← hsame, hrow.length_eq, Dispatching.unserved hdispatching]
      simp [storedBy]
    · rw [(hsaves.resultsFor_of_ne (hkey ▸ hsame)).length_eq]
      simp [storedBy, hsame]
  · rw [mem_storedBy]
    exact ⟨w.store, List.mem_append_right _ (List.mem_singleton_self _)⟩
  · intro event hevent
    rw [List.mem_singleton.mp hevent]
    exact ⟨hlive, hdispatching.sourcesCurrent⟩
  · rw [dispatchers_changed]
    exact (List.append_nil w.dispatchers).symm ▸ h.dispatchers

theorem Sound.advanceCall (h : w.Sound P) (hcall : w.calls i = some call)
    (hundisturbed : w.Undisturbed P (.advance i)) :
    (ExecutionWorld.advanceCall P C w i call).Sound P := by
  rw [ExecutionWorld.advanceCall]
  split
  · rename_i request checks hphase
    split
    · exact h.fail hcall _
    · exact h.dispatch hcall hphase
  · rename_i request checks row hphase
    split
    · exact h.fail hcall _
    · rename_i store hsave
      exact h.save hcall hphase hsave
  · rename_i hnot
    refine h.readStep hcall ?_ hundisturbed
    cases hphase : call.phase with
    | saving request checks row =>
        exact (hnot request checks row hphase).elim
    | _ => rfl

end

variable {C : PayloadChecks}

theorem Sound.step (h : w.Sound P) {move : ExecutionMove ι}
    (hundisturbed : w.Undisturbed P move) : (w.step P C move).Sound P := by
  cases move with
  | start i args inputs =>
      rw [ExecutionWorld.step]
      split
      · rename_i hnone
        exact h.start hnone args inputs
      · exact h
  | advance i =>
      rw [ExecutionWorld.step]
      split
      · exact h
      · rename_i call hcall
        exact h.advanceCall hcall hundisturbed
  | writeSources sources => exact h.writeSources hundisturbed
  | expireRequest requestId => exact h.expireRequest hundisturbed
  | setClock now => exact h.setClock hundisturbed

/-! ## Runs -/

/-- A platform whose digests are the bytes themselves. -/
def bytesPlatform : Context.Platform :=
  { Context.plainPlatform with
    sha256 := fun bytes =>
      String.ofList (bytes.toList.map fun byte => Char.ofNat byte.toNat) }

/-- The checks of a payload that recommends nothing. -/
def nothingRecommended : PayloadChecks where
  keywordBatch _ _ _ payload :=
    .ok
      { providerId := "UNKNOWN"
        providerVersion := "UNKNOWN"
        modelId := "UNKNOWN"
        externalRequestId :=
          match payload.field? "external_request_id" with
          | some (.str text) => some text
          | _ => none
        recommendations := []
        warnings := [] }
  scopeSummary _ _ _ _ :=
    .error (fieldError "Field must be a list." "citations")

def keywordRequest : AssistanceRequest where
  assistanceRequestId := "request"
  caseId := "case"
  contextSnapshotId := "snapshot"
  requestedOperations := ["RECOMMEND_KEYWORDS"]
  expiresAt := ⟨1000000, by decide⟩
  requestFingerprint := ""

def keywordSnapshot : AnalysisContextSnapshot where
  contextSnapshotId := "snapshot"
  caseId := "case"
  sessionContextId := none
  sessionContextRevision := none
  actorId := none
  purpose := .aiRequest
  scopes := ["case"]
  includedResourceIds := Table.empty _
  excludedResourceIds := Table.empty _
  filters := []
  timeRange := []
  sourceRevisions := []
  analyzerVersions := []
  searchIndexRevision := none
  timelineRevision := none
  keywordSetId := none
  keywordSetVersion := none
  searchExecutionId := none
  partialState := .obj []
  staleState := .obj []
  citations := []
  contextFingerprint := ""
  previousSnapshotId := none
  createdAt := ⟨0, Instant.zero_inRange⟩

/-- A request that nothing has been executed for. -/
def newRequest {ι : Type} : ExecutionWorld ι :=
  initial ⟨[keywordRequest], by decide⟩ ⟨[keywordSnapshot], by decide⟩
    Context.noSources ⟨0, Instant.zero_inRange⟩

def keywordArgs : ExecuteArgs where
  assistanceRequestId := "request"
  operation := "RECOMMEND_KEYWORDS"

/-- A provider that answers under an id of its own. -/
def answering (externalId newId : String) : ExecuteInputs where
  capability := ⟨"provider", ["RECOMMEND_KEYWORDS"], true, none⟩
  answer := .ok (.obj [("external_request_id", .str externalId),
    ("recommendations", .arr [])])
  newId := newId

def keywordKey : String × String :=
  ("request", "RECOMMEND_KEYWORDS")

/-- Both calls look before either has stored its result. -/
def overlappingMoves : List (ExecutionMove Bool) :=
  [.start false keywordArgs (answering "first" "batch-1"),
    .start true keywordArgs (answering "second" "batch-2")] ++
    List.replicate 4 (.advance false) ++ List.replicate 4 (.advance true) ++
    List.replicate 5 (.advance false) ++ List.replicate 5 (.advance true)

/-- One call alone, from its start to its result. -/
def loneMoves : List (ExecutionMove Unit) :=
  .start () keywordArgs (answering "first" "batch-1") ::
    List.replicate 9 (.advance ())

theorem lone_call_undisturbed (w : ExecutionWorld Unit)
    (P : Context.Platform) : w.Undisturbed P (.advance ()) := by
  intro call request checks hcall hphase j other hother _
  cases Option.some.inj (hcall.symm.trans hother)
  rw [hphase]
  rfl

end ExecutionWorld

end ApexForensic.Ai
