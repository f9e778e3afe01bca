import ApexForensic.Mcp.GrantUse
import ApexForensic.Support.RestartingWindow

/-!
# What a budget lets through

The window of a scope starts again at the first call that finds it passed, and
all that was counted in it is forgotten then.  An interval that lies across
such a restart can therefore hold more than the budget allows, and no interval
does when the window starts again only after everything it counted has left.
A page is marked as used before it is read, so the second call for a page that
was never delivered is taken for a loop.
-/

namespace ApexForensic.Mcp

open ApexForensic.Support ApexForensic.Domain
open ApexForensic.Support.RestartingWindow

variable {scope : String} {windows' : Windows}

/-! ## Runs of a budget -/

/-- The two operations of a budget; a result comes with the call that it is
the result of. -/
inductive BudgetCall where
  | beginCall (toolName : String) (arguments : List (String × Json))
  | acceptResult (toolName : String) (arguments : List (String × Json))
      (result : List (String × Json)) (maxResultItems : ℕ)

/-- The cursor of the page that a call asks for. -/
def BudgetCall.cursor : BudgetCall → Option (String × String)
  | beginCall toolName arguments => pageCursor toolName arguments
  | acceptResult toolName arguments _ _ => pageCursor toolName arguments

structure BudgetStep where
  time : ℤ
  scope : String
  call : BudgetCall

/-- What became of a call. -/
inductive BudgetEvent where
  | began (page : Option (String × String))
  | delivered (page : Option (String × String)) (items bytes : ℕ)
  | refused (page : Option (String × String)) (failure : ToolFailure)

namespace BudgetEvent

def isAccepted : BudgetEvent → Bool
  | began _ => true
  | delivered _ _ _ => true
  | refused _ _ => false

def begunPage : BudgetEvent → Option (String × String)
  | began page => page
  | _ => none

def deliveredPage : BudgetEvent → Option (String × String)
  | delivered page _ _ => page
  | _ => none

end BudgetEvent

structure BudgetRecord where
  scope : String
  time : ℤ
  event : BudgetEvent

/-- The windows, and all that became of the calls so far. -/
structure BudgetRun where
  windows : Windows
  log : List BudgetRecord

def BudgetRun.initial : BudgetRun :=
  ⟨[], []⟩

section

variable (budget : ToolBudget)

def ToolBudget.answer (step : BudgetStep) (windows : Windows) :
    Except ToolFailure Unit × Windows :=
  match step.call with
  | .beginCall toolName arguments =>
      budget.beginCall step.scope toolName arguments step.time windows
  | .acceptResult _ _ result maxResultItems =>
      budget.acceptResult step.scope result maxResultItems step.time windows

/-- A result with the status `ERROR` delivers no page. -/
def BudgetCall.acceptedEvent (call : BudgetCall) : BudgetEvent :=
  match call with
  | .beginCall _ _ => .began call.cursor
  | .acceptResult _ _ result _ =>
      .delivered (if hasStatus result "ERROR" then none else call.cursor)
        (itemCount result) (payloadBytes result)

def BudgetCall.event (call : BudgetCall) :
    Except ToolFailure Unit → BudgetEvent
  | .ok () => call.acceptedEvent
  | .error failure => .refused call.cursor failure

def ToolBudget.step (s : BudgetRun) (step : BudgetStep) : BudgetRun :=
  { windows := (budget.answer step s.windows).2
    log := s.log ++ [⟨step.scope, step.time,
      step.call.event (budget.answer step s.windows).1⟩] }

/-! ## What is counted -/

inductive BudgetResource where
  | calls
  | items
  | bytes

namespace BudgetResource

def limit : BudgetResource → ℕ
  | calls => budget.maxCalls
  | items => budget.maxTotalItems
  | bytes => budget.maxTotalBytes

def used (window : BudgetWindow) : BudgetResource → ℕ
  | calls => window.calls
  | items => window.items
  | bytes => window.serializedBytes

def cost : BudgetResource → BudgetEvent → ℕ
  | calls, .began _ => 1
  | items, .delivered _ itemCount _ => itemCount
  | bytes, .delivered _ _ byteCount => byteCount
  | _, _ => 0

/-- When a scope was let through, and what that took. -/
def records (resource : BudgetResource) (scope : String)
    (log : List BudgetRecord) : List (ℤ × ℕ) :=
  (log.filter fun e => e.scope = scope ∧ e.event.isAccepted).map
    fun e => (e.time, resource.cost e.event)

end BudgetResource

/-- Every refusal as a loop comes after the delivery of the page, less than a
window before. -/
def LoopsDelivered (log : List BudgetRecord) : Prop :=
  ∀ before e after page, log = before ++ e :: after →
    e.event = .refused page paginationLoopError →
      ∃ d ∈ before, d.scope = e.scope ∧ page.isSome ∧
        d.event.deliveredPage = page ∧ e.time - d.time < budget.windowNanos

/-- No interval that is shorter than a window holds more of a scope than the
budget allows, and only pages that were delivered are loops. -/
structure BudgetKept (log : List BudgetRecord) : Prop where
  limited : ∀ (resource : BudgetResource) scope a b,
    b - a < budget.windowNanos →
      spent a b (resource.records scope log) ≤ resource.limit budget
  loops : LoopsDelivered budget log

/-- The two windows have counted the same. -/
structure SameUse (window window' : BudgetWindow) : Prop where
  calls : window.calls = window'.calls
  items : window.items = window'.items
  serializedBytes : window.serializedBytes = window'.serializedBytes
  cursors : window.cursors = window'.cursors

/-- What a refused call leaves counts the same as before, then and later. -/
def RefusalsConsumeNothing : Prop :=
  ∀ step windows failure, (budget.answer step windows).1 = .error failure →
    ∀ scope later, step.time ≤ later →
      SameUse (budget.window scope later (budget.answer step windows).2)
        (budget.window scope later windows)

/-- What the calls of a scope find and leave is what they would alone. -/
def ScopesApart (steps : List BudgetStep) : Prop :=
  ∀ scope,
    (run budget.step .initial steps).windows.lookup scope =
        (run budget.step .initial
          (steps.filter (·.scope = scope))).windows.lookup scope ∧
      (run budget.step .initial steps).log.filter (·.scope = scope) =
        (run budget.step .initial (steps.filter (·.scope = scope))).log

/-! ## When nothing goes wrong -/

/-- The call reaches the window of its scope. -/
def Consults (call : BudgetCall) : Prop :=
  match call with
  | .beginCall _ _ => True
  | .acceptResult _ _ result maxResultItems =>
      payloadBytes result ≤ budget.maxCallBytes ∧
        itemCount result ≤ maxResultItems

instance (call : BudgetCall) : Decidable (Consults budget call) :=
  match call with
  | .beginCall _ _ => isTrue trivial
  | .acceptResult _ _ _ _ => inferInstanceAs (Decidable (_ ∧ _))

/-- A window that is started again counted nothing less than a window ago. -/
def RestartsLate (s : BudgetRun) (step : BudgetStep) : Prop :=
  Consults budget step.call → ∀ window ∈ s.windows.lookup step.scope,
    budget.windowNanos ≤ step.time - window.startedAt →
      ∀ e ∈ s.log, e.scope = step.scope → e.event.isAccepted →
        e.time + budget.windowNanos ≤ step.time

/-- A page that was asked for less than a window ago was delivered since. -/
def AsksAgainLate (s : BudgetRun) (step : BudgetStep) : Prop :=
  ∀ page ∈ step.call.acceptedEvent.begunPage, ∀ e ∈ s.log,
    e.scope = step.scope → e.event.begunPage = some page →
      step.time - e.time < budget.windowNanos →
        ∃ d ∈ s.log, d.scope = step.scope ∧ e.time ≤ d.time ∧
          d.event.deliveredPage = some page

def Settled (s : BudgetRun) (step : BudgetStep) : Prop :=
  RestartsLate budget s step ∧ AsksAgainLate budget s step

instance (s : BudgetRun) (step : BudgetStep) :
    Decidable (RestartsLate budget s step) :=
  inferInstanceAs (Decidable (Consults budget step.call →
    ∀ window ∈ s.windows.lookup step.scope,
      budget.windowNanos ≤ step.time - window.startedAt →
        ∀ e ∈ s.log, e.scope = step.scope → e.event.isAccepted →
          e.time + budget.windowNanos ≤ step.time))

instance (s : BudgetRun) (step : BudgetStep) :
    Decidable (AsksAgainLate budget s step) :=
  inferInstanceAs (Decidable (∀ page ∈ step.call.acceptedEvent.begunPage,
    ∀ e ∈ s.log, e.scope = step.scope → e.event.begunPage = some page →
      step.time - e.time < budget.windowNanos →
        ∃ d ∈ s.log, d.scope = step.scope ∧ e.time ≤ d.time ∧
          d.event.deliveredPage = some page))

instance (s : BudgetRun) (step : BudgetStep) :
    Decidable (Settled budget s step) :=
  inferInstanceAs (Decidable (_ ∧ _))

end

/-! ## What a call does to the windows -/

section

variable {budget : ToolBudget} {step : BudgetStep} {windows : Windows}

/-- A call that is let through adds its cost to the window, and asks for its
page in it. -/
structure Spends (budget : ToolBudget) (call : BudgetCall)
    (window window' : BudgetWindow) : Prop where
  startedAt : window'.startedAt = window.startedAt
  used : ∀ resource : BudgetResource, resource.used window' =
    resource.used window + resource.cost call.acceptedEvent
  within : ∀ resource : BudgetResource,
    resource.used window ≤ resource.limit budget →
      resource.used window' ≤ resource.limit budget
  cursors : ∀ page ∈ window'.cursors,
    page ∈ window.cursors ∨ call.acceptedEvent.begunPage = some page

/-- The three ways in which a call ends. -/
inductive Answered (budget : ToolBudget) (step : BudgetStep)
    (windows : Windows) : Except ToolFailure Unit × Windows → Prop where
  | accepted (window : BudgetWindow) (consults : Consults budget step.call)
      (spends : Spends budget step.call
        (budget.window step.scope step.time windows) window) :
      Answered budget step windows
        (.ok (), setItem step.scope window windows)
  | refused (failure : ToolFailure) (consults : Consults budget step.call)
      (loop : failure = paginationLoopError →
        ∃ page, step.call.acceptedEvent.begunPage = some page ∧
          step.call.cursor = some page ∧
            page ∈ (budget.window step.scope step.time windows).cursors) :
      Answered budget step windows (.error failure,
        setItem step.scope (budget.window step.scope step.time windows) windows)
  | tooLarge (failure : ToolFailure)
      (no_loop : failure ≠ paginationLoopError) :
      Answered budget step windows (.error failure, windows)

theorem toolBudgetExceededError_ne_paginationLoopError (limit : String) :
    toolBudgetExceededError limit ≠ paginationLoopError := by
  simp [toolBudgetExceededError, paginationLoopError, mcpError]

theorem answered_beginCall (time : ℤ) (scope toolName : String)
    (arguments : List (String × Json)) :
    Answered budget ⟨time, scope, .beginCall toolName arguments⟩ windows
      (budget.beginCall scope toolName arguments time windows) := by
  rw [ToolBudget.beginCall]
  split_ifs with hcalls
  · exact .refused _ trivial fun hloop =>
      absurd hloop (toolBudgetExceededError_ne_paginationLoopError _)
  split
  · rename_i page hpage
    split_ifs with hused
    · exact .refused _ trivial fun _ => ⟨page, hpage, hpage, hused⟩
    · refine .accepted _ trivial ⟨rfl, ?_, ?_, ?_⟩
      · rintro (_ | _ | _) <;> rfl
      · rintro (_ | _ | _) hwithin
        · exact Nat.lt_of_not_le hcalls
        · exact hwithin
        · exact hwithin
      · intro other hother
        rcases List.mem_cons.mp hother with rfl | hother
        · exact Or.inr hpage
        · exact Or.inl hother
  · refine .accepted _ trivial ⟨rfl, ?_, ?_, fun page hpage => Or.inl hpage⟩
    · rintro (_ | _ | _) <;> rfl
    · rintro (_ | _ | _) hwithin
      · exact Nat.lt_of_not_le hcalls
      · exact hwithin
      · exact hwithin

theorem answered_acceptResult (time : ℤ) (scope toolName : String)
    (arguments result : List (String × Json)) (maxResultItems : ℕ) :
    Answered budget
      ⟨time, scope, .acceptResult toolName arguments result maxResultItems⟩
      windows
      (budget.acceptResult scope result maxResultItems time windows) := by
  have hno := toolBudgetExceededError_ne_paginationLoopError
  rw [ToolBudget.acceptResult]
  dsimp only
  split_ifs with hbytes hitems htotal hwindow
  · exact .tooLarge _ (hno _)
  · exact .tooLarge _ (hno _)
  · exact .refused _ ⟨Nat.le_of_not_lt hbytes, Nat.le_of_not_lt hitems⟩
      fun hloop => absurd hloop (hno _)
  · exact .refused _ ⟨Nat.le_of_not_lt hbytes, Nat.le_of_not_lt hitems⟩
      fun hloop => absurd hloop (hno _)
  · refine .accepted _ ⟨Nat.le_of_not_lt hbytes, Nat.le_of_not_lt hitems⟩
      ⟨rfl, ?_, ?_, fun page hpage => Or.inl hpage⟩
    · rintro (_ | _ | _) <;> rfl
    · rintro (_ | _ | _) hwithin
      · exact hwithin
      · exact Nat.le_of_not_lt htotal
      · exact Nat.le_of_not_lt hwindow

theorem answered (budget : ToolBudget) (step : BudgetStep) (windows : Windows) :
    Answered budget step windows (budget.answer step windows) := by
  obtain ⟨time, scope, call⟩ := step
  cases call with
  | beginCall toolName arguments =>
      exact answered_beginCall time scope toolName arguments
  | acceptResult toolName arguments result maxResultItems =>
      exact answered_acceptResult time scope toolName arguments result
        maxResultItems

theorem lookup_answer_of_ne (hne : step.scope ≠ scope) :
    (budget.answer step windows).2.lookup scope = windows.lookup scope := by
  have hanswered := answered budget step windows
  generalize budget.answer step windows = answer at hanswered ⊢
  cases hanswered with
  | accepted window _ _ => rw [lookup_setItem, if_neg hne]
  | refused failure _ _ => rw [lookup_setItem, if_neg hne]
  | tooLarge failure _ => rfl

/-! ## Refused calls -/

theorem window_congr (budget : ToolBudget) (time : ℤ)
    (h : windows.lookup scope = windows'.lookup scope) :
    budget.window scope time windows = budget.window scope time windows' := by
  rw [ToolBudget.window, ToolBudget.window, h]

theorem sameUse_window_setItem {now later : ℤ} (hlater : now ≤ later) :
    SameUse (budget.window scope later
        (setItem scope (budget.window scope now windows) windows))
      (budget.window scope later windows) := by
  have hlookup := lookup_setItem scope scope
    (budget.window scope now windows) windows
  rw [if_pos rfl] at hlookup
  rw [ToolBudget.window, hlookup]
  dsimp only
  cases hfound : windows.lookup scope with
  | none =>
      have hnow : budget.window scope now windows = ⟨now, 0, 0, 0, []⟩ := by
        rw [ToolBudget.window, hfound]
      have hthen : budget.window scope later windows =
          ⟨later, 0, 0, 0, []⟩ := by
        rw [ToolBudget.window, hfound]
      rw [hnow, hthen]
      split_ifs
      · exact ⟨rfl, rfl, rfl, rfl⟩
      · exact ⟨rfl, rfl, rfl, rfl⟩
  | some window =>
      by_cases hpassed : budget.windowNanos ≤ now - window.startedAt
      · have hnow : budget.window scope now windows = ⟨now, 0, 0, 0, []⟩ := by
          rw [ToolBudget.window, hfound]
          exact if_pos hpassed
        have hthen : budget.window scope later windows =
            ⟨later, 0, 0, 0, []⟩ := by
          rw [ToolBudget.window, hfound]
          exact if_pos (by omega)
        rw [hnow, hthen]
        split_ifs
        · exact ⟨rfl, rfl, rfl, rfl⟩
        · exact ⟨rfl, rfl, rfl, rfl⟩
      · have hnow : budget.window scope now windows = window := by
          rw [ToolBudget.window, hfound]
          exact if_neg hpassed
        rw [hnow, ToolBudget.window, hfound]
        exact ⟨rfl, rfl, rfl, rfl⟩

theorem refusalsConsumeNothing (budget : ToolBudget) :
    RefusalsConsumeNothing budget := by
  intro step windows failure hfailure scope later hlater
  by_cases hscope : step.scope = scope
  · subst hscope
    have hanswered := answered budget step windows
    generalize budget.answer step windows = answer at hanswered hfailure ⊢
    cases hanswered with
    | accepted window _ _ => cases hfailure
    | refused failure' _ _ => exact sameUse_window_setItem hlater
    | tooLarge failure' _ => exact ⟨rfl, rfl, rfl, rfl⟩
  · rw [window_congr budget later (lookup_answer_of_ne hscope)]
    exact ⟨rfl, rfl, rfl, rfl⟩

/-! ## Scopes do not affect one another -/

/-- The two runs agree on what they hold of a scope. -/
structure AgreeOn (scope : String) (s t : BudgetRun) : Prop where
  lookup : s.windows.lookup scope = t.windows.lookup scope
  log : s.log.filter (·.scope = scope) = t.log.filter (·.scope = scope)

theorem answer_congr (budget : ToolBudget)
    (h : windows.lookup step.scope = windows'.lookup step.scope) :
    (budget.answer step windows).1 = (budget.answer step windows').1 ∧
      (budget.answer step windows).2.lookup step.scope =
        (budget.answer step windows').2.lookup step.scope := by
  obtain ⟨time, scope, call⟩ := step
  have hset : ∀ window : BudgetWindow,
      (setItem scope window windows).lookup scope =
        (setItem scope window windows').lookup scope := by
    intro window
    rw [lookup_setItem, lookup_setItem, if_pos rfl, if_pos rfl]
  have hwindow := window_congr budget time h
  cases call with
  | beginCall toolName arguments =>
      simp only [ToolBudget.answer, ToolBudget.beginCall]
      rw [← hwindow]
      split_ifs
      · exact ⟨rfl, hset _⟩
      split
      · split_ifs
        · exact ⟨rfl, hset _⟩
        · exact ⟨rfl, hset _⟩
      · exact ⟨rfl, hset _⟩
  | acceptResult toolName arguments result maxResultItems =>
      simp only [ToolBudget.answer, ToolBudget.acceptResult]
      rw [← hwindow]
      split_ifs
      · exact ⟨rfl, h⟩
      · exact ⟨rfl, h⟩
      · exact ⟨rfl, hset _⟩
      · exact ⟨rfl, hset _⟩
      · exact ⟨rfl, hset _⟩

theorem AgreeOn.both {s t : BudgetRun} (h : AgreeOn step.scope s t) :
    AgreeOn step.scope (budget.step s step) (budget.step t step) := by
  obtain ⟨hanswer, hlookup⟩ := answer_congr budget h.lookup
  refine ⟨hlookup, ?_⟩
  rw [ToolBudget.step, ToolBudget.step, hanswer]
  simp only [List.filter_append, h.log]

theorem AgreeOn.left {s t : BudgetRun} (h : AgreeOn scope s t)
    (hne : step.scope ≠ scope) : AgreeOn scope (budget.step s step) t := by
  refine ⟨(lookup_answer_of_ne hne).trans h.lookup, ?_⟩
  rw [ToolBudget.step]
  simp only [List.filter_append, h.log]
  simp [hne]

theorem agreeOn_run {s t : BudgetRun} (h : AgreeOn scope s t)
    (steps : List BudgetStep) :
    AgreeOn scope (run budget.step s steps)
      (run budget.step t (steps.filter (·.scope = scope))) := by
  induction steps generalizing s t with
  | nil => exact h
  | cons step steps ih =>
      by_cases hscope : step.scope = scope
      · rw [List.filter_cons_of_pos (by simpa using hscope)]
        subst hscope
        exact ih h.both
      · rw [List.filter_cons_of_neg (by simpa using hscope)]
        exact ih (h.left hscope)

theorem scope_of_mem_log_run (budget : ToolBudget) {s : BudgetRun}
    (hs : ∀ e ∈ s.log, e.scope = scope) {steps : List BudgetStep}
    (hsteps : ∀ step ∈ steps, step.scope = scope) :
    ∀ e ∈ (run budget.step s steps).log, e.scope = scope := by
  induction steps generalizing s with
  | nil => exact hs
  | cons step steps ih =>
      rw [List.forall_mem_cons] at hsteps
      refine ih (fun e he => ?_) hsteps.2
      rcases List.mem_append.mp he with he | he
      · exact hs e he
      · rw [List.mem_singleton.mp he]
        exact hsteps.1

theorem scopesApart (budget : ToolBudget) (steps : List BudgetStep) :
    ScopesApart budget steps := by
  intro scope
  have hagree : AgreeOn scope (run budget.step .initial steps)
      (run budget.step .initial (steps.filter (·.scope = scope))) :=
    agreeOn_run ⟨rfl, rfl⟩ steps
  have honly : ∀ step ∈ steps.filter (·.scope = scope),
      step.scope = scope := fun step hstep => by
    simpa using (List.mem_filter.mp hstep).2
  have hall := scope_of_mem_log_run budget (s := .initial) nofun honly
  refine ⟨hagree.lookup, hagree.log.trans (List.filter_eq_self.mpr ?_)⟩
  intro e he
  simpa using hall e he

/-! ## Intervals -/

structure WindowCounts (budget : ToolBudget) (scope : String)
    (log : List BudgetRecord) (window : BudgetWindow) : Prop where
  counted : ∀ resource : BudgetResource,
    Counted budget.windowNanos (resource.limit budget)
      (resource.records scope log) window.startedAt (resource.used window)
  within : ∀ resource : BudgetResource,
    resource.used window ≤ resource.limit budget
  asked : ∀ page ∈ window.cursors, ∃ e ∈ log, e.scope = scope ∧
    e.event.begunPage = some page ∧ window.startedAt ≤ e.time

structure BudgetInvariant (budget : ToolBudget) (s : BudgetRun) : Prop where
  unused : ∀ scope, s.windows.lookup scope = none →
    ∀ e ∈ s.log, e.scope = scope → e.event.isAccepted = false
  counts : ∀ scope window, s.windows.lookup scope = some window →
    WindowCounts budget scope s.log window
  started : ∀ scope window, s.windows.lookup scope = some window →
    ∃ e ∈ s.log, window.startedAt ≤ e.time
  loops : LoopsDelivered budget s.log

theorem records_append (resource : BudgetResource) (scope : String)
    (log log' : List BudgetRecord) :
    resource.records scope (log ++ log') =
      resource.records scope log ++ resource.records scope log' := by
  rw [BudgetResource.records, List.filter_append, List.map_append]
  rfl

theorem records_accepted (resource : BudgetResource) (scope : String)
    (time : ℤ) {event : BudgetEvent} (h : event.isAccepted) :
    resource.records scope [⟨scope, time, event⟩] =
      [(time, resource.cost event)] := by
  rw [BudgetResource.records, List.filter_cons_of_pos (by simpa using h)]
  rfl

theorem records_eq_nil {resource : BudgetResource} {log : List BudgetRecord}
    (h : ∀ e ∈ log, e.scope = scope → e.event.isAccepted = false) :
    resource.records scope log = [] := by
  rw [BudgetResource.records, List.filter_eq_nil_iff.mpr, List.map_nil]
  intro e he hcounted
  obtain ⟨hscope, haccepted⟩ := of_decide_eq_true hcounted
  rw [h e he hscope] at haccepted
  cases haccepted

/-- Records of other scopes, and of refused calls, change nothing that a
window has counted. -/
theorem WindowCounts.append {log : List BudgetRecord} {window : BudgetWindow}
    (h : WindowCounts budget scope log window) {e : BudgetRecord}
    (he : e.scope = scope → e.event.isAccepted = false) :
    WindowCounts budget scope (log ++ [e]) window := by
  refine ⟨fun resource => ?_, h.within, fun page hpage => ?_⟩
  · have hnil : resource.records scope [e] = [] :=
      records_eq_nil fun e' he' => by
        rw [List.mem_singleton.mp he']
        exact he
    rw [records_append, hnil, List.append_nil]
    exact h.counted resource
  · obtain ⟨e', he', hrest⟩ := h.asked page hpage
    exact ⟨e', List.mem_append_left _ he', hrest⟩

theorem BudgetCall.isAccepted_acceptedEvent (call : BudgetCall) :
    call.acceptedEvent.isAccepted := by
  cases call with
  | beginCall _ _ => rfl
  | acceptResult _ _ _ _ => rfl

theorem WindowCounts.spend {log : List BudgetRecord}
    {window window' : BudgetWindow} {call : BudgetCall} {time : ℤ}
    (h : WindowCounts budget scope log window)
    (hstarted : window.startedAt ≤ time)
    (hspends : Spends budget call window window') :
    WindowCounts budget scope
      (log ++ [⟨scope, time, call.acceptedEvent⟩]) window' := by
  have haccepted := call.isAccepted_acceptedEvent
  refine ⟨fun resource => ?_, fun resource => ?_, fun page hpage => ?_⟩
  · have hwithin := hspends.within resource (h.within resource)
    rw [records_append, records_accepted resource scope time haccepted,
      hspends.startedAt, hspends.used]
    rw [hspends.used] at hwithin
    exact (h.counted resource).concat hstarted hwithin
  · exact hspends.within resource (h.within resource)
  · rw [hspends.startedAt]
    rcases hspends.cursors page hpage with hpage | hpage
    · obtain ⟨e, he, hrest⟩ := h.asked page hpage
      exact ⟨e, List.mem_append_left _ he, hrest⟩
    · exact ⟨_, List.mem_concat_self, rfl, hpage, hstarted⟩

theorem BudgetInvariant.window {s : BudgetRun} (h : BudgetInvariant budget s)
    (hclock : ∀ e ∈ s.log, e.time ≤ step.time)
    (hlate : RestartsLate budget s step)
    (hconsults : Consults budget step.call) :
    WindowCounts budget step.scope s.log
        (budget.window step.scope step.time s.windows) ∧
      (budget.window step.scope step.time s.windows).startedAt ≤ step.time := by
  rw [ToolBudget.window]
  cases hfound : s.windows.lookup step.scope with
  | none =>
      refine ⟨⟨fun resource => ?_, fun resource => ?_, nofun⟩, le_rfl⟩
      · rw [records_eq_nil (h.unused _ hfound)]
        cases resource <;> exact counted_nil _ _ _
      · cases resource <;> exact Nat.zero_le _
  | some window =>
      dsimp only
      split_ifs with hpassed
      · refine ⟨⟨fun resource => ?_, fun resource => ?_, nofun⟩, le_rfl⟩
        · have hold : ∀ r ∈ resource.records step.scope s.log,
              r.1 + budget.windowNanos ≤ step.time := by
            intro r hr
            obtain ⟨e, he, rfl⟩ := List.mem_map.mp hr
            obtain ⟨he, hcounted⟩ := List.mem_filter.mp he
            obtain ⟨hscope, haccepted⟩ := of_decide_eq_true hcounted
            exact hlate hconsults window hfound hpassed e he hscope haccepted
          have hrestart := ((h.counts _ _ hfound).counted resource).restart hold
          cases resource <;> exact hrestart
        · cases resource <;> exact Nat.zero_le _
      · obtain ⟨e, he, hle⟩ := h.started _ _ hfound
        exact ⟨h.counts _ _ hfound, hle.trans (hclock e he)⟩

theorem window_open_of_mem_cursors {time : ℤ} {page : String × String}
    (h : page ∈ (budget.window scope time windows).cursors) :
    time - (budget.window scope time windows).startedAt <
      budget.windowNanos := by
  rw [ToolBudget.window] at h ⊢
  split at h
  · split_ifs at h ⊢ with hpassed
    · cases h
    · exact Int.lt_of_not_ge hpassed
  · cases h

theorem LoopsDelivered.concat {log : List BudgetRecord} {e : BudgetRecord}
    (h : LoopsDelivered budget log)
    (he : ∀ page, e.event = .refused page paginationLoopError →
      ∃ d ∈ log, d.scope = e.scope ∧ page.isSome ∧
        d.event.deliveredPage = page ∧ e.time - d.time < budget.windowNanos) :
    LoopsDelivered budget (log ++ [e]) := by
  intro before e' later page hsplit hloop
  rcases split_concat hsplit with ⟨rfl, rfl, -⟩ | ⟨rest, -, hlog⟩
  · exact he page hloop
  · exact h before e' rest page hlog hloop

/-- The invariant after a record of one scope, whose window alone may have
changed. -/
theorem BudgetInvariant.record {s : BudgetRun} {e : BudgetRecord}
    (h : BudgetInvariant budget s) (hother : ∀ scope, e.scope ≠ scope →
      windows'.lookup scope = s.windows.lookup scope)
    (hunused : windows'.lookup e.scope = none →
      s.windows.lookup e.scope = none ∧ e.event.isAccepted = false)
    (hown : ∀ window, windows'.lookup e.scope = some window →
      WindowCounts budget e.scope (s.log ++ [e]) window ∧
        ∃ e' ∈ s.log ++ [e], window.startedAt ≤ e'.time)
    (hloop : ∀ page, e.event = .refused page paginationLoopError →
      ∃ d ∈ s.log, d.scope = e.scope ∧ page.isSome ∧
        d.event.deliveredPage = page ∧ e.time - d.time < budget.windowNanos) :
    BudgetInvariant budget ⟨windows', s.log ++ [e]⟩ where
  unused scope hnone e' he' hscope := by
    rcases List.mem_append.mp he' with he' | he'
    · refine h.unused scope ?_ e' he' hscope
      by_cases hsame : e.scope = scope
      · exact hsame ▸ (hunused (hsame ▸ hnone)).1
      · rw [← hother scope hsame]
        exact hnone
    · obtain rfl := List.mem_singleton.mp he'
      exact (hunused (hscope ▸ hnone)).2
  counts scope window hfound := by
    by_cases hsame : e.scope = scope
    · subst hsame
      exact (hown window hfound).1
    · refine (h.counts scope window ?_).append fun hscope => ?_
      · rw [← hother scope hsame]
        exact hfound
      · exact absurd hscope hsame
  started scope window hfound := by
    by_cases hsame : e.scope = scope
    · subst hsame
      exact (hown window hfound).2
    · rw [hother scope hsame] at hfound
      obtain ⟨e', he', hle⟩ := h.started scope window hfound
      exact ⟨e', List.mem_append_left _ he', hle⟩
  loops := h.loops.concat hloop

theorem BudgetInvariant.step_settled {s : BudgetRun}
    (h : BudgetInvariant budget s) (hclock : ∀ e ∈ s.log, e.time ≤ step.time)
    (hsettled : Settled budget s step) :
    BudgetInvariant budget (budget.step s step) := by
  have hanswered := answered budget step s.windows
  rw [ToolBudget.step]
  generalize budget.answer step s.windows = answer at hanswered ⊢
  have hset : ∀ (window : BudgetWindow) scope, step.scope ≠ scope →
      (setItem step.scope window s.windows).lookup scope =
        s.windows.lookup scope := by
    intro window scope hne
    rw [lookup_setItem, if_neg hne]
  have hself : ∀ window window' : BudgetWindow,
      (setItem step.scope window s.windows).lookup step.scope =
        some window' → window = window' := by
    intro window window' hfound
    rw [lookup_setItem, if_pos rfl] at hfound
    exact Option.some.inj hfound
  have hset_ne_none : ∀ window : BudgetWindow,
      (setItem step.scope window s.windows).lookup step.scope ≠ none := by
    intro window
    rw [lookup_setItem, if_pos rfl]
    exact Option.some_ne_none _
  cases hanswered with
  | accepted window hconsults hspends =>
      obtain ⟨hcounts, hstarted⟩ := h.window hclock hsettled.1 hconsults
      refine h.record (hset window)
        (fun hnone => absurd hnone (hset_ne_none window)) ?_ ?_
      · intro window' hfound
        obtain rfl := hself window window' hfound
        refine ⟨hcounts.spend hstarted hspends, _, List.mem_concat_self, ?_⟩
        rw [hspends.startedAt]
        exact hstarted
      · intro page hpage
        have haccepted := step.call.isAccepted_acceptedEvent
        rw [show step.call.acceptedEvent = _ from hpage] at haccepted
        cases haccepted
  | refused failure hconsults hloop =>
      obtain ⟨hcounts, hstarted⟩ := h.window hclock hsettled.1 hconsults
      refine h.record (hset _)
        (fun hnone => absurd hnone (hset_ne_none _)) ?_ ?_
      · intro window' hfound
        obtain rfl := hself _ window' hfound
        exact ⟨hcounts.append fun _ => rfl, _, List.mem_concat_self, hstarted⟩
      · intro page hpage
        obtain ⟨hcursor, hfailure⟩ := BudgetEvent.refused.inj hpage
        obtain ⟨page', hbegun, hcursor', hmem⟩ := hloop hfailure
        have hopen := window_open_of_mem_cursors hmem
        obtain ⟨e, he, hscope, hasked, hle⟩ := hcounts.asked page' hmem
        obtain ⟨d, hd, hscope', hlater, hdelivered⟩ :=
          hsettled.2 page' hbegun e he hscope hasked (by omega)
        rw [← hcursor, hcursor']
        exact ⟨d, hd, hscope', rfl, hdelivered, by dsimp only; omega⟩
  | tooLarge failure hno =>
      refine h.record (fun _ _ => rfl) (fun hnone => ⟨hnone, rfl⟩) ?_ ?_
      · intro window hfound
        obtain ⟨e, he, hle⟩ := h.started _ _ hfound
        exact ⟨(h.counts _ _ hfound).append fun _ => rfl, e,
          List.mem_append_left _ he, hle⟩
      · intro page hpage
        exact absurd (BudgetEvent.refused.inj hpage).2 hno

theorem budgetInvariant_run {s : BudgetRun} (h : BudgetInvariant budget s)
    {steps : List BudgetStep}
    (hclock : steps.Pairwise fun a b => a.time ≤ b.time)
    (hpast : ∀ e ∈ s.log, ∀ step ∈ steps, e.time ≤ step.time)
    (hmeet : StepsMeet budget.step (Settled budget) s steps) :
    BudgetInvariant budget (run budget.step s steps) := by
  induction steps generalizing s with
  | nil => exact h
  | cons step steps ih =>
      obtain ⟨hhead, htail⟩ := List.pairwise_cons.mp hclock
      have hnow : ∀ e ∈ s.log, e.time ≤ step.time := fun e he =>
        hpast e he step List.mem_cons_self
      refine ih (h.step_settled hnow hmeet.1) htail ?_ hmeet.2
      intro e he step' hstep'
      rcases List.mem_append.mp he with he | he
      · exact hpast e he step' (List.mem_cons_of_mem _ hstep')
      · rw [List.mem_singleton.mp he]
        exact hhead step' hstep'

theorem budgetInvariant_initial (budget : ToolBudget) :
    BudgetInvariant budget .initial where
  unused _ _ _ he := nomatch he
  counts _ _ hfound := nomatch hfound
  started _ _ hfound := nomatch hfound
  loops before e later _ hsplit := by
    have hlength := congrArg List.length hsplit
    rw [List.length_append] at hlength
    exact absurd hlength (by simp [BudgetRun.initial])

theorem BudgetInvariant.kept {s : BudgetRun} (h : BudgetInvariant budget s) :
    BudgetKept budget s.log where
  limited resource scope a b hab := by
    cases hfound : s.windows.lookup scope with
    | none =>
        rw [records_eq_nil (h.unused scope hfound)]
        exact Nat.zero_le _
    | some window =>
        exact ((h.counts scope window hfound).counted resource).bounded a b hab
  loops := h.loops

/-! ## The promise of the budget -/

/-- In every run that starts its windows again late enough, and asks again
only for pages that were delivered, the budget holds over every interval. -/
theorem budgetKept_of_settled (budget : ToolBudget) (steps : List BudgetStep)
    (hclock : steps.Pairwise fun a b => a.time ≤ b.time) :
    (StepsMeet budget.step (Settled budget) .initial steps →
      BudgetKept budget (run budget.step .initial steps).log) ∧
    RefusalsConsumeNothing budget ∧ ScopesApart budget steps := by
  refine ⟨fun hmeet => ?_, refusalsConsumeNothing budget,
    scopesApart budget steps⟩
  exact (budgetInvariant_run (budgetInvariant_initial budget) hclock nofun
    hmeet).kept

end

/-- Two calls of three are counted in a window that started long before, so
three of them lie within two seconds; a page that was asked for but never came
cannot be asked for again. -/
theorem three_calls_and_undelivered_loop :
    ¬ BudgetKept { windowNanos := 60, maxCalls := 2 }
        (run (ToolBudget.step { windowNanos := 60, maxCalls := 2 }) .initial
          ([0, 59, 60, 61].map fun time =>
            ⟨time, "direct", .beginCall "apex.case.list" []⟩)).log ∧
      ¬ BudgetKept {}
        (run (ToolBudget.step {}) .initial
          ([0, 1].map fun time => ⟨time, "direct",
            .beginCall "apex.context.scope_page"
              [("cursor", .str "page-2")]⟩)).log := by
  constructor
  · intro h
    have hlimited := h.limited .calls "direct" 59 61 (by decide)
    revert hlimited
    decide +kernel
  · intro h
    obtain ⟨d, hd, -, -, hdelivered, -⟩ := h.loops
      [⟨"direct", 0, .began (some ("apex.context.scope_page", "page-2"))⟩]
      ⟨"direct", 1, .refused (some ("apex.context.scope_page", "page-2"))
        paginationLoopError⟩ [] _ (by rfl) rfl
    rw [List.mem_singleton.mp hd] at hdelivered
    cases hdelivered

/-- A page that is delivered, and a call in the next window. -/
def pagedSteps : List BudgetStep :=
  [⟨0, "direct", .beginCall "apex.context.scope_page"
      [("cursor", .str "page-2")]⟩,
    ⟨5, "direct", .acceptResult "apex.context.scope_page"
      [("cursor", .str "page-2")] [("status", .str "OK")] 10⟩,
    ⟨6, "direct", .beginCall "apex.context.scope_page"
      [("cursor", .str "page-2")]⟩,
    ⟨70, "direct", .beginCall "apex.case.list" []⟩]

theorem budgetKept_pagedSteps :
    BudgetKept { windowNanos := 60 }
      (run (ToolBudget.step { windowNanos := 60 }) .initial pagedSteps).log :=
  (budgetKept_of_settled { windowNanos := 60 } pagedSteps (by decide)).1
    ⟨by decide +kernel, by decide +kernel, by decide +kernel,
      by decide +kernel, trivial⟩

/-! ## The server -/

section

variable {σ : Type} {P : CallPlatform} {registry : ToolRegistry σ}
  {request : CallRequest} {inputs : CallInputs}

/-- The windows of the one state are those of the other after a run of the
budget. -/
def RunsBudget (budget : ToolBudget) (s t : ServerState σ) : Prop :=
  ∃ steps, ∀ log, (run budget.step ⟨s.windows, log⟩ steps).windows = t.windows

instance (budget : ToolBudget) : Std.Refl (RunsBudget (σ := σ) budget) where
  refl _ := ⟨[], fun _ => rfl⟩

instance (budget : ToolBudget) :
    IsTrans (ServerState σ) (RunsBudget budget) where
  trans s t u := by
    rintro ⟨first, hfirst⟩ ⟨second, hsecond⟩
    refine ⟨first ++ second, fun log => ?_⟩
    rw [run_append, ← hsecond (run budget.step ⟨s.windows, log⟩ first).log,
      ← hfirst log]

theorem runsBudget_of_windows_eq {s t : ServerState σ}
    (h : t.windows = s.windows) : RunsBudget registry.budget s t :=
  ⟨[], fun _ => h.symm⟩

theorem runsBudget_beginCall (admission : Admission) :
    Service.Respects (RunsBudget registry.budget)
      (beginCall registry request inputs admission) :=
  fun _ => ⟨[⟨inputs.begunAt, admission.scope,
    .beginCall request.toolName request.arguments⟩], fun _ => rfl⟩

theorem runsBudget_acceptResult (invocation : Invocation)
    (result : List (String × Json)) :
    Service.Respects (RunsBudget registry.budget)
      (acceptResult registry inputs invocation result) :=
  fun _ => ⟨[⟨inputs.acceptedAt, invocation.admission.scope,
    .acceptResult "" [] result
      invocation.admission.tool.descriptor.maxResultItems⟩], fun _ => rfl⟩

theorem runsBudget_confirm (admission : Admission) :
    Service.Respects (RunsBudget registry.budget)
      (confirm P registry request inputs admission) := by
  intro s
  apply runsBudget_of_windows_eq
  rw [Service.after, confirm]
  split
  · rfl
  split
  · rfl
  split
  · rfl
  split
  · dsimp only
    split
    · rfl
    · rfl
  · rfl

theorem runsBudget_invoke (invocation : Invocation) :
    Service.Respects (RunsBudget registry.budget)
      (invoke P registry inputs invocation) := by
  refine Service.respects_bind (Service.respects_read _) fun checked => ?_
  obtain ⟨descriptor, early⟩ := checked
  cases early with
  | some result => exact Service.respects_pure _
  | none =>
      intro s
      apply runsBudget_of_windows_eq
      dsimp only [Service.after]
      rw [invokeCore]
      split
      · rfl
      · rfl

theorem callTool_runsBudget (s : ServerState σ) :
    RunsBudget registry.budget s (callTool P registry request inputs s).2 := by
  have hbody : Service.Respects (RunsBudget registry.budget)
      (callBody P registry request inputs) := by
    refine Service.respects_bind ?_ fun invocation => ?_
    · refine Service.respects_bind ?_ fun confirmed => ?_
      · refine Service.respects_bind (Service.respects_read _) fun _ => ?_
        refine Service.respects_bind (runsBudget_beginCall _) fun _ => ?_
        exact Service.respects_bind (runsBudget_confirm _) fun _ =>
          Service.respects_pure _
      · exact Service.respects_bind (Service.respects_read _) fun _ =>
          Service.respects_pure _
    refine Service.respects_bind (runsBudget_invoke invocation) fun reply => ?_
    refine Service.respects_bind (Service.respects_read _) fun _ => ?_
    refine Service.respects_bind (Service.respects_read _) fun _ => ?_
    refine Service.respects_bind (runsBudget_acceptResult _ _) fun _ => ?_
    dsimp only
    split
    · exact Service.respects_bind (Service.respects_read _) fun _ =>
        Service.respects_pure _
    · exact Service.respects_pure _
  have hafter := hbody s
  rw [Service.after] at hafter
  rw [callTool]
  generalize callBody P registry request inputs s = answer at hafter ⊢
  rcases answer with ⟨failure | ⟨result, isError⟩, s'⟩
  · dsimp only
    split
    · exact hafter
    · exact hafter
  · exact hafter

/-- No window has counted more than the budget allows. -/
def WithinBudget (budget : ToolBudget) (windows : Windows) : Prop :=
  ∀ scope, ∀ window ∈ windows.lookup scope, ∀ resource : BudgetResource,
    resource.used window ≤ resource.limit budget

theorem WithinBudget.answer {budget : ToolBudget} {windows : Windows}
    (h : WithinBudget budget windows) (step : BudgetStep) :
    WithinBudget budget (budget.answer step windows).2 := by
  have hwindow (resource : BudgetResource) :
      resource.used (budget.window step.scope step.time windows) ≤
        resource.limit budget := by
    have hnew : resource.used ⟨step.time, 0, 0, 0, []⟩ ≤
        resource.limit budget := by
      cases resource <;> exact Nat.zero_le _
    rw [ToolBudget.window]
    split
    · rename_i window hfound
      split_ifs
      · exact hnew
      · exact h step.scope window hfound resource
    · exact hnew
  have hset {window : BudgetWindow}
      (hlimit : ∀ resource : BudgetResource,
        resource.used window ≤ resource.limit budget) :
      WithinBudget budget (setItem step.scope window windows) := by
    intro scope found hfound resource
    rw [lookup_setItem] at hfound
    split at hfound
    · obtain rfl := Option.some.inj hfound
      exact hlimit resource
    · exact h scope found hfound resource
  have hanswered := answered budget step windows
  generalize budget.answer step windows = answer at hanswered ⊢
  cases hanswered with
  | accepted window _ spends =>
      exact hset fun resource => spends.within resource (hwindow resource)
  | refused failure _ _ => exact hset hwindow
  | tooLarge failure _ => exact h

/-- Whatever the tools, the arguments, the answers of the Core and the clock,
a server that starts without windows keeps every window within its budget. -/
theorem withinBudget_run (P : CallPlatform) (registry : ToolRegistry σ)
    (s : ServerState σ) (calls : List TimedCall) :
    WithinBudget registry.budget
      (run (callStep P registry) { s with windows := [] } calls).windows := by
  have hstep : ∀ t call, WithinBudget registry.budget t.windows →
      WithinBudget registry.budget (callStep P registry t call).windows := by
    intro t call ht
    obtain ⟨steps, hsteps⟩ : RunsBudget registry.budget t
      (callStep P registry t call) := callTool_runsBudget t
    rw [← hsteps []]
    exact @run_invariant BudgetRun BudgetStep registry.budget.step
      (fun r => WithinBudget registry.budget r.windows)
      (fun r step hr => hr.answer step) _ ht steps
  exact @run_invariant (ServerState σ) TimedCall (callStep P registry)
    (fun t => WithinBudget registry.budget t.windows) hstep _
    (fun _ _ h => (Option.not_mem_none _ h).elim) calls

end

end ApexForensic.Mcp
