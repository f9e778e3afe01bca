import ApexForensic.Ai.Execution

/-!
# What one step of an execution does

A step of a call reads, or it dispatches the provider, or it stores a result.
What a call knows of the store at each of its phases is kept by its own reads,
and by whatever leaves the results, the snapshots and the sources it relies on.
-/

namespace ApexForensic.Ai

open ApexForensic.Support ApexForensic.Domain
open ApexForensic.Context (AnalysisContextSnapshot RevisionState RevisionStatus
  Sources)

variable {result : StoredResult} {phase : Phase} {request : AssistanceRequest}
  {key : String × String} {checks : List RevisionCheck}

/-! ## Results of a request -/

namespace ExecutionStore

variable {store : ExecutionStore}

/-- The request is there and has not expired. -/
def Live (store : ExecutionStore) (requestId : String) : Prop :=
  ∃ request, store.requests.find? requestId = some request ∧
    store.now.micros < request.expiresAt.micros

theorem mem_resultsFor :
    result ∈ store.resultsFor key ↔
      result ∈ store.results ∧ result.key = key := by
  rw [resultsFor, List.mem_filter, decide_eq_true_eq]

theorem batch_mem_results {batch : KeywordBatch} :
    .batch batch ∈ store.results ↔ batch ∈ store.batches.rows := by
  simp [results]

theorem summary_mem_results {summary : ScopeSummary} :
    .summary summary ∈ store.results ↔ summary ∈ store.summaries.rows := by
  simp [results]

end ExecutionStore

/-- The operations that a provider can be asked to execute. -/
def Supported (operation : String) : Prop :=
  operation = RequestedOperation.recommendKeywords.value ∨
    operation = RequestedOperation.summarizeScope.value

section

variable {store : ExecutionStore} {requestId operation : String}

theorem mem_rows_iff (hop : Supported operation) :
    result ∈ (if operation = RequestedOperation.recommendKeywords.value then
        store.batches.rows.map StoredResult.batch
      else store.summaries.rows.map StoredResult.summary) ↔
      result ∈ store.results ∧ result.operation = operation := by
  rcases hop with rfl | rfl
  · rw [if_pos rfl]
    cases result with
    | batch b => simp [ExecutionStore.results, StoredResult.operation]
    | summary s =>
        simp [ExecutionStore.results, StoredResult.operation,
          RequestedOperation.value]
  · rw [if_neg (by decide)]
    cases result with
    | batch b =>
        simp [ExecutionStore.results, StoredResult.operation,
          RequestedOperation.value]
    | summary s => simp [ExecutionStore.results, StoredResult.operation]

theorem mem_of_firstResult (hop : Supported operation)
    (h : store.firstResult requestId operation = some result) :
    result ∈ store.resultsFor (requestId, operation) := by
  have hmem := List.mem_of_mem_head? h
  rw [List.mem_insertionSort, List.mem_filter, decide_eq_true_eq,
    mem_rows_iff hop] at hmem
  obtain ⟨⟨hresult, hoperation⟩, hrequest⟩ := hmem
  exact ExecutionStore.mem_resultsFor.mpr
    ⟨hresult, Prod.ext hrequest hoperation⟩

theorem resultsFor_eq_nil_of_firstResult (hop : Supported operation)
    (h : store.firstResult requestId operation = none) :
    store.resultsFor (requestId, operation) = [] := by
  apply List.eq_nil_iff_forall_not_mem.mpr
  intro result hresult
  obtain ⟨hmem, hkey⟩ := ExecutionStore.mem_resultsFor.mp hresult
  have hrow := (mem_rows_iff hop).mpr ⟨hmem, congrArg Prod.snd hkey⟩
  have hsorted : result ∈ ([] : List StoredResult) := by
    rw [← List.head?_eq_none_iff.mp h, List.mem_insertionSort, List.mem_filter,
      decide_eq_true_eq]
    exact ⟨hrow, congrArg Prod.fst hkey⟩
  exact absurd hsorted List.not_mem_nil

theorem getResult_mem {found : StoredResult}
    (hfound : found ∈ store.resultsFor key) (hkey : key.2 = operation)
    (h : getResult store operation found.resultId = .ok result) :
    result ∈ store.resultsFor key := by
  obtain ⟨hmem, hfoundKey⟩ := ExecutionStore.mem_resultsFor.mp hfound
  have hoperation : operation = found.operation :=
    hkey.symm.trans (congrArg Prod.snd hfoundKey).symm
  suffices result = found by rwa [this]
  rw [getResult] at h
  cases found with
  | batch b =>
      have hbatch : operation = RequestedOperation.recommendKeywords.value :=
        hoperation
      rw [if_pos hbatch] at h
      have hfind : store.batches.find? b.recommendationBatchId = some b :=
        Table.find?_eq_some_iff.mpr
          ⟨ExecutionStore.batch_mem_results.mp hmem, rfl⟩
      rw [StoredResult.resultId, hfind] at h
      exact (Except.ok.inj h).symm
  | summary s =>
      have hsummary : RequestedOperation.summarizeScope.value ≠
          RequestedOperation.recommendKeywords.value := by decide
      rw [if_neg fun heq => hsummary (hoperation.symm.trans heq)] at h
      have hfind : store.summaries.find? s.scopeSummaryId = some s :=
        Table.find?_eq_some_iff.mpr
          ⟨ExecutionStore.summary_mem_results.mp hmem, rfl⟩
      rw [StoredResult.resultId, hfind] at h
      exact (Except.ok.inj h).symm

end

/-! ## Reads -/

section

variable {store : ExecutionStore} {requestId : String}

theorem getRequest_eq_ok_iff :
    getRequest store requestId = .ok request ↔
      store.requests.find? requestId = some request := by
  rw [getRequest]
  cases store.requests.find? requestId with
  | none => simp
  | some row => simp

theorem snapshotOf_of_requireSnapshot {snapshot : AnalysisContextSnapshot}
    (h : requireSnapshot store requestId = .ok snapshot) :
    store.snapshotOf requestId = some snapshot := by
  unfold requireSnapshot at h
  obtain ⟨request, hrequest, hrest⟩ := bind_ok h
  rw [ExecutionStore.snapshotOf, getRequest_eq_ok_iff.mp hrequest,
    Option.bind_some]
  revert hrest
  cases store.snapshots.find? request.contextSnapshotId with
  | none => exact nofun
  | some row =>
      intro hrest
      rw [Except.ok.inj hrest]

theorem live_of_requestForIngest
    (h : requestForIngest store requestId = .ok request) :
    store.Live requestId := by
  unfold requestForIngest at h
  obtain ⟨row, hrow, hrest⟩ := bind_ok h
  obtain ⟨hlate, -⟩ := check_ok hrest
  exact ⟨row, getRequest_eq_ok_iff.mp hrow, not_le.mp hlate⟩

theorem requestId_of_requestForIngest
    (h : requestForIngest store requestId = .ok request) :
    request.assistanceRequestId = requestId := by
  unfold requestForIngest at h
  obtain ⟨row, hrow, hrest⟩ := bind_ok h
  obtain ⟨-, hok⟩ := check_ok hrest
  rw [← Except.ok.inj hok]
  exact (Table.find?_eq_some_iff.mp (getRequest_eq_ok_iff.mp hrow)).2

theorem supported_of_checkOperation {operation : String} {u : Unit}
    (h : checkOperation request operation = .ok u) : Supported operation := by
  unfold checkOperation at h
  obtain ⟨-, h⟩ := check_ok h
  obtain ⟨-, h⟩ := check_ok h
  obtain ⟨hmem, -⟩ := check_ok h
  rw [not_not, List.mem_pair] at hmem
  exact hmem

theorem of_checkDispatch {args : ExecuteArgs} {capability : ProviderCapability}
    {u : Unit} (h : checkDispatch store args request checks capability = .ok u)
    : isCurrent checks = true := by
  unfold checkDispatch at h
  obtain ⟨_, -, h⟩ := bind_ok h
  obtain ⟨hcurrent, -⟩ := check_ok h
  simpa using hcurrent

variable {P : Context.Platform} {C : PayloadChecks}

theorem of_ingest {operation newId : String} {payload : Json}
    {row : StoredResult} (hop : Supported operation)
    (h : ingest P C store requestId operation payload newId = .ok row) :
    store.Live requestId ∧ row.key = (requestId, operation) := by
  unfold ingest at h
  obtain ⟨request, hrequest, h⟩ := bind_ok h
  obtain ⟨snapshot, -, h⟩ := bind_ok h
  refine ⟨live_of_requestForIngest hrequest, ?_⟩
  have hid := requestId_of_requestForIngest hrequest
  rcases hop with rfl | rfl
  · rw [if_pos rfl] at h
    obtain ⟨contents, -, h⟩ := bind_ok h
    rw [← Except.ok.inj h]
    exact Prod.ext hid rfl
  · rw [if_neg (by decide)] at h
    obtain ⟨contents, -, h⟩ := bind_ok h
    rw [← Except.ok.inj h]
    exact Prod.ext hid rfl

end

/-! ## Phases -/

namespace Phase

/-- The call has found no result and has not ended. -/
def underway : Phase → Bool
  | guarding .. | generating .. | awaiting .. | ingesting .. | saving .. => true
  | _ => false

/-- The provider has been dispatched, and the call has not ended. -/
def pending : Phase → Bool
  | awaiting .. | ingesting .. | saving .. => true
  | _ => false

def isSaving : Phase → Bool
  | saving .. => true
  | _ => false

def failed : Phase → Bool
  | ended (.error _) => true
  | _ => false

/-- The revisions that were checked, for a call that may store a result. -/
def checked : Phase → List RevisionCheck
  | checking _ checks _ | looking _ checks | guarding _ checks
  | generating _ checks | awaiting _ checks | ingesting _ checks _
  | saving _ checks _ => checks
  | _ => []

theorem underway_of_pending (h : phase.pending = true) :
    phase.underway = true := by
  cases phase <;> first | rfl | exact h

end Phase

section

variable (P : Context.Platform) (store : ExecutionStore)

/-- A captured revision is the one its source has now. -/
def RevisionCurrent (sources : Sources) (state : RevisionState) : Prop :=
  (checkRevision P sources state).status = .current

/-- The sources of a request have the revisions that it captured. -/
def SourcesCurrent (requestId : String) : Prop :=
  ∃ snapshot, store.snapshotOf requestId = some snapshot ∧
    ∀ state ∈ snapshot.sourceRevisions, RevisionCurrent P store.sources state

/-- What a call that has checked some of its captured revisions knows: unless
it finds a result or a revision was not current, those are still current. -/
structure Checked (key : String × String) (checks : List RevisionCheck)
    (states : List RevisionState) : Prop where
  supported : Supported key.2
  captured : ∃ snapshot, store.snapshotOf key.1 = some snapshot ∧
    checks.map RevisionCheck.state ++ states = snapshot.sourceRevisions
  current : isCurrent checks = true → store.resultsFor key = [] →
    ∀ check ∈ checks, RevisionCurrent P store.sources check.state

/-- What a call that goes on to dispatch the provider knows. -/
structure Dispatching (key : String × String) (checks : List RevisionCheck) :
    Prop extends Checked P store key checks [] where
  isCurrent : isCurrent checks = true
  unserved : store.resultsFor key = []

/-- What a call knows of the store. -/
def Knows (key : String × String) : Phase → Prop
  | .fetching => True
  | .validating _ => Supported key.2
  | .checking _ checks states => Checked P store key checks states
  | .looking _ checks => Checked P store key checks []
  | .reading _ _ resultId =>
      ∃ found ∈ store.resultsFor key, found.resultId = resultId
  | .guarding _ checks =>
      Checked P store key checks [] ∧ store.resultsFor key = []
  | .generating _ checks | .awaiting _ checks | .ingesting _ checks _ =>
      Dispatching P store key checks
  | .saving _ checks row =>
      Dispatching P store key checks ∧ store.Live key.1 ∧ row.key = key
  | .ended (.ok result) => result.result ∈ store.resultsFor key
  | .ended (.error _) => True

end

section

variable {P : Context.Platform} {C : PayloadChecks} {store : ExecutionStore}
  {key : String × String}

theorem Knows.unserved (h : Knows P store key phase)
    (hphase : phase.underway = true) : store.resultsFor key = [] := by
  cases phase with
  | guarding request checks => exact h.2
  | generating request checks => exact Dispatching.unserved h
  | awaiting request checks => exact Dispatching.unserved h
  | ingesting request checks payload => exact Dispatching.unserved h
  | saving request checks row => exact Dispatching.unserved h.1
  | _ => exact absurd hphase Bool.false_ne_true

theorem Dispatching.sourcesCurrent (h : Dispatching P store key checks) :
    SourcesCurrent P store key.1 := by
  obtain ⟨snapshot, hsnapshot, hstates⟩ := h.captured
  refine ⟨snapshot, hsnapshot, fun state hstate => ?_⟩
  rw [← hstates, List.append_nil] at hstate
  obtain ⟨check, hcheck, rfl⟩ := List.mem_map.mp hstate
  exact h.current h.isCurrent h.unserved check hcheck

theorem checkRevision_state (sources : Sources) (state : RevisionState) :
    (checkRevision P sources state).state = state := by
  rw [checkRevision]
  split <;> rfl

theorem Checked.next {state : RevisionState} {states : List RevisionState}
    (h : Checked P store key checks (state :: states)) :
    Checked P store key (checks ++ [checkRevision P store.sources state])
      states := by
  obtain ⟨snapshot, hsnapshot, hstates⟩ := h.captured
  refine ⟨h.supported, ⟨snapshot, hsnapshot, ?_⟩, fun hcurrent hnone => ?_⟩
  · rw [List.map_append, List.map_singleton, checkRevision_state,
      List.append_assoc, List.singleton_append, hstates]
  · rw [isCurrent, List.all_append, Bool.and_eq_true, List.all_cons,
      List.all_nil, Bool.and_true, decide_eq_true_eq] at hcurrent
    intro check hcheck
    rcases List.mem_append.mp hcheck with hold | hnew
    · exact h.current hcurrent.1 hnone check hold
    · rw [List.mem_singleton.mp hnew, checkRevision_state]
      exact hcurrent.2

/-- A failed read leaves nothing to know; after another, what is known is what
the next phase needs. -/
theorem Knows.after {α : Type} {read : Except PyError α} {next : α → Phase}
    (h : ∀ a, read = .ok a → Knows P store key (next a)) :
    Knows P store key (.after read next) := by
  cases read with
  | error e => trivial
  | ok a => exact h a rfl

theorem Knows.readStep {call : ExecuteCall}
    (h : Knows P store call.key call.phase) :
    Knows P store call.key (call.readStep P C store) := by
  obtain ⟨⟨requestId, operation⟩, inputs, phase⟩ := call
  cases phase with
  | fetching =>
      refine Knows.after fun request _ => Knows.after fun _ hchecked => ?_
      exact supported_of_checkOperation hchecked
  | validating request =>
      refine Knows.after fun snapshot hsnapshot => ?_
      refine ⟨h, ⟨snapshot, snapshotOf_of_requireSnapshot hsnapshot, rfl⟩, ?_⟩
      exact fun _ _ check hcheck => absurd hcheck List.not_mem_nil
  | checking request checks states =>
      cases states with
      | nil => exact h
      | cons state states => exact h.next
  | looking request checks =>
      rw [ExecuteCall.readStep]
      dsimp only
      split
      · rename_i result hfirst
        exact ⟨result, mem_of_firstResult h.supported hfirst, rfl⟩
      · rename_i hfirst
        exact ⟨h, resultsFor_eq_nil_of_firstResult h.supported hfirst⟩
  | reading request checks resultId =>
      obtain ⟨found, hfound, rfl⟩ := h
      refine Knows.after fun result hresult => ?_
      exact getResult_mem hfound rfl hresult
  | guarding request checks =>
      refine Knows.after fun _ hdispatch => ?_
      exact ⟨h.1, of_checkDispatch hdispatch, h.2⟩
  | generating request checks => exact h
  | awaiting request checks => exact Knows.after fun payload _ => h
  | ingesting request checks payload =>
      refine Knows.after fun row hrow => ?_
      obtain ⟨hlive, hkey⟩ := of_ingest h.supported hrow
      exact ⟨h, hlive, hkey⟩
  | saving request checks row => exact h
  | ended outcome => exact h

/-- What changes of the store a call can bear. -/
structure Bears (key : String × String) (phase : Phase)
    (before after : ExecutionStore) : Prop where
  snapshot : after.snapshotOf key.1 = before.snapshotOf key.1
  results : ∀ result ∈ before.resultsFor key, result ∈ after.resultsFor key
  unserved : phase.underway = true → after.resultsFor key = []
  current : isCurrent phase.checked = true → after.resultsFor key = [] →
    (∀ check ∈ phase.checked,
      RevisionCurrent P before.sources check.state) →
    ∀ check ∈ phase.checked, RevisionCurrent P after.sources check.state
  live : phase.isSaving = true → before.Live key.1 → after.Live key.1

section

variable {before after : ExecutionStore} {phase : Phase}

theorem Bears.unserved_before
    (h : Bears (P := P) key phase before after)
    (hnone : after.resultsFor key = []) : before.resultsFor key = [] := by
  apply List.eq_nil_iff_forall_not_mem.mpr
  intro result hresult
  have hmem := h.results result hresult
  rw [hnone] at hmem
  exact absurd hmem List.not_mem_nil

theorem Bears.checked {states : List RevisionState}
    (h : Bears (P := P) key phase before after)
    (hknown : Checked P before key phase.checked states) :
    Checked P after key phase.checked states := by
  refine ⟨hknown.supported, ?_, fun hcurrent hnone => ?_⟩
  · rw [h.snapshot]
    exact hknown.captured
  · exact h.current hcurrent hnone
      (hknown.current hcurrent (h.unserved_before hnone))

theorem Bears.dispatching
    (h : Bears (P := P) key phase before after)
    (hknown : Dispatching P before key phase.checked)
    (hphase : phase.underway = true) :
    Dispatching P after key phase.checked :=
  ⟨h.checked hknown.toChecked, hknown.isCurrent, h.unserved hphase⟩

theorem Knows.of_bears (hknown : Knows P before key phase)
    (h : Bears (P := P) key phase before after) :
    Knows P after key phase := by
  cases phase with
  | fetching => trivial
  | validating request => exact hknown
  | checking request checks states => exact h.checked hknown
  | looking request checks => exact h.checked hknown
  | reading request checks resultId =>
      obtain ⟨found, hfound, hid⟩ := hknown
      exact ⟨found, h.results found hfound, hid⟩
  | guarding request checks =>
      exact ⟨h.checked hknown.1, h.unserved rfl⟩
  | generating request checks => exact h.dispatching hknown rfl
  | awaiting request checks => exact h.dispatching hknown rfl
  | ingesting request checks payload => exact h.dispatching hknown rfl
  | saving request checks row =>
      exact ⟨h.dispatching hknown.1 rfl, h.live rfl hknown.2.1, hknown.2.2⟩
  | ended outcome =>
      cases outcome with
      | error e => trivial
      | ok result => exact h.results _ hknown

end

end

/-! ## Storing a result -/

section

variable {store after : ExecutionStore} {row : StoredResult}

theorem rows_of_insertUnique {α : Type} {key : α → String} {columns : String}
    {table table' : Table key} {row : α}
    (h : insertUnique columns table row = .ok table') :
    table'.rows = table.rows ++ [row] := by
  rw [insertUnique] at h
  split at h
  · rename_i hinsert
    rw [← Except.ok.inj h]
    exact (Table.insert_eq_some_iff.mp hinsert).2
  · cases h

/-- A save adds its row to the results and changes nothing else. -/
structure Saves (store after : ExecutionStore) (row : StoredResult) : Prop where
  requests : after.requests = store.requests
  snapshots : after.snapshots = store.snapshots
  sources : after.sources = store.sources
  now : after.now = store.now
  results : after.results.Perm (row :: store.results)

theorem saves_of_saveResult (h : saveResult store row = .ok after) :
    Saves store after row := by
  cases row with
  | batch batch =>
      unfold saveResult saveKeywordBatch at h
      obtain ⟨batches, hbatches, h⟩ := bind_ok h
      obtain ⟨_, -, h⟩ := bind_ok h
      obtain ⟨_, -, h⟩ := bind_ok h
      rw [← Except.ok.inj h]
      refine ⟨rfl, rfl, rfl, rfl, ?_⟩
      rw [ExecutionStore.results, rows_of_insertUnique hbatches,
        List.map_append, List.append_assoc]
      exact List.perm_middle
  | summary summary =>
      unfold saveResult saveScopeSummary at h
      obtain ⟨summaries, hsummaries, h⟩ := bind_ok h
      obtain ⟨_, -, h⟩ := bind_ok h
      rw [← Except.ok.inj h]
      refine ⟨rfl, rfl, rfl, rfl, ?_⟩
      rw [ExecutionStore.results, rows_of_insertUnique hsummaries,
        List.map_append, ← List.append_assoc]
      exact List.perm_append_comm

theorem Saves.resultsFor_of_ne (h : Saves store after row)
    (hkey : row.key ≠ key) :
    (after.resultsFor key).Perm (store.resultsFor key) := by
  refine (h.results.filter _).trans ?_
  rw [List.filter_cons_of_neg (by simpa using hkey)]
  exact List.Perm.refl _

theorem Saves.resultsFor_of_eq (h : Saves store after row)
    (hkey : row.key = key) :
    (after.resultsFor key).Perm (row :: store.resultsFor key) := by
  refine (h.results.filter _).trans ?_
  rw [List.filter_cons_of_pos (by simpa using hkey)]
  exact List.Perm.refl _

theorem Saves.snapshotOf (h : Saves store after row) (requestId : String) :
    after.snapshotOf requestId = store.snapshotOf requestId := by
  rw [ExecutionStore.snapshotOf, h.requests, h.snapshots,
    ExecutionStore.snapshotOf]

theorem Saves.live (h : Saves store after row) {requestId : String}
    (hlive : store.Live requestId) : after.Live requestId := by
  obtain ⟨request, hrequest, hlate⟩ := hlive
  exact ⟨request, h.requests ▸ hrequest, h.now ▸ hlate⟩

variable {P : Context.Platform}

theorem Saves.bears (h : Saves store after row)
    (hknown : Knows P store key phase)
    (hother : phase.underway = true → row.key ≠ key) :
    Bears (P := P) key phase store after where
  snapshot := h.snapshotOf key.1
  results result hresult := by
    by_cases hkey : row.key = key
    · exact (h.resultsFor_of_eq hkey).mem_iff.mpr
        (List.mem_cons_of_mem _ hresult)
    · exact (h.resultsFor_of_ne hkey).mem_iff.mpr hresult
  unserved hphase := by
    have hperm := h.resultsFor_of_ne (hother hphase)
    rw [hknown.unserved hphase] at hperm
    exact hperm.eq_nil
  current _ _ hcurrent := by
    rw [h.sources]
    exact hcurrent
  live _ := h.live

end

end ApexForensic.Ai
