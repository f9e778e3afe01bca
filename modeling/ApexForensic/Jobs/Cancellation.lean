import ApexForensic.Jobs.Model

/-!
# Cancelling a job while its loop runs

No loop reads the stored job while it runs, and each writes its whole copy
back.  So a cancellation is kept as long as nothing else writes the job, or
returns it as cancelled, between a loop's reading or writing of the job and
its next write.
-/

namespace ApexForensic.Jobs

open ApexForensic.Support ApexForensic.Domain

variable {J : String}

/-! ## What one transaction does -/

/-- A transaction of a call on the job. -/
inductive JobStep (J : String) (s : JobStore) :
    JobStore × List JobEvent → Prop
  | silent {t : JobStore} (h : t.jobs = s.jobs) : JobStep J s (t, [])
  | read {job : Job} {event : JobEvent} (h : s.job? J = some job)
      (hevent : event = .loaded job ∨ event = .seen job ∨
        event = .answered job) : JobStep J s (s, [event])
  | created {t : JobStore} {job : Job} (hid : job.jobId = J)
      (hnone : s.job? J = none) (ht : t.jobs = s.jobs ++ [job]) :
      JobStep J s (t, [.created job])
  | wrote {t : JobStore} {job : Job} {event : JobEvent}
      (hid : job.jobId = J)
      (hevent : event = .progress job ∨ ∃ read, event = .requested read job)
      (ht : t.jobs = updateRow Job.jobId s.jobs job) :
      JobStep J s (t, [event])

theorem jobStep_refl (s : JobStore) : JobStep J s (s, []) :=
  .silent rfl

/-- The events of one call: a loop inserts or loads the job and then writes
revisions that do not decrease; a cancel or a pause reads it, and writes the
next revision of what it read. -/
inductive CallEvents : List JobEvent → Prop
  | none : CallEvents []
  | loop {first : JobEvent} {job : Job} (writes : List Job)
      (hfirst : first = .created job ∨ first = .loaded job)
      (hrevisions : (job :: writes).Pairwise fun a b =>
        a.jobRevision ≤ b.jobRevision) :
      CallEvents (first :: writes.map .progress)
  | seen (job : Job) : CallEvents [.seen job]
  | answered (job : Job) : CallEvents [.answered job]
  | requested {read job : Job}
      (hrevision : job.jobRevision = read.jobRevision + 1)
      (hstatus : job.status = .cancelled ∨ job.status = .paused) :
      CallEvents [.seen read, .requested read job]

/-- A call with a result: one that cancels returns what it read or wrote
last. -/
def CallEnds (request : JobRequest) (own : List JobEvent)
    (result : Except PyError Job) : Prop :=
  request.cancels = true → ∀ job, result = .ok job →
    job.status = .cancelled →
      own = [.answered job] ∨ ∃ read, own = [.seen read, .requested read job]

theorem callEnds_of_loop {request : JobRequest}
    (h : request.cancels = false) (own : List JobEvent)
    (result : Except PyError Job) : CallEnds request own result := by
  intro hcancels
  rw [h] at hcancels
  cases hcancels

theorem callEnds_error {request : JobRequest} (own : List JobEvent)
    (e : PyError) : CallEnds request own (.error e) := by
  intro _ job hresult
  cases hresult

/-! ## What the scripts do -/

/-- The script makes steps on the job, and its events are those of a call. -/
abbrev Obeys (J : String) (request : JobRequest) (m : JobScript Job)
    (own : List JobEvent) : Prop :=
  m.Traces (JobStep J) CallEvents (CallEnds request) own

section Rules

variable {request : JobRequest} {own : List JobEvent} {α : Type}

theorem obeys_silent {g : JobStore →
      Except PyError (α × JobStore × List JobEvent)}
    {f : α → JobScript Job}
    (hg : ∀ s a t, g s = .ok (a, t) → t.1.jobs = s.jobs ∧ t.2 = [])
    (hown : CallEvents own) (hf : ∀ a, Obeys J request (f a) own) :
    Obeys J request (Script.attempt g >>= f) own := by
  refine Script.traces_attempt_bind hown jobStep_refl (callEnds_error own)
    fun s a t ht => ?_
  obtain ⟨t, events⟩ := t
  obtain ⟨hjobs, rfl⟩ := hg s a _ ht
  rw [List.append_nil]
  exact ⟨.silent hjobs, hf a⟩

theorem obeys_query {g : JobStore → Except PyError α} {f : α → JobScript Job}
    (hown : CallEvents own) (hf : ∀ a, Obeys J request (f a) own) :
    Obeys J request (Script.query g >>= f) own :=
  Script.traces_query_bind hown jobStep_refl (callEnds_error own)
    fun _ a _ => hf a

theorem obeys_updateJobStatus {jobId : String} {status : JobStatus}
    {pauseRequested : Option Bool} {f : Unit → JobScript Job}
    (hown : CallEvents own) (hf : Obeys J request (f ()) own) :
    Obeys J request
      (updateJobStatus jobId status pauseRequested >>= f) own := by
  refine obeys_silent (fun s _ t ht => ?_) hown fun _ => hf
  obtain rfl := (ok_pair_inj ht).2
  exact ⟨rfl, rfl⟩

theorem obeys_saveCheckpoint {row : CheckpointRow} {f : Unit → JobScript Job}
    (hown : CallEvents own) (hf : Obeys J request (f ()) own) :
    Obeys J request (saveCheckpoint row >>= f) own := by
  refine obeys_silent (fun s _ t ht => ?_) hown fun _ => hf
  obtain rfl := (ok_pair_inj ht).2
  exact ⟨rfl, rfl⟩

theorem obeys_upsertCoverage {row : Coverage} {f : Unit → JobScript Job}
    (hown : CallEvents own) (hf : Obeys J request (f ()) own) :
    Obeys J request (upsertCoverage row >>= f) own := by
  refine obeys_silent (fun s _ t ht => ?_) hown fun _ => hf
  obtain rfl := (ok_pair_inj ht).2
  exact ⟨rfl, rfl⟩

theorem obeys_createServiceJob {job : Job} {f : Unit → JobScript Job}
    (hown : CallEvents own) (hf : Obeys J request (f ()) own) :
    Obeys J request (createServiceJob job >>= f) own := by
  refine obeys_silent (fun s _ t ht => ?_) hown fun _ => hf
  split at ht
  · cases ht
  · obtain rfl := (ok_pair_inj ht).2
    exact ⟨rfl, rfl⟩

theorem obeys_raise (e : PyError) (hown : CallEvents own) :
    Obeys J request (Script.raise e) own :=
  ⟨hown, callEnds_error own e⟩

end Rules

/-! ## The loops -/

/-- The events of a loop that holds the copy. -/
structure LoopSoFar (J : String) (own : List JobEvent) (held : Job) :
    Prop where
  id : held.jobId = J
  events : ∃ first job writes, own = first :: writes.map .progress ∧
    (first = .created job ∨ first = .loaded job) ∧
    ((job :: writes).Pairwise fun a b => a.jobRevision ≤ b.jobRevision) ∧
    ∀ a ∈ job :: writes, a.jobRevision ≤ held.jobRevision

theorem LoopSoFar.callEvents {own : List JobEvent} {held : Job}
    (h : LoopSoFar J own held) : CallEvents own := by
  obtain ⟨first, job, writes, rfl, hfirst, hrevisions, -⟩ := h.events
  exact .loop writes hfirst hrevisions

theorem LoopSoFar.mono {own : List JobEvent} {held job : Job}
    (h : LoopSoFar J own held) (hid : job.jobId = held.jobId)
    (hrevision : held.jobRevision ≤ job.jobRevision) :
    LoopSoFar J own job := by
  obtain ⟨first, start, writes, hown, hfirst, hpairs, hall⟩ := h.events
  exact ⟨hid.trans h.id, first, start, writes, hown, hfirst, hpairs,
    fun a ha => (hall a ha).trans hrevision⟩

theorem LoopSoFar.write {own : List JobEvent} {held : Job}
    (h : LoopSoFar J own held) :
    LoopSoFar J (own ++ [.progress held]) held := by
  obtain ⟨first, start, writes, rfl, hfirst, hpairs, hall⟩ := h.events
  refine ⟨h.id, first, start, writes ++ [held], by simp, hfirst, ?_, ?_⟩
  · rw [← List.cons_append, List.pairwise_append]
    refine ⟨hpairs, List.pairwise_singleton _ _, fun a ha b hb => ?_⟩
    obtain rfl := List.mem_singleton.mp hb
    exact hall a ha
  · intro a ha
    rw [← List.cons_append] at ha
    rcases List.mem_append.mp ha with ha | ha
    · exact hall a ha
    · obtain rfl := List.mem_singleton.mp ha
      exact le_rfl

theorem loopSoFar_created {job : Job} (hid : job.jobId = J) :
    LoopSoFar J [.created job] job :=
  ⟨hid, .created job, job, [], rfl, Or.inl rfl, List.pairwise_singleton _ _,
    by simp⟩

theorem loopSoFar_loaded {job : Job} (hid : job.jobId = J) :
    LoopSoFar J [.loaded job] job :=
  ⟨hid, .loaded job, job, [], rfl, Or.inr rfl, List.pairwise_singleton _ _,
    by simp⟩

section Loops

variable {request : JobRequest} {own : List JobEvent}

theorem obeys_progress {job : Job} {f : Unit → JobScript Job}
    (h : LoopSoFar J own job) (hf : LoopSoFar J (own ++ [.progress job]) job →
      Obeys J request (f ()) (own ++ [.progress job])) :
    Obeys J request
      (updateJob job (.progress job) >>= f) own := by
  refine Script.traces_attempt_bind h.callEvents jobStep_refl
    (callEnds_error own) fun s _ t ht => ?_
  obtain rfl := (ok_pair_inj ht).2
  exact ⟨.wrote h.id (Or.inl rfl) rfl, hf h.write⟩

theorem obeys_syncProgress {state : ArtifactRunState}
    {f : ArtifactRunState → JobScript Job} (h : LoopSoFar J own state.job)
    (hf : ∀ own, LoopSoFar J own state.withProgress.job →
      Obeys J request (f state.withProgress) own) :
    Obeys J request (syncProgress state >>= f) own := by
  simp only [syncProgress, Script.bind_bind]
  refine obeys_upsertCoverage h.callEvents ?_
  exact obeys_progress (h.mono rfl le_rfl) fun hwritten => hf _ hwritten

variable (hrequest : request.cancels = false)
include hrequest

theorem obeys_finish (service : ProjectionService) {state : RunState}
    (status : JobStatus) (now : String) (h : LoopSoFar J own state.job) :
    Obeys J request (service.finish state status now)
      own := by
  have hfinished : LoopSoFar J own (service.finished state status now).job :=
    h.mono rfl le_rfl
  refine obeys_progress hfinished fun hwritten => ?_
  refine obeys_updateJobStatus hwritten.callEvents ?_
  refine obeys_saveCheckpoint hwritten.callEvents ?_
  exact ⟨hwritten.callEvents, callEnds_of_loop hrequest _ _⟩

theorem obeys_loop (service : ProjectionService) (now : String)
    (turns : List LoopTurn) {state : RunState} (h : LoopSoFar J own state.job) :
    Obeys J request (service.loop now turns state) own := by
  induction turns generalizing state with
  | nil => exact obeys_raise _ h.callEvents
  | cons turn turns ih =>
      rw [ProjectionService.loop]
      split
      · exact obeys_finish hrequest service _ now h
      · split
        · exact obeys_finish hrequest service _ now h
        · split
          · exact obeys_finish hrequest service _ now h
          · split
            · exact obeys_finish hrequest service _ now h
            · refine obeys_saveCheckpoint h.callEvents ?_
              exact ih (h.mono rfl le_rfl)

theorem obeys_run (service : ProjectionService) {state : RunState}
    (run : LoopRun) (h : LoopSoFar J own state.job) :
    Obeys J request (service.run state run) own := by
  refine obeys_progress (h.mono rfl le_rfl) fun hwritten => ?_
  refine obeys_updateJobStatus hwritten.callEvents ?_
  exact obeys_loop hrequest service _ _ hwritten

theorem obeys_finishArtifacts {state : ArtifactRunState} (status : JobStatus)
    (coverageStatus : CoverageStatus) (run : ArtifactRun)
    (h : LoopSoFar J own state.job) :
    Obeys J request
      (finishArtifacts state status coverageStatus run) own := by
  refine obeys_syncProgress (h.mono rfl (Nat.le_succ _))
    fun own hwritten => ?_
  refine obeys_updateJobStatus hwritten.callEvents ?_
  exact ⟨hwritten.callEvents, callEnds_of_loop hrequest _ _⟩

theorem obeys_artifactLoop (run : ArtifactRun) (turns : List ArtifactTurn)
    {state : ArtifactRunState} (h : LoopSoFar J own state.job) :
    Obeys J request (artifactLoop run turns state) own := by
  induction turns generalizing state own with
  | nil => exact obeys_raise _ h.callEvents
  | cons turn turns ih =>
      rw [artifactLoop]
      split
      · exact obeys_finishArtifacts hrequest _ _ run h
      · split
        · exact obeys_finishArtifacts hrequest _ _ run h
        · split
          · exact obeys_finishArtifacts hrequest _ _ run h
          · split
            · exact obeys_finishArtifacts hrequest _ _ run h
            · exact obeys_syncProgress (h.mono rfl le_rfl)
                fun own hwritten => ih hwritten

theorem obeys_runArtifacts {state : ArtifactRunState} (run : ArtifactRun)
    (h : LoopSoFar J own state.job) :
    Obeys J request (runArtifacts state run) own := by
  refine obeys_syncProgress (h.mono rfl (Nat.le_succ _))
    fun own hwritten => ?_
  refine obeys_progress hwritten fun hwritten => ?_
  refine obeys_updateJobStatus hwritten.callEvents ?_
  exact obeys_artifactLoop hrequest run _ hwritten

end Loops

/-! ## The calls -/

section Calls

variable {request : JobRequest}

theorem obeys_saveJob {job : Job} {f : Unit → JobScript Job}
    (hid : job.jobId = J) (hf : LoopSoFar J [.created job] job →
      Obeys J request (f ()) [.created job]) :
    Obeys J request (saveJob job >>= f) [] := by
  refine Script.traces_attempt_bind .none jobStep_refl (callEnds_error _)
    fun s _ t ht => ?_
  split at ht
  · cases ht
  · rename_i hnew
    obtain rfl := (ok_pair_inj ht).2
    refine ⟨.created hid (List.find?_eq_none.mpr fun r hr heq => ?_) rfl,
      hf (loopSoFar_created hid)⟩
    refine hnew (List.any_eq_true.mpr ⟨r, hr, ?_⟩)
    rw [hid]
    exact heq

theorem getJob_eq_ok {service : ProjectionService} {s : JobStore} {job : Job}
    (h : service.getJob J s = .ok job) : s.job? J = some job := by
  unfold ProjectionService.getJob at h
  split at h
  · cases h
  · rename_i found hfound
    split at h
    · cases h
    · obtain rfl := Except.ok.inj h
      exact hfound

theorem getArtifactJob_eq_ok {s : JobStore} {job : Job}
    (h : getArtifactJob J s = .ok job) : s.job? J = some job := by
  rw [getArtifactJob] at h
  split at h
  · cases h
  · rename_i found hfound
    obtain rfl := Except.ok.inj h
    exact (Option.filter_eq_some_iff.mp hfound).1

theorem jobId_of_job? {s : JobStore} {job : Job} (h : s.job? J = some job) :
    job.jobId = J := by
  simpa using List.find?_some h

theorem obeys_read {getJob : JobStore → Except PyError Job}
    {event : Job → JobEvent} {f : Job → JobScript Job}
    (hget : ∀ s job, getJob s = .ok job → s.job? J = some job)
    (hevent : ∀ job, event job = .loaded job ∨ event job = .seen job ∨
      event job = .answered job)
    (hf : ∀ job, job.jobId = J → Obeys J request (f job) [event job]) :
    Obeys J request
      (Script.attempt (fun s => do
        let job ← getJob s
        .ok (job, s, [event job])) >>= f) [] := by
  refine Script.traces_attempt_bind .none jobStep_refl (callEnds_error _)
    fun s job t ht => ?_
  obtain ⟨job', hjob, ht⟩ := bind_ok ht
  obtain ⟨rfl, rfl⟩ := ok_pair_inj ht
  have hstored := hget s job' hjob
  exact ⟨.read hstored (hevent job'), hf job' (jobId_of_job? hstored)⟩

theorem obeys_resume (hrequest : request.cancels = false)
    (service : ProjectionService) (itemBudget : Option ℕ) (run : LoopRun) :
    Obeys J request (service.resume J itemBudget run) [] := by
  refine obeys_read (fun s job h => getJob_eq_ok h) (fun _ => Or.inl rfl)
    fun job hid => ?_
  have hloaded := loopSoFar_loaded hid
  split
  · exact obeys_raise _ hloaded.callEvents
  · refine obeys_query hloaded.callEvents fun _ => ?_
    refine obeys_query hloaded.callEvents fun checkpoint => ?_
    refine obeys_progress (hloaded.mono rfl (Nat.le_succ _))
      fun hwritten => ?_
    refine obeys_updateJobStatus hwritten.callEvents ?_
    exact obeys_run hrequest service run hwritten

theorem obeys_resumeArtifacts (hrequest : request.cancels = false)
    (itemBudget : Option ℕ) (run : ArtifactRun) :
    Obeys J request (resumeArtifacts J itemBudget run) [] := by
  refine obeys_read (fun s job h => getArtifactJob_eq_ok h)
    (fun _ => Or.inl rfl) fun job hid => ?_
  have hloaded := loopSoFar_loaded hid
  split
  · exact obeys_raise _ hloaded.callEvents
  · refine obeys_query hloaded.callEvents fun _ => ?_
    refine obeys_query hloaded.callEvents fun coverage => ?_
    refine obeys_progress (hloaded.mono rfl (Nat.le_succ _))
      fun hwritten => ?_
    refine obeys_updateJobStatus hwritten.callEvents ?_
    exact obeys_runArtifacts hrequest run hwritten

theorem obeys_requested (job : Job) {next : Job} {f : Unit → JobScript Job}
    (hid : next.jobId = J) (hrevision : next.jobRevision = job.jobRevision + 1)
    (hstatus : next.status = .cancelled ∨ next.status = .paused)
    (hf : CallEvents [.seen job, .requested job next] →
      Obeys J request (f ()) [.seen job, .requested job next]) :
    Obeys J request (updateJob next (.requested job next) >>= f)
      [.seen job] := by
  refine Script.traces_attempt_bind (.seen job) jobStep_refl
    (callEnds_error _) fun s _ t ht => ?_
  obtain rfl := (ok_pair_inj ht).2
  exact ⟨.wrote hid (Or.inr ⟨job, rfl⟩) rfl, hf (.requested hrevision hstatus)⟩

theorem obeys_cancel (service : ProjectionService) (now : String) :
    Obeys J request (service.cancel J now) [] := by
  refine Script.traces_attempt_bind .none jobStep_refl (callEnds_error _)
    fun s job t ht => ?_
  obtain ⟨job', hjob, ht⟩ := bind_ok ht
  have hstored := getJob_eq_ok hjob
  split at ht
  · rename_i hover
    obtain ⟨rfl, rfl⟩ := ok_pair_inj ht
    refine ⟨.read hstored (Or.inr (Or.inr rfl)), ?_⟩
    rw [if_pos hover]
    refine ⟨.answered job', fun _ result hresult _ => Or.inl ?_⟩
    obtain rfl := Except.ok.inj hresult
    rfl
  · rename_i hopen
    obtain ⟨rfl, rfl⟩ := ok_pair_inj ht
    refine ⟨.read hstored (Or.inr (Or.inl rfl)), ?_⟩
    rw [if_neg hopen]
    have hid : job'.jobId = J := jobId_of_job? hstored
    refine obeys_requested job' hid rfl (Or.inl rfl) fun hown => ?_
    refine obeys_updateJobStatus hown ⟨hown, fun _ result hresult _ => ?_⟩
    obtain rfl := Except.ok.inj hresult
    exact Or.inr ⟨job', rfl⟩

theorem obeys_markCoverage {status : CoverageStatus} {jobId : String}
    {own : List JobEvent} {f : Unit → JobScript Job} (hown : CallEvents own)
    (hf : Obeys J request (f ()) own) :
    Obeys J request (markCoverage jobId status >>= f) own := by
  simp only [markCoverage, Script.bind_bind]
  refine obeys_query hown fun coverage => ?_
  cases coverage with
  | none => exact hf
  | some coverage => exact obeys_upsertCoverage hown hf

theorem obeys_cancelArtifacts (now : String) (pending : Bool) :
    Obeys J request (cancelArtifacts J now pending) [] := by
  refine obeys_read (fun s job h => getArtifactJob_eq_ok h)
    (fun _ => Or.inr (Or.inl rfl)) fun job hid => ?_
  split
  · exact obeys_raise _ (.seen job)
  · refine obeys_requested job hid rfl (Or.inl rfl) fun hown => ?_
    refine obeys_updateJobStatus hown ?_
    refine obeys_markCoverage hown ⟨hown, fun _ result hresult _ => ?_⟩
    obtain rfl := Except.ok.inj hresult
    exact Or.inr ⟨job, rfl⟩

theorem obeys_pauseArtifacts (hrequest : request.cancels = false)
    (pending : Bool) : Obeys J request (pauseArtifacts J pending) [] := by
  refine obeys_read (fun s job h => getArtifactJob_eq_ok h)
    (fun _ => Or.inr (Or.inl rfl)) fun job hid => ?_
  split
  · exact obeys_raise _ (.seen job)
  · refine obeys_requested job hid rfl (Or.inr rfl) fun hown => ?_
    refine obeys_updateJobStatus hown ?_
    exact obeys_markCoverage hown ⟨hown, callEnds_of_loop hrequest _ _⟩

theorem obeys_script (request : JobRequest) :
    Obeys J request (request.script J) [] := by
  cases request with
  | start service caseId itemBudget run =>
      refine obeys_saveJob rfl fun hcreated => ?_
      refine obeys_createServiceJob hcreated.callEvents ?_
      exact obeys_run rfl service run hcreated
  | resume service itemBudget run =>
      exact obeys_resume rfl service itemBudget run
  | cancel service now => exact obeys_cancel service now
  | analyzeArtifacts caseId itemBudget sourceCount warnings isPartial run =>
      refine obeys_saveJob rfl fun hcreated => ?_
      refine obeys_createServiceJob hcreated.callEvents ?_
      refine obeys_upsertCoverage hcreated.callEvents ?_
      exact obeys_runArtifacts rfl run (hcreated.mono rfl le_rfl)
  | resumeArtifacts itemBudget run =>
      exact obeys_resumeArtifacts rfl itemBudget run
  | cancelArtifacts now pending => exact obeys_cancelArtifacts now pending
  | pauseArtifacts pending => exact obeys_pauseArtifacts rfl pending

end Calls

/-! ## The stored job and the log -/

/-- The stored job after an event. -/
def storedAfter (stored : Option Job) : JobEvent → Option Job
  | .created job => some job
  | .progress job => stored.map fun _ => job
  | .requested _ job => stored.map fun _ => job
  | _ => stored

/-- The stored job after a log. -/
def storedIn {ι : Type} (first : Option Job) (log : List (ι × JobEvent)) :
    Option Job :=
  log.foldl (fun stored entry => storedAfter stored entry.2) first

/-- What an event says of the job that was stored before it. -/
def Fits (stored : Option Job) : JobEvent → Prop
  | .created _ => stored = none
  | .loaded job => stored = some job
  | .seen job => stored = some job
  | .answered job => stored = some job
  | _ => True

section Log

variable {ι : Type} {first : Option Job}

theorem storedIn_append (log late : List (ι × JobEvent)) :
    storedIn first (log ++ late) = storedIn (storedIn first log) late :=
  List.foldl_append

theorem storedIn_concat (log : List (ι × JobEvent)) (i : ι)
    (event : JobEvent) : storedIn first (log ++ [(i, event)]) =
      storedAfter (storedIn first log) event :=
  storedIn_append log [(i, event)]

theorem storedIn_split (before after : List (ι × JobEvent)) (i : ι)
    (event : JobEvent) : storedIn first (before ++ (i, event) :: after) =
      storedIn (storedAfter (storedIn first before) event) after :=
  storedIn_append before ((i, event) :: after)

theorem isSome_storedIn {job : Job} (log : List (ι × JobEvent)) :
    ∃ next, storedIn (some job) log = some next := by
  induction log generalizing job with
  | nil => exact ⟨job, rfl⟩
  | cons entry log ih =>
      obtain ⟨i, event⟩ := entry
      cases event with
      | created next => exact ih
      | loaded next => exact ih
      | progress next => exact ih
      | seen next => exact ih
      | answered next => exact ih
      | requested read next => exact ih

/-- The store is as the log says, and each event fits the job it found. -/
structure LogRecorded (J : String) (first : Option Job)
    (h : History JobStore ι JobEvent) : Prop where
  stored : h.store.job? J = storedIn first h.log
  fits : ∀ before i event after, h.log = before ++ (i, event) :: after →
    Fits (storedIn first before) event

theorem job?_concat {s : JobStore} {t : JobStore} {job : Job}
    (hid : job.jobId = J) (hnone : s.job? J = none)
    (ht : t.jobs = s.jobs ++ [job]) : t.job? J = some job := by
  rw [JobStore.job?] at hnone ⊢
  rw [ht, List.find?_append, hnone]
  simp [hid]

theorem job?_updateRow {s t : JobStore} {job : Job} (hid : job.jobId = J)
    (ht : t.jobs = updateRow Job.jobId s.jobs job) :
    t.job? J = (s.job? J).map fun _ => job := by
  rw [JobStore.job?, JobStore.job?, ht]
  cases hfound : s.jobs.find? fun r => r.jobId = J with
  | none =>
      refine List.find?_eq_none.mpr fun r hr heq => ?_
      have hkeys := List.mem_map_of_mem (f := Job.jobId) hr
      rw [map_key_updateRow] at hkeys
      obtain ⟨r', hr', hkey⟩ := List.mem_map.mp hkeys
      refine List.find?_eq_none.mp hfound r' hr' ?_
      rw [hkey]
      exact heq
  | some found => exact find?_updateRow_self hid hfound

theorem LogRecorded.silent {h : History JobStore ι JobEvent}
    (hh : LogRecorded J first h) (i : ι) {t : JobStore}
    (ht : t.jobs = h.store.jobs) : LogRecorded J first (h.after i (t, [])) := by
  refine ⟨?_, ?_⟩
  · simpa [History.after, JobStore.job?, ht] using hh.stored
  · simpa [History.after] using hh.fits

theorem LogRecorded.concat {h : History JobStore ι JobEvent}
    (hh : LogRecorded J first h) (i : ι) {t : JobStore} {event : JobEvent}
    (hfits : Fits (h.store.job? J) event)
    (ht : t.job? J = storedAfter (h.store.job? J) event) :
    LogRecorded J first (h.after i (t, [event])) := by
  rw [hh.stored] at hfits ht
  refine ⟨?_, fun before j event' after hsplit => ?_⟩
  · exact ht.trans (storedIn_concat h.log i event).symm
  · change h.log ++ [(i, event)] = before ++ (j, event') :: after at hsplit
    rcases List.eq_nil_or_concat after with rfl | ⟨rest, last, rfl⟩
    · obtain ⟨rfl, heq⟩ := List.append_inj' hsplit rfl
      obtain ⟨-, rfl⟩ := Prod.mk.inj (List.cons.inj heq).1
      exact hfits
    · rw [List.concat_eq_append, ← List.cons_append,
        ← List.append_assoc] at hsplit
      obtain ⟨hlog, -⟩ := List.append_inj' hsplit rfl
      exact hh.fits before j event' rest hlog

theorem LogRecorded.step {h : History JobStore ι JobEvent} {i : ι}
    {t : JobStore × List JobEvent} (hh : LogRecorded J first h)
    (ht : JobStep J h.store t) : LogRecorded J first (h.after i t) := by
  cases ht with
  | silent hjobs => exact hh.silent i hjobs
  | read hjob hevent =>
      rcases hevent with rfl | rfl | rfl
      · exact hh.concat i hjob rfl
      · exact hh.concat i hjob rfl
      · exact hh.concat i hjob rfl
  | created hid hnone hjobs =>
      exact hh.concat i hnone (job?_concat hid hnone hjobs)
  | wrote hid hevent hjobs =>
      rcases hevent with rfl | ⟨read, rfl⟩
      · exact hh.concat i trivial (job?_updateRow hid hjobs)
      · exact hh.concat i trivial (job?_updateRow hid hjobs)

end Log

/-! ## The condition -/

/-- The event writes the job, or returns it as cancelled. -/
def JobEvent.disturbs : JobEvent → Bool
  | .created _ => true
  | .progress _ => true
  | .requested _ _ => true
  | .answered job => job.status = .cancelled
  | _ => false

/-- Nothing disturbs a loop between its reading or writing of the job and its
next write, and a cancel or a pause finds, when it writes, a revision at most
one above that it read. -/
structure Undisturbed {ι : Type} (first : Option Job)
    (log : List (ι × JobEvent)) : Prop where
  loops : ∀ before i held between job after,
    log = before ++ (i, held) :: (between ++ (i, .progress job) :: after) →
    (∀ entry ∈ between, entry.1 ≠ i) →
    ∀ entry ∈ between, entry.2.disturbs = false
  requests : ∀ before i read job after,
    log = before ++ (i, .requested read job) :: after →
    ∀ stored, storedIn first before = some stored →
      stored.jobRevision ≤ read.jobRevision + 1

/-! ## The events of one call in the log -/

section Calls

variable {ι : Type} [DecidableEq ι] {first : Option Job}
  {log : List (ι × JobEvent)}

theorem eventsOf_append (i : ι) (log late : List (ι × JobEvent)) :
    eventsOf i (log ++ late) = eventsOf i log ++ eventsOf i late := by
  simp [eventsOf]

theorem eventsOf_cons_self (i : ι) (event : JobEvent)
    (log : List (ι × JobEvent)) :
    eventsOf i ((i, event) :: log) = event :: eventsOf i log := by
  simp [eventsOf]

theorem eventsOf_eq_nil {i : ι} (h : ∀ entry ∈ log, entry.1 ≠ i) :
    eventsOf i log = [] := by
  simpa [eventsOf] using h

theorem exists_last_event {i : ι} (h : eventsOf i log ≠ []) :
    ∃ before held between, log = before ++ (i, held) :: between ∧
      ∀ entry ∈ between, entry.1 ≠ i := by
  induction log using List.reverseRecOn with
  | nil => exact absurd rfl h
  | append_singleton log entry ih =>
      obtain ⟨j, event⟩ := entry
      by_cases hj : j = i
      · subst hj
        exact ⟨log, event, [], rfl, by simp⟩
      · have hnone : eventsOf i [(j, event)] = [] :=
          eventsOf_eq_nil (by simpa using hj)
        rw [eventsOf_append, hnone, List.append_nil] at h
        obtain ⟨before, held, between, rfl, hbetween⟩ := ih h
        refine ⟨before, held, between ++ [(j, event)], by simp, ?_⟩
        intro entry hentry
        rcases List.mem_append.mp hentry with hentry | hentry
        · exact hbetween entry hentry
        · obtain rfl := List.mem_singleton.mp hentry
          exact hj

theorem CallEvents.held {own late : List JobEvent} {held : JobEvent}
    {job : Job} (h : CallEvents (own ++ held :: .progress job :: late)) :
    ∃ a, (held = .created a ∨ held = .loaded a ∨ held = .progress a) ∧
      a.jobRevision ≤ job.jobRevision := by
  generalize heq : own ++ held :: .progress job :: late = events at h
  cases h with
  | none => simp at heq
  | loop writes hfirst hrevisions =>
      rename_i start a
      cases own with
      | nil =>
          obtain ⟨rfl, hwrites⟩ := List.cons.inj heq
          cases writes with
          | nil => cases hwrites
          | cons b writes =>
              obtain rfl := JobEvent.progress.inj (List.cons.inj hwrites).1
              have hle := List.rel_of_pairwise_cons hrevisions
                List.mem_cons_self
              rcases hfirst with rfl | rfl
              · exact ⟨a, Or.inl rfl, hle⟩
              · exact ⟨a, Or.inr (Or.inl rfl), hle⟩
      | cons e own =>
          obtain ⟨-, hwrites⟩ := List.cons.inj heq
          obtain ⟨w, rest, rfl, -, hrest⟩ :=
            List.map_eq_append_iff.mp hwrites.symm
          obtain ⟨b, rest, rfl, rfl, hlast⟩ := List.map_eq_cons_iff.mp hrest
          obtain ⟨c, rest, rfl, hc, -⟩ := List.map_eq_cons_iff.mp hlast
          obtain rfl := JobEvent.progress.inj hc
          have hpairs := (List.pairwise_append.mp
            (List.pairwise_cons.mp hrevisions).2).2.1
          exact ⟨b, Or.inr (Or.inr rfl),
            List.rel_of_pairwise_cons hpairs List.mem_cons_self⟩
  | seen a => cases own <;> simp at heq
  | answered a => cases own <;> simp at heq
  | requested hrevision hstatus =>
      rcases own with _ | ⟨e, _ | ⟨e', own⟩⟩ <;> simp at heq

theorem CallEvents.requested_iff {own late : List JobEvent}
    {read job : Job} (h : CallEvents (own ++ .requested read job :: late)) :
    own = [.seen read] ∧ late = [] ∧
      job.jobRevision = read.jobRevision + 1 ∧
      (job.status = .cancelled ∨ job.status = .paused) := by
  generalize heq : own ++ .requested read job :: late = events at h
  cases h with
  | none => simp at heq
  | loop writes hfirst hrevisions =>
      rename_i start a
      exfalso
      have hmem : JobEvent.requested read job ∈
          start :: writes.map JobEvent.progress := by
        rw [← heq]
        simp
      rcases hfirst with rfl | rfl
      · simp at hmem
      · simp at hmem
  | seen a => rcases own with _ | ⟨e, own⟩ <;> simp at heq
  | answered a => rcases own with _ | ⟨e, own⟩ <;> simp at heq
  | requested hrevision hstatus =>
      rcases own with _ | ⟨e, _ | ⟨e', own⟩⟩
      · simp at heq
      · simp only [List.cons_append, List.nil_append, List.cons.injEq,
          JobEvent.requested.injEq] at heq
        obtain ⟨rfl, ⟨rfl, rfl⟩, rfl⟩ := heq
        exact ⟨rfl, rfl, hrevision, hstatus⟩
      · simp at heq

/-- A loop that writes the job has loaded, created or written it before, and
no other event of its own lies between. -/
theorem held_of_progress (hcalls : ∀ i, CallEvents (eventsOf i log))
    {before after : List (ι × JobEvent)} {i : ι} {job : Job}
    (hlog : log = before ++ (i, .progress job) :: after) :
    ∃ b held between a, before = b ++ (i, held) :: between ∧
      (∀ entry ∈ between, entry.1 ≠ i) ∧
      (held = .created a ∨ held = .loaded a ∨ held = .progress a) ∧
      a.jobRevision ≤ job.jobRevision := by
  have hown := hcalls i
  rw [hlog, eventsOf_append, eventsOf_cons_self] at hown
  have hne : eventsOf i before ≠ [] := by
    intro hnil
    rw [hnil, List.nil_append] at hown
    generalize heq : JobEvent.progress job :: eventsOf i after = events at hown
    cases hown with
    | none => cases heq
    | loop writes hfirst hrevisions =>
        rcases hfirst with rfl | rfl
        · cases heq
        · cases heq
    | seen a => cases heq
    | answered a => cases heq
    | requested hrevision hstatus => cases heq
  obtain ⟨b, held, between, rfl, hbetween⟩ := exists_last_event hne
  rw [eventsOf_append, eventsOf_cons_self, eventsOf_eq_nil hbetween,
    List.append_assoc] at hown
  obtain ⟨a, hheld, hle⟩ := hown.held
  exact ⟨b, held, between, a, rfl, hbetween, hheld, hle⟩

/-! ## Revisions do not decrease -/

omit [DecidableEq ι] in
theorem storedIn_of_not_disturbed {stored : Option Job}
    {between : List (ι × JobEvent)}
    (h : ∀ entry ∈ between, entry.2.disturbs = false) :
    storedIn stored between = stored := by
  induction between with
  | nil => rfl
  | cons entry between ih =>
      obtain ⟨i, event⟩ := entry
      have hrest := ih fun e he => h e (List.mem_cons_of_mem _ he)
      have hevent := h _ List.mem_cons_self
      cases event with
      | created job => cases hevent
      | progress job => cases hevent
      | requested read job => cases hevent
      | loaded job => exact hrest
      | seen job => exact hrest
      | answered job => exact hrest

/-- What the log and the calls are known to be. -/
structure Recorded (first : Option Job) (log : List (ι × JobEvent)) :
    Prop where
  fits : ∀ before i event after, log = before ++ (i, event) :: after →
    Fits (storedIn first before) event
  calls : ∀ i, CallEvents (eventsOf i log)
  undisturbed : Undisturbed first log

theorem Recorded.revision_step (hlog : Recorded first log)
    {before after : List (ι × JobEvent)} {i : ι} {event : JobEvent}
    (hsplit : log = before ++ (i, event) :: after) {stored : Job}
    (hstored : storedIn first before = some stored) :
    ∃ next, storedAfter (storedIn first before) event = some next ∧
      stored.jobRevision ≤ next.jobRevision := by
  have hfits := hlog.fits before i event after hsplit
  cases event with
  | created job =>
      rw [hstored] at hfits
      cases hfits
  | loaded job => exact ⟨stored, hstored, le_rfl⟩
  | seen job => exact ⟨stored, hstored, le_rfl⟩
  | answered job => exact ⟨stored, hstored, le_rfl⟩
  | requested read job =>
      have hown := hlog.calls i
      rw [hsplit, eventsOf_append, eventsOf_cons_self] at hown
      obtain ⟨-, -, hrevision, -⟩ := hown.requested_iff
      have hle := hlog.undisturbed.requests before i read job after hsplit
        stored hstored
      rw [← hrevision] at hle
      exact ⟨job, by rw [hstored]; rfl, hle⟩
  | progress job =>
      refine ⟨job, by rw [hstored]; rfl, ?_⟩
      obtain ⟨b, held, between, a, rfl, hbetween, hheld, hle⟩ :=
        held_of_progress hlog.calls hsplit
      have hquiet := hlog.undisturbed.loops b i held between job after
        (by rw [hsplit]; simp) hbetween
      rw [storedIn_split, storedIn_of_not_disturbed hquiet] at hstored
      have hfits := hlog.fits b i held (between ++ (i, .progress job) :: after)
        (by rw [hsplit]; simp)
      have heq : a = stored := by
        rcases hheld with rfl | rfl | rfl
        · exact Option.some.inj hstored
        · exact Option.some.inj (hfits.symm.trans hstored)
        · obtain ⟨-, -, heq⟩ := Option.map_eq_some_iff.mp hstored
          exact heq
      rw [← heq]
      exact hle

theorem Recorded.revision_mono (hlog : Recorded first log)
    {before after : List (ι × JobEvent)} (hsplit : log = before ++ after)
    {stored : Job} (hstored : storedIn first before = some stored) :
    ∃ next, storedIn first log = some next ∧
      stored.jobRevision ≤ next.jobRevision := by
  induction after generalizing before stored with
  | nil =>
      rw [List.append_nil] at hsplit
      exact ⟨stored, by rw [hsplit, hstored], le_rfl⟩
  | cons entry after ih =>
      obtain ⟨i, event⟩ := entry
      obtain ⟨next, hnext, hle⟩ := hlog.revision_step hsplit hstored
      have hrest : log = (before ++ [(i, event)]) ++ after := by
        rw [hsplit]
        simp
      obtain ⟨last, hlast, hle'⟩ := ih hrest
        ((storedIn_concat before i event).trans hnext)
      exact ⟨last, hlast, hle.trans hle'⟩

/-! ## A cancelled job is replaced only after it was loaded -/

/-- The event decides that the job is cancelled, or paused. -/
def JobEvent.decides : JobEvent → Bool
  | .requested _ _ => true
  | .answered job => job.status = .cancelled
  | _ => false

theorem disturbs_of_decides {event : JobEvent} (h : event.decides = true) :
    event.disturbs = true := by
  cases event with
  | requested read job => rfl
  | answered job => exact h
  | created job => cases h
  | loaded job => cases h
  | progress job => cases h
  | seen job => cases h

theorem ne_of_decides (hlog : Recorded first log) {i j : ι}
    {event : JobEvent} {job : Job} (hi : (i, event) ∈ log)
    (hevent : event.decides = true) (hj : (j, .progress job) ∈ log) :
    i ≠ j := by
  rintro rfl
  have hown := hlog.calls i
  have hmem : ∀ {e}, (i, e) ∈ log → e ∈ eventsOf i log := by
    intro e he
    exact List.mem_map.mpr ⟨(i, e), List.mem_filter.mpr ⟨he, by simp⟩, rfl⟩
  have hevents := hmem hi
  have hprogress := hmem hj
  generalize eventsOf i log = events at *
  cases hown with
  | none => cases hevents
  | loop writes hfirst hrevisions =>
      rcases List.mem_cons.mp hevents with rfl | hwrite
      · rcases hfirst with rfl | rfl
        · cases hevent
        · cases hevent
      · obtain ⟨b, -, rfl⟩ := List.mem_map.mp hwrite
        cases hevent
  | seen a => simp at hprogress
  | answered a => simp at hprogress
  | requested hrevision hstatus => simp at hprogress

theorem Recorded.stored_of_decides (hlog : Recorded first log)
    {before after : List (ι × JobEvent)} {i : ι} {event : JobEvent}
    (hsplit : log = before ++ (i, event) :: after)
    (hevent : event.decides = true) :
    ∃ stored, storedIn first before = some stored := by
  cases event with
  | requested read job =>
      have hown := hlog.calls i
      rw [hsplit, eventsOf_append, eventsOf_cons_self] at hown
      obtain ⟨hseen, -⟩ := hown.requested_iff
      have hne : eventsOf i before ≠ [] := by
        rw [hseen]
        exact List.cons_ne_nil _ _
      obtain ⟨b, held, between, rfl, hbetween⟩ := exists_last_event hne
      rw [eventsOf_append, eventsOf_cons_self, eventsOf_eq_nil hbetween]
        at hseen
      obtain ⟨-, hheld⟩ := List.append_inj' (hseen.trans
        (List.nil_append [JobEvent.seen read]).symm) rfl
      obtain ⟨rfl, -⟩ := List.cons.inj hheld
      have hfits := hlog.fits b i (.seen read) (between ++
        (i, .requested read job) :: after) (by rw [hsplit]; simp)
      rw [storedIn_split]
      change ∃ stored, storedIn (storedIn first b) between = some stored
      rw [show storedIn first b = some read from hfits]
      exact isSome_storedIn between
  | answered job => exact ⟨job, hlog.fits before i _ after hsplit⟩
  | created job => cases hevent
  | loaded job => cases hevent
  | progress job => cases hevent
  | seen job => cases hevent

/-- A loop that writes the job after it was cancelled or paused has loaded it
since. -/
theorem Recorded.loaded_between (hlog : Recorded first log)
    {before between after : List (ι × JobEvent)} {i j : ι}
    {event : JobEvent} {job : Job} (hsplit : log =
      before ++ (i, event) :: (between ++ (j, .progress job) :: after))
    (hevent : event.decides = true) :
    ∃ a, (j, .loaded a) ∈ between := by
  induction hlength : between.length using Nat.strong_induction_on
    generalizing between job after with
  | _ n ih =>
      have hwrite : log = (before ++ (i, event) :: between) ++
          (j, .progress job) :: after := by
        rw [hsplit]
        simp
      have hij : i ≠ j := by
        have hmem : (j, .progress job) ∈ log := by
          rw [hwrite]
          simp
        exact ne_of_decides hlog (by rw [hsplit]; simp) hevent hmem
      obtain ⟨b, held, late, a, hb, hlate, hheld, -⟩ :=
        held_of_progress hlog.calls hwrite
      rcases List.append_eq_append_iff.mp hb with
        ⟨c, rfl, hc⟩ | ⟨c, rfl, hc⟩
      · -- The loop last had the job after the decision.
        cases c with
        | nil => exact absurd (Prod.mk.inj (List.cons.inj hc).1).1 hij
        | cons x c =>
            obtain ⟨rfl, hbetween⟩ := List.cons.inj hc
            change between = c ++ (j, held) :: late at hbetween
            subst hbetween
            rcases hheld with rfl | rfl | rfl
            · obtain ⟨stored, hstored⟩ := hlog.stored_of_decides hsplit hevent
              have hnone := hlog.fits (before ++ (i, event) :: c) j
                (.created a) (late ++ (j, .progress job) :: after) (by rw [hsplit]; simp)
              obtain ⟨next, hnext⟩ : ∃ next, storedIn first
                  (before ++ (i, event) :: c) = some next := by
                rw [storedIn_append, hstored]
                exact isSome_storedIn _
              rw [hnext] at hnone
              cases hnone
            · exact ⟨a, by simp⟩
            · have hshort : c.length < n := by
                simp only [← hlength, List.length_append, List.length_cons]
                omega
              have hearlier : log = before ++ (i, event) :: (c ++
                  (j, .progress a) :: (late ++
                    (j, .progress job) :: after)) := by
                rw [hsplit]
                simp
              obtain ⟨a', ha'⟩ := ih c.length hshort hearlier rfl
              exact ⟨a', List.mem_append_left _ ha'⟩
      · -- The decision came between what the loop had and what it wrote.
        exfalso
        cases c with
        | nil => exact hij (Prod.mk.inj (List.cons.inj hc).1).1.symm
        | cons x c =>
            obtain ⟨rfl, hlate'⟩ := List.cons.inj hc
            change late = c ++ (i, event) :: between at hlate'
            subst hlate'
            have hquiet := hlog.undisturbed.loops b j held
              (c ++ (i, event) :: between) job after (by rw [hsplit]; simp)
              hlate (i, event) (by simp)
            rw [disturbs_of_decides hevent] at hquiet
            cases hquiet

end Calls

/-! ## Every interleaving -/

section Runs

variable {ι : Type} [DecidableEq ι]

/-- Calls on the job after any interleaving of their steps. -/
abbrev jobsAfter (J : String) (s₀ : JobStore)
    (moves : List (Move ι JobRequest)) :
    System JobStore ι JobEvent PyError Job JobRequest :=
  System.reached (JobRequest.script J) s₀ moves

/-- A loop loaded the job after the last event of the call. -/
def ResumedAfter (i : ι) (log : List (ι × JobEvent)) : Prop :=
  ∃ before event late j job, log = before ++ (i, event) :: late ∧
    (∀ entry ∈ late, entry.1 ≠ i) ∧ (j, .loaded job) ∈ late

/-- No cancellation is lost: revisions do not decrease; once a call returned
the job as cancelled, the stored job is not running, partial or succeeded
unless it was resumed later; and a loop writes a job that was cancelled or
paused only after it loaded it again. -/
structure CancellationKept (J : String) (s₀ : JobStore)
    (moves : List (Move ι JobRequest)) : Prop where
  revisions : ∀ before after, moves = before ++ after → ∀ job,
    (jobsAfter J s₀ before).store.job? J = some job →
    ∃ next, (jobsAfter J s₀ moves).store.job? J = some next ∧
      job.jobRevision ≤ next.jobRevision
  cancelled : ∀ i request job,
    (jobsAfter J s₀ moves).progress i = .finished request (.ok job) →
    request.cancels = true → job.status = .cancelled →
    ∀ stored, (jobsAfter J s₀ moves).store.job? J = some stored →
      stored.status ∈ [.running, .partially, .succeeded] →
      ResumedAfter i (jobsAfter J s₀ moves).log
  loops : ∀ before i event between j job after,
    (jobsAfter J s₀ moves).log =
      before ++ (i, event) :: (between ++ (j, .progress job) :: after) →
    event.decides = true → ∃ a, (j, .loaded a) ∈ between

theorem logRecorded (s₀ : JobStore) (moves : List (Move ι JobRequest)) :
    LogRecorded J (s₀.job? J) (jobsAfter J s₀ moves).toHistory := by
  refine System.history_invariant
    (fun request => (obeys_script request).respects) ⟨rfl, ?_⟩
    (fun h i t hh ht => hh.step ht) moves
  intro before i event after hsplit
  exact absurd hsplit (by simp)

theorem recorded {s₀ : JobStore} {moves : List (Move ι JobRequest)}
    (h : Undisturbed (s₀.job? J) (jobsAfter J s₀ moves).log) :
    Recorded (s₀.job? J) (jobsAfter J s₀ moves).log where
  fits := (logRecorded s₀ moves).fits
  calls := System.traces_events s₀ .none obeys_script moves
  undisturbed := h

variable {first : Option Job} {log : List (ι × JobEvent)}

theorem status_of_requests (hlog : Recorded first log)
    {before late : List (ι × JobEvent)} (hsplit : log = before ++ late)
    (hquiet : ∀ j job, (j, .progress job) ∉ late) {job : Job}
    (hjob : storedIn first before = some job)
    (hstatus : job.status = .cancelled ∨ job.status = .paused) :
    ∃ last, storedIn first log = some last ∧
      (last.status = .cancelled ∨ last.status = .paused) := by
  induction late generalizing before job with
  | nil =>
      rw [List.append_nil] at hsplit
      exact ⟨job, by rw [hsplit, hjob], hstatus⟩
  | cons entry late ih =>
      obtain ⟨i, event⟩ := entry
      have hrest : log = (before ++ [(i, event)]) ++ late := by
        rw [hsplit]
        simp
      have hafter : storedIn first (before ++ [(i, event)]) =
          storedAfter (some job) event := by
        rw [storedIn_concat, hjob]
      have hlate : ∀ j job, (j, .progress job) ∉ late := fun j job hmem =>
        hquiet j job (List.mem_cons_of_mem _ hmem)
      cases event with
      | created next =>
          have hfits := hlog.fits before i (.created next) late hsplit
          rw [hjob] at hfits
          cases hfits
      | progress next => exact absurd List.mem_cons_self (hquiet i next)
      | loaded next => exact ih hrest hlate hafter hstatus
      | seen next => exact ih hrest hlate hafter hstatus
      | answered next => exact ih hrest hlate hafter hstatus
      | requested read next =>
          have hown := hlog.calls i
          rw [hsplit, eventsOf_append, eventsOf_cons_self] at hown
          obtain ⟨-, -, -, hnext⟩ := hown.requested_iff
          exact ih hrest hlate hafter hnext

/-- After a call decided that the job is cancelled, it is cancelled or paused
until a loop loads it. -/
theorem resumedAfter_of_status (hlog : Recorded first log) {i : ι}
    {before late : List (ι × JobEvent)} {event : JobEvent} {job last : Job}
    (hsplit : log = before ++ (i, event) :: late)
    (hlast : ∀ entry ∈ late, entry.1 ≠ i) (hevent : event.decides = true)
    (hjob : storedAfter (storedIn first before) event = some job)
    (hcancelled : job.status = .cancelled)
    (hstored : storedIn first log = some last)
    (hstatus : last.status ∈ [.running, .partially, .succeeded]) :
    ResumedAfter i log := by
  by_cases hwrites : ∃ j written, (j, .progress written) ∈ late
  · obtain ⟨j, written, hmem⟩ := hwrites
    obtain ⟨between, after, rfl⟩ := List.append_of_mem hmem
    obtain ⟨a, ha⟩ := hlog.loaded_between hsplit hevent
    exact ⟨before, event, _, j, a, hsplit, hlast, List.mem_append_left _ ha⟩
  · push Not at hwrites
    have hrest : log = (before ++ [(i, event)]) ++ late := by
      rw [hsplit]
      simp
    obtain ⟨last', hlast', hkept⟩ := status_of_requests hlog hrest hwrites
      ((storedIn_concat before i event).trans hjob) (Or.inl hcancelled)
    obtain rfl := Option.some.inj (hstored.symm.trans hlast')
    rcases hkept with h | h
    · simp [h] at hstatus
    · simp [h] at hstatus

theorem cancellationKept {s₀ : JobStore} {moves : List (Move ι JobRequest)}
    (h : Undisturbed (s₀.job? J) (jobsAfter J s₀ moves).log) :
    CancellationKept J s₀ moves := by
  have hlog := recorded h
  refine ⟨?_, ?_, ?_⟩
  · rintro before after rfl job hjob
    obtain ⟨late, hlate⟩ := System.log_grows (JobRequest.script J) s₀
      before after
    rw [(logRecorded s₀ before).stored] at hjob
    obtain ⟨next, hnext, hle⟩ := hlog.revision_mono hlate.symm hjob
    exact ⟨next, (logRecorded s₀ _).stored.trans hnext, hle⟩
  · intro i request job hfinished hcancels hcancelled stored hstored hstatus
    have hends := System.traces_reached s₀ (obeys_script (J := J)) moves i
    rw [hfinished] at hends
    have hown := hends.2 hcancels job rfl hcancelled
    rw [(logRecorded s₀ moves).stored] at hstored
    have hne : eventsOf i (jobsAfter J s₀ moves).log ≠ [] := by
      rcases hown with hown | ⟨read, hown⟩
      · rw [hown]
        exact List.cons_ne_nil _ _
      · rw [hown]
        exact List.cons_ne_nil _ _
    obtain ⟨before, event, late, hsplit, hlate⟩ := exists_last_event hne
    have hevents := congrArg (eventsOf i) hsplit
    rw [eventsOf_append, eventsOf_cons_self, eventsOf_eq_nil hlate] at hevents
    rcases hown with hown | ⟨read, hown⟩
    · obtain ⟨-, heq⟩ := List.append_inj' ((hown.symm.trans hevents).symm.trans
        (List.nil_append _).symm) rfl
      obtain ⟨rfl, -⟩ := List.cons.inj heq
      have hfits := hlog.fits before i (.answered job) late hsplit
      exact resumedAfter_of_status hlog hsplit hlate
        (by simp [JobEvent.decides, hcancelled]) hfits hcancelled hstored
        hstatus
    · have hpair : [JobEvent.seen read, JobEvent.requested read job] =
          [JobEvent.seen read] ++ [JobEvent.requested read job] := rfl
      obtain ⟨-, heq⟩ := List.append_inj' (hevents.symm.trans
        (hown.trans hpair)) rfl
      obtain ⟨rfl, -⟩ := List.cons.inj heq
      obtain ⟨found, hfound⟩ := hlog.stored_of_decides hsplit rfl
      exact resumedAfter_of_status hlog hsplit hlate rfl
        (by rw [hfound]; rfl) hcancelled hstored hstatus
  · intro before i event between j job after hsplit hevent
    exact hlog.loaded_between hsplit hevent

theorem undisturbed_of_sorted [PartialOrder ι] {s₀ : JobStore}
    {moves : List (Move ι JobRequest)}
    (h : ((jobsAfter J s₀ moves).log.map Prod.fst).Pairwise (· ≤ ·)) :
    Undisturbed (s₀.job? J) (jobsAfter J s₀ moves).log := by
  have hbetween : ∀ before i held between event after,
      (jobsAfter J s₀ moves).log =
        before ++ (i, held) :: (between ++ (i, event) :: after) →
      ∀ entry ∈ between, entry.1 = i := by
    intro before i held between event after hsplit entry hentry
    rw [hsplit] at h
    simp only [List.map_append, List.map_cons, List.pairwise_append,
      List.pairwise_cons] at h
    have hlower := h.2.1.1 entry.1 (List.mem_append_left _
      (List.mem_map_of_mem hentry))
    have hupper := h.2.1.2.2.2 entry.1 (List.mem_map_of_mem hentry) i
      List.mem_cons_self
    exact le_antisymm hupper hlower
  refine ⟨fun before i held between job after hsplit hown entry hentry => ?_,
    fun before i read job after hsplit stored hstored => ?_⟩
  · exact absurd (hbetween _ _ _ _ _ _ hsplit entry hentry)
      (hown entry hentry)
  · have hown := System.traces_events s₀ .none (obeys_script (J := J))
      moves i
    change CallEvents (eventsOf i (jobsAfter J s₀ moves).log) at hown
    rw [hsplit, eventsOf_append, eventsOf_cons_self] at hown
    have hseen := hown.requested_iff.1
    have hne : eventsOf i before ≠ [] := by
      rw [hseen]
      exact List.cons_ne_nil _ _
    obtain ⟨b, held, between, rfl, hnone⟩ := exists_last_event hne
    have hnil : between = [] := by
      refine List.eq_nil_iff_forall_not_mem.mpr fun entry hentry => ?_
      exact hnone entry hentry (hbetween b i held between
        (.requested read job) after (by rw [hsplit]; simp) entry hentry)
    subst hnil
    rw [eventsOf_append, eventsOf_cons_self] at hseen
    obtain ⟨-, hheld⟩ := List.append_inj' (hseen.trans
      (List.nil_append [JobEvent.seen read]).symm) rfl
    obtain ⟨rfl, -⟩ := List.cons.inj hheld
    have hfits := (logRecorded s₀ moves).fits b i (.seen read)
      ((i, .requested read job) :: after) (by rw [hsplit]; simp)
    rw [storedIn_split] at hstored
    obtain rfl := Option.some.inj (hfits.symm.trans hstored)
    exact Nat.le_succ _

end Runs

/-! ## A cancel while the loop runs -/

def noJobs : JobStore := ⟨[], [], [], []⟩

/-- A loop that works through one batch and then finds no rows. -/
def oneBatch : LoopRun where
  startedAt := "t1"
  finishedAt := "t3"
  turns := [⟨false, false, some (⟨1, 0, 1⟩, ("ARTIFACT", "a"))⟩,
    ⟨false, false, none⟩]

/-- An artifact loop that analyzes one source. -/
def oneSource : ArtifactRun where
  startedAt := "t1"
  finishedAt := "t3"
  pending := false
  turns := [⟨false, false, some ⟨"analyzer", "path", 1, 1, true, [], []⟩⟩,
    ⟨false, false, none⟩]

/-- The cancel runs after the loop has started. -/
def cancelledMeanwhile (loop cancel : JobRequest) (started ended : ℕ) :
    List (Move ℕ JobRequest) :=
  .start 0 loop :: List.replicate started (.advance 0) ++
    .start 1 cancel :: List.replicate 5 (.advance 1) ++
      List.replicate ended (.advance 0)

/-- A job that was cancelled and has a status of a loop that nobody resumed
shows a cancellation that was lost. -/
theorem not_kept {moves : List (Move ℕ JobRequest)} {request : JobRequest}
    {job stored : Job} (hfinished : (jobsAfter "job" noJobs moves).progress 1 =
      .finished request (.ok job))
    (hcancels : request.cancels = true) (hjob : job.status = .cancelled)
    (hstored : (jobsAfter "job" noJobs moves).store.job? "job" = some stored)
    (hstatus : stored.status ∈ [.running, .partially, .succeeded])
    (hlog : ((jobsAfter "job" noJobs moves).log.all fun entry =>
      match entry.2 with
      | .loaded _ => false
      | _ => true) = true) : ¬ CancellationKept "job" noJobs moves := by
  intro h
  obtain ⟨before, event, late, j, a, hsplit, -, hmem⟩ :=
    h.cancelled 1 request job hfinished hcancels hjob stored hstored hstatus
  have hloaded := List.all_eq_true.mp hlog (j, .loaded a) (by
    rw [hsplit]
    exact List.mem_append_right _ (List.mem_cons_of_mem _ hmem))
  cases hloaded

/-- In each service a cancel that lands between a loop's writes is lost. -/
theorem cancellation_lost :
    (∀ service : ProjectionService, ¬ CancellationKept "job" noJobs
      (cancelledMeanwhile (.start service "case" none oneBatch)
        (.cancel service "t2") 4 4)) ∧
    ¬ CancellationKept "job" noJobs
      (cancelledMeanwhile (.analyzeArtifacts "case" none 1 [] false oneSource)
        (.cancelArtifacts "t2" true) 7 8) := by
  constructor
  · intro service
    cases service with
    | search => exact not_kept rfl rfl rfl rfl (by decide) rfl
    | timeline => exact not_kept rfl rfl rfl rfl (by decide) rfl
  · exact not_kept rfl rfl rfl rfl (by decide) rfl

/-! ## A cancel before the job is resumed -/

/-- A job of the search service that ended when its budget was used up. -/
def partialJob : Job :=
  { ProjectionService.search.newJob "job" "case" with status := .partially }

def partialStore : JobStore where
  jobs := [partialJob]
  serviceJobs := [⟨"job", .partially, false⟩]
  checkpoints := []
  coverage := []

/-- The resumed loop runs after the cancel has returned. -/
def cancelledThenResumed : List (Move ℕ JobRequest) :=
  .start 0 (.cancel .search "t2") :: List.replicate 3 (.advance 0) ++
    .start 1 (.resume .search none oneBatch) ::
      List.replicate 11 (.advance 1)

/-- A cancellation before a job is resumed is kept until then. -/
theorem cancelled_then_resumed :
    (jobsAfter "job" partialStore cancelledThenResumed).progress 0 =
        .finished (.cancel .search "t2")
          (.ok (partialJob.cancelledAt "t2")) ∧
      CancellationKept "job" partialStore cancelledThenResumed := by
  refine ⟨rfl, ?_⟩
  refine cancellationKept (undisturbed_of_sorted ?_)
  have hcalls : (jobsAfter "job" partialStore cancelledThenResumed).log.map
      Prod.fst = [0, 0, 1, 1, 1, 1] := rfl
  rw [hcalls]
  decide

end ApexForensic.Jobs
