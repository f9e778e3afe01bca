import ApexForensic.Domain.Rows
import ApexForensic.Support.BatchJob
import ApexForensic.Support.Transactions

/-!
# Jobs of the search, timeline and artifact services

A loop holds its own copy of a job and writes it back whole.  A cancel or a
pause reads the stored job, changes it and writes it back.  What a turn of a
loop meets outside the tables of the jobs is given: what its tokens say, and
what it read and wrote of sources, documents, events and artifacts.
-/

namespace ApexForensic.Jobs

open ApexForensic.Support ApexForensic.Domain

inductive JobStatus where
  | queued | running | pausing | paused | resuming | succeeded | partially
  | failed | cancelled
  deriving DecidableEq

inductive JobType where
  | searchIndex | timeline | artifact | other
  deriving DecidableEq

/-- The two services that project source rows batch by batch. -/
inductive ProjectionService where
  | search | timeline
  deriving DecidableEq

def ProjectionService.jobType : ProjectionService → JobType
  | .search => .searchIndex
  | .timeline => .timeline

def ProjectionService.currentAnalyzer : ProjectionService → String
  | .search => "search.index"
  | .timeline => "timeline.build"

structure JobProgress where
  current : ℕ
  discoveredItems : ℕ
  processedItems : ℕ
  skippedItems : ℕ
  warningCount : ℕ
  errorCount : ℕ
  partialResultsAvailable : Bool
  currentPath : Option String
  currentAnalyzer : Option String
  deriving DecidableEq

def JobProgress.initial (analyzer : String) : JobProgress where
  current := 0
  discoveredItems := 0
  processedItems := 0
  skippedItems := 0
  warningCount := 0
  errorCount := 0
  partialResultsAvailable := false
  currentPath := none
  currentAnalyzer := some analyzer

/-- A row of `jobs`. -/
structure Job where
  jobId : String
  caseId : String
  jobType : JobType
  status : JobStatus
  progress : JobProgress
  startedAt : Option String
  finishedAt : Option String
  cancelRequestedAt : Option String
  warnings : List String
  errors : List String
  checkpointAvailable : Bool
  jobRevision : ℕ
  deriving DecidableEq

/-- A row of `search_jobs`, `timeline_jobs` or `artifact_analysis_jobs`. -/
structure ServiceJob where
  jobId : String
  status : JobStatus
  pauseRequested : Bool

/-- A row of `search_checkpoints` or `timeline_checkpoints`. -/
structure CheckpointRow where
  jobId : String
  current : Option (String × String)
  counters : Counters

inductive CoverageStatus where
  | notStarted | complete | partially | cancelled
  deriving DecidableEq

/-- A row of `artifact_coverage`. -/
structure Coverage where
  jobId : String
  status : CoverageStatus
  sourceCount : ℕ
  processedSources : ℕ
  skippedSources : ℕ
  artifactCount : ℕ
  warningCount : ℕ
  errorCount : ℕ
  isPartial : Bool
  currentAnalyzer : Option String
  currentSourcePath : Option String

structure JobStore where
  jobs : List Job
  serviceJobs : List ServiceJob
  checkpoints : List CheckpointRow
  coverage : List Coverage

namespace JobStore

def job? (s : JobStore) (jobId : String) : Option Job :=
  s.jobs.find? fun job => job.jobId = jobId

def serviceJob? (s : JobStore) (jobId : String) : Option ServiceJob :=
  s.serviceJobs.find? fun job => job.jobId = jobId

def checkpoint? (s : JobStore) (jobId : String) : Option CheckpointRow :=
  s.checkpoints.find? fun row => row.jobId = jobId

def coverage? (s : JobStore) (jobId : String) : Option Coverage :=
  s.coverage.find? fun row => row.jobId = jobId

end JobStore

/-- An insert that replaces the row of its key. -/
def putRow {α : Type} (key : α → String) (rows : List α) (row : α) : List α :=
  if rows.any fun r => key r = key row then updateRow key rows row
  else rows ++ [row]

/-! ## Transactions on a job -/

/-- What a call does to the row of the job. -/
inductive JobEvent where
  /-- A loop inserted the job. -/
  | created (job : Job)
  /-- A resumed loop read the job. -/
  | loaded (job : Job)
  /-- A loop wrote its copy back. -/
  | progress (job : Job)
  /-- A cancel or a pause read the job. -/
  | seen (job : Job)
  /-- A cancel read the job and returns it as it is. -/
  | answered (job : Job)
  /-- A cancel or a pause wrote the job it had read. -/
  | requested (read job : Job)
  deriving DecidableEq

abbrev JobScript := Script JobStore JobEvent PyError

/-- `save_job`. -/
def saveJob (job : Job) : JobScript Unit :=
  Script.attempt fun s =>
    if s.jobs.any fun r => r.jobId = job.jobId then
      .error (.builtin .integrityError "UNIQUE constraint failed: jobs.job_id")
    else .ok ((), { s with jobs := s.jobs ++ [job] }, [.created job])

/-- `update_job`. -/
def updateJob (job : Job) (event : JobEvent) : JobScript Unit :=
  Script.attempt fun s =>
    .ok ((), { s with jobs := updateRow Job.jobId s.jobs job }, [event])

/-- `create_search_job`, `create_timeline_job` or
`create_artifact_analysis_job`. -/
def createServiceJob (job : Job) : JobScript Unit :=
  Script.attempt fun s =>
    if s.serviceJobs.any fun r => r.jobId = job.jobId then
      .error (.builtin .integrityError "UNIQUE constraint failed: job_id")
    else
      .ok ((), { s with
        serviceJobs := s.serviceJobs ++ [⟨job.jobId, job.status, false⟩] }, [])

/-- `update_search_job_status`, `update_timeline_job_status` or
`update_artifact_analysis_job_status`. -/
def updateJobStatus (jobId : String) (status : JobStatus)
    (pauseRequested : Option Bool) : JobScript Unit :=
  Script.attempt fun s =>
    .ok ((), { s with
      serviceJobs := s.serviceJobs.map fun r =>
        if r.jobId = jobId then
          { r with
            status := status
            pauseRequested := pauseRequested.getD r.pauseRequested }
        else r }, [])

def saveCheckpoint (row : CheckpointRow) : JobScript Unit :=
  Script.attempt fun s =>
    .ok ((), { s with
      checkpoints := putRow CheckpointRow.jobId s.checkpoints row }, [])

/-- `upsert_artifact_coverage`. -/
def upsertCoverage (row : Coverage) : JobScript Unit :=
  Script.attempt fun s =>
    .ok ((), { s with coverage := putRow Coverage.jobId s.coverage row }, [])

/-- `_get_job` of the search and timeline services. -/
def ProjectionService.getJob (service : ProjectionService) (jobId : String)
    (s : JobStore) : Except PyError Job :=
  match s.job? jobId with
  | none => .error (notFoundError "JOB_NOT_FOUND" "Job not found."
      (some "job_id"))
  | some job =>
      if job.jobType ≠ service.jobType then
        .error (validationError
          (match service with
            | .search => "Job is not a search index job."
            | .timeline => "Job is not a timeline job.") (some "job_id") [])
      else .ok job

/-- `_get_artifact_job`. -/
def getArtifactJob (jobId : String) (s : JobStore) : Except PyError Job :=
  match (s.job? jobId).filter fun job => job.jobType = .artifact with
  | none => .error (notFoundError "ARTIFACT_JOB_NOT_FOUND"
      ("Artifact job not found: " ++ jobId) (some "job_id"))
  | some job => .ok job

/-! ## The loops of the search and timeline services -/

/-- The state of a running loop; `counters.written` counts documents or
events. -/
structure RunState where
  job : Job
  itemBudget : Option ℕ
  counters : Counters
  currentSource : Option (String × String)

/-- What a turn of a loop meets: its tokens, and the batch it worked through,
unless no rows were left. -/
structure LoopTurn where
  cancelRequested : Bool
  pauseRequested : Bool
  batch : Option (Counters × (String × String))

/-- When a loop starts and when it ends, and its turns.  The source tables or
the process may stop it before it ends. -/
structure LoopRun where
  startedAt : String
  finishedAt : String
  turns : List LoopTurn

def ProjectionService.inspected (service : ProjectionService)
    (counters : Counters) : ℕ :=
  match service with
  | .search => counters.processed
  | .timeline => counters.processed + counters.skipped

def ProjectionService.budgetReached (service : ProjectionService)
    (state : RunState) : Bool :=
  state.itemBudget.any fun budget => budget ≤ service.inspected state.counters

/-- `_update_index_progress` or `_update_progress`. -/
def ProjectionService.withProgress (service : ProjectionService)
    (state : RunState) : RunState :=
  { state with
    job := { state.job with
      progress := { state.job.progress with
        current := service.inspected state.counters
        processedItems := state.counters.processed
        discoveredItems := state.counters.processed + state.counters.skipped
        skippedItems := state.counters.skipped
        warningCount := 0
        errorCount := 0
        currentAnalyzer := some service.currentAnalyzer
        currentPath :=
          (state.currentSource.map fun p => p.1 ++ ":" ++ p.2).or
            state.job.progress.currentPath } } }

def RunState.checkpoint (state : RunState) : CheckpointRow :=
  ⟨state.job.jobId, state.currentSource, state.counters⟩

/-- The state that `_finish_index` or `_finish_build` writes. -/
def ProjectionService.finished (service : ProjectionService)
    (state : RunState) (status : JobStatus) (now : String) : RunState :=
  service.withProgress
    { state with
      job := { state.job with
        status := status
        finishedAt := some now
        cancelRequestedAt :=
          if status = .cancelled then some now else state.job.cancelRequestedAt
        progress := { state.job.progress with
          partialResultsAvailable := 0 < state.counters.written } } }

/-- `_finish_index` or `_finish_build`. -/
def ProjectionService.finish (service : ProjectionService) (state : RunState)
    (status : JobStatus) (now : String) : JobScript Job := do
  let state := service.finished state status now
  updateJob state.job (.progress state.job)
  updateJobStatus state.job.jobId status none
  saveCheckpoint state.checkpoint
  pure state.job

/-- The loop of `_run_index` or `_run_build`. -/
def ProjectionService.loop (service : ProjectionService) (now : String) :
    List LoopTurn → RunState → JobScript Job
  | [], _ => Script.raise (.builtin .operationalError "interrupted")
  | turn :: turns, state =>
      if turn.cancelRequested then service.finish state .cancelled now
      else if turn.pauseRequested then service.finish state .paused now
      else if service.budgetReached state then
        service.finish state .partially now
      else
        match turn.batch with
        | none => service.finish state .succeeded now
        | some (counters, source) => do
            let state := { state with
              counters := counters
              currentSource := some source }
            saveCheckpoint state.checkpoint
            service.loop now turns (service.withProgress state)

/-- `_run_index` or `_run_build`. -/
def ProjectionService.run (service : ProjectionService) (state : RunState)
    (run : LoopRun) : JobScript Job := do
  let job := { state.job with
    status := .running
    startedAt := state.job.startedAt.or (some run.startedAt)
    finishedAt := none }
  updateJob job (.progress job)
  updateJobStatus job.jobId job.status (some false)
  service.loop run.finishedAt run.turns { state with job := job }

/-- The job that `index` or `build` creates. -/
def ProjectionService.newJob (service : ProjectionService)
    (jobId caseId : String) : Job where
  jobId := jobId
  caseId := caseId
  jobType := service.jobType
  status := .queued
  progress := .initial service.currentAnalyzer
  startedAt := none
  finishedAt := none
  cancelRequestedAt := none
  warnings := []
  errors := []
  checkpointAvailable := true
  jobRevision := 0

def noCounters : Counters := ⟨0, 0, 0⟩

/-- `index` or `build`. -/
def ProjectionService.start (service : ProjectionService)
    (jobId caseId : String) (itemBudget : Option ℕ) (run : LoopRun) :
    JobScript Job := do
  let job := service.newJob jobId caseId
  saveJob job
  createServiceJob job
  service.run ⟨job, itemBudget, noCounters, none⟩ run

/-- `_get_search_job` or `_get_timeline_job`. -/
def ProjectionService.getServiceJob (service : ProjectionService)
    (jobId : String) (s : JobStore) : Except PyError ServiceJob :=
  match s.serviceJob? jobId with
  | none => .error
      (match service with
        | .search => notFoundError "SEARCH_JOB_NOT_FOUND"
            "Search job not found." (some "job_id")
        | .timeline => notFoundError "TIMELINE_JOB_NOT_FOUND"
            "Timeline job not found." (some "job_id"))
  | some row => .ok row

/-- A loop reads the job that it resumes. -/
def loadJob (getJob : JobStore → Except PyError Job) : JobScript Job :=
  Script.attempt fun s => do
    let job ← getJob s
    .ok (job, s, [.loaded job])

/-- `resume_index_job` or `resume_build_job`. -/
def ProjectionService.resume (service : ProjectionService) (jobId : String)
    (itemBudget : Option ℕ) (run : LoopRun) : JobScript Job := do
  let job ← loadJob (service.getJob jobId)
  if job.status = .succeeded then
    Script.raise (stateConflictError
      (match service with
        | .search => "Completed search index jobs cannot be resumed."
        | .timeline => "Completed timeline jobs cannot be resumed.")
      (some "job_id"))
  else do
    let _ ← Script.query (service.getServiceJob jobId)
    let checkpoint ← Script.query fun s => .ok (s.checkpoint? jobId)
    let job := { job with
      status := .resuming
      finishedAt := none
      jobRevision := job.jobRevision + 1 }
    updateJob job (.progress job)
    updateJobStatus jobId job.status (some false)
    service.run
      ⟨job, itemBudget, checkpoint.elim noCounters CheckpointRow.counters,
        none⟩ run

/-- A cancel reads the job; one that is over is returned as it is. -/
def ProjectionService.readForCancel (service : ProjectionService)
    (jobId : String) : JobScript Job :=
  Script.attempt fun s => do
    let job ← service.getJob jobId s
    if job.status = .succeeded ∨ job.status = .cancelled then
      .ok (job, s, [.answered job])
    else .ok (job, s, [.seen job])

def Job.cancelledAt (job : Job) (now : String) : Job :=
  { job with
    status := .cancelled
    cancelRequestedAt := some now
    finishedAt := some now
    jobRevision := job.jobRevision + 1 }

/-- `cancel_index_job` or `cancel_build_job`. -/
def ProjectionService.cancel (service : ProjectionService)
    (jobId now : String) : JobScript Job := do
  let job ← service.readForCancel jobId
  if job.status = .succeeded ∨ job.status = .cancelled then pure job
  else do
    let cancelled := job.cancelledAt now
    updateJob cancelled (.requested job cancelled)
    updateJobStatus jobId cancelled.status none
    pure cancelled

/-! ## The artifact service -/

structure ArtifactRunState where
  job : Job
  itemBudget : Option ℕ
  artifactsThisRun : ℕ
  coverage : Coverage

/-- What the analysis of one source adds. -/
structure SourceOutcome where
  analyzerId : String
  sourcePath : String
  inspected : ℕ
  inserted : ℕ
  complete : Bool
  warnings : List String
  errors : List String

/-- A turn of the artifact loop; there is no outcome when no source is left. -/
structure ArtifactTurn where
  cancelRequested : Bool
  pauseRequested : Bool
  outcome : Option SourceOutcome

/-- `pending` is whether sources are pending when the loop ends. -/
structure ArtifactRun where
  startedAt : String
  finishedAt : String
  pending : Bool
  turns : List ArtifactTurn

/-- The progress that `_sync_progress` takes from the coverage. -/
def ArtifactRunState.withProgress (state : ArtifactRunState) :
    ArtifactRunState :=
  { state with
    job := { state.job with
      progress :=
        { current := state.coverage.processedSources
          discoveredItems := state.coverage.sourceCount
          processedItems := state.coverage.processedSources
          skippedItems := state.coverage.skippedSources
          warningCount := state.coverage.warningCount
          errorCount := state.coverage.errorCount
          partialResultsAvailable := 0 < state.coverage.artifactCount
          currentPath := state.coverage.currentSourcePath
          currentAnalyzer := state.coverage.currentAnalyzer } } }

/-- `_sync_progress`. -/
def syncProgress (state : ArtifactRunState) : JobScript ArtifactRunState := do
  let state := state.withProgress
  upsertCoverage state.coverage
  updateJob state.job (.progress state.job)
  pure state

def ArtifactRunState.budgetReached (state : ArtifactRunState) : Bool :=
  state.itemBudget.any fun budget => budget ≤ state.artifactsThisRun

/-- `_analyze_source`, as far as it changes the job and its coverage. -/
def ArtifactRunState.analyzed (state : ArtifactRunState)
    (outcome : SourceOutcome) : ArtifactRunState :=
  { state with
    artifactsThisRun := state.artifactsThisRun + outcome.inspected
    job := { state.job with
      warnings := state.job.warnings ++ outcome.warnings
      errors := state.job.errors ++ outcome.errors }
    coverage := { state.coverage with
      currentAnalyzer := some outcome.analyzerId
      currentSourcePath := some outcome.sourcePath
      artifactCount := state.coverage.artifactCount + outcome.inserted
      processedSources := state.coverage.processedSources +
        (if outcome.complete then 1 else 0)
      warningCount := state.coverage.warningCount + outcome.warnings.length
      errorCount := state.coverage.errorCount + outcome.errors.length } }

def finalCoverageStatus (coverage : Coverage) : CoverageStatus :=
  if 0 < coverage.warningCount ∨ 0 < coverage.errorCount then .partially
  else .complete

/-- `_finish` of the artifact service. -/
def finishArtifacts (state : ArtifactRunState) (status : JobStatus)
    (coverageStatus : CoverageStatus) (run : ArtifactRun) :
    JobScript Job := do
  let state : ArtifactRunState :=
    { state with
      coverage := { state.coverage with
        status := coverageStatus
        isPartial := coverageStatus ≠ .complete }
      job := { state.job with
        status := status
        finishedAt := some run.finishedAt
        checkpointAvailable := run.pending
        cancelRequestedAt :=
          if status = .cancelled then some run.finishedAt
          else state.job.cancelRequestedAt
        jobRevision := state.job.jobRevision + 1 } }
  let state ← syncProgress state
  updateJobStatus state.job.jobId state.job.status none
  pure state.job

/-- The loop of `_run` of the artifact service. -/
def artifactLoop (run : ArtifactRun) :
    List ArtifactTurn → ArtifactRunState → JobScript Job
  | [], _ => Script.raise (.builtin .operationalError "interrupted")
  | turn :: turns, state =>
      if turn.cancelRequested then
        finishArtifacts state .cancelled .cancelled run
      else if turn.pauseRequested then
        finishArtifacts state .paused .partially run
      else if state.budgetReached then
        finishArtifacts state .partially .partially run
      else
        match turn.outcome with
        | none =>
            finishArtifacts state
              (if finalCoverageStatus state.coverage = .complete then .succeeded
                else .partially)
              (finalCoverageStatus state.coverage) run
        | some outcome => do
            let state ← syncProgress (state.analyzed outcome)
            artifactLoop run turns state

/-- `_run` of the artifact service. -/
def runArtifacts (state : ArtifactRunState) (run : ArtifactRun) :
    JobScript Job := do
  let state ← syncProgress
    { state with
      job := { state.job with
        status := .running
        startedAt := state.job.startedAt.or (some run.startedAt)
        jobRevision := state.job.jobRevision + 1 } }
  updateJob state.job (.progress state.job)
  updateJobStatus state.job.jobId state.job.status (some false)
  artifactLoop run run.turns state

/-- The job that `analyze` creates. -/
def newArtifactJob (jobId caseId : String) : Job where
  jobId := jobId
  caseId := caseId
  jobType := .artifact
  status := .queued
  progress := .initial "artifact.discovery"
  startedAt := none
  finishedAt := none
  cancelRequestedAt := none
  warnings := []
  errors := []
  checkpointAvailable := true
  jobRevision := 0

/-- The coverage after the discovery of sources. -/
def newCoverage (jobId : String) (sourceCount warnings : ℕ)
    (isPartial : Bool) : Coverage where
  jobId := jobId
  status := .notStarted
  sourceCount := sourceCount
  processedSources := 0
  skippedSources := 0
  artifactCount := 0
  warningCount := warnings
  errorCount := 0
  isPartial := isPartial
  currentAnalyzer := none
  currentSourcePath := none

/-- `analyze` of the artifact service. -/
def analyzeArtifacts (jobId caseId : String) (itemBudget : Option ℕ)
    (sourceCount : ℕ) (warnings : List String) (isPartial : Bool)
    (run : ArtifactRun) : JobScript Job := do
  let job := newArtifactJob jobId caseId
  saveJob job
  createServiceJob job
  let coverage := newCoverage jobId sourceCount warnings.length isPartial
  upsertCoverage coverage
  runArtifacts ⟨{ job with warnings := warnings }, itemBudget, 0, coverage⟩ run

/-- `_get_artifact_job_metadata`. -/
def getArtifactJobMetadata (jobId : String) (s : JobStore) :
    Except PyError ServiceJob :=
  match s.serviceJob? jobId with
  | none => .error (notFoundError "ARTIFACT_JOB_NOT_FOUND"
      ("Artifact job not found: " ++ jobId) (some "job_id"))
  | some row => .ok row

/-- The coverage that a resumed job goes on from. -/
def coverageToResume (jobId : String) (s : JobStore) :
    Except PyError Coverage :=
  match s.coverage? jobId with
  | none => .error (stateConflictError
      "Artifact coverage is missing for resume." (some "job_id"))
  | some coverage => .ok coverage

/-- `resume_artifact_job`. -/
def resumeArtifacts (jobId : String) (itemBudget : Option ℕ)
    (run : ArtifactRun) : JobScript Job := do
  let job ← loadJob (getArtifactJob jobId)
  if job.status = .succeeded then
    Script.raise (stateConflictError
      "Completed artifact jobs cannot be resumed." (some "job_id"))
  else do
    let _ ← Script.query (getArtifactJobMetadata jobId)
    let coverage ← Script.query (coverageToResume jobId)
    let job := { job with
      status := .resuming
      jobRevision := job.jobRevision + 1
      finishedAt := none }
    updateJob job (.progress job)
    updateJobStatus jobId job.status (some false)
    runArtifacts ⟨job, itemBudget, 0, coverage⟩ run

/-- A cancel or a pause reads the job that it changes. -/
def readForRequest (jobId : String) : JobScript Job :=
  Script.attempt fun s => do
    let job ← getArtifactJob jobId s
    .ok (job, s, [.seen job])

/-- The coverage of a job that was cancelled or paused. -/
def markCoverage (jobId : String) (status : CoverageStatus) :
    JobScript Unit := do
  let coverage ← Script.query fun s => .ok (s.coverage? jobId)
  match coverage with
  | none => pure ()
  | some coverage =>
      upsertCoverage { coverage with
        status := status
        isPartial := true }

/-- `cancel_artifact_job`. -/
def cancelArtifacts (jobId now : String) (pending : Bool) :
    JobScript Job := do
  let job ← readForRequest jobId
  if job.status = .succeeded then
    Script.raise (stateConflictError
      "Completed artifact jobs cannot be cancelled." (some "job_id"))
  else do
    let cancelled :=
      { job.cancelledAt now with checkpointAvailable := pending }
    updateJob cancelled (.requested job cancelled)
    updateJobStatus jobId cancelled.status none
    markCoverage jobId .cancelled
    pure cancelled

/-- `pause_artifact_job`. -/
def pauseArtifacts (jobId : String) (pending : Bool) : JobScript Job := do
  let job ← readForRequest jobId
  if job.status = .succeeded then
    Script.raise (stateConflictError
      "Completed artifact jobs cannot be paused." (some "job_id"))
  else do
    let paused := { job with
      status := .paused
      checkpointAvailable := pending
      jobRevision := job.jobRevision + 1 }
    updateJob paused (.requested job paused)
    updateJobStatus jobId paused.status (some true)
    markCoverage jobId .partially
    pure paused

/-! ## Calls on one job -/

inductive JobRequest where
  | start (service : ProjectionService) (caseId : String)
      (itemBudget : Option ℕ) (run : LoopRun)
  | resume (service : ProjectionService) (itemBudget : Option ℕ)
      (run : LoopRun)
  | cancel (service : ProjectionService) (now : String)
  | analyzeArtifacts (caseId : String) (itemBudget : Option ℕ)
      (sourceCount : ℕ) (warnings : List String) (isPartial : Bool)
      (run : ArtifactRun)
  | resumeArtifacts (itemBudget : Option ℕ) (run : ArtifactRun)
  | cancelArtifacts (now : String) (pending : Bool)
  | pauseArtifacts (pending : Bool)

def JobRequest.script (jobId : String) : JobRequest → JobScript Job
  | .start service caseId itemBudget run =>
      service.start jobId caseId itemBudget run
  | .resume service itemBudget run => service.resume jobId itemBudget run
  | .cancel service now => service.cancel jobId now
  | .analyzeArtifacts caseId itemBudget sourceCount warnings isPartial run =>
      Jobs.analyzeArtifacts jobId caseId itemBudget sourceCount warnings
        isPartial run
  | .resumeArtifacts itemBudget run =>
      Jobs.resumeArtifacts jobId itemBudget run
  | .cancelArtifacts now pending => Jobs.cancelArtifacts jobId now pending
  | .pauseArtifacts pending => Jobs.pauseArtifacts jobId pending

def JobRequest.cancels : JobRequest → Bool
  | .cancel _ _ => true
  | .cancelArtifacts _ _ => true
  | _ => false

end ApexForensic.Jobs
