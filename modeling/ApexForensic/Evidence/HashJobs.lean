import ApexForensic.Evidence.Manager
import ApexForensic.Jobs.Model

/-!
# Hash jobs with their rows and their custody events

The calls of the evidence manager that hash a source, with the `jobs` row that
each makes and the `HASH_VERIFIED` events of the ledger.  Every write may
raise, and so may the computation between them; an `except` clause finds the
evidence and the job as the call holds them then.
-/

namespace ApexForensic.Evidence

open ApexForensic.Support ApexForensic.Domain
open ApexForensic.Jobs (JobStatus)

inductive HashJobType where
  | hash | verify
  deriving DecidableEq

/-- A row of `jobs`; of its warnings, the codes. -/
structure HashJob where
  jobId : String
  caseId : String
  evidenceId : String
  jobType : HashJobType
  status : JobStatus
  queuedAt : String
  startedAt : Option String := none
  finishedAt : Option String := none
  warnings : List String := []
  errors : List PyError := []

def isFinal (status : JobStatus) : Bool :=
  status ∈ [.succeeded, .partially, .failed, .cancelled]

def HashJob.running (job : HashJob) (now : String) : HashJob :=
  { job with status := .running, startedAt := some now }

def HashJob.warned (job : HashJob) (warnings : List String) : HashJob :=
  { job with warnings := job.warnings ++ warnings }

def HashJob.succeeded (job : HashJob) (now : String) : HashJob :=
  { job with status := .succeeded, finishedAt := some now }

def HashJob.cancelled (job : HashJob) (now : String) : HashJob :=
  { job with status := .cancelled, finishedAt := some now }

def HashJob.failed (job : HashJob) (now : String) (error : PyError) : HashJob :=
  { job with
    status := .failed
    finishedAt := some now
    errors := job.errors ++ [error] }

def EvidenceRow.marked (row : EvidenceRow) (status : EvidenceStatus)
    (now : String) : EvidenceRow :=
  { row with status, updatedAt := now }

def HashVerificationStatus.value : HashVerificationStatus → String
  | .notChecked => "NOT_CHECKED"
  | .isMatch => "MATCH"
  | .mismatch => "MISMATCH"
  | .error => "ERROR"

/-- A `HASH_VERIFIED` event of the ledger. -/
structure HashVerifiedEvent where
  eventId : String
  evidenceId : String
  actorName : String
  action : String
  algorithm : HashAlgorithm
  previousDigest : String
  currentDigest : String
  notes : Option String

/-- `action` of the event of an outcome. -/
def verifiedAction (status : HashVerificationStatus) : String :=
  "Hash verification completed: " ++ status.value

structure Desk where
  store : Store
  jobs : Table HashJob.jobId
  events : List HashVerifiedEvent

def Desk.empty (cases : List String) (files : Files) : Desk where
  store := Store.empty cases files
  jobs := Table.empty _
  events := []

/-! ## Writes -/

/-- What can raise in a call once its evidence is found. -/
inductive Write where
  | saveJob | markHashing | markRunning | compute | saveRecord | markReady
  | addEvent | saveVerification | markVerified | markSucceeded
  | markCancelled | markEvidenceFailed | saveError | markFailed
  deriving DecidableEq

/-- What raises there, other than by the rows or the source. -/
def Faults : Type :=
  Write → Option PyError

/-- A write of the evidence tables. -/
def onStore {α : Type} (m : Service Store PyError α) :
    Service Desk PyError α := fun desk =>
  let r := m desk.store
  (r.1, { desk with store := r.2 })

/-- `save_job`. -/
def saveJob (job : HashJob) : Service Desk PyError Unit :=
  Service.commit fun desk =>
    match desk.jobs.insert job with
    | some jobs => .ok ((), { desk with jobs })
    | none => .error (.builtin .integrityError
        "UNIQUE constraint failed: jobs.job_id")

/-- `update_job` of a job that is stored. -/
def updateJob (job : HashJob) : Service Desk PyError Unit :=
  Service.commit fun desk => .ok ((), { desk with jobs := desk.jobs.put job })

def eventConstraints :
    List (String × (HashVerifiedEvent → HashVerifiedEvent → Bool)) :=
  [("custody_events.event_id", fun e f => e.eventId = f.eventId)]

def addEvent (event : HashVerifiedEvent) : Service Desk PyError Unit :=
  Service.commit fun desk => do
    let events ← insertRow eventConstraints desk.events event
    return ((), { desk with events })

def raising {α : Type} (error : PyError) : Service Desk PyError α :=
  Service.read fun _ => .error error

/-- An `OperationCancelledError`. -/
def isCancellation : PyError → Bool
  | .apex error => error.code = "OPERATION_CANCELLED"
  | .builtin _ _ => false

section

variable (P : Platform) (segments : SegmentFinder) (faults : Faults)

/-- The `except OperationCancelledError` clause of both calls. -/
def exceptCancelled {α : Type} (job : HashJob) (now : String)
    (error : PyError) : Service Desk PyError α := do
  Service.unlessRaised (faults .markCancelled) (updateJob (job.cancelled now))
  raising error

/-! ## `calculate_hash` -/

/-- The `except` clauses. -/
def exceptHash {α : Type} (row : EvidenceRow) (job : HashJob) (now : String)
    (error : PyError) : Service Desk PyError α :=
  if isCancellation error then exceptCancelled faults job now error
  else if isFailure error then do
    Service.unlessRaised (faults .markEvidenceFailed)
      (onStore (updateEvidence (row.marked .failed now)))
    Service.unlessRaised (faults .markFailed) (updateJob (job.failed now error))
    raising error
  else raising error

/-- The end of the `try` block: the evidence is ready. -/
def hashFinish (record : HashRecord) (row : EvidenceRow) (job : HashJob)
    (now : String) : Service Desk PyError (HashRecord × HashJob) :=
  let finished := job.succeeded now
  Service.guarded
    (Service.unlessRaised (faults .markSucceeded) (updateJob finished))
    (exceptHash faults row finished now) fun _ =>
  pure (record, finished)

/-- The `try` block once the source is hashed. -/
def hashStore (record : HashRecord) (row : EvidenceRow) (job : HashJob)
    (now : String) : Service Desk PyError (HashRecord × HashJob) :=
  Service.guarded
    (Service.unlessRaised (faults .saveRecord)
      (onStore (saveHashRecord record)))
    (exceptHash faults row job now) fun _ =>
  Service.guarded
    (Service.unlessRaised (faults .markReady)
      (onStore (updateEvidence (row.marked .ready now))))
    (exceptHash faults row job now) fun _ =>
  hashFinish faults record row job now

/-- The `try` block. -/
def hashBlock (args : HashArgs) (inputs : HashJobInputs) (row : EvidenceRow)
    (job : HashJob) : Service Desk PyError (HashRecord × HashJob) :=
  let running := job.running inputs.now
  Service.guarded
    (Service.unlessRaised (faults .markRunning) (updateJob running))
    (exceptHash faults row running inputs.now) fun _ =>
  Service.guarded
    (Service.unlessRaised (faults .compute) (Service.read fun desk =>
      hashOutcome P segments desk.store.files row args.algorithm inputs.hash))
    (exceptHash faults row running inputs.now) fun outcome =>
  hashStore faults (hashRecord args inputs outcome.1) outcome.2.1
    (running.warned outcome.2.2) inputs.now

/-- `_create_job`. -/
def createJob (row : EvidenceRow) (jobType : HashJobType) (jobId now : String) :
    HashJob where
  jobId := jobId
  caseId := row.caseId
  evidenceId := row.evidenceId
  jobType := jobType
  status := .queued
  queuedAt := now

/-- `calculate_hash`. -/
def calculateHashJob (args : HashArgs) (inputs : HashJobInputs) :
    Service Desk PyError (HashRecord × HashJob) := do
  let row ← Service.read fun desk => desk.store.getEvidence args.evidenceId
  Service.read fun _ => ensureHashSupported row
  let job := createJob row .hash inputs.jobId inputs.now
  Service.unlessRaised (faults .saveJob) (saveJob job)
  Service.unlessRaised (faults .markHashing) (onStore
    (updateEvidence (row.marked .hashing inputs.now)))
  hashBlock P segments faults args inputs row job

/-! ## `verify_evidence` -/

/-- What the clock and the id generator return during a verification, and
whether the manager has a ledger. -/
structure VerifyJobInputs where
  hash : HashInputs
  now : String
  jobId : String
  newId : String
  errorId : String
  eventId : String
  hasLedger : Bool

/-- The row of a verification that compares two digests. -/
def verificationRow (row : EvidenceRow) (args : HashArgs)
    (inputs : VerifyJobInputs) (expected : HashRecord)
    (computation : HashComputation) (status : HashVerificationStatus)
    (custodyEventId : Option String) : HashVerification where
  verificationId := inputs.newId
  evidenceId := args.evidenceId
  caseId := row.caseId
  algorithm := args.algorithm
  expectedDigest := expected.digest
  observedDigest := some computation.digest
  status := status
  verifiedAt := computation.completedAt
  jobId := inputs.jobId
  custodyEventId := custodyEventId
  error := none

/-- The row of a verification that an engine error ended. -/
def errorRow (row : EvidenceRow) (args : HashArgs) (inputs : VerifyJobInputs)
    (expected : HashRecord) (error : PyError) : HashVerification where
  verificationId := inputs.errorId
  evidenceId := args.evidenceId
  caseId := row.caseId
  algorithm := args.algorithm
  expectedDigest := expected.digest
  observedDigest := none
  status := .error
  verifiedAt := inputs.now
  jobId := inputs.jobId
  custodyEventId := none
  error := some error

def hashVerifiedEvent (row : EvidenceRow) (args : HashArgs)
    (inputs : VerifyJobInputs) (expected : HashRecord)
    (computation : HashComputation) (status : HashVerificationStatus) :
    HashVerifiedEvent where
  eventId := inputs.eventId
  evidenceId := row.evidenceId
  actorName := "SYSTEM"
  action := verifiedAction status
  algorithm := args.algorithm
  previousDigest := expected.digest
  currentDigest := computation.digest
  notes := if status = .isMatch then none else some "Hash mismatch recorded."

/-- `_append_hash_verified_event`. -/
def appendHashVerifiedEvent (inputs : VerifyJobInputs)
    (event : HashVerifiedEvent) : Service Desk PyError (Option String) :=
  if inputs.hasLedger then
    Service.unlessRaised (faults .addEvent) do
      addEvent event
      return some event.eventId
  else pure none

/-- The `except` clauses. -/
def exceptVerify {α : Type} (row : EvidenceRow) (args : HashArgs)
    (inputs : VerifyJobInputs) (expected : HashRecord) (job : HashJob)
    (error : PyError) : Service Desk PyError α :=
  if isCancellation error then exceptCancelled faults job inputs.now error
  else if isFailure error then do
    Service.unlessRaised (faults .saveError) (onStore
      (saveHashVerification (errorRow row args inputs expected error)))
    Service.unlessRaised (faults .markFailed)
      (updateJob (job.failed inputs.now error))
    raising error
  else raising error

/-- The `try` block once the outcome is stored. -/
def verifyFinish (args : HashArgs) (inputs : VerifyJobInputs)
    (row : EvidenceRow) (expected : HashRecord) (job : HashJob)
    (verification : HashVerification) :
    Service Desk PyError (HashVerification × HashJob) :=
  Service.guarded
    (Service.unlessRaised (faults .markVerified)
      (onStore (markHashRecordVerified expected.hashId verification.status)))
    (exceptVerify faults row args inputs expected job) fun _ =>
  let finished := (job.succeeded inputs.now).warned
    (if verification.status = .mismatch then ["HASH_MISMATCH"] else [])
  Service.guarded
    (Service.unlessRaised (faults .markSucceeded) (updateJob finished))
    (exceptVerify faults row args inputs expected finished) fun _ =>
  pure (verification, finished)

/-- The `try` block once the source is hashed. -/
def verifyStore (args : HashArgs) (inputs : VerifyJobInputs)
    (row : EvidenceRow) (expected : HashRecord) (job : HashJob)
    (computation : HashComputation) :
    Service Desk PyError (HashVerification × HashJob) :=
  let status : HashVerificationStatus :=
    if computation.digest = expected.digest then .isMatch else .mismatch
  Service.guarded
    (appendHashVerifiedEvent faults inputs
      (hashVerifiedEvent row args inputs expected computation status))
    (exceptVerify faults row args inputs expected job) fun custodyEventId =>
  let verification :=
    verificationRow row args inputs expected computation status custodyEventId
  Service.guarded
    (Service.unlessRaised (faults .saveVerification)
      (onStore (saveHashVerification verification)))
    (exceptVerify faults row args inputs expected job) fun _ =>
  verifyFinish faults args inputs row expected job verification

/-- The `try` block. -/
def verifyBlock (args : HashArgs) (inputs : VerifyJobInputs)
    (row : EvidenceRow) (expected : HashRecord) (job : HashJob) :
    Service Desk PyError (HashVerification × HashJob) :=
  let running := job.running inputs.now
  Service.guarded
    (Service.unlessRaised (faults .markRunning) (updateJob running))
    (exceptVerify faults row args inputs expected running) fun _ =>
  Service.guarded
    (Service.unlessRaised (faults .compute) (Service.read fun desk =>
      computeFile P desk.store.files row.sourcePath args.algorithm inputs.hash))
    (exceptVerify faults row args inputs expected running) fun computation =>
  verifyStore faults args inputs row expected running computation

/-- `latest_hash_record`, which a verification needs. -/
def expectedRecord (store : Store) (args : HashArgs) :
    Except PyError HashRecord :=
  match store.latestHashRecord args.evidenceId args.algorithm with
  | some record => .ok record
  | none => .error (validationError
      "No stored hash exists for verification." (some "algorithm")
      [("algorithm", .str args.algorithm.value)])

/-- `verify_evidence`. -/
def verifyEvidenceJob (args : HashArgs) (inputs : VerifyJobInputs) :
    Service Desk PyError (HashVerification × HashJob) := do
  let row ← Service.read fun desk => desk.store.getEvidence args.evidenceId
  Service.read fun _ => ensureHashSupported row
  let expected ← Service.read fun desk => expectedRecord desk.store args
  let job := createJob row .verify inputs.jobId inputs.now
  Service.unlessRaised (faults .saveJob) (saveJob job)
  verifyBlock P faults args inputs row expected job

end

/-! ## Calls -/

/-- A call that makes a hash job. -/
inductive HashCall where
  | hash (args : HashArgs) (inputs : HashJobInputs)
  | verify (args : HashArgs) (inputs : VerifyJobInputs)

def HashCall.args : HashCall → HashArgs
  | .hash args _ => args
  | .verify args _ => args

def HashCall.jobId : HashCall → String
  | .hash _ inputs => inputs.jobId
  | .verify _ inputs => inputs.jobId

/-- A call that makes a hash job, a registration, or a change of files by
others. -/
inductive DeskOp where
  | call (call : HashCall) (faults : Faults)
  | register (args : RegisterArgs) (inputs : RegisterInputs)
  | modify (files : Files)

section

variable (P : Platform) (segments : SegmentFinder)

def HashCall.after (faults : Faults) (desk : Desk) : HashCall → Desk
  | .hash args inputs =>
      (calculateHashJob P segments faults args inputs).after desk
  | .verify args inputs => (verifyEvidenceJob P faults args inputs).after desk

def Desk.step (desk : Desk) : DeskOp → Desk
  | .call call faults => call.after P segments faults desk
  | .register args inputs =>
      (onStore (registerEvidence P segments args inputs)).after desk
  | .modify files => { desk with store := { desk.store with files } }

end

end ApexForensic.Evidence
