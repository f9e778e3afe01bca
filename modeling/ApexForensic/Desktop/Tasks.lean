import ApexForensic.Domain.PyJson
import ApexForensic.Domain.Table
import ApexForensic.Support.Run

/-!
# Background tasks of the desktop

A task is admitted under the lock, submitted to the pool, and run by a worker
that changes its record in several separately locked steps.  Cancelling sets a
token and the status of the record.  Every locked step, every unlocked look at
the token and every end of the work itself is one step here, and the steps of
any number of tasks interleave.
-/

namespace ApexForensic.Desktop

open ApexForensic.Support ApexForensic.Domain

/-! ## Records -/

/-- `TaskRecord`. -/
structure TaskRecord where
  taskId : String
  caseId : String
  kind : String
  status : Json
  job : Option (List (String × Json))
  error : Option Json
  actions : List String
  result : Option Json
  receiptError : Option Json

/-- A status that takes one of the slots of the queue. -/
def isLive : Json → Bool
  | .str status => status ∈ ["QUEUED", "RUNNING", "CANCELLING"]
  | _ => false

/-- A value that a set can be asked for. -/
def isHashable : Json → Bool
  | .arr _ => false
  | .obj _ => false
  | _ => true

/-- `public_error`. -/
def publicError : PyError → Json
  | .apex error => .obj
      [("code", .str error.code), ("message_key", .str error.messageKey),
        ("retryable", .bool error.retryable),
        ("target", error.target.elim .null .str)]
  | .builtin _ _ => .obj
      [("code", .str "DESKTOP_OPERATION_FAILED"),
        ("message_key", .str "error.desktop_operation_failed"),
        ("retryable", .bool false)]

def receiptNotSaved : Json :=
  .obj
    [("code", .str "TASK_RECEIPT_NOT_SAVED"),
      ("message_key", .str "error.task_receipt_not_saved"),
      ("retryable", .bool true)]

namespace TaskRecord

/-- `(job or {}).get("status", "SUCCEEDED")`. -/
def jobStatus (record : TaskRecord) : Json :=
  (Json.lookup "status" (record.job.getD [])).getD (.str "SUCCEEDED")

/-- Whether the result says that the work is not complete. -/
def isPartial : Json → Bool
  | .obj fields =>
      (Json.lookup "partial" fields).any truthy ||
        match Json.lookup "coverage_complete" fields with
        | some (.bool false) => true
        | _ => false
  | _ => false

/-- The jobs of a returned list, each in place of what the record had.  A job
without a status raises a `KeyError`. -/
def withJobs (record : TaskRecord) : List Json → TaskRecord × Option PyError
  | [] => (record, none)
  | .obj job :: items =>
      if (Json.lookup "job_type" job).isSome then
        let named := { record with job := some job }
        match Json.lookup "status" job with
        | some status => { named with status }.withJobs items
        | none => (named, some (.builtin .keyError "'status'"))
      else record.withJobs items
  | _ :: items => record.withJobs items

/-- The record once the run has returned, but for the token. -/
def returned (record : TaskRecord) (result : Json) :
    TaskRecord × Option PyError :=
  let finished :=
    { record with
      result := some result
      status := if isPartial result then .str "PARTIAL" else record.jobStatus }
  match result with
  | .arr items => finished.withJobs items
  | _ => (finished, none)

theorem taskId_withJobs (record : TaskRecord) (items : List Json) :
    (record.withJobs items).1.taskId = record.taskId := by
  induction items generalizing record with
  | nil => rfl
  | cons item items ih =>
      cases item with
      | obj job =>
          rw [withJobs]
          split
          · dsimp only
            split
            · exact ih _
            · rfl
          · exact ih record
      | _ => exact ih record

@[simp] theorem taskId_returned (record : TaskRecord) (result : Json) :
    (record.returned result).1.taskId = record.taskId := by
  cases result with
  | arr items => exact taskId_withJobs _ items
  | _ => rfl

end TaskRecord

/-- A change of a record that keeps its id. -/
abbrev TaskChange :=
  {f : TaskRecord → TaskRecord // ∀ r, (f r).taskId = r.taskId}

namespace TaskChange

def setStatus (status : String) : TaskChange :=
  ⟨fun r => { r with status := .str status }, fun _ => rfl⟩

def setJob (job : List (String × Json)) : TaskChange :=
  ⟨fun r => { r with job := some job }, fun _ => rfl⟩

def setError (error : PyError) : TaskChange :=
  ⟨fun r => { r with error := some (publicError error) }, fun _ => rfl⟩

def setReceiptError (receiptError : Option Json) : TaskChange :=
  ⟨fun r => { r with receiptError }, fun _ => rfl⟩

def clearActions : TaskChange :=
  ⟨fun r => { r with actions := [] }, fun _ => rfl⟩

def returned (result : Json) : TaskChange :=
  ⟨fun r => (r.returned result).1, fun r => r.taskId_returned result⟩

def andThen (f g : TaskChange) : TaskChange :=
  ⟨fun r => g.1 (f.1 r), fun r => (g.2 (f.1 r)).trans (f.2 r)⟩

/-- A change of the status, unless the token is set. -/
def unlessCancelled (isCancelled : Prop) [Decidable isCancelled]
    (f : TaskChange) : TaskChange :=
  if isCancelled then f.andThen (setStatus "CANCELLED") else f

end TaskChange

/-! ## The tasks -/

/-- Where a task stands. -/
inductive Phase where
  | unused
  /-- `start` has left the lock and has not submitted the worker. -/
  | admitted
  | queued
  | started
  /-- The worker has seen the token set before it began. -/
  | stopping
  | building
  | running
  | failing (error : PyError)
  /-- The final status is assigned; the services, where there are any, are yet
  to be closed. -/
  | closing
  | cleaning
  | finished
  /-- `start` raised. -/
  | rejected

/-- `cancelled` lists the tasks whose token was set. -/
structure Tasks where
  records : Table TaskRecord.taskId
  tokens : List String
  cancelled : List String
  phase : String → Phase

/-- How `_save` ends. -/
inductive Save where
  | saved
  | osError
  | raised (error : PyError)

namespace Tasks

/-- The tasks after a restart. -/
def opened (receipts : Table TaskRecord.taskId) : Tasks where
  records := receipts.update (fun _ => true)
    (fun record =>
      { record with
        status := if isLive record.status then .str "INTERRUPTED"
          else record.status
        actions := [] })
    fun _ => rfl
  tokens := []
  cancelled := []
  phase _ := .unused

def isCancelled (s : Tasks) (taskId : String) : Prop :=
  taskId ∈ s.cancelled

instance (s : Tasks) (taskId : String) : Decidable (s.isCancelled taskId) :=
  inferInstanceAs (Decidable (taskId ∈ s.cancelled))

/-- The number of records that are live. -/
def liveCount (s : Tasks) : ℕ :=
  s.records.rows.countP fun record => isLive record.status

/-- Change the record of a task. -/
def modify (s : Tasks) (taskId : String) (change : TaskChange) : Tasks :=
  { s with
    records := s.records.update (fun r => r.taskId = taskId) change.1
      change.2 }

def setPhase (s : Tasks) (taskId : String) (phase : Phase) : Tasks :=
  { s with phase := Function.update s.phase taskId phase }

/-- A save that went through drops the receipt errors. -/
def saved (s : Tasks) : Save → Tasks
  | .saved =>
      { s with
        records := s.records.update (fun _ => true)
          (TaskChange.setReceiptError none).1
          (TaskChange.setReceiptError none).2 }
  | _ => s

/-- `records[task_id] = record` and `tokens[task_id] = token`. -/
def add (s : Tasks) (record : TaskRecord) : Tasks :=
  { s with
    records := s.records.put record
    tokens := s.tokens ++ [record.taskId] }

/-- `records.pop(task_id, None)` and `tokens.pop(task_id, None)`. -/
def pop (s : Tasks) (taskId : String) : Tasks :=
  { s with
    records := s.records.filter fun record => record.taskId ≠ taskId
    tokens := s.tokens.filter fun token => token ≠ taskId }

/-! ## `start` -/

/-- The record with which a task is admitted. -/
def newRecord (taskId caseId kind : String) (cancellable : Bool) :
    TaskRecord where
  taskId := taskId
  caseId := caseId
  kind := kind
  status := .str "QUEUED"
  job := none
  error := none
  actions := if cancellable then ["CANCEL"] else []
  result := none
  receiptError := none

/-- The locked part of `start`; the new id comes from `uuid4`. -/
def admitTask (s : Tasks) (taskId caseId kind : String) (cancellable : Bool)
    (save : Save) : Tasks :=
  if s.records.rows.any fun record => ! isHashable record.status then
    s.setPhase taskId .rejected
  else if 16 ≤ s.liveCount then
    s.setPhase taskId .rejected
  else
    let record := newRecord taskId caseId kind cancellable
    match save with
    | .saved => ((s.add record).saved .saved).setPhase taskId .admitted
    | _ => ((s.add record).pop taskId).setPhase taskId .rejected

/-- `pool.submit`, and what `start` does when it raises. -/
def submit (s : Tasks) (taskId : String) (accepted : Bool) (save : Save) :
    Tasks :=
  if accepted then s.setPhase taskId .queued
  else ((s.pop taskId).saved save).setPhase taskId .rejected

/-! ## `cancel` -/

/-- The record of a task that may be cancelled. -/
def cancellable (s : Tasks) (caseId taskId : String) :
    Except PyError TaskRecord :=
  match s.records.find? taskId with
  | none => .error (.apex ⟨"TASK_NOT_FOUND", "error.task_not_found", none,
      none, false, []⟩)
  | some record =>
      if record.caseId ≠ caseId then
        .error (.apex ⟨"TASK_NOT_FOUND", "error.task_not_found", none, none,
          false, []⟩)
      else if "CANCEL" ∉ record.actions ∨ taskId ∉ s.tokens then
        .error (.apex ⟨"STATE_CONFLICT", "error.state_conflict", none, none,
          false, []⟩)
      else .ok record

/-- `tokens[task_id].cancel()`. -/
def setToken (s : Tasks) (taskId : String) : Tasks :=
  { s with cancelled := taskId :: s.cancelled }

def cancel (s : Tasks) (caseId taskId : String) :
    Except PyError TaskRecord × Tasks :=
  match s.cancellable caseId taskId with
  | .error e => (.error e, s)
  | .ok record =>
      (.ok ((TaskChange.setStatus "CANCELLING").1 record),
        (s.setToken taskId).modify taskId (.setStatus "CANCELLING"))

/-! ## `worker` -/

/-- What a worker does next, with what the code it calls gives it. -/
inductive WorkerStep where
  | begin
  | check
  | stop
  | buildServices (error : Option PyError)
  | progress (job : List (String × Json))
  | returned (result : Json)
  | raised (error : PyError)
  | recordError
  | closeServices (raises : Bool)
  | cleanUp (save : Save)

/-- The final status under a token that may be set. -/
def finish (s : Tasks) (taskId : String) (result : Json) : Tasks :=
  match s.records.find? taskId with
  | none => s
  | some record =>
      match (record.returned result).2 with
      | some error =>
          (s.modify taskId (.returned result)).setPhase taskId (.failing error)
      | none =>
          (s.modify taskId (.unlessCancelled (s.isCancelled taskId)
            (.returned result))).setPhase taskId .closing

/-- The `except` clause. -/
def recordError (s : Tasks) (taskId : String) (error : PyError) : Tasks :=
  (s.modify taskId (.andThen (.unlessCancelled (s.isCancelled taskId)
    (.setStatus "FAILED")) (.setError error))).setPhase taskId .closing

/-- `tokens.pop(task_id, None)`. -/
def dropToken (s : Tasks) (taskId : String) : Tasks :=
  { s with tokens := s.tokens.filter fun token => token ≠ taskId }

/-- The locked part of the `finally` clause. -/
def cleanUp (s : Tasks) (taskId : String) (save : Save) : Tasks :=
  let cleared := (s.dropToken taskId).modify taskId .clearActions
  let saved :=
    match save with
    | .osError =>
        cleared.modify taskId (.setReceiptError (some receiptNotSaved))
    | save => cleared.saved save
  saved.setPhase taskId .finished

/-- A step the worker is not at does nothing. -/
def work (s : Tasks) (taskId : String) (step : WorkerStep) : Tasks :=
  match s.phase taskId, step with
  | .queued, .begin =>
      (s.modify taskId (.setStatus "RUNNING")).setPhase taskId .started
  | .started, .check =>
      s.setPhase taskId (if s.isCancelled taskId then .stopping else .building)
  | .stopping, .stop =>
      (s.modify taskId (.setStatus "CANCELLED")).setPhase taskId .closing
  | .building, .buildServices none => s.setPhase taskId .running
  | .building, .buildServices (some error) =>
      s.setPhase taskId (.failing error)
  | .running, .progress job =>
      s.modify taskId (.setJob job)
  | .running, .returned result => s.finish taskId result
  | .running, .raised error => s.setPhase taskId (.failing error)
  | .failing error, .recordError => s.recordError taskId error
  | .closing, .closeServices false => s.setPhase taskId .cleaning
  | .closing, .closeServices true => s.setPhase taskId .finished
  | .cleaning, .cleanUp save => s.cleanUp taskId save
  | _, _ => s

/-! ## Runs -/

inductive TaskMove where
  | admitTask (taskId caseId kind : String) (cancellable : Bool) (save : Save)
  | submit (taskId : String) (accepted : Bool) (save : Save)
  | cancel (caseId taskId : String)
  | work (taskId : String) (step : WorkerStep)

/-- A `uuid4` is new, and a task is submitted once. -/
def step (s : Tasks) : TaskMove → Tasks
  | .admitTask taskId caseId kind cancellable save =>
      match s.phase taskId, s.records.find? taskId with
      | .unused, none => s.admitTask taskId caseId kind cancellable save
      | _, _ => s
  | .submit taskId accepted save =>
      match s.phase taskId with
      | .admitted => s.submit taskId accepted save
      | _ => s
  | .cancel caseId taskId => (s.cancel caseId taskId).2
  | .work taskId step => s.work taskId step

/-- The tasks after any interleaving of steps since a restart. -/
def reached (receipts : Table TaskRecord.taskId) (moves : List TaskMove) :
    Tasks :=
  run step (opened receipts) moves

end Tasks

end ApexForensic.Desktop
