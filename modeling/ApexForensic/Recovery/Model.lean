import ApexForensic.Recovery.Runs
import ApexForensic.Support.Cleanup

/-!
# Recovering a deleted file from its data runs

The output is written under a temporary name, run by run, with zeros where no
run reaches or the image ends, and is published under its own name when it is
complete.  Every operation outside the service may raise, and the operation at
which it does is a parameter; so is the moment at which the cancellation token
is set.
-/

namespace ApexForensic.Recovery

open ApexForensic.Support ApexForensic.Domain
open ApexForensic.Partitions (Reader maxEvidenceReadSize)

/-! ## The surroundings of the service -/

/-- What the service asks of its surroundings. -/
inductive Operation where
  | safePath | makeTemp
  | openReader | openOutput | read | write | closeOutput | closeReader
  | assertDerived | replace | link | unlink
  | audit
  deriving DecidableEq

/-- What a call ends with: `FileExistsError` is caught where a file is
published. -/
inductive Failure where
  | raised (error : PyError)
  | fileExists

/-- The files under their paths and how many operations were asked for. -/
structure Scene where
  moment : ℕ
  files : String → Option (List UInt8)

abbrev Action := Service Scene Failure

structure Node where
  nodeId : String
  evidenceId : String
  originalName : String
  isDeleted : Bool
  fileSize : Option ℤ
  providerId : String
  providerVersion : String
  rawLocator : Json
  providerMetadata : List (String × Json)

structure Request where
  nodeId : String
  outputRoot : String
  filename : Option String
  overwrite : Bool
  useFilesystem : Bool

/-- The result of `recover_deleted_file`. -/
structure Recovered where
  nodeId : String
  evidenceId : String
  outputPath : String
  recoveredBytes : ℕ
  outputSize : ℕ
  missingRangePolicy : String
  logicalSize : ℕ
  missingRanges : List (ℕ × ℕ)
  sha256 : String
  isPartial : Bool
  readerId : String
  readerVersion : String
  providerId : String
  providerVersion : String
  rawLocator : Json

/-- The repository, the paths, and where operations raise.  A temporary name
is longer than the name it is made from. -/
structure Surroundings where
  node : String → Option Node
  evidence : String → Option Reader
  hasLedger : Bool
  fault : Operation → ℕ → Option Failure
  cancelled : ℕ → Bool
  outputPath : String → String → String
  tempPath : ℕ → String → String
  tempPath_ne : ∀ moment path, tempPath moment path ≠ path
  sha256 : List UInt8 → String
  recoverLogical : Node → Request → Action Recovered

def operationCancelledError (developerMessage : String) : PyError :=
  .apex
    { code := "OPERATION_CANCELLED"
      messageKey := "error.operation_cancelled"
      developerMessage := some developerMessage
      target := none
      retryable := true
      details := [] }

def raise {α : Type} (error : PyError) : Action α := fun s =>
  (.error (.raised error), s)

/-- Ask for an operation that raises at some moments. -/
def attempt (fault : ℕ → Option Failure) : Action Unit := fun s =>
  match fault s.moment with
  | some failure => (.error failure, { s with moment := s.moment + 1 })
  | none => (.ok (), { s with moment := s.moment + 1 })

def setFile (path : String) (content : Option (List UInt8)) :
    Action Unit := fun s =>
  (.ok (), { s with files := Function.update s.files path content })

section Service

variable (env : Surroundings)

def perform (operation : Operation) : Action Unit :=
  attempt (env.fault operation)

def checkCancel : Action Unit :=
  attempt fun moment =>
    if env.cancelled moment then
      some (.raised
        (operationCancelledError "Deleted file recovery cancelled."))
    else none

/-! ## Writing the output -/

/-- What the loop over the runs has done: what it fed to the digest, where it
is in the file, and what it reports. -/
structure Progress where
  hashed : List UInt8
  cursor : ℕ
  recovered : ℕ
  missing : List (ℕ × ℕ)

/-- `output.write(data)`. -/
def writeOutput (temp : String) (data : List UInt8) : Action Unit := do
  perform env .write
  fun s => setFile temp (some ((s.files temp).getD [] ++ data)) s

/-- The loop of `fill_missing`; it gives what the digest was fed. -/
def writeZeros (temp : String) (remaining : ℕ) (hashed : List UInt8) :
    Action (List UInt8) :=
  if remaining = 0 then pure hashed
  else do
    checkCancel env
    let zeros := List.replicate (min remaining maxEvidenceReadSize) 0
    writeOutput env temp zeros
    writeZeros temp (remaining - min remaining maxEvidenceReadSize)
      (hashed ++ zeros)
termination_by remaining
decreasing_by
  have : 0 < maxEvidenceReadSize := by decide
  omega

def fillMissing (temp : String) (start length : ℕ) (p : Progress) :
    Action Progress :=
  if length = 0 then pure p
  else do
    let hashed ← writeZeros env temp length p.hashed
    pure { p with hashed, missing := p.missing ++ [(start, length)] }

def readAt (reader : Reader) (offset length : ℕ) : Action (List UInt8) := do
  perform env .read
  Service.read fun _ => (reader.readAt offset length).mapError .raised

/-- The loop over the chunks of one run. -/
def copyRun (reader : Reader) (temp : String) (run : DataRun)
    (consumed : ℕ) (p : Progress) : Action Progress :=
  if consumed < run.byteLength then do
    checkCancel env
    let requested := min (run.byteLength - consumed) maxEvidenceReadSize
    let data ← readAt env reader (run.byteOffset + consumed) requested
    writeOutput env temp data
    let p := { p with
      hashed := p.hashed ++ data
      recovered := p.recovered + data.length
      cursor := p.cursor + data.length }
    if data.length < requested then
      let rest := run.byteLength - (consumed + data.length)
      let p ← fillMissing env temp p.cursor rest p
      pure { p with cursor := p.cursor + rest }
    else copyRun reader temp run (consumed + data.length) p
  else pure p
termination_by run.byteLength - consumed
decreasing_by
  have : 0 < maxEvidenceReadSize := by decide
  omega

def copyRuns (reader : Reader) (temp : String) :
    List DataRun → Progress → Action Progress
  | [], p => pure p
  | run :: runs, p => do
      let p ← fillMissing env temp p.cursor (run.fileOffset - p.cursor) p
      let p ← copyRun env reader temp run 0 { p with cursor := run.fileOffset }
      copyRuns reader temp runs p

/-- The body of the `with` statement. -/
def writeRuns (reader : Reader) (temp : String) (runs : List DataRun)
    (fileSize : ℕ) : Action Progress := do
  let p ← copyRuns env reader temp runs
    { hashed := [], cursor := 0, recovered := 0, missing := [] }
  fillMissing env temp p.cursor (fileSize - p.cursor) p

/-- The `with` statement: the output is closed first. -/
def writeTemporary (reader : Reader) (temp : String) (runs : List DataRun)
    (fileSize : ℕ) : Action Progress := do
  perform env .openReader
  Service.closing
    (do
      perform env .openOutput
      setFile temp (some [])
      Service.closing (writeRuns env reader temp runs fileSize)
        (perform env .closeOutput))
    (perform env .closeReader)

/-! ## Paths and publishing -/

/-- `_safe_output_path`. -/
def safeOutputPath (outputRoot filename : String) (overwrite : Bool) :
    Action String := do
  perform env .safePath
  let path := env.outputPath outputRoot filename
  fun s =>
    if (s.files path).isSome && !overwrite then
      raise (stateConflictError
        "Derived output already exists; overwrite is disabled."
        (some "output_root")) s
    else (.ok path, s)

/-- `_temporary_output_path`: a name that no file has. -/
def temporaryOutputPath (path : String) : Action String := do
  perform env .makeTemp
  fun s =>
    let temp := env.tempPath s.moment path
    if (s.files temp).isSome then (.error .fileExists, s)
    else (.ok temp, { s with files := Function.update s.files temp (some []) })

/-- `temp_path.unlink(missing_ok=True)`. -/
def unlink (temp : String) : Action Unit := do
  perform env .unlink
  setFile temp none

/-- `_publish_output`. -/
def publishOutput (temp path : String) (overwrite : Bool) : Action Unit := do
  perform env .assertDerived
  if overwrite then
    perform env .replace
    fun s => setFile path (s.files temp) s
    setFile temp none
  else
    perform env .link
    fun s =>
      if (s.files path).isSome then (.error .fileExists, s)
      else setFile path (s.files temp) s
    unlink env temp

/-- The `try` statement, with its `except` and `finally` clauses. -/
def recoverTo (reader : Reader) (path : String) (runs : List DataRun)
    (fileSize : ℕ) (overwrite : Bool) : Action Progress :=
  Service.handle
    (do
      let temp ← temporaryOutputPath env path
      Service.undoing
        (do
          let p ← writeTemporary env reader temp runs fileSize
          if p.recovered = 0 then
            raise (validationError
              "Deleted file recovery produced no bytes."
              (some "node_id") [])
          checkCancel env
          publishOutput env temp path overwrite
          pure p)
        (unlink env temp))
    (fun failure => match failure with
      | .fileExists => true
      | .raised _ => false)
    fun _ => raise (stateConflictError
      "Derived output already exists; overwrite is disabled."
      (some "output_root"))

/-- `_audit_export`. -/
def auditExport : Action Unit :=
  if env.hasLedger then perform env .audit else pure ()

/-! ## The service -/

def checkNode (nodeId : String) : Except PyError (Node × ℕ) :=
  match env.node nodeId with
  | none =>
      .error (notFoundError "FS_NODE_NOT_FOUND"
        s!"Filesystem node not found: {nodeId}" none)
  | some node =>
      if !node.isDeleted then
        .error (validationError "Only deleted file nodes can be recovered."
          (some "node_id") [])
      else
        match node.fileSize with
        | some (.ofNat size) => .ok (node, size)
        | _ =>
            .error (validationError
              "Deleted file has no recoverable logical size."
              (some "node_id") [])

/-- `provider_metadata.get("extents")`, which is to be a list with members. -/
def recordedExtents (node : Node) : Except PyError (List Json) :=
  match getKey node.providerMetadata "extents" with
  | .arr (extent :: extents) => .ok (extent :: extents)
  | _ =>
      .error (validationError
        "Deleted file has no recorded data runs for recovery."
        (some "node_id") [])

/-- `_get_evidence` and the reader of the evidence. -/
def readerFor (evidenceId : String) : Except PyError Reader :=
  match env.evidence evidenceId with
  | some reader => .ok reader
  | none =>
      .error (notFoundError "EVIDENCE_NOT_FOUND"
        s!"Evidence not found: {evidenceId}" (some "evidence_id"))

/-- The recovery is left to the file system's own reader. -/
def delegates (request : Request) (node : Node) : Bool :=
  request.useFilesystem &&
    node.providerId == "apex.pytsk_filesystem_provider"

/-- `filename or f"{node.original_name}.recovered"`. -/
def outputName (request : Request) (node : Node) : String :=
  match request.filename with
  | some name =>
      if name = "" then s!"{node.originalName}.recovered" else name
  | none => s!"{node.originalName}.recovered"

def lift {α : Type} (result : Except PyError α) : Action α :=
  Service.read fun _ => result.mapError .raised

/-- The part of the call that works from the recorded extents. -/
def recoverExtents (request : Request) (node : Node) (size : ℕ) :
    Action Recovered := do
  let extents ← lift (recordedExtents node)
  let reader ← lift (readerFor env node.evidenceId)
  let path ← safeOutputPath env request.outputRoot (outputName request node)
    request.overwrite
  let runs ← lift (recoveryRuns extents size)
  let p ← recoverTo env reader path runs size request.overwrite
  auditExport env
  pure
    { nodeId := node.nodeId
      evidenceId := node.evidenceId
      outputPath := path
      recoveredBytes := p.recovered
      outputSize := size
      missingRangePolicy := "ZERO_FILL"
      logicalSize := size
      missingRanges := p.missing
      sha256 := env.sha256 p.hashed
      isPartial := !p.missing.isEmpty
      readerId := reader.readerId
      readerVersion := reader.readerVersion
      providerId := node.providerId
      providerVersion := node.providerVersion
      rawLocator := node.rawLocator }

def recoverDeletedFile (request : Request) : Action Recovered := do
  checkCancel env
  let (node, size) ← lift (checkNode env request.nodeId)
  if delegates request node then env.recoverLogical node request
  else recoverExtents env request node size

end Service

end ApexForensic.Recovery
