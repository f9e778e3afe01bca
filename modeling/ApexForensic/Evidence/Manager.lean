import ApexForensic.Domain.Table
import ApexForensic.Domain.Rows
import ApexForensic.Evidence.Hashing
import ApexForensic.Support.PyText
import ApexForensic.Support.Service

/-!
# The evidence manager

Registering a source with the fingerprint of its bytes, storing hashes of it,
and comparing the latest stored hash with a fresh one.  Paths are absolute and
resolved.
-/

namespace ApexForensic.Evidence

open ApexForensic.Support ApexForensic.Domain

inductive EvidenceFormat where
  | directory | raw | dd | img | e01 | vhd | vhdx
  deriving DecidableEq

inductive EvidenceStatus where
  | registered | hashing | ready | failed
  deriving DecidableEq

inductive HashVerificationStatus where
  | notChecked | isMatch | mismatch | error
  deriving DecidableEq

structure PhysicalSource where
  path : String
  size : ℕ
  stat : FileStat
  deriving DecidableEq

/-- The physical segments of a source with their identity and times. -/
structure SourceIdentity where
  format : EvidenceFormat
  sources : List PhysicalSource
  deriving DecidableEq

structure EvidenceFingerprint where
  algorithm : HashAlgorithm
  value : String
  sizeBytes : ℕ
  createdAt : String

/-- A row of `evidence`; of its metadata, the source identity. -/
structure EvidenceRow where
  evidenceId : String
  caseId : String
  displayName : String
  sourcePath : String
  evidenceType : EvidenceFormat
  sizeBytes : ℕ
  status : EvidenceStatus
  fingerprint : Option EvidenceFingerprint
  sourceIdentity : Option SourceIdentity
  createdAt : String
  updatedAt : String

structure HashRecord where
  hashId : String
  evidenceId : String
  algorithm : HashAlgorithm
  digest : String
  calculatedAt : String
  fileSize : ℕ
  chunkSize : ℕ
  verified : Bool
  verificationStatus : HashVerificationStatus
  bytesHashed : ℕ
  startedAt : String
  completedAt : String
  jobId : String

structure HashVerification where
  verificationId : String
  evidenceId : String
  caseId : String
  algorithm : HashAlgorithm
  expectedDigest : String
  observedDigest : Option String
  status : HashVerificationStatus
  verifiedAt : String
  jobId : String
  custodyEventId : Option String
  error : Option PyError

/-- What a finished job says: the codes of its warnings. -/
structure JobReport where
  jobId : String
  warnings : List String

structure Store where
  cases : List String
  files : Files
  evidence : Table EvidenceRow.evidenceId
  hashes : List HashRecord
  verifications : List HashVerification

def Store.empty (cases : List String) (files : Files) : Store where
  cases := cases
  files := files
  evidence := Table.empty _
  hashes := []
  verifications := []

/-! ## Sources -/

def rawReadError (developerMessage : String) : PyError :=
  .apex
    { code := "RAW_SOURCE_CHANGED"
      messageKey := codeMessageKey "RAW_SOURCE_CHANGED"
      developerMessage := some developerMessage
      target := none
      retryable := false
      details := [] }

/-- `_normalize_source_path` of a path without links in its parents. -/
def normalizeSourcePath (files : Files) (path : String) :
    Except PyError String :=
  match files path with
  | some .symlink =>
      .error (capabilityError
        "Symbolic links and reparse points are not followed in Phase 1."
        "path" "SYMLINK_POLICY")
  | none =>
      .error (validationError "Evidence path does not exist." (some "path") [])
  | some _ => .ok path

/-- `Path.suffix.lower()`. -/
def pathSuffix (path : String) : String :=
  let name := (path.toList.reverse.takeWhile (· ≠ '/')).reverse
  let ending := name.reverse.takeWhile (· ≠ '.')
  if ending.length + 1 < name.length ∧ ending ≠ [] then
    String.ofList ('.' :: ending.reverse.map Char.toLower)
  else ""

def archiveSuffixes : List String := [".zip", ".7z", ".rar", ".gz", ".tar"]

def archiveSignatures : List (List UInt8) :=
  [[0x50, 0x4b, 3, 4], [0x50, 0x4b, 5, 6], [0x50, 0x4b, 7, 8],
   [0x37, 0x7a, 0xbc, 0xaf, 0x27, 0x1c], [0x52, 0x61, 0x72, 0x21],
   [0x1f, 0x8b]]

/-- `reject_archive_image`. -/
def rejectArchiveImage (files : Files) (path : String) : Except PyError Unit :=
  match files.content path with
  | none => .ok ()
  | some content =>
      if pathSuffix path ∈ archiveSuffixes ∨
          archiveSignatures.any (fun s => s.isPrefixOf (content.take 8)) then
        .error (.apex
          { code := "ARCHIVE_REQUIRES_EXTRACTION"
            messageKey := "error.archive_requires_extraction"
            developerMessage := none
            target := some "source_path"
            retryable := false
            details := [] })
      else .ok ()

/-- `_detect_evidence_format`. -/
def detectEvidenceFormat (files : Files) (path : String) :
    Except PyError EvidenceFormat :=
  match files path with
  | some .directory => .ok .directory
  | _ => do
      rejectArchiveImage files path
      return match pathSuffix path with
        | ".e01" => .e01
        | ".dd" => .dd
        | ".img" => .img
        | ".vhdx" => .vhdx
        | ".vhd" => .vhd
        | _ => .raw

/-- The segments of an E01 image, as its reader finds them. -/
def SegmentFinder : Type :=
  Files → String → Except PyError (List String)

def physicalSource (files : Files) (path : String) : Option PhysicalSource :=
  match files path with
  | some (.file content stat) => some ⟨path, content.length, stat⟩
  | _ => none

section

variable (P : Platform) (segments : SegmentFinder)

/-- `capture_source_identity`: any failure is reported in the same way. -/
def captureSourceIdentity (files : Files) (path : String)
    (format : EvidenceFormat) : Except PyError SourceIdentity :=
  let paths :=
    if format = .e01 then (segments files path).toOption else some [path]
  match paths.bind fun paths => paths.mapM (physicalSource files) with
  | some sources => .ok ⟨format, sources⟩
  | none => .error (rawReadError
      "Image source or segment chain is unavailable or changed.")

/-- `assert_source_identity`. -/
def assertSourceIdentity (files : Files) (path : String)
    (format : EvidenceFormat) (expected : SourceIdentity) :
    Except PyError Unit := do
  let identity ← captureSourceIdentity segments files path format
  if identity ≠ expected then
    .error (rawReadError <| "Image source differs from its registered " ++
      "identity; do not reuse its index.")

/-! ## Registration -/

def defaultHashChunkSize : ℤ := 1024 * 1024
def fingerprintChunkSize : ℕ := 1024 * 1024

structure RegisterArgs where
  caseId : String
  sourcePath : String
  displayName : Option String := none

/-- What the clock, the id generator and the custody ledger return while a
source is registered, and the `st_size` of a directory. -/
structure RegisterInputs where
  now : String
  directorySize : ℕ := 0
  newId : String
  completedAt : String
  custody : Except PyError Unit := .ok ()

/-- `RawImageReader.source_fingerprint`: the digest and the size. -/
def rawSourceFingerprint (files : Files) (path : String) :
    Except PyError (String × ℕ) :=
  match files.content path with
  | none =>
      .error (validationError "Evidence path is not a regular file."
        (some "path") [])
  | some content =>
      let chunks := reads fingerprintChunkSize content.length content
      .ok (P.hexdigest .sha256
          (chunks.foldl (fun digester chunk => digester ++ chunk) []),
        (chunks.map List.length).sum)

/-- The fingerprint that registration records for a source. -/
def registrationFingerprint (files : Files) (path : String)
    (format : EvidenceFormat) (completedAt : String) :
    Except PyError (Option EvidenceFingerprint) :=
  match format with
  | .directory => .ok none
  | .raw | .dd | .img => do
      let (digest, size) ← rawSourceFingerprint P files path
      return some ⟨.sha256, digest, size, completedAt⟩
  | .e01 | .vhd | .vhdx => do
      let computation ← computeFile P files path .sha256
        { chunkSize := defaultHashChunkSize, startedAt := completedAt,
          completedAt }
      return some
        ⟨.sha256, computation.digest, computation.fileSize, completedAt⟩

/-- The identity that registration records for a source. -/
def registrationIdentity (files : Files) (path : String)
    (format : EvidenceFormat) : Except PyError (Option SourceIdentity) :=
  if format = .directory then .ok none
  else (captureSourceIdentity segments files path format).map some

/-- The row that registration stores. -/
def evidenceRow (store : Store) (args : RegisterArgs)
    (inputs : RegisterInputs) : Except PyError EvidenceRow := do
  if args.caseId ∉ store.cases then
    .error (notFoundError "CASE_NOT_FOUND" ("Case not found: " ++ args.caseId)
      (some "case_id"))
  let path ← normalizeSourcePath store.files args.sourcePath
  let format ← detectEvidenceFormat store.files path
  let identity ← registrationIdentity segments store.files path format
  let fingerprint ← registrationFingerprint P store.files path format
    inputs.completedAt
  identity.forM (assertSourceIdentity segments store.files path format)
  return {
    evidenceId := inputs.newId
    caseId := args.caseId
    displayName := args.displayName.getD path
    sourcePath := path
    evidenceType := format
    sizeBytes := (identity.bind fun i =>
      i.sources.head?.map PhysicalSource.size).getD inputs.directorySize
    status := .registered
    fingerprint
    sourceIdentity := identity
    createdAt := inputs.now
    updatedAt := inputs.now }

/-- `register_evidence`: the custody event comes after the row is stored. -/
def registerEvidence (args : RegisterArgs) (inputs : RegisterInputs) :
    Service Store PyError EvidenceRow := do
  let row ← Service.commit fun store => do
    let row ← evidenceRow P segments store args inputs
    match store.evidence.insert row with
    | some evidence => .ok (row, { store with evidence })
    | none => .error (.builtin .integrityError
        "UNIQUE constraint failed: evidence.evidence_id")
  Service.read fun _ => inputs.custody
  return row

/-! ## Hash jobs -/

def Store.getEvidence (store : Store) (evidenceId : String) :
    Except PyError EvidenceRow :=
  match store.evidence.find? evidenceId with
  | some row => .ok row
  | none => .error (notFoundError "EVIDENCE_NOT_FOUND"
      ("Evidence not found: " ++ evidenceId) (some "evidence_id"))

/-- `_ensure_hash_supported`. -/
def ensureHashSupported (row : EvidenceRow) : Except PyError Unit :=
  if row.evidenceType = .directory then
    .error (capabilityError
      ("Directory evidence hashing requires a manifest hash policy from a " ++
        "later phase.") "evidence_id" "DIRECTORY_MANIFEST_HASH")
  else .ok ()

/-- `update_evidence`. -/
def updateEvidence (row : EvidenceRow) : Service Store PyError Unit :=
  Service.commit fun store =>
    .ok ((), { store with evidence := store.evidence.put row })

def raiseError {α : Type} (error : PyError) : Service Store PyError α :=
  Service.read fun _ => .error error

/-- An `ApexError` that is no cancellation. -/
def isFailure : PyError → Bool
  | .apex error => error.code ≠ "OPERATION_CANCELLED"
  | .builtin _ _ => false

structure HashArgs where
  evidenceId : String
  algorithm : HashAlgorithm

/-- What the clock and the id generator return during a hash job. -/
structure HashJobInputs where
  hash : HashInputs
  now : String
  jobId : String
  newId : String

/-- The computation of a hash job, the row with the identity that it may
establish, and the warnings. -/
def hashOutcome (files : Files) (row : EvidenceRow) (algorithm : HashAlgorithm)
    (inputs : HashInputs) :
    Except PyError (HashComputation × EvidenceRow × List String) := do
  let wanted := decide (algorithm = .sha256 ∧ row.sourceIdentity = none)
  let legacy :=
    if wanted then
      (captureSourceIdentity segments files row.sourcePath
        row.evidenceType).toOption
    else none
  let computation ← computeFile P files row.sourcePath algorithm inputs
  let established := legacy.filter fun identity =>
    identity.sources.length = 1 && row.fingerprint.any fun fingerprint =>
      fingerprint.algorithm = .sha256 &&
        computation.digest = fingerprint.value &&
        computation.fileSize = fingerprint.sizeBytes
  match established with
  | some identity =>
      assertSourceIdentity segments files row.sourcePath row.evidenceType
        identity
      return (computation, { row with sourceIdentity := some identity }, [])
  | none =>
      return (computation, row, if wanted then ["RAW_SOURCE_CHANGED"] else [])

def hashRecord (args : HashArgs) (inputs : HashJobInputs)
    (computation : HashComputation) : HashRecord where
  hashId := inputs.newId
  evidenceId := args.evidenceId
  algorithm := args.algorithm
  digest := computation.digest
  calculatedAt := computation.completedAt
  fileSize := computation.fileSize
  chunkSize := computation.chunkSize
  verified := false
  verificationStatus := .notChecked
  bytesHashed := computation.bytesHashed
  startedAt := computation.startedAt
  completedAt := computation.completedAt
  jobId := inputs.jobId

def hashConstraints : List (String × (HashRecord → HashRecord → Bool)) :=
  [("evidence_hashes.hash_id", fun r s => r.hashId = s.hashId)]

def saveHashRecord (record : HashRecord) : Service Store PyError Unit :=
  Service.commit fun store => do
    let hashes ← insertRow hashConstraints store.hashes record
    return ((), { store with hashes })

/-- `calculate_hash`. -/
def calculateHash (args : HashArgs) (inputs : HashJobInputs) :
    Service Store PyError (HashRecord × JobReport) := do
  let row ← Service.read fun store => store.getEvidence args.evidenceId
  Service.read fun _ => ensureHashSupported row
  updateEvidence { row with status := .hashing, updatedAt := inputs.now }
  let outcome ← Service.read fun store =>
    .ok (hashOutcome P segments store.files row args.algorithm inputs.hash)
  match outcome with
  | .ok (computation, row, warnings) => do
      let record := hashRecord args inputs computation
      saveHashRecord record
      updateEvidence { row with status := .ready, updatedAt := inputs.now }
      return (record, ⟨inputs.jobId, warnings⟩)
  | .error error =>
      if isFailure error then do
        updateEvidence { row with status := .failed, updatedAt := inputs.now }
        raiseError error
      else raiseError error

/-- `latest_hash_record`. -/
def Store.latestHashRecord (store : Store) (evidenceId : String)
    (algorithm : HashAlgorithm) : Option HashRecord :=
  ((store.hashes.filter fun record =>
      record.evidenceId = evidenceId && record.algorithm = algorithm).insertionSort
    (orderBy HashRecord.calculatedAt HashRecord.hashId)).getLast?

/-- What the clock, the id generator and the custody ledger return during a
verification. -/
structure VerifyInputs where
  hash : HashInputs
  now : String
  jobId : String
  newId : String
  custody : HashVerificationStatus → Except PyError (Option String) :=
    fun _ => .ok none

def verificationConstraints :
    List (String × (HashVerification → HashVerification → Bool)) :=
  [("hash_verifications.verification_id",
      fun v w => v.verificationId = w.verificationId)]

def saveHashVerification (verification : HashVerification) :
    Service Store PyError Unit :=
  Service.commit fun store => do
    let verifications ← insertRow verificationConstraints store.verifications
      verification
    return ((), { store with verifications })

/-- `mark_hash_record_verified`. -/
def markHashRecordVerified (hashId : String)
    (status : HashVerificationStatus) : Service Store PyError Unit :=
  Service.commit fun store =>
    .ok ((), { store with
      hashes := store.hashes.map fun record =>
        if record.hashId = hashId then
          { record with verified := true, verificationStatus := status }
        else record })

/-- The comparison of a verification: the fresh digest, the status and the
custody event. -/
def verifyOutcome (files : Files) (row : EvidenceRow) (expected : HashRecord)
    (algorithm : HashAlgorithm) (inputs : VerifyInputs) :
    Except PyError
      (HashComputation × HashVerificationStatus × Option String) := do
  let computation ← computeFile P files row.sourcePath algorithm inputs.hash
  let status : HashVerificationStatus :=
    if computation.digest = expected.digest then .isMatch else .mismatch
  let custodyEventId ← inputs.custody status
  return (computation, status, custodyEventId)

/-- `verify_evidence`. -/
def verifyEvidence (args : HashArgs) (inputs : VerifyInputs) :
    Service Store PyError (HashVerification × JobReport) := do
  let row ← Service.read fun store => store.getEvidence args.evidenceId
  Service.read fun _ => ensureHashSupported row
  let expected ← Service.read fun store =>
    match store.latestHashRecord args.evidenceId args.algorithm with
    | some record => .ok record
    | none => .error (validationError
        "No stored hash exists for verification." (some "algorithm")
        [("algorithm", .str args.algorithm.value)])
  let verification : HashVerification :=
    { verificationId := inputs.newId
      evidenceId := args.evidenceId
      caseId := row.caseId
      algorithm := args.algorithm
      expectedDigest := expected.digest
      observedDigest := none
      status := .error
      verifiedAt := inputs.now
      jobId := inputs.jobId
      custodyEventId := none
      error := none }
  let outcome ← Service.read fun store =>
    .ok (verifyOutcome P store.files row expected args.algorithm inputs)
  match outcome with
  | .ok (computation, status, custodyEventId) => do
      let verification :=
        { verification with
          observedDigest := some computation.digest
          status
          verifiedAt := computation.completedAt
          custodyEventId }
      saveHashVerification verification
      markHashRecordVerified expected.hashId status
      return (verification, ⟨inputs.jobId,
        if status = .mismatch then ["HASH_MISMATCH"] else []⟩)
  | .error error =>
      if isFailure error then do
        saveHashVerification { verification with error := some error }
        raiseError error
      else raiseError error

/-! ## The manager as a system -/

/-- A call of the manager, or a change of files by others. -/
inductive Op where
  | register (args : RegisterArgs) (inputs : RegisterInputs)
  | calculateHash (args : HashArgs) (inputs : HashJobInputs)
  | verify (args : HashArgs) (inputs : VerifyInputs)
  | modify (files : Files)

def step (store : Store) : Op → Store
  | .register args inputs => (registerEvidence P segments args inputs).after store
  | .calculateHash args inputs =>
      (calculateHash P segments args inputs).after store
  | .verify args inputs => (verifyEvidence P args inputs).after store
  | .modify files => { store with files }

end

end ApexForensic.Evidence
