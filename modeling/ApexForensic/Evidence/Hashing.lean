import ApexForensic.Domain.Errors

/-!
# Hashing a source file in chunks

A call sees one content of each file.  A digester is what was fed to it so
far; the digest function is a parameter.
-/

namespace ApexForensic.Evidence

open ApexForensic.Support ApexForensic.Domain

inductive HashAlgorithm where
  | md5 | sha1 | sha256
  deriving DecidableEq

def HashAlgorithm.value : HashAlgorithm → String
  | .md5 => "MD5"
  | .sha1 => "SHA1"
  | .sha256 => "SHA256"

/-- `hexdigest` of a hashlib object that was fed some bytes. -/
structure Platform where
  hexdigest : HashAlgorithm → List UInt8 → String

/-- What `stat` says of a file beside its size. -/
structure FileStat where
  mtimeNs : ℤ
  ctimeNs : ℤ
  device : ℤ
  inode : ℤ
  deriving DecidableEq

inductive FileEntry where
  | file (content : List UInt8) (stat : FileStat)
  | directory
  | symlink

/-- The file system, by absolute paths. -/
def Files : Type :=
  String → Option FileEntry

/-- The bytes of a regular file. -/
def Files.content (files : Files) (path : String) : Option (List UInt8) :=
  match files path with
  | some (.file content _) => some content
  | _ => none

/-- Successive `read(chunk_size)` of a stream, up to the empty one. -/
def reads (chunkSize : ℕ) : ℕ → List UInt8 → List (List UInt8)
  | 0, _ => []
  | _ + 1, [] => []
  | turns + 1, bytes =>
      bytes.take chunkSize :: reads chunkSize turns (bytes.drop chunkSize)

theorem flatten_reads {chunkSize : ℕ} (hsize : 0 < chunkSize) (turns : ℕ)
    (bytes : List UInt8) (hturns : bytes.length ≤ turns) :
    (reads chunkSize turns bytes).flatten = bytes := by
  induction turns generalizing bytes with
  | zero =>
      rw [List.length_eq_zero_iff.mp (Nat.le_zero.mp hturns)]
      rfl
  | succ turns ih =>
      cases bytes with
      | nil => rfl
      | cons b bytes =>
          rw [reads, List.flatten_cons, ih, List.take_append_drop]
          · rw [List.length_drop]
            omega
          · exact List.cons_ne_nil b bytes

structure HashComputation where
  digest : String
  bytesHashed : ℕ
  fileSize : ℕ
  chunkSize : ℕ
  startedAt : String
  completedAt : String

def operationCancelledError : PyError :=
  .apex
    { code := "OPERATION_CANCELLED"
      messageKey := "error.operation_cancelled"
      developerMessage := some "Operation was cancelled."
      target := none
      retryable := true
      details := [] }

def capabilityError (developerMessage target capability : String) : PyError :=
  .apex
    { code := "CAPABILITY_UNAVAILABLE"
      messageKey := "error.evidence.capability_unavailable"
      developerMessage := some developerMessage
      target := some target
      retryable := false
      details := [("required_capability", .str capability)] }

/-- What a hash job is run with: the chunk size, the chunk before which a
cancellation is seen, and the clock. -/
structure HashInputs where
  chunkSize : ℤ
  cancelledAfter : Option ℕ := none
  startedAt : String
  completedAt : String

section

variable (P : Platform)

/-- `compute_file` with one algorithm. -/
def computeFile (files : Files) (path : String) (algorithm : HashAlgorithm)
    (inputs : HashInputs) : Except PyError HashComputation := do
  if inputs.chunkSize ≤ 0 then
    .error (validationError "chunk_size must be greater than zero."
      (some "chunk_size") [])
  match files path with
  | some .symlink =>
      .error (capabilityError
        "Symbolic link evidence is not followed in Phase 1." "path"
        "SYMLINK_POLICY")
  | some .directory =>
      .error (capabilityError
        "Directory content hash is not defined in Phase 1." "path"
        "DIRECTORY_MANIFEST_HASH")
  | none =>
      .error (validationError "Evidence path is not a regular file."
        (some "path") [])
  | some (.file content _) =>
      let chunks := reads inputs.chunkSize.toNat content.length content
      if inputs.cancelledAfter.any fun count => count ≤ chunks.length then
        .error operationCancelledError
      else
        let fed := chunks.foldl (fun digester chunk => digester ++ chunk) []
        return {
          digest := P.hexdigest algorithm fed
          bytesHashed := (chunks.map List.length).sum
          fileSize := content.length
          chunkSize := inputs.chunkSize.toNat
          startedAt := inputs.startedAt
          completedAt := inputs.completedAt }

end

theorem foldl_append_eq_flatten (fed : List UInt8)
    (chunks : List (List UInt8)) :
    chunks.foldl (fun digester chunk => digester ++ chunk) fed =
      fed ++ chunks.flatten := by
  induction chunks generalizing fed with
  | nil => simp
  | cons chunk chunks ih => rw [List.foldl_cons, ih, List.flatten_cons,
      List.append_assoc]

theorem computeFile_eq_ok {P : Platform} {files : Files} {path : String}
    {algorithm : HashAlgorithm} {inputs : HashInputs}
    {computation : HashComputation}
    (h : computeFile P files path algorithm inputs = .ok computation) :
    ∃ content, files.content path = some content ∧
      computation.digest = P.hexdigest algorithm content := by
  unfold computeFile at h
  obtain ⟨hsize, h⟩ := check_ok h
  split at h
  · cases h
  · cases h
  · cases h
  · rename_i content stat hfile
    dsimp only at h
    split at h
    · cases h
    · have hpos : 0 < inputs.chunkSize.toNat := by omega
      refine ⟨content, by rw [Files.content, hfile], ?_⟩
      rw [← Except.ok.inj h]
      dsimp only
      rw [foldl_append_eq_flatten,
        flatten_reads hpos content.length content le_rfl, List.nil_append]

end ApexForensic.Evidence
