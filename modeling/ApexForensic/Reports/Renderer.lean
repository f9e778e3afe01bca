import ApexForensic.Domain.Table
import ApexForensic.Reports.Export
import ApexForensic.Support.Run

/-!
# The runtime report renderer

A call renders its package in memory, writes the bytes to a temporary file of
the output root, moves that file to its name and reads the name back.  Every
step on the file system is a step of its own here, may fail where the operating
system may fail it, and interleaves with the steps of other calls.
-/

namespace ApexForensic.Reports.Renderer

open ApexForensic.Support ApexForensic.Domain

abbrev Bytes := List UInt8

/-- What the renderer takes from its platform: the full case folding of one
character, which for ASCII gives the lower case, the digest of a file, the name
of the operating system and the configured root. -/
structure RendererPlatform where
  fold : Char → List Char
  fold_ascii : ∀ c, c.toNat < 128 → fold c = [c.toLower]
  sha256 : Bytes → String
  osName : String
  derivedOutputRootId : String

/-! ## Names -/

section

variable (P : RendererPlatform)

/-- `s.casefold()`, on characters. -/
def casefold (cs : List Char) : List Char :=
  cs.flatMap P.fold

/-- `cleaned.rstrip(" .") != cleaned`. -/
def endsWithSpaceOrDot (s : String) : Bool :=
  s.toList.getLast?.any fun c => c = ' ' || c = '.'

def invalidOutput (message target : String) : PyError :=
  reportError "REPORT_OUTPUT_INVALID" message (some target) [] false

/-- `_safe_filename`; the part before the first dot is compared folded. -/
def safeFilename (filename : String) : Except PyError String :=
  let cleaned := strip filename
  let posix := String.ofList (cleaned.toList.map fun c =>
    if c = '\\' then '/' else c)
  if hasDrive cleaned ∨ isAbsolute posix ∨ (pathParts posix).length ≠ 1 ∨
      ".." ∈ pathParts posix ∨ endsWithSpaceOrDot cleaned ∨
      cleaned.toList.any forbiddenNameChar ∨
      String.ofList (casefold P (cleaned.toList.takeWhile (· ≠ '.'))) ∈
        reservedBasenames then
    .error (invalidOutput "Report output filename is not portable or safe."
      "filename")
  else .ok cleaned

/-- The format that the extension of a file name asks for. -/
def formatOf (filename : String) : Except PyError ExportFormat :=
  if ".html".toList <:+ casefold P filename.toList then .ok .html
  else if ".pdf".toList <:+ casefold P filename.toList then .ok .pdf
  else .error (invalidOutput
    "Runtime renderer supports only .html and .pdf filenames."
    "requested_filename")

/-- `MAX_RENDER_BYTES`. -/
def maxRenderBytes : ℕ := 50 * 1024 * 1024

/-- A call with what `_render_html` and `_render_pdf` make of its package. -/
structure RenderArgs where
  requestedFilename : String
  rendered : ExportFormat → Except PyError Bytes

/-- A call that has rendered its package.  Its destination is the path of its
file name under the output root. -/
structure RenderCall where
  filename : String
  format : ExportFormat
  output : Bytes

def RenderCall.destination (call : RenderCall) : List String :=
  pathParts call.filename

def prepare (args : RenderArgs) : Except PyError RenderCall := do
  let filename ← safeFilename P args.requestedFilename
  let format ← formatOf P filename
  let output ← args.rendered format
  if maxRenderBytes < output.length then
    .error (reportError "REPORT_OUTPUT_LIMIT_EXCEEDED"
      "Rendered report exceeds the maximum output size."
      (some "render_output") [] false)
  return { filename, format, output }

/-- `mkstemp(prefix=f".{filename}.", suffix=".tmp", dir=root)`, as a path from
the root. -/
def tempPath (filename random : String) : List String :=
  pathParts ("." ++ filename ++ "." ++ random ++ ".tmp")

structure RenderResult where
  outputReference : String
  filename : String
  mimeType : String
  sizeBytes : ℕ
  sha256 : String

def RenderCall.result (call : RenderCall) (sizeBytes : ℕ) (sha256 : String) :
    RenderResult where
  outputReference := "derived://" ++ P.derivedOutputRootId ++ "/" ++
    call.filename
  filename := call.filename
  mimeType := call.format.mimeType
  sizeBytes := sizeBytes
  sha256 := sha256

end

/-! ## Files and calls -/

structure OutputFile where
  path : List String
  content : Bytes
  deriving DecidableEq

abbrev Files := Table OutputFile.path

/-- What a step can raise: a `ReportError`, or an exception of another type. -/
inductive Failure where
  | report (error : PyError)
  | other (errorType : String)

def Failure.typeName : Failure → String
  | report _ => "ReportError"
  | other errorType => errorType

def collision : PyError :=
  reportError "REPORT_OUTPUT_COLLISION"
    "Report renderer refuses to overwrite an existing output file."
    (some "filename") [] false

/-- What the guarded part raises once the temporary file is gone. -/
def Failure.raised : Failure → PyError
  | report error => error
  | other errorType => reportError "REPORT_OUTPUT_WRITE_FAILED"
      "Failed to write renderer output file." (some "render_output")
      [("error_type", .str errorType)] false

def cleanupFailed (cleanupErrorType : String) (failure : Failure)
    (temp : List String) : PyError :=
  reportError "REPORT_OUTPUT_CLEANUP_FAILED"
    "Failed to remove incomplete renderer temporary output."
    (some "render_output")
    [("cleanup_error_type", .str cleanupErrorType),
      ("original_error_type", .str failure.typeName),
      ("temp_path", .str ("/".intercalate temp))] false

/-- `_restrict_temp_file_permissions` with `fchmod` failing, and without it. -/
def permissionError (P : RendererPlatform) (temp : List String) :
    Bool → PyError
  | true => reportError "REPORT_OUTPUT_PERMISSION_FAILED"
      "Failed to restrict renderer temporary output permissions."
      (some "render_output")
      [("mode", .str "0o600"), ("platform", .str P.osName)] false
  | false => reportError "REPORT_OUTPUT_PERMISSION_UNSUPPORTED"
      "The current platform does not support fd-based renderer output permissions."
      (some "render_output")
      [("mode", .str "0o600"), ("platform", .str P.osName),
        ("path", .str ("/".intercalate temp))] false

/-- Where a call stands; each phase is named by the step that comes next. -/
inductive Phase where
  | idle
  /-- The call raised before it touched the file system. -/
  | refused (error : PyError)
  | checking (call : RenderCall)
  | creating (call : RenderCall)
  | writing (call : RenderCall) (temp : List String)
  | rechecking (call : RenderCall) (temp : List String)
  | replacing (call : RenderCall) (temp : List String)
  | cleaning (call : RenderCall) (temp : List String) (failure : Failure)
  | reading (call : RenderCall)
  | sizing (call : RenderCall) (sha256 : String)
  | finished (call : RenderCall) (result : Except Failure RenderResult)

structure Renders (ι : Type) where
  files : Files
  phase : ι → Phase

/-! ## Steps -/

/-- How writing the temporary file ends. -/
inductive WriteOutcome where
  | written
  | permission (fchmod : Bool)
  | raised (errorType : String) (partially : Bytes)

/-- How `_cleanup_temp_output` ends: removing the file, or an error of `exists`
or of `unlink`. -/
inductive CleanupOutcome where
  | removed
  | existsRaised (errorType : String)
  | unlinkRaised (errorType : String)

/-- The next step of a call, with what the operating system makes of it. -/
inductive FileStep where
  | begin (args : RenderArgs)
  | exists (errorType : Option String)
  | mkstemp (random : String) (errorType : Option String)
  | write (outcome : WriteOutcome)
  | recheck (errorType : Option String)
  | replace (errorType : Option String)
  | cleanUp (outcome : CleanupOutcome)
  | read (errorType : Option String)
  | stat (errorType : Option String)

def writeFile (files : Files) (path : List String) (content : Bytes) : Files :=
  files.put ⟨path, content⟩

def removeFile (files : Files) (path : List String) : Files :=
  files.filter fun file => file.path ≠ path

/-- The next phase of a call and the files it leaves.  A step that the call is
not at does nothing. -/
def next (P : RendererPlatform) (files : Files) :
    Phase → FileStep → Phase × Files
  | .idle, .begin args =>
      match prepare P args with
      | .ok call => (.checking call, files)
      | .error error => (.refused error, files)
  | .checking call, .exists errorType =>
      match errorType, files.find? call.destination with
      | some errorType, _ => (.finished call (.error (.other errorType)), files)
      | none, some _ => (.finished call (.error (.report collision)), files)
      | none, none => (.creating call, files)
  | .creating call, .mkstemp _ (some errorType) =>
      (.finished call (.error (.other errorType)), files)
  | .creating call, .mkstemp random none =>
      let temp := tempPath call.filename random
      match files.find? temp with
      -- the name is taken: another random one is tried
      | some _ => (.creating call, files)
      | none => (.writing call temp, writeFile files temp [])
  | .writing call temp, .write outcome =>
      match outcome with
      | .written => (.rechecking call temp, writeFile files temp call.output)
      | .permission fchmod =>
          (.cleaning call temp (.report (permissionError P temp fchmod)), files)
      | .raised errorType partially =>
          (.cleaning call temp (.other errorType),
            writeFile files temp partially)
  | .rechecking call temp, .recheck errorType =>
      match errorType, files.find? call.destination with
      | some errorType, _ => (.cleaning call temp (.other errorType), files)
      | none, some _ => (.cleaning call temp (.report collision), files)
      | none, none => (.replacing call temp, files)
  | .replacing call temp, .replace (some errorType) =>
      (.cleaning call temp (.other errorType), files)
  | .replacing call temp, .replace none =>
      match files.find? temp with
      | none => (.cleaning call temp (.other "FileNotFoundError"), files)
      | some file =>
          (.reading call,
            writeFile (removeFile files temp) call.destination file.content)
  | .cleaning call temp failure, .cleanUp outcome =>
      match outcome with
      | .removed =>
          (.finished call (.error (.report failure.raised)),
            removeFile files temp)
      | .existsRaised errorType =>
          (.finished call (.error (.other errorType)), files)
      | .unlinkRaised errorType =>
          (.finished call
            (.error (.report (cleanupFailed errorType failure temp))), files)
  | .reading call, .read errorType =>
      match errorType, files.find? call.destination with
      | some errorType, _ => (.finished call (.error (.other errorType)), files)
      | none, none =>
          (.finished call (.error (.other "FileNotFoundError")), files)
      | none, some file => (.sizing call (P.sha256 file.content), files)
  | .sizing call sha256, .stat errorType =>
      match errorType, files.find? call.destination with
      | some errorType, _ => (.finished call (.error (.other errorType)), files)
      | none, none =>
          (.finished call (.error (.other "FileNotFoundError")), files)
      | none, some file =>
          (.finished call (.ok (call.result P file.content.length sha256)),
            files)
  | phase, _ => (phase, files)

section

variable {ι : Type} [DecidableEq ι]

/-- One call makes its next step. -/
structure RenderMove (ι : Type) where
  id : ι
  step : FileStep

def Renders.step (P : RendererPlatform) (s : Renders ι)
    (move : RenderMove ι) : Renders ι :=
  let (phase, files) := next P s.files (s.phase move.id) move.step
  { files, phase := Function.update s.phase move.id phase }

/-- The output root, as it was found, and no call yet. -/
def Renders.initial (files : Files) : Renders ι where
  files := files
  phase _ := .idle

def Renders.reached (P : RendererPlatform) (files : Files)
    (moves : List (RenderMove ι)) : Renders ι :=
  run (Renders.step P) (.initial files) moves

end

end ApexForensic.Reports.Renderer
