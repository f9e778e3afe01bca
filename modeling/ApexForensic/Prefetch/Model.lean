import ApexForensic.Registry.Model
import ApexForensic.Support.Float64

/-!
# Reading Prefetch files

The parser reads fixed header fields at offsets that depend on the format
version.  A file in a `MAM` wrapper is decompressed first and what comes out
is parsed by the same function, each time one call deeper.
-/

namespace ApexForensic.Prefetch

open ApexForensic.Support

abbrev Bytes := List UInt8

/-- The exceptions that the parser's own operations can raise. -/
inductive Fault where
  | structError
  | keyError
  | typeError
  | valueError
  | recursionError
  deriving DecidableEq, Repr

def supportedPrefetchVersions : List ℕ := [17, 23, 26, 30]

def maxMamDeclaredSize : ℕ := 64 * 1024 * 1024

def maxRawReadLength : ℕ := 1048576

def prefetchRunCountOffsets : List (ℕ × ℕ) :=
  [(17, 0x90), (23, 0x98), (26, 0xD0), (30, 0xD0)]

def prefetchLastRunOffsets : List (ℕ × List ℕ) :=
  [(17, [0x78]), (23, [0x80]), (26, [0x80]),
    (30, (List.range 8).map fun index => 0x80 + index * 8)]

/-- `table[version]` -/
def atVersion {α : Type} (table : List (ℕ × α)) (version : ℕ) :
    Except Fault α :=
  match table.lookup version with
  | some value => .ok value
  | none => .error .keyError

/-! ## Reading bytes -/

/-- `data[offset:offset + length]` -/
def slice (data : Bytes) (offset length : ℕ) : Bytes :=
  (data.drop offset).take length

/-- `struct.unpack_from`, of a little-endian number. -/
def unpackFrom (length : ℕ) (data : Bytes) (offset : ℕ) : Except Fault ℕ :=
  if offset + length ≤ data.length then
    .ok (Registry.littleEndian (slice data offset length))
  else .error .structError

def readU32 (data : Bytes) (offset : ℕ) : Except Fault (Option ℕ) :=
  if data.length < offset + 4 then .ok none
  else do
    let value ← unpackFrom 4 data offset
    return some value

/-- The text before the first NUL, and `None` when there is none. -/
def textBeforeNul (raw : Bytes) : Option String :=
  let text := (Registry.decodeUtf16 raw).takeWhile (· ≠ '\x00')
  if text.isEmpty then none else some (String.ofList text)

def readUtf16Fixed (data : Bytes) (offset charCount : ℕ) : Option String :=
  if data.length < offset + charCount * 2 then none
  else textBeforeNul (slice data offset (charCount * 2))

/-- `f"{value:08X}"` -/
def upperHex8 (value : ℕ) : String :=
  let digits := (Nat.toDigits 16 value).map Char.toUpper
  String.ofList (List.replicate (8 - digits.length) '0' ++ digits)

/-- `f"{value:08X}"` of a number that may be `None`. -/
def formatHex8 : Option ℕ → Except Fault String
  | some value => .ok (upperHex8 value)
  | none => .error .typeError

/-! ## Times -/

/-- 1601-01-01, in microseconds since 1970. -/
def windowsEpoch : ℤ := -11644473600000000

/-- The last microsecond of the year 9999. -/
def maxDatetime : ℤ := 253402300799999999

/-- `filetime_to_utc`: the instant in microseconds since 1970, when there is a
date for it. -/
def filetimeToUtc (value : ℕ) : Option ℤ :=
  if value = 0 then none
  else
    let utc := windowsEpoch + roundHalfEven (trueDiv value 10)
    if maxDatetime < utc then none else some utc

structure RunTime where
  rawFiletime : ℕ
  timestampUtc : ℤ
  fieldOffset : ℕ
  fieldLength : ℕ

/-- The loop of `_last_run_times` over the offsets of a version. -/
def runTimesAt (data : Bytes) : List ℕ → Except Fault (List RunTime)
  | [] => .ok []
  | offset :: offsets =>
      if data.length < offset + 8 then runTimesAt data offsets
      else do
        let rawFiletime ← unpackFrom 8 data offset
        match filetimeToUtc rawFiletime with
        | none => runTimesAt data offsets
        | some parsed => do
            let values ← runTimesAt data offsets
            return { rawFiletime := rawFiletime, timestampUtc := parsed
                     fieldOffset := offset, fieldLength := 8 } :: values

def lastRunTimes (data : Bytes) (version : ℕ) :
    Except Fault (List RunTime) := do
  let offsets ← atVersion prefetchLastRunOffsets version
  runTimesAt data offsets

/-! ## Artifacts -/

inductive ParseStatus where
  | success
  | partlyParsed
  | unsupported
  | corrupt
  deriving DecidableEq, Repr

structure Warning where
  code : String
  messageKey : String
  developerMessage : String

structure MamHeader where
  version : Option ℕ
  declaredDecompressedSize : Option ℕ
  supportedAlgorithm : Bool
  decompressorVersion : Option String
  decompressionStatus : String
  warningCode : String
  warningMessage : String

structure RawLocator where
  offset : ℕ
  length : ℕ
  contentSha256 : String
  fieldLength : ℕ

/-- The fields of a Prefetch artifact that depend on the file. -/
structure Fields where
  executableName : Option String
  prefetchHash : Option String
  formatVersion : Option ℕ
  fileSize : ℕ
  declaredFileSize : Option ℕ
  runCount : Option ℕ
  lastRunTimes : List RunTime
  unsupportedReason : Option String
  runCountOffset : Option ℕ
  mamHeader : Option MamHeader
  compression : Option String
  compressedFileSize : Option ℕ
  decompressedFileSize : Option ℕ
  decompressedBufferHash : Option String
  decompressionStatus : Option String

structure Artifact where
  artifactSubtype : String
  fields : Fields
  rawLocator : RawLocator
  title : String
  summary : String
  parseStatus : ParseStatus
  /-- In hundredths. -/
  confidence : ℕ
  observedAtRaw : Option ℕ
  observedAtUtc : Option ℤ
  warnings : List Warning

/-- What the parser takes from outside: the digest, and the decompressor when
it can be imported, without a result where it raises. -/
structure PrefetchPlatform where
  sha256 : Bytes → String
  decompressor : Option (Bytes → Option Bytes)
  decompressorVersion : Option String

variable (P : PrefetchPlatform)

def makeRawLocator (length : ℕ) (contentSha256 : String) (fieldLength : ℕ) :
    Except Fault RawLocator :=
  if length < 1 then .error .valueError
  else .ok
    { offset := 0
      length := min length maxRawReadLength
      contentSha256 := contentSha256
      fieldLength := fieldLength }

def noFields (fileSize : ℕ) : Fields :=
  { executableName := none
    prefetchHash := none
    formatVersion := none
    fileSize := fileSize
    declaredFileSize := none
    runCount := none
    lastRunTimes := []
    unsupportedReason := none
    runCountOffset := none
    mamHeader := none
    compression := none
    compressedFileSize := none
    decompressedFileSize := none
    decompressedBufferHash := none
    decompressionStatus := none }

def unsupportedPrefetchArtifact (originalName : String)
    (rawLocator : RawLocator) (warning : Warning) (status : ParseStatus)
    (subtype unsupportedReason : String) (formatVersion : Option ℕ)
    (fileSize : ℕ) : Artifact :=
  { artifactSubtype := subtype
    fields :=
      { noFields fileSize with
        formatVersion := formatVersion
        unsupportedReason := some unsupportedReason }
    rawLocator := rawLocator
    title := "Unsupported Prefetch: " ++ originalName
    summary :=
      "Prefetch file was not parsed as a successful execution artifact."
    parseStatus := status
    confidence := 30
    observedAtRaw := none
    observedAtUtc := none
    warnings := [warning] }

/-! ## Wrappers -/

/-- `b"MAM"` -/
def mamSignature : Bytes := [0x4D, 0x41, 0x4D]

/-- `b"SCCA"` -/
def sccaSignature : Bytes := [0x53, 0x43, 0x43, 0x41]

/-- Status, warning code and warning message of a wrapper, and what was
decompressed. -/
def mamOutcome (version declaredSize : Option ℕ) (payload : Bytes) :
    String × String × String × Option Bytes :=
  let unavailable : String × String × String × Option Bytes :=
    ("CAPABILITY_UNAVAILABLE", "PREFETCH_MAM_DECOMPRESSOR_UNAVAILABLE",
      "MAM compressed Prefetch wrapper detected; decompressor is unavailable.",
      none)
  match declaredSize with
  | none =>
      ("CORRUPT", "MAM_HEADER_TRUNCATED",
        "MAM wrapper is too short to declare decompressed size.", none)
  | some declaredSize =>
      if maxMamDeclaredSize < declaredSize then
        ("SIZE_LIMIT_EXCEEDED", "MAM_DECLARED_SIZE_LIMIT_EXCEEDED",
          "MAM wrapper declares a decompressed size above the safety limit.",
          none)
      else if version ≠ some 4 then
        ("UNSUPPORTED_ALGORITHM", "MAM_UNSUPPORTED_ALGORITHM",
          "MAM wrapper uses an unsupported compression algorithm marker.",
          none)
      else
        match P.decompressor with
        | none => unavailable
        | some decompress =>
            match decompress payload with
            | none =>
                ("CORRUPT", "MAM_DECOMPRESSION_FAILED",
                  "MAM LZXPRESS-Huffman stream could not be decompressed.",
                  none)
            | some decompressed =>
                if maxMamDeclaredSize < decompressed.length then
                  ("SIZE_LIMIT_EXCEEDED",
                    "MAM_DECOMPRESSED_SIZE_LIMIT_EXCEEDED",
                    "MAM decompressed buffer exceeded the configured " ++
                      "safety limit.",
                    none)
                else if decompressed.length ≠ declaredSize then
                  ("CORRUPT", "MAM_DECLARED_SIZE_MISMATCH",
                    "MAM decompressed size did not match the declared size.",
                    none)
                else
                  ("DECOMPRESSED", "MAM_DECOMPRESSED",
                    "MAM compressed Prefetch was decompressed.",
                    some decompressed)

/-- `struct.unpack_from("<I", data, 4)[0] if len(data) >= 8 else None` -/
def mamDeclaredSize (data : Bytes) : Except Fault (Option ℕ) :=
  if 8 ≤ data.length then do
    let value ← unpackFrom 4 data 4
    return some value
  else .ok none

def decompressMamWrapper (data : Bytes) :
    Except Fault (MamHeader × Option Bytes) := do
  let version := data[3]?.map UInt8.toNat
  let declaredSize ← mamDeclaredSize data
  let outcome := mamOutcome P version declaredSize (data.drop 8)
  return (
    { version := version
      declaredDecompressedSize := declaredSize
      supportedAlgorithm := version = some 4
      decompressorVersion := P.decompressorVersion
      decompressionStatus := outcome.1
      warningCode := outcome.2.1
      warningMessage := outcome.2.2.1 }, outcome.2.2.2)

def mamArtifact (originalName : String) (rawLocator : RawLocator)
    (mam : MamHeader) (data : Bytes) : Artifact :=
  { artifactSubtype := "PREFETCH_MAM_COMPRESSED"
    fields :=
      { noFields data.length with
        unsupportedReason := some "UNSUPPORTED_COMPRESSION"
        mamHeader := some mam
        decompressionStatus := some mam.decompressionStatus }
    rawLocator := rawLocator
    title := "Unsupported compressed Prefetch: " ++ originalName
    summary :=
      "MAM compressed Prefetch detected but could not be decompressed safely."
    parseStatus :=
      if mam.decompressionStatus = "CORRUPT" then .corrupt else .unsupported
    confidence := 40
    observedAtRaw := none
    observedAtUtc := none
    warnings :=
      [{ code := mam.warningCode
         messageKey := "warning.prefetch.unsupported_compression"
         developerMessage := mam.warningMessage }] }

/-! ## The parser -/

def runTimeWarnings (runTimes : List RunTime) : List Warning :=
  if runTimes.isEmpty then
    [{ code := "PREFETCH_LAST_RUN_TIME_UNAVAILABLE"
       messageKey := "warning.prefetch.last_run_time_unavailable"
       developerMessage :=
        "No safe last run timestamp was present in the supported header " ++
          "range." }]
  else []

/-- The artifact of a file that is in no wrapper. -/
def parseHeader (originalName : String) (rawLocator : RawLocator)
    (data : Bytes) : Except Fault Artifact := do
  if data.length < 84 then
    return unsupportedPrefetchArtifact originalName rawLocator
      { code := "PREFETCH_HEADER_TOO_SHORT"
        messageKey := "warning.prefetch.header_too_short"
        developerMessage :=
          "Prefetch file is too short for the fixed header." }
      .corrupt "PREFETCH_CORRUPT_HEADER" "HEADER_TOO_SHORT" none data.length
  let version ← readU32 data 0
  if slice data 4 4 ≠ sccaSignature then
    return unsupportedPrefetchArtifact originalName rawLocator
      { code := "PREFETCH_SIGNATURE_INVALID"
        messageKey := "warning.prefetch.signature_invalid"
        developerMessage := "Prefetch signature is not SCCA." }
      .corrupt "PREFETCH_CORRUPT_SIGNATURE" "INVALID_SIGNATURE" version
      data.length
  match version.filter (· ∈ supportedPrefetchVersions) with
  | none =>
      return unsupportedPrefetchArtifact originalName rawLocator
        { code := "PREFETCH_UNSUPPORTED_VERSION"
          messageKey := "warning.prefetch.unsupported_version"
          developerMessage :=
            "Prefetch format version is not supported by the minimal parser." }
        .unsupported "PREFETCH_UNSUPPORTED_VERSION" "UNSUPPORTED_VERSION"
        version data.length
  | some version =>
      let executableName := readUtf16Fixed data 0x10 60
      let prefetchHash ← formatHex8 (← readU32 data 0x4C)
      let headerFileSize ← readU32 data 0x0C
      let runCountOffset ← atVersion prefetchRunCountOffsets version
      let runCount ← readU32 data runCountOffset
      let runTimes ← lastRunTimes data version
      let warnings := runTimeWarnings runTimes
      return {
          artifactSubtype := "PREFETCH_V" ++ toString version
          fields :=
            { noFields data.length with
              executableName := executableName
              prefetchHash := some prefetchHash
              formatVersion := some version
              declaredFileSize := headerFileSize
              runCount := runCount
              lastRunTimes := runTimes
              runCountOffset := some runCountOffset }
          rawLocator := rawLocator
          title := "Prefetch execution candidate: " ++
            executableName.getD originalName
          summary :=
            "Prefetch metadata observed; user execution is not asserted " ++
              "from Prefetch alone."
          parseStatus := if warnings.isEmpty then .success else .partlyParsed
          confidence := if executableName.isSome then 85 else 65
          observedAtRaw := runTimes.head?.map RunTime.rawFiletime
          observedAtUtc := runTimes.head?.map RunTime.timestampUtc
          warnings := warnings }

/-- `_parse_prefetch`, with the number of calls of it that the interpreter's
recursion limit has room for. -/
def parsePrefetch (originalName : String) :
    ℕ → Bytes → Except Fault Artifact
  | 0, _ => .error .recursionError
  | frames + 1, data => do
      let rawLocator ← makeRawLocator (min (max data.length 1) 1048576)
        (P.sha256 (data.take 1048576)) (min data.length 1048576)
      if mamSignature.isPrefixOf data then
        let (mam, decompressed) ← decompressMamWrapper P data
        match decompressed with
        | some decompressed =>
            let nested ← parsePrefetch originalName frames decompressed
            return { nested with
              fields := { nested.fields with
                mamHeader := some mam
                compression := some "MAM"
                compressedFileSize := some data.length
                decompressedFileSize := some decompressed.length
                decompressedBufferHash := some (P.sha256 decompressed)
                decompressionStatus := some "DECOMPRESSED" } }
        | none => return mamArtifact originalName rawLocator mam data
      else parseHeader originalName rawLocator data

end ApexForensic.Prefetch
