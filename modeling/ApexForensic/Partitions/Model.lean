import ApexForensic.Partitions.Reader
import ApexForensic.Support.Float64

/-!
# Partition volumes

`VolumeSpec` collects the arguments of one `_volume` call, `volume` builds the
volume from them, and `withUnallocatedGaps` lists volumes together with the
ranges between them.
-/

namespace ApexForensic.Partitions

open ApexForensic.Support ApexForensic.Domain

inductive VolumeScheme where
  | mbr
  | mbrExtended
  | gpt
  | protectiveMbr
  | superfloppy
  | unpartitioned
  deriving DecidableEq

def VolumeScheme.value : VolumeScheme → String
  | mbr => "MBR"
  | mbrExtended => "MBR_EXTENDED"
  | gpt => "GPT"
  | protectiveMbr => "PROTECTIVE_MBR"
  | superfloppy => "SUPERFLOPPY"
  | unpartitioned => "UNPARTITIONED"

structure Warning where
  code : String
  messageKey : String
  developerMessage : String
  details : List (String × Json)

/-- A parser warning; its message key is derived from its code. -/
def warning (code developerMessage : String)
    (details : List (String × Json) := []) : Warning where
  code := code
  messageKey :=
    String.ofList ("warning.partition.".toList ++ code.toList.map Char.toLower)
  developerMessage := developerMessage
  details := details

/-- The text can stand between colons. -/
def Plain (s : String) : Prop :=
  ':' ∉ s.toList

instance : DecidablePred Plain := fun s =>
  inferInstanceAs (Decidable (':' ∉ s.toList))

/-- The case and the evidence the volumes are listed for, and the name-based
identifier function of the platform.  The two ids are UUID texts. -/
structure Context where
  caseId : String
  evidenceId : String
  uuid5 : String → String
  caseId_plain : Plain caseId
  evidenceId_plain : Plain evidenceId

/-- The arguments of a `_volume` call; `laterWarnings` are appended to the
volume after it is built. -/
structure VolumeSpec where
  volumeIndex : ℕ
  scheme : VolumeScheme
  partitionType : String
  startLba : ℕ
  sectorCount : ℕ
  isAllocated : Bool
  name : Option String
  guid : Option String := none
  warnings : List Warning := []
  laterWarnings : List Warning := []

/-- Where the bytes of a volume are, with the range its table declares. -/
structure RawLocator where
  locatorType : String
  evidenceId : String
  volumeId : String
  byteOffset : ℕ
  byteLength : ℕ
  declaredByteOffset : ℕ
  declaredByteLength : ℕ
  sectorSize : ℕ
  partitionScheme : String
  readerId : String
  readerVersion : String
  parserId : String
  parserVersion : String

structure EvidenceVolume where
  volumeId : String
  caseId : String
  evidenceId : String
  volumeIndex : ℕ
  scheme : VolumeScheme
  partitionType : String
  startLba : ℕ
  endLba : ℤ
  byteOffset : ℕ
  byteLength : ℕ
  sectorSize : ℕ
  isAllocated : Bool
  rawLocator : RawLocator
  readerId : String
  readerVersion : String
  name : Option String
  guid : Option String
  warnings : List Warning

def parserId : String := "apex.partition_parser"
def parserVersion : String := "0.1.0"

/-! ## Building a volume -/

/-- The length of a declared byte range that lies in an image. -/
def clippedLength (size offset length : ℕ) : ℕ :=
  if size < offset then 0
  else if size < offset + length then size - offset
  else length

def rangeWarnings (size offset length : ℕ) : List Warning :=
  if size < offset then
    [warning "PARTITION_OFFSET_BEYOND_IMAGE"
      "Partition starts beyond the image boundary."
      [("declared_offset", .int offset), ("image_size", .int size)]]
  else if size < offset + length then
    [warning "PARTITION_RANGE_TRUNCATED"
      "Partition range extends beyond the image boundary."
      [("declared_offset", .int offset), ("declared_length", .int length),
       ("image_size", .int size)]]
  else []

def joinColon (parts : List String) : List Char :=
  List.intercalate [':'] (parts.map String.toList)

/-- The name whose identifier is the volume id. -/
def volumeName (ctx : Context) (reader : Reader) (spec : VolumeSpec) :
    String :=
  String.ofList (joinColon
    ["apex-volume-v1", ctx.caseId, ctx.evidenceId, spec.scheme.value,
     spec.partitionType, String.ofList (Nat.toDigits 10 spec.startLba),
     String.ofList (Nat.toDigits 10 (spec.sectorCount * reader.sectorSize)),
     spec.guid.getD "", if spec.isAllocated then "True" else "False"])

def volume (ctx : Context) (reader : Reader) (spec : VolumeSpec) :
    EvidenceVolume :=
  let declaredOffset := spec.startLba * reader.sectorSize
  let declaredLength := spec.sectorCount * reader.sectorSize
  let byteLength := clippedLength reader.size declaredOffset declaredLength
  let effectiveSectors :=
    if byteLength = 0 then 0 else ceilTrueDiv byteLength reader.sectorSize
  let volumeId := ctx.uuid5 (volumeName ctx reader spec)
  { volumeId := volumeId
    caseId := ctx.caseId
    evidenceId := ctx.evidenceId
    volumeIndex := spec.volumeIndex
    scheme := spec.scheme
    partitionType := spec.partitionType
    startLba := spec.startLba
    endLba := spec.startLba + effectiveSectors - 1
    byteOffset := declaredOffset
    byteLength := byteLength
    sectorSize := reader.sectorSize
    isAllocated := spec.isAllocated
    rawLocator :=
      { locatorType := "DISK_IMAGE_BYTE_RANGE"
        evidenceId := ctx.evidenceId
        volumeId := volumeId
        byteOffset := declaredOffset
        byteLength := byteLength
        declaredByteOffset := declaredOffset
        declaredByteLength := declaredLength
        sectorSize := reader.sectorSize
        partitionScheme := spec.scheme.value
        readerId := reader.readerId
        readerVersion := reader.readerVersion
        parserId := parserId
        parserVersion := parserVersion }
    readerId := reader.readerId
    readerVersion := reader.readerVersion
    name := spec.name
    guid := spec.guid
    warnings := spec.warnings ++
      rangeWarnings reader.size declaredOffset declaredLength ++
      spec.laterWarnings }

def superfloppySpec (reader : Reader) (warnings : List Warning) :
    VolumeSpec where
  volumeIndex := 0
  scheme := .superfloppy
  partitionType := "UNPARTITIONED"
  startLba := 0
  sectorCount := ceilTrueDiv reader.size reader.sectorSize
  isAllocated := true
  name := some "Unpartitioned Image"
  warnings := warnings

def warningSpec (reader : Reader) (volumeIndex : ℕ) (scheme : VolumeScheme)
    (byteOffset : ℕ) (w : Warning) : VolumeSpec where
  volumeIndex := volumeIndex
  scheme := scheme
  partitionType := "PARSER_WARNING"
  startLba := byteOffset / reader.sectorSize
  sectorCount := 0
  isAllocated := false
  name := some "Partition Parser Warning"
  warnings := [w]

def unallocatedGapSpec (reader : Reader) (volumeIndex : ℕ)
    (byteOffset byteLength : ℕ) (scheme : VolumeScheme) : VolumeSpec where
  volumeIndex := volumeIndex
  scheme := scheme
  partitionType := "UNALLOCATED"
  startLba := byteOffset / reader.sectorSize
  sectorCount := ceilTrueDiv byteLength reader.sectorSize
  isAllocated := false
  name := some "Unallocated Range"

/-! ## Overlaps -/

/-- The position of the first byte after a volume. -/
def EvidenceVolume.endOffset (v : EvidenceVolume) : ℕ :=
  v.byteOffset + v.byteLength

def offsetLengthLE (a b : EvidenceVolume × ℕ) : Prop :=
  a.1.byteOffset < b.1.byteOffset ∨
    (a.1.byteOffset = b.1.byteOffset ∧ a.1.byteLength ≤ b.1.byteLength)

instance : DecidableRel offsetLengthLE := fun a b =>
  inferInstanceAs (Decidable (a.1.byteOffset < b.1.byteOffset ∨
    (a.1.byteOffset = b.1.byteOffset ∧ a.1.byteLength ≤ b.1.byteLength)))

/-- The positions of volumes that start before an earlier one ends. -/
def overlapping (previousEnd : ℤ) : List (EvidenceVolume × ℕ) → List ℕ
  | [] => []
  | (v, position) :: rest =>
      (if (v.byteOffset : ℤ) < previousEnd then [position] else []) ++
        overlapping (max previousEnd v.endOffset) rest

def overlapWarning : Warning :=
  warning "PARTITION_OVERLAP" "Partition overlaps a previously parsed partition."

def markOverlaps (volumes : List EvidenceVolume) : List EvidenceVolume :=
  let marked :=
    overlapping (-1) (volumes.zipIdx.insertionSort offsetLengthLE)
  volumes.zipIdx.map fun v =>
    if v.2 ∈ marked then
      { v.1 with warnings := v.1.warnings ++ [overlapWarning] }
    else v.1

/-! ## Unallocated gaps -/

def offsetIdLE (a b : EvidenceVolume) : Prop :=
  a.byteOffset < b.byteOffset ∨
    (a.byteOffset = b.byteOffset ∧ a.volumeId ≤ b.volumeId)

instance : DecidableRel offsetIdLE := fun a b =>
  inferInstanceAs (Decidable (a.byteOffset < b.byteOffset ∨
    (a.byteOffset = b.byteOffset ∧ a.volumeId ≤ b.volumeId)))

section Gaps

variable (ctx : Context) (reader : Reader) (scheme : VolumeScheme)

def unallocatedGap (gapIndex byteOffset byteLength : ℕ) : EvidenceVolume :=
  volume ctx reader
    (unallocatedGapSpec reader (10000 + gapIndex) byteOffset byteLength scheme)

/-- The loop over sorted volumes: `cursor` is the end of what is listed. -/
def combineGaps (endLimit : ℕ) :
    (cursor gapIndex : ℕ) → List EvidenceVolume → List EvidenceVolume
  | cursor, gapIndex, [] =>
      if cursor < endLimit then
        [unallocatedGap ctx reader scheme gapIndex cursor (endLimit - cursor)]
      else []
  | cursor, gapIndex, v :: rest =>
      if cursor < v.byteOffset then
        unallocatedGap ctx reader scheme gapIndex cursor
            (v.byteOffset - cursor) ::
          v :: combineGaps endLimit (max cursor v.endOffset) (gapIndex + 1) rest
      else v :: combineGaps endLimit (max cursor v.endOffset) gapIndex rest

/-- `replace(volume, volume_index=index)` over the whole list. -/
def renumber (volumes : List EvidenceVolume) : List EvidenceVolume :=
  volumes.zipIdx.map fun v => { v.1 with volumeIndex := v.2 }

/-- Where the listed area starts and ends. -/
def gapEndLimit (gapEndLba : Option ℕ) : ℕ :=
  match gapEndLba with
  | none => reader.size
  | some lba => min reader.size ((lba + 1) * reader.sectorSize)

def gapStart (gapStartLba : ℕ) (gapEndLba : Option ℕ) : ℕ :=
  min (gapEndLimit reader gapEndLba) (gapStartLba * reader.sectorSize)

def withUnallocatedGaps (allocated : List EvidenceVolume)
    (gapStartLba : ℕ) (gapEndLba : Option ℕ) : List EvidenceVolume :=
  if allocated = [] then []
  else
    renumber (combineGaps ctx reader scheme (gapEndLimit reader gapEndLba)
      (gapStart reader gapStartLba gapEndLba) 0
      (allocated.insertionSort offsetIdLE))

end Gaps

end ApexForensic.Partitions
