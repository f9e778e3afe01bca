import ApexForensic.Partitions.Reader
import Mathlib.Data.List.Dedup

/-!
# Signature carving

`carve` scans byte ranges for signatures in windows of at most one chunk,
recognizes a bounded end for each, and stops at its scan, probe or result
limit with an offset from which the next call resumes.
-/

namespace ApexForensic.Carving

open ApexForensic.Support ApexForensic.Domain
open ApexForensic.Partitions (Reader slice unpackLE crc32)

inductive Kind where
  | png
  | jpeg
  | pdf
  | zip
  | gif
  deriving DecidableEq

def Kind.name : Kind → String
  | png => "PNG"
  | jpeg => "JPEG"
  | pdf => "PDF"
  | zip => "ZIP"
  | gif => "GIF"

def Kind.signature : Kind → List UInt8
  | png => [0x89, 0x50, 0x4E, 0x47, 0x0D, 0x0A, 0x1A, 0x0A]
  | jpeg => [0xFF, 0xD8, 0xFF]
  | pdf => [0x25, 0x50, 0x44, 0x46, 0x2D]
  | zip => [0x50, 0x4B, 0x03, 0x04]
  | gif => [0x47, 0x49, 0x46, 0x38]

def chunk : ℕ := 1024 * 1024

/-- The image library and the digest of the platform. -/
structure Platform where
  verify : List UInt8 → Bool
  sha256 : List UInt8 → String
  pillow : Bool

/-! ## Candidate lengths -/

/-- The big-endian unsigned integer of four bytes at an offset. -/
def unpackBE (data : List UInt8) (offset : ℕ) : ℕ :=
  (slice data offset (offset + 4)).foldl
    (fun value byte => 256 * value + byte.toNat) 0

/-- `data.find(marker, start)`. -/
def findFrom (marker data : List UInt8) (start : ℕ) : Option ℕ :=
  (List.range data.length).find? fun i =>
    start ≤ i ∧ (data.drop i).take marker.length = marker

theorem findFrom_bounds {marker data : List UInt8} {start offset : ℕ}
    (h : findFrom marker data start = some offset) :
    start ≤ offset ∧ offset < data.length := by
  have hfound := List.find?_some h
  have hmem := List.mem_of_find?_eq_some h
  simp only [decide_eq_true_eq] at hfound
  exact ⟨hfound.1, List.mem_range.mp hmem⟩

/-- The loop over PNG chunks. -/
def pngEnd (data : List UInt8) (offset : ℕ) : Option ℕ :=
  if offset + 12 ≤ data.length then
    let size := unpackBE data offset
    let stop := offset + size + 12
    let block := slice data (offset + 4) (stop - 4)
    if data.length < stop then none
    else if crc32 block ≠ unpackBE data (stop - 4) then none
    else if offset = 8 ∧
        (block.take 4 ≠ [0x49, 0x48, 0x44, 0x52] ∨ size ≠ 13) then none
    else if block.take 4 = [0x49, 0x45, 0x4E, 0x44] then
      if size = 0 then some stop else none
    else pngEnd data stop
  else none
termination_by data.length - offset

def endOfCentralDirectory : List UInt8 := [0x50, 0x4B, 0x05, 0x06]
def centralDirectory : List UInt8 := [0x50, 0x4B, 0x01, 0x02]

/-- The loop over end-of-central-directory records from a position on. -/
def zipEnd (data : List UInt8) (start : ℕ) : Option ℕ :=
  match hfind : findFrom endOfCentralDirectory data start with
  | none => none
  | some offset =>
      have := findFrom_bounds hfind
      if data.length < offset + 22 then none
      else
        let size := unpackLE 4 data (offset + 12)
        let central := unpackLE 4 data (offset + 16)
        let stop := offset + 22 + unpackLE 2 data (offset + 20)
        if unpackLE 2 data (offset + 4) = 0 ∧
            unpackLE 2 data (offset + 6) = 0 ∧
            unpackLE 2 data (offset + 8) = unpackLE 2 data (offset + 10) ∧
            0 < unpackLE 2 data (offset + 10) ∧ central + size = offset ∧
            stop ≤ data.length ∧
            slice data central (central + 4) = centralDirectory then
          some stop
        else zipEnd data (offset + 4)
termination_by data.length - start

def pdfEnd (data : List UInt8) : Option ℕ :=
  match findFrom [0x25, 0x25, 0x45, 0x4F, 0x46] data 5 with
  | none => none
  | some offset =>
      if (findFrom [0x6F, 0x62, 0x6A] (data.take offset) 0).isSome then
        some (offset + 5)
      else none

/-- The loop over end markers of an image, until one verifies. -/
def imageEnd (platform : Platform) (marker data : List UInt8) (start : ℕ) :
    Option ℕ :=
  match hfind : findFrom marker data start with
  | none => none
  | some offset =>
      have := findFrom_bounds hfind
      if platform.verify (data.take (offset + marker.length)) then
        some (offset + marker.length)
      else if marker = [] then none
      else imageEnd platform marker data (offset + marker.length)
termination_by data.length - start
decreasing_by
  have : 0 < marker.length := List.length_pos_iff.mpr ‹_›
  omega

/-- Recognize a bounded end of a candidate. -/
def candidateLength (platform : Platform) (kind : Kind) (data : List UInt8) :
    Option ℕ :=
  match kind with
  | .png => pngEnd data 8
  | .zip => zipEnd data 0
  | .pdf => pdfEnd data
  | .jpeg => imageEnd platform [0xFF, 0xD9] data 3
  | .gif => imageEnd platform [0x3B] data 4

/-! ## One scan -/

/-- What is scanned: the image, the ranges and formats, and the bound on the
length of a candidate. -/
structure Job where
  reader : Reader
  ranges : List (ℕ × ℕ)
  formats : List Kind
  maxFileBytes : ℕ

/-- A signature at an offset. -/
structure Hit where
  offset : ℕ
  kind : Kind
  deriving DecidableEq

structure Candidate where
  format : Kind
  offset : ℕ
  length : ℕ
  sha256 : String
  deriving DecidableEq

structure Limits where
  maxScanBytes : ℕ
  maxResults : ℕ

/-- Where a scan stops early: out of scan budget at a cursor of a range, out
of probe budget before a hit, or after the last allowed result. -/
inductive Stop where
  | scanBudget (rangeStart rangeEnd cursor : ℕ)
  | probeBudget (absolute : ℕ)
  | results (absolute : ℕ)
  deriving DecidableEq

/-- The `next_offset` of a stopped scan. -/
def Stop.nextOffset : Stop → ℕ
  | scanBudget rangeStart _ cursor => max rangeStart (cursor - 16)
  | probeBudget absolute => absolute
  | results absolute => absolute + 1

/-- The part of the result the loops update; the scan is partial when it
stopped. -/
structure Scan where
  candidates : List Candidate := []
  scannedBytes : ℕ := 0
  candidateReadBytes : ℕ := 0
  skippedSignatures : ℕ := 0
  stop : Option Stop := none
  warnings : List String :=
    ["CONTIGUOUS_SIGNATURE_CARVING; fragmented files may be incomplete"]
  deriving DecidableEq

/-- The positions `find` returns one after the other. -/
def occurrences (marker window : List UInt8) : List ℕ :=
  (List.range window.length).filter fun i =>
    (window.drop i).take marker.length = marker

def hitLE (a b : Hit) : Prop :=
  a.offset < b.offset ∨ (a.offset = b.offset ∧ a.kind.name ≤ b.kind.name)

instance : DecidableRel hitLE := fun a b =>
  inferInstanceAs (Decidable (a.offset < b.offset ∨
    (a.offset = b.offset ∧ a.kind.name ≤ b.kind.name)))

/-- The sorted set of the hits of a window that end behind the cursor. -/
def windowHits (formats : List Kind) (window : List UInt8)
    (origin cursor : ℕ) : List Hit :=
  (formats.flatMap fun kind =>
    ((occurrences kind.signature window).map fun position =>
      (⟨origin + position, kind⟩ : Hit)).filter fun hit =>
        cursor < hit.offset + kind.signature.length).dedup.insertionSort hitLE

section Scan

variable (platform : Platform) (job : Job) (limits : Option Limits)

/-- Read a candidate block by block until its end is recognized. -/
def probe (kind : Kind) (absolute available : ℕ) (candidate : List UInt8) :
    Except PyError (List UInt8 × Option ℕ) :=
  if candidate.length < available then do
    let block ← job.reader.readAt (absolute + candidate.length)
      (min chunk (available - candidate.length))
    if block = [] then .ok (candidate, none)
    else
      match candidateLength platform kind (candidate ++ block) with
      | some size => .ok (candidate ++ block, some size)
      | none => probe kind absolute available (candidate ++ block)
  else .ok (candidate, none)
termination_by available - candidate.length
decreasing_by
  have : 0 < block.length := List.length_pos_iff.mpr ‹_›
  simp only [List.length_append]
  omega

def probeBudgetReached (candidateReadBytes : ℕ) : Prop :=
  ∃ l ∈ limits, max job.maxFileBytes (l.maxScanBytes * 4) ≤ candidateReadBytes

instance (candidateReadBytes : ℕ) :
    Decidable (probeBudgetReached job limits candidateReadBytes) :=
  inferInstanceAs (Decidable (∃ l ∈ limits,
    max job.maxFileBytes (l.maxScanBytes * 4) ≤ candidateReadBytes))

def resultsReached (candidates : List Candidate) : Prop :=
  ∃ l ∈ limits, l.maxResults ≤ candidates.length

instance (candidates : List Candidate) :
    Decidable (resultsReached limits candidates) :=
  inferInstanceAs (Decidable (∃ l ∈ limits, l.maxResults ≤ candidates.length))

/-- The candidate of a hit whose end was recognized. -/
def candidate (hit : Hit) (data : List UInt8) (size : ℕ) : Candidate where
  format := hit.kind
  offset := hit.offset
  length := size
  sha256 := platform.sha256 (data.take size)

/-- A hit without a recognized end was read. -/
def Scan.skip (scan : Scan) (read : ℕ) : Scan :=
  { scan with
    candidateReadBytes := scan.candidateReadBytes + read
    skippedSignatures := scan.skippedSignatures + 1 }

/-- A hit was read and its candidate written. -/
def Scan.report (scan : Scan) (read : ℕ) (c : Candidate) : Scan :=
  { scan with
    candidateReadBytes := scan.candidateReadBytes + read
    candidates := scan.candidates ++ [c] }

/-- A window of some bytes is done. -/
def Scan.advance (scan : Scan) (length : ℕ) : Scan :=
  { scan with scannedBytes := scan.scannedBytes + length }

/-- The loop over the hits of a window.  The output file of a candidate is
named by its offset and kind, and is never overwritten. -/
def scanHits (rangeEnd : ℕ) : List Hit → Scan → Except PyError Scan
  | [], scan => .ok scan
  | hit :: hits, scan =>
      if probeBudgetReached job limits scan.candidateReadBytes then
        .ok { scan with
          stop := some (.probeBudget hit.offset)
          warnings := scan.warnings ++ ["CANDIDATE_READ_BUDGET_REACHED"] }
      else do
        let (data, found) ← probe platform job hit.kind hit.offset
          (min job.maxFileBytes (rangeEnd - hit.offset)) []
        match found with
        | none => scanHits rangeEnd hits (scan.skip data.length)
        | some size =>
            if ∃ c ∈ scan.candidates,
                c.offset = hit.offset ∧ c.format = hit.kind then
              .error (stateConflictError
                "Derived output already exists; overwrite is disabled."
                (some "output_root"))
            else
              let scan := scan.report data.length
                (candidate platform hit data size)
              if resultsReached limits scan.candidates then
                .ok { scan with stop := some (.results hit.offset) }
              else scanHits rangeEnd hits scan

/-- What is left of the scan budget. -/
def remaining (scannedBytes : ℕ) : Option ℕ :=
  limits.map fun l => l.maxScanBytes - scannedBytes

/-- How many bytes the next window reads. -/
def windowLength (scannedBytes left : ℕ) : ℕ :=
  match remaining limits scannedBytes with
  | none => min chunk left
  | some budget => min (min chunk budget) left

/-- The loop over the windows of a range. -/
def scanRange (rangeStart rangeEnd cursor : ℕ) (tail : List UInt8)
    (scan : Scan) : Except PyError Scan :=
  if cursor < rangeEnd then
    if remaining limits scan.scannedBytes = some 0 then
      .ok { scan with stop := some (.scanBudget rangeStart rangeEnd cursor) }
    else do
      let data ← job.reader.readAt cursor
        (windowLength limits scan.scannedBytes (rangeEnd - cursor))
      if data = [] then
        .error (validationError "Image changed during carving." none [])
      else do
        let window := tail ++ data
        let scan ← scanHits platform job limits rangeEnd
          (windowHits job.formats window (cursor - tail.length) cursor) scan
        let scan := scan.advance data.length
        if scan.stop.isSome then .ok scan
        else
          scanRange rangeStart rangeEnd (cursor + data.length)
            (window.drop (window.length - 16)) scan
  else .ok scan
termination_by rangeEnd - cursor
decreasing_by
  have : 0 < data.length := List.length_pos_iff.mpr ‹_›
  omega

/-- The loop over the ranges. -/
def scanRanges (startOffset : ℕ) :
    List (ℕ × ℕ) → Scan → Except PyError Scan
  | [], scan => .ok scan
  | (start, length) :: ranges, scan =>
      let cursor := max start startOffset
      let rangeEnd := min (start + length) job.reader.size
      if rangeEnd ≤ cursor then scanRanges startOffset ranges scan
      else do
        let scan ← scanRange platform job limits start rangeEnd cursor [] scan
        if scan.stop.isSome then .ok scan
        else scanRanges startOffset ranges scan

end Scan

/-! ## A call -/

/-- The checks before a call scans. -/
def checkArguments (platform : Platform) (job : Job) (limits : Limits) :
    Except PyError Unit :=
  if job.formats = [] ∨
      ¬ (1 ≤ limits.maxScanBytes ∧ limits.maxScanBytes ≤ 1024 ^ 4) ∨
      ¬ (1024 ≤ job.maxFileBytes ∧ job.maxFileBytes ≤ 256 * chunk) ∨
      ¬ (1 ≤ limits.maxResults ∧ limits.maxResults ≤ 10000) then
    .error (validationError "Invalid carving limits or formats." none [])
  else if (Kind.jpeg ∈ job.formats ∨ Kind.gif ∈ job.formats) ∧
      platform.pillow = false then
    .error (unsupportedCapabilityError "JPEG/GIF carving requires Pillow."
      "PILLOW_IMAGE_VALIDATION")
  else .ok ()

/-- The warning a call adds when it skipped signatures. -/
def finish (scan : Scan) : Scan :=
  if 0 < scan.skippedSignatures then
    { scan with warnings := scan.warnings ++
        ["INVALID_OR_INCOMPLETE_SIGNATURES_SKIPPED; max_file_bytes applies"] }
  else scan

def carve (platform : Platform) (job : Job) (limits : Limits)
    (startOffset : ℕ) : Except PyError Scan := do
  checkArguments platform job limits
  let scan ← scanRanges platform job (some limits) startOffset job.ranges {}
  .ok (finish scan)

/-- The same scan from the first byte without limits. -/
def carveUnlimited (platform : Platform) (job : Job) : Except PyError Scan := do
  let scan ← scanRanges platform job none 0 job.ranges {}
  .ok (finish scan)

end ApexForensic.Carving
