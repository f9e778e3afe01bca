import ApexForensic.Registry.HiveLayout

/-!
# Carving deleted cells

Free cells, and marks of records in the slack of a bin, become candidates.
A limit stops the walk over a bin, and the walk over the bins.
-/

namespace ApexForensic.Registry

open ApexForensic.Support
open ApexForensic.Partitions (slice unpackLE hexByte)

local instance lawfulBEq_bytes : LawfulBEq (List UInt8) := inferInstance

inductive CandidateType where
  | nk
  | vk
  | sk
  deriving DecidableEq

inductive SourceRegion where
  | freeCell
  | hbinSlack
  deriving DecidableEq

inductive Confidence where
  | high
  | medium
  deriving DecidableEq

inductive InlineValue where
  | number (value : ℕ)
  | text (value : List Char)
  | hex (valueHex : List Char)
  deriving DecidableEq

/-- One candidate carved from a free cell or the slack of a bin. -/
structure Candidate where
  candidateType : CandidateType
  sourceRegion : SourceRegion
  absoluteOffset : ℕ
  length : ℕ
  hbinOffset : ℕ
  confidence : Confidence
  reasons : List String
  name : Option (List Char) := none
  valueType : Option String := none
  valueData : Option InlineValue := none
  dataReferenceOffset : Option ℕ := none
  parentCellOffset : Option ℕ := none
  incomplete : Bool := true
  overwritten : Bool := false
  rawNameHex : Option (List Char) := none
  deriving DecidableEq

def Candidate.stop (c : Candidate) : ℕ := c.absoluteOffset + c.length

/-! ## Names and values -/

/-- `raw.decode("utf-16le", errors="replace")`. -/
def decodeUtf16le : List UInt8 → List Char
  | low :: high :: rest =>
      let unit := low.toNat + 256 * high.toNat
      if 0xD800 ≤ unit ∧ unit < 0xDC00 then
        match rest with
        | low' :: high' :: rest' =>
            let unit' := low'.toNat + 256 * high'.toNat
            if 0xDC00 ≤ unit' ∧ unit' < 0xE000 then
              Char.ofNat (0x10000 + (unit - 0xD800) * 0x400 +
                (unit' - 0xDC00)) :: decodeUtf16le rest'
            else '\uFFFD' :: decodeUtf16le (low' :: high' :: rest')
        | _ => ['\uFFFD']
      else if 0xDC00 ≤ unit ∧ unit < 0xE000 then
        '\uFFFD' :: decodeUtf16le rest
      else Char.ofNat unit :: decodeUtf16le rest
  | [_] => ['\uFFFD']
  | [] => []

/-- `_decode_name`. -/
def decodeName (raw : List UInt8) (compressed : Bool) : List Char :=
  if compressed then raw.map fun byte => Char.ofNat byte.toNat
  else decodeUtf16le raw

/-- `raw.hex()`. -/
def hexText (raw : List UInt8) : List Char := raw.flatMap (hexByte false)

/-- `_decode_value`. -/
def decodeValue (raw : List UInt8) (typeId : ℕ) : InlineValue :=
  if typeId = 4 then .number (unpackLE 4 raw 0)
  else if typeId = 1 ∨ typeId = 2 then
    .text (decodeUtf16le (raw.reverse.dropWhile (· = 0)).reverse)
  else .hex (hexText raw)

/-- `_REG_TYPES.get(type_id, f"REG_TYPE_{type_id}")`. -/
def regTypeName (typeId : ℕ) : String :=
  match typeId with
  | 0 => "REG_NONE"
  | 1 => "REG_SZ"
  | 2 => "REG_EXPAND_SZ"
  | 3 => "REG_BINARY"
  | 4 => "REG_DWORD"
  | 7 => "REG_MULTI_SZ"
  | 11 => "REG_QWORD"
  | _ => "REG_TYPE_" ++ toString typeId

def maxNameBytes : ℕ := 1024

/-- `n.to_bytes(4, "little")`. -/
def toBytesLE (n : ℕ) : List UInt8 :=
  (List.range 4).map fun i => UInt8.ofNat (n / 256 ^ i)

/-! ## Candidates -/

/-- The arguments the parsers share. -/
structure Site where
  absoluteOffset : ℕ
  available : ℕ
  hbinOffset : ℕ
  sourceRegion : SourceRegion
  cellOffset : Option ℕ := none
  cellSize : Option ℕ := none

/-- `cell_offset if cell_offset is not None else absolute_offset`. -/
def Site.offset (site : Site) : ℕ := site.cellOffset.getD site.absoluteOffset

/-- `cell_size or available`. -/
def Site.length (site : Site) : ℕ :=
  if site.cellSize.getD 0 = 0 then site.available else site.cellSize.getD 0

/-- `"HIGH" if source_region == "FREE_CELL" else "MEDIUM"`. -/
def Site.confidence (site : Site) : Confidence :=
  if site.sourceRegion = .freeCell then .high else .medium

/-- `b"nk"`, `b"vk"` and `b"sk"`. -/
def CandidateType.signature : CandidateType → List UInt8
  | .nk => [0x6E, 0x6B]
  | .vk => [0x76, 0x6B]
  | .sk => [0x73, 0x6B]

section Parsers

-- `str.isprintable` of a character.
variable (isPrintable : Char → Bool)

/-- `_plausible_name`. -/
def plausibleName (name : List Char) : Bool :=
  if name = [] then false
  else if 512 < name.length ∨ '\x00' ∈ name then false
  else decide (max 1 (name.length - 1) ≤ name.countP isPrintable)

variable (data : List UInt8)

/-- `_parse_nk`. -/
def parseNk (site : Site) : Option Candidate :=
  let body := site.absoluteOffset
  if site.available < 76 then none
  else
    match u16 data (body + 72) with
    | none => none
    | some nameLength =>
        if nameLength < 1 ∨ maxNameBytes < nameLength then none
        else if site.available < 76 + nameLength then none
        else
          let flags := (u16 data (body + 2)).getD 0
          let rawName := slice data (body + 76) (body + 76 + nameLength)
          let name := decodeName rawName (flags.testBit 5)
          if plausibleName isPrintable name then
            some
              { candidateType := .nk
                sourceRegion := site.sourceRegion
                absoluteOffset := site.offset
                length := site.length
                hbinOffset := site.hbinOffset
                confidence := site.confidence
                reasons := ["signature", "bounds", "cell_length",
                  "name_length", "hbin_containment", "alignment"]
                name := some name
                parentCellOffset := u32 data (body + 16)
                rawNameHex := some (hexText rawName) }
          else none

/-- `_parse_vk`. -/
def parseVk (site : Site) : Option Candidate :=
  let body := site.absoluteOffset
  if site.available < 20 then none
  else
    match u16 data (body + 2) with
    | none => none
    | some nameLength =>
        if maxNameBytes < nameLength ∨ site.available < 20 + nameLength then
          none
        else
          let flags := (u16 data (body + 16)).getD 0
          match u32 data (body + 4), u32 data (body + 12) with
          | some rawSize, some typeId =>
              let valueLength := rawSize % 2 ^ 31
              if maxCellSize < valueLength then none
              else
                let rawName :=
                  slice data (body + 20) (body + 20 + nameLength)
                let name :=
                  if nameLength = 0 then ['@']
                  else decodeName rawName (flags.testBit 0)
                if plausibleName isPrintable name then
                  let dataReference := u32 data (body + 8)
                  let isInline := rawSize.testBit 31
                  let inlineBytes :=
                    (toBytesLE (dataReference.getD 0)).take valueLength
                  some
                    { candidateType := .vk
                      sourceRegion := site.sourceRegion
                      absoluteOffset := site.offset
                      length := site.length
                      hbinOffset := site.hbinOffset
                      confidence := site.confidence
                      reasons := ["signature", "bounds", "cell_length",
                        "name_length", "data_length", "hbin_containment",
                        "alignment"]
                      name := some name
                      valueType := some (regTypeName typeId)
                      valueData :=
                        if isInline then some (decodeValue inlineBytes typeId)
                        else none
                      dataReferenceOffset :=
                        if isInline then none else dataReference
                      incomplete := !isInline
                      rawNameHex := some (hexText rawName) }
                else none
          | _, _ => none

/-- `_candidate_from_body`. -/
def candidateFromBody (site : Site) : Option Candidate :=
  let body := site.absoluteOffset
  let signature := slice data body (body + 2)
  if signature = CandidateType.nk.signature then parseNk isPrintable data site
  else if signature = CandidateType.vk.signature then
    parseVk isPrintable data site
  else if signature = CandidateType.sk.signature then
    some
      { candidateType := .sk
        sourceRegion := site.sourceRegion
        absoluteOffset := site.offset
        length := site.length
        hbinOffset := site.hbinOffset
        confidence := .medium
        reasons := ["signature", "bounds", "hbin_containment", "alignment"] }
  else none

/-- `_candidate_from_cell`: the body stands behind the size of the cell. -/
def candidateFromCell (hbinOffset : ℕ) (cell : Cell) : Option Candidate :=
  candidateFromBody isPrintable data
    { absoluteOffset := cell.offset + 4
      available := cell.size - 4
      hbinOffset := hbinOffset
      sourceRegion := .freeCell
      cellOffset := some cell.offset
      cellSize := some cell.size }

/-- The candidate of a place in the slack of a bin. -/
def candidateFromSlack (hbin : Hbin) (relative : ℕ) : Option Candidate :=
  let absolute := hbin.offset + relative
  if slice data absolute (absolute + 2) ∉
      [CandidateType.nk.signature, CandidateType.vk.signature,
        CandidateType.sk.signature] then none
  else
    candidateFromBody isPrintable data
      { absoluteOffset := absolute
        available := min 512 (hbin.offset + hbin.size - absolute)
        hbinOffset := hbin.offset
        sourceRegion := .hbinSlack }

end Parsers

/-! ## One bin -/

/-- `max_candidates is not None and len(candidates) >= max_candidates`. -/
def limitReached (maxCandidates : Option ℕ) (candidates : List Candidate) :
    Bool :=
  maxCandidates.any fun n => n ≤ candidates.length

/-- The walk over the cells of a bin: what it has found, which bytes of the
bin it has covered, and whether the limit ended it. -/
structure CellWalk where
  candidates : List Candidate
  freeCells : ℕ
  covered : ℕ → Bool
  full : Bool

/-- `covered[start : start + size] = b"\x01" * size`. -/
def CellWalk.cover (walk : CellWalk) (start size : ℕ) : CellWalk :=
  { walk with covered := fun i =>
      (start ≤ i && i < start + size) || walk.covered i }

/-- `_slack_count`. -/
def slackCount (hbinSize : ℕ) (covered : ℕ → Bool) : ℕ :=
  (List.range hbinSize).countP fun i => !covered i

/-- `range(_HBIN_HEADER_SIZE, hbin_size - 2, 8)`. -/
def slackPlaces (hbinSize : ℕ) : List ℕ :=
  List.range' hbinHeaderSize ((hbinSize - 2 - hbinHeaderSize + 7) / 8) 8

section Carve

variable (isPrintable : Char → Bool) (data : List UInt8)
  (maxCandidates : Option ℕ)

/-- The loop over the cells of a bin. -/
def walkCells (hbin : Hbin) (cellOffset : ℕ) (walk : CellWalk) : CellWalk :=
  match _h : cellAt data hbin.stop cellOffset with
  | none => walk
  | some cell =>
      let walk := walk.cover (cellOffset - hbin.offset) cell.size
      if 0 < cell.rawSize then
        let walk := { walk with freeCells := walk.freeCells + 1 }
        match candidateFromCell isPrintable data hbin.offset cell with
        | some candidate =>
            let walk :=
              { walk with candidates := walk.candidates ++ [candidate] }
            if limitReached maxCandidates walk.candidates then
              { walk with full := true }
            else walkCells hbin cell.stop walk
        | none => walkCells hbin cell.stop walk
      else walkCells hbin cell.stop walk
termination_by hbin.stop - cellOffset
decreasing_by
  all_goals
    obtain ⟨rfl, hfits⟩ := cellAt_eq_some_iff.mp _h
    have := hfits.lt_stop
    have := hfits.stop_le
    omega

/-- The loop over the slack of a bin. -/
def scanSlack (hbin : Hbin) (covered : ℕ → Bool) :
    List ℕ → List Candidate → List Candidate
  | [], candidates => candidates
  | relative :: places, candidates =>
      if covered relative then scanSlack hbin covered places candidates
      else
        match candidateFromSlack isPrintable data hbin relative with
        | none => scanSlack hbin covered places candidates
        | some candidate =>
            let candidates := candidates ++ [candidate]
            if limitReached maxCandidates candidates then candidates
            else scanSlack hbin covered places candidates

/-- What `_carve_hbin` returns. -/
structure HbinResult where
  candidates : List Candidate
  freeCells : ℕ
  slack : ℕ

/-- `_carve_hbin`. -/
def carveHbin (hbin : Hbin) : HbinResult :=
  let start : CellWalk :=
    { candidates := []
      freeCells := 0
      covered := fun i => i < hbinHeaderSize
      full := false }
  let walk := walkCells isPrintable data maxCandidates hbin
    (hbin.offset + hbinHeaderSize) start
  let slack := slackCount hbin.size walk.covered
  if walk.full then ⟨walk.candidates, walk.freeCells, slack⟩
  else
    ⟨scanSlack isPrintable data maxCandidates hbin walk.covered
      (slackPlaces hbin.size) walk.candidates, walk.freeCells, slack⟩

end Carve

/-! ## The hive -/

structure CarvingWarning where
  code : String
  developerMessage : String
  details : List (String × Json) := []

/-- Bytes skipped before the next signature of a bin. -/
def alignmentRecovered (offset nextHbin : ℕ) : CarvingWarning :=
  { code := "REGISTRY_HBIN_ALIGNMENT_RECOVERED"
    developerMessage := "Skipped bytes before the next HBIN signature."
    details := [("offset", .int offset), ("next_hbin_offset", .int nextHbin)] }

def hbinSizeInvalid (offset : ℕ) (declared : Option ℕ) : CarvingWarning :=
  { code := "REGISTRY_HBIN_SIZE_INVALID"
    developerMessage := "HBIN size is outside safe bounds."
    details := [("offset", .int offset),
      ("declared_size", declared.elim .null fun size => .int size)] }

/-- The loop variables of `carve`. -/
structure CarveState where
  candidates : List Candidate := []
  warnings : List CarvingWarning := []
  hbinCount : ℕ := 0
  freeCellCount : ℕ := 0
  slackBytes : ℕ := 0

inductive CarvingStatus where
  | failed
  | unsupportedVersion
  | success
  /-- `"PARTIAL"`. -/
  | withoutCandidates
  deriving DecidableEq

structure CarvingReport where
  status : CarvingStatus
  candidates : List Candidate := []
  warnings : List CarvingWarning := []
  coverage : List (String × Json) := []

/-- The report of a hive that cannot be read. -/
def readFailedReport (errorType : String) : CarvingReport :=
  { status := .failed
    warnings := [
      { code := "REGISTRY_HIVE_READ_FAILED"
        developerMessage := "Registry hive could not be read for carving."
        details := [("error_type", .str errorType)] }] }

/-- The report of bytes that do not begin as a hive does. -/
def unsupportedReport (data : List UInt8) : CarvingReport :=
  { status := .unsupportedVersion
    warnings := [
      { code := "REGISTRY_HIVE_HEADER_UNSUPPORTED"
        developerMessage :=
          "Registry hive header is missing or unsupported." }]
    coverage := [("hive_size", .int data.length), ("hbin_count", .int 0)] }

/-- The report of a hive, from the loop variables. -/
def hiveReport (data : List UInt8) (state : CarveState) : CarvingReport :=
  { status := if state.candidates = [] then .withoutCandidates else .success
    candidates := state.candidates
    warnings := state.warnings
    coverage := [("hive_size", .int data.length),
      ("hbin_count", .int state.hbinCount),
      ("free_cell_count", .int state.freeCellCount),
      ("hbin_slack_bytes", .int state.slackBytes),
      ("candidate_count", .int state.candidates.length),
      ("candidate_semantics",
        .str "DELETED_CELL_CANDIDATE_NOT_OBSERVED_FACT")] }

section Hive

variable (isPrintable : Char → Bool)

/-- The loop over the bins. -/
def carveHbins (maxCandidates : Option ℕ) (data : List UInt8) (offset : ℕ)
    (state : CarveState) : CarveState :=
  match _h : headerAt data offset with
  | .missing => state
  | .skipped nextHbin =>
      carveHbins maxCandidates data nextHbin
        { state with warnings :=
            state.warnings ++ [alignmentRecovered offset nextHbin] }
  | .sizeInvalid declared =>
      { state with warnings :=
          state.warnings ++ [hbinSizeInvalid offset declared] }
  | .hbin size =>
      let result := carveHbin isPrintable data
        (maxCandidates.map fun n => n - state.candidates.length) ⟨offset, size⟩
      let state :=
        { state with
          candidates := state.candidates ++ result.candidates
          hbinCount := state.hbinCount + 1
          freeCellCount := state.freeCellCount + result.freeCells
          slackBytes := state.slackBytes + result.slack }
      if limitReached maxCandidates state.candidates then state
      else carveHbins maxCandidates data (offset + size) state
termination_by data.length - offset
decreasing_by
  · have := headerAt_skipped _h
    omega
  · obtain ⟨hge, -, hle⟩ := sizeValid_of_headerAt _h
    unfold hbinHeaderSize at hge
    omega

/-- The bytes the carver takes as a hive. -/
def Supported (data : List UInt8) : Prop :=
  hiveHeaderSize ≤ data.length ∧ data.take 4 = regfSignature

instance (data : List UInt8) : Decidable (Supported data) :=
  inferInstanceAs (Decidable (_ ∧ _))

/-- `carve`, of the bytes of the hive or the type of the error in reading
them. -/
def carve (maxCandidates : Option ℕ) (hive : Except String (List UInt8)) :
    CarvingReport :=
  match hive with
  | .error errorType => readFailedReport errorType
  | .ok data =>
      if Supported data then
        hiveReport data
          (carveHbins isPrintable maxCandidates data hiveHeaderSize {})
      else unsupportedReport data

end Hive

end ApexForensic.Registry
