import ApexForensic.Partitions.Model

/-!
# The partition table parser

`partitionTable` reads the boot sector and then an MBR with its extended
chains, or a GPT, and returns the `_volume` calls the parser makes; `parse`
makes them.  The walk of an extended chain keeps the state of the source's
loop: the EBRs visited, the next one, and how the loop was left.
-/

namespace ApexForensic.Partitions

open ApexForensic.Support ApexForensic.Domain

/-! ## MBR entries -/

structure MbrEntry where
  status : ℕ
  partitionType : ℕ
  startLba : ℕ
  sectorCount : ℕ
  deriving DecidableEq

def mbrSignature : List UInt8 := [0x55, 0xAA]
def extendedTypes : List ℕ := [0x05, 0x0F, 0x85]
def protectiveMbrType : ℕ := 0xEE
def maxExtendedChain : ℕ := 128
def maxGptEntryBytes : ℕ := 16 * 1024 * 1024

/-- The entry in one of the four slots of a boot record. -/
def mbrEntry (sector : List UInt8) (index : ℕ) : MbrEntry :=
  let offset := 446 + index * 16
  { status := unpackLE 1 sector offset
    partitionType := unpackLE 1 sector (offset + 4)
    startLba := unpackLE 4 sector (offset + 8)
    sectorCount := unpackLE 4 sector (offset + 12) }

def mbrEntries (sector : List UInt8) : List MbrEntry :=
  [mbrEntry sector 0, mbrEntry sector 1, mbrEntry sector 2,
    mbrEntry sector 3]

/-- A partition type as `0x%02X`. -/
def typeText (partitionType : ℕ) : String :=
  String.ofList ('0' :: 'x' :: hexByte true (UInt8.ofNat partitionType))

def decimalText (n : ℕ) : String :=
  String.ofList (Nat.toDigits 10 n)

/-! ## Extended chains -/

/-- A logical partition with the EBR that describes it. -/
structure Logical where
  ebrLba : ℕ
  entry : MbrEntry

/-- The state in which the walk of an extended chain is left. -/
structure ChainWalk where
  logicals : List Logical
  corrupt : Bool
  visited : List ℕ
  nextEbrLba : ℕ
  endedNormally : Bool
  chainLimited : Bool

/-- The loop over EBRs.  `remaining` is how many may still be visited. -/
def walkChain (reader : Reader) (baseLba : ℕ) :
    (remaining : ℕ) → (visited : List ℕ) → (nextEbrLba : ℕ) →
      (logicals : List Logical) → Except PyError ChainWalk
  | remaining, visited, nextEbrLba, logicals =>
      if nextEbrLba ∈ visited then
        .ok ⟨logicals, false, visited, nextEbrLba, false, false⟩
      else
        match remaining with
        | 0 => .ok ⟨logicals, false, visited, nextEbrLba, false, true⟩
        | remaining + 1 => do
            let visited := nextEbrLba :: visited
            let ebr ← reader.readAt (nextEbrLba * reader.sectorSize)
              (min reader.sectorSize 512)
            if ebr.length < 512 ∨ slice ebr 510 512 ≠ mbrSignature then
              .ok ⟨logicals, true, visited, nextEbrLba, false, false⟩
            else
              let logical := mbrEntry ebr 0
              let logicals :=
                if logical.partitionType ≠ 0 ∧ 0 < logical.sectorCount then
                  logicals ++ [⟨nextEbrLba, logical⟩]
                else logicals
              let link := mbrEntry ebr 1
              if link.partitionType ∉ extendedTypes ∨ link.sectorCount = 0 then
                .ok ⟨logicals, false, visited, nextEbrLba, true, false⟩
              else
                walkChain reader baseLba remaining visited
                  (baseLba + link.startLba) logicals

def logicalSpec (firstVolumeIndex : ℕ) (logical : Logical × ℕ) :
    VolumeSpec where
  volumeIndex := firstVolumeIndex + logical.2
  scheme := .mbrExtended
  partitionType := typeText logical.1.entry.partitionType
  startLba := logical.1.ebrLba + logical.1.entry.startLba
  sectorCount := logical.1.entry.sectorCount
  isAllocated := true
  name := some ("Logical Partition " ++ decimalText (logical.2 + 1))

def corruptWarning : Warning :=
  warning "CORRUPT_EXTENDED_BOOT_RECORD"
    "Extended boot record is truncated or lacks the MBR signature."

def limitWarning : Warning :=
  warning "EXTENDED_CHAIN_LIMIT_REACHED"
    "Extended partition chain exceeded the parser safety limit."

def cycleWarning : Warning :=
  warning "EXTENDED_CHAIN_CYCLE"
    "Extended partition chain references an already visited EBR."

/-- The `_volume` calls of `_parse_extended_chain`. -/
def chainSpecs (reader : Reader) (firstVolumeIndex : ℕ) (walk : ChainWalk) :
    List VolumeSpec :=
  let stopSpec (volumes : List VolumeSpec) (w : Warning) : VolumeSpec :=
    warningSpec reader (firstVolumeIndex + volumes.length) .mbrExtended
      (walk.nextEbrLba * reader.sectorSize) w
  let volumes := walk.logicals.zipIdx.map (logicalSpec firstVolumeIndex)
  let volumes :=
    if walk.corrupt then volumes ++ [stopSpec volumes corruptWarning]
    else volumes
  if walk.chainLimited then volumes ++ [stopSpec volumes limitWarning]
  else if walk.endedNormally = false ∧ walk.nextEbrLba ∈ walk.visited then
    volumes ++ [stopSpec volumes cycleWarning]
  else volumes

/-! ## The MBR -/

/-- What a used MBR entry describes: a partition, or an extended chain. -/
inductive MbrItem where
  | primary (entry : MbrEntry)
  | extended (walk : ChainWalk)

def mbrItem (reader : Reader) (entry : MbrEntry) : Except PyError MbrItem :=
  if entry.partitionType ∈ extendedTypes then do
    let walk ← walkChain reader entry.startLba maxExtendedChain []
      entry.startLba []
    .ok (.extended walk)
  else .ok (.primary entry)

/-- The used entries of a boot record, in slot order. -/
def mbrItems (reader : Reader) (entries : List MbrEntry) :
    Except PyError (List MbrItem) :=
  (entries.filter fun entry =>
    entry.partitionType ≠ 0 ∧ entry.sectorCount ≠ 0).mapM (mbrItem reader)

def primarySpec (index : ℕ) (entry : MbrEntry) : VolumeSpec where
  volumeIndex := index
  scheme := .mbr
  partitionType := typeText entry.partitionType
  startLba := entry.startLba
  sectorCount := entry.sectorCount
  isAllocated := true
  name := some ("MBR Partition " ++ decimalText (index + 1))

def itemSpecs (reader : Reader) (index : ℕ) : MbrItem → List VolumeSpec
  | .primary entry => [primarySpec index entry]
  | .extended walk => chainSpecs reader index walk

/-- The `_volume` calls of all items, numbered from `index`. -/
def mbrSpecs (reader : Reader) : (index : ℕ) → List MbrItem → List VolumeSpec
  | _, [] => []
  | index, item :: items =>
      itemSpecs reader index item ++
        mbrSpecs reader (index + (itemSpecs reader index item).length) items

def protectiveSpec (entry : MbrEntry) : VolumeSpec where
  volumeIndex := 0
  scheme := .protectiveMbr
  partitionType := "0xEE"
  startLba := entry.startLba
  sectorCount := entry.sectorCount
  isAllocated := true
  name := some "Protective MBR"
  warnings :=
    [warning "GPT_HEADER_UNAVAILABLE"
      "Protective MBR was found but the GPT header could not be parsed."]

/-! ## The GPT -/

structure GptHeader where
  firstUsable : ℕ
  lastUsable : ℕ
  entryLba : ℕ
  entryCount : ℕ
  entrySize : ℕ
  entriesCrc : ℕ
  warnings : List Warning

structure GptEntry where
  index : ℕ
  typeGuid : List UInt8
  uniqueGuid : List UInt8
  startLba : ℕ
  endLba : ℕ
  name : Option String

def gptSignature : List UInt8 := [0x45, 0x46, 0x49, 0x20, 0x50, 0x41, 0x52, 0x54]

/-- The header with its checksum field zeroed. -/
def crcBytes (header : List UInt8) (headerSize : ℕ) : List UInt8 :=
  header.take 16 ++ [0, 0, 0, 0] ++ slice header 20 headerSize

def headerCrcWarnings (observedCrc calculatedCrc : ℕ) : List Warning :=
  if calculatedCrc ≠ observedCrc then
    [warning "GPT_HEADER_CRC_MISMATCH"
      "GPT header CRC does not match; entries are parsed with reduced confidence."
      [("expected", .int observedCrc), ("observed", .int calculatedCrc)]]
  else []

/-- A header sector, unless its signature, sizes or counts are unusable. -/
def gptHeader (header : List UInt8) : Option GptHeader :=
  let headerSize := unpackLE 4 header 12
  let entryCount := unpackLE 4 header 80
  let entrySize := unpackLE 4 header 84
  if header.length < 92 ∨ header.take 8 ≠ gptSignature then none
  else if headerSize < 92 ∨ header.length < headerSize then none
  else if entrySize < 128 ∨ entryCount = 0 then none
  else some
    { firstUsable := unpackLE 8 header 40
      lastUsable := unpackLE 8 header 48
      entryLba := unpackLE 8 header 72
      entryCount := entryCount
      entrySize := entrySize
      entriesCrc := unpackLE 4 header 88
      warnings := headerCrcWarnings (unpackLE 4 header 16)
        (crc32 (crcBytes header headerSize)) }

def entryArrayWarnings (entryBytes entriesCrc : ℕ) (data : List UInt8) :
    List Warning :=
  if data.length < entryBytes then
    [warning "GPT_ENTRY_ARRAY_TRUNCATED"
      "GPT entry array extends beyond the image boundary."
      [("declared_bytes", .int entryBytes),
       ("available_bytes", .int data.length)]]
  else
    let observed := crc32 (data.take entryBytes)
    if observed ≠ entriesCrc then
      [warning "GPT_ENTRY_CRC_MISMATCH"
        "GPT partition entry CRC does not match."
        [("expected", .int entriesCrc), ("observed", .int observed)]]
    else []

/-- The entry at an index of the entry array. -/
def gptEntry (entrySize : ℕ) (data : List UInt8) (index : ℕ) : GptEntry :=
  let entry := slice data (index * entrySize) ((index + 1) * entrySize)
  { index := index
    typeGuid := slice entry 0 16
    uniqueGuid := slice entry 16 32
    startLba := unpackLE 8 entry 32
    endLba := unpackLE 8 entry 40
    name := partitionName (slice entry 56 128) }

/-- The used entries of the array. -/
def gptEntries (entryCount entrySize : ℕ) (data : List UInt8) :
    List GptEntry :=
  ((List.range (min entryCount (data.length / entrySize))).map
    (gptEntry entrySize data)).filter fun entry =>
      entry.typeGuid ≠ List.replicate 16 0

def invalidRangeWarning (entry : GptEntry) : Warning :=
  warning "GPT_ENTRY_INVALID_RANGE"
    "GPT entry end LBA is before its start LBA."
    [("entry_index", .int entry.index), ("start_lba", .int entry.startLba),
     ("end_lba", .int entry.endLba)]

def outsideUsableWarnings (header : GptHeader) (entry : GptEntry) :
    List Warning :=
  if entry.startLba < header.firstUsable ∨
      header.lastUsable < entry.endLba then
    [warning "GPT_ENTRY_OUTSIDE_USABLE_RANGE"
      "GPT entry is outside the usable LBA range."
      [("entry_index", .int entry.index),
       ("first_usable_lba", .int header.firstUsable),
       ("last_usable_lba", .int header.lastUsable)]]
  else []

def gptSpec (reader : Reader) (header : GptHeader)
    (tableWarnings : List Warning) (entry : GptEntry × ℕ) : VolumeSpec :=
  if entry.1.endLba < entry.1.startLba then
    warningSpec reader entry.2 .gpt (entry.1.startLba * reader.sectorSize)
      (invalidRangeWarning entry.1)
  else
    { volumeIndex := entry.2
      scheme := .gpt
      partitionType := uuidText entry.1.typeGuid
      startLba := entry.1.startLba
      sectorCount := entry.1.endLba - entry.1.startLba + 1
      isAllocated := true
      name := entry.1.name
      guid := some (uuidText entry.1.uniqueGuid)
      warnings := tableWarnings
      laterWarnings := outsideUsableWarnings header entry.1 }

/-! ## The table of an image -/

/-- The used entries of the image's table, before any volume is built. -/
inductive Table where
  /-- the image has no bytes -/
  | empty
  /-- the image is listed as one volume -/
  | superfloppy (warnings : List Warning)
  | protective (entry : MbrEntry)
  | mbr (items : List MbrItem)
  /-- a GPT whose entry array passes the safety bound -/
  | gptTooLarge (header : GptHeader)
  | gpt (header : GptHeader) (warnings : List Warning)
      (entries : List GptEntry)

def tooLargeWarning (header : GptHeader) : Warning :=
  warning "GPT_ENTRY_ARRAY_TOO_LARGE"
    "GPT entry array exceeds the parser safety bound."
    [("entry_count", .int header.entryCount),
     ("entry_size", .int header.entrySize)]

/-- `_parse_gpt` as far as the table; `none` where it returns no volumes. -/
def gptTable (reader : Reader) : Except PyError (Option Table) := do
  let sector ← reader.readAt reader.sectorSize reader.sectorSize
  match gptHeader sector with
  | none => .ok none
  | some header =>
      let entryBytes := header.entryCount * header.entrySize
      let entriesOffset := header.entryLba * reader.sectorSize
      if maxGptEntryBytes < entryBytes then
        .ok (some (.gptTooLarge header))
      else if reader.size ≤ entriesOffset then .ok none
      else
        let data ← reader.readAt entriesOffset
          (min entryBytes (reader.size - entriesOffset))
        let entries := gptEntries header.entryCount header.entrySize data
        if entries.length = 0 then .ok none
        else
          .ok (some (.gpt header
            (header.warnings ++
              entryArrayWarnings entryBytes header.entriesCrc data) entries))

def shortBootWarning : Warning :=
  warning "SHORT_BOOT_SECTOR"
    "Image is smaller than a standard 512-byte boot sector."

/-- Which table the image carries, read from its boot sector on. -/
def partitionTable (reader : Reader) : Except PyError Table :=
  if reader.size = 0 then .ok .empty
  else do
    let boot ← reader.readAt 0 (min reader.sectorSize reader.size)
    if boot.length < 512 then .ok (.superfloppy [shortBootWarning])
    else if slice boot 510 512 ≠ mbrSignature then .ok (.superfloppy [])
    else
      let entries := mbrEntries boot
      match entries.find? fun entry =>
          entry.partitionType = protectiveMbrType ∧ 0 < entry.sectorCount with
      | some entry => do
          match ← gptTable reader with
          | some table => .ok table
          | none => .ok (.protective entry)
      | none => do
          let items ← mbrItems reader entries
          if (mbrSpecs reader 0 items).length = 0 then .ok (.superfloppy [])
          else .ok (.mbr items)

/-- The volumes the parser lists for a table. -/
def Table.volumes (ctx : Context) (reader : Reader) :
    Table → List EvidenceVolume
  | .empty => []
  | .superfloppy warnings =>
      [volume ctx reader (superfloppySpec reader warnings)]
  | .protective entry =>
      withUnallocatedGaps ctx reader .unpartitioned
        [volume ctx reader (protectiveSpec entry)] 0 none
  | .mbr items =>
      withUnallocatedGaps ctx reader .unpartitioned
        (markOverlaps ((mbrSpecs reader 0 items).map (volume ctx reader)))
        0 none
  | .gptTooLarge header =>
      [volume ctx reader (warningSpec reader 0 .gpt
        (header.entryLba * reader.sectorSize) (tooLargeWarning header))]
  | .gpt header warnings entries =>
      withUnallocatedGaps ctx reader .gpt
        (markOverlaps (entries.zipIdx.map fun entry =>
          volume ctx reader (gptSpec reader header warnings entry)))
        header.firstUsable (some header.lastUsable)

/-- Return allocated and unallocated ranges for the reader's logical image. -/
def parse (ctx : Context) (reader : Reader) :
    Except PyError (List EvidenceVolume) := do
  let table ← partitionTable reader
  .ok (table.volumes ctx reader)

end ApexForensic.Partitions
