import ApexForensic.Partitions.Reader

/-!
# Free space from allocation maps

`free_ranges` reads the allocation map of a volume and yields the byte ranges
of its free units: the zero entries of a file allocation table, or the zero
bits of a bitmap.
-/

namespace ApexForensic.FreeSpace

open ApexForensic.Support ApexForensic.Domain
open ApexForensic.Partitions (Reader slice unpackLE)

/-! ## Runs -/

/-- The run that a scan is in, and the ranges it has yielded. -/
structure RunScan where
  start : Option ℕ
  ranges : List (ℕ × ℕ)

/-- The scan after a unit; the range of a run is given by its first unit and
the first one after it. -/
def RunScan.next (range : ℕ → ℕ → ℕ × ℕ) (scan : RunScan) (index : ℕ)
    (free : Bool) : RunScan :=
  if free then ⟨some (scan.start.getD index), scan.ranges⟩
  else
    match scan.start with
    | some start => ⟨none, scan.ranges ++ [range start index]⟩
    | none => scan

/-- What the scan has yielded when it ends before a unit. -/
def RunScan.finish (range : ℕ → ℕ → ℕ × ℕ) (scan : RunScan) (stop : ℕ) :
    List (ℕ × ℕ) :=
  match scan.start with
  | some start => scan.ranges ++ [range start stop]
  | none => scan.ranges

/-! ## Bitmaps -/

def unitRange (base unit start stop : ℕ) : ℕ × ℕ :=
  (base + start * unit, (stop - start) * unit)

structure BitScan extends RunScan where
  index : ℕ

section

variable (count unit base : ℕ)

/-- The loop over the bits of a byte. -/
def scanBit (byte : UInt8) (scan : BitScan) (bit : ℕ) : BitScan :=
  if count ≤ scan.index then scan
  else
    { scan.toRunScan.next (unitRange base unit) scan.index
        (byte.toNat.testBit bit = false) with
      index := scan.index + 1 }

def scanByte (scan : BitScan) (byte : UInt8) : BitScan :=
  (List.range 8).foldl (scanBit count unit base byte) scan

/-- The loop over the reads; each read that is not empty advances it. -/
def scanBitmap (read : ℕ → ℕ → Except PyError (List UInt8)) :
    ℕ → BitScan → Except PyError BitScan
  | 0, scan => .ok scan
  | fuel + 1, scan =>
      if scan.index < count then do
        let data ← read (scan.index / 8)
          (min 65536 ((count - scan.index + 7) / 8))
        if data = [] then
          .error (validationError
            "Allocation bitmap ended before the volume boundary." none [])
        scanBitmap read fuel (data.foldl (scanByte count unit base) scan)
      else .ok scan

/-- `bitmap_runs`. -/
def bitmapRuns (read : ℕ → ℕ → Except PyError (List UInt8)) :
    Except PyError (List (ℕ × ℕ)) := do
  let scan ← scanBitmap count unit base read count ⟨⟨none, []⟩, 0⟩
  return scan.toRunScan.finish (unitRange base unit) count

end

/-! ## Boot sectors -/

/-- `data[index]`. -/
def byteAt (data : List UInt8) (index : ℕ) : Except PyError ℕ :=
  match data[index]? with
  | some byte => .ok byte.toNat
  | none => .error (.builtin .indexError "index out of range")

structure Volume where
  byteOffset : ℕ
  byteLength : ℕ

/-! ## FAT -/

/-- What `_fat` computes from the boot sector. -/
structure FatGeometry where
  sector : ℕ
  unit : ℕ
  dataSector : ℕ
  count : ℕ
  bits : ℕ
  fatStart : ℕ
  fatBytes : ℕ

/-- The width of an entry. -/
def fatBits (count : ℕ) : ℕ :=
  if count < 4085 then 12 else if count < 65525 then 16 else 32

def fatGeometry (boot : List UInt8) (base size : ℕ) :
    Except PyError FatGeometry := do
  let u (start length : ℕ) : ℕ := unpackLE length boot start
  let orElse (a b : ℕ) : ℕ := if a = 0 then b else a
  let sector := u 11 2
  let cluster ← byteAt boot 13
  let reserved := u 14 2
  let fats ← byteAt boot 16
  let fatSectors := orElse (u 22 2) (u 36 4)
  let total := orElse (u 19 2) (u 32 4)
  let dataSector :=
    reserved + fats * fatSectors + (u 17 2 * 32 + sector - 1) / sector
  let count := (min total (size / sector) - dataSector) / cluster
  if count = 0 ∨ fatSectors = 0 ∨ fats = 0 then
    .error (validationError "Invalid FAT allocation geometry." none [])
  let bits := fatBits count
  let active := u 40 2 % 16
  let mirrored := bits = 32 ∧ (u 40 2).testBit 7 = true
  if mirrored ∧ fats ≤ active then
    .error (validationError "Invalid active FAT." none [])
  return {
    sector
    unit := cluster * sector
    dataSector
    count
    bits
    fatStart :=
      base + reserved * sector +
        if mirrored then active * fatSectors * sector else 0
    fatBytes := fatSectors * sector }

/-- The part of the table read last; nothing is cached at first. -/
structure FatCache where
  offset : ℕ
  data : List UInt8

structure FatScan extends RunScan where
  cache : FatCache

def entryWidth (bits : ℕ) : ℕ :=
  if bits = 12 then 2 else bits / 8

/-- The value of an entry: twelve bits of two bytes, or all but the four
highest bits of four bytes. -/
def entryValue (bits clusterId raw : ℕ) : ℕ :=
  if bits = 12 then
    (raw >>> if clusterId % 2 = 1 then 4 else 0) &&& 0xFFF
  else if bits = 32 then raw &&& 0x0FFFFFFF
  else raw

/-- The cache that holds the entry at an offset. -/
def FatCache.serve (reader : Reader) (g : FatGeometry) (cache : FatCache)
    (offset width : ℕ) : Except PyError FatCache :=
  if cache.offset ≤ offset ∧
      offset + width ≤ cache.offset + cache.data.length then .ok cache
  else do
    let data ← reader.readAt (g.fatStart + offset)
      (min 65536 (g.fatBytes - offset))
    return ⟨offset, data⟩

/-- Where the run of clusters from one to before another lies. -/
def clusterRange (base : ℕ) (g : FatGeometry) (start stop : ℕ) : ℕ × ℕ :=
  (base + g.dataSector * g.sector + (start - 2) * g.unit,
    (stop - start) * g.unit)

/-- The loop over the clusters. -/
def scanCluster (reader : Reader) (base : ℕ) (g : FatGeometry)
    (scan : FatScan) (clusterId : ℕ) : Except PyError FatScan := do
  let offset := clusterId * g.bits / 8
  let width := entryWidth g.bits
  if g.fatBytes < offset + width then
    .error (validationError
      "FAT is smaller than its declared cluster count." none [])
  let cache ← scan.cache.serve reader g offset width
  let entry := slice cache.data (offset - cache.offset)
    (offset - cache.offset + width)
  if entry.length ≠ width then
    .error (validationError "Truncated FAT allocation table." none [])
  let value := entryValue g.bits clusterId (unpackLE width entry 0)
  return {
    scan.toRunScan.next (clusterRange base g) clusterId (value = 0) with
    cache }

/-- `_fat`. -/
def fat (reader : Reader) (boot : List UInt8) (base size : ℕ) :
    Except PyError (List (ℕ × ℕ)) := do
  let g ← fatGeometry boot base size
  let scan ← (List.range' 2 g.count).foldlM (scanCluster reader base g)
    ⟨⟨none, []⟩, ⟨0, []⟩⟩
  return scan.toRunScan.finish (clusterRange base g) (g.count + 2)

/-! ## EXT -/

structure ExtGeometry where
  unit : ℕ
  perGroup : ℕ
  first : ℕ
  blocks : ℕ
  descSize : ℕ
  table : ℕ
  deriving DecidableEq

def extGeometry (sb : List UInt8) (base size : ℕ) :
    Except PyError ExtGeometry := do
  let u (start length : ℕ) : ℕ := unpackLE length sb start
  if 6 < u 24 4 then
    .error (validationError "Invalid EXT block size." none [])
  let unit := 1024 <<< u 24 4
  let perGroup := u 32 4
  let first := u 20 4
  if (u 100 4).testBit 9 then
    .error (unsupportedCapabilityError
      "EXT bigalloc requires cluster bitmap support." "EXT_BIGALLOC")
  if (u 96 4).testBit 4 then
    .error (unsupportedCapabilityError
      "EXT meta_bg descriptor layout is unsupported." "EXT_META_BG")
  let wide := (u 96 4).testBit 7
  let blocks := if wide then u 4 4 ||| u 336 4 <<< 32 else u 4 4
  let descSize := if wide then max 32 (u 254 2) else 32
  if ¬ (0 < perGroup ∧ perGroup ≤ unit * 8) ∨ ¬ first < blocks ∨
      size < blocks * unit ∨ ¬ (32 ≤ descSize ∧ descSize ≤ unit) then
    .error (validationError "Invalid EXT allocation geometry." none [])
  return {
    unit
    perGroup
    first
    blocks
    descSize
    table := base + (if unit = 1024 then 2 else 1) * unit }

def extGroups (g : ExtGeometry) : ℕ :=
  (g.blocks - g.first + g.perGroup - 1) / g.perGroup

/-- The block of the bitmap that a descriptor names. -/
def bitmapBlock (descSize : ℕ) (descriptor : List UInt8) : ℕ :=
  if 64 ≤ descSize then
    unpackLE 4 descriptor 0 ||| unpackLE 4 descriptor 32 <<< 32
  else unpackLE 4 descriptor 0

/-- `BLOCK_UNINIT`. -/
def isUninitialized (descriptor : List UInt8) : Bool :=
  (unpackLE 2 descriptor 18).testBit 1

def skippedWarning : String :=
  "EXT_UNINITIALIZED_GROUPS_SKIPPED: allocation map coverage is incomplete"

def warnOnce (warning : String) (warnings : Option (List String)) :
    Option (List String) :=
  warnings.map fun known =>
    if warning ∈ known then known else known ++ [warning]

structure ExtScan where
  ranges : List (ℕ × ℕ)
  warnings : Option (List String)
  deriving DecidableEq

/-- The loop over the groups. -/
def scanGroup (reader : Reader) (base size : ℕ) (g : ExtGeometry)
    (scan : ExtScan) (group : ℕ) : Except PyError ExtScan := do
  if base + size < g.table + (group + 1) * g.descSize then
    .error (validationError "EXT descriptor exceeds volume." none [])
  let descriptor ← reader.readAt (g.table + group * g.descSize) g.descSize
  if descriptor.length ≠ g.descSize then
    .error (validationError "Truncated EXT descriptor." none [])
  let block := bitmapBlock g.descSize descriptor
  if isUninitialized descriptor then
    return { scan with warnings := warnOnce skippedWarning scan.warnings }
  else do
    if ¬ (0 < block ∧ block < g.blocks) then
      .error (validationError "Invalid EXT block bitmap location." none [])
    let groupStart := g.first + group * g.perGroup
    let ranges ← bitmapRuns (min g.perGroup (g.blocks - groupStart)) g.unit
      (base + groupStart * g.unit)
      fun offset amount =>
        reader.readAt (base + block * g.unit + offset) amount
    return { scan with ranges := scan.ranges ++ ranges }

/-- `_ext`. -/
def ext (reader : Reader) (sb : List UInt8) (base size : ℕ)
    (warnings : Option (List String)) : Except PyError ExtScan := do
  let g ← extGeometry sb base size
  (List.range' 0 (extGroups g)).foldlM (scanGroup reader base size g)
    ⟨[], warnings⟩

/-! ## exFAT -/

structure ExfatGeometry where
  unit : ℕ
  heapStart : ℕ
  count : ℕ
  root : ℕ
  fat : ℕ
  second : ℕ

def exfatGeometry (boot : List UInt8) (base size : ℕ) :
    Except PyError ExfatGeometry := do
  let u (start length : ℕ) : ℕ := unpackLE length boot start
  let sectorShift ← byteAt boot 108
  if ¬ (9 ≤ sectorShift ∧ sectorShift ≤ 12) then
    .error (validationError "Invalid exFAT cluster size." none [])
  let clusterShift ← byteAt boot 109
  if 24 < sectorShift + clusterShift then
    .error (validationError "Invalid exFAT cluster size." none [])
  let sector := 1 <<< sectorShift
  let unit := sector <<< clusterShift
  let heap := u 88 4
  let count := u 92 4
  let second := u 106 2 % 2
  let fat := base + u 80 4 * sector + second * u 84 4 * sector
  if count = 0 ∨ size < heap * sector + count * unit ∨
      u 84 4 * sector < (count + 2) * 4 ∨
      ¬ (base ≤ fat ∧ fat < fat + u 84 4 * sector ∧
        fat + u 84 4 * sector ≤ base + heap * sector) then
    .error (validationError "Invalid exFAT allocation geometry." none [])
  return {
    unit
    heapStart := base + heap * sector
    count
    root := u 96 4
    fat
    second }

/-- `cluster_offset`. -/
def clusterOffset (g : ExfatGeometry) (cluster : ℕ) : Except PyError ℕ :=
  if 2 ≤ cluster ∧ cluster < g.count + 2 then
    .ok (g.heapStart + (cluster - 2) * g.unit)
  else .error (validationError "Invalid exFAT cluster chain." none [])

/-- The entry of the table for a cluster. -/
def nextCluster (reader : Reader) (g : ExfatGeometry) (cluster : ℕ) :
    Except PyError ℕ := do
  let data ← reader.readAt (g.fat + cluster * 4) 4
  return unpackLE 4 data 0

/-- The offsets of the clusters of the bitmap. -/
def bitmapChain (reader : Reader) (g : ExfatGeometry) :
    ℕ → List ℕ → ℕ → List ℕ → Except PyError (List ℕ)
  | 0, _, _, chain => .ok chain
  | n + 1, visited, current, chain => do
      if current ∈ visited then
        .error (validationError "Cyclic exFAT bitmap chain." none [])
      let offset ← clusterOffset g current
      let next ← nextCluster reader g current
      bitmapChain reader g n (current :: visited) next (chain ++ [offset])

/-- Where the bitmap is: its length and the offsets of its clusters. -/
structure BitmapPlace where
  length : ℕ
  chain : List ℕ

def requiredBytes (g : ExfatGeometry) : ℕ :=
  (g.count + 7) / 8

/-- The entries of one cluster of the root directory. -/
def findBitmap (reader : Reader) (g : ExfatGeometry) (data : List UInt8) :
    List ℕ → Except PyError (Option BitmapPlace)
  | [] => .ok none
  | offset :: offsets =>
      match slice data offset (offset + 32) with
      | [] => .ok none
      | kind :: rest =>
          if kind = 0 then .ok none
          else if kind ≠ 0x81 then findBitmap reader g data offsets
          else do
            let flags ← byteAt rest 0
            if flags % 2 ≠ g.second then findBitmap reader g data offsets
            else do
              let location := unpackLE 4 (kind :: rest) 20
              let length := unpackLE 8 (kind :: rest) 24
              let required := requiredBytes g
              if ¬ (required ≤ length ∧ length ≤ required + g.unit) then
                .error (validationError "exFAT bitmap is truncated." none [])
              let chain ← bitmapChain reader g
                ((required + g.unit - 1) / g.unit) [] location []
              return some ⟨length, chain⟩

/-- The loop over the clusters of the root directory, with how many more it
may see. -/
def searchRoot (reader : Reader) (g : ExfatGeometry) :
    ℕ → List ℕ → ℕ → Except PyError BitmapPlace
  | remaining, seen, root =>
      if root < 0xFFFFFFF8 ∧ root ∉ seen then
        match remaining with
        | 0 => .error (validationError
            "exFAT root directory exceeds scan limit." none [])
        | remaining + 1 => do
            let offset ← clusterOffset g root
            let data ← reader.readAt offset g.unit
            let found ← findBitmap reader g data
              ((List.range ((data.length + 31) / 32)).map (· * 32))
            match found with
            | some place => return place
            | none => do
                let next ← nextCluster reader g root
                searchRoot reader g remaining (root :: seen) next
      else .error (validationError
        "exFAT allocation bitmap was not found." none [])

/-- `chain[index]`. -/
def chainAt (chain : List ℕ) (index : ℕ) : Except PyError ℕ :=
  match chain[index]? with
  | some offset => .ok offset
  | none => .error (.builtin .indexError "list index out of range")

/-- `read_bitmap`; each turn takes at least one byte. -/
def readBitmap (reader : Reader) (g : ExfatGeometry) (place : BitmapPlace) :
    ℕ → ℕ → ℕ → Except PyError (List UInt8)
  | 0, _, _ => .ok []
  | fuel + 1, offset, amount =>
      if amount = 0 ∨ place.length ≤ offset then .ok []
      else do
        let within := offset % g.unit
        let take := min amount (min (g.unit - within) (place.length - offset))
        let start ← chainAt place.chain (offset / g.unit)
        let block ← reader.readAt (start + within) take
        if block.length ≠ take then
          .error (validationError "Truncated exFAT bitmap cluster." none [])
        let rest ← readBitmap reader g place fuel (offset + take)
          (amount - take)
        return block ++ rest

/-- `_exfat`. -/
def exfat (reader : Reader) (boot : List UInt8) (base size : ℕ) :
    Except PyError (List (ℕ × ℕ)) := do
  let g ← exfatGeometry boot base size
  let place ← searchRoot reader g 65536 [] g.root
  bitmapRuns g.count g.unit g.heapStart fun offset amount =>
    readBitmap reader g place amount offset amount

/-! ## Dispatch -/

/-- What the code asks of an open NTFS file system. -/
structure TskFileSystem where
  blockSize : ℕ
  blockCount : ℕ
  blockSize_pos : 0 < blockSize
  readBitmapMeta : ℕ → ℕ → Except PyError (List UInt8)

/-- The file systems that are told apart. -/
inductive Format where
  | ntfs
  | exfat
  | ext
  | fat
  | unsupported
  deriving DecidableEq

def detectFormat (boot : List UInt8) : Except PyError Format := do
  if slice boot 3 11 = "NTFS    ".toUTF8.toList then return .ntfs
  else if slice boot 3 11 = "EXFAT   ".toUTF8.toList then return .exfat
  else if slice boot 1080 1082 = [0x53, 0xEF] then return .ext
  else if unpackLE 2 boot 11 ∈ [512, 1024, 2048, 4096] then do
    let cluster ← byteAt boot 13
    if cluster ∈ [1, 2, 4, 8, 16, 32, 64, 128] then return .fat
    else return .unsupported
  else return .unsupported

/-- `free_ranges`, with the warnings it leaves. -/
def freeRanges (reader : Reader) (filesystem : TskFileSystem)
    (volume : Volume) (warnings : Option (List String)) :
    Except PyError ExtScan := do
  let base := volume.byteOffset
  let size := volume.byteLength
  let boot ← reader.readAt base 4096
  match ← detectFormat boot with
  | .ntfs => do
      let unit := filesystem.blockSize
      let ranges ← bitmapRuns (min filesystem.blockCount (size / unit)) unit
        base filesystem.readBitmapMeta
      return ⟨ranges, warnings⟩
  | .exfat => do
      let ranges ← exfat reader boot base size
      return ⟨ranges, warnings⟩
  | .ext => ext reader (boot.drop 1024) base size warnings
  | .fat => do
      let ranges ← fat reader boot base size
      return ⟨ranges, warnings⟩
  | .unsupported =>
      .error (unsupportedCapabilityError
        "Allocation map is not supported for this filesystem."
        "FILESYSTEM_FREE_SPACE")

end ApexForensic.FreeSpace
