import ApexForensic.Domain.Errors

/-!
# Evidence readers and the bytes they return

A reader is an image content with a size and a sector size.  Reads are cut at
the end of the image, and longer reads than the safety bound raise.  The
decoders below are the ones the partition parser applies to what it reads.
-/

namespace ApexForensic.Partitions

open ApexForensic.Support ApexForensic.Domain

/-- An open image.  Sizes are signed 64-bit file offsets and sector sizes are
positive, which the constructors of the readers check. -/
structure Reader where
  readerId : String
  readerVersion : String
  content : ℕ → UInt8
  size : ℕ
  sectorSize : ℕ
  size_lt : size < 2 ^ 63
  sectorSize_pos : 0 < sectorSize
  sectorSize_lt : sectorSize < 2 ^ 63

theorem sector_pos : 0 < 512 := by decide

theorem sector_lt : 512 < 2 ^ 63 := by decide

theorem sectors_lt : 2048 < 2 ^ 63 := by decide

def maxEvidenceReadSize : ℕ := 16 * 1024 * 1024

/-- Read a bounded byte range; at or past the end it is empty. -/
def Reader.readAt (reader : Reader) (offset length : ℕ) :
    Except PyError (List UInt8) :=
  if maxEvidenceReadSize < length then
    .error (validationError
      "Requested read length exceeds the evidence reader limit."
      (some "length") [("max_read_size", .int maxEvidenceReadSize)])
  else if length = 0 ∨ reader.size ≤ offset then .ok []
  else
    .ok ((List.range (min length (reader.size - offset))).map fun i =>
      reader.content (offset + i))

/-! ## Decoders -/

/-- `data[start:stop]`. -/
def slice (data : List UInt8) (start stop : ℕ) : List UInt8 :=
  (data.take stop).drop start

/-- The little-endian unsigned integer of `width` bytes at an offset. -/
def unpackLE (width : ℕ) (data : List UInt8) (offset : ℕ) : ℕ :=
  (slice data offset (offset + width)).foldr
    (fun byte value => byte.toNat + 256 * value) 0

section Part

variable {data : List UInt8} {k : ℕ}

theorem slice_take {start stop : ℕ} (h : stop ≤ k) :
    slice (data.take k) start stop = slice data start stop := by
  unfold slice
  rw [List.take_take, Nat.min_eq_left h]

theorem unpackLE_take {width offset : ℕ} (h : offset + width ≤ k) :
    unpackLE width (data.take k) offset = unpackLE width data offset := by
  unfold unpackLE
  rw [slice_take h]

end Part

/-- One step of the reflected CRC-32 register. -/
def crcShift (register : ℕ) : ℕ :=
  if register % 2 = 1 then (register / 2).xor 0xEDB88320 else register / 2

def crcByte (register : ℕ) (byte : UInt8) : ℕ :=
  (List.range 8).foldl (fun r _ => crcShift r) (register.xor byte.toNat)

/-- `zlib.crc32`. -/
def crc32 (data : List UInt8) : ℕ :=
  (data.foldl crcByte 0xFFFFFFFF).xor 0xFFFFFFFF

def hexByte (upper : Bool) (byte : UInt8) : List Char :=
  let digits := [Nat.digitChar (byte.toNat / 16),
    Nat.digitChar (byte.toNat % 16)]
  if upper then digits.map Char.toUpper else digits

/-- `str(uuid.UUID(bytes_le=data))` of sixteen bytes. -/
def uuidText (data : List UInt8) : String :=
  let hex (indices : List ℕ) : List Char :=
    indices.flatMap fun i => hexByte false (data.getD i 0)
  String.ofList (hex [3, 2, 1, 0] ++ '-' :: hex [5, 4] ++ '-' :: hex [7, 6] ++
    '-' :: hex [8, 9] ++ '-' :: hex [10, 11, 12, 13, 14, 15])

/-- The 16-bit units of a byte string of even length. -/
def utf16Units : List UInt8 → List ℕ
  | low :: high :: rest => (low.toNat + 256 * high.toNat) :: utf16Units rest
  | _ => []

/-- UTF-16 units as characters, unpaired surrogates replaced. -/
def utf16Decode : List ℕ → List Char
  | [] => []
  | high :: low :: rest =>
      if 0xD800 ≤ high ∧ high < 0xDC00 ∧ 0xDC00 ≤ low ∧ low < 0xE000 then
        Char.ofNat (0x10000 + (high - 0xD800) * 0x400 + (low - 0xDC00)) ::
          utf16Decode rest
      else if 0xD800 ≤ high ∧ high < 0xE000 then
        '\uFFFD' :: utf16Decode (low :: rest)
      else Char.ofNat high :: utf16Decode (low :: rest)
  | [unit] =>
      if 0xD800 ≤ unit ∧ unit < 0xE000 then ['\uFFFD']
      else [Char.ofNat unit]

/-- `data.decode("utf-16-le", errors="replace").rstrip("\x00") or None`. -/
def partitionName (data : List UInt8) : Option String :=
  let name := ((utf16Decode (utf16Units data)).reverse.dropWhile
    (· = '\x00')).reverse
  if name = [] then none else some (String.ofList name)

example :
    crc32 [49, 50, 51, 52, 53, 54, 55, 56, 57] = 0xCBF43926 := by
  decide +kernel

end ApexForensic.Partitions
