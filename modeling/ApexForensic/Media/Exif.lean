import ApexForensic.Media.Formats
import ApexForensic.Support.Float64

/-!
# TIFF directories and EXIF fields

A TIFF directory lists fields, each with a type, a count and a value or the
offset of one.  Three directories of a file are decoded to the fields that have
names; positions and times are computed from some of them.  A double is
represented by the rational it denotes.
-/

namespace ApexForensic.Media

open ApexForensic.Support ApexForensic.Domain

/-- A date that exists, as a count of days from 1970-01-01. -/
structure CalendarDate where
  days : ℤ
  lower : -719162 ≤ days
  upper : days ≤ 2932896

/-- A date and a second of it. -/
structure WallTime where
  date : CalendarDate
  second : Fin 86400

/-- What the decoder takes from the Python library: UTF-8 with invalid
sequences replaced, `int` of a text or the message of its `ValueError`, and the
times that `strptime` reads. -/
structure ExifPlatform where
  decodeUtf8 : Bytes → String
  upper : String → String
  int : String → Except String ℤ
  /-- `strptime(text, "%Y:%m:%d").date()` -/
  strptimeDate : String → Option CalendarDate
  /-- `strptime(text, "%Y:%m:%d %H:%M:%S")` -/
  strptime : String → Option WallTime

/-! ## Doubles -/

def toDouble (x : ℚ) : ℚ :=
  if x < 0 then -nearestDouble (-x) else nearestDouble x

/-- `round(x, 8)` -/
def round8 (x : ℚ) : ℚ :=
  toDouble (roundHalfEven (x * 10 ^ 8) / 10 ^ 8)

/-- `int(x)` -/
def truncate (x : ℚ) : ℤ :=
  if 0 ≤ x then ⌊x⌋ else ⌈x⌉

/-! ## Values -/

structure Rational where
  numerator : ℤ
  denominator : ℤ
  deriving DecidableEq

def Rational.value (r : Rational) : Option ℚ :=
  if r.denominator = 0 then none
  else some (toDouble (r.numerator / r.denominator))

/-- `f"{numerator}/{denominator}"` -/
def Rational.text (r : Rational) : String :=
  toString r.numerator ++ "/" ++ toString r.denominator

/-- The value of a field: a text, a number or a list of one kind of them. -/
inductive ExifValue where
  | text (s : String)
  | texts (ss : List String)
  | int (n : ℤ)
  | ints (ns : List ℤ)
  | rational (r : Rational)
  | rationals (rs : List Rational)
  deriving DecidableEq

/-- `bool(value)` -/
def ExifValue.truthy : ExifValue → Bool
  | text s => !s.isEmpty
  | texts ss => !ss.isEmpty
  | int n => n ≠ 0
  | ints ns => !ns.isEmpty
  | rational _ => true
  | rationals rs => !rs.isEmpty

/-- `left or right` -/
def valueOr (left right : Option ExifValue) : Option ExifValue :=
  if left.any ExifValue.truthy then left else right

/-- `values[0] if count == 1 and values else values` -/
def oneOrInts (count : ℕ) (values : List ℤ) : ExifValue :=
  match count, values with
  | 1, value :: _ => .int value
  | _, _ => .ints values

def oneOrRationals (count : ℕ) (values : List Rational) : ExifValue :=
  match count, values with
  | 1, value :: _ => .rational value
  | _, _ => .rationals values

def oneOrTexts (count : ℕ) (values : List String) : ExifValue :=
  match count, values with
  | 1, value :: _ => .text value
  | _, _ => .texts values

inductive Endian where
  | little
  | big
  deriving DecidableEq

def Endian.unsigned : Endian → Bytes → ℕ
  | little, raw => bigEndian raw.reverse
  | big, raw => bigEndian raw

/-- `_unpack_u16`, at an offset that has been checked. -/
def unpackU16 (data : Bytes) (offset : ℕ) (endian : Endian) : ℕ :=
  endian.unsigned (slice data offset (offset + 2))

/-- `_unpack_u32`, at an offset that has been checked. -/
def unpackU32 (data : Bytes) (offset : ℕ) (endian : Endian) : ℕ :=
  endian.unsigned (slice data offset (offset + 4))

/-- The signed number of four bytes. -/
def unpackI32 (data : Bytes) (offset : ℕ) (endian : Endian) : ℤ :=
  let n := unpackU32 data offset endian
  if n < 2 ^ 31 then n else n - 2 ^ 32

def tiffTypeSizes : List (ℕ × ℕ) :=
  [(1, 1), (2, 1), (3, 2), (4, 4), (5, 8), (7, 1), (9, 4), (10, 8)]

/-- `range(min(count, len(raw) // size))` -/
def valueIndices (raw : Bytes) (size count : ℕ) : List ℕ :=
  List.range (min count (raw.length / size))

def rationalAt (signed : Bool) (raw : Bytes) (endian : Endian) (index : ℕ) :
    Rational :=
  if signed then
    ⟨unpackI32 raw (index * 8) endian, unpackI32 raw (index * 8 + 4) endian⟩
  else
    ⟨unpackU32 raw (index * 8) endian, unpackU32 raw (index * 8 + 4) endian⟩

/-- `raw.hex()` -/
def hex (raw : Bytes) : String :=
  String.ofList (raw.flatMap fun byte =>
    [Nat.digitChar (byte.toNat / 16), Nat.digitChar (byte.toNat % 16)])

def decodeTiffValue (P : ExifPlatform) (raw : Bytes) (valueType count : ℕ)
    (endian : Endian) : ExifValue :=
  match valueType with
  | 2 => .text (P.decodeUtf8 (raw.takeWhile (· ≠ 0)))
  | 3 =>
      oneOrInts count ((valueIndices raw 2 count).map fun index =>
        (unpackU16 raw (index * 2) endian : ℤ))
  | 4 =>
      oneOrInts count ((valueIndices raw 4 count).map fun index =>
        (unpackU32 raw (index * 4) endian : ℤ))
  | 5 =>
      oneOrRationals count
        ((valueIndices raw 8 count).map (rationalAt false raw endian))
  | 9 =>
      oneOrInts count ((valueIndices raw 4 count).map fun index =>
        unpackI32 raw (index * 4) endian)
  | 10 =>
      oneOrRationals count
        ((valueIndices raw 8 count).map (rationalAt true raw endian))
  | 1 => oneOrInts count ((raw.take count).map fun byte => (byte.toNat : ℤ))
  | 7 => oneOrInts count ((raw.take count).map fun byte => (byte.toNat : ℤ))
  | _ => .text (hex raw)

def rawTiffValue (P : ExifPlatform) (raw : Bytes) (valueType count : ℕ)
    (endian : Endian) : ExifValue :=
  if valueType = 5 ∨ valueType = 10 then
    oneOrTexts count ((valueIndices raw 8 count).map fun index =>
      (rationalAt (decide (valueType = 10)) raw endian index).text)
  else decodeTiffValue P raw valueType count endian

/-! ## Directories -/

structure IfdEntry where
  valueType : ℕ
  count : ℕ
  value : ExifValue
  raw : ExifValue
  deriving DecidableEq

/-- The entries of a directory by their tags, the last read in front. -/
abbrev Ifd := List (ℕ × IfdEntry)

/-- The entry at a cursor that has been checked; none for an unknown type. -/
def readEntry (P : ExifPlatform) (data : Bytes) (endian : Endian)
    (cursor : ℕ) : Except Fault (Option IfdEntry) :=
  let valueType := unpackU16 data (cursor + 2) endian
  let valueCount := unpackU32 data (cursor + 4) endian
  let entryOf (raw : Bytes) : IfdEntry :=
    { valueType
      count := valueCount
      value := decodeTiffValue P raw valueType valueCount endian
      raw := rawTiffValue P raw valueType valueCount endian }
  match tiffTypeSizes.lookup valueType with
  | none => .ok none
  | some size =>
      let byteCount := size * valueCount
      if byteCount ≤ 4 then
        .ok (some (entryOf (slice data (cursor + 8) (cursor + 8 + byteCount))))
      else
        let valueOffset := unpackU32 data (cursor + 8) endian
        if data.length < valueOffset + byteCount then
          .error (.valueError "TIFF value offset outside data")
        else
          .ok (some
            (entryOf (slice data valueOffset (valueOffset + byteCount))))

/-- So many entries from a cursor on. -/
def readEntries (P : ExifPlatform) (data : Bytes) (endian : Endian) :
    ℕ → ℕ → Ifd → Except Fault Ifd
  | 0, _, entries => .ok entries
  | count + 1, cursor, entries =>
      if data.length < cursor + 12 then
        .error (.valueError "truncated TIFF IFD entry")
      else do
        let entry ← readEntry P data endian cursor
        readEntries P data endian count (cursor + 12)
          ((entry.toList.map fun entry =>
            (unpackU16 data cursor endian, entry)) ++ entries)

/-- `_read_ifd` -/
def readIfd (P : ExifPlatform) (data : Bytes) (offset : ℤ) (endian : Endian) :
    Except Fault Ifd :=
  if offset ≤ 0 then .ok []
  else if (data.length : ℤ) < offset + 2 then
    .error (.valueError "TIFF IFD offset outside data")
  else
    readEntries P data endian (unpackU16 data offset.toNat endian)
      (offset.toNat + 2) []

/-- `int(value)` -/
def ExifValue.toInt (P : ExifPlatform) : ExifValue → Except Fault ℤ
  | int n => .ok n
  | text s =>
      match P.int s with
      | .ok n => .ok n
      | .error message => .error (.valueError message)
  | _ => .error .typeError

/-- `int(ifd.get(tag, {}).get("value", 0))` -/
def pointer (P : ExifPlatform) (ifd : Ifd) (tag : ℕ) : Except Fault ℤ :=
  match ifd.lookup tag with
  | none => .ok 0
  | some entry => entry.value.toInt P

/-! ## Named fields -/

def ifd0Tags : List (ℕ × String) :=
  [(0x0100, "image_width"), (0x0101, "image_height"), (0x010F, "camera_make"),
    (0x0110, "camera_model"), (0x0112, "orientation"), (0x0132, "datetime")]

def exifTags : List (ℕ × String) :=
  [(0x9003, "datetime_original"), (0x9004, "datetime_digitized"),
    (0x9010, "offset_time"), (0x9011, "offset_time_original"),
    (0x9012, "offset_time_digitized"), (0x9290, "subsec_time"),
    (0xA002, "pixel_x_dimension"), (0xA003, "pixel_y_dimension")]

def gpsTags : List (ℕ × String) :=
  [(0x0001, "latitude_ref"), (0x0002, "latitude"), (0x0003, "longitude_ref"),
    (0x0004, "longitude"), (0x0005, "altitude_ref"), (0x0006, "altitude"),
    (0x0007, "timestamp"), (0x001D, "datestamp")]

abbrev Fields := List (String × ExifValue)

/-- `_named_values`; the names of the tables are distinct, so that `|` of two
results is their concatenation. -/
def namedValues (entries : Ifd) (names : List (ℕ × String)) : Fields :=
  names.flatMap fun (tag, name) =>
    match entries.lookup tag with
    | none => []
    | some entry => [(name, entry.value), (name ++ "_raw", entry.raw)]

/-- `_rational_value` -/
def rationalValue : ExifValue → Option ℚ
  | .rational r => r.value
  | .int n => some (toDouble n)
  | _ => none

/-- `_rational_value` of each item of a list. -/
def ExifValue.components : ExifValue → Option (List (Option ℚ))
  | ints ns => some (ns.map fun n => some (toDouble n))
  | rationals rs => some (rs.map Rational.value)
  | texts ss => some (ss.map fun _ => none)
  | _ => none

/-- `str(ref).upper() in {"S", "W"}`, which the text of no other value is. -/
def isSouthOrWest (P : ExifPlatform) : Option ExifValue → Bool
  | some (.text s) => P.upper s ∈ ["S", "W"]
  | _ => false

/-- `_dms_to_decimal` -/
def dmsToDecimal (P : ExifPlatform) (value ref : Option ExifValue) :
    Option ℚ :=
  match value.bind ExifValue.components with
  | some (some degrees :: some minutes :: some seconds :: _) =>
      let decimal := toDouble (toDouble (degrees + toDouble (minutes / 60)) +
        toDouble (seconds / 3600))
      some (round8 (if isSouthOrWest P ref then -decimal else decimal))
  | _ => none

/-- `datetime(year, month, day, hour, minute, second, tzinfo=UTC)`, whose last
three arguments must be C integers; none for its `ValueError`. -/
def utcDatetime (date : CalendarDate) (hour minute second : ℤ) :
    Except Fault (Option Datetime) :=
  if ∃ n ∈ [hour, minute, second], n < -2 ^ 31 ∨ 2 ^ 31 ≤ n then
    .error .overflowError
  else if (0 ≤ hour ∧ hour < 24) ∧ (0 ≤ minute ∧ minute < 60) ∧
      (0 ≤ second ∧ second < 60) then
    .ok (some ⟨(date.days * 86400 + hour * 3600 + minute * 60 + second) *
      1000000, some 0⟩)
  else .ok none

/-- `to_json_timestamp` of an aware datetime. -/
def timestampText (value : Datetime) : Except Fault String :=
  match toJsonTimestamp value with
  | .ok text => .ok text
  | .error _ => .error .overflowError

/-- `_gps_timestamp` -/
def gpsTimestamp (P : ExifPlatform) (gpsRaw : Fields) :
    Except Fault (Option String) :=
  match gpsRaw.lookup "datestamp",
      (gpsRaw.lookup "timestamp").bind ExifValue.components with
  | some (.text date),
      some (some hour :: some minute :: some second :: _) =>
      match P.strptimeDate date with
      | none => .ok none
      | some date => do
          let timestamp ← utcDatetime date (truncate hour) (truncate minute)
            (truncate second)
          timestamp.mapM timestampText
  | _, _ => .ok none

structure GpsNormalized where
  latitude : Option ℚ
  longitude : Option ℚ
  altitudeMeters : Option ℚ
  /-- Absent, or the time or `None`. -/
  timestampUtc : Option (Option String)
  deriving DecidableEq

/-- The altitude, below sea level where the reference is 1. -/
def altitudeMeters (P : ExifPlatform) (gpsRaw : Fields) :
    Except Fault (Option ℚ) :=
  match (gpsRaw.lookup "altitude").bind rationalValue with
  | none => .ok none
  | some altitude =>
      match valueOr (gpsRaw.lookup "altitude_ref") none with
      | none => .ok (some altitude)
      | some ref => do
          let ref ← ref.toInt P
          return some (if ref = 1 then -altitude else altitude)

/-- `_gps_normalized` -/
def gpsNormalized (P : ExifPlatform) (gpsRaw : Fields) :
    Except Fault GpsNormalized := do
  let altitude ← altitudeMeters P gpsRaw
  let timestamp ← gpsTimestamp P gpsRaw
  return {
    latitude := dmsToDecimal P (gpsRaw.lookup "latitude")
      (gpsRaw.lookup "latitude_ref")
    longitude := dmsToDecimal P (gpsRaw.lookup "longitude")
      (gpsRaw.lookup "longitude_ref")
    altitudeMeters := altitude
    timestampUtc :=
      if (gpsRaw.lookup "datestamp").isSome ∨
          (gpsRaw.lookup "timestamp").isSome then some timestamp
      else none }

/-! ## Times -/

/-- The raw value of a time: a text, a number, or the two GPS fields. -/
inductive RawTime where
  | text (s : String)
  | number (n : ℕ)
  | gps (datestamp timestamp : Option ExifValue)
  deriving DecidableEq

structure MediaTimestamp where
  source : String
  rawValue : RawTime
  normalizedUtc : Option String
  timezoneSource : String
  timezoneConfidence : String
  deriving DecidableEq

def WallTime.micros (time : WallTime) : ℤ :=
  (time.date.days * 86400 + time.second.val) * 1000000

/-- `str(offset_value)` where it is the text of an offset; that of a number or
a list is none. -/
def offsetText : Option ExifValue → List Char
  | some (.text s) => s.toList
  | _ => []

def intText (P : ExifPlatform) (text : List Char) : Except Fault ℤ :=
  (ExifValue.text (String.ofList text)).toInt P

/-- `_parse_exif_datetime`: the time in UTC, where an offset is known. -/
def parseExifDatetime (P : ExifPlatform) (raw : String)
    (offsetValue : Option ExifValue) : Except Fault (Option Datetime) :=
  match P.strptime raw with
  | none => .ok none
  | some naive =>
      match offsetText offsetValue with
      | [sign, h, h', colon, m, m'] =>
          if (sign = '+' ∨ sign = '-') ∧ colon = ':' then do
            let hours ← intText P [h, h']
            let minutes ← intText P [m, m']
            let offset := (if sign = '+' then 1 else -1) *
              (hours * 60 + minutes)
            if offset ≤ -1440 ∨ 1440 ≤ offset then
              .error (.valueError ("offset must be a timedelta strictly " ++
                "between -timedelta(hours=24) and timedelta(hours=24)."))
            else
              return some ⟨naive.micros - offset * 60000000, some 0⟩
          else .ok none
      | _ => .ok none

def exifTimestampField (P : ExifPlatform) (exif : Fields) (key : String)
    (offsetValue : Option ExifValue) : Except Fault (List MediaTimestamp) :=
  match exif.lookup key with
  | some (.text raw) =>
      if raw.isEmpty then .ok []
      else do
        let utc ← parseExifDatetime P raw offsetValue
        let normalizedUtc ← utc.mapM timestampText
        return [{
          source := "EXIF:" ++ key
          rawValue := .text raw
          normalizedUtc
          timezoneSource := if utc.isSome then "EXIF_OFFSET" else "UNKNOWN"
          timezoneConfidence := if utc.isSome then "HIGH" else "UNKNOWN" }]
  | _ => .ok []

/-- `_exif_timestamp_fields` -/
def exifTimestampFields (P : ExifPlatform) (exif gpsRaw : Fields) :
    Except Fault (List MediaTimestamp) := do
  let offsetTime := exif.lookup "offset_time"
  let original ← exifTimestampField P exif "datetime_original"
    (valueOr (exif.lookup "offset_time_original") offsetTime)
  let digitized ← exifTimestampField P exif "datetime_digitized"
    (valueOr (exif.lookup "offset_time_digitized") offsetTime)
  let datetime ← exifTimestampField P exif "datetime" offsetTime
  let gps ← gpsTimestamp P gpsRaw
  return original ++ digitized ++ datetime ++ gps.toList.map fun timestamp => {
    source := "EXIF:GPS_TIMESTAMP"
    rawValue := .gps (gpsRaw.lookup "datestamp")
      (valueOr (gpsRaw.lookup "timestamp_raw") (gpsRaw.lookup "timestamp"))
    normalizedUtc := some timestamp
    timezoneSource := "GPS_UTC"
    timezoneConfidence := "HIGH" }

/-! ## The parser -/

/-- What a reader finds in an image; what it does not look for is absent or
empty. -/
structure ImageMetadata where
  width : Option ℤ := none
  height : Option ℤ := none
  exif : Fields := []
  gpsRaw : Fields := []
  gpsNormalized : GpsNormalized := ⟨none, none, none, none⟩
  mediaTimestamps : List MediaTimestamp := []
  deriving DecidableEq

/-- `_first_int`; a list counts by its first item. -/
def firstInt : List (Option ExifValue) → Option ℤ
  | [] => none
  | some (.int n) :: _ => some n
  | some (.ints (n :: _)) :: _ => some n
  | _ :: values => firstInt values

def tiffEndian (data : Bytes) : Option Endian :=
  if slice data 0 2 = ascii "II" then some .little
  else if slice data 0 2 = ascii "MM" then some .big
  else none

/-- `_parse_tiff` -/
def parseTiff (P : ExifPlatform) (data : Bytes) : Except Fault ImageMetadata :=
  if data.length < 8 then .error (.valueError "truncated TIFF header")
  else
    match tiffEndian data with
    | none => .error (.valueError "invalid TIFF byte order")
    | some endian =>
        if unpackU16 data 2 endian ≠ 42 then
          .error (.valueError "invalid TIFF magic")
        else do
          let ifd0 ← readIfd P data (unpackU32 data 4 endian) endian
          let exifOffset ← pointer P ifd0 0x8769
          let exifIfd ← readIfd P data exifOffset endian
          let gpsOffset ← pointer P ifd0 0x8825
          let gpsIfd ← readIfd P data gpsOffset endian
          let exif := namedValues ifd0 ifd0Tags ++ namedValues exifIfd exifTags
          let gpsRaw := namedValues gpsIfd gpsTags
          let normalized ← gpsNormalized P gpsRaw
          let mediaTimestamps ← exifTimestampFields P exif gpsRaw
          return {
            width := firstInt
              [exif.lookup "pixel_x_dimension", exif.lookup "image_width"]
            height := firstInt
              [exif.lookup "pixel_y_dimension", exif.lookup "image_height"]
            exif
            gpsRaw
            gpsNormalized := normalized
            mediaTimestamps }

example : ((ifd0Tags ++ exifTags).map Prod.snd).Nodup := by decide +kernel

end ApexForensic.Media
