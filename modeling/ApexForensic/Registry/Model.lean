import ApexForensic.Domain.Errors
import ApexForensic.Support.PyText

/-!
# Reading registry exports

The reader splits a text into physical lines, joins continued ones, and reads
sections of values.  A line that is no value is skipped with a warning.
-/

namespace ApexForensic.Registry

open ApexForensic.Support ApexForensic.Domain

/-- The tables of the platform: the decimal digits outside ASCII, and `repr`
of a text. -/
structure Platform where
  decimal : Char → Option ℕ
  repr : String → String

/-! ## Lines -/

/-- A character at which `str.splitlines` ends a line. -/
def isLineBreak (c : Char) : Bool :=
  c ∈ ['\n', '\r', '\x0b', '\x0c', '\x1c', '\x1d', '\x1e', '\x85', '\u2028',
    '\u2029']

/-- The lines of a text, with the line read so far in reverse. -/
def splitLinesFrom (line : List Char) : List Char → List (List Char)
  | [] => if line = [] then [] else [line.reverse]
  | '\r' :: '\n' :: cs => line.reverse :: splitLinesFrom [] cs
  | c :: cs =>
      if isLineBreak c then line.reverse :: splitLinesFrom [] cs
      else splitLinesFrom (c :: line) cs

/-- `text.splitlines()`. -/
def splitLines (text : List Char) : List (List Char) :=
  splitLinesFrom [] text

/-- The loop of `_continued_lines`. -/
def continuedFrom (lineNo startLine : ℕ) (buffer : List Char) :
    List (List Char) → List (ℕ × List Char)
  | [] => if buffer = [] then [] else [(startLine, buffer)]
  | line :: lines =>
      let stripped := stripChars line
      let startLine := if buffer = [] then lineNo else startLine
      if stripped.getLast? = some '\\' then
        continuedFrom (lineNo + 1) startLine (buffer ++ stripped.dropLast) lines
      else if buffer = [] then
        (lineNo, line) :: continuedFrom (lineNo + 1) startLine [] lines
      else
        (startLine, buffer ++ stripped) ::
          continuedFrom (lineNo + 1) startLine [] lines

/-- `_continued_lines`. -/
def continuedLines (text : List Char) : List (ℕ × List Char) :=
  continuedFrom 1 1 [] (splitLines text)

/-! ## Values -/

/-- `s.replace(ab, c)` for two characters `a`, `b`. -/
def replacePair (a b c : Char) : List Char → List Char
  | x :: y :: cs =>
      if x = a ∧ y = b then c :: replacePair a b c cs
      else x :: replacePair a b c (y :: cs)
  | cs => cs

/-- `_unescape_reg_string`. -/
def unescapeRegString (value : List Char) : List Char :=
  replacePair '\\' '"' '"' (replacePair '\\' '\\' '\\' value)

/-- `"\s*=\s*(.*)$`: the closing quote of a name and the data after it. -/
def matchAssignment : List Char → Option (List Char)
  | '"' :: cs =>
      match cs.dropWhile isSpace with
      | '=' :: rest => some (rest.dropWhile isSpace)
      | _ => none
  | _ => none

/-- `((?:\\"|[^"])*)"\s*=\s*(.*)$` with its preferences: as many characters
as possible, and an escaped quote before a single backslash. -/
def matchName : List Char → Option (List Char × List Char)
  | '\\' :: '"' :: cs =>
      match matchName cs with
      | some (name, data) => some ('\\' :: '"' :: name, data)
      | none =>
          match matchName ('"' :: cs) with
          | some (name, data) => some ('\\' :: name, data)
          | none => none
  | '"' :: cs => (matchAssignment ('"' :: cs)).map fun data => ([], data)
  | c :: cs =>
      (matchName cs).map fun (name, data) => (c :: name, data)
  | [] => none

section

variable (P : Platform)

/-- The value of a hexadecimal digit. -/
def hexDigit (c : Char) : Option ℕ :=
  if '0' ≤ c ∧ c ≤ '9' then some (c.toNat - '0'.toNat)
  else if 'a' ≤ c ∧ c ≤ 'f' then some (c.toNat - 'a'.toNat + 10)
  else if 'A' ≤ c ∧ c ≤ 'F' then some (c.toNat - 'A'.toNat + 10)
  else P.decimal c

/-- The digits after the first, with single underscores between digits. -/
def moreDigits : ℕ → List Char → Option ℕ
  | value, [] => some value
  | value, '_' :: c :: cs =>
      match hexDigit P c with
      | some digit => moreDigits (16 * value + digit) cs
      | none => none
  | value, c :: cs =>
      match hexDigit P c with
      | some digit => moreDigits (16 * value + digit) cs
      | none => none

/-- What follows the prefix `0x`, if there is one. -/
def afterHexMark : List Char → List Char
  | '0' :: 'x' :: '_' :: cs => cs
  | '0' :: 'X' :: '_' :: cs => cs
  | '0' :: 'x' :: cs => cs
  | '0' :: 'X' :: cs => cs
  | cs => cs

def unsignedHex (text : List Char) : Option ℕ :=
  match afterHexMark text with
  | c :: cs =>
      match hexDigit P c with
      | some digit => moreDigits P digit cs
      | none => none
  | [] => none

/-- `int(text, 16)`. -/
def intHex (text : List Char) : Option ℤ :=
  match stripChars text with
  | '-' :: cs => (unsignedHex P cs).map fun n => -(n : ℤ)
  | '+' :: cs => (unsignedHex P cs).map Int.ofNat
  | cs => (unsignedHex P cs).map Int.ofNat

end

/-- `bytes` of one integer. -/
def byteOfInt (n : ℤ) : Option UInt8 :=
  if 0 ≤ n ∧ n < 256 then some (UInt8.ofNat n.toNat) else none

/-- `_hex_bytes`; there is no result when it raises. -/
def hexBytes (P : Platform) (value : List Char) : Option (List UInt8) :=
  let parts := ((value.filter (· ≠ '\\')).splitOn ',').map stripChars
  (parts.filter (· ≠ [])).mapM fun part => do
    byteOfInt (← intHex P part)

/-- `value.decode("utf-16le", errors="replace")`. -/
def decodeUtf16 : List UInt8 → List Char
  | [] => []
  | [_] => ['\uFFFD']
  | low :: high :: rest =>
      let unit := low.toNat + 256 * high.toNat
      if 0xD800 ≤ unit ∧ unit < 0xDC00 then
        match rest with
        | low' :: high' :: rest' =>
            let unit' := low'.toNat + 256 * high'.toNat
            if 0xDC00 ≤ unit' ∧ unit' < 0xE000 then
              Char.ofNat (0x10000 + (unit - 0xD800) * 0x400 +
                (unit' - 0xDC00)) :: decodeUtf16 rest'
            else '\uFFFD' :: decodeUtf16 (low' :: high' :: rest')
        | _ => ['\uFFFD']
      else if 0xDC00 ≤ unit ∧ unit < 0xE000 then '\uFFFD' :: decodeUtf16 rest
      else Char.ofNat unit :: decodeUtf16 rest

/-- `_decode_utf16_reg_bytes`. -/
def decodeUtf16RegBytes (value : List UInt8) : List Char :=
  if [0, 0].isSuffixOf value then decodeUtf16 value.dropLast.dropLast
  else decodeUtf16 value

/-- `int.from_bytes(data[:8].ljust(8, b"\x00"), "little")`. -/
def littleEndian (data : List UInt8) : ℕ :=
  (data.take 8).foldr (fun byte value => byte.toNat + 256 * value) 0

inductive RegData where
  | none
  | text (value : String)
  | integer (value : ℤ)
  | bytes (value : List UInt8)
  | texts (values : List String)
  deriving DecidableEq

structure RegValue where
  name : String
  valueType : String
  data : RegData
  rawData : String
  lineNo : ℕ
  deleted : Bool

structure RegSection where
  path : String
  lineNo : ℕ
  deleted : Bool
  values : List RegValue

/-- The text starts with an ASCII word when letters are compared without
case. -/
def startsWithFolded (word text : List Char) : Bool :=
  (text.take word.length).map Char.toLower = word

/-- `raw_data.split(":", 1)[1]`. -/
def afterColon (rawData : List Char) : List Char :=
  (rawData.dropWhile (· ≠ ':')).drop 1

/-- What `_parse_value_line` can raise; only the first is caught. -/
inductive LineError where
  | value (message : String)
  | index

def invalidHex : LineError :=
  .value "invalid hex byte sequence"

section

variable (P : Platform)

/-- The data of a hexadecimal type. -/
def parseHex (rawData : List Char)
    (decode : List UInt8 → String × RegData) :
    Except LineError (String × RegData) :=
  if ':' ∈ rawData then
    match hexBytes P (afterColon rawData) with
    | some data => .ok (decode data)
    | none => .error invalidHex
  else .error .index

def parseDword (rawData : List Char) : Except LineError (String × RegData) :=
  match intHex P (afterColon rawData) with
  | some n => .ok ("REG_DWORD", .integer n)
  | none => .error (.value ("invalid literal for int() with base 16: " ++
      P.repr (String.ofList (afterColon rawData))))

/-- The type and the data that `_parse_value_line` reads after the name. -/
def parseData (rawData : List Char) : Except LineError (String × RegData) :=
  if rawData = ['-'] then .ok ("REG_DELETE", .none)
  else if rawData.head? = some '"' ∧ rawData.getLast? = some '"' then
    .ok ("REG_SZ", .text (String.ofList
      (unescapeRegString (rawData.drop 1).dropLast)))
  else if startsWithFolded "dword:".toList rawData then parseDword P rawData
  else if startsWithFolded "hex(b):".toList rawData then
    parseHex P rawData fun data =>
      ("REG_QWORD", .integer (littleEndian data))
  else if startsWithFolded "hex(2):".toList rawData then
    parseHex P rawData fun data =>
      ("REG_EXPAND_SZ", .text (String.ofList (decodeUtf16RegBytes data)))
  else if startsWithFolded "hex(7):".toList rawData then
    parseHex P rawData fun data =>
      ("REG_MULTI_SZ", .texts ((((decodeUtf16RegBytes data).splitOn
        '\x00').filter (· ≠ [])).map String.ofList))
  else if startsWithFolded "hex:".toList rawData ∨
      startsWithFolded "hex(".toList rawData then
    parseHex P rawData fun data => ("REG_BINARY", .bytes data)
  else .error (.value "unsupported registry value syntax")

def parseName (line : List Char) : Option (List Char × List Char) :=
  match line with
  | '@' :: '=' :: rawData => some (['@'], rawData)
  | '"' :: rest =>
      (matchName rest).map fun (name, rawData) =>
        (unescapeRegString name, rawData)
  | _ => none

/-- `_parse_value_line`. -/
def parseValueLine (line : List Char) (lineNo : ℕ) :
    Except LineError RegValue :=
  match parseName line with
  | none => .error (.value "not a registry value assignment")
  | some (name, rawData) => do
      let (valueType, data) ← parseData P rawData
      return {
        name := String.ofList name
        valueType
        data
        rawData := String.ofList rawData
        lineNo
        deleted := rawData = ['-'] }

/-! ## Sections -/

/-- What has been read: the sections before the current one, the current one,
and the lines that were skipped, each with the text of its error. -/
structure ReaderState where
  sections : List RegSection
  current : Option RegSection
  warnings : List (ℕ × String)

def ReaderState.closed (s : ReaderState) : List RegSection :=
  s.sections ++ s.current.toList

def isSectionLine (stripped : List Char) : Bool :=
  stripped.head? = some '[' ∧ stripped.getLast? = some ']'

def openSection (stripped : List Char) (lineNo : ℕ) : RegSection :=
  let rawPath := stripChars (stripped.drop 1).dropLast
  let deleted := rawPath.head? = some '-'
  { path := String.ofList (if deleted then rawPath.drop 1 else rawPath)
    lineNo
    deleted
    values := [] }

/-- One turn of the loop over the lines. -/
def readLine (s : ReaderState) (numbered : ℕ × List Char) :
    Except PyError ReaderState :=
  let stripped := stripChars numbered.2
  if stripped = [] ∨ stripped.head? = some ';' then .ok s
  else if isSectionLine stripped then
    .ok { s with
      sections := s.closed
      current := some (openSection stripped numbered.1) }
  else
    match s.current with
    | none => .ok s
    | some sec =>
        match parseValueLine P stripped numbered.1 with
        | .ok value =>
            .ok { s with
              current := some { sec with values := sec.values ++ [value] } }
        | .error (.value message) =>
            .ok { s with warnings := s.warnings ++ [(numbered.1, message)] }
        | .error .index =>
            .error (.builtin .indexError "list index out of range")

/-- `_parse_reg_sections`. -/
def parseRegSections (text : List Char) :
    Except PyError (List RegSection × List (ℕ × String)) := do
  let s ← (continuedLines text).foldlM (readLine P) ⟨[], none, []⟩
  return (s.closed, s.warnings)

end

end ApexForensic.Registry
