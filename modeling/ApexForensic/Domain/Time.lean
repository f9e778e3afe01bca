import ApexForensic.Domain.Errors

/-!
# Timestamps

A datetime is an instant in microseconds since the epoch with the offset of
its zone, or no offset when it is naive.  The texts are those of
`isoformat(timespec="microseconds")`.
-/

namespace ApexForensic.Domain

structure Datetime where
  utcMicros : ℤ
  offsetSeconds : Option ℤ
  deriving DecidableEq

/-- A natural number in decimal, padded with zeros to a width. -/
def padded (width n : ℕ) : List Char :=
  let digits := Nat.toDigits 10 n
  List.replicate (width - digits.length) '0' ++ digits

/-- Year, month and day of a day count from 1970-01-01, in the proleptic
Gregorian calendar. -/
def civilFromDays (days : ℤ) : ℤ × ℕ × ℕ :=
  let z := days + 719468
  let era := z / 146097
  let doe := (z % 146097).toNat
  let yoe := (doe - doe / 1460 + doe / 36524 - doe / 146096) / 365
  let doy := doe - (365 * yoe + yoe / 4 - yoe / 100)
  let mp := (5 * doy + 2) / 153
  let day := doy - (153 * mp + 2) / 5 + 1
  let month := if mp < 10 then mp + 3 else mp - 9
  (yoe + era * 400 + (if month ≤ 2 then 1 else 0), month, day)

/-- The wall-clock part of an ISO text; years outside 1..9999 do not exist. -/
def isoWallClock (micros : ℤ) : Except PyError (List Char) :=
  let seconds := micros / 1000000
  let (year, month, day) := civilFromDays (seconds / 86400)
  let time := (seconds % 86400).toNat
  if year < 1 ∨ 9999 < year then
    .error (.builtin .overflowError "date value out of range")
  else
    .ok (padded 4 year.toNat ++ '-' :: padded 2 month ++ '-' :: padded 2 day ++
      'T' :: padded 2 (time / 3600) ++ ':' :: padded 2 (time / 60 % 60) ++
      ':' :: padded 2 (time % 60) ++
      '.' :: padded 6 (micros % 1000000).toNat)

/-- The offset part of an ISO text, with seconds only when there are some. -/
def isoOffset (offset : ℤ) : List Char :=
  let size := offset.natAbs
  (if offset < 0 then '-' else '+') :: padded 2 (size / 3600) ++
    ':' :: padded 2 (size / 60 % 60) ++
    (if size % 60 = 0 then [] else ':' :: padded 2 (size % 60))

/-- Serialize a timezone-aware datetime in UTC. -/
def toJsonTimestamp (value : Datetime) : Except PyError String :=
  match value.offsetSeconds with
  | none => .error (.builtin .valueError "datetime must be timezone-aware")
  | some _ => do
      let clock ← isoWallClock value.utcMicros
      return String.ofList (clock ++ ['Z'])

/-- The local text of an instant in a zone with the given offset. -/
def isoformatWithOffset (utcMicros offset : ℤ) : Except PyError String := do
  let clock ← isoWallClock (utcMicros + offset * 1000000)
  return String.ofList (clock ++ isoOffset offset)

example :
    toJsonTimestamp ⟨1709210096789012, some 0⟩ =
      .ok "2024-02-29T12:34:56.789012Z" := rfl

end ApexForensic.Domain
