import SinterDb.Lib.Binary64
import SinterDb.Lib.Unicode

namespace SinterDb.Json

open Unicode

/-!
# Text forms of values

`JSON.stringify` of strings, the decimal form of numbers and the ISO form of
dates, as ECMAScript defines them.
-/

/-- `UnicodeEscape`: a code unit as an escape of four digits. -/
def unicodeEscape (unit : UInt16) : JsString :=
  [0x5C, 0x75, hexDigit (unit.toNat / 0x1000),
    hexDigit (unit.toNat / 0x100 % 0x10),
    hexDigit (unit.toNat / 0x10 % 0x10), hexDigit (unit.toNat % 0x10)]

/-- A code unit that is no surrogate, as `QuoteJSONString` writes it. -/
def quoteUnit (unit : UInt16) : JsString :=
  if unit = 0x08 then [0x5C, 0x62]
  else if unit = 0x09 then [0x5C, 0x74]
  else if unit = 0x0A then [0x5C, 0x6E]
  else if unit = 0x0C then [0x5C, 0x66]
  else if unit = 0x0D then [0x5C, 0x72]
  else if unit = 0x22 then [0x5C, 0x22]
  else if unit = 0x5C then [0x5C, 0x5C]
  else if unit.toNat < 0x20 then unicodeEscape unit
  else [unit]

/-- A code unit on its own; a lone surrogate is escaped. -/
def quoteLone (unit : UInt16) : JsString :=
  if isHighSurrogate unit || isLowSurrogate unit then
    unicodeEscape unit
  else
    quoteUnit unit

/-- The text between the quotes of `QuoteJSONString`. -/
def quoteUnits : JsString → JsString
  | [] => []
  | [unit] => quoteLone unit
  | unit :: next :: rest =>
      if isHighSurrogate unit && isLowSurrogate next then
        unit :: next :: quoteUnits rest
      else
        quoteLone unit ++ quoteUnits (next :: rest)

/-- `JSON.stringify` of a string. -/
def quote (text : JsString) : JsString :=
  [0x22] ++ quoteUnits text ++ [0x22]

/-- The decimal digits of a natural number. -/
def decimal (value : Nat) : JsString :=
  utf16 (toString value)

/-- `text.padStart(width, "0")`. -/
def padZeros (width : Nat) (text : JsString) : JsString :=
  List.replicate (width - text.length) 0x30 ++ text

/-- The decimal digits and the position of the point of a number. -/
structure Decimal where
  digits : Nat
  count : Nat
  point : Int
  deriving Repr, DecidableEq

/-- `numerator / denominator` times a power of ten, as a ratio. -/
def scaleByTen (numerator denominator : Nat) (power : Int) : Nat × Nat :=
  (numerator * 10 ^ power.toNat, denominator * 10 ^ (-power).toNat)

/-- The number with digits `digits` times a power of ten. -/
def ofDecimal (digits : Nat) (power : Int) : JsNumber :=
  let (numerator, denominator) := scaleByTen digits 1 power
  JsNumber.roundRatio false (numerator * JsNumber.one) denominator

/-- The digits of the integer part, or minus the zeros behind the point. -/
def pointPosition (numerator denominator : Nat) : Nat → Int
  | 0 => 0
  | rounds + 1 =>
      if denominator ≤ numerator then
        (toString (numerator / denominator)).length
      else
        pointPosition (numerator * 10) denominator rounds - 1

/-- The `count` digits nearest to a number that round back to it, if any. -/
def digitsOf
    (number : JsNumber)
    (numerator denominator : Nat)
    (point : Int)
    (count : Nat) : Option Decimal :=
  let power := point - count
  let (top, bottom) := scaleByTen numerator denominator (-power)
  let low := top / bottom
  let lowFits := ofDecimal low power = number ∧ low ≠ 0
  let highFits := ofDecimal (low + 1) power = number
  let lowNearer := 2 * (top % bottom) ≤ bottom
  if lowFits ∧ (lowNearer ∨ ¬ highFits) then
    some ⟨low, count, point⟩
  else if highFits then
    if low + 1 = 10 ^ count then
      some ⟨10 ^ (count - 1), count, point + 1⟩
    else
      some ⟨low + 1, count, point⟩
  else
    none

/-- The shortest digits of a positive number. -/
def shortest
    (number : JsNumber)
    (numerator denominator : Nat) : Decimal :=
  let point := pointPosition numerator denominator 400
  ((List.range 17).findSome? fun before =>
    digitsOf number numerator denominator point (before + 1)).getD
    ⟨0, 1, 1⟩

/-- The text of digits with a decimal point or an exponent. -/
def formatDecimal (value : Decimal) : JsString :=
  let digits := decimal value.digits
  let count := value.count
  if (count : Int) ≤ value.point ∧ value.point ≤ 21 then
    digits ++ List.replicate (value.point - count).toNat 0x30
  else if 0 < value.point ∧ value.point ≤ 21 then
    digits.take value.point.toNat ++ [0x2E] ++
      digits.drop value.point.toNat
  else if -6 < value.point ∧ value.point ≤ 0 then
    utf16 "0." ++ List.replicate (-value.point).toNat 0x30 ++ digits
  else
    let exponent := value.point - 1
    digits.take 1 ++
      (if count = 1 then [] else [0x2E] ++ digits.drop 1) ++
      [0x65, if exponent < 0 then 0x2D else 0x2B] ++
      decimal exponent.natAbs

/-- `Number.prototype.toString`. -/
def numberText : JsNumber → JsString
  | .nan => utf16 "NaN"
  | .infinity negative =>
      (if negative then [0x2D] else []) ++ utf16 "Infinity"
  | .finite negative exponent fraction =>
      let magnitude := JsNumber.magnitude exponent fraction
      if magnitude = 0 then
        utf16 "0"
      else
        (if negative then [0x2D] else []) ++
          formatDecimal
            (shortest (.finite false exponent fraction) magnitude
              JsNumber.one)

/-- `BigInt.prototype.toString`. -/
def integerText (value : Int) : JsString :=
  (if value < 0 then [0x2D] else []) ++ decimal value.natAbs

/-- The year, month and day of a day number, counted from 1970-01-01. -/
def civil (days : Int) : Int × Nat × Nat :=
  let shifted := days + 719468
  let era := shifted.fdiv 146097
  let dayOfEra := (shifted - era * 146097).toNat
  let yearOfEra :=
    (dayOfEra - dayOfEra / 1460 + dayOfEra / 36524 - dayOfEra / 146096) / 365
  let dayOfYear :=
    dayOfEra - (365 * yearOfEra + yearOfEra / 4 - yearOfEra / 100)
  let monthIndex := (5 * dayOfYear + 2) / 153
  let day := dayOfYear - (153 * monthIndex + 2) / 5 + 1
  let month := if monthIndex < 10 then monthIndex + 3 else monthIndex - 9
  let year := yearOfEra + era * 400
  (if month ≤ 2 then year + 1 else year, month, day)

/-- A year as ISO 8601 writes it, extended outside of four digits. -/
def yearText (year : Int) : JsString :=
  if 0 ≤ year ∧ year ≤ 9999 then
    padZeros 4 (decimal year.toNat)
  else
    [if year < 0 then 0x2D else 0x2B] ++ padZeros 6 (decimal year.natAbs)

/-- `Date.prototype.toISOString` of a time value. -/
def isoText (milliseconds : Int) : JsString :=
  let days := milliseconds.fdiv 86400000
  let time := (milliseconds - days * 86400000).toNat
  let (year, month, day) := civil days
  yearText year ++ [0x2D] ++ padZeros 2 (decimal month) ++ [0x2D] ++
    padZeros 2 (decimal day) ++ [0x54] ++
    padZeros 2 (decimal (time / 3600000)) ++ [0x3A] ++
    padZeros 2 (decimal (time / 60000 % 60)) ++ [0x3A] ++
    padZeros 2 (decimal (time / 1000 % 60)) ++ [0x2E] ++
    padZeros 3 (decimal (time % 1000)) ++ [0x5A]

end SinterDb.Json
