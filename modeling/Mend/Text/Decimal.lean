/-!
# Decimal numerals

Decimal numerals with an optional sign, fraction and exponent, as exact numbers and as the nearest 64-bit
floats.
-/

namespace Mend.Text

/-- The number `± mantissa · 10 ^ exponent`. -/
structure Decimal where
  isNegative : Bool
  mantissa : Nat
  exponent : Int
  deriving DecidableEq, Repr

/-- The value of a row of digits. -/
def digitsValue (digits : List Char) : Nat :=
  digits.foldl (fun v c => 10 * v + (c.toNat - '0'.toNat)) 0

/-- A leading sign, and what follows it. -/
def takeSign : List Char → Bool × List Char
  | '-' :: r => (true, r)
  | '+' :: r => (false, r)
  | r => (false, r)

/-- The exponent after the digits of a numeral, which has to end the text. -/
def readExponent? : List Char → Option Int
  | [] => some 0
  | c :: r =>
    if c == 'e' || c == 'E' then
      let (negative, digits) := takeSign r
      if !digits.isEmpty && digits.all Char.isDigit then
        let v : Int := digitsValue digits
        some (if negative then -v else v)
      else none
    else none

namespace Decimal

/-- Reads a numeral: digits before or after a point, at least one, and perhaps an exponent. -/
def ofText? (s : String) : Option Decimal :=
  let (negative, r) := takeSign s.toList
  let whole := r.takeWhile Char.isDigit
  let r := r.dropWhile Char.isDigit
  let (fraction, r) := match r with
    | '.' :: r => (r.takeWhile Char.isDigit, r.dropWhile Char.isDigit)
    | r => ([], r)
  if whole.isEmpty && fraction.isEmpty then none
  else (readExponent? r).map fun e =>
    ⟨negative, digitsValue (whole ++ fraction), e - fraction.length⟩

/-- The number of digits of a natural number, leading zeros not counted; zero has none. -/
def digitCount (n : Nat) : Nat := if n = 0 then 0 else (Nat.toDigits 10 n).length

/-- Whether the nearest 64-bit float is zero: that is so up to half of the least positive one, which is
`2 ^ -1074`. Numbers below `10 ^ -324` are smaller than that, and those from `10 ^ -322` on larger. -/
def roundsToZero (d : Decimal) : Bool :=
  d.mantissa == 0 ||
    (let places : Int := d.exponent + digitCount d.mantissa
     if places ≤ -324 then true
     else if -322 < places then false
     else d.mantissa * Nat.pow 2 1075 ≤ Nat.pow 10 (-d.exponent).toNat)

/-- The nearest float without its sign. Numerals with so many places that they are surely too large or too
small are not computed. -/
def magnitude (d : Decimal) : Float :=
  let places : Int := d.exponent + digitCount d.mantissa
  if d.mantissa = 0 ∨ places < -400 then 0.0
  else if 400 < places then 1.0 / 0.0
  else Float.ofScientific d.mantissa (d.exponent < 0) d.exponent.natAbs

/-- The nearest float. -/
def toFloat (d : Decimal) : Float := if d.isNegative then -d.magnitude else d.magnitude

end Decimal

/-- Reads a float. Infinity and no number are written as words of any case. -/
def readFloat? (s : String) : Option Float :=
  let (isNegative, body) := takeSign s.toList
  match String.ofList (body.map Char.toLower) with
  | "inf" | "infinity" => some (if isNegative then -1.0 / 0.0 else 1.0 / 0.0)
  | "nan" => some (0.0 / 0.0)
  | _ => (Decimal.ofText? s).map Decimal.toFloat

end Mend.Text
