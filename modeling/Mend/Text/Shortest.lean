import Mend.Text.Decimal

/-!
# Shortest decimal numerals

The shortest decimal numeral that reads back as a given 64-bit float, and of several the nearest. It is
written with a point and zeros only, never with an exponent.

A positive finite float is `m · 2 ^ q`. The numbers that round to it form an interval, which includes its
ends when `m` is even. On the grid of numerals with `k` digits only the two neighbours of the value have to
be tried: if any point of the grid lies in the interval, one of them does.
-/

namespace Mend.Text

/-- A fraction of natural numbers. -/
structure Fraction where
  num : Nat
  den : Nat

namespace Fraction

/-- The fraction `n · b ^ e`. -/
def scaled (n b : Nat) (e : Int) : Fraction :=
  if 0 ≤ e then ⟨n * b.pow e.toNat, 1⟩ else ⟨n, b.pow (-e).toNat⟩

/-- The fraction times `10 ^ p`. -/
def shift (f : Fraction) (p : Int) : Fraction :=
  if 0 ≤ p then ⟨f.num * Nat.pow 10 p.toNat, f.den⟩ else ⟨f.num, f.den * Nat.pow 10 (-p).toNat⟩

/-- The number of places by which the fraction has to be shifted to lie between one and ten. -/
def places (f : Fraction) : Int :=
  let guess : Int := (Decimal.digitCount f.den : Int) - Decimal.digitCount f.num
  let shifted := f.shift guess
  if shifted.den ≤ shifted.num then guess else guess + 1

end Fraction

/-- A positive finite float. -/
structure Binary where
  mantissa : Nat
  exponent : Int
  /-- Whether the float below is only half as far away as the one above. -/
  isLowEnd : Bool

namespace Binary

/-- The value in quarters of the last bit, moved by some quarters. -/
def quarters (b : Binary) (n : Nat) : Fraction := .scaled n 2 (b.exponent - 2)

/-- The value. -/
def value (b : Binary) : Fraction := b.quarters (4 * b.mantissa)

/-- The lower end of the interval that rounds to the float. -/
def lower (b : Binary) : Fraction := b.quarters (4 * b.mantissa - if b.isLowEnd then 1 else 2)

/-- The upper end of the interval that rounds to the float. -/
def upper (b : Binary) : Fraction := b.quarters (4 * b.mantissa + 2)

/-- Whether the numeral `c · 10 ^ -p` reads back as the float. -/
def readsBack (b : Binary) (c : Nat) (p : Int) : Bool :=
  let lower := b.lower.shift p
  let upper := b.upper.shift p
  if b.mantissa % 2 = 0 then lower.num ≤ c * lower.den && c * upper.den ≤ upper.num
  else lower.num < c * lower.den && c * upper.den < upper.num

/-- The nearer of the two neighbours on the grid of multiples of `10 ^ -p` that read back. -/
def onGrid? (b : Binary) (p : Int) : Option Nat :=
  let v := b.value.shift p
  let below := v.num / v.den
  match b.readsBack below p, b.readsBack (below + 1) p with
  | true, true => some (if 2 * (v.num % v.den) ≤ v.den then below else below + 1)
  | true, false => some below
  | false, true => some (below + 1)
  | false, false => none

/-- The first grid with a neighbour that reads back, among those on which the value has up to seventeen
digits. On the first one it has none: there the neighbours are zero and one. -/
def digits (b : Binary) : Nat × Int :=
  let places := b.value.places
  let tried := (List.range 18).findSome? fun (k : Nat) =>
    (b.onGrid? (places + k - 1)).map fun c => (c, places + k - 1)
  tried.getD (0, 0)

end Binary

/-- The numeral `c · 10 ^ -p`, without exponent. -/
def positional (c : Nat) (p : Int) : String :=
  let digits := Nat.toDigits 10 c
  if p ≤ 0 then String.ofList (digits ++ List.replicate (-p).toNat '0')
  else
    let places := p.toNat
    let padded := List.replicate (places + 1 - digits.length) '0' ++ digits
    String.ofList (padded.take (padded.length - places) ++ '.' :: padded.drop (padded.length - places))

/-- The shortest numeral of a float. -/
def shortest (x : Float) : String :=
  let bits := x.toBits
  let sign := if bits >>> 63 == 1 then "-" else ""
  let field := ((bits >>> 52) &&& 0x7FF).toNat
  let fraction := (bits &&& 0xFFFFFFFFFFFFF).toNat
  if field = 0x7FF then if fraction = 0 then sign ++ "inf" else "NaN"
  else if field = 0 ∧ fraction = 0 then sign ++ "0"
  else
    let b : Binary :=
      if field = 0 then ⟨fraction, -1074, false⟩
      else ⟨Nat.pow 2 52 + fraction, (field : Int) - 1075, fraction == 0 && field != 1⟩
    let (c, p) := b.digits
    sign ++ positional c p

end Mend.Text
