/-!
# Natural numbers in a bounded range

Reads a decimal numeral digit by digit, left to right. The first digit that is none, or that takes the
number out of its range, is what is reported.
-/

namespace Mend.Text

/-- Why a text is no natural number below a bound. -/
inductive NumeralError where
  | empty
  | invalidDigit
  | tooLarge
  deriving DecidableEq, Repr

/-- The text shown for a refused numeral. -/
def NumeralError.message : NumeralError → String
  | empty => "cannot parse integer from empty string"
  | invalidDigit => "invalid digit found in string"
  | tooLarge => "number too large to fit in target type"

/-- Reads digits behind a number already read. -/
def readDigits (bound value : Nat) : List Char → Except NumeralError Nat
  | [] => .ok value
  | c :: r =>
    if c.isDigit then
      let value := 10 * value + (c.toNat - '0'.toNat)
      if value < bound then readDigits bound value r else .error .tooLarge
    else .error .invalidDigit

/-- Reads a number below `bound`, which may have a plus sign. -/
def readNatural (bound : Nat) (s : String) : Except NumeralError Nat :=
  match s.toList with
  | [] => .error .empty
  | ['+'] => .error .invalidDigit
  | '+' :: digits => readDigits bound 0 digits
  | digits => readDigits bound 0 digits

/-- Reads a 64-bit word. -/
def readWord (s : String) : Except NumeralError UInt64 :=
  (readNatural UInt64.size s).map UInt64.ofNat

end Mend.Text
