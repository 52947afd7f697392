import Mend.Text.Basic
import Mend.Text.CaseVariants
import Mend.Text.Category

/-!
# Character classes

The sets of characters that a pattern can ask for at one place.
-/

namespace Mend.Pattern

/-- A property of characters that has a name. -/
inductive CharProperty where
  | any
  | ascii
  | assigned
  | digit
  | blank
  | word
  /-- All categories of a group. -/
  | group (letter : Char)
  | category (k : Text.Category)
  deriving DecidableEq, Repr

namespace CharProperty

/-- Whether a character has the property. -/
def holds : CharProperty → Char → Bool
  | any, _ => true
  | ascii, c => c.toNat < 128
  | assigned, c => Text.Category.of c != Text.Category.unassigned
  | digit, c => Text.isDecimalDigit c
  | blank, c => Text.isBlank c
  | word, c => Text.isWordChar c
  | group letter, c => (Text.Category.of c).group == letter
  | category k, c => Text.Category.of c == k

end CharProperty

/-- A set of characters. -/
inductive CharClass where
  | none
  /-- The characters between two characters, both included. -/
  | range (first last : Char)
  | property (p : CharProperty)
  | union (a b : CharClass)
  | inter (a b : CharClass)
  | diff (a b : CharClass)
  /-- The characters in exactly one of two sets. -/
  | oneOf (a b : CharClass)
  | complement (a : CharClass)
  /-- The characters with a variant of other case in the set. -/
  | anyCase (a : CharClass)
  deriving DecidableEq, Repr

namespace CharClass

/-- Whether a character is in the set. -/
def contains : CharClass → Char → Bool
  | none, _ => false
  | range first last, c => first ≤ c && c ≤ last
  | property p, c => p.holds c
  | union a b, c => a.contains c || b.contains c
  | inter a b, c => a.contains c && b.contains c
  | diff a b, c => a.contains c && !b.contains c
  | oneOf a b, c => a.contains c != b.contains c
  | complement a, c => !a.contains c
  | anyCase a, c => (Text.caseVariants c).any a.contains

/-- The set of one character. -/
def single (c : Char) : CharClass := .range c c

/-- The set of the characters in some ranges. -/
def ofRanges (ranges : List (Char × Char)) : CharClass :=
  ranges.foldr (fun (first, last) k => .union (.range first last) k) .none

/-- The letters from A to Z in both cases. -/
def asciiLetters : List (Char × Char) := [('A', 'Z'), ('a', 'z')]

/-- The ASCII characters of words. -/
def asciiWord : CharClass := ofRanges (asciiLetters ++ [('0', '9'), ('_', '_')])

/-- The ASCII digits. -/
def asciiDigit : CharClass := .range '0' '9'

/-- The ASCII blanks. -/
def asciiBlank : CharClass := ofRanges [('\t', '\r'), (' ', ' ')]

/-- The set that a name in brackets and colons stands for. -/
def ofAsciiName? : String → Option CharClass
  | "alnum" => some (ofRanges (('0', '9') :: asciiLetters))
  | "alpha" => some (ofRanges asciiLetters)
  | "ascii" => some (.range '\x00' '\x7f')
  | "blank" => some (ofRanges [('\t', '\t'), (' ', ' ')])
  | "cntrl" => some (ofRanges [('\x00', '\x1f'), ('\x7f', '\x7f')])
  | "digit" => some asciiDigit
  | "graph" => some (.range '!' '~')
  | "lower" => some (.range 'a' 'z')
  | "print" => some (.range ' ' '~')
  | "punct" => some (ofRanges [('!', '/'), (':', '@'), ('[', '\x60'), ('\x7b', '~')])
  | "space" => some asciiBlank
  | "upper" => some (.range 'A' 'Z')
  | "word" => some asciiWord
  | "xdigit" => some (ofRanges [('0', '9'), ('A', 'F'), ('a', 'f')])
  | _ => Option.none

/-- Whether a set of bytes holds one that is no ASCII character. -/
def holdsHighByte (k : CharClass) : Bool :=
  (List.range' 128 128).any fun n => k.contains (Char.ofNat n)

end CharClass

end Mend.Pattern
