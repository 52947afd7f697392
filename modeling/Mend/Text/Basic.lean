/-!
# Texts

Blank characters, trimming, splitting, lines, and slices by byte position.
-/

namespace Mend.Text

/-! ## Blank text

A text is blank when it holds nothing but characters with the Unicode property `White_Space`. -/

/-- The characters with the property `White_Space`. -/
def isBlank (c : Char) : Bool :=
  let n := c.toNat
  (9 ≤ n && n ≤ 13) || n == 0x20 || n == 0x85 || n == 0xA0 || n == 0x1680 ||
    (0x2000 ≤ n && n ≤ 0x200A) || n == 0x2028 || n == 0x2029 || n == 0x202F || n == 0x205F ||
    n == 0x3000

/-- A text without any other character. -/
def isBlankText (s : String) : Bool := s.toList.all isBlank

/-! ## Trimming and splitting -/

/-- The list without the members at its end that satisfy `p`. -/
def dropEndWhile {α : Type} (p : α → Bool) (l : List α) : List α :=
  (l.reverse.dropWhile p).reverse

/-- The text without the characters at its end that satisfy `p`. -/
def trimEnd (p : Char → Bool) (s : String) : String :=
  String.ofList (dropEndWhile p s.toList)

/-- The text without the characters at either end that satisfy `p`. -/
def trim (p : Char → Bool) (s : String) : String :=
  String.ofList (dropEndWhile p (s.toList.dropWhile p))

/-- The parts of a list between the members that satisfy `p`. -/
def splitList {α : Type} (p : α → Bool) : List α → List (List α)
  | [] => [[]]
  | c :: r =>
    if p c then [] :: splitList p r
    else match splitList p r with
      | [] => [[c]]
      | part :: parts => (c :: part) :: parts

/-- The parts of a text between the occurrences of `sep`; one more than the occurrences. -/
def splitAt (sep : Char) (s : String) : List String :=
  (splitList (· == sep) s.toList).map String.ofList

/-! ## Lines

A text is cut into lines at every line feed. A carriage return before the line feed belongs to it, and
nothing follows the last line feed. -/

/-- A line that ended in a line feed, without the carriage return before it. -/
def withoutReturn (line : List Char) : List Char :=
  if line.getLast? = some '\r' then line.dropLast else line

/-- The lines among the parts of a text between its line feeds; the last part is a line only if it holds
something. -/
def linesOfParts : List (List Char) → List (List Char)
  | [] => []
  | [last] => if last.isEmpty then [] else [last]
  | part :: parts => withoutReturn part :: linesOfParts parts

/-- The lines of a text. -/
def lines (s : String) : List String :=
  (linesOfParts (splitList (· == '\n') s.toList)).map String.ofList

/-! ## Slices

Syntax trees locate their nodes by byte positions in the UTF-8 form of the source. -/

/-- The text between two byte positions, if both lie in `s` and neither cuts a character. -/
def slice? (s : String) (start stop : Nat) : Option String :=
  if start ≤ stop ∧ stop ≤ s.utf8ByteSize then
    String.fromUTF8? (s.toUTF8.extract start stop)
  else none

end Mend.Text
