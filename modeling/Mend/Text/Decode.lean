/-!
# Text from bytes

Reads bytes as UTF-8, at once or line by line.
-/

namespace Mend.Text

/-- The text that bytes stand for. -/
def decode? (bytes : List UInt8) : Option String := String.fromUTF8? ⟨bytes.toArray⟩

/-- The bytes of a text. -/
def encode (s : String) : List UInt8 := s.toUTF8.toList

/-- The mark that may stand in front of a text. -/
def mark : List UInt8 := [0xEF, 0xBB, 0xBF]

/-- Bytes without the mark at their front. -/
def withoutMark (bytes : List UInt8) : List UInt8 :=
  if mark.isPrefixOf bytes then bytes.drop mark.length else bytes

/-- A list cut behind every member that satisfies `p`. -/
def cutBehind {α : Type} (p : α → Bool) : List α → List (List α)
  | [] => []
  | a :: r =>
    if p a then [a] :: cutBehind p r
    else
      match cutBehind p r with
      | [] => [[a]]
      | part :: parts => (a :: part) :: parts

/-- The texts of parts up to the first that is none, and whether there is no such part. -/
def decodeParts : List (List UInt8) → List (List Char) × Bool
  | [] => ([], true)
  | part :: parts =>
    match decode? part with
    | some text =>
      let (texts, isWhole) := decodeParts parts
      (text.toList :: texts, isWhole)
    | none => ([], false)

/-- The lines of a text with their line feeds, up to the first that is no text. A mark at the front is
passed over. -/
def decodeLines (bytes : List UInt8) : List (List Char) × Bool :=
  decodeParts (cutBehind (· == 0x0A) (withoutMark bytes))

end Mend.Text
