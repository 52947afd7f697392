import Mend.DataSet.Arff
import Mend.Text.Basic
import Mend.Text.Natural

/-!
# Relations

What a text in the relation format says. It is read line by line. A line is cut into its parts at separators
outside of quotes; inside, a backslash takes the next character with it, which may be a quote.
-/

namespace Mend

namespace Arff

/-- Where a reader of quoted texts is. -/
inductive Place where
  | outside
  | inside
  /-- Inside of quotes and behind a backslash. -/
  | escaped
  deriving DecidableEq, Repr

/-- Where the reader is behind a character. -/
def Place.next : Place → Char → Place
  | outside, c => if c = '\'' then inside else outside
  | inside, c => if c = '\'' then outside else if c = '\\' then escaped else inside
  | escaped, _ => inside

/-- The parts of a text between the separators outside of quotes. -/
def cut (sep : Char) : Place → List Char → List (List Char)
  | _, [] => [[]]
  | p, c :: r =>
    if p = .outside ∧ c = sep then [] :: cut sep .outside r
    else (cut sep (p.next c) r).modifyHead (c :: ·)

/-- A text without the backslashes that take a character with them. -/
def unescape : List Char → List Char
  | '\\' :: c :: r => c :: unescape r
  | c :: r => c :: unescape r
  | [] => []

/-- A text that stood in quotes, or one that did not. -/
def unquote : List Char → List Char
  | '\'' :: r => unescape r.dropLast
  | l => l

/-- The parts of a line. -/
def parts (sep : Char) (line : String) : List String :=
  (cut sep .outside line.toList).map fun l => String.ofList (unquote l)

/-- The lines of a text where a line feed in quotes does not end a line. -/
def linesOutside (s : String) : List String :=
  (Text.linesOfParts (cut '\n' .outside s.toList)).map String.ofList

/-- What a text in the relation format says. -/
structure Relation where
  name : String
  /-- The attributes, each with its type. -/
  attributes : List (String × String)
  /-- The values, row by row. -/
  rows : List (List String)
  deriving DecidableEq, Repr

/-- The name of the relation, in the parts of the line that gives it. -/
def nameOf? : List String → Option String
  | ["@relation", name] => some name
  | _ => none

/-- The attribute in the parts of a line that gives one. -/
def attributeOf? : List String → Option (String × String)
  | ["@attribute", name, type] => some (name, type)
  | _ => none

/-- Reads the lines of a relation. -/
def read (lines : List String) : Relation :=
  let head := (lines.takeWhile (· != "@data")).map (parts ' ')
  ⟨(head.findSome? nameOf?).getD "", head.filterMap attributeOf?,
    ((lines.dropWhile (· != "@data")).drop 1).map (parts ',')⟩

/-- The values of one row. -/
structure Entry where
  id : UInt64
  texts : List String
  counts : List UInt64
  deriving DecidableEq, Repr

/-- Reads the values of one row: a number, a text for each of the text attributes, and counts. -/
def entry? : List String → Option Entry
  | [] => none
  | id :: values =>
    match Text.readWord id, (values.drop textAttributes.length).mapM Text.readWord with
    | .ok id, .ok counts => some ⟨id, values.take textAttributes.length, counts⟩
    | _, _ => none

end Arff

end Mend
