import Mend.Reachable
import Mend.Syntax.Source

/-!
# Histories

A history is a list of commits, each after its parents. Only what can be reached from the last commit
counts. Files are stored as bytes; whether they are text is guessed from the first of them.
-/

namespace Mend

/-- The bytes of a file, and the program that they are read as. -/
structure Blob where
  bytes : List UInt8
  source : Syntax.Source

namespace Blob

/-- How many bytes are looked at. -/
def lookedAt : Nat := 8000

/-- The marks at the front of texts with wider characters. -/
def wideMarks : List (List UInt8) := [[0xFE, 0xFF], [0xFF, 0xFE]]

/-- The mark at the front of a text in UTF-8. -/
def narrowMark : List UInt8 := [0xEF, 0xBB, 0xBF]

/-- A byte that can be printed; backspace, form feed and escape count as such. -/
def isPrintable (b : UInt8) : Bool :=
  (0x1F < b && b != 0x7F) || b == 0x08 || b == 0x0C || b == 0x1B

/-- A blank that is no printable byte. -/
def isBlank (b : UInt8) : Bool := b == 0x09 || b == 0x0A || b == 0x0B || b == 0x0D

/-- Whether bytes look like no text: they have a wide mark or a zero byte, or more than one odd byte for
every 128 printable ones. -/
def isBinary (bytes : List UInt8) : Bool :=
  let front := bytes.take lookedAt
  let isWide := wideMarks.any (·.isPrefixOf front)
  let front := if narrowMark.isPrefixOf front then front.drop narrowMark.length else front
  isWide || front.contains 0 ||
    front.countP isPrintable / 128 < front.countP fun b => !isPrintable b && !isBlank b

end Blob

/-- One commit. -/
structure Commit where
  id : String
  message : String
  /-- The places of the parents in the history. -/
  parents : List Nat
  /-- All files with their paths. -/
  files : List (String × Blob)

namespace Commit

/-- The message without line feeds at its front. -/
def text (c : Commit) : String := String.ofList (c.message.toList.dropWhile (· == '\n'))

/-- The file at a path. -/
def file? (c : Commit) (path : String) : Option Blob := c.files.lookup path

end Commit

/-- A history, the oldest commit first. -/
structure History where
  commits : List Commit

namespace History

/-- The parents of the commit at a place. -/
def parentsOf (h : History) (i : Nat) : List Nat := (h.commits[i]?).elim [] (·.parents)

/-- The commits that can be reached from the last one, the oldest first. -/
def reached (h : History) : List Commit :=
  let size := h.commits.length
  if size = 0 then []
  else
    let places := reachable h.parentsOf size (size - 1)
    ((List.range size).filter places.contains).filterMap (h.commits[·]?)

/-- The only parent of a commit; nothing for a first commit and for a merge. -/
def onlyParent? (h : History) (c : Commit) : Option Commit :=
  match c.parents with
  | [i] => h.commits[i]?
  | _ => none

end History

end Mend
