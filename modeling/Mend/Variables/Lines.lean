import Mend.Failure
import Mend.Text.Basic
import Mend.Text.Decode

/-!
# Lines of a file of variables

A file of variables is cut into lines. Within quotes a line goes on behind its line feed, a comment ends it
early, and a line that is a comment is left out. The lines end where the bytes are no text.
-/

namespace Mend.Variables

/-- Why a file of variables is not read to its end. -/
inductive Fault where
  /-- A line, or a value, with the place in it that does not fit. -/
  | line (text : String) (place : Nat)
  | file (reason : FileError)
  deriving DecidableEq, Repr

/-- The text of a fault. -/
def Fault.message : Fault → String
  | line text place => s!"Error parsing line: '{text}', error at line index: {place}"
  | file reason => reason.message

/-- What is open at a place in a line. -/
inductive Openness where
  | none
  | blank
  | escape
  | single
  | singleEscape
  | double
  | doubleEscape
  deriving DecidableEq, Repr

namespace Openness

/-- What a character outside of quotes opens. -/
def plain (c : Char) : Openness :=
  if c == '\\' then escape else if c == '"' then double else if c == '\'' then single else none

/-- What is open behind a character. -/
def after (o : Openness) (c : Char) : Openness :=
  match o with
  | none => if Text.isBlank c && c != '\n' && c != '\r' then blank else plain c
  | blank => plain c
  | escape => none
  | single => if c == '\\' then singleEscape else if c == '\'' then none else single
  | singleEscape => single
  | double => if c == '\\' then doubleEscape else if c == '"' then none else double
  | doubleEscape => double

end Openness

/-- The characters of a line up to a comment, which starts with `#` behind a blank, and what is open behind
them; nothing comes out as open if there is a comment. -/
def upToComment (o : Openness) : List Char → List Char × Option Openness
  | [] => ([], some o)
  | c :: r =>
    if o == .blank && c == '#' then ([], Option.none)
    else
      let (kept, result) := upToComment (o.after c) r
      (c :: kept, result)

/-- A line without its line end. -/
def withoutEnd (line : List Char) : List Char :=
  match line.reverse with
  | '\n' :: '\r' :: r => r.reverse
  | '\n' :: r => r.reverse
  | _ => line

/-- Whether a line is a comment as a whole. -/
def isComment (line : List Char) : Bool := (line.dropWhile Text.isBlank).head? == some '#'

/-- Joins the lines that quotes hold together, behind a line that was begun. At the end comes what is left
of a line that was not closed. -/
def joinLines (begun : List Char) (o : Openness) :
    List (List Char) → List (List Char) × List Char
  | [] => ([], if o == .none then [] else begun)
  | line :: rest =>
    let whole := begun ++ line
    let next (line : List Char) : List (List Char) × List Char :=
      let (lines, left) := joinLines [] .none rest
      (line :: lines, left)
    if isComment whole then joinLines [] .none rest
    else
      match upToComment o line with
      | (kept, Option.none) => next (begun ++ kept)
      | (_, some Openness.none) => next (withoutEnd whole)
      | (_, some o) => joinLines whole o rest

/-- The lines of a file, and why they end before it does. -/
def linesOf (bytes : List UInt8) : List (List Char) × Option Fault :=
  let (texts, isWhole) := Text.decodeLines bytes
  let (lines, left) := joinLines [] .none texts
  let fault :=
    if !isWhole then some (.file .notText)
    else if left.isEmpty then none
    else
      let text := String.ofList left
      some (.line text text.utf8ByteSize)
  (lines, fault)

end Mend.Variables
