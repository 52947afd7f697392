import Mend.Text.Category
import Mend.Variables.Lines

/-!
# Values of variables

The value behind an equals sign. Quotes keep blanks in it, a backslash keeps the next character from its
role, and a dollar sign with a name stands for the text of another variable. In single quotes everything
stands for itself.
-/

namespace Mend.Variables

/-- What the reader of a value is within. -/
inductive Quoting where
  | plain
  /-- Behind a blank that ends the value. -/
  | ended
  | single
  | double
  deriving DecidableEq, Repr

/-- What the next character continues. -/
inductive Pending where
  | none
  | escape
  /-- The name of a variable behind a dollar sign, read from its end. -/
  | name (soFar : List Char)
  /-- The name of a variable in braces, read from its end. -/
  | braced (soFar : List Char)
  deriving DecidableEq, Repr

/-- A value that is being read. -/
structure Reading where
  quoting : Quoting := .plain
  pending : Pending := .none
  text : String := ""
  deriving DecidableEq, Repr

namespace Reading

/-- Takes in a character outside of escapes and names. -/
def plainStep (s : Reading) (c : Char) : Reading :=
  if c == '$' then { s with pending := .name [] }
  else if s.quoting == .double && c == '"' then { s with quoting := .plain }
  else if c == '\\' then { s with pending := .escape }
  else if s.quoting == .double then { s with text := s.text.push c }
  else if c == '\'' then { s with quoting := .single }
  else if c == '"' then { s with quoting := .double }
  else if c == ' ' || c == '\t' then { s with quoting := .ended }
  else { s with text := s.text.push c }

/-- Puts in the text of a variable whose name was read from its end. -/
def refer (s : Reading) (lookUp : String → String) (soFar : List Char) : Reading :=
  { s with pending := .none, text := s.text ++ lookUp (String.ofList soFar.reverse) }

/-- Takes in a character that ends a name without braces. -/
def nameStep (s : Reading) (lookUp : String → String) (soFar : List Char) (c : Char) : Reading :=
  if c == '\x7b' && soFar.isEmpty then { s with pending := .braced [] }
  else
    let s := s.refer lookUp soFar
    if c == '$' then { s with pending := .name [] } else { s with text := s.text.push c }

/-- Takes in an escaped character. -/
def escapeStep? (s : Reading) (c : Char) : Option Reading :=
  if ['\\', '\'', '"', '$', ' '].contains c then
    some { s with pending := .none, text := s.text.push c }
  else if c == 'n' then some { s with pending := .none, text := s.text.push '\n' }
  else Option.none

/-- Takes in a character of a value that goes on. -/
def step? (s : Reading) (lookUp : String → String) (c : Char) : Option Reading :=
  match s.quoting, s.pending with
  | .ended, _ => if c == ' ' || c == '\t' then some s else Option.none
  | _, .escape => s.escapeStep? c
  | .single, _ =>
    some (if c == '\'' then { s with quoting := .plain } else { s with text := s.text.push c })
  | _, .name soFar =>
    some (if Text.isAlphanumeric c then { s with pending := .name (c :: soFar) }
      else s.nameStep lookUp soFar c)
  | _, .braced soFar =>
    some (if c == '\x7d' then s.refer lookUp soFar else { s with pending := .braced (c :: soFar) })
  | _, .none => some (s.plainStep c)

/-- The text at the end of a value; nothing if quotes or braces are still open. -/
def finish? (s : Reading) (lookUp : String → String) : Option String :=
  match s.quoting, s.pending with
  | .single, _ | .double, _ | _, .braced _ => Option.none
  | _, .name soFar => some (s.refer lookUp soFar).text
  | _, _ => some s.text

end Reading

/-- Reads a value to its end or to a comment; `place` is that of the next character. -/
def readValueFrom (lookUp : String → String) (value : String) (s : Reading) (place : Nat) :
    List Char → Except Fault String
  | [] => (s.finish? lookUp).elim (.error (.line value (value.utf8ByteSize - 1))) .ok
  | c :: r =>
    if s.quoting == .ended && c == '#' then readValueFrom lookUp value s place []
    else
      match s.step? lookUp c with
      | some s => readValueFrom lookUp value s (place + 1) r
      | none => .error (.line value place)

/-- Reads a value. -/
def readValue (lookUp : String → String) (value : List Char) : Except Fault String :=
  readValueFrom lookUp (String.ofList value) {} 0 value

end Mend.Variables
