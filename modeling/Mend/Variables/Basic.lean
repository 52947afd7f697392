import Mend.Text.Basic
import Mend.Variables.Value

/-!
# Files of variables

Each line of a file of variables names a variable and gives its value. A variable that has a value keeps
it. Nothing is read behind the first fault.
-/

namespace Mend

/-- Variables with their values. -/
abbrev Variables := List (String × String)

namespace Variables

/-- The value of a variable, or no text at all. -/
def textOf (vs : Variables) (name : String) : String := (vs.lookup name).getD ""

/-- Gives a value to a variable that has none. -/
def give (vs : Variables) (name value : String) : Variables :=
  if (vs.lookup name).isSome then vs else vs ++ [(name, value)]

/-- What is left of a line, and where in the line it starts. -/
structure Rest where
  text : List Char
  place : Nat

namespace Rest

/-- Passes over characters. -/
def drop (r : Rest) (n : Nat) : Rest :=
  ⟨r.text.drop n, r.place + (r.text.take n).foldl (fun n c => n + c.utf8Size) 0⟩

/-- Passes over blanks. -/
def skipBlanks (r : Rest) : Rest := r.drop (r.text.takeWhile Text.isBlank).length

/-- Whether the line has no value here. -/
def isDone (r : Rest) : Bool := r.text.isEmpty || r.text.head? == some '#'

/-- Passes over an equals sign. -/
def equals? (r : Rest) : Option Rest := if r.text.head? == some '=' then some (r.drop 1) else none

/-- The character that a name starts with. -/
def startsName (c : Char) : Bool := c.isAlpha || c == '_'

/-- A character of a name. -/
def isInName (c : Char) : Bool := c.isAlphanum || c == '_' || c == '.'

/-- Reads a name and the blanks behind it. -/
def name? (r : Rest) : Option (String × Rest) :=
  if r.text.head?.any startsName then
    let name := r.text.takeWhile isInName
    some (String.ofList name, (r.drop name.length).skipBlanks)
  else none

end Rest

/-- Reads the name of a line and its equals sign, and says where the fault is if they are not there. The
word `export` may stand before the name. -/
def readName (r : Rest) : Except Nat (String × Rest) := do
  let named (r : Rest) : Except Nat (String × Rest) := r.name?.elim (.error r.place) .ok
  let equalled (name : String) (r : Rest) : Except Nat (String × Rest) :=
    r.equals?.elim (.error r.place) fun r => .ok (name, r)
  let (name, r) ← named r
  if name == "export" && r.equals?.isNone then
    let (name, r) ← named r
    equalled name r
  else equalled name r

/-- Reads a line into a name and a value; a line may be blank. -/
def readLine (vs : Variables) (line : List Char) : Except Fault (Option (String × String)) :=
  let r := (Rest.mk (Text.dropEndWhile Text.isBlank line) 0).skipBlanks
  if r.isDone then .ok none
  else
    match readName r with
    | .error place => .error (.line (String.ofList line) place)
    | .ok (name, r) =>
      let r := r.skipBlanks
      if r.isDone then .ok (some (name, ""))
      else (readValue vs.textOf r.text).map fun value => some (name, value)

/-- Takes in line after line, up to a fault. -/
def giveLines (vs : Variables) : List (List Char) → Variables × Option Fault
  | [] => (vs, none)
  | line :: rest =>
    match vs.readLine line with
    | .error e => (vs, some e)
    | .ok none => vs.giveLines rest
    | .ok (some (name, value)) => (vs.give name value).giveLines rest

/-- Takes in a file, up to a fault. -/
def giveFile (vs : Variables) (bytes : List UInt8) : Variables × Option Fault :=
  let (lines, fault) := linesOf bytes
  let (vs, early) := vs.giveLines lines
  (vs, early.or fault)

end Variables

end Mend
