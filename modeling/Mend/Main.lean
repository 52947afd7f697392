import Mend.Command.Run

/-!
# The command line

Runs a command on the files of the machine. The parser's tree for a program is read from a file beside it,
whose name has the ending `.tree` behind it. There is no reader for repositories on this host.

A tree is written with one line for each node in preorder, with seven columns between tabs. They are the line
number of the parent or `-`, the kind, the role or nothing, the first byte, the byte behind the last, the row, and
a letter for each mark: `n` for named, `e` for an error, `m` for missing, `h` for an error below.
-/

namespace Mend.Syntax

/-- Reads the line of one node. -/
def Token.ofLine? (line : String) : Option (Option Nat × Token) :=
  match Text.splitAt '\t' line with
  | [parent, kind, role, start, stop, row, marks] => do
    let parent ← if parent == "-" then some none else parent.toNat?.map some
    let field := if role.isEmpty then none else some role
    let marks := marks.toList
    return (parent, ⟨kind, field, ← start.toNat?, ← stop.toNat?, ← row.toNat?, marks.contains 'n',
      marks.contains 'e', marks.contains 'm', marks.contains 'h'⟩)
  | _ => none

/-- Reads a tree. -/
def Concrete.ofText? (text : String) : Option Concrete :=
  ((Text.lines text).mapM Token.ofLine?).map Concrete.ofRows

end Mend.Syntax

namespace Mend.Main

/-- The reason of an error of the system. -/
def fileError : IO.Error → FileError
  | .noFileOrDirectory .. | .noSuchThing .. => .missing
  | .alreadyExists .. => .alreadyThere
  | .permissionDenied .. => .denied
  | .inappropriateType _ code _ => if code == 21 then .isAFolder else .notAFolder
  | e => .other (toString e)

/-- Does something to a file. -/
def attempt {α : Type} (x : IO α) : IO (Except FileError α) := do
  try return .ok (← x)
  catch e => return .error (fileError e)

/-- The variables of the environment. -/
def environment : IO Variables := do
  match ← attempt (IO.FS.readBinFile "/proc/self/environ") with
  | .error _ => return []
  | .ok bytes =>
    let parts := Text.splitList (· == 0) bytes.toList
    return parts.filterMap fun part =>
      let name := part.takeWhile (· != '='.toUInt8)
      match Text.decode? name, Text.decode? (part.drop (name.length + 1)) with
      | some name, some value => some (name, value)
      | _, _ => none

/-- The bytes of a file. -/
def read (path : String) : IO (Except FileError (List UInt8)) :=
  attempt (return (← IO.FS.readBinFile path).toList)

/-- The program in a file. -/
def readSource (path : String) : IO (Except FileError Syntax.Source) := do
  match ← read path with
  | .error e => return .error e
  | .ok bytes =>
    match Text.decode? bytes with
    | none => return .error .notText
    | some text =>
      match ← attempt (IO.FS.readFile (path ++ ".tree")) with
      | .error e => return .error e
      | .ok tree =>
        match Syntax.Concrete.ofText? tree with
        | some tree => return .ok ⟨text, tree⟩
        | none => return .error (.other "malformed tree")

/-- Whether something can be opened. -/
def isThere (path : String) : IO Bool :=
  return (← attempt (IO.FS.Handle.mk path .read)).isOk

/-- The machine. -/
def host : Host IO where
  environment := environment
  read := read
  readSource := readSource
  write path text := attempt (IO.FS.writeFile path text)
  makeFolders path := attempt (IO.FS.createDirAll path)
  isThere := isThere
  openRepository path := return .error (.notFound path)
  copyRepository _ _ := return .error .unsupported
  print := IO.print
  warn := IO.eprint

end Mend.Main

def main (words : List String) : IO UInt32 := do
  return UInt32.ofNat (← Mend.Command.runWords Mend.Main.host words).code
