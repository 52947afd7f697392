import Mend.Failure
import Mend.Finding.Basic
import Mend.History.Basic
import Mend.Variables.Basic

/-!
# Hosts

What the commands need of the system that they run in: variables, files, repositories and two streams of
text. The commands are written against a host, so that they can run on files in memory as well as on those
of the machine.

The parts that commands are made of are actions. An action that fails ends the command; the failure is printed
behind what the command was doing.
-/

namespace Mend

/-- A repository that was opened: its folder and its history. -/
structure Repository where
  folder : String
  history : History

/-- A system to run in. -/
structure Host (m : Type → Type) where
  /-- The variables of the environment. -/
  environment : m Variables
  /-- The bytes of a file. -/
  read : String → m (Except FileError (List UInt8))
  /-- The program in a file, with the parser's tree for it. -/
  readSource : String → m (Except FileError Syntax.Source)
  /-- Replaces the content of a file, or makes one. -/
  write : String → String → m (Except FileError Unit)
  /-- Makes a folder, and those around it that are missing. -/
  makeFolders : String → m (Except FileError Unit)
  /-- Whether there is anything at a path. -/
  isThere : String → m Bool
  /-- Opens the repository at a path: that of its folder, or of the folder `.git` in it. -/
  openRepository : String → m (Except RepositoryError Repository)
  /-- Copies a repository from a location into a new folder, and opens the copy. -/
  copyRepository : String → String → m (Except RepositoryError Repository)
  /-- Prints results. -/
  print : String → m Unit
  /-- Prints what went wrong, and what was left out. -/
  warn : String → m Unit

namespace Command

/-- Why a command could not be carried out: what it was doing, and the causes from the last to the
first. -/
structure Trouble where
  activity : String
  causes : List String
  deriving DecidableEq, Repr

/-- The text of a trouble. -/
def Trouble.message (t : Trouble) : String := "error: " ++ ": ".intercalate (t.activity :: t.causes)

/-- A part of a command. -/
abbrev Action (m : Type → Type) (α : Type) := ExceptT Trouble m α

variable {m : Type → Type} [Monad m] {α : Type}

/-- Takes over a result that may be a failure. -/
def during (activity : String) : Except Failure α → Action m α
  | .ok a => pure a
  | .error e => throw ⟨activity, e.chain⟩

/-- Takes over the result of something done to a file or folder. -/
def onFile (path activity : String) (x : m (Except FileError α)) : Action m α := do
  during activity ((← ExceptT.lift x).mapError (.file path))

/-- Prints a line. -/
def printLine (host : Host m) (line : String) : Action m Unit :=
  ExceptT.lift (host.print (line ++ "\n"))

/-- Prints a line about something left out. -/
def warnLine (host : Host m) (line : String) : Action m Unit :=
  ExceptT.lift (host.warn (line ++ "\n"))

/-- Prints findings by their descriptions. -/
def printFindings (host : Host m) (fs : Findings) : Action m Unit := do
  printLine host s!"Alerts ({fs.length}):"
  fs.toList.forM fun f => printLine host s!"\t{f.description}"

end Command

end Mend
