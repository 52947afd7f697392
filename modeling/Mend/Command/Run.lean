import Mend.Command.RunAnalysis
import Mend.Command.RunDataSet

/-!
# Running a command line

Takes in the file of variables, reads the words, and carries out the command that they ask for.
-/

namespace Mend.Command

variable {m : Type → Type} [Monad m]

/-- How a run ended. -/
inductive Outcome where
  | done
  | failed
  /-- The command line was refused. -/
  | refused
  deriving DecidableEq, Repr

/-- The exit code of an outcome. -/
def Outcome.code : Outcome → Nat
  | done => 0
  | failed => 1
  | refused => 2

/-- Carries out a command. -/
def run (host : Host m) : Request → Action m Unit
  | .dataSet s => runDataSet host s
  | .project s => runProject host s
  | .pair s => runPair host s

/-- The file of variables that is taken in before anything else. -/
def variablesFile : String := ".env"

/-- The variables of the environment and of the file of variables. A file that is not there is left out. -/
def loadVariables (host : Host m) : m Variables := do
  let given ← host.environment
  match ← host.read variablesFile with
  | .error .missing | .error .isAFolder => return given
  | .error e => do
    host.warn s!"warning: {variablesFile}: {e.message}\n"
    return given
  | .ok bytes =>
    let (loaded, fault) := given.giveFile bytes
    if let some e := fault then host.warn s!"warning: {variablesFile}: {e.message}\n"
    return loaded

/-- Carries out the command of a command line. -/
def runWords (host : Host m) (words : List String) : m Outcome := do
  let loaded ← loadVariables host
  match ofWords (loaded.lookup ·) words with
  | .error .help => return .done
  | .error (.error _) => return .refused
  | .ok command =>
    match ← (run host command).run with
    | .ok _ => return .done
    | .error e => do
      host.warn (e.message ++ "\n")
      return .failed

end Mend.Command
