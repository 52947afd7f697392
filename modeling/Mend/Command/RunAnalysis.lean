import Mend.Batch.Project
import Mend.Command.Host
import Mend.Command.Path
import Mend.Command.Settings
import Mend.DataSet.File
import Mend.Feature.Row
import Mend.Finding.Json

/-!
# Analysing programs from the command line

Compares the two files of a pair, or opens a repository, mines its history and stores the vectors; and prints
what was found.
-/

namespace Mend.Command

variable {m : Type → Type} [Monad m]

/-- Reads one file of a pair. -/
def readSource (host : Host m) (path : String) : Action m Syntax.Source := do
  match ← ExceptT.lift (host.readSource path) with
  | .ok source => return source
  | .error e => throw ⟨s!"reading {path}", [e.message]⟩

/-- Analyses a file pair. -/
def runPair (host : Host m) (s : PairSettings) : Action m Unit := do
  let pair : FilePair :=
    ⟨⟨"local", s.buggy, s.repaired, "", ""⟩, ← readSource host s.buggy, ← readSource host s.repaired⟩
  let (outcome, _) ← during "differencing file pair" (analyzePair s.options pair .start)
  match outcome with
  | .skipped provenance e =>
    warnLine host s!"skipped {provenance.text} [{e.category}]: {e.message}"
  | .analyzed _ findings vectors =>
    if s.printsJson then
      let value : Json := .object [("alerts", .array (findings.toList.map (·.toJson))),
        ("vectors", .array (vectors.map fun v => .string (Row.write v)))]
      printLine host value.print
    else
      printFindings host findings
      printLine host s!"Feature vectors ({vectors.length}):"
      vectors.forM fun v => printLine host s!"\t{Row.write v}"

/-- What is being done while a location is looked up. -/
def Location.activity : Location → String
  | .folder path => s!"opening repository {path}"
  | .remote uri _ => s!"cloning repository {uri}"

/-- Takes over a repository that was opened. -/
def opened (activity : String) (x : m (Except RepositoryError Repository)) : Action m Repository := do
  during activity ((← ExceptT.lift x).mapError .repository)

/-- Opens the repository at a location. One from elsewhere is copied, unless there is a copy already. -/
def openAt (host : Host m) (l : Location) : Action m Repository := do
  let activity := l.activity
  match l with
  | .folder path => opened activity (host.openRepository path)
  | .remote uri checkout =>
    let target := Path.below checkout (Provenance.projectName uri)
    if ← ExceptT.lift (host.isThere (Path.below target ".git")) then
      opened activity (host.openRepository target)
    else
      onFile checkout activity (host.makeFolders checkout)
      opened activity (host.copyRepository uri target)

/-- The name of the project at a location. -/
def Location.project (r : Repository) : Location → String
  | .folder _ => Provenance.projectName r.folder
  | .remote uri _ => Provenance.projectName uri

/-- Stores a data set, and makes the folders around its file. -/
def storeDataSet (host : Host m) (path : String) (d : DataSet) : Action m Unit := do
  let activity := s!"storing data set {path}"
  match Path.folder? path with
  | none | some "" => pure ()
  | some folder => onFile folder activity (host.makeFolders folder)
  onFile path activity (host.write path d.store)

/-- Mines a project. -/
def runProject (host : Host m) (s : ProjectSettings) : Action m Unit := do
  let repository ← openAt host s.location
  let pattern ← during s.location.activity (fixPattern s.fixPattern)
  let project := s.location.project repository
  let (report, _) ← during s!"analysing project {project}"
    (mineProject s.options pattern project repository.history .start)
  if let some path := s.dataSetFile then storeDataSet host path report.batch.dataSet
  report.batch.skipped.forM fun (p, e) => warnLine host s!"skipped {p.text} [{e.category}]"
  let findings := report.batch.findings
  if s.printsJson then
    let value : Json := .object [("project", .string project),
      ("total_commits", .nat report.commits), ("bug_fixing_commits", .nat report.fixes),
      ("alerts", .array (findings.toList.map (·.toJson)))]
    printLine host value.print
  else
    printLine host report.summary
    printFindings host findings

end Mend.Command
