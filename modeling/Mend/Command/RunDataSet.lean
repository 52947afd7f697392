import Mend.Cohort.Files
import Mend.Cohort.Json
import Mend.Cohort.Table
import Mend.Command.Host
import Mend.Command.Path
import Mend.Command.Settings

/-!
# Looking at a stored data set

Prints the frequencies of a data set and the clusters of its cohorts, and writes the cohorts into files.
-/

namespace Mend.Command

variable {m : Type → Type} [Monad m]

/-- The file of a text. -/
def readText (host : Host m) (path activity : String) : Action m String := do
  let bytes ← onFile path activity (host.read path)
  match Text.decode? bytes with
  | some text => return text
  | none => during activity (.error (.file path .notText))

/-- Writes files into a folder. No folder is made for no files. -/
def writeFiles (host : Host m) (folder activity : String) (files : List (String × String)) :
    Action m Unit :=
  files.forM fun (name, text) => do
    onFile folder activity (host.makeFolders folder)
    let path := Path.below folder name
    onFile path activity (host.write path text)

/-- Clusters the cohorts of a data set, if the settings ask for anything about them. -/
def cohortReport (host : Host m) (s : DataSetSettings) (d : DataSet) :
    Action m (Option CohortReport) := do
  if s.printsClusters || s.arffFolder.isSome then
    let activity := "clustering keyword cohorts"
    let report ← during activity (d.clusterCohorts s.clustering.clusterer s.leftOut)
    if let some folder := s.arffFolder then writeFiles host folder activity report.files
    return some report
  else return none

/-- Prints a data set's metrics and clusters. -/
def runDataSet (host : Host m) (s : DataSetSettings) : Action m Unit := do
  let (d, load) := DataSet.load [] (← readText host s.dataSet s!"loading data set {s.dataSet}")
  let report ← cohortReport host s d
  if s.printsJson then
    let metrics := if s.printsMetrics then d.metricsJson else .null
    let value : Json := .object [("load", load.toJson), ("metrics", metrics),
      ("clusters", .option (·.toJson) report)]
    printLine host value.print
  else
    if s.printsMetrics then d.frequencies.forM fun f => printLine host f.text
    if s.printsClusters then
      if let some report := report then
        report.ranked.zipIdx.forM fun (c, i) => printLine host s!"{i}\t{c.text}"
        printLine host ""
        ExceptT.lift (host.print (Cohort.latexTable report.cohorts))
        report.skipped.forM fun (u, e) =>
          warnLine host s!"skipped cohort {u.text} [CLUSTERER]: {e.message}"

end Mend.Command
