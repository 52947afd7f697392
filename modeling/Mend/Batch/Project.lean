import Mend.Batch.Report
import Mend.History.Fixes

/-!
# Mining a project

All bug fixes of a project's history are analysed as one batch.
-/

namespace Mend

/-- The result of mining a project. -/
structure ProjectReport where
  project : String
  /-- How many commits the history has. -/
  commits : Nat
  /-- How many of them are taken for bug fixes. -/
  fixes : Nat
  pairs : List FilePair
  batch : BatchReport

namespace ProjectReport

/-- The report in one sentence. -/
def summary (r : ProjectReport) : String :=
  s!"There were {r.fixes} bug fixing commits analyzed out of {r.commits} total commits."

end ProjectReport

/-- Mines a history. One without commits has no last commit to start from. -/
def mineProject (o : AnalysisOptions) (pattern : Pattern.Regex) (project : String) (h : History)
    (ids : IdSource) : Except Failure (ProjectReport × IdSource) := do
  if h.commits.isEmpty then throw (.repository .noCommits)
  let pairs := h.filePairs project pattern
  let (batch, ids) ← analyzePairs o pairs ids
  return (⟨project, h.reached.length, (h.fixes pattern).length, pairs, batch⟩, ids)

end Mend
