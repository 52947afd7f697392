import Mend.DataSet.Basic
import Mend.Detector.Visits
import Mend.Feature.OfAnalysis

/-!
# Analysis of file pairs

A file pair is compared, searched for repair patterns, and turned into feature vectors. A pair with an
empty or broken side is skipped, and the failure is kept as the reason. Many pairs are analysed one after
the other, and their results are gathered in the order of the pairs.
-/

namespace Mend

/-- Two versions of a file, with where they come from. -/
structure FilePair where
  provenance : Provenance
  buggy : Syntax.Source
  repaired : Syntax.Source

/-- What is wanted of an analysis. -/
structure AnalysisOptions where
  /-- Whether cosmetic syntax is simplified away. -/
  simplify : Bool := false
  /-- Whether vectors without a changed use are kept. -/
  includesUnchanged : Bool := false
  deriving DecidableEq, Repr, Inhabited

/-- The result for one pair. -/
inductive PairOutcome where
  | analyzed (provenance : Provenance) (findings : Findings) (vectors : List FeatureVector)
  | skipped (provenance : Provenance) (reason : Failure)

/-- Findings and vectors of a comparison. -/
def Analysis.outcome (x : Analysis) (o : AnalysisOptions) (ids : IdSource) :
    PairOutcome × IdSource :=
  let (vectors, ids) := x.vectors ids
  (.analyzed x.provenance (x.collect Detector.all .empty)
    (vectors.filter fun v => o.includesUnchanged || v.hasChanges), ids)

/-- Analyses a pair. Only failures that are not recoverable come out as such. -/
def analyzePair (o : AnalysisOptions) (p : FilePair) (ids : IdSource) :
    Except Failure (PairOutcome × IdSource) :=
  match compare o.simplify p.buggy p.repaired with
  | .ok c => .ok ((Analysis.of p.provenance c).outcome o ids)
  | .error e => if e.isRecoverable then .ok (.skipped p.provenance e, ids) else .error e

/-- Findings and vectors of many pairs. -/
structure BatchReport where
  findings : Findings
  dataSet : DataSet
  /-- How many pairs were analysed. -/
  analyzed : Nat
  /-- The pairs that were skipped, each with the reason. -/
  skipped : List (Provenance × Failure)

namespace BatchReport

/-- The report on no pairs. -/
def empty (o : AnalysisOptions) : BatchReport := ⟨.empty, .empty [] o.includesUnchanged, 0, []⟩

/-- Takes in the result for one pair. -/
def record (r : BatchReport) : PairOutcome → BatchReport
  | .analyzed _ findings vectors =>
    { r with
      findings := r.findings.merge findings
      dataSet := r.dataSet.addAll vectors
      analyzed := r.analyzed + 1 }
  | .skipped provenance reason => { r with skipped := r.skipped ++ [(provenance, reason)] }

end BatchReport

/-- Analyses pairs one after the other. -/
def analyzeEach (o : AnalysisOptions) :
    List FilePair → IdSource → Except Failure (List PairOutcome × IdSource)
  | [], ids => .ok ([], ids)
  | p :: ps, ids => do
    let (outcome, ids) ← analyzePair o p ids
    let (outcomes, ids) ← analyzeEach o ps ids
    return (outcome :: outcomes, ids)

/-- Analyses pairs and gathers the results. -/
def analyzePairs (o : AnalysisOptions) (pairs : List FilePair) (ids : IdSource) :
    Except Failure (BatchReport × IdSource) := do
  let (outcomes, ids) ← analyzeEach o pairs ids
  return (outcomes.foldl BatchReport.record (.empty o), ids)

end Mend
