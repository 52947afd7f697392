import Mend.Flow.Build
import Mend.Matching.Labels
import Mend.Syntax.Source
import Mend.Text.Basic

/-!
# Comparisons

The comparison of a buggy program with its repair: both trees with their change labels, the matching of
their nodes, and the flow graphs of both sides.
-/

namespace Mend

open Matching (Classified classify)

/-- Two labelled trees, their matching and their flow graphs. -/
structure Comparison extends Classified where
  buggyGraphs : List Flow.Graph
  repairedGraphs : List Flow.Graph

namespace Comparison

/-- A classified pair of trees with its flow graphs. -/
def ofClassified (c : Classified) : Comparison :=
  ⟨c, Flow.graphs c.buggy.toAst, Flow.graphs c.repaired.toAst⟩

/-- The flow graph of a function on one side. -/
def graphOf? (c : Comparison) (side : Side) (function : Nat) : Option Flow.Graph :=
  let graphs := match side with
    | .buggy => c.buggyGraphs
    | .repaired => c.repairedGraphs
  graphs.find? (·.function == function)

end Comparison

/-- Compares two programs. Blank texts are refused before either text is read. -/
def compare (simplify : Bool) (buggy repaired : Syntax.Source) : Except Failure Comparison := do
  if Text.isBlankText buggy.text then throw (.emptyInput .buggy)
  if Text.isBlankText repaired.text then throw (.emptyInput .repaired)
  let old ← buggy.parse .buggy simplify
  let new ← repaired.parse .repaired simplify
  return .ofClassified (← classify old new)

end Mend
