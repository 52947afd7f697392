import Mend.DataSet.Basic
import Mend.Feature.Row
import Mend.Text.Basic

/-!
# Stored data sets

A data set is stored with one row for every vector. Reading one back skips blank lines, rows that are no
vector, rows with a number that came before, and vectors that no filter accepts; a report counts them.
-/

namespace Mend

/-- What became of the rows of a stored data set. -/
structure LoadReport where
  loaded : Nat
  filtered : Nat
  malformed : Nat
  duplicates : Nat
  deriving DecidableEq, Repr, Inhabited

namespace DataSet

/-- The stored form: one row for every vector, each with a line end. -/
def store (d : DataSet) : String := String.join (d.vectors.map fun v => Row.write v ++ "\n")

/-- The lines of a stored data set that are not blank. -/
def rowsOf (text : String) : List String :=
  (Text.lines text).filter fun row => !Text.isBlankText row

/-- A data set that is being read. -/
structure Loading where
  dataSet : DataSet
  report : LoadReport
  /-- The numbers that came before, of accepted vectors and of others. -/
  seen : List UInt64

/-- Takes in one row. -/
def Loading.step (s : Loading) (row : String) : Loading :=
  match Row.read row with
  | .error _ => { s with report.malformed := s.report.malformed + 1 }
  | .ok v =>
    if s.seen.contains v.id then
      { s with report.duplicates := s.report.duplicates + 1 }
    else
      let s := { s with seen := v.id :: s.seen }
      if s.dataSet.admits v then
        { s with dataSet := s.dataSet.add v, report.loaded := s.report.loaded + 1 }
      else { s with report.filtered := s.report.filtered + 1 }

/-- Reads a stored data set. Vectors without changes are kept while reading, but not taken afterwards. -/
def load (filters : List Filter) (text : String) : DataSet × LoadReport :=
  let start : Loading := ⟨.empty filters true, ⟨0, 0, 0, 0⟩, []⟩
  let s := (rowsOf text).foldl Loading.step start
  (s.dataSet.including false, s.report)

end DataSet

/-- Moves the source past the numbers of all rows of a stored data set. -/
def IdSource.observeRows (s : IdSource) (text : String) : IdSource :=
  (DataSet.rowsOf text).foldl IdSource.observeRow s

end Mend
