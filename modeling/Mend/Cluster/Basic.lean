import Mend.Failure

/-!
# Clusterers

A clusterer gives every row of a matrix of numbers the label of its cluster, or refuses the matrix.
-/

namespace Mend

/-- A row of numbers. -/
abbrev Point := List Float

/-- A named way to give every row of a matrix a label. -/
structure Clusterer where
  name : String
  labels : List Point → Except Failure (List Int)

namespace Clusterer

/-- The label of rows that belong to no cluster. -/
def noise : Int := -1

/-- Refuses a matrix without rows, and one with rows of different lengths. -/
def checkMatrix (rows : List Point) : Except Failure Unit :=
  match rows with
  | [] => .error (.clusterer "no instances to cluster")
  | first :: rest =>
    if rest.all (·.length == first.length) then .ok ()
    else .error (.clusterer "rows differ in length")

end Clusterer

end Mend
