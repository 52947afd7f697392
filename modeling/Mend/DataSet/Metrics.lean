import Mend.DataSet.Basic

/-!
# Frequencies

How many vectors of a data set hold each changed use, the most frequent first.
-/

namespace Mend

open Keyword (Use)

/-- A use and the number of vectors that hold it. -/
structure Frequency where
  use : Use
  count : Nat
  deriving DecidableEq, Repr

namespace Frequency

/-- The one-line rendering. -/
def text (f : Frequency) : String := s!"{f.use.text} : {f.count}"

/-- Whether `f` may stand before `g`: larger counts first, equal ones by the text of the use. -/
def precedes (f g : Frequency) : Bool :=
  g.count < f.count || (f.count == g.count && f.use.text ≤ g.use.text)

end Frequency

namespace DataSet

/-- The changed uses of the vectors, each with the number of vectors that hold it. -/
def changedUses (d : DataSet) : Tally Nat :=
  d.vectors.foldl (fun t v => t.addAll ((v.uses.filter (·.change.isChange)).map (·, 1))) .empty

/-- The frequencies of the changed uses, the largest first. Uses with the same count and text stand in
sorting order. -/
def frequencies (d : DataSet) : List Frequency :=
  (d.changedUses.entries.map fun e => ⟨e.1, e.2⟩).mergeSort Frequency.precedes

end DataSet

end Mend
