/-!
# Longest increasing runs

Which of a row of siblings have kept their order? Those that belong to a longest strictly increasing
subsequence of their new positions; the others have moved. Among several longest ones the choice is that
of patience sorting, which keeps for every length the run that ends lowest.
-/

namespace Mend.Matching

/-- A member of a sequence, with its place in it. -/
structure Placed where
  place : Nat
  value : Nat
  deriving DecidableEq, Repr

/-- An increasing subsequence, its last member first. -/
abbrev Run := List Placed

/-- Makes room for a new member among the runs, which are ordered by length and by last value: the member
continues the last run that ends below it, and takes the place of the run one longer than that. `below`
is the run before the first of `runs`. -/
def extend (below : Run) (x : Placed) : List Run → List Run
  | [] => [x :: below]
  | run :: runs =>
    match run with
    | [] => (x :: below) :: runs
    | y :: _ => if y.value < x.value then run :: extend run x runs else (x :: below) :: runs

/-- The runs of all lengths that patience sorting ends with. -/
def runsOf (values : List Nat) : List Run :=
  values.zipIdx.foldl (fun runs (v, i) => extend [] ⟨i, v⟩ runs) []

/-- The places of a longest strictly increasing subsequence. -/
def longestIncreasing (values : List Nat) : List Nat :=
  (((runsOf values).getLast?).getD []).map (·.place)

end Mend.Matching
