import Mend.Cluster.Basic
import Mend.Text.Shortest

/-!
# Clusters by density

A row with enough rows near it, itself included, is a core row. The rows are visited in their order. A core
row that has no label yet starts a cluster, which grows along a queue: whatever is near a core row of the
cluster belongs to it. A row that is no core row is noise until a cluster reaches it, and it belongs to the
first one that does. The queue may hold a row many times, but only rows without a label make it longer.

Rows are near each other when the sum of the differences of their columns, each column scaled to the unit
interval, is small enough.
-/

namespace Mend

namespace Density

/-- Which of `n` rows are near each other, and how many make a core row. -/
structure Space where
  size : Nat
  near : Nat → Nat → Bool
  minPoints : Nat

/-- The label of rows that are not visited yet. -/
def unvisited : Int := -2

namespace Space

variable (s : Space)

/-- The rows near a row. -/
def neighbours (i : Nat) : List Nat := (List.range s.size).filter (s.near i)

/-- Whether enough rows are near a row. -/
def isCore (i : Nat) : Bool := s.minPoints ≤ (s.neighbours i).length

/-- Where the search for a cluster goes on from a row. -/
def onward (i : Nat) : List Nat :=
  let near := s.neighbours i
  if s.minPoints ≤ near.length then near else []

end Space

/-- A cluster's number in place of a row's label leaves one row fewer unvisited, if the row was. -/
theorem count_unvisited_set {labels : Array Int} {j : Nat} {l : Int} (h : labels[j]? = some l) (cluster : Nat) :
    (labels.setIfInBounds j cluster).count unvisited =
      labels.count unvisited - if l == unvisited then 1 else 0 := by
  obtain ⟨hj, hl⟩ := Array.getElem?_eq_some_iff.1 h
  have hne : ((cluster : Int) == unvisited) = false := beq_false_of_ne fun h => nomatch h
  rw [Array.setIfInBounds, dif_pos hj, Array.count_set, hl, hne]
  rfl

namespace Space

variable (s : Space)

/-- Grows a cluster along the queue from its place `k`: noise and rows that were not visited join it, and of
the latter the core rows add the rows near them. -/
def grow (cluster : Nat) (queue : Array Nat) (k : Nat) (labels : Array Int) : Array Int :=
  if hk : k < queue.size then
    let j := queue[k]
    if labels[j]? = some Clusterer.noise then
      grow cluster queue (k + 1) (labels.setIfInBounds j cluster)
    else if labels[j]? = some unvisited then
      grow cluster (queue ++ s.onward j) (k + 1) (labels.setIfInBounds j cluster)
    else grow cluster queue (k + 1) labels
  else labels
termination_by (labels.count unvisited, queue.size - k)
decreasing_by
  · rename_i h
    rw [count_unvisited_set h]
    exact Prod.Lex.right _ (by omega)
  · rename_i h
    have hpos : 0 < labels.count unvisited := Array.count_pos_iff.2 (Array.mem_of_getElem? h)
    rw [count_unvisited_set h]
    exact Prod.Lex.left _ _ (Nat.sub_lt hpos Nat.one_pos)
  · exact Prod.Lex.right _ (by omega)

/-- Visits a row: it starts the next cluster, or is noise for now, unless it has a label. -/
def visit (state : Array Int × Nat) (i : Nat) : Array Int × Nat :=
  let (labels, next) := state
  if labels[i]? = some unvisited then
    let seeds := s.neighbours i
    if seeds.length < s.minPoints then (labels.setIfInBounds i Clusterer.noise, next)
    else (s.grow next seeds.toArray 0 (labels.setIfInBounds i next), next + 1)
  else state

/-- The label of every row. -/
def labels : List Int :=
  ((List.range s.size).foldl s.visit (Array.replicate s.size unvisited, 0)).1.toList

end Space

/-- The least and the greatest number of a column. What is no number is passed over. -/
def range (column : List Float) : Float × Float :=
  column.foldl (fun (lo, hi) x => (if x < lo then x else lo, if hi < x then x else hi))
    (1.0 / 0.0, -1.0 / 0.0)

/-- A column scaled to the unit interval; one without two different numbers becomes zero. -/
def scale (column : List Float) : List Float :=
  let (lo, hi) := range column
  let span := hi - lo
  column.map fun x => if 0.0 < span then (x - lo) / span else 0.0

/-- The columns of a matrix whose rows have `width` members. -/
def columns (width : Nat) (rows : List Point) : List (List Float) :=
  (List.range width).map fun k => rows.map fun row => row.getD k 0.0

/-- The rows with all columns scaled. -/
def normalize (rows : List Point) : List Point :=
  let scaled := (columns (rows.headD []).length rows).map scale
  columns rows.length scaled

/-- The sum of the differences of two rows. -/
def distance (a b : Point) : Float :=
  (a.zip b).foldl (fun sum (x, y) => sum + (x - y).abs) 0.0

/-- The rows of a matrix, near each other at a scaled distance up to `epsilon`. -/
def space (epsilon : Float) (minPoints : Nat) (rows : List Point) : Space :=
  let points := (normalize rows).toArray
  let near (i j : Nat) : Bool := distance (points.getD i []) (points.getD j []) ≤ epsilon
  ⟨points.size, near, minPoints⟩

end Density

/-- Clusters by density. Rows are near at a distance up to `epsilon`. -/
def densityClusterer (epsilon : Float) (minPoints : Nat) : Clusterer where
  name := "dbscan"
  labels rows := do
    Clusterer.checkMatrix rows
    if epsilon ≤ 0.0 || minPoints == 0 then
      throw (.clusterer
        s!"invalid parameters epsilon={Text.shortest epsilon} min_points={minPoints}")
    return (Density.space epsilon minPoints rows).labels

end Mend
