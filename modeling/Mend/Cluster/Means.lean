import Mend.Cluster.Basic
import Mend.Random.Generator

/-!
# Clusters by nearest centre

Every row belongs to the nearest of a fixed number of centres. The first centre is a random row, every
further one is drawn with a chance proportional to the squared distance from the centres before it. Then
the centres move to the means of their rows, as long as some row changes its centre.
-/

namespace Mend

open Mend.Random (Generator)

namespace Means

/-- The squared distance of two rows. -/
def squaredDistance (a b : Point) : Float :=
  (a.zip b).foldl (fun sum (x, y) => sum + (x - y) * (x - y)) 0.0

/-- The number of the nearest centre, the first among equals, and the squared distance to it. -/
def nearest (centres : List Point) (row : Point) : Nat × Float :=
  centres.zipIdx.foldl
    (fun best (centre, i) =>
      let d := squaredDistance centre row
      if d < best.2 then (i, d) else best)
    (0, 1.0 / 0.0)

/-- The number of the first weight that is larger than what the weights before it leave of the target; the
last number if there is none. -/
def pick : List Float → Float → Nat
  | [], _ => 0
  | [_], _ => 0
  | w :: ws, target => if target < w then 0 else pick ws (target - w) + 1

/-- Draws the number of the next centre. -/
def draw (rows centres : List Point) (g : Generator) : Nat × Generator :=
  let weights := rows.map fun row => (nearest centres row).2
  let total := weights.foldl (· + ·) 0.0
  if 0.0 < total then
    let (u, g) := g.unit
    (pick weights (u * total), g)
  else g.below rows.length

/-- Draws `n` more centres. -/
def drawCentres (rows : List Point) : Nat → List Point → Generator → List Point
  | 0, centres, _ => centres
  | n + 1, centres, g =>
    let (i, g) := draw rows centres g
    drawCentres rows n (centres ++ [rows.getD i []]) g

/-- The first centres. -/
def firstCentres (rows : List Point) (count : Nat) (seed : UInt64) : List Point :=
  let (i, g) := Generator.below rows.length (.ofSeed seed)
  drawCentres rows (count - 1) [rows.getD i []] g

/-- The number of the nearest centre of every row. -/
def assign (rows centres : List Point) : List Nat := rows.map fun row => (nearest centres row).1

/-- The mean of some rows with `width` members. -/
def mean (width : Nat) (rows : List Point) : Point :=
  let sums := rows.foldl (fun sums row => sums.zipWith (· + ·) row) (List.replicate width 0.0)
  sums.map (· / rows.length.toFloat)

/-- Every centre moved to the mean of its rows; one without rows stays. -/
def recentre (rows : List Point) (labels : List Nat) (centres : List Point) : List Point :=
  centres.zipIdx.map fun (centre, k) =>
    let own := ((rows.zip labels).filter (·.2 == k)).map Prod.fst
    if own.isEmpty then centre else mean centre.length own

/-- Moves the centres until no label changes, at most so many times. -/
def refine (rows : List Point) : Nat → List Nat → List Point → List Nat
  | 0, labels, _ => labels
  | n + 1, labels, centres =>
    let centres := recentre rows labels centres
    let next := assign rows centres
    if next == labels then labels else refine rows n next centres

end Means

/-- Clusters around `count` centres, which move at most `moves` times. -/
def meansClusterer (count : Nat) (seed : UInt64) (moves : Nat) : Clusterer where
  name := "kmeans"
  labels rows := do
    Clusterer.checkMatrix rows
    if count == 0 || rows.length < count then
      throw (.clusterer s!"cannot form {count} clusters from {rows.length} instances")
    let centres := Means.firstCentres rows count seed
    return (Means.refine rows moves (Means.assign rows centres) centres).map Int.ofNat

end Mend
