import Mend.Cluster.Basic
import Mend.DataSet.Metrics

/-!
# Cohorts

The cohort of a changed keyword use are the vectors that hold it. Every cohort is clustered for itself; a
cohort that the clusterer refuses is skipped, and the clusters of the others are ranked by size.
-/

namespace Mend

open Keyword (Use)

/-- One cluster of the cohort of a use. -/
structure Cluster where
  use : Use
  id : Int
  instances : Nat
  deriving DecidableEq, Repr

namespace Cluster

/-- The one-line rendering. -/
def text (c : Cluster) : String := s!"{c.use.text}\t{c.id}\t{c.instances}"

/-- Whether `c` may stand before `d`: larger clusters first, equal ones by their rendering. -/
def precedes (c d : Cluster) : Bool :=
  d.instances < c.instances || (c.instances == d.instances && c.text ≤ d.text)

end Cluster

/-- Clusters as they are kept while they come in, and beside them how many vectors they hold together. -/
structure Clusters where
  list : List Cluster
  total : Nat
  deriving DecidableEq, Repr

namespace Clusters

/-- No clusters. -/
def empty : Clusters := ⟨[], 0⟩

/-- Adds a cluster at the end. -/
def add (cs : Clusters) (c : Cluster) : Clusters := ⟨cs.list ++ [c], cs.total + c.instances⟩

/-- Adds clusters one after the other. -/
def ofList (l : List Cluster) : Clusters := l.foldl add empty

instance : Coe (List Cluster) Clusters := ⟨ofList⟩

end Clusters

/-- The clusters of the cohort of a use. -/
structure Cohort where
  use : Use
  counted : Clusters
  deriving DecidableEq, Repr

namespace Cohort

/-- The clusters in the order they came in. -/
def clusters (c : Cohort) : List Cluster := c.counted.list

/-- How many vectors the clusters hold together, as counted while they came in. -/
def total (c : Cohort) : Nat := c.counted.total

/-- The clusters that the labels of some vectors make, by number; noise makes none. -/
def ofLabels (use : Use) (labels : List Int) : Cohort :=
  let ids := ((labels.filter (· != Clusterer.noise)).mergeSort).eraseDups
  ⟨use, .ofList (ids.map fun id => ⟨use, id, labels.count id⟩)⟩

/-- Keywords that stand in guards of all kinds and would hide the others. -/
def commonKeywords : List String :=
  ["typeof", "undefined", "null", "true", "false", "falsey", "this", "test"]

/-- Whether a use is worth a report: it is no statement and not among the keywords left out. -/
def isReported (leftOut : List String) (u : Use) : Bool :=
  u.context != .statement && !leftOut.contains u.keyword

end Cohort

/-- The result of clustering all cohorts of a data set. -/
structure CohortReport where
  /-- The clusters of the reported cohorts, in the end the largest first. -/
  ranked : List Cluster
  /-- The reported cohorts with at least one cluster. -/
  cohorts : List Cohort
  /-- The cohorts that the clusterer refused, with its reason. -/
  skipped : List (Use × Failure)
  /-- The vectors of every cohort that was clustered, without their unchanged uses. -/
  subsets : List (Use × DataSet)

namespace CohortReport

/-- The report on no cohorts. -/
def empty : CohortReport := ⟨[], [], [], []⟩

/-- Adds a cohort to those that are reported. -/
def addCohort (r : CohortReport) (k : Cohort) : CohortReport :=
  { r with ranked := r.ranked ++ k.clusters, cohorts := r.cohorts ++ [k] }

/-- Ranks the clusters, the largest first. -/
def rank (r : CohortReport) : CohortReport := { r with ranked := r.ranked.mergeSort Cluster.precedes }

end CohortReport

namespace DataSet

/-- The label of every vector. -/
def cluster (d : DataSet) (c : Clusterer) : Except Failure (List Int) :=
  c.labels ((d.matrix d.definitions).map fun row => row.map UInt64.toFloat)

/-- The vectors that a filter accepts without their unchanged uses, and the label of each. -/
def clusterFiltered (d : DataSet) (f : Filter) (c : Clusterer) :
    Except Failure (DataSet × List Int) := do
  let subset := (d.filtered f).withoutUnchangedUses
  return (subset, ← subset.cluster c)

/-- The filter that selects the cohort of a use. -/
def cohortFilter (u : Use) : Filter := .keyword (.exact .include u)

/-- Clusters the cohort of one use and notes the result. A refusal that is not recoverable ends the run. -/
def clusterCohort (d : DataSet) (c : Clusterer) (leftOut : List String) (r : CohortReport) (u : Use) :
    Except Failure CohortReport :=
  match d.clusterFiltered (cohortFilter u) c with
  | .error e =>
    if e.isRecoverable then .ok { r with skipped := r.skipped ++ [(u, e)] } else .error e
  | .ok (subset, labels) =>
    let cohort := Cohort.ofLabels u labels
    let r := { r with subsets := r.subsets ++ [(u, subset)] }
    .ok (if Cohort.isReported leftOut u && !cohort.clusters.isEmpty then r.addCohort cohort else r)

/-- Clusters the cohorts of all changed uses, the most frequent first, and ranks the clusters. -/
def clusterCohorts (d : DataSet) (c : Clusterer) (leftOut : List String) :
    Except Failure CohortReport :=
  ((d.frequencies.map (·.use)).foldlM (d.clusterCohort c leftOut) .empty).map .rank

end DataSet

end Mend
