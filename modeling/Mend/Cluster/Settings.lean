import Mend.Change
import Mend.Cluster.Density
import Mend.Cluster.Means

/-!
# Choice of a clusterer
-/

namespace Mend

/-- The known ways to cluster. -/
inductive Algorithm where
  | density
  | means
  deriving DecidableEq, Repr, Inhabited

namespace Algorithm

/-- The written form. -/
def text : Algorithm → String
  | density => "dbscan"
  | means => "kmeans"

/-- Reads a written form. The case of ASCII letters does not matter, and the second one may have a
hyphen. -/
def ofText (word : String) : Except UnknownWord Algorithm :=
  match word.toLower with
  | "dbscan" => .ok density
  | "kmeans" | "k-means" => .ok means
  | _ => .error ⟨"clustering algorithm", word⟩

end Algorithm

/-- A way to cluster with all its numbers. -/
structure ClusterSettings where
  algorithm : Algorithm := .density
  /-- The distance up to which rows are near. -/
  epsilon : Float := 0.1
  /-- How many near rows make a core row. -/
  minPoints : Nat := 3
  /-- How many centres there are. -/
  centres : Nat := 4
  seed : UInt64 := 1
  /-- How often the centres may move. -/
  moves : Nat := 300

/-- The clusterer of some settings. -/
def ClusterSettings.clusterer (s : ClusterSettings) : Clusterer :=
  match s.algorithm with
  | .density => densityClusterer s.epsilon s.minPoints
  | .means => meansClusterer s.centres s.seed s.moves

end Mend
