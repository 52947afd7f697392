import Mend.Feature.Filter

/-!
# Data sets

A data set keeps feature vectors in the order in which they came, no two with the same number. It takes a
vector only if one of its filters accepts it, and, unless told otherwise, only if something changed in it.
-/

namespace Mend

open Keyword (Use)

/-- Feature vectors with pairwise different numbers. -/
structure DataSet where
  /-- One of these has to accept a vector; without filters all vectors are accepted. -/
  filters : List Filter
  /-- Whether vectors without a changed use are taken. -/
  includesUnchanged : Bool
  vectors : List FeatureVector
  distinct : (vectors.map (·.id)).Nodup

namespace DataSet

/-- The data set without vectors. -/
def empty (filters : List Filter) (includesUnchanged : Bool) : DataSet :=
  ⟨filters, includesUnchanged, [], by simp⟩

instance : Inhabited DataSet := ⟨empty [] false⟩

/-- The numbers of the vectors. -/
def ids (d : DataSet) : List UInt64 := d.vectors.map (·.id)

/-- How many vectors there are. -/
def size (d : DataSet) : Nat := d.vectors.length

/-- Whether a vector belongs into the data set, its number aside. -/
def accepts (d : DataSet) (v : FeatureVector) : Bool :=
  (d.includesUnchanged || v.hasChanges) && (d.filters.isEmpty || d.filters.any (·.accepts v))

/-- Whether a vector belongs into the data set and its number is new. -/
def admits (d : DataSet) (v : FeatureVector) : Bool := d.accepts v && !d.ids.contains v.id

/-- Adds a vector at the end, if it belongs into the data set and its number is new. -/
def add (d : DataSet) (v : FeatureVector) : DataSet :=
  if h : d.admits v = true then
    { d with
      vectors := d.vectors ++ [v]
      distinct := by
        have hid : v.id ∉ d.vectors.map (·.id) := by
          simp only [admits, ids, Bool.and_eq_true, Bool.not_eq_true', List.contains_eq_mem,
            decide_eq_false_iff_not] at h
          exact h.2
        rw [List.map_append, List.nodup_append]
        refine ⟨d.distinct, by simp, fun a ha b hb => ?_⟩
        rw [List.map_singleton, List.mem_singleton] at hb
        exact fun e => hid (hb ▸ e ▸ ha) }
  else d

/-- Adds vectors one after the other. -/
def addAll (d : DataSet) (vs : List FeatureVector) : DataSet := vs.foldl add d

/-- The same data set with another decision about vectors without changes. -/
def including (d : DataSet) (unchanged : Bool) : DataSet :=
  { d with includesUnchanged := unchanged }

/-- The vectors that a filter accepts, as a data set of that filter. -/
def filtered (d : DataSet) (f : Filter) : DataSet :=
  ((empty [f] true).addAll d.vectors).including d.includesUnchanged

/-- The data set without its unchanged uses, which say nothing about repairs. -/
def withoutUnchangedUses (d : DataSet) : DataSet :=
  { d with
    vectors := d.vectors.map fun v => v.retain (·.change != .unchanged)
    distinct := by
      rw [List.map_map]
      exact d.distinct }

/-- Every use that some vector holds, once and in sorting order. -/
def definitions (d : DataSet) : List Use :=
  (d.vectors.foldl (fun t v => t.addAll (v.uses.map (·, 1))) (Tally.empty : Tally Nat)).uses

/-- One row of counts for every vector, one column for every use. -/
def matrix (d : DataSet) (uses : List Use) : List (List UInt64) :=
  d.vectors.map (·.project uses)

end DataSet

end Mend
