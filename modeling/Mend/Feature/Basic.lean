import Mend.Feature.Tally
import Mend.Provenance

/-!
# Feature vectors

A feature vector counts the keyword uses of one function of a repaired file. Every vector has a number of
its own. Numbers are 64-bit words given out in turn, and a number that is read from outside moves the
source of numbers past it.
-/

namespace Mend

open Keyword (Use)

/-- Where the next number for a vector comes from. -/
structure IdSource where
  next : UInt64
  deriving DecidableEq, Repr

namespace IdSource

/-- The source before any number was given out. -/
def start : IdSource := ⟨1⟩

instance : Inhabited IdSource := ⟨start⟩

/-- The source after one number was given out. After the last word comes zero. -/
def advance (s : IdSource) : IdSource := ⟨s.next + 1⟩

/-- Moves the source past a number, as far as words go. -/
def observe (s : IdSource) (id : UInt64) : IdSource :=
  ⟨max s.next (if id = -1 then id else id + 1)⟩

end IdSource

/-- The keyword counts of one function, with where it comes from. Counts are added as 64-bit words. -/
structure FeatureVector where
  id : UInt64
  provenance : Provenance
  function : String
  /-- The code of the function in the buggy file; for the reader only. -/
  buggyCode : String
  /-- The code of the function in the repaired file; for the reader only. -/
  repairedCode : String
  counts : Tally UInt64
  deriving DecidableEq

namespace FeatureVector

/-- A vector without keywords and code. -/
def blank (id : UInt64) (provenance : Provenance) (function : String) : FeatureVector :=
  ⟨id, provenance, function, "", "", .empty⟩

instance : Inhabited FeatureVector := ⟨blank 0 .empty ""⟩

/-- Adds to the count of a use. -/
def add (v : FeatureVector) (u : Use) (n : UInt64) : FeatureVector :=
  { v with counts := v.counts.add u n }

/-- Adds one of each of the uses. -/
def addUses (v : FeatureVector) (uses : List Use) : FeatureVector :=
  uses.foldl (fun v u => v.add u 1) v

/-- The uses that the vector counts, in sorting order. -/
def uses (v : FeatureVector) : List Use := v.counts.uses

/-- The count of a use; zero for a use that the vector does not hold. -/
def count (v : FeatureVector) (u : Use) : UInt64 := (v.counts.get? u).getD 0

/-- Whether some use has a label that says something changed. -/
def hasChanges (v : FeatureVector) : Bool := v.uses.any (·.change.isChange)

/-- Keeps only the uses that satisfy a condition. -/
def retain (v : FeatureVector) (keep : Use → Bool) : FeatureVector :=
  { v with counts := v.counts.retain keep }

/-- Gives every use another change label. -/
def relabel (v : FeatureVector) (change : Change) : FeatureVector :=
  { v with counts := v.counts.relabel change }

/-- Joins the vector of the same function in the buggy file: its code, and its removed uses. All others
can be seen in the repaired file. -/
def join (v buggy : FeatureVector) : FeatureVector :=
  { v with
    buggyCode := buggy.buggyCode
    counts := v.counts.addAll (buggy.counts.entries.filter fun e => e.1.change == .removed) }

/-- Whether two vectors agree in everything but the code. -/
def agrees (v w : FeatureVector) : Bool :=
  v.id == w.id && v.provenance == w.provenance && v.function == w.function && v.counts == w.counts

/-- The counts of some uses, in their order. -/
def project (v : FeatureVector) (uses : List Use) : List UInt64 := uses.map v.count

end FeatureVector

end Mend
