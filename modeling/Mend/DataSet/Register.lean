import Mend.DataSet.File

/-!
# Registers

A register is a data set as it is kept while vectors come in: the vectors, and beside them the numbers
recorded so far, in which a new number is looked up. Nothing in the type ties the two to each other, so that
it rests with the calls to keep them in step.
-/

namespace Mend

/-- Vectors, and beside them the recorded numbers. -/
structure Register where
  filters : List Filter
  includesUnchanged : Bool
  vectors : List FeatureVector
  /-- The numbers recorded so far, the last one first. -/
  recorded : List UInt64

namespace Register

/-- The register without vectors. -/
def new (filters : List Filter) (includesUnchanged : Bool) : Register :=
  ⟨filters, includesUnchanged, [], []⟩

/-- Whether a vector belongs into the register, its number aside. -/
def accepts (r : Register) (v : FeatureVector) : Bool :=
  (r.includesUnchanged || v.hasChanges) && (r.filters.isEmpty || r.filters.any (·.accepts v))

/-- Records a number, and tells whether it is new. -/
def record (r : Register) (id : UInt64) : Register × Bool :=
  if r.recorded.contains id then (r, false) else ({ r with recorded := id :: r.recorded }, true)

/-- Adds a vector at the end if it is accepted and its number is new, and tells whether it was added. The
number of a vector that is not accepted is not recorded. -/
def add (r : Register) (v : FeatureVector) : Register × Bool :=
  if r.accepts v then
    let (r, isNew) := r.record v.id
    if isNew then ({ r with vectors := r.vectors ++ [v] }, true) else (r, false)
  else (r, false)

/-- Adds vectors one after the other. -/
def addAll (r : Register) (vs : List FeatureVector) : Register := vs.foldl (fun r v => (r.add v).1) r

/-- The same register with another decision about vectors without changes. -/
def including (r : Register) (unchanged : Bool) : Register := { r with includesUnchanged := unchanged }

/-- A new register with the vectors that a filter accepts. -/
def filtered (r : Register) (f : Filter) : Register :=
  ((new [f] true).addAll r.vectors).including r.includesUnchanged

/-- Takes the unchanged uses out of every vector. The numbers are left alone. -/
def withoutUnchangedUses (r : Register) : Register :=
  { r with vectors := r.vectors.map fun v => v.retain (·.change != .unchanged) }

/-- A register that is being read. -/
structure Loading where
  register : Register
  report : LoadReport
  /-- The numbers that came before, of accepted vectors and of others. -/
  seen : List UInt64

/-- Takes in one row. -/
def Loading.step (s : Loading) (row : String) : Loading :=
  match Row.read row with
  | .error _ => { s with report.malformed := s.report.malformed + 1 }
  | .ok v =>
    if s.seen.contains v.id then
      { s with report.duplicates := s.report.duplicates + 1 }
    else
      let (register, added) := s.register.add v
      let s := { s with register, seen := v.id :: s.seen }
      if added then { s with report.loaded := s.report.loaded + 1 }
      else { s with report.filtered := s.report.filtered + 1 }

/-- Reads a stored data set into a new register. -/
def load (filters : List Filter) (text : String) : Register × LoadReport :=
  let start : Loading := ⟨new filters true, ⟨0, 0, 0, 0⟩, []⟩
  let s := (DataSet.rowsOf text).foldl Loading.step start
  (s.register.including false, s.report)

end Register

/-- What can be done with a data set. -/
inductive DataSet.Call where
  | add (v : FeatureVector)
  /-- Goes on with a stored data set. -/
  | load (filters : List Filter) (text : String)
  /-- Selects vectors, and goes on with the selection if it replaces the data set. -/
  | filtered (f : Filter) (replaces : Bool)
  | withoutUnchangedUses
  | including (unchanged : Bool)

/-- Carries out a call. -/
def DataSet.call (d : DataSet) : Call → DataSet
  | .add v => d.add v
  | .load filters text => (load filters text).1
  | .filtered f replaces => if replaces then d.filtered f else d
  | .withoutUnchangedUses => d.withoutUnchangedUses
  | .including unchanged => d.including unchanged

/-- Carries out a call. -/
def Register.call (r : Register) : DataSet.Call → Register
  | .add v => (r.add v).1
  | .load filters text => (load filters text).1
  | .filtered f replaces => if replaces then r.filtered f else r
  | .withoutUnchangedUses => r.withoutUnchangedUses
  | .including unchanged => r.including unchanged

/-- Carries out calls one after the other. -/
def DataSet.run (d : DataSet) (calls : List Call) : DataSet := calls.foldl call d

/-- Carries out calls one after the other. -/
def Register.run (r : Register) (calls : List DataSet.Call) : Register := calls.foldl call r

end Mend
