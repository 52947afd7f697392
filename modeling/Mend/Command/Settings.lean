import Mend.Batch.Report
import Mend.Cluster.Settings
import Mend.Cohort.Basic
import Mend.Command.Words
import Mend.History.Fixes
import Mend.Text.Decimal
import Mend.Text.Natural

/-!
# Settings of a command line

What the words of a command line ask for: one of three commands with its settings.
-/

namespace Mend.Command

/-- Settings for looking at a stored data set. -/
structure DataSetSettings where
  dataSet : String
  printsMetrics : Bool
  printsClusters : Bool
  /-- The folder for files about cohorts. -/
  arffFolder : Option String
  clustering : ClusterSettings
  /-- Keywords that are not reported. -/
  leftOut : List String
  printsJson : Bool

/-- Where a repository is. -/
inductive Location where
  | folder (path : String)
  /-- To be copied into a folder of the checkout folder. -/
  | remote (uri checkoutFolder : String)
  deriving DecidableEq, Repr

/-- Settings for mining a project. -/
structure ProjectSettings where
  location : Location
  fixPattern : String
  /-- The file for the vectors. -/
  dataSetFile : Option String
  options : AnalysisOptions
  printsJson : Bool

/-- Settings for one file pair. -/
structure PairSettings where
  buggy : String
  repaired : String
  options : AnalysisOptions
  printsJson : Bool

/-- What a command line asks for: a command with its settings. -/
inductive Request where
  | dataSet (s : DataSetSettings)
  | project (s : ProjectSettings)
  | pair (s : PairSettings)

/-- A path must not be empty. -/
def path? (value : String) : Option String := if value.isEmpty then none else some value

/-- A count fits into a word. -/
def count? (value : String) : Option Nat := (Text.readNatural UInt64.size value).toOption

/-- An algorithm has a name. -/
def algorithm? (value : String) : Option Algorithm := (Algorithm.ofText value).toOption

/-- An option whose values are read by `read?`. -/
def OptionSpec.readBy {α : Type} (read? : String → Option α) (name : String)
    ( setBy : Option String := none) : OptionSpec :=
  ⟨name, .value, setBy, none, fun value => (read? value).isSome⟩

/-- The option for more messages, which all commands have. -/
def verbose : OptionSpec :=
  { name := "verbose", arity := .switch, setBy := some "REPAIR_MINER_VERBOSE", letter? := some 'v' }

/-- The options of all commands that analyse file pairs. -/
def analysisSpecs : List OptionSpec :=
  [{ name := "preprocess", arity := .switch, setBy := some "REPAIR_MINER_PREPROCESS" },
   { name := "include-unchanged-vectors", arity := .switch },
   { name := "json", arity := .switch }]

/-- The options for looking at a stored data set. -/
def dataSetSpecs : List OptionSpec :=
  [verbose,
   .readBy path? "dataset-path" (some "REPAIR_MINER_DATASET_PATH"),
   { name := "print-metrics", arity := .switch },
   { name := "print-clusters", arity := .switch },
   .readBy path? "arff-folder" (some "REPAIR_MINER_ARFF_FOLDER"),
   .readBy algorithm? "algorithm" (some "REPAIR_MINER_ALGORITHM"),
   .readBy Text.readFloat? "epsilon" (some "REPAIR_MINER_EPSILON"),
   .readBy count? "min-points" (some "REPAIR_MINER_MIN_POINTS"),
   .readBy count? "clusters" (some "REPAIR_MINER_CLUSTERS"),
   .readBy count? "seed" (some "REPAIR_MINER_SEED"),
   { name := "exclude-keyword", arity := .values },
   { name := "json", arity := .switch }]

/-- The options for mining a project. -/
def projectSpecs : List OptionSpec :=
  [verbose,
   .readBy path? "git-dir" (some "REPAIR_MINER_GIT_DIR"),
   { name := "uri", arity := .value, setBy := some "REPAIR_MINER_URI" },
   .readBy path? "checkout-dir" (some "REPAIR_MINER_CHECKOUT_DIR"),
   { name := "bug-fix-pattern", arity := .value,
     setBy := some "REPAIR_MINER_BUG_FIX_PATTERN" },
   .readBy path? "dataset-out"] ++ analysisSpecs

/-- The options for one file pair. -/
def pairSpecs : List OptionSpec := verbose :: analysisSpecs

/-- The folder that repositories are copied to unless another one is given. -/
def defaultCheckoutFolder : String := "repositories"

/-- Reading the value of an option. -/
abbrev Checked (α : Type) := Except UsageError α

/-- Whether a switch is on. A variable can also switch it off. -/
def switch (w : Words) (option : String) : Checked Bool :=
  match w.value? option with
  | none => .ok false
  | some "true" => .ok true
  | some "false" => .ok false
  | some value => .error (.badValue option value)

/-- The value of an option, read by `read?`. -/
def valueBy {α : Type} (w : Words) (read? : String → Option α) (option : String) :
    Checked (Option α) :=
  match w.value? option with
  | none => .ok none
  | some value =>
    match read? value with
    | some a => .ok (some a)
    | none => .error (.badValue option value)

/-- The settings of an analysis. -/
def analysisOptions (w : Words) : Checked AnalysisOptions := do
  return ⟨← switch w "preprocess", ← switch w "include-unchanged-vectors"⟩

/-- The settings for looking at a stored data set. -/
def dataSetSettings (w : Words) : Checked DataSetSettings := do
  let some dataSet ← valueBy w path? "dataset-path" | throw (.missing "dataset-path")
  let d : ClusterSettings := {}
  let leftOut := w.valuesOf "exclude-keyword"
  return {
    dataSet
    printsMetrics := ← switch w "print-metrics"
    printsClusters := ← switch w "print-clusters"
    arffFolder := ← valueBy w path? "arff-folder"
    clustering := {
      algorithm :=
        (← valueBy w algorithm? "algorithm").getD d.algorithm
      epsilon := (← valueBy w Text.readFloat? "epsilon").getD d.epsilon
      minPoints := (← valueBy w count? "min-points").getD d.minPoints
      centres := (← valueBy w count? "clusters").getD d.centres
      seed := ((← valueBy w count? "seed").map UInt64.ofNat).getD d.seed }
    leftOut := if leftOut.isEmpty then Cohort.commonKeywords else leftOut
    printsJson := ← switch w "json" }

/-- The settings for mining a project. Exactly one location has to be given. -/
def projectSettings (w : Words) : Checked ProjectSettings := do
  let checkout ← valueBy w path? "checkout-dir"
  let location ← match ← valueBy w path? "git-dir", w.value? "uri" with
    | some path, none => pure (Location.folder path)
    | none, some uri => pure (Location.remote uri (checkout.getD defaultCheckoutFolder))
    | some _, some _ => throw (.conflict "git-dir" "uri")
    | none, none => throw (.missing "git-dir")
  return {
    location
    fixPattern := (w.value? "bug-fix-pattern").getD defaultFixPattern
    dataSetFile := ← valueBy w path? "dataset-out"
    options := ← analysisOptions w
    printsJson := ← switch w "json" }

/-- The settings for one file pair. -/
def pairSettings (w : Words) : Checked PairSettings := do
  let [buggy, repaired] := w.plain | throw (.missing "repaired")
  return ⟨buggy, repaired, ← analysisOptions w, ← switch w "json"⟩

/-- The names of the commands. -/
def commandNames : List String := ["dataset", "project", "diff"]

/-- Reads the words behind the name of a command. -/
def readCommand (lookUp : String → Option String) (name : String) (words : List String) :
    Except Stop Request := do
  let read {α : Type} (specs : List OptionSpec) (limit : Nat) (settings : Words → Checked α) :
      Except Stop α := do
    let w := giveVariables lookUp specs (← splitWords specs limit .empty words)
    let _ ← (switch w verbose.name).mapError Stop.error
    (settings w).mapError Stop.error
  match name with
  | "dataset" => return .dataSet (← read dataSetSpecs 0 dataSetSettings)
  | "project" => return .project (← read projectSpecs 0 projectSettings)
  | "diff" => return .pair (← read pairSpecs 2 pairSettings)
  | _ => throw (.error (.unknownCommand name))

/-- Reads the words of a command line. -/
def ofWords (lookUp : String → Option String) (words : List String) : Except Stop Request := do
  let front := words.takeWhile isOptionWord
  let _ ← splitWords [verbose] 0 .empty front
  match words.drop front.length with
  | [] => throw (.error (.missing "command"))
  | name :: rest =>
    if front.contains "--" then throw (.error (.unexpectedWord name))
    if name == "help" then
      match rest.find? fun word => !commandNames.contains word with
      | none => throw .help
      | some word => throw (.error (.unknownCommand word))
    readCommand lookUp name rest

end Mend.Command
