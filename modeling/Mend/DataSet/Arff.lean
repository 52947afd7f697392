import Mend.DataSet.Basic

/-!
# ARFF

The relation format of data mining tools: a relation name, one line for every attribute, and one line of
values for every vector. Names and texts stand in single quotes; a backslash comes before a quote or
backslash inside.
-/

namespace Mend

open Keyword (Use)

namespace Arff

/-- A text in quotes. -/
def quote (s : String) : String :=
  "'" ++ String.ofList (s.toList.flatMap fun c => if c == '\\' || c == '\'' then ['\\', c] else [c])
    ++ "'"

/-- The texts that every vector has. -/
def textAttributes : List String :=
  ["projectID", "buggyFile", "repairedFile", "buggyCommitID", "repairedCommitID", "functionName"]

/-- The line of an attribute. -/
def attributeLine (name type : String) : String := s!"@attribute {name} {type}"

/-- The lines before the data. -/
def header (relation : String) (uses : List Use) : List String :=
  [s!"@relation {quote relation}", "", attributeLine "id" "numeric"] ++
  textAttributes.map (attributeLine · "string") ++
  uses.map (fun u => attributeLine (quote u.text) "numeric") ++
  ["", "@data"]

/-- The values of a vector. -/
def cells (uses : List Use) (v : FeatureVector) : List String :=
  toString v.id ::
  [v.provenance.project, v.provenance.buggyFile, v.provenance.repairedFile,
    v.provenance.buggyCommit, v.provenance.repairedCommit, v.function].map quote ++
  (v.project uses).map toString

/-- The relation of some vectors with one attribute for every use. -/
def render (relation : String) (uses : List Use) (vectors : List FeatureVector) : String :=
  let rows := vectors.map fun v => ",".intercalate (cells uses v)
  String.join ((header relation uses ++ rows).map (· ++ "\n"))

end Arff

namespace DataSet

/-- The data set as a relation, with all its uses. -/
def toArff (d : DataSet) (relation : String) : String :=
  Arff.render relation d.definitions d.vectors

/-- The end of the names of ARFF files. -/
def arffEnding : List Char := ".arff".toList

/-- The characters before all endings of ARFF files, of a name given in reverse. -/
def dropEndings (name : List Char) : List Char :=
  if _h : arffEnding.reverse.isPrefixOf name then dropEndings (name.drop arffEnding.length) else name
termination_by name.length
decreasing_by
  have := (List.isPrefixOf_iff_prefix.1 _h).length_le
  simp [arffEnding] at this ⊢
  omega

/-- The name of the relation in a file: the name of the file without any endings. -/
def relationName (file : String) : String :=
  String.ofList (dropEndings file.toList.reverse).reverse

/-- The content of an ARFF file for the data set. -/
def arffFile (d : DataSet) (file : String) : String := d.toArff (relationName file)

end DataSet

end Mend
