import Mend.Failure
import Mend.Feature.Basic
import Mend.Text.Basic
import Mend.Text.Natural

/-!
# Written feature vectors

A feature vector is written as one line of fields with commas between them: number, project, files,
commits and function, and then a field with six parts for every keyword use. Characters that would be taken
for separators are written as underscores.
-/

namespace Mend

open Keyword (Use Kind Context)

namespace Row

/-- A character that separates fields, parts or lines. -/
def isSeparator (c : Char) : Bool := c == ',' || c == ':' || c == '\n' || c == '\r'

/-- A text as it is written into a field. -/
def sanitize (s : String) : String :=
  String.ofList (s.toList.map fun c => if isSeparator c then '_' else c)

/-- The field of a keyword use. -/
def writeUse (u : Use) (count : UInt64) : String :=
  s!"{u.kind.text}:{u.context.text}:{u.change.text}:{sanitize u.api}:{sanitize u.keyword}:{count}"

/-- The fields of a vector. -/
def fields (v : FeatureVector) : List String :=
  [toString v.id, sanitize v.provenance.project, sanitize v.provenance.buggyFile,
   sanitize v.provenance.repairedFile, sanitize v.provenance.buggyCommit,
   sanitize v.provenance.repairedCommit, sanitize v.function] ++
  v.counts.entries.map fun e => writeUse e.1 e.2

/-- The row of a vector. -/
def write (v : FeatureVector) : String := ",".intercalate (fields v)

/-- The fields of a row, without the line end. -/
def split (row : String) : List String :=
  Text.splitAt ',' (Text.trimEnd (fun c => c == '\r' || c == '\n') row)

/-- Reads the fields before those of the uses: the vector without uses, and the fields that are left. -/
def readHeader (row : String) : Except Failure (FeatureVector × List String) :=
  match split row with
  | id :: project :: buggyFile :: repairedFile :: buggyCommit :: repairedCommit :: function :: uses =>
    match Text.readWord id with
    | .ok word =>
      let provenance := ⟨project, buggyFile, repairedFile, buggyCommit, repairedCommit⟩
      .ok (.blank word provenance function, uses)
    | .error e => .error (.malformedVector s!"bad id `{id}`: {e.message}")
  | fields =>
    .error (.malformedVector s!"expected at least 7 header columns, found {fields.length}")

/-- Reads the field of a use. Parts after the sixth are ignored. -/
def readUse (field : String) : Except Failure (Use × UInt64) :=
  let refuse {α : Type} (why : String) : Except Failure α :=
    .error (.malformedVector s!"keyword field `{field}`: {why}")
  match Text.splitAt ':' field with
  | kind :: context :: change :: api :: keyword :: count :: _ =>
    match Kind.ofText kind with
    | .error e => refuse e.message
    | .ok kind =>
      match Context.ofText context with
      | .error e => refuse e.message
      | .ok context =>
        match Change.ofText change with
        | .error e => refuse e.message
        | .ok change =>
          match Text.readWord count with
          | .error e => refuse e.message
          | .ok count => .ok (⟨kind, context, change, api, keyword⟩, count)
  | parts =>
    .error (.malformedVector s!"keyword field `{field}` has {parts.length} parts, expected 6")

/-- Reads the vector of a row. Counts of equal uses are added up, and the code is not written. -/
def read (row : String) : Except Failure FeatureVector := do
  let (v, fields) ← readHeader row
  let uses ← fields.mapM readUse
  return { v with counts := Tally.empty.addAll uses }

end Row

/-- Moves the source past the number of a row, also when the fields of its uses cannot be read. -/
def IdSource.observeRow (s : IdSource) (row : String) : IdSource :=
  match Row.readHeader row with
  | .ok (v, _) => s.observe v.id
  | .error _ => s

end Mend
