import Mend.Finding.Basic
import Mend.Json.Basic

/-!
# Findings as JSON

A finding is one object; the shape of the repair is a member of it, beside the members that belong to the
shape. Reading takes no notice of other members.
-/

namespace Mend

/-- The object of a provenance. -/
def Provenance.toJson (p : Provenance) : Json :=
  .object [("project_id", .string p.project), ("buggy_file", .string p.buggyFile),
    ("repaired_file", .string p.repairedFile), ("buggy_commit", .string p.buggyCommit),
    ("repaired_commit", .string p.repairedCommit)]

/-- Reads a provenance: an object, or an array of its five texts. -/
def Provenance.ofJson? (j : Json) : Option Provenance := do
  let parts ← match j with
    | .array items => items.mapM Json.string?
    | _ =>
      ["project_id", "buggy_file", "repaired_file", "buggy_commit", "repaired_commit"].mapM
        fun name => (j.member? name).bind Json.string?
  match parts with
  | [project, buggyFile, repairedFile, buggyCommit, repairedCommit] =>
    some ⟨project, buggyFile, repairedFile, buggyCommit, repairedCommit⟩
  | _ => none

namespace RepairPattern

/-- The members of a shape. -/
def members (p : RepairPattern) : List (String × Json) :=
  ("pattern", .string p.tag) ::
  match p with
  | errorHandlingAdded call => [("call", .string call)]
  | callbackErrorAdded callback => [("callback", .string callback)]
  | specialValueGuardAdded v sentinels =>
    [("variable", .string v), ("sentinels", .string sentinels.flags)]

/-- Reads the shape among the members of an object. A shape may be given by its name or by its number. -/
def ofJson? (j : Json) : Option RepairPattern := do
  let text (name : String) : Option String := (j.member? name).bind Json.string?
  match ← j.member? "pattern" with
  | .string "ERROR_HANDLING_ADDED" | .integer 0 => return errorHandlingAdded (← text "call")
  | .string "CALLBACK_ERROR_ADDED" | .integer 1 => return callbackErrorAdded (← text "callback")
  | .string "SPECIAL_VALUE_GUARD_ADDED" | .integer 2 =>
    return specialValueGuardAdded (← text "variable")
      (← SentinelSet.ofFlags? (← text "sentinels"))
  | _ => none

end RepairPattern

namespace Finding

/-- The object of a finding. -/
def toJson (f : Finding) : Json :=
  .object ([("ami", f.provenance.toJson), ("function_name", .string f.function),
    ("line", .nat f.line), ("description", .string f.description)] ++ f.pattern.members)

/-- Reads a finding. Its line is a 64-bit word. -/
def ofJson? (j : Json) : Option Finding := do
  let provenance ← Provenance.ofJson? (← j.member? "ami")
  let function ← (← j.member? "function_name").string?
  let line ← (← j.member? "line").nat?
  let pattern ← RepairPattern.ofJson? j
  let description ← (← j.member? "description").string?
  if line < UInt64.size then some ⟨provenance, function, line, pattern, description⟩ else none

end Finding

end Mend
