import Mend.Text.Shortest

/-!
# JSON

Values and their printed form: two blanks for every level, the members of an object in the order of their
names, and nothing escaped but quotes, backslashes and control characters.
-/

namespace Mend

/-- A JSON value. -/
inductive Json where
  | null
  | bool (b : Bool)
  | integer (n : Int)
  /-- A number written with a fraction or an exponent. -/
  | fraction (x : Float)
  | string (s : String)
  | array (items : List Json)
  | object (members : List (String × Json))
  deriving Inhabited

namespace Json

/-- A natural number. -/
def nat (n : Nat) : Json := .integer n

/-- A value that may be missing. -/
def option {α : Type} (f : α → Json) : Option α → Json
  | none => .null
  | some v => f v

/-- The member of an object with a name. -/
def member? (j : Json) (name : String) : Option Json :=
  match j with
  | .object members => (members.find? (·.1 == name)).map Prod.snd
  | _ => none

/-- The text of a string. -/
def string? : Json → Option String
  | .string s => some s
  | _ => none

/-- The value of a natural number. -/
def nat? : Json → Option Nat
  | .integer (.ofNat n) => some n
  | _ => none

/-- The printed form of a character in a string. -/
def escape (c : Char) : List Char :=
  match c with
  | '"' => ['\\', '"']
  | '\\' => ['\\', '\\']
  | '\n' => ['\\', 'n']
  | '\r' => ['\\', 'r']
  | '\t' => ['\\', 't']
  | '\x08' => ['\\', 'b']
  | '\x0c' => ['\\', 'f']
  | c =>
    if c.toNat < 0x20 then
      ['\\', 'u', '0', '0', Nat.digitChar (c.toNat / 16), Nat.digitChar (c.toNat % 16)]
    else [c]

/-- The printed form of a string. -/
def quote (s : String) : String := "\"" ++ String.ofList (s.toList.flatMap escape) ++ "\""

/-- The line end before an item at a level. -/
def newLine (level : Nat) : String := "\n" ++ String.ofList (List.replicate (2 * level) ' ')

/-- Printed items between brackets. -/
def bracket (level : Nat) (opening closing : String) (items : List String) : String :=
  if items.isEmpty then opening ++ closing
  else
    opening ++ ",".intercalate (items.map (newLine (level + 1) ++ ·)) ++ newLine level ++ closing

mutual

/-- The printed form of a value at a level. -/
def printAt (level : Nat) : Json → String
  | .null => "null"
  | .bool b => if b then "true" else "false"
  | .integer n => toString n
  | .fraction x => Text.shortest x
  | .string s => quote s
  | .array items => bracket level "[" "]" (printItems (level + 1) items)
  | .object members =>
    let sorted := (printMembers (level + 1) members).mergeSort fun a b => a.1 ≤ b.1
    bracket level "\x7b" "\x7d" (sorted.map fun m => quote m.1 ++ ": " ++ m.2)

/-- The printed forms of the items of an array. -/
def printItems (level : Nat) : List Json → List String
  | [] => []
  | item :: items => printAt level item :: printItems level items

/-- The printed forms of the members of an object, with their names. -/
def printMembers (level : Nat) : List (String × Json) → List (String × String)
  | [] => []
  | (name, value) :: members => (name, printAt level value) :: printMembers level members

end

/-- The printed form of a value. -/
def print (j : Json) : String := j.printAt 0

end Json

end Mend
