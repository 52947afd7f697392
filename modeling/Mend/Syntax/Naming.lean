import Mend.Syntax.Ast
import Mend.Text.Basic

/-!
# Names in a program

Access paths of expressions, names of functions and their parameters.
-/

namespace Mend.Syntax.Ast

/-- The node inside any number of parentheses. -/
def unparen (a : Ast) (i : Nat) : Nat :=
  if a.kind i = "parenthesized_expression" then
    match _h : a.firstChild? i with
    | some c => a.unparen c
    | none => i
  else i
termination_by a.size - i
decreasing_by
  have := firstChild?_bounds _h
  omega

/-- Going into parentheses never goes back in the numbering. -/
theorem le_unparen (a : Ast) (i : Nat) : i ≤ a.unparen i := by
  fun_induction unparen a i with
  | case1 i _ c h ih =>
    have := firstChild?_bounds h
    omega
  | case2 => exact Nat.le_refl _
  | case3 => exact Nat.le_refl _

/-- The access path of a name, of `this`, or of a chain of members, its parts joined by dots. Anything
computed has none. -/
def path? (a : Ast) (i : Nat) : Option String :=
  let j := a.unparen i
  let kind := a.kind j
  if kind = "identifier" ∨ kind = "property_identifier" ∨ kind = "shorthand_property_identifier" then
    some (a.label j)
  else if kind = "this" ∨ kind = "super" then some kind
  else if kind = "member_expression" then
    match _h : a.child? j "object" with
    | none => none
    | some object =>
      match a.child? j "property" with
      | none => none
      | some property => (a.path? object).map (fun base => base ++ "." ++ a.label property)
  else none
termination_by a.size - i
decreasing_by
  have := child?_bounds _h
  have := le_unparen a i
  omega

/-- The value `undefined`, by keyword or by name. -/
def isUndefined (a : Ast) (i : Nat) : Bool :=
  let j := a.unparen i
  a.kind j == "undefined" || (a.kind j == "identifier" && a.label j == "undefined")

/-- The parameters of a function, in order. -/
def parameters (a : Ast) (function : Nat) : List Nat :=
  match a.child? function "parameter" with
  | some single => [single]
  | none => (a.child? function "parameters").elim [] a.children

/-- The name that the first parameter binds, if it is a plain name, with or without a default. -/
def firstParameterName? (a : Ast) (function : Nat) : Option String := do
  let first ← (a.parameters function).head?
  if a.kind first = "identifier" then some (a.label first)
  else if a.kind first = "assignment_pattern" then
    let left ← a.child? first "left"
    if a.kind left = "identifier" then some (a.label left) else none
  else none

/-- The body of a function. -/
def functionBody? (a : Ast) (function : Nat) : Option Nat := a.child? function "body"

/-- The access path of the child in the role `field`. -/
def childPath? (a : Ast) (i : Nat) (field : String) : Option String :=
  (a.child? i field).bind a.path?

/-- The name that the surroundings of a function expression give it: the declarator or the assignment
target it is bound to, or the key it is stored under. -/
def boundName? (a : Ast) (function : Nat) : Option String := do
  let parent ← a.parent? function
  match a.kind parent with
  | "variable_declarator" => a.childPath? parent "name"
  | "assignment_expression" => a.childPath? parent "left"
  | "pair" => (a.child? parent "key").map fun key =>
      Text.trim (fun c => c == '"' || c == '\'') (a.text key)
  | _ => none

/-- The name a function is shown under: its own, or the one it is bound to. -/
def functionName (a : Ast) (function : Nat) : String :=
  match a.child? function "name" with
  | some name => a.text name
  | none => (a.boundName? function).getD anonymousName

end Mend.Syntax.Ast
