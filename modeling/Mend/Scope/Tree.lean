import Mend.Syntax.Naming
import Mend.Syntax.Walk

/-!
# Scopes

A program has one scope for the script and one for each function, numbered in the order of the file. A
function's own scope holds its parameters, and the name of a function expression; every other declaration
belongs to the scope of the innermost function around it. An assignment to a name that no scope around it
declares makes a global. Of several declarations of one name in one scope the first counts.
-/

namespace Mend

open Syntax (Ast)

/-- A name declared in a scope, and the node that declares it. -/
structure Declaration where
  scope : Nat
  name : String
  node : Nat
  deriving DecidableEq, Repr

/-- The scopes of a program. -/
structure ScopeTree where
  ast : Ast
  /-- The node of each scope: the root, then the functions. -/
  owners : List Nat
  /-- All declarations, the counting ones before those that do not count. -/
  declarations : List Declaration

namespace ScopeTree

/-- The names bound by a parameter or by the left side of a declarator. -/
def boundNames (a : Ast) (pattern : Nat) : List Nat :=
  let part (role : String) : List Nat :=
    match _h : a.child? pattern role with
    | some c => boundNames a c
    | none => []
  match a.kind pattern with
  | "identifier" | "shorthand_property_identifier_pattern" => [pattern]
  | "assignment_pattern" | "object_assignment_pattern" => part "left"
  | "pair_pattern" => part "value"
  | "object_pattern" | "array_pattern" | "rest_pattern" =>
    (a.children pattern).attach.flatMap fun c => boundNames a c.1
  | _ => []
termination_by a.size - pattern
decreasing_by
  · have := Ast.child?_bounds _h
    omega
  · have := Ast.mem_children c.2
    omega

variable (t : ScopeTree)

/-- The number of scopes. -/
def size : Nat := t.owners.length

/-- The numbers of all scopes. -/
def ids : List Nat := List.range t.size

/-- The node of a scope. -/
def owner? (scope : Nat) : Option Nat := t.owners[scope]?

/-- The scope that a node opens. -/
def scopeOf? (node : Nat) : Option Nat := t.owners.idxOf? node

/-- The scopes around a node, innermost first. -/
def around (node : Nat) : List Nat := (t.ast.ancestors node).filterMap t.scopeOf?

/-- The innermost scope around a node; the root counts as inside its own scope. -/
def enclosing (node : Nat) : Nat := (t.around node).head?.getD 0

/-- The scope around a scope. -/
def parent? (scope : Nat) : Option Nat := (t.owner? scope).bind fun node => (t.around node).head?

/-- The scopes directly inside a scope. They come after it. -/
def children (scope : Nat) : List Nat :=
  (List.range' (scope + 1) (t.size - (scope + 1))).filter fun c => t.parent? c == some scope

theorem lt_of_mem_children {t : ScopeTree} {scope c : Nat} (h : c ∈ t.children scope) :
    scope < c ∧ c < t.size := by
  simp only [children, List.mem_filter, List.mem_range'_1] at h
  omega

/-- The name a scope is shown under. -/
def name (scope : Nat) : String :=
  if scope = 0 then Syntax.scriptName else (t.owner? scope).elim "" t.ast.functionName

/-- A scope and those around it, innermost first. -/
def chain (scope : Nat) : List Nat := scope :: (t.owner? scope).elim [] t.around

/-- The node that declares a name in a scope. -/
def declaration? (scope : Nat) (name : String) : Option Nat :=
  (t.declarations.find? fun d => d.scope == scope && d.name == name).map (·.node)

/-- The innermost scope from `scope` outwards that declares a name, and the node that does. -/
def resolve? (scope : Nat) (name : String) : Option (Nat × Nat) :=
  (t.chain scope).findSome? fun s => (t.declaration? s name).map fun node => (s, node)

/-- The kinds of function expression, whose name is known inside only. -/
def expressionKinds : List String := ["function_expression", "function", "generator_function"]

/-- The nodes that a function declares in its own scope. -/
def ownBindings (a : Ast) (function : Nat) : List Nat :=
  (a.parameters function).flatMap (boundNames a) ++
    if expressionKinds.contains (a.kind function) then (a.child? function "name").toList else []

/-- The nodes that a statement or clause declares in the scope around it. -/
def outerBindings (a : Ast) (i : Nat) : List Nat :=
  match a.kind i with
  | "variable_declarator" => (a.child? i "name").elim [] (boundNames a)
  | "function_declaration" | "generator_function_declaration" | "class_declaration" =>
    (a.child? i "name").toList
  | "catch_clause" => (a.child? i "parameter").elim [] (boundNames a)
  | _ => []

/-- The declarations made at a node. -/
def declarationsAt (i : Nat) : List Declaration :=
  let bind (scope : Nat) (nodes : List Nat) : List Declaration :=
    nodes.map fun node => ⟨scope, t.ast.label node, node⟩
  let own := if t.ast.isFunction i then (t.scopeOf? i).elim [] fun s => bind s (ownBindings t.ast i)
    else []
  own ++ bind (t.enclosing i) (outerBindings t.ast i)

/-- The plain name that an assignment assigns to. -/
def assigned? (a : Ast) (i : Nat) : Option Nat :=
  if a.kind i = "assignment_expression" then
    (a.child? i "left").filter fun left => a.kind left == "identifier"
  else none

/-- Makes a global of the name assigned to at a node, if nothing declares it. -/
def addGlobal (i : Nat) : ScopeTree :=
  match assigned? t.ast i with
  | some left =>
    let name := t.ast.label left
    if (t.resolve? (t.enclosing i) name).isNone then
      { t with declarations := t.declarations ++ [⟨0, name, left⟩] }
    else t
  | none => t

/-- The scopes of a program; there are none in an empty tree. -/
def ofAst (a : Ast) : ScopeTree :=
  let bare : ScopeTree := ⟨a, a.root?.toList ++ a.ids.filter a.isFunction, []⟩
  let declared : ScopeTree := { bare with declarations := a.ids.flatMap bare.declarationsAt }
  a.ids.foldl addGlobal declared

/-- The declarations of a scope that count. -/
def declared (scope : Nat) : List (String × Nat) :=
  let names := ((t.declarations.filter (·.scope == scope)).map (·.name)).eraseDups
  names.filterMap fun name => (t.declaration? scope name).map fun node => (name, node)

/-- The nodes that belong to a scope itself: what stands below its node, without the insides of nested
functions. -/
def ownNodes (scope : Nat) : List Nat :=
  match t.owner? scope with
  | none => []
  | some start =>
    (t.ast.reach (fun i => i == start || !t.ast.isFunction i) start).filter (· != start)

end ScopeTree

end Mend
