import Mend.Forest

/-!
# Concrete syntax trees

What the JavaScript parser delivers: a tree of all named nodes (comments too), together with those
unnamed ones that name an operator, name a kind of declaration, or are faulty. The tree comes as rows in
preorder, each with the number of its parent's row.
-/

namespace Mend.Syntax

/-- One node of the parser's tree. -/
structure Token where
  kind : String
  /-- The role of the node in its parent, if the grammar names one. -/
  field : Option String
  start : Nat
  stop : Nat
  /-- The line of the first byte, counted from zero. -/
  row : Nat
  /-- A grammar rule, not a piece of punctuation. -/
  named : Bool
  /-- Text that the parser could not make sense of. -/
  isError : Bool
  /-- A token that the parser had to make up. -/
  isMissing : Bool
  /-- The node or something below it is an error or missing. -/
  hasError : Bool
  deriving DecidableEq, Repr

/-- The parser's tree: a forest with one root. -/
abbrev Concrete := Forest Token

namespace Concrete

/-- Puts the tree of one row in front of its parent's children, or of the roots. `below` holds, by row
number, the children found so far. -/
def attach (row : (Option Nat × Token) × Nat) (state : Array Concrete × Concrete) :
    Array Concrete × Concrete :=
  let ((parent, token), i) := row
  let (below, roots) := state
  let kids := below[i]?.getD .nil
  match parent with
  | none => (below, .cons token kids roots)
  | some p => (below.modify p (fun siblings => .cons token kids siblings), roots)

/-- The tree given by rows in preorder. -/
def ofRows (rows : List (Option Nat × Token)) : Concrete :=
  (rows.zipIdx.foldr attach (Array.replicate rows.length .nil, .nil)).2

/-- The nodes at the roots that stand for a grammar rule. -/
def namedRoots (f : Concrete) : List Token := f.roots.filter (·.named)

end Concrete

/-- Why a text is not a program. -/
inductive Fault where
  | unexpectedToken
  | missing (kind : String)
  /-- The parser reports a fault and shows none. -/
  | unspecified
  deriving DecidableEq, Repr

/-- The text shown for a fault. -/
def Fault.message : Fault → String
  | unexpectedToken => "unexpected token"
  | missing kind => s!"missing `{kind}`"
  | unspecified => "syntax error"

namespace Concrete

/-- The fault of a node itself; being an error goes before being missing. -/
def faultOf (t : Token) : Option Fault :=
  if t.isError then some .unexpectedToken
  else if t.isMissing then some (.missing t.kind)
  else none

/-- The first fault in document order with its line, skipping what is marked free of errors. -/
def firstFault : Concrete → Option (Fault × Nat)
  | .nil => none
  | .cons t kids rest =>
    match faultOf t with
    | some fault => some (fault, t.row + 1)
    | none => (if t.hasError then firstFault kids else none).or (firstFault rest)

/-- The fault that keeps a tree from being read, with its line: there is one when the root is marked. -/
def fault? : Concrete → Option (Fault × Nat)
  | .nil => none
  | .cons root kids _ =>
    if root.hasError then
      some ((firstFault (.cons root kids .nil)).getD (.unspecified, root.row + 1))
    else none

end Concrete

end Mend.Syntax
