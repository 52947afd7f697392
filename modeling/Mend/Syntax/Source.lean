import Mend.Failure
import Mend.Syntax.Ast
import Mend.Syntax.Concrete

/-!
# Reading a program

A source is a text with the parser's tree for it. Reading the tree keeps the named nodes, without
comments; names, literals and the like become leaves that carry their text, and operators carry their
token. On request cosmetic syntax is simplified away: a pair of parentheses around a single node gives way
to that node, and empty statements go.
-/

namespace Mend.Syntax

/-- A program text with the parser's tree. -/
structure Source where
  text : String
  tree : Concrete

instance : Inhabited Source := ⟨⟨"", .nil⟩⟩

/-- The kinds of node that are read as leaves, with their text as label. -/
def leafKinds : List String :=
  ["identifier", "property_identifier", "shorthand_property_identifier",
   "shorthand_property_identifier_pattern", "private_property_identifier", "statement_identifier",
   "string", "template_string", "regex", "number", "this", "super", "null", "undefined", "true", "false"]

/-- The kinds of node whose label is the token of their operator. -/
def operatorKinds : List String :=
  ["binary_expression", "unary_expression", "update_expression", "augmented_assignment_expression",
   "for_in_statement"]

/-- The kind of the first node at the roots in the role `field`. -/
def kindInRole (field : String) (kids : Concrete) : String :=
  ((kids.roots.find? (fun t => t.field == some field)).map (·.kind)).getD ""

/-- The label of a node. -/
def labelOf (source : String) (t : Token) (kids : Concrete) : String :=
  if leafKinds.contains t.kind then (Text.slice? source t.start t.stop).getD ""
  else if operatorKinds.contains t.kind then kindInRole "operator" kids
  else if t.kind == "lexical_declaration" then kindInRole "kind" kids
  else ""

/-- Parentheses around exactly one node. A comment inside counts as a node. -/
def isWrapper (t : Token) (kids : Concrete) : Bool :=
  t.kind == "parenthesized_expression" && kids.namedRoots.length == 1

/-- Which trees of a forest are read. -/
inductive Pick where
  /-- Every tree that the program keeps. -/
  | all
  /-- The one inside a pair of parentheses, in the role that the parentheses have. -/
  | inner (field : Option String)

namespace Pick

/-- The trees passed over. -/
def skips (simplify : Bool) (t : Token) : Pick → Bool
  | all => !t.named || t.kind == "comment" || (simplify && t.kind == "empty_statement")
  | inner _ => !t.named

/-- The role of a tree that is read. -/
def role (t : Token) : Pick → Option String
  | all => t.field
  | inner field => field

end Pick

/-- Reads the picked trees of a forest. -/
def readForest (source : String) (simplify : Bool) : Concrete → Pick → Forest Node
  | .nil, _ => .nil
  | .cons t kids rest, pick =>
    if pick.skips simplify t then readForest source simplify rest pick
    else
      let tree :=
        if simplify && isWrapper t kids then
          readForest source simplify kids (.inner (pick.role t))
        else
          .cons ⟨t.kind, pick.role t, labelOf source t kids, t.start, t.stop, t.row + 1⟩
            (if leafKinds.contains t.kind then .nil else readForest source simplify kids .all) .nil
      match pick with
      | .all => tree ++ readForest source simplify rest .all
      | .inner _ => tree

namespace Source

/-- The abstract tree, whether or not the parser met faults. -/
def read (s : Source) (simplify : Bool) : Ast :=
  .ofForest s.text (readForest s.text simplify s.tree (.inner none))

/-- The abstract tree of a text without faults. -/
def parse (s : Source) (side : Side) (simplify : Bool) : Except Failure Ast :=
  match s.tree.fault? with
  | some (fault, line) => .error (.syntaxError side fault.message line)
  | none => .ok (s.read simplify)

end Source

end Mend.Syntax
