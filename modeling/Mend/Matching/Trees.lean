import Mend.Digest.Subtree
import Mend.Matching.Basic

/-!
# Two trees to match

The two trees of a comparison with the digests of their subtrees, and the questions that every phase of
the matching asks of them.
-/

namespace Mend.Matching

open Syntax (Ast)

/-- A buggy tree and its repair, with the digests of their subtrees. -/
structure Trees where
  buggy : Ast
  repaired : Ast
  buggyDigests : Digest.Table
  repairedDigests : Digest.Table

/-- Two trees with their digests. -/
def Trees.of (buggy repaired : Ast) : Trees := ⟨buggy, repaired, .ofAst buggy, .ofAst repaired⟩

/-- The least height of a subtree that is matched as a whole wherever it stands. -/
def leastHeight : Nat := 2

/-- The kinds of declaration that are known by their name. -/
def anchorKinds : List String :=
  ["function_declaration", "generator_function_declaration", "class_declaration",
   "method_definition", "variable_declarator"]

/-- The text of the name of a declaration. -/
def nameText? (a : Ast) (i : Nat) : Option String := (a.child? i "name").map a.text

namespace Trees

variable (t : Trees)

/-- The digests of a subtree of the buggy tree. -/
def old (s : Nat) : Digest.Subtree := t.buggyDigests.at s

/-- The digests of a subtree of the repaired tree. -/
def new (d : Nat) : Digest.Subtree := t.repairedDigests.at d

/-- Whether two subtrees are taken for equal. -/
def sameDigest (s d : Nat) : Bool := (t.old s).exact == (t.new d).exact

/-- Whether nothing in the names of two nodes speaks against pairing them: declarations need the same
name. -/
def sameName (s d : Nat) : Bool :=
  !anchorKinds.contains (t.buggy.kind s) || nameText? t.buggy s == nameText? t.repaired d

/-- Whether the parents of two nodes are paired with each other. -/
def parentsPaired (m : Matching) (s d : Nat) : Bool :=
  match t.buggy.parent? s, t.repaired.parent? d with
  | some sp, some dp => m.toRepaired? sp == some dp
  | _, _ => false

end Trees

end Mend.Matching
