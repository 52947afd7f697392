import Mend.Change
import Mend.Syntax.Ast

/-!
# Revisions

A revision is one side of a comparison: a tree with a change label at every node.
-/

namespace Mend

open Syntax (Ast)

/-- A tree with a change label for every node. -/
structure Revision extends Ast where
  changes : Array Change

namespace Revision

/-- A tree that has not been compared. -/
def ofAst (a : Ast) : Revision := ⟨a, Array.replicate a.size .unknown⟩

instance : Inhabited Revision := ⟨ofAst .empty⟩

/-- The label of a node. -/
def change (r : Revision) (i : Nat) : Change := r.changes[i]?.getD .unknown

/-- The same tree with other labels. -/
def relabel (a : Ast) (label : Nat → Change) : Revision := ⟨a, (Array.range a.size).map label⟩

end Revision

end Mend
