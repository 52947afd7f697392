import Mend.Syntax.Ast

/-!
# Walks through a tree

Walks upwards, through the ancestors of a node, and downwards, in preorder, where a visitor decides at
every node whether the walk goes on below it.
-/

namespace Mend.Syntax.Ast

variable {σ : Type}

/-- The nodes strictly above `i`, innermost first. -/
def ancestors (a : Ast) (i : Nat) : List Nat :=
  match _h : a.parent? i with
  | none => []
  | some p => p :: a.ancestors p
termination_by i
decreasing_by exact parent_lt _h

/-- The steps from `i` to the root: each node passed, with the child it was reached from. -/
def ascent (a : Ast) (i : Nat) : List (Nat × Nat) :=
  List.zip (a.ancestors i) (i :: a.ancestors i)

/-- Walks through the subtree at `i` in preorder. The visitor is shown a node, changes the state, and
says whether the walk enters what stands below the node. -/
def walk (a : Ast) (visit : Nat → σ → Bool × σ) (i : Nat) (s : σ) : σ :=
  let (enters, s) := visit i s
  if enters then (a.children i).attach.foldl (fun s c => a.walk visit c.1 s) s else s
termination_by a.size - i
decreasing_by
  have := mem_children c.2
  omega

/-- The nodes met in the subtree at `i` when only nodes that satisfy `enters` are entered. -/
def reach (a : Ast) (enters : Nat → Bool) (i : Nat) : List Nat :=
  (a.walk (fun j met => (enters j, met.push j)) i #[]).toList

/-- The innermost function strictly around `i`. -/
def enclosingFunction? (a : Ast) (i : Nat) : Option Nat :=
  (a.ancestors i).find? a.isFunction

/-- The innermost `try` statement whose body holds `i`, within the same function. -/
def enclosingTry? (a : Ast) (i : Nat) : Option Nat :=
  match (a.ascent i).find? (fun (up, from_) =>
      a.isFunction up || (a.kind up == "try_statement" && a.field? from_ == some "body")) with
  | some (up, _) => if a.isFunction up then none else some up
  | none => none

end Mend.Syntax.Ast
