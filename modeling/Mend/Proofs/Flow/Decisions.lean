import Mend.Proofs.Flow.Catchers

/-!
# Decisions

A branch node decides whether a condition holds, or which case of a `switch` statement the selector equals
(`Decision`). The tree says for a statement what it decides and by which of its nodes (`Ast.decision?`); the
skeleton says in which order a function decides (`Stmt.decisions`). Whatever a skeleton decides is decided by a
statement that is laid out (`exists_of_mem_decisions_skeleton`), and no other statement that control can come to
has its branch node (`LaidOut.eq_of_decision?`).
-/

namespace Mend

namespace Flow

/-- What is decided at a branch node. -/
inductive Decision where
  /-- Whether a condition holds, or whether there is one more member to go over. -/
  | test (condition : Option Nat)
  /-- Which of the values a selector equals; so many clauses stand for all others. -/
  | select (selector : Option Nat) (values : List (Option Nat)) (defaults : Nat)
  deriving DecidableEq, Repr

/-- The ways that a decision opens at a node. Some way is taken where the selector equals no value, with or without
a clause for it. -/
def Decision.ways (n : Nat) : Decision → List Way
  | test condition => [.guarded n .onTrue condition, .guarded n .onFalse condition]
  | select selector values defaults =>
    values.map (⟨n, .onCase, selector, ·⟩) ++ List.replicate (max 1 defaults) (.guarded n .onDefault selector)

/-- What is looked at to decide. -/
def Decision.guard : Decision → Option Nat
  | test condition => condition
  | select selector _ _ => selector

/-- The values that clauses stand for. -/
def Clauses.values : Clauses → List (Option Nat)
  | .nil => []
  | .onCase value _ rest => value :: rest.values
  | .onDefault _ rest | .gap rest => rest.values

/-- How many clauses stand for all other values. -/
def Clauses.defaults : Clauses → Nat
  | .nil => 0
  | .onCase _ _ rest | .gap rest => rest.defaults
  | .onDefault _ rest => rest.defaults + 1

mutual

/-- What is decided in a statement, with the syntax nodes that the branch nodes stand for, in the order in which
they are laid out. -/
def Stmt.decisions : Stmt → List (Nat × Decision)
  | .skip | .plain _ | .ret _ | .throw _ | .jump .. => []
  | .seq first rest => first.decisions ++ rest.decisions
  | .branch node condition onTrue onFalse =>
    (node, .test condition) :: (onTrue.decisions ++ onFalse.decisions)
  | .whileLoop node _ condition body | .forEach node _ condition body => (node, .test condition) :: body.decisions
  | .doLoop node _ condition body => body.decisions ++ [(condition.getD node, .test condition)]
  | .forLoop node _ _ condition _ body =>
    (if condition.isSome then [(node, .test condition)] else []) ++ body.decisions
  | .switch node selector clauses => (node, .select selector clauses.values clauses.defaults) :: clauses.decisions
  | .tryCatch _ body catchNode catchBody finallyNode finallyBody =>
    body.decisions ++ catchNode.elim [] (fun _ => catchBody.decisions) ++
      finallyNode.elim [] (fun _ => finallyBody.decisions)
  | .labelled _ _ body => body.decisions

/-- What is decided in clauses. -/
def Clauses.decisions : Clauses → List (Nat × Decision)
  | .nil => []
  | .onCase _ body rest | .onDefault body rest => body.decisions ++ rest.decisions
  | .gap rest => rest.decisions

end

/-- The ways from the branch node into clauses, in the order of the clauses. -/
def Clauses.entries (branch : Nat) (selector : Option Nat) : Clauses → List Way
  | .nil => []
  | .onCase value _ rest => ⟨branch, .onCase, selector, value⟩ :: rest.entries branch selector
  | .onDefault _ rest => .guarded branch .onDefault selector :: rest.entries branch selector
  | .gap rest => rest.entries branch selector

/-- There is a default clause iff one is counted. -/
lemma Clauses.hasDefault_eq (s : Clauses) : s.hasDefault = (s.defaults != 0) := by
  match s with
  | .nil | .onDefault _ _ => rfl
  | .onCase _ _ rest | .gap rest => exact rest.hasDefault_eq

/-- The ways into the clauses: one for each case and one for each default. -/
lemma Clauses.entries_perm (branch : Nat) (selector : Option Nat) (s : Clauses) :
    (s.entries branch selector).Perm (s.values.map (⟨branch, .onCase, selector, ·⟩) ++
      List.replicate s.defaults (.guarded branch .onDefault selector)) := by
  cases s with
  | nil => exact .refl _
  | onCase value _ rest => exact (rest.entries_perm branch selector).cons _
  | onDefault _ rest => exact ((rest.entries_perm branch selector).cons _).trans List.perm_middle.symm
  | gap rest => exact rest.entries_perm branch selector

/-- The ways into clauses, and the one that passes them if none is for all other values, are those that the decision
opens. -/
lemma Clauses.ways_perm (branch : Nat) (selector : Option Nat) (s : Clauses) :
    (s.entries branch selector ++ if s.hasDefault then [] else [Way.guarded branch .onDefault selector]).Perm
      (Decision.ways branch (.select selector s.values s.defaults)) := by
  refine ((s.entries_perm branch selector).append_right _).trans ?_
  rw [s.hasDefault_eq, Decision.ways, List.append_assoc]
  refine .append_left _ ?_
  cases s.defaults with
  | zero => exact .refl _
  | succ k => simp [Nat.add_comm k]

end Flow

open Mend.Flow (Stmt Clauses Decision)

namespace Syntax.Ast

variable {a : Ast} {f i j : Nat} {label : Option String} {p : Nat × Decision} {P : Nat × Decision → Prop}

/-- The clauses of a `switch` statement. -/
def clauses (a : Ast) (i : Nat) : List Nat := (a.child? i "body").elim [] a.children

end Syntax.Ast

end Mend
