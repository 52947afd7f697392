import Mend.Detector.Basic

/-!
# Error handling added

Finds calls that were there before the repair, that no `try` statement protected then, and that stand in
the body of an inserted `try` statement now.
-/

namespace Mend

open Syntax (Ast)

namespace ScopeTree

variable (t : ScopeTree)

/-- The nodes met from `i` without going into functions. -/
def withoutFunctions (a : Ast) (i : Nat) : List Nat :=
  (a.reach (fun j => !a.isFunction j) i).filter fun j => !a.isFunction j

/-- The nodes of a `catch` or `finally` clause that the clause leaves unprotected: all but those inside
functions and inside further `try` statements. -/
def clauseNodes (a : Ast) (clause : Nat) : List Nat :=
  (a.reach (fun j => !a.isFunction j && (j == clause || a.kind j != "try_statement")) clause).filter
    fun j => !a.isFunction j

/-- The nodes in the clauses of a `try` statement that the clauses leave unprotected. -/
def handlerNodes (a : Ast) (tryStatement : Nat) : List Nat :=
  ["handler", "finalizer"].flatMap fun role =>
    (a.child? tryStatement role).elim [] (clauseNodes a)

/-- The nodes of a scope that no `try` body of the scope protects. -/
def exposedNodes (scope : Nat) : List Nat :=
  match t.owner? scope with
  | none => []
  | some start =>
    let a := t.ast
    let inside (j : Nat) : Bool := j == start || !a.isFunction j
    (a.reach (fun j => inside j && a.kind j != "try_statement") start).flatMap fun j =>
      if !inside j then []
      else if a.kind j == "try_statement" then handlerNodes a j
      else [j]

/-- The calls of a scope that no `try` statement protects, with the names of what they call, in the order
of the file. -/
def unprotectedCalls (scope : Nat) : List (Nat × String) :=
  ((t.exposedNodes scope).filterMap fun j =>
      if t.ast.kind j = "call_expression" then (t.ast.calleeName? j).map fun name => (j, name)
      else none).mergeSort fun x y => x.1 ≤ y.1

end ScopeTree

namespace Detector

/-- The calls in the body of a `try` statement, those in nested functions apart. -/
def protectedCalls (a : Ast) (tryStatement : Nat) : List Nat :=
  (a.child? tryStatement "body").elim [] fun body =>
    (ScopeTree.withoutFunctions a body).filter fun j => a.kind j == "call_expression"

/-- What is found in a repaired scope whose partner is `old`. -/
def newlyProtected (x : Analysis) (old new : Nat) : List Finding :=
  let r := x.comparison.repaired
  let exposed := (x.buggyScopes.unprotectedCalls old).map (·.1)
  let tries := (x.repairedScopes.ownNodes new).filter fun j =>
    r.kind j == "try_statement" && r.change j == .inserted
  tries.flatMap fun tryStatement =>
    (protectedCalls r.toAst tryStatement).filterMap fun call =>
      if x.isOld call && (x.partner? call).any exposed.contains then
        (r.calleeName? call).map fun name => x.finding new (r.line call) (.errorHandlingAdded name)
      else none

/-- Finds calls that are newly protected. -/
def errorHandling : Detector where
  name := "error-handling"
  inScopes x pair :=
    match pair.buggy, pair.repaired with
    | some old, some new => newlyProtected x old new
    | _, _ => []

end Detector

end Mend
