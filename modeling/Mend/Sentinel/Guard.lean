import Mend.Sentinel.Reading
import Mend.Syntax.Walk

/-!
# Guards

A guard is an `if` statement, a conditional expression, or a logical operator: something that lets a part
of the program run only if a condition came out one way. A guard covers its branches or its right operand.
An `if` statement without alternative whose consequence never completes also covers what follows it, with
the condition false.
-/

namespace Mend.Syntax.Ast

/-- Whether a statement never completes normally. -/
def alwaysExits (a : Ast) (i : Nat) : Bool :=
  match a.kind i with
  | "return_statement" | "throw_statement" | "break_statement" | "continue_statement" => true
  | "statement_block" =>
    match _h : (a.children i).getLast? with
    | some last => a.alwaysExits last
    | none => false
  | "if_statement" =>
    match _hc : a.child? i "consequence", _ha : a.child? i "alternative" with
    | some consequence, some clause =>
      match _hf : a.firstChild? clause with
      | some otherwise => a.alwaysExits consequence && a.alwaysExits otherwise
      | none => false
    | _, _ => false
  | _ => false
termination_by a.size - i
decreasing_by
  · have := mem_children (List.mem_of_getLast? _h)
    omega
  all_goals have hc := child?_bounds _hc
  all_goals have ha := child?_bounds _ha
  all_goals have hf := firstChild?_bounds _hf
  all_goals omega

/-- Whether a node is a guard. -/
def isGuard (a : Ast) (i : Nat) : Bool :=
  match a.kind i with
  | "if_statement" | "ternary_expression" => true
  | "binary_expression" => a.label i == "&&" || a.label i == "||"
  | _ => false

/-- The expression that a guard decides by. -/
def guardCondition? (a : Ast) (guard : Nat) : Option Nat :=
  if a.kind guard = "binary_expression" then a.child? guard "left" else a.child? guard "condition"

/-- A guard together with the outcome of its condition that lets the covered part run. -/
structure Cover where
  guard : Nat
  outcome : Bool
  deriving DecidableEq, Repr

/-- How the node `up` covers its child `below`. -/
def coverOf? (a : Ast) (up below : Nat) : Option Cover :=
  match a.kind up with
  | "if_statement" | "ternary_expression" =>
    match a.field? below with
    | some "consequence" => some ⟨up, true⟩
    | some "alternative" => some ⟨up, false⟩
    | _ => none
  | "binary_expression" =>
    if a.isGuard up && a.field? below == some "right" then some ⟨up, a.label up == "&&"⟩ else none
  | _ => none

/-- Whether a statement is an early exit: an `if` without alternative whose consequence never
completes. -/
def isEarlyExit (a : Ast) (i : Nat) : Bool :=
  a.kind i == "if_statement" && (a.child? i "alternative").isNone &&
    (a.child? i "consequence").any a.alwaysExits

/-- The early exits among the children of `up` before `below`. -/
def earlyExits (a : Ast) (up below : Nat) : List Nat :=
  ((a.children up).takeWhile (· != below)).filter a.isEarlyExit

/-- The guards that cover a node, innermost first, within the function around it. -/
def covers (a : Ast) (i : Nat) : List Cover :=
  ((a.ascent i).takeWhile fun (up, _) => !a.isFunction up).flatMap fun (up, below) =>
    (a.coverOf? up below).toList ++ (a.earlyExits up below).map fun g => ⟨g, false⟩

/-- The sentinels that a guard tests for. -/
def guardTests (a : Ast) (guard : Nat) : List Fact :=
  (a.guardCondition? guard).elim [] fun c => (a.condition c).tests

/-- The sentinels that a guard rules out in the part it covers. -/
def ruledOut (a : Ast) (c : Cover) : List Fact :=
  (a.guardCondition? c.guard).elim [] fun e => (a.condition e).excluded c.outcome

/-- The access path that a node dereferences: the object of a member or of a subscript, or the name that
is called. -/
def dereferenced? (a : Ast) (i : Nat) : Option String :=
  match a.kind i with
  | "member_expression" | "subscript_expression" => a.childPath? i "object"
  | "call_expression" => do
    let callee := a.unparen (← a.child? i "function")
    if a.kind callee = "identifier" then some (a.label callee) else none
  | _ => none

end Mend.Syntax.Ast

namespace Mend

/-- Whether an access path is `start` or goes on from it. -/
def reachesThrough (path start : String) : Bool :=
  path == start || (start.toList ++ ['.']).isPrefixOf path.toList

end Mend
