import Mend.Sentinel.Set

/-!
# Conditions

What a condition says about special values. A condition is read as a formula over access paths: the
truth of a path, comparisons of a path with a literal, calls of `isNaN`, negation, conjunction and
disjunction; whatever else it holds says nothing.

`Condition.tests` lists the sentinels that a condition compares a path with, and `Condition.excluded`
those that a path is known not to hold after the condition has come out true or false.
-/

namespace Mend

/-- A literal that stands for a special value. -/
inductive Literal where
  | undefined
  | null
  | true_
  | false_
  | nan
  | blank
  | zero
  deriving DecidableEq, Repr

/-- The sentinel that a literal stands for. -/
def Literal.sentinel : Literal → Sentinel
  | undefined => .undefined
  | null => .null
  | true_ => .truthy
  | false_ => .falsey
  | nan => .nan
  | blank => .blank
  | zero => .zero

/-- One side of a comparison. -/
inductive Operand where
  | literal (l : Literal)
  | path (p : String)
  /-- The type name of something, which has an access path or not. -/
  | typeName (p : Option String)
  /-- The string `undefined`. -/
  | undefinedName
  | other
  deriving DecidableEq, Repr

/-- A comparison operator. -/
structure Equality where
  isNegated : Bool
  isStrict : Bool
  deriving DecidableEq, Repr

/-- What a condition says about access paths. -/
inductive Condition where
  /-- The path itself is the condition. -/
  | truth (path : String)
  | negation (c : Condition)
  | both (l r : Condition)
  | either (l r : Condition)
  | comparison (op : Equality) (l r : Operand)
  | isNaN (path : String)
  | unknown
  deriving DecidableEq, Repr

/-- A path and a sentinel that something says about it. -/
abbrev Fact := String × Sentinel

/-- The sentinel that a comparison of `var` with `value` tests for, and the path it tests. -/
def Operand.fact? : Operand → Operand → Option Fact
  | .typeName (some p), .undefinedName => some (p, .undefined)
  | .path p, .literal l => some (p, l.sentinel)
  | _, _ => none

namespace Condition

/-- What a comparison says about either side. -/
def comparisonFacts (l r : Operand) : List Fact := (l.fact? r).toList ++ (r.fact? l).toList

/-- The sentinels that a condition compares paths with. -/
def tests : Condition → List Fact
  | truth p => [(p, .falsey)]
  | negation c => c.tests
  | both l r | either l r => l.tests ++ r.tests
  | comparison _ l r => comparisonFacts l r
  | isNaN p => [(p, .nan)]
  | unknown => []

/-- The sentinels that paths do not hold when the condition has come out as `outcome`. -/
def excluded : Condition → Bool → List Fact
  | truth p, outcome => if outcome then [(p, .falsey)] else []
  | negation c, outcome => c.excluded !outcome
  | both l r, outcome => if outcome then l.excluded true ++ r.excluded true else []
  | either l r, outcome => if outcome then [] else l.excluded false ++ r.excluded false
  | comparison op l r, outcome => if op.isNegated == outcome then comparisonFacts l r else []
  | isNaN p, outcome => if outcome then [] else [(p, .nan)]
  | unknown, _ => []

end Condition

/-- The sentinels that a list of facts names for a path. -/
def sentinelsOf (facts : List Fact) (path : String) : SentinelSet :=
  .ofList ((facts.filter (·.1 == path)).map (·.2))

/-- The paths that a list of facts names, each once. -/
def pathsOf (facts : List Fact) : List String := (facts.map (·.1)).eraseDups

end Mend
