import Mathlib.Data.Rat.Defs
import Mathlib.Tactic.Lemma
import Mend.Syntax.Naming

/-!
# Values of expressions

What an expression of a program comes out as, so far as conditions depend on it: the truth of values,
their type names, strict and loose equality, negation, `typeof`, and the logical operators. Names and
members have the values that an assignment gives to their access paths. Whatever else an expression
computes is left to the surroundings: they say what a call or an arithmetic operation comes out as, what a
numeral denotes, and how objects and strings are converted.
-/

namespace Mend

namespace Evaluation

/-- A number, as far as comparisons tell numbers apart. -/
inductive Number where
  | nan
  | infinite (isNegative : Bool)
  | finite (value : Rat)
  deriving DecidableEq, Inhabited

/-- Whether two numbers are equal; what is no number equals nothing. -/
def Number.equals : Number → Number → Bool
  | .nan, _ => false
  | x, y => x == y

/-- A value that is no object. -/
inductive Primitive where
  | undefined
  | null
  | boolean (b : Bool)
  | number (n : Number)
  | string (s : String)
  | bigint (n : Int)
  | symbol (id : Nat)
  deriving DecidableEq, Inhabited

/-- A value. Objects are known by their identity. -/
inductive Value where
  | primitive (p : Primitive)
  | object (id : Nat)
  deriving DecidableEq, Inhabited

/-- What expressions depend on besides the values of names and members. -/
structure Surroundings where
  /-- What an expression comes out as that is none of those listed here. -/
  other : Nat → Value
  /-- What a numeral denotes. -/
  numeral : String → Primitive
  /-- The content of a string that is written with escapes. -/
  unescape : String → String
  isCallable : Nat → Bool
  /-- What an object is converted to when it is compared with a primitive value. -/
  toPrimitive : Nat → Primitive
  toNumber : String → Number
  toBigint : String → Option Int
  deriving Inhabited

/-- An assignment of values to access paths. The names `undefined` and `NaN` are constants. -/
structure Assignment where
  value : String → Value
  value_undefined : value "undefined" = .primitive .undefined
  value_nan : value "NaN" = .primitive (.number .nan)

/-- The assignment that gives one value to all paths but the constants. -/
def Assignment.const (v : Value) : Assignment where
  value path :=
    if path = "undefined" then .primitive .undefined
    else if path = "NaN" then .primitive (.number .nan)
    else v
  value_undefined := rfl
  value_nan := rfl

/-- Whether a value counts as true. -/
def Primitive.truthy : Primitive → Bool
  | .undefined | .null => false
  | .boolean b => b
  | .number n => n != .nan && n != .finite 0
  | .string s => s != ""
  | .bigint n => n != 0
  | .symbol _ => true

/-- Whether a value counts as true. -/
def Value.truthy : Value → Bool
  | .primitive p => p.truthy
  | .object _ => true

/-- What `typeof` says of a value. -/
def Value.typeName (w : Surroundings) : Value → String
  | .primitive .undefined => "undefined"
  | .primitive .null => "object"
  | .primitive (.boolean _) => "boolean"
  | .primitive (.number _) => "number"
  | .primitive (.string _) => "string"
  | .primitive (.bigint _) => "bigint"
  | .primitive (.symbol _) => "symbol"
  | .object id => if w.isCallable id then "function" else "object"

/-- Strict equality. -/
def Value.strictEquals : Value → Value → Bool
  | .primitive (.number x), .primitive (.number y) => x.equals y
  | x, y => x == y

/-- Truth values are compared as numbers. -/
def Primitive.unboolean : Primitive → Primitive
  | .boolean b => .number (.finite (if b then 1 else 0))
  | p => p

/-- Loose equality of values that are neither objects nor truth values. -/
def Primitive.agrees (w : Surroundings) : Primitive → Primitive → Bool
  | .undefined, .undefined | .undefined, .null | .null, .undefined | .null, .null => true
  | .number x, .number y => x.equals y
  | .number x, .string s | .string s, .number x => x.equals (w.toNumber s)
  | .bigint n, .bigint m => n == m
  | .bigint n, .string s | .string s, .bigint n => w.toBigint s == some n
  | .bigint n, .number x | .number x, .bigint n => x.equals (.finite n)
  | .string s, .string t => s == t
  | .symbol x, .symbol y => x == y
  | _, _ => false

/-- Loose equality. -/
def Value.looseEquals (w : Surroundings) : Value → Value → Bool
  | .primitive p, .primitive q => p.unboolean.agrees w q.unboolean
  | .object x, .object y => x == y
  | .object _, .primitive .undefined | .object _, .primitive .null => false
  | .primitive .undefined, .object _ | .primitive .null, .object _ => false
  | .object x, .primitive p | .primitive p, .object x =>
    (w.toPrimitive x).unboolean.agrees w p.unboolean

/-- What an operator makes of a value; `none` for all but negation and `typeof`. -/
def unary? (w : Surroundings) : String → Value → Option Value
  | "!", x => some (.primitive (.boolean !x.truthy))
  | "typeof", x => some (.primitive (.string (x.typeName w)))
  | _, _ => none

/-- What an operator makes of two values; `none` for all but the logical operators and equality. -/
def binary? (w : Surroundings) : String → Value → Value → Option Value
  | "&&", x, y => some (if x.truthy then y else x)
  | "||", x, y => some (if x.truthy then x else y)
  | "==", x, y => some (.primitive (.boolean (x.looseEquals w y)))
  | "!=", x, y => some (.primitive (.boolean !x.looseEquals w y))
  | "===", x, y => some (.primitive (.boolean (x.strictEquals y)))
  | "!==", x, y => some (.primitive (.boolean !x.strictEquals y))
  | _, _, _ => none

/-- The content of a string as it is written: what stands between its quotes. -/
def unquote (w : Surroundings) (text : String) : String :=
  let inner := text.toList.tail.dropLast
  if inner.contains '\\' then w.unescape (String.ofList inner) else String.ofList inner

end Evaluation

namespace Syntax.Ast

open Mend.Evaluation (Value Surroundings Assignment)

/-- What the expression at `i` comes out as. -/
def value (a : Ast) (w : Surroundings) (σ : Assignment) (i : Nat) : Value :=
  let j := a.unparen i
  match a.path? j with
  | some path => σ.value path
  | none =>
    match a.kind j with
    | "undefined" => .primitive .undefined
    | "null" => .primitive .null
    | "true" => .primitive (.boolean true)
    | "false" => .primitive (.boolean false)
    | "number" => .primitive (w.numeral (a.text j))
    | "string" => .primitive (.string (Evaluation.unquote w (a.text j)))
    | "unary_expression" =>
      match _h : a.firstChild? j with
      | some operand => (Evaluation.unary? w (a.label j) (a.value w σ operand)).getD (w.other j)
      | none => w.other j
    | "binary_expression" =>
      match _hl : a.child? j "left", _hr : a.child? j "right" with
      | some l, some r =>
        (Evaluation.binary? w (a.label j) (a.value w σ l) (a.value w σ r)).getD (w.other j)
      | _, _ => w.other j
    | _ => w.other j
termination_by a.size - i
decreasing_by
  all_goals have hle := le_unparen a i
  all_goals first
    | have := firstChild?_bounds _h
      omega
    | have hl := child?_bounds _hl
      have hr := child?_bounds _hr
      omega

end Syntax.Ast

end Mend
