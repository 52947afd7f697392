import Mend.Sentinel.Condition
import Mend.Syntax.Naming
import Mend.Text.Decimal

/-!
# Reading conditions

The condition that an expression of a program states about special values.
-/

namespace Mend.Syntax.Ast

/-- Whether a text is a numeral that rounds to zero. -/
def isZeroText (s : String) : Bool := (Text.Decimal.ofText? s).any (·.roundsToZero)

/-- The special value that an expression spells out. The string without content is the one of two
bytes, its quotes. -/
def literal? (a : Ast) (i : Nat) : Option Literal :=
  if a.isUndefined i then some .undefined
  else
    match a.kind i with
    | "null" => some .null
    | "true" => some .true_
    | "false" => some .false_
    | "identifier" => if a.label i = "NaN" then some .nan else none
    | "string" => if (a.text i).utf8ByteSize = 2 then some .blank else none
    | "number" => if isZeroText (a.text i) then some .zero else none
    | _ => none

/-- One side of a comparison. -/
def operand (a : Ast) (i : Nat) : Operand :=
  let i := a.unparen i
  if a.kind i = "unary_expression" ∧ a.label i = "typeof" then
    .typeName ((a.firstChild? i).bind a.path?)
  else
    match a.literal? i with
    | some l => .literal l
    | none =>
      match a.path? i with
      | some p => .path p
      | none =>
        let isQuote (c : Char) : Bool := c == '\'' || c == '"'
        if a.kind i = "string" ∧ Text.trim isQuote (a.text i) = "undefined" then .undefinedName
        else .other

/-- The comparison operator with a given spelling. -/
def equality? : String → Option Equality
  | "==" => some ⟨false, false⟩
  | "===" => some ⟨false, true⟩
  | "!=" => some ⟨true, false⟩
  | "!==" => some ⟨true, true⟩
  | _ => none

/-- The path that a call of `isNaN` tests. -/
def nanTest? (a : Ast) (call : Nat) : Option String := do
  let callee ← a.child? call "function"
  let arguments ← a.child? call "arguments"
  if a.path? callee = some "isNaN" then (a.firstChild? arguments).bind a.path? else none

/-- The truth of an expression that is a name or a member, special values apart. -/
def truth (a : Ast) (i : Nat) : Condition :=
  match a.path? i with
  | some p => if (a.literal? i).isNone then .truth p else .unknown
  | none => .unknown

/-- What an expression says about special values when it is used as a condition. -/
def condition (a : Ast) (i : Nat) : Condition :=
  let j := a.unparen i
  match a.kind j with
  | "identifier" | "member_expression" => a.truth j
  | "unary_expression" =>
    if a.label j = "!" then
      match _h : a.firstChild? j with
      | some operand => .negation (a.condition operand)
      | none => .unknown
    else .unknown
  | "binary_expression" =>
    match _hl : a.child? j "left", _hr : a.child? j "right" with
    | some l, some r =>
      match a.label j with
      | "&&" => .both (a.condition l) (a.condition r)
      | "||" => .either (a.condition l) (a.condition r)
      | op =>
        match equality? op with
        | some e => .comparison e (a.operand l) (a.operand r)
        | none => .unknown
    | _, _ => .unknown
  | "call_expression" => (a.nanTest? j).elim .unknown .isNaN
  | _ => .unknown
termination_by a.size - i
decreasing_by
  all_goals have hle := le_unparen a i
  · have := firstChild?_bounds _h
    omega
  all_goals have hl := child?_bounds _hl
  all_goals have hr := child?_bounds _hr
  all_goals omega

end Mend.Syntax.Ast
