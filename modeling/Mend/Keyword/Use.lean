import Mend.Change

/-!
# Keyword uses

A keyword use is one occurrence of an interesting token: what role it has, in what context it stands, how
it changed, which API it belongs to, and the token itself. Uses are ordered by these five parts, in this
order.
-/

namespace Mend.Keyword

/-- The role of a keyword. The order of the constructors is the sorting order. -/
inductive Kind where
  /-- In a filter, any role. -/
  | unknown
  | reserved
  | package
  | className
  | methodCall
  | methodName
  | field
  | constant
  | argument
  | parameter
  | exception
  | event
  deriving DecidableEq, Repr, Inhabited

namespace Kind

/-- All roles, in sorting order. -/
def all : List Kind :=
  [unknown, reserved, package, className, methodCall, methodName, field, constant, argument,
   parameter, exception, event]

/-- The written form of a role. -/
def text : Kind → String
  | unknown => "UNKNOWN"
  | reserved => "RESERVED"
  | package => "PACKAGE"
  | className => "CLASS"
  | methodCall => "METHOD_CALL"
  | methodName => "METHOD_NAME"
  | field => "FIELD"
  | constant => "CONSTANT"
  | argument => "ARGUMENT"
  | parameter => "PARAMETER"
  | exception => "EXCEPTION"
  | event => "EVENT"

/-- The place of a role in the sorting order. -/
def rank : Kind → Nat
  | unknown => 0
  | reserved => 1
  | package => 2
  | className => 3
  | methodCall => 4
  | methodName => 5
  | field => 6
  | constant => 7
  | argument => 8
  | parameter => 9
  | exception => 10
  | event => 11

theorem rank_inj {a b : Kind} (h : a.rank = b.rank) : a = b := by
  cases a <;> cases b <;> simp_all [rank]

/-- Reads a written role. -/
def ofText (word : String) : Except UnknownWord Kind := lookUpWord "keyword type" all text word

end Kind

/-- Where in the code around it a keyword stands. The order of the constructors is the sorting order. -/
inductive Context where
  /-- In a filter, any context. -/
  | unknown
  | statement
  | condition
  | argument
  | expression
  deriving DecidableEq, Repr, Inhabited

namespace Context

/-- All contexts, in sorting order. -/
def all : List Context := [unknown, statement, condition, argument, expression]

/-- The written form of a context. -/
def text : Context → String
  | unknown => "UNKNOWN"
  | statement => "STATEMENT"
  | condition => "CONDITION"
  | argument => "ARGUMENT"
  | expression => "EXPRESSION"

/-- The place of a context in the sorting order. -/
def rank : Context → Nat
  | unknown => 0
  | statement => 1
  | condition => 2
  | argument => 3
  | expression => 4

theorem rank_inj {a b : Context} (h : a.rank = b.rank) : a = b := by
  cases a <;> cases b <;> simp_all [rank]

/-- Reads a written context. -/
def ofText (word : String) : Except UnknownWord Context :=
  lookUpWord "keyword context" all text word

end Context

/-- The API of keywords that belong to nothing more specific. -/
def globalApi : String := "global"

/-- One occurrence of an interesting token. -/
structure Use where
  kind : Kind
  context : Context
  change : Change
  api : String
  keyword : String
  deriving DecidableEq, Repr, Inhabited

namespace Use

/-- The same use with another change label. -/
def withChange (u : Use) (change : Change) : Use := { u with change }

/-- The parts of a use in order, with colons between them. -/
def text (u : Use) : String :=
  s!"{u.kind.text}:{u.context.text}:{u.change.text}:{u.api}:{u.keyword}"

/-- Characters that stay in the name of a file. -/
def isStemChar (c : Char) : Bool := c.isAlphanum || c == '_' || c == '-'

/-- A name for a file about a use: its parts with underscores between them and in place of everything
but ASCII letters, digits, underscores and hyphens. -/
def fileStem (u : Use) : String :=
  let raw := s!"{u.kind.text}_{u.context.text}_{u.change.text}_{u.api}_{u.keyword}"
  String.ofList (raw.toList.map fun c => if isStemChar c then c else '_')

/-- Compares two uses part by part. -/
def order : Use → Use → Ordering :=
  compareLex (compareOn (·.kind.rank)) <| compareLex (compareOn (·.context.rank)) <|
  compareLex (compareOn (·.change.rank)) <| compareLex (compareOn (·.api)) (compareOn (·.keyword))

instance : Std.TransCmp order := by unfold order; infer_instance

theorem order_eq {u v : Use} (h : u.order v = .eq) : u = v := by
  simp only [order, compareLex, compareOn, Ordering.then_eq_eq, Std.LawfulEqOrd.compare_eq_iff_eq]
    at h
  obtain ⟨hk, hc, hch, ha, hw⟩ := h
  cases u
  cases v
  simp only [Use.mk.injEq]
  exact ⟨Kind.rank_inj hk, Context.rank_inj hc, Change.rank_inj hch, ha, hw⟩

instance : Std.LawfulEqCmp order where
  compare_self := Std.ReflCmp.compare_self
  eq_of_compare := order_eq

end Use

end Mend.Keyword
