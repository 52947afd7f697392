import Mend.Keyword.Registry
import Mend.Keyword.Use
import Mend.Revision
import Mend.Sentinel.Reading
import Mend.Syntax.Walk

/-!
# Keyword uses of a program

The keyword uses that each node of a program contributes. Every rule belongs to one node, and a use carries
the change label of its node, so going over all nodes counts every use once.
-/

namespace Mend.Keyword

open Syntax (Ast)

/-- The statements and clauses that count as reserved words. -/
def statementWords : List (String × String) :=
  [("try_statement", "try"), ("catch_clause", "catch"), ("finally_clause", "finally"),
   ("throw_statement", "throw"), ("return_statement", "return"), ("break_statement", "break"),
   ("continue_statement", "continue")]

/-- The operators that are words. -/
def operatorWords : List String := ["typeof", "delete", "void", "instanceof"]

/-- The methods whose first argument names an event. -/
def eventMethods : List String := ["on", "once", "emit", "addListener", "removeListener"]

/-- The usual names of callback parameters. -/
def callbackNames : List String := ["cb", "callback", "done", "next", "fn"]

/-- The usual names of error parameters. -/
def errorNames : List String := ["e", "er", "err", "error", "ex", "exception"]

/-- A keyword without context and change label. -/
structure Token where
  kind : Kind
  keyword : String
  api : String
  deriving DecidableEq, Repr

/-- A keyword of no API in particular. -/
def Token.global (kind : Kind) (keyword : String) : Token := ⟨kind, keyword, globalApi⟩

/-- A reserved word. -/
def Token.word (keyword : String) : Token := .global .reserved keyword

/-- A package as a keyword of its own API. -/
def Token.package (name : String) : Token := ⟨.package, name, name⟩

/-- The part of an access path before the first dot. -/
def pathRoot (path : String) : String := String.ofList (path.toList.takeWhile (· != '.'))

/-- The part of an access path after the last dot. -/
def pathEnd (path : String) : String :=
  String.ofList (path.toList.reverse.takeWhile (· != '.')).reverse

/-- A name in upper case, with digits and underscores. -/
def isConstantName (name : String) : Bool :=
  name.toList.any Char.isUpper && name.toList.all fun c => c.isUpper || c.isDigit || c == '_'

/-- A program with its registry. -/
structure Extractor where
  ast : Ast
  registry : Registry

namespace Extractor

variable (x : Extractor)

/-- The API of an access path. -/
def apiOf (path : String) : String := (x.registry.namespaceOf? (pathRoot path)).getD globalApi

/-- The API of the name that a chain of members starts from. -/
def rootPackage? (i : Nat) : Option String :=
  let j := x.ast.unparen i
  match x.ast.kind j with
  | "member_expression" =>
    match _h : x.ast.child? j "object" with
    | some object => rootPackage? object
    | none => none
  | "identifier" => x.registry.namespaceOf? (x.ast.label j)
  | _ => none
termination_by x.ast.size - i
decreasing_by
  have := Ast.child?_bounds _h
  have := Ast.le_unparen x.ast i
  omega

/-- The function that has a node as one of its parameters. -/
def functionOfParameter? (i : Nat) : Option Nat := do
  let parent ← x.ast.parent? i
  let function ← if x.ast.kind parent = "formal_parameters" then x.ast.parent? parent else some parent
  if x.ast.isFunction function && (x.ast.parameters function).contains i then some function else none

/-- The keywords of a parameter name. -/
def parameterTokens (i : Nat) : List Token :=
  match x.functionOfParameter? i with
  | none => []
  | some function =>
    let name := (x.ast.label i).toLower
    if (x.ast.parameters function).head? = some i ∧ callbackNames.contains name then
      [.global .parameter "callback"]
    else if errorNames.contains name then [.global .parameter "error"]
    else []

/-- The keywords of a plain name. -/
def identifierTokens (i : Nat) : List Token :=
  let a := x.ast
  let label := a.label i
  let isPartOf (kind role : String) : Bool :=
    (a.parent? i).any (fun p => a.kind p == kind) && a.field? i == some role
  if label = "NaN" ∨ label = "undefined" then [.word label]
  else
    (if isPartOf "call_expression" "function" then [⟨.methodCall, label, x.apiOf label⟩] else []) ++
    (if isPartOf "member_expression" "object" then
      ((x.registry.namespaceOf? label).map Token.package).toList else []) ++
    (if isPartOf "catch_clause" "parameter" then [.global .exception "error"] else []) ++
    x.parameterTokens i

/-- The keywords of a property name. -/
def propertyTokens (i : Nat) : List Token :=
  let a := x.ast
  let label := a.label i
  match a.parent? i with
  | none => []
  | some parent =>
    match a.kind parent, a.field? i with
    | "member_expression", some "property" =>
      let package := (a.child? parent "object").bind x.rootPackage?
      let isCalled := a.field? parent == some "function" &&
        (a.parent? parent).any fun c => a.kind c == "call_expression"
      if isCalled then [⟨.methodCall, label, package.getD globalApi⟩]
      else
        match package with
        | some package => [⟨if isConstantName label then .constant else .field, label, package⟩]
        | none => []
    | "method_definition", some "name" => [.global .methodName label]
    | "pair", some "key" =>
      if (a.child? parent "value").any a.isFunction then [.global .methodName label] else []
    | _, _ => []

/-- The word for a comparison with the empty string or with zero. -/
def comparedWord? (i : Nat) : Option String :=
  let a := x.ast
  if Syntax.equalityOperators.contains (a.label i) then
    (a.children i).findSome? fun side =>
      let side := a.unparen side
      match a.kind side with
      | "string" => if (a.text side).utf8ByteSize = 2 then some "blank" else none
      | "number" => if Ast.isZeroText (a.text side) then some "zero" else none
      | _ => none
  else none

/-- The event that a string names as the first argument of an emitter's method. -/
def eventToken? (i : Nat) : Option Token := do
  let a := x.ast
  let arguments ← a.parent? i
  if a.kind arguments ≠ "arguments" ∨ a.firstChild? arguments ≠ some i then none
  let callee ← a.child? (← a.parent? arguments) "function"
  if a.kind callee ≠ "member_expression" then none
  let method ← a.child? callee "property"
  if eventMethods.contains (a.label method) then
    let api := ((a.child? callee "object").bind x.rootPackage?).getD globalApi
    some ⟨.event, unquoted a i, api⟩
  else none

/-- The keywords of a `new` expression. -/
def newTokens (i : Nat) : List Token :=
  let constructed := (x.ast.childPath? i "constructor").map fun path =>
    (⟨.className, pathEnd path, x.apiOf path⟩ : Token)
  .word "new" :: constructed.toList

/-- A node and its child on the way to it, out of any number of parentheses. -/
def outOfParentheses (i : Nat) : Option (Nat × Nat) :=
  (x.ast.ascent i).find? fun (up, _) => x.ast.kind up != "parenthesized_expression"

/-- Whether a name or member is used for its truth. -/
def isTruthTest (i : Nat) : Bool :=
  let a := x.ast
  if (a.path? i).isNone || a.isUndefined i || a.label i == "NaN" then false
  else
    match x.outOfParentheses i with
    | none => false
    | some (up, below) =>
      match a.kind up with
      | "unary_expression" => a.label up == "!"
      | "binary_expression" => a.label up == "&&" || a.label up == "||"
      | "if_statement" | "while_statement" | "do_statement" | "ternary_expression" =>
        a.field? below == some "condition"
      | _ => false

/-- The statements and expressions that own a condition. -/
def conditionOwners : List String :=
  ["if_statement", "while_statement", "do_statement", "for_statement", "ternary_expression"]

/-- The context of a node: a condition of something around it in the same function, an argument, or any
other expression. -/
def contextOf (i : Nat) : Context :=
  let a := x.ast
  let inCondition := ((a.ascent i).takeWhile fun (up, _) => !a.isFunction up).any fun (up, below) =>
    conditionOwners.contains (a.kind up) && a.field? below == some "condition"
  if inCondition then .condition
  else if (a.parent? i).any fun p => a.kind p == "arguments" then .argument
  else .expression

/-- The keywords of a node that is no statement, without those of its truth. -/
def tokensByKind (i : Nat) : List Token :=
  let a := x.ast
  let operatorToken? : Option Token :=
    if operatorWords.contains (a.label i) then some (.word (a.label i)) else none
  match a.kind i with
  | "new_expression" => x.newTokens i
  | "unary_expression" => operatorToken?.toList
  | "binary_expression" => (operatorToken?.or ((x.comparedWord? i).map .word)).toList
  | "this" | "null" | "undefined" | "true" | "false" => [.word (a.kind i)]
  | "call_expression" => ((requiredPackage? a i).map Token.package).toList
  | "import_statement" => ((a.child? i "source").map fun s => Token.package (unquoted a s)).toList
  | "string" => (x.eventToken? i).toList
  | "identifier" => x.identifierTokens i
  | "property_identifier" => x.propertyTokens i
  | _ => []

/-- The keyword of a name or member that is used for its truth. -/
def truthTokens (i : Nat) : List Token :=
  if (x.ast.kind i == "identifier" || x.ast.kind i == "member_expression") && x.isTruthTest i then
    [.word "falsey"]
  else []

/-- The uses that a node contributes under a change label. -/
def usesAt (change : Change) (i : Nat) : List Use :=
  match statementWords.find? (·.1 == x.ast.kind i) with
  | some (_, word) => [⟨.reserved, .statement, change, globalApi, word⟩]
  | none =>
    (x.tokensByKind i ++ x.truthTokens i).map fun t =>
      ⟨t.kind, x.contextOf i, change, t.api, t.keyword⟩

end Extractor

/-- The uses that nodes of a labelled tree contribute, node by node. -/
def usesOf (r : Revision) (registry : Registry) (nodes : List Nat) : List Use :=
  nodes.flatMap fun i => Extractor.usesAt ⟨r.toAst, registry⟩ (r.change i) i

end Mend.Keyword
