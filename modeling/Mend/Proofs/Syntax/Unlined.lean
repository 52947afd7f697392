import Mend.Proofs.Sentinel.Exclusion
import Mend.Proofs.Syntax.Ancestry
import Mend.Scope.Tree
import Mend.Sentinel.Guard

/-!
# Programs without line numbers

`Ast.unlined` forgets the lines of all nodes and keeps the rest. Apart from `Ast.line` itself, whatever is read
from a program can be read from what is left: each reader here has a lemma that says so, and the lemmas push
`unlined` inwards to the rows of the table (`row?_unlined`).
-/

namespace Mend

universe u v

/-- Renaming the heads of a forest leaves its numbering as it is. -/
@[simp] lemma Forest.number_map {α : Type u} {β : Type v} (g : α → β) (f : Forest α) (parent : Option Nat)
    (n : Nat) : (f.map g).number parent n =
      (f.number parent n).map fun e => ⟨g e.head, e.parent, e.children, e.last⟩ := by
  induction f generalizing parent n with
  | nil => rfl
  | cons h kids rest ihk ihr => simp [map, number, ihk, ihr]

namespace Syntax

/-- The node with its line forgotten. -/
def Node.unlined (x : Node) : Node := { x with line := 0 }

namespace Ast

/-- The program with the lines of its nodes forgotten. -/
def unlined (a : Ast) : Ast := ofForest a.source (a.tree.map Node.unlined)

variable (a : Ast)

/-- A row loses its line and nothing else. -/
lemma row?_unlined (i : Nat) : a.unlined.row? i =
    (a.row? i).map fun e => ⟨e.head.unlined, e.parent, e.children, e.last⟩ := by
  rw [row?_eq, row?_eq, unlined, ofForest, Forest.number_map, List.getElem?_map]

/-- Every line is the first. -/
@[simp] lemma line_unlined (i : Nat) : a.unlined.line i = 0 := by
  rw [line, row?_unlined]
  cases a.row? i <;> rfl

/-- No node is lost. -/
@[simp] lemma size_unlined : a.unlined.size = a.size := by
  rw [size_eq, size_eq, unlined, ofForest, Forest.size_map]

/-- Kinds stay. -/
@[simp] lemma kind_unlined : a.unlined.kind = a.kind := by
  funext i
  rw [kind, kind, row?_unlined]
  cases a.row? i <;> rfl

/-- Labels stay. -/
@[simp] lemma label_unlined : a.unlined.label = a.label := by
  funext i
  rw [label, label, row?_unlined]
  cases a.row? i <;> rfl

/-- Roles stay. -/
@[simp] lemma field?_unlined : a.unlined.field? = a.field? := by
  funext i
  rw [field?, field?, row?_unlined]
  cases a.row? i <;> rfl

/-- Parents stay. -/
@[simp] lemma parent?_unlined : a.unlined.parent? = a.parent? := by
  funext i
  rw [parent?, parent?, row?_unlined]
  cases a.row? i <;> rfl

/-- Children stay, in order. -/
@[simp] lemma children_unlined : a.unlined.children = a.children := by
  funext i
  rw [children, children, row?_unlined]
  cases a.row? i <;> rfl

/-- A text is cut out by its bytes, not by its line. -/
@[simp] lemma text_unlined : a.unlined.text = a.text := by
  funext i
  rw [text, text, row?_unlined]
  cases a.row? i <;> rfl

/-- The first child stays the first. -/
@[simp] lemma firstChild?_unlined : a.unlined.firstChild? = a.firstChild? := by
  funext i
  simp [firstChild?]

/-- The child in a role stays. -/
@[simp] lemma child?_unlined : a.unlined.child? = a.child? := by
  funext i field
  simp [child?]

/-- What is a function is told by its kind. -/
@[simp] lemma isFunction_unlined : a.unlined.isFunction = a.isFunction := by
  funext i
  simp [isFunction]

/-! ## Walks -/

/-- What stands around a node stays around it. -/
@[simp] lemma ancestors_unlined : a.unlined.ancestors = a.ancestors := by
  funext i
  fun_induction ancestors a i with
  | case1 i h => rw [ancestors_of_root (by rwa [parent?_unlined])]
  | case2 i p h ih => rw [ancestors_of_parent? (by rwa [parent?_unlined]), ih]

/-- The way up from a node stays. -/
@[simp] lemma ascent_unlined : a.unlined.ascent = a.ascent := by
  funext i
  simp [ascent]

/-- A walk meets the same nodes, whatever it collects. -/
lemma walk_unlined {σ : Type} (visit : Nat → σ → Bool × σ) (i : Nat) (s : σ) :
    a.unlined.walk visit i s = a.walk visit i s := by
  induction hn : a.size - i using Nat.strongRecOn generalizing i s with
  | _ n ih =>
    rw [walk_unfold, walk_unfold, children_unlined]
    split
    · refine List.foldl_ext _ _ _ fun s c hc => ?_
      have := mem_children hc
      exact ih (a.size - c) (by omega) c s rfl
    · rfl

/-- A walk stops where it stopped. -/
@[simp] lemma reach_unlined : a.unlined.reach = a.reach := by
  funext enters i
  simp only [reach, walk_unlined]

/-! ## Names -/

/-- Unwrapping parentheses, one step of the recursion. -/
lemma unparen_unfold (i : Nat) : a.unparen i =
    if a.kind i = "parenthesized_expression" then (a.firstChild? i).elim i a.unparen else i := by
  rw [unparen]
  split
  · split
    · next h => rw [h, Option.elim_some]
    · next h => rw [h, Option.elim_none]
  · rfl

/-- The inside of parentheses stays. -/
@[simp] lemma unparen_unlined : a.unlined.unparen = a.unparen := by
  funext i
  fun_induction unparen a i <;> rw [unparen_unfold] <;> simp [*]

/-- Reading an access path, one step of the recursion. -/
lemma path?_unfold (i : Nat) : a.path? i =
    let j := a.unparen i
    let kind := a.kind j
    if kind = "identifier" ∨ kind = "property_identifier" ∨ kind = "shorthand_property_identifier" then
      some (a.label j)
    else if kind = "this" ∨ kind = "super" then some kind
    else if kind = "member_expression" then
      (a.child? j "object").bind fun object => (a.child? j "property").bind fun property =>
        (a.path? object).map fun base => base ++ "." ++ a.label property
    else none := by
  rw [path?]
  dsimp only
  congr 3
  split
  · next h => rw [h, Option.bind_none]
  · next object h =>
    rw [h, Option.bind_some]
    cases a.child? (a.unparen i) "property" <;> rfl

/-- Access paths are put together from labels. -/
@[simp] lemma path?_unlined : a.unlined.path? = a.path? := by
  funext i
  fun_induction path? a i <;> rw [path?_unfold] <;> simp_all +zetaDelta

/-- So is the access path of the child in a role. -/
@[simp] lemma childPath?_unlined : a.unlined.childPath? = a.childPath? := by
  funext i field
  simp [childPath?]

/-- The first parameter keeps its name. -/
@[simp] lemma firstParameterName?_unlined : a.unlined.firstParameterName? = a.firstParameterName? := by
  funext i
  simp [firstParameterName?, parameters]

/-- A function keeps its body. -/
@[simp] lemma functionBody?_unlined : a.unlined.functionBody? = a.functionBody? := by
  funext i
  simp [functionBody?]

/-- A function keeps the name it is shown under. -/
@[simp] lemma functionName_unlined : a.unlined.functionName = a.functionName := by
  funext i
  simp [functionName, boundName?]

/-! ## Guards -/

/-- Reading a condition, one step of the recursion. -/
lemma condition_unfold (i : Nat) : a.condition i =
    let j := a.unparen i
    match a.kind j with
    | "identifier" | "member_expression" => a.truth j
    | "unary_expression" =>
      if a.label j = "!" then (a.firstChild? j).elim .unknown fun operand => .negation (a.condition operand)
      else .unknown
    | "binary_expression" =>
      match a.child? j "left", a.child? j "right" with
      | some l, some r =>
        match a.label j with
        | "&&" => .both (a.condition l) (a.condition r)
        | "||" => .either (a.condition l) (a.condition r)
        | op => (equality? op).elim .unknown fun e => .comparison e (a.operand l) (a.operand r)
      | _, _ => .unknown
    | "call_expression" => (a.nanTest? j).elim .unknown .isNaN
    | _ => .unknown := by
  rw [condition]
  dsimp only
  (repeat' split) <;> simp_all

/-- The value `undefined` is told by kind and label. -/
@[simp] lemma isUndefined_unlined : a.unlined.isUndefined = a.isUndefined := by
  funext i
  simp [isUndefined]

/-- Special values are spelled out by kinds and texts. -/
@[simp] lemma literal?_unlined : a.unlined.literal? = a.literal? := by
  funext i
  simp [literal?]

/-- A side of a comparison is read the same. -/
@[simp] lemma operand_unlined : a.unlined.operand = a.operand := by
  funext i
  simp [operand]

/-- A call of `isNaN` tests the same path. -/
@[simp] lemma nanTest?_unlined : a.unlined.nanTest? = a.nanTest? := by
  funext i
  simp [nanTest?]

/-- A name or member says the same as a condition. -/
@[simp] lemma truth_unlined : a.unlined.truth = a.truth := by
  funext i
  simp [truth]

/-- A condition says the same about special values. -/
@[simp] lemma condition_unlined : a.unlined.condition = a.condition := by
  funext i
  fun_induction condition a i <;> rw [condition_unfold] <;> simp_all +zetaDelta

/-- Whether a statement always exits, one step of the recursion. -/
lemma alwaysExits_unfold (i : Nat) : a.alwaysExits i =
    match a.kind i with
    | "return_statement" | "throw_statement" | "break_statement" | "continue_statement" => true
    | "statement_block" => (a.children i).getLast?.any a.alwaysExits
    | "if_statement" =>
      (a.child? i "consequence").any a.alwaysExits &&
        ((a.child? i "alternative").bind a.firstChild?).any a.alwaysExits
    | _ => false := by
  rw [alwaysExits]
  (repeat' split) <;> simp_all
  next hnone => cases hc : a.child? i "consequence" <;> cases ha : a.child? i "alternative" <;> simp_all

/-- What never completes normally is told by the statements at its end. -/
@[simp] lemma alwaysExits_unlined : a.unlined.alwaysExits = a.alwaysExits := by
  funext i
  fun_induction alwaysExits a i <;> rw [alwaysExits_unfold] <;> simp_all
  next i hk hnone => cases hc : a.child? i "consequence" <;> cases ha : a.child? i "alternative" <;> simp_all

/-- A guard is told by its kind and operator. -/
@[simp] lemma isGuard_unlined : a.unlined.isGuard = a.isGuard := by
  funext i
  simp [isGuard]

/-- A guard keeps its condition. -/
@[simp] lemma guardCondition?_unlined : a.unlined.guardCondition? = a.guardCondition? := by
  funext i
  simp [guardCondition?]

/-- An early exit stays one. -/
@[simp] lemma isEarlyExit_unlined : a.unlined.isEarlyExit = a.isEarlyExit := by
  funext i
  simp [isEarlyExit]

/-- The same guards cover a node, with the same outcomes. -/
@[simp] lemma covers_unlined : a.unlined.covers = a.covers := by
  funext i
  simp [covers, coverOf?, earlyExits]

/-- A guard tests for the same. -/
@[simp] lemma guardTests_unlined : a.unlined.guardTests = a.guardTests := by
  funext i
  simp [guardTests]

/-- The guards around a node rule out the same. -/
@[simp] lemma ruledOut_unlined : a.unlined.ruledOut = a.ruledOut := by
  funext i
  simp [ruledOut]

/-- The same path is dereferenced. -/
@[simp] lemma dereferenced?_unlined : a.unlined.dereferenced? = a.dereferenced? := by
  funext i
  simp [dereferenced?]

end Ast

end Syntax

end Mend
