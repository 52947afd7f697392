import Mend.Forest
import Mend.Text.Basic

/-!
# Abstract syntax trees

An abstract syntax tree is a forest of nodes together with the same forest laid out in preorder, so that
a node is known by its number and a subtree is a run of numbers. The table is fixed by the forest
(`table_eq`); everything that walks down or up the table ends because children come after their parents
(`mem_children`) and parents before their children (`parent_lt`).
-/

namespace Mend.Syntax

/-- What a node is, its place in the tree apart. -/
structure Node where
  /-- The grammar rule. -/
  kind : String
  /-- The role of the node in its parent, if the grammar names one. -/
  field : Option String
  /-- The text of a leaf, the token of an operator; otherwise empty. -/
  label : String
  start : Nat
  stop : Nat
  /-- The line of the first byte, counted from one. -/
  line : Nat
  deriving DecidableEq, Repr

/-- A program: its text, its tree, and the tree laid out in preorder. -/
structure Ast where
  source : String
  tree : Forest Node
  table : Array (Forest.Entry Node)
  table_eq : table = (tree.number none 0).toArray

/-- The kinds of node that open a function scope. -/
def functionKinds : List String :=
  ["function_declaration", "generator_function_declaration", "function_expression", "function",
   "generator_function", "arrow_function", "method_definition"]

/-- The comparison operators that can test a value for being a sentinel. -/
def equalityOperators : List String := ["==", "===", "!=", "!=="]

/-- The name of the scope of a whole script. -/
def scriptName : String := "~script~"

/-- The name of functions that nothing names. -/
def anonymousName : String := "~anonymous~"

namespace Ast

/-- Lays a forest out. -/
def ofForest (source : String) (tree : Forest Node) : Ast :=
  ⟨source, tree, (tree.number none 0).toArray, rfl⟩

/-- The tree without nodes. -/
def empty : Ast := ofForest "" .nil

instance : Inhabited Ast := ⟨empty⟩

variable (a : Ast)

/-- The number of nodes. -/
def size : Nat := a.table.size

/-- Whether there is no node. -/
def isEmpty : Bool := a.size == 0

/-- All node numbers. -/
def ids : List Nat := List.range a.size

/-- The root, unless the tree is empty. -/
def root? : Option Nat := if a.size = 0 then none else some 0

/-- The entry of a node. -/
def row? (i : Nat) : Option (Forest.Entry Node) := a.table[i]?

/-- The kind of a node, empty where there is none. -/
def kind (i : Nat) : String := (a.row? i).elim "" (·.head.kind)

/-- The label of a node, empty where there is none. -/
def label (i : Nat) : String := (a.row? i).elim "" (·.head.label)

/-- The line a node starts on. -/
def line (i : Nat) : Nat := (a.row? i).elim 0 (·.head.line)

/-- Where the text of a node starts. -/
def start (i : Nat) : Nat := (a.row? i).elim 0 (·.head.start)

/-- The role of a node in its parent. -/
def field? (i : Nat) : Option String := (a.row? i).bind (·.head.field)

/-- The parent of a node. -/
def parent? (i : Nat) : Option Nat := (a.row? i).bind (·.parent)

/-- The children of a node, in order. -/
def children (i : Nat) : List Nat := (a.row? i).elim [] (·.children)

/-- The last node of a subtree. -/
def last (i : Nat) : Nat := (a.row? i).elim i (·.last)

/-- The first child, if there is one. -/
def firstChild? (i : Nat) : Option Nat := (a.children i).head?

/-- The first child in the role `field`. -/
def child? (i : Nat) (field : String) : Option Nat :=
  (a.children i).find? (fun c => a.field? c == some field)

/-- The text that a node covers. -/
def text (i : Nat) : String :=
  (a.row? i).elim "" (fun e => (Text.slice? a.source e.head.start e.head.stop).getD "")

/-- The nodes strictly below `i`, in preorder. -/
def descendants (i : Nat) : List Nat :=
  List.range' (i + 1) (a.last i - i)

/-- Whether `i` lies in the subtree of `top`. -/
def contains (top i : Nat) : Bool := top ≤ i && i ≤ a.last top

/-- All nodes, each after what stands below it. -/
def postorder : List Nat := a.tree.postorder 0

/-- Whether a node opens a function scope. -/
def isFunction (i : Nat) : Bool := functionKinds.contains (a.kind i)

/-- The place of a node among its siblings. -/
def siblingIndex? (i : Nat) : Option Nat :=
  (a.parent? i).bind fun p => (a.children p).idxOf? i

/-- An arena is as large as its tree. -/
theorem size_eq : a.size = a.tree.size := by
  simp [size, a.table_eq]

/-- The rows of an arena are those of its numbered tree. -/
theorem row?_eq (i : Nat) : a.row? i = (a.tree.number none 0)[i]? := by
  simp [row?, a.table_eq]

variable {a}

/-- A child comes after its parent. -/
theorem mem_children {i c : Nat} (h : c ∈ a.children i) : i < c ∧ c < a.size := by
  unfold children at h
  cases he : a.row? i with
  | none => simp [he] at h
  | some e =>
    simp only [he, Option.elim_some] at h
    rw [row?_eq] at he
    simpa [size_eq] using Forest.lt_of_mem_children he h

/-- The child of a role is numbered above its parent. -/
theorem child?_bounds {i c : Nat} {field : String} (h : a.child? i field = some c) :
    i < c ∧ c < a.size :=
  mem_children (List.mem_of_find?_eq_some h)

/-- The first child is numbered above its parent. -/
theorem firstChild?_bounds {i c : Nat} (h : a.firstChild? i = some c) : i < c ∧ c < a.size :=
  mem_children (List.mem_of_mem_head? h)

/-- A parent comes before its child. -/
theorem parent_lt {i p : Nat} (h : a.parent? i = some p) : p < i := by
  unfold parent? at h
  cases he : a.row? i with
  | none => simp [he] at h
  | some e =>
    simp only [he, Option.bind_some] at h
    rw [row?_eq] at he
    rcases Forest.parent_lt_of_number he h with h | h
    · simp at h
    · simpa using h

end Ast

end Mend.Syntax
