/-!
# Ordered forests

A syntax tree is a head (what the node is) over an ordered forest (what stands below it). `Forest` is the
one inductive type for both: a forest is empty, or a first tree, given by its head and the forest below
it, followed by the trees to its right. Every definition on trees is then plain structural recursion.

`Forest.number` lays a forest out in preorder: an entry per node, with the number of its parent, the
numbers of its children and the number of its last descendant. The main statements are that the entries
are as many as the nodes (`length_number`), and that the numbers in an entry point where they should:
a child lies strictly between its parent and the end of the forest (`lt_of_mem_children`), a parent
strictly before its child (`parent_lt_of_number`).
-/

namespace Mend

universe u v

/-- An ordered forest with a value at every node. -/
inductive Forest (α : Type u) where
  | nil
  /-- The first tree, by its head and the forest below the head, then the remaining trees. -/
  | cons (head : α) (kids rest : Forest α)
  deriving DecidableEq, Repr, Inhabited

namespace Forest

variable {α : Type u} {β : Type v}

/-- The number of nodes. -/
def size : Forest α → Nat
  | nil => 0
  | cons _ kids rest => 1 + kids.size + rest.size

/-- The number of nodes on the longest way down. -/
def height : Forest α → Nat
  | nil => 0
  | cons _ kids rest => max (kids.height + 1) rest.height

/-- The trees of the second forest to the right of those of the first. -/
def append : Forest α → Forest α → Forest α
  | nil, g => g
  | cons h kids rest, g => cons h kids (rest.append g)

instance : Append (Forest α) := ⟨append⟩

/-- The same shape with every value replaced. -/
def map (f : α → β) : Forest α → Forest β
  | nil => nil
  | cons h kids rest => cons (f h) (kids.map f) (rest.map f)

/-- The values at the roots, from left to right. -/
def roots : Forest α → List α
  | nil => []
  | cons h _ rest => h :: rest.roots

/-- All values, every node before what stands below it. -/
def preorder : Forest α → List α
  | nil => []
  | cons h kids rest => h :: (kids.preorder ++ rest.preorder)

/-- The numbers of the roots when the nodes are numbered in preorder from `n`. -/
def rootNumbers (n : Nat) : Forest α → List Nat
  | nil => []
  | cons _ kids rest => n :: rest.rootNumbers (n + 1 + kids.size)

/-- The numbers of all nodes, every node after what stands below it. -/
def postorder (n : Nat) : Forest α → List Nat
  | nil => []
  | cons _ kids rest => kids.postorder (n + 1) ++ n :: rest.postorder (n + 1 + kids.size)

/-- One node of a numbered forest. -/
structure Entry (α : Type u) where
  head : α
  /-- The number of the parent; roots have none. -/
  parent : Option Nat
  /-- The numbers of the children, from left to right. -/
  children : List Nat
  /-- The number of the last node below, or the node's own. -/
  last : Nat
  deriving DecidableEq, Repr

/-- The entries of a forest whose roots have the parent `parent`, numbered in preorder from `n`. -/
def number (parent : Option Nat) (n : Nat) : Forest α → List (Entry α)
  | nil => []
  | cons h kids rest =>
    ⟨h, parent, kids.rootNumbers (n + 1), n + kids.size⟩ ::
      (kids.number (some n) (n + 1) ++ rest.number parent (n + 1 + kids.size))

@[simp] theorem length_number (f : Forest α) (parent : Option Nat) (n : Nat) :
    (f.number parent n).length = f.size := by
  induction f generalizing parent n with
  | nil => rfl
  | cons h kids rest ihk ihr => simp [number, size, ihk, ihr]; omega

/-- The number of a root lies in the range of its forest. -/
theorem mem_rootNumbers {f : Forest α} {n c : Nat} (h : c ∈ f.rootNumbers n) :
    n ≤ c ∧ c < n + f.size := by
  induction f generalizing n with
  | nil => simp [rootNumbers] at h
  | cons _ kids rest _ ihr =>
    simp only [rootNumbers, List.mem_cons, size] at *
    rcases h with rfl | h
    · omega
    · have := ihr h
      omega

/-- A child comes after its parent and before the end of the forest. -/
theorem lt_of_mem_children {f : Forest α} {parent : Option Nat} {n i c : Nat} {e : Entry α}
    (he : (f.number parent n)[i]? = some e) (hc : c ∈ e.children) :
    n + i < c ∧ c < n + f.size := by
  induction f generalizing parent n i with
  | nil => simp [number] at he
  | cons h kids rest ihk ihr =>
    cases i with
    | zero =>
      simp only [number, List.getElem?_cons_zero, Option.some.injEq] at he
      subst he
      have := mem_rootNumbers hc
      simp only [size]
      omega
    | succ i =>
      simp only [number, List.getElem?_cons_succ] at he
      simp only [size]
      by_cases hi : i < kids.size
      · rw [List.getElem?_append_left (by simpa using hi)] at he
        have := ihk he
        omega
      · rw [List.getElem?_append_right (by simpa using hi), length_number] at he
        have := ihr he
        omega

/-- A parent comes before its child, unless it is the parent given to the roots. -/
theorem parent_lt_of_number {f : Forest α} {parent : Option Nat} {n i p : Nat} {e : Entry α}
    (he : (f.number parent n)[i]? = some e) (hp : e.parent = some p) :
    parent = some p ∨ p < n + i := by
  induction f generalizing parent n i with
  | nil => simp [number] at he
  | cons h kids rest ihk ihr =>
    cases i with
    | zero =>
      simp only [number, List.getElem?_cons_zero, Option.some.injEq] at he
      subst he
      exact .inl hp
    | succ i =>
      simp only [number, List.getElem?_cons_succ] at he
      by_cases hi : i < kids.size
      · rw [List.getElem?_append_left (by simpa using hi)] at he
        rcases ihk he with h | h
        · simp only [Option.some.injEq] at h
          omega
        · omega
      · rw [List.getElem?_append_right (by simpa using hi), length_number] at he
        rcases ihr he with h | h
        · exact .inl h
        · omega

end Forest

end Mend
