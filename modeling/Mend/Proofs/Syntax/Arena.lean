import Mend.Proofs.Forest.Subtree
import Mend.Syntax.Walk

/-!
# The table of a program

What the table of a program says of a node is read off the node itself, as `Forest.sub?` finds it: its kind
and label, its children, its last descendant. The parents and the children in the table fit each other
(`parent?_eq_some_iff`), and whatever numbers a node leads to are numbers of nodes again
(`isClosed`).

`outline` is the tree without roles and places: kinds, labels, and the order of children. Two subtrees
with the same outline agree node by node (`outline_add`).
-/

namespace Mend.Syntax

/-- What a comparison of trees sees of a node: kind and label. -/
def Node.face (x : Node) : String × String := (x.kind, x.label)

namespace Ast

variable {a b : Ast} {i : Nat} {x : Node} {kids : Forest Node}

/-- A program without nodes, or with one root. -/
def IsArena (a : Ast) : Prop := a.tree.roots.length ≤ 1

/-- A tree read from a file is empty or has one root. -/
lemma IsArena.cases (h : a.IsArena) : a.tree = .nil ∨ ∃ x kids, a.tree = .cons x kids .nil := by
  unfold IsArena at h
  cases hT : a.tree with
  | nil => exact .inl rfl
  | cons x kids rest =>
    right
    refine ⟨x, kids, ?_⟩
    cases rest with
    | nil => rfl
    | cons _ _ _ => simp [hT, Forest.roots] at h

/-- A tree with one root is one that a file may give. -/
lemma isArena_of_root (hT : a.tree = .cons x kids .nil) : a.IsArena := by
  rw [IsArena, hT]
  exact Nat.le_refl 1

/-- At number zero stands the whole tree. -/
lemma sub?_of_root (hT : a.tree = .cons x kids .nil) : a.tree.sub? 0 = some (x, kids) := by
  rw [hT]
  rfl

/-- The root is counted as well as what is below it. -/
lemma size_of_root (hT : a.tree = .cons x kids .nil) : a.size = kids.size + 1 := by
  rw [size_eq, hT]
  simp only [Forest.size]
  omega

/-- The root comes first, and then all that is below it. -/
lemma ids_of_root (hT : a.tree = .cons x kids .nil) : a.ids = 0 :: List.range' 1 kids.size := by
  rw [ids, size_of_root hT, List.range_eq_range', List.range'_succ]

/-- The numbers of nodes are those below the size. -/
@[simp] lemma mem_ids : i ∈ a.ids ↔ i < a.size := List.mem_range

/-- Every number below the size has a subtree. -/
lemma exists_sub? (h : i < a.size) : ∃ x kids, a.tree.sub? i = some (x, kids) :=
  Forest.exists_sub? (a.size_eq ▸ h)

/-- A subtree does not reach past the end of the table. -/
lemma add_lt_size (h : a.tree.sub? i = some (x, kids)) : i + kids.size < a.size := by
  rw [size_eq]
  exact Forest.add_lt_of_sub? h

/-- The row of a node holds the numbers of its children and the end of its subtree. -/
lemma row?_of_sub? (h : a.tree.sub? i = some (x, kids)) :
    ∃ e, a.row? i = some e ∧ e.head = x ∧ e.children = kids.rootNumbers (i + 1) ∧
      e.last = i + kids.size := by
  have hm := Forest.map_number a.tree none 0 i
  rw [h, ← row?_eq] at hm
  obtain ⟨e, he, heq⟩ := Option.map_eq_some_iff.1 hm
  simp only [Prod.mk.injEq, Nat.zero_add] at heq
  exact ⟨e, he, heq.1, heq.2.1, heq.2.2⟩

/-- The kind of a node is that of the head of its subtree. -/
lemma kind_of_sub? (h : a.tree.sub? i = some (x, kids)) : a.kind i = x.kind := by
  obtain ⟨e, he, rfl, -, -⟩ := row?_of_sub? h
  simp [kind, he]

/-- The label of a node is that of the head of its subtree. -/
lemma label_of_sub? (h : a.tree.sub? i = some (x, kids)) : a.label i = x.label := by
  obtain ⟨e, he, rfl, -, -⟩ := row?_of_sub? h
  simp [label, he]

/-- The children of a node are the roots below it. -/
lemma children_of_sub? (h : a.tree.sub? i = some (x, kids)) :
    a.children i = kids.rootNumbers (i + 1) := by
  obtain ⟨e, he, -, hc, -⟩ := row?_of_sub? h
  simp [children, he, hc]

/-- The last node of a subtree is as far away as there are nodes below its head. -/
lemma last_of_sub? (h : a.tree.sub? i = some (x, kids)) : a.last i = i + kids.size := by
  obtain ⟨e, he, -, -, hl⟩ := row?_of_sub? h
  simp [last, he, hl]

/-- Below a node stand the numbers that follow its own. -/
lemma descendants_of_sub? (h : a.tree.sub? i = some (x, kids)) :
    a.descendants i = List.range' (i + 1) kids.size := by
  rw [descendants, last_of_sub? h, Nat.add_sub_cancel_left]

/-- There is no row past the end. -/
lemma row?_eq_none (h : a.size ≤ i) : a.row? i = none := Array.getElem?_eq_none h

/-- A number that belongs to no node has no kind. -/
lemma kind_eq_empty (h : ¬ i < a.size) : a.kind i = "" := by
  rw [kind, row?_eq_none (Nat.le_of_not_lt h)]
  rfl

/-- Children are numbered in the order of the file. -/
lemma pairwise_children (a : Ast) (i : Nat) : (a.children i).Pairwise (· < ·) := by
  by_cases h : i < a.size
  · obtain ⟨x, kids, hs⟩ := exists_sub? h
    rw [children_of_sub? hs]
    exact Forest.pairwise_rootNumbers _ _
  · simp [children, row?_eq_none (Nat.le_of_not_lt h)]

/-- No child comes twice. -/
lemma nodup_children (a : Ast) (i : Nat) : (a.children i).Nodup :=
  (pairwise_children a i).imp Nat.ne_of_lt

/-- Parents and children fit each other. -/
lemma parent?_eq_some_iff {c p : Nat} : a.parent? c = some p ↔ c ∈ a.children p := by
  constructor
  · intro h
    unfold parent? at h
    cases he : a.row? c with
    | none => simp [he] at h
    | some e =>
      simp only [he, Option.bind_some] at h
      rw [row?_eq] at he
      rcases Forest.mem_children_of_parent he with ⟨hn, -⟩ | ⟨j, e', he', hp, hc⟩
      · simp [h] at hn
      · rw [← row?_eq] at he'
        rw [h, Option.some.injEq, Nat.zero_add] at hp
        subst hp
        simpa [children, he'] using hc
  · intro h
    unfold children at h
    cases he : a.row? p with
    | none => simp [he] at h
    | some e =>
      simp only [he, Option.elim_some] at h
      rw [row?_eq] at he
      obtain ⟨e', he', hp⟩ := Forest.parent_of_mem_children he h
      rw [Nat.sub_zero, ← row?_eq] at he'
      simp [parent?, he', hp]

/-- What has a parent is a node. -/
lemma lt_size_of_parent? {c p : Nat} (h : a.parent? c = some p) : c < a.size :=
  (mem_children (parent?_eq_some_iff.1 h)).2

/-- Only the first node of a program with one root has no parent. -/
lemma IsArena.exists_parent? (h : a.IsArena) {c : Nat} (hc : c < a.size) (h0 : c ≠ 0) :
    ∃ p, a.parent? c = some p := by
  have hr : a.row? c ≠ none := by
    obtain ⟨x, kids, hs⟩ := exists_sub? hc
    obtain ⟨e, he, -⟩ := row?_of_sub? hs
    simp [he]
  obtain ⟨e, he⟩ := Option.ne_none_iff_exists'.1 hr
  rw [row?_eq] at he
  rcases Forest.mem_children_of_parent he with ⟨-, hroot⟩ | ⟨j, -, -, hp, -⟩
  · rcases h.cases with hT | ⟨x, kids, hT⟩
    · simp [hT, Forest.rootNumbers] at hroot
    · simp [hT, Forest.rootNumbers] at hroot
      exact absurd hroot h0
  · rw [← row?_eq] at he
    exact ⟨j, by simp [parent?, he, hp]⟩

/-- The first node has no parent. -/
lemma parent?_zero (a : Ast) : a.parent? 0 = none := by
  cases h : a.parent? 0 with
  | none => rfl
  | some p => exact absurd (parent_lt h) (Nat.not_lt_zero p)

/-- What stands around a node comes before it. -/
lemma lt_of_mem_ancestors {j : Nat} (h : j ∈ a.ancestors i) : j < i := by
  fun_induction ancestors a i with
  | case1 => simp at h
  | case2 i p hp ih =>
    have := parent_lt hp
    rcases List.mem_cons.1 h with rfl | h
    · exact this
    · exact Nat.lt_trans (ih h) this

/-- Only nodes have something around them. -/
lemma lt_size_of_mem_ancestors {j : Nat} (h : j ∈ a.ancestors i) : i < a.size := by
  unfold ancestors at h
  split at h
  · simp at h
  · next p hp => exact lt_size_of_parent? hp

/-- The numbers that a node leads to are numbers of nodes. -/
structure Closed (a : Ast) : Prop where
  children : ∀ i, ∀ c ∈ a.children i, c < a.size
  parent : ∀ i p, a.parent? i = some p → p < a.size
  descendants : ∀ i < a.size, ∀ j ∈ a.descendants i, j < a.size
  ancestors : ∀ i, ∀ j ∈ a.ancestors i, j < a.size
  postorder : ∀ i ∈ a.postorder, i < a.size

/-- Every child in the table is a node behind its parent. -/
lemma isClosed (a : Ast) : a.Closed where
  children _ _ h := (mem_children h).2
  parent _ _ h := Nat.lt_trans (parent_lt h) (lt_size_of_parent? h)
  descendants i hi j hj := by
    obtain ⟨x, kids, hs⟩ := exists_sub? hi
    have := add_lt_size hs
    rw [descendants_of_sub? hs, List.mem_range'_1] at hj
    omega
  ancestors _ _ h := Nat.lt_trans (lt_of_mem_ancestors h) (lt_size_of_mem_ancestors h)
  postorder i h := by
    rw [size_eq]
    simpa using Forest.mem_postorder.1 h

/-- The tree without roles and places: kinds, labels, and the order of children. -/
def outline (a : Ast) : Forest (String × String) := a.tree.map Node.face

/-- The outline has as many nodes as the tree. -/
@[simp] lemma size_outline (a : Ast) : a.outline.size = a.size := by
  rw [outline, Forest.size_map, size_eq]

/-- The subtrees of the outline are the outlines of the subtrees. -/
lemma sub?_outline (a : Ast) (i : Nat) :
    a.outline.sub? i = (a.tree.sub? i).map fun p => (p.1.face, p.2.map Node.face) :=
  Forest.sub?_map _ _ _

/-- The outline of a subtree keeps kind and label of its head. -/
lemma outline_of_sub? (h : a.tree.sub? i = some (x, kids)) :
    a.outline.sub? i = some (x.face, kids.map Node.face) := by
  rw [sub?_outline, h]
  rfl

/-- Trees with one outline have one size. -/
lemma size_congr (h : a.outline = b.outline) : a.size = b.size := by
  rw [← size_outline a, h, size_outline]

/-- Kind and label of a node can be read off the outline. -/
lemma face_of_outline {x : String × String} {kids : Forest (String × String)}
    (h : a.outline.sub? i = some (x, kids)) : x = (a.kind i, a.label i) := by
  rw [sub?_outline] at h
  obtain ⟨⟨y, below⟩, hy, heq⟩ := Option.map_eq_some_iff.1 h
  simp only [Prod.mk.injEq] at heq
  rw [kind_of_sub? hy, label_of_sub? hy, ← heq.1, Node.face]

/-- The children of a node can be read off the outline. -/
lemma children_of_outline {x : String × String} {kids : Forest (String × String)}
    (h : a.outline.sub? i = some (x, kids)) : a.children i = kids.rootNumbers (i + 1) := by
  rw [sub?_outline] at h
  obtain ⟨⟨y, below⟩, hy, heq⟩ := Option.map_eq_some_iff.1 h
  simp only [Prod.mk.injEq] at heq
  rw [children_of_sub? hy, ← heq.2, Forest.rootNumbers_map]

/-- The outlines at the children of a node are the trees below it. -/
lemma map_children_outline {x : String × String} {kids : Forest (String × String)}
    (h : a.outline.sub? i = some (x, kids)) :
    (a.children i).map a.outline.sub? = kids.trees.map some := by
  rw [children_of_outline h]
  exact Forest.map_rootNumbers fun k p hk => by rw [Forest.sub?_below h (Forest.lt_of_sub? hk), hk]

/-- Equal outlines have heads of one kind and label. -/
lemma kind_eq_of_outline {s d : Nat} (h : a.outline.sub? s = b.outline.sub? d) (hs : s < a.size) :
    a.kind s = b.kind d ∧ a.label s = b.label d := by
  obtain ⟨x, kids, hx⟩ := exists_sub? hs
  rw [sub?_outline, sub?_outline, hx] at h
  obtain ⟨⟨y, below⟩, hy, heq⟩ := Option.map_eq_some_iff.1 h.symm
  simp only [Node.face, Prod.mk.injEq] at heq
  rw [kind_of_sub? hx, kind_of_sub? hy, label_of_sub? hx, label_of_sub? hy]
  exact ⟨heq.1.1.symm, heq.1.2.symm⟩

/-- Trees with one outline have the same children. -/
lemma children_congr (h : a.outline = b.outline) (i : Nat) : a.children i = b.children i := by
  have hsize := size_congr h
  by_cases hi : i < a.size
  · obtain ⟨x, kids, hx⟩ := Forest.exists_sub? (f := a.outline) (by rwa [size_outline])
    rw [children_of_outline hx, children_of_outline (h ▸ hx)]
  · rw [children, children, row?_eq_none (Nat.le_of_not_lt hi),
      row?_eq_none (hsize ▸ Nat.le_of_not_lt hi)]

/-- Trees with one outline have the same parents. -/
lemma parent?_congr (h : a.outline = b.outline) (i : Nat) : a.parent? i = b.parent? i := by
  ext p
  rw [parent?_eq_some_iff, parent?_eq_some_iff, children_congr h]

/-- As many nodes stand below two nodes with equal outlines. -/
lemma size_eq_of_outline {s d : Nat} {y : Node} {below : Forest Node}
    (h : a.outline.sub? s = b.outline.sub? d) (hx : a.tree.sub? s = some (x, kids))
    (hy : b.tree.sub? d = some (y, below)) : kids.size = below.size := by
  rw [outline_of_sub? hx, outline_of_sub? hy, Option.some.injEq, Prod.mk.injEq] at h
  rw [← Forest.size_map Node.face kids, ← Forest.size_map Node.face below, h.2]

/-- Subtrees with the same outline have their children at the same places, with the same outlines. -/
lemma exists_places {s d : Nat} (h : a.outline.sub? s = b.outline.sub? d) (hs : s < a.size) :
    ∃ places : List Nat, a.children s = places.map (s + ·) ∧ b.children d = places.map (d + ·) ∧
      ∀ k ∈ places, a.outline.sub? (s + k) = b.outline.sub? (d + k) := by
  obtain ⟨x, kids, hx⟩ := Forest.exists_sub? (f := a.outline) (by rwa [size_outline])
  refine ⟨kids.rootNumbers 1, ?_, ?_, fun k hk => ?_⟩
  · rw [children_of_outline hx, Nat.add_comm, Forest.rootNumbers_add]
    simp only [Nat.add_comm]
  · rw [children_of_outline (h ▸ hx), Nat.add_comm, Forest.rootNumbers_add]
    simp only [Nat.add_comm]
  · obtain ⟨h1, hlt⟩ := Forest.mem_rootNumbers hk
    obtain ⟨k, rfl⟩ := Nat.exists_eq_add_of_le h1
    have hk : k < kids.size := by omega
    rw [← Nat.add_assoc, ← Nat.add_assoc, Forest.sub?_below hx hk, Forest.sub?_below (h ▸ hx) hk]

/-- Two nodes with equal outlines have their children at the same distances. -/
lemma add_mem_children {s d k : Nat} (h : a.outline.sub? s = b.outline.sub? d) (hs : s < a.size) :
    s + k ∈ a.children s ↔ d + k ∈ b.children d := by
  obtain ⟨places, ha, hb, -⟩ := exists_places h hs
  rw [ha, hb, List.mem_map, List.mem_map]
  simp only [Nat.add_left_cancel_iff]

/-- Subtrees with the same outline have the same outlines below them, place by place. -/
lemma outline_add {s d k : Nat}
    (h : a.outline.sub? s = b.outline.sub? d) (hx : a.tree.sub? s = some (x, kids))
    (hk : k ≤ kids.size) : a.outline.sub? (s + k) = b.outline.sub? (d + k) := by
  cases k with
  | zero => exact h
  | succ k =>
    have hx' := outline_of_sub? hx
    have hk' : k < (kids.map Node.face).size := by rw [Forest.size_map]; omega
    rw [show s + (k + 1) = s + 1 + k by omega, show d + (k + 1) = d + 1 + k by omega,
      Forest.sub?_below hx' hk', Forest.sub?_below (h ▸ hx') hk']

end Ast

end Mend.Syntax
