import Mend.Digest.Subtree
import Mend.Proofs.Syntax.Nesting

/-!
# Digests are told by outlines

The table of digests is filled in postorder, so that every node finds the subtrees below it already there.
What it says of a node in the end is what `Subtree.ofFace` reads off the outline of the subtree
(`at_ofAst`): fields and places have no part in it. Equal outlines thus have equal digests
(`at_eq_of_outline`). The converse is what a comparison relies on; it is a property of the hash on the two
programs at hand (`TellsApart`).
-/

namespace Mend.Digest

open Syntax (Ast Node)

/-- The subtrees at the roots of a forest. -/
def Subtree.ofRoots : Forest (String × String) → List Subtree
  | .nil => []
  | .cons x kids rest => .ofNode ⟨x.1, x.2, []⟩ (ofRoots kids) :: ofRoots rest

/-- The subtree of a node, by its kind and label and the forest below it. -/
def Subtree.ofFace (x : String × String) (kids : Forest (String × String)) : Subtree :=
  .ofNode ⟨x.1, x.2, []⟩ (ofRoots kids)

/-- The subtrees of a forest are those of its trees. -/
lemma Subtree.ofRoots_eq (f : Forest (String × String)) :
    Subtree.ofRoots f = f.trees.map fun p => .ofFace p.1 p.2 := by
  induction f with
  | nil => rfl
  | cons x kids rest _ ihr => simp only [ofRoots, Forest.trees, List.map_cons, ihr, ofFace]

/-- The sizes of the subtrees and one more make the size of the node above. -/
lemma Subtree.sum_size_ofRoots (f : Forest (String × String)) :
    ((Subtree.ofRoots f).map (·.size)).foldr (· + ·) 1 = f.size + 1 := by
  induction f with
  | nil => rfl
  | cons x kids rest ihk ihr =>
    simp only [ofRoots, List.map_cons, List.foldr_cons, ihr, ofNode, ihk, Forest.size]
    omega

/-- The start of a maximum may be taken last. -/
lemma foldl_max_eq (l : List Nat) (m : Nat) : l.foldl max m = max m (l.foldl max 0) := by
  induction l generalizing m with
  | nil => simp
  | cons x l ih =>
    simp only [List.foldl_cons]
    rw [ih (max m x), ih (max 0 x)]
    omega

/-- The greatest height among the subtrees is that of the forest. -/
lemma Subtree.max_height_ofRoots (f : Forest (String × String)) :
    ((Subtree.ofRoots f).map (·.height)).foldl max 0 = f.height := by
  induction f with
  | nil => rfl
  | cons x kids rest ihk ihr =>
    simp only [ofRoots, List.map_cons, List.foldl_cons, Forest.height]
    rw [foldl_max_eq, ihr]
    simp only [ofNode, ihk]
    omega

namespace Table

variable {view : Nat → View} {t : Table}

/-- Filling an entry keeps the size. -/
@[simp] lemma size_fill (i : Nat) : (t.fill view i).size = t.size := by simp [fill]

/-- Filling an entry leaves the others. -/
lemma at_fill_of_ne {i j : Nat} (h : i ≠ j) : (t.fill view i).at j = t.at j := by
  simp [fill, Table.at, h]

/-- The entry filled is made from the node and the entries of its children. -/
lemma at_fill_self {i : Nat} (h : i < t.size) :
    (t.fill view i).at i = .ofNode (view i) ((view i).children.map t.at) := by
  simp [fill, Table.at, h]

/-- What a table holds after the nodes of a forest, numbered from `n`, have had their turns in postorder:
at their places the subtrees, elsewhere what it held before. -/
structure Filled (f : Forest (String × String)) (n : Nat) (t t' : Table) : Prop where
  size_eq : t'.size = t.size
  inside : ∀ k x kids, f.sub? k = some (x, kids) → t'.at (n + k) = .ofFace x kids
  outside : ∀ j, j < n ∨ n + f.size ≤ j → t'.at j = t.at j

/-- The roots of a filled forest are looked up as its subtrees. -/
lemma Filled.map_rootNumbers {f : Forest (String × String)} {n : Nat} {t t' : Table}
    (h : Filled f n t t') : (f.rootNumbers n).map t'.at = Subtree.ofRoots f := by
  rw [Subtree.ofRoots_eq]
  exact Forest.map_rootNumbers fun k p hp => h.inside k p.1 p.2 hp

/-- Going through a forest in postorder fills its places. -/
lemma filled_postorder {f : Forest (String × String)} {n : Nat}
    (hsize : n + f.size ≤ t.size)
    (hview : ∀ k x kids, f.sub? k = some (x, kids) →
      view (n + k) = ⟨x.1, x.2, kids.rootNumbers (n + k + 1)⟩) :
    Filled f n t ((f.postorder n).foldl (fill view) t) := by
  induction f generalizing n t with
  | nil => exact ⟨rfl, fun _ _ _ h => by simp [Forest.sub?] at h, fun _ _ => rfl⟩
  | cons y below rest ihk ihr =>
    simp only [Forest.size] at hsize
    -- First the nodes below the root have their turn, then the root, then the other trees.
    have hk := ihk (n := n + 1) (t := t) (by omega) fun k x kids h => by
      rw [show n + 1 + k = n + (k + 1) by omega]
      exact hview (k + 1) x kids (Forest.sub?_of_kids h)
    simp only [Forest.postorder, List.foldl_append, List.foldl_cons]
    generalize (below.postorder (n + 1)).foldl (fill view) t = t₁ at hk ⊢
    have hroot : (t₁.fill view n).at n = .ofFace y below := by
      have hv := hview 0 y below rfl
      rw [Nat.add_zero] at hv
      rw [at_fill_self (by rw [hk.size_eq]; omega), hv]
      simp only [hk.map_rootNumbers, Subtree.ofFace, Subtree.ofNode]
    have hr := ihr (n := n + 1 + below.size) (t := t₁.fill view n)
      (by rw [size_fill, hk.size_eq]; omega) fun k x kids h => by
        rw [show n + 1 + below.size + k = n + (1 + below.size + k) by omega]
        exact hview _ x kids (Forest.sub?_of_rest y h)
    refine ⟨?_, ?_, ?_⟩
    · rw [hr.size_eq, size_fill, hk.size_eq]
    · intro k x kids h
      cases k with
      | zero =>
        simp only [Forest.sub?, Option.some.injEq, Prod.mk.injEq] at h
        obtain ⟨rfl, rfl⟩ := h
        exact (hr.outside n (.inl (by omega))).trans hroot
      | succ k =>
        by_cases hlt : k < below.size
        · rw [Forest.sub?_kids hlt] at h
          rw [hr.outside _ (.inl (by omega)), at_fill_of_ne (by omega),
            show n + (k + 1) = n + 1 + k by omega]
          exact hk.inside k x kids h
        · obtain ⟨j, rfl⟩ := Nat.exists_eq_add_of_le (Nat.le_of_not_lt hlt)
          rw [show below.size + j + 1 = 1 + below.size + j by omega, Forest.sub?_rest] at h
          rw [show n + (below.size + j + 1) = n + 1 + below.size + j by omega]
          exact hr.inside j x kids h
    · intro j hj
      simp only [Forest.size] at hj
      rw [hr.outside j (by omega), at_fill_of_ne (by omega), hk.outside j (by omega)]

end Table

variable {a b : Ast}

/-- The table of a tree is filled with its outline. -/
lemma filled_ofAst (a : Ast) :
    Table.Filled a.outline 0 (Array.replicate a.size .unknown) (Table.ofAst a) := by
  rw [Table.ofAst, Table.build, Ast.postorder, ← Forest.postorder_map Node.face]
  apply Table.filled_postorder
  · simp
  · intro k x kids h
    rw [Ast.sub?_outline] at h
    obtain ⟨⟨y, below⟩, hy, heq⟩ := Option.map_eq_some_iff.1 h
    simp only [Prod.mk.injEq] at heq
    obtain ⟨rfl, rfl⟩ := heq
    simp only [Nat.zero_add, Ast.kind_of_sub? hy, Ast.label_of_sub? hy, Ast.children_of_sub? hy,
      Node.face, Forest.rootNumbers_map]

/-- The table of a tree has an entry for each node. -/
@[simp] lemma size_ofAst (a : Ast) : (Table.ofAst a).size = a.size := by
  rw [(filled_ofAst a).size_eq, Array.size_replicate]

/-- What the table says of a node is what its outline says. -/
lemma at_ofAst {i : Nat} {x : String × String} {kids : Forest (String × String)}
    (h : a.outline.sub? i = some (x, kids)) : (Table.ofAst a).at i = .ofFace x kids := by
  have := (filled_ofAst a).inside i x kids h
  rwa [Nat.zero_add] at this

/-- Subtrees with the same outline have the same digests. -/
lemma at_eq_of_outline {s d : Nat} (h : a.outline.sub? s = b.outline.sub? d) (hs : s < a.size) :
    (Table.ofAst a).at s = (Table.ofAst b).at d := by
  obtain ⟨x, kids, hx⟩ := Forest.exists_sub? (f := a.outline) (by rwa [Ast.size_outline])
  rw [at_ofAst hx, at_ofAst (h ▸ hx)]

variable {i : Nat} {x : Node} {kids : Forest Node}

/-- The size entered counts a node and what lies below it. -/
lemma size_at_ofAst (h : a.tree.sub? i = some (x, kids)) :
    ((Table.ofAst a).at i).size = kids.size + 1 := by
  rw [at_ofAst (Ast.outline_of_sub? h)]
  simp only [Subtree.ofFace, Subtree.ofNode, Subtree.sum_size_ofRoots, Forest.size_map]

/-- The height entered is one more than that of what lies below. -/
lemma height_of_outline {x : String × String} {kids : Forest (String × String)}
    (h : a.outline.sub? i = some (x, kids)) : ((Table.ofAst a).at i).height = kids.height + 1 := by
  rw [at_ofAst h]
  simp only [Subtree.ofFace, Subtree.ofNode, Subtree.max_height_ofRoots]

/-- The same, read off the tree itself. -/
lemma height_at_ofAst (h : a.tree.sub? i = some (x, kids)) :
    ((Table.ofAst a).at i).height = kids.height + 1 := by
  rw [height_of_outline (Ast.outline_of_sub? h), Forest.height_map]

/-! ## Subtrees inside one another -/

section

variable {s s' n : Nat}

/-- A node contains as many nodes from it on as its entry says. -/
lemma contains_iff_lt_size (hs : s < a.size) :
    a.contains s n = true ↔ s ≤ n ∧ n < s + ((Table.ofAst a).at s).size := by
  obtain ⟨x, kids, hx⟩ := Ast.exists_sub? hs
  rw [Ast.contains_iff, Ast.last_of_sub? hx, size_at_ofAst hx]
  omega

/-- What stands below a node is less tall. -/
lemma height_lt_of_contains (hs : s < a.size) (h : a.contains s n = true) (hne : n ≠ s) :
    ((Table.ofAst a).at n).height < ((Table.ofAst a).at s).height := by
  obtain ⟨x, kids, hx⟩ := Ast.exists_sub? hs
  rw [Ast.contains_iff, Ast.last_of_sub? hx] at h
  obtain ⟨k, rfl⟩ := Nat.exists_eq_add_of_lt (Nat.lt_of_le_of_ne h.1 hne.symm)
  obtain ⟨y, below, hy⟩ := Forest.exists_sub? (f := kids) (i := k) (by omega)
  have hsub : a.tree.sub? (s + k + 1) = some (y, below) := by
    rw [show s + k + 1 = s + 1 + k by omega, Forest.sub?_below hx (Forest.lt_of_sub? hy), hy]
  have := Forest.height_lt_of_sub? hy
  rw [height_at_ofAst hx, height_at_ofAst hsub]
  omega

/-- Of two subtrees with a node in common the one that is at least as tall contains the other. -/
lemma contains_of_height_le (hs' : s' < a.size) (h : a.contains s n = true)
    (h' : a.contains s' n = true)
    (hle : ((Table.ofAst a).at s').height ≤ ((Table.ofAst a).at s).height) :
    a.contains s s' = true := by
  rcases Ast.contains_or_contains h h' with hin | hout
  · exact hin
  · by_cases heq : s = s'
    · rw [heq]
      exact Ast.contains_self a s'
    · have := height_lt_of_contains hs' hout heq
      omega

end

/-- No two different subtrees, one of each program, have the same exact digest. -/
def TellsApart (a b : Ast) : Prop :=
  ∀ s < a.size, ∀ d < b.size,
    ((Table.ofAst a).at s).exact = ((Table.ofAst b).at d).exact → a.outline.sub? s = b.outline.sub? d

instance (a b : Ast) : Decidable (TellsApart a b) :=
  @Nat.decidableBallLT a.size _ fun _ _ => @Nat.decidableBallLT b.size _ fun _ _ => instDecidableForall

/-- Whether digests tell subtrees apart is told by outlines. -/
lemma tellsApart_congr {a a' b b' : Ast} (ha : a.outline = a'.outline) (hb : b.outline = b'.outline) :
    TellsApart a b ↔ TellsApart a' b' := by
  have hdigest : ∀ {a a' : Ast}, a.outline = a'.outline → ∀ s < a.size,
      (Table.ofAst a).at s = (Table.ofAst a').at s := fun h s hs => at_eq_of_outline (by rw [h]) hs
  rw [TellsApart, TellsApart, ← Ast.size_congr ha, ← Ast.size_congr hb, ha, hb]
  refine forall₂_congr fun s hs => forall₂_congr fun d hd => ?_
  rw [hdigest ha s hs, hdigest hb d hd]

end Mend.Digest
