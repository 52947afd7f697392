import Mathlib.Data.List.Basic
import Mathlib.Data.Option.Basic
import Mend.Proofs.Digest.Outline
import Mend.Proofs.Syntax.Ancestry

/-!
# Trees without places

Two programs have the `SameOutline` if they agree node by node in kind, label and children; they are
`Alike` if they agree in roles and parents as well. Where the nodes stand in the text, and the text itself,
may differ.

Programs with the same outline have one `outline` (`SameOutline.outline_eq`), and so the same digests.
Programs with one `placeless` tree are alike (`alike_of_placeless_eq`), and every way through the one is a
way through the other.
-/

namespace Mend

universe u v w

/-- Mapping twice is mapping once. -/
lemma Forest.map_map {α : Type u} {β : Type v} {γ : Type w} (g : β → γ) (h : α → β)
    (f : Forest α) : (f.map h).map g = f.map (g ∘ h) := by
  induction f with
  | nil => rfl
  | cons x kids rest ihk ihr => simp only [map, ihk, ihr, Function.comp_apply]

/-- No subtree starts behind the end. -/
lemma Forest.sub?_eq_none {α : Type u} {f : Forest α} {i : Nat} (h : f.size ≤ i) : f.sub? i = none :=
  Option.eq_none_iff_forall_ne_some.2 fun _ hp => Nat.not_le.2 (lt_of_sub? hp) h

namespace Syntax

/-- What a node is apart from its place in the text: kind, role and label. -/
def Node.traits (x : Node) : String × Option String × String := (x.kind, x.field, x.label)

namespace Ast

variable {a b : Ast} {i : Nat}

/-- The tree without the places of its nodes. -/
def placeless (a : Ast) : Forest (String × Option String × String) := a.tree.map Node.traits

/-- Programs that agree node by node in kind, label and children. -/
structure SameOutline (a b : Ast) : Prop where
  size : a.size = b.size
  kind : ∀ i, a.kind i = b.kind i
  label : ∀ i, a.label i = b.label i
  children : ∀ i, a.children i = b.children i

/-- Programs that agree node by node in everything but the places of the nodes. -/
structure Alike (a b : Ast) : Prop extends SameOutline a b where
  field? : ∀ i, a.field? i = b.field? i
  parent? : ∀ i, a.parent? i = b.parent? i

namespace SameOutline

/-- Trees of one outline have one outline at each node. -/
lemma sub?_outline (h : a.SameOutline b) (i : Nat) : a.outline.sub? i = b.outline.sub? i := by
  -- From the last node to the first: children come after their parents.
  induction hn : a.size - i using Nat.strongRecOn generalizing i with
  | _ n ih =>
    by_cases hi : i < a.size
    · obtain ⟨x, kids, hx⟩ := Forest.exists_sub? (f := a.outline) (by rwa [size_outline])
      obtain ⟨y, below, hy⟩ := Forest.exists_sub? (f := b.outline) (i := i)
        (by rwa [size_outline, ← h.size])
      have hxy : x = y := by rw [face_of_outline hx, face_of_outline hy, h.kind, h.label]
      have hkids : kids = below := by
        refine Forest.trees_injective (List.map_injective_iff.2 (Option.some_injective _) ?_)
        rw [← map_children_outline hx, ← map_children_outline hy, ← h.children]
        refine List.map_congr_left fun c hc => ih _ ?_ c rfl
        have := mem_children hc
        omega
      rw [hx, hy, hxy, hkids]
    · rw [Forest.sub?_eq_none (by rw [size_outline]; omega),
        Forest.sub?_eq_none (by rw [size_outline, ← h.size]; omega)]

/-- Programs that agree node by node in kind, label and children have one outline. -/
lemma outline_eq (h : a.SameOutline b) (ha : a.IsArena) (hb : b.IsArena) : a.outline = b.outline := by
  have hsize : a.outline.size = b.outline.size := by rw [size_outline, size_outline, h.size]
  have hroot := h.sub?_outline 0
  rcases ha.cases with hT | ⟨x, kids, hT⟩ <;> rcases hb.cases with hU | ⟨y, below, hU⟩
  · rw [outline, outline, hT, hU]
  · simp [outline, hT, hU, Forest.map, Forest.size] at hsize
    omega
  · simp [outline, hT, hU, Forest.map, Forest.size] at hsize
  · simp only [outline, hT, hU, Forest.map, Forest.sub?, Option.some.injEq, Prod.mk.injEq] at hroot ⊢
    rw [hroot.1, hroot.2]

end SameOutline

/-- Trees with equal outlines have the same outline. -/
lemma sameOutline_of_outline_eq (h : a.outline = b.outline) : a.SameOutline b := by
  have hface : ∀ i, a.kind i = b.kind i ∧ a.label i = b.label i := by
    intro i
    by_cases hi : i < a.size
    · exact kind_eq_of_outline (by rw [h]) hi
    · have hb : b.row? i = none := row?_eq_none (size_congr h ▸ Nat.le_of_not_lt hi)
      simp [kind, label, row?_eq_none (Nat.le_of_not_lt hi), hb]
  exact ⟨size_congr h, fun i => (hface i).1, fun i => (hface i).2, children_congr h⟩

/-- The role of a node, read off its subtree. -/
lemma field?_of_sub? {x : Node} {kids : Forest Node} (h : a.tree.sub? i = some (x, kids)) :
    a.field? i = x.field := by
  obtain ⟨e, he, rfl, -, -⟩ := row?_of_sub? h
  simp [field?, he]

/-- Trees that differ in places only have one outline. -/
lemma outline_eq_of_placeless_eq (h : a.placeless = b.placeless) : a.outline = b.outline := by
  have hforget : ∀ c : Ast, c.outline = c.placeless.map fun t => (t.1, t.2.2) := fun c =>
    (Forest.map_map (fun t : String × Option String × String => (t.1, t.2.2)) Node.traits c.tree).symm
  rw [hforget, hforget, h]

/-- Trees that differ in places only have the same roles. -/
lemma field?_congr (h : a.placeless = b.placeless) (i : Nat) : a.field? i = b.field? i := by
  have hsize := size_congr (outline_eq_of_placeless_eq h)
  by_cases hi : i < a.size
  · obtain ⟨x, kids, hx⟩ := exists_sub? hi
    obtain ⟨y, below, hy⟩ := exists_sub? (hsize ▸ hi)
    have ht : a.placeless.sub? i = b.placeless.sub? i := by rw [h]
    rw [placeless, placeless, Forest.sub?_map, Forest.sub?_map, hx, hy] at ht
    simp only [Option.map_some, Option.some.injEq, Prod.mk.injEq, Node.traits] at ht
    rw [field?_of_sub? hx, field?_of_sub? hy, ht.1.2.1]
  · have hb : b.row? i = none := row?_eq_none (hsize ▸ Nat.le_of_not_lt hi)
    simp [field?, row?_eq_none (Nat.le_of_not_lt hi), hb]

/-- Programs with one tree, places apart, agree node by node. -/
lemma alike_of_placeless_eq (h : a.placeless = b.placeless) : a.Alike b where
  toSameOutline := sameOutline_of_outline_eq (outline_eq_of_placeless_eq h)
  field? := field?_congr h
  parent? := parent?_congr (outline_eq_of_placeless_eq h)

namespace Alike

variable (h : a.Alike b)

include h

/-- They have the same nodes. -/
lemma ids : a.ids = b.ids := by rw [Ast.ids, Ast.ids, h.size]

/-- Either both are empty or neither is. -/
lemma isEmpty : a.isEmpty = b.isEmpty := by rw [Ast.isEmpty, Ast.isEmpty, h.size]

/-- They have the same root. -/
lemma root? : a.root? = b.root? := by rw [Ast.root?, Ast.root?, h.size]

/-- They have the same child in each role. -/
lemma child? (i : Nat) (field : String) : a.child? i field = b.child? i field := by
  simp only [Ast.child?, h.children, h.field?]

/-- Each node stands at the same place among its siblings. -/
lemma siblingIndex? (i : Nat) : a.siblingIndex? i = b.siblingIndex? i := by
  simp only [Ast.siblingIndex?, h.parent?, h.children]

/-- Each node has the same ancestors. -/
lemma ancestors (i : Nat) : a.ancestors i = b.ancestors i := by
  fun_induction Ast.ancestors a i with
  | case1 i hp =>
    have hp' : b.parent? i = none := h.parent? i ▸ hp
    rw [Ast.ancestors_of_root hp']
  | case2 i p hp ih =>
    have hp' : b.parent? i = some p := h.parent? i ▸ hp
    rw [ih, Ast.ancestors_of_parent? hp']

/-- They have the same postorder. -/
lemma postorder (ha : a.IsArena) (hb : b.IsArena) : a.postorder = b.postorder := by
  rw [Ast.postorder, Ast.postorder, ← Forest.postorder_map Node.face,
    ← Forest.postorder_map Node.face b.tree]
  exact congrArg (Forest.postorder 0) (h.outline_eq ha hb)

/-- Each node has the same descendants. -/
lemma descendants (i : Nat) : a.descendants i = b.descendants i := by
  by_cases hi : i < a.size
  · obtain ⟨x, kids, hx⟩ := exists_sub? hi
    obtain ⟨y, below, hy⟩ := exists_sub? (h.size ▸ hi)
    rw [descendants_of_sub? hx, descendants_of_sub? hy,
      size_eq_of_outline (h.sub?_outline i) hx hy]
  · have hb : b.row? i = none := row?_eq_none (h.size ▸ Nat.le_of_not_lt hi)
    simp [Ast.descendants, last, row?_eq_none (Nat.le_of_not_lt hi), hb]

/-- Digests do not see places. -/
lemma ofAst (ha : a.IsArena) (hb : b.IsArena) : Digest.Table.ofAst a = Digest.Table.ofAst b := by
  simp only [Digest.Table.ofAst, h.size, h.kind, h.label, h.children, h.postorder ha hb]

end Alike

end Ast

end Syntax

end Mend
