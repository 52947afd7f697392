import Mathlib.Logic.Relation
import Mend.Proofs.Syntax.Ancestry
import Mend.Proofs.Syntax.Conversion

/-!
# Programs lie in preorder

A text without faults is read as a table in preorder (`Ast.InPreorder`): the first node is the root, every other
node stands behind its parent, and the nodes of a subtree follow each other without a gap. What stands below a
node, by a chain of parents (`Ast.Above`), is thus told by numbers alone. It holds of every table laid out from
one tree (`Ast.inPreorder`), and so of the table that the loop over the parser's trees fills
(`Source.parse_inPreorder`).
-/

namespace Mend.Syntax

namespace Ast

variable {a : Ast} {i j : Nat}

/-- A chain of parents leads from the second node up to the first. -/
def Above (a : Ast) : Nat → Nat → Prop := Relation.TransGen fun p c => a.parent? c = some p

lemma mem_ancestors_iff_above : i ∈ a.ancestors j ↔ a.Above i j := by
  constructor
  · intro h
    fun_induction ancestors a j with
    | case1 => cases h
    | case2 j p hp ih =>
      rcases List.mem_cons.1 h with rfl | h
      · exact .single hp
      · exact (ih h).tail hp
  · intro h
    induction h with
    | single hp => exact ancestors_of_parent? hp ▸ List.mem_cons_self
    | tail _ hp ih => exact ancestors_of_parent? hp ▸ List.mem_cons_of_mem _ ih

lemma contains_iff_above : a.contains i j = true ↔ i = j ∨ a.Above i j := by
  rw [← mem_ancestors_iff_above, mem_ancestors]
  constructor
  · intro h
    by_cases hij : i = j
    · exact .inl hij
    · exact .inr ⟨h, hij⟩
  · rintro (rfl | h)
    · exact contains_self a i
    · exact h.1

/-- The first node is the root of all, parents stand before their children and know them in their order, and a
subtree is the run of nodes up to its last. -/
structure InPreorder (a : Ast) : Prop where
  size_pos : 0 < a.size
  root : ∀ i < a.size, a.parent? i = none ↔ i = 0
  parent_before : ∀ i p, a.parent? i = some p → p < i
  children_increasing : ∀ i, (a.children i).Pairwise (· < ·)
  children_exactly : ∀ i c, c ∈ a.children i ↔ c < a.size ∧ a.parent? c = some i
  subtree : ∀ i j, i = j ∨ a.Above i j ↔ i ≤ j ∧ j ≤ a.last i
  last_lt : ∀ i < a.size, a.last i < a.size
  descendants_increasing : ∀ i, (a.descendants i).Pairwise (· < ·)
  descendants_exactly : ∀ i j, j ∈ a.descendants i ↔ a.Above i j
  contains_exactly : ∀ i j, a.contains i j = true ↔ i = j ∨ a.Above i j
  ancestors_exactly : ∀ i j, i ∈ a.ancestors j ↔ a.Above i j

lemma inPreorder (h : a.IsArena) (hpos : 0 < a.size) : a.InPreorder where
  size_pos := hpos
  root i hi := by
    constructor
    · intro hnone
      by_contra hne
      obtain ⟨p, hp⟩ := h.exists_parent? hi hne
      rw [hp] at hnone
      cases hnone
    · rintro rfl
      exact parent?_zero a
  parent_before _ _ := parent_lt
  children_increasing := pairwise_children a
  children_exactly i c := by
    rw [parent?_eq_some_iff]
    exact ⟨fun hc => ⟨(mem_children hc).2, hc⟩, And.right⟩
  subtree i j := by rw [← contains_iff_above, contains_iff]
  last_lt _ := last_lt_size
  descendants_increasing _ := List.pairwise_lt_range'
  descendants_exactly _ _ := by rw [mem_descendants_iff_mem_ancestors, mem_ancestors_iff_above]
  contains_exactly _ _ := contains_iff_above
  ancestors_exactly _ _ := mem_ancestors_iff_above

end Ast

namespace Source

variable {s : Source} {root : Token} {kids : Concrete}

/-- A text without faults is read, its root being a grammar rule: the loop over the parser's trees comes to an
end, and the table that it leaves, once settled, is that of a program in preorder. -/
theorem parse_inPreorder (htree : s.tree = .cons root kids .nil) (hnamed : root.named = true)
    (hclean : root.hasError = false) (side : Side) (simplify : Bool) :
    ∃ (a : Ast) (rows : Rows), s.parse side simplify = .ok a ∧
      (conversion s.text simplify).turn^[kids.size + 1] ([⟨root, kids, none, none⟩], []) = ([], rows) ∧
      a.table = (settleAll rows).toArray ∧ a.InPreorder := by
  have hpos : 0 < (s.read simplify).size := by
    rw [Ast.size_eq, s.read_of_root htree hnamed, readTree_eq, Forest.size]
    omega
  refine ⟨s.read simplify, (s.read simplify).tree.entered none 0, ?_, ?_, ?_, ?_⟩
  · rw [parse, htree, Concrete.fault?, hclean]
    rfl
  · rw [← run_conversion htree hnamed]
    exact StackLoop.iterate_turn (Nat.le_refl _)
  · rw [settleAll_entered, Ast.table_eq]
  · exact Ast.inPreorder (isArena_read s simplify) hpos

/-- The text `((a)); // c` with an empty statement in the second line. -/
def parenthesized : Source :=
  ⟨"((a)); // c\n;", .cons (.clean "program" none 0 13)
    (.cons (.clean "expression_statement" none 0 6)
      (.cons (.clean "parenthesized_expression" none 0 5)
        (.cons (.clean "parenthesized_expression" none 1 4)
          (.cons (.clean "identifier" none 2 3) .nil .nil) .nil) .nil)
      (.cons (.clean "comment" none 7 11) .nil (.cons (.clean "empty_statement" none 12 13) .nil .nil))) .nil⟩

/-- The nodes that are left out leave no gap, whether they are few or many. -/
theorem parse_inPreorder_parenthesized :
    (∃ a, parenthesized.parse .buggy true = .ok a ∧ a.InPreorder ∧
      a.ids.map a.kind = ["program", "expression_statement", "identifier"] ∧ a.descendants 0 = [1, 2]) ∧
    ∃ a, parenthesized.parse .buggy false = .ok a ∧ a.InPreorder ∧
      a.ids.map a.kind = ["program", "expression_statement", "parenthesized_expression",
        "parenthesized_expression", "identifier", "empty_statement"] ∧ a.descendants 1 = [2, 3, 4] := by
  obtain ⟨few, -, hfew, -, -, hfewInPreorder⟩ := parse_inPreorder (s := parenthesized) rfl rfl rfl .buggy true
  obtain ⟨many, -, hmany, -, -, hmanyInPreorder⟩ := parse_inPreorder (s := parenthesized) rfl rfl rfl .buggy false
  obtain ⟨-, rfl⟩ := parse_eq_ok hfew
  obtain ⟨-, rfl⟩ := parse_eq_ok hmany
  exact ⟨⟨_, hfew, hfewInPreorder, by decide, by decide⟩, ⟨_, hmany, hmanyInPreorder, by decide, by decide⟩⟩

end Source

end Mend.Syntax
