import Mathlib.Tactic.ByContra
import Mathlib.Tactic.Lemma
import Mend.Keyword.Extract
import Mend.Proofs.Syntax.Arena

/-!
# What a node contributes

A node contributes at most five uses (`length_usesAt_le`), so that the uses of a program can be counted
in 64-bit words. The node of a whole script contributes none (`usesAt_eq_nil`). Every use carries the label
of the node that contributes it (`exists_change_of_mem_usesOf`).
-/

namespace Mend.Keyword

namespace Extractor

variable (x : Extractor) (i : Nat)

/-- What may be missing is at most one. -/
lemma length_toList_le {α : Type} (o : Option α) : o.toList.length ≤ 1 := by cases o <;> simp

/-- What depends on a condition is no longer than when it holds. -/
lemma length_ite_le {α : Type} (c : Prop) [Decidable c] {l : List α} {n : Nat} (h : l.length ≤ n) :
    (if c then l else []).length ≤ n := by
  split
  · exact h
  · exact Nat.zero_le n

/-- A parameter has at most one token. -/
lemma length_parameterTokens_le : (x.parameterTokens i).length ≤ 1 := by
  unfold parameterTokens
  split
  · simp
  · dsimp only
    split
    · simp
    · split <;> simp

/-- An identifier has at most four tokens. -/
lemma length_identifierTokens_le : (x.identifierTokens i).length ≤ 4 := by
  unfold identifierTokens
  dsimp only
  split
  · simp
  · have hparameter := x.length_parameterTokens_le i
    simp only [List.length_append]
    -- One token for each of the four lists that are put together.
    show _ ≤ 1 + 1 + 1 + 1
    refine Nat.add_le_add (Nat.add_le_add (Nat.add_le_add ?_ ?_) ?_) hparameter
    · exact length_ite_le _ (Nat.le_refl 1)
    · exact length_ite_le _ (length_toList_le _)
    · exact length_ite_le _ (Nat.le_refl 1)

/-- A property has at most one token. -/
lemma length_propertyTokens_le : (x.propertyTokens i).length ≤ 1 := by
  unfold propertyTokens
  dsimp only
  split
  · simp
  · split
    · split
      · simp
      · split <;> simp
    · simp
    · split <;> simp
    · simp

/-- A `new` expression has at most two tokens. -/
lemma length_newTokens_le : (x.newTokens i).length ≤ 2 := by
  unfold newTokens
  dsimp only
  rw [List.length_cons]
  exact Nat.succ_le_succ (length_toList_le _)

/-- A node has at most four tokens by its kind. -/
lemma length_tokensByKind_le : (x.tokensByKind i).length ≤ 4 := by
  unfold tokensByKind
  dsimp only
  split
  · exact Nat.le_trans (x.length_newTokens_le i) (by omega)
  any_goals exact Nat.le_trans (length_toList_le _) (by omega)
  any_goals exact Nat.le_of_ble_eq_true rfl
  · exact x.length_identifierTokens_le i
  · exact Nat.le_trans (x.length_propertyTokens_le i) (by omega)

/-- A node has at most five uses. -/
lemma length_usesAt_le (change : Change) : (x.usesAt change i).length ≤ 5 := by
  have htokens := x.length_tokensByKind_le i
  have htruth : (x.truthTokens i).length ≤ 1 := by
    unfold truthTokens
    split <;> simp
  unfold usesAt
  split
  · simp
  · rw [List.length_map, List.length_append]
    omega

/-- The node of a whole script contributes nothing, and neither does what is no node. -/
lemma usesAt_eq_nil (change : Change) (h : x.ast.kind i = "program" ∨ x.ast.kind i = "") :
    x.usesAt change i = [] := by
  have hstatement : statementWords.find? (·.1 == x.ast.kind i) = none := by
    rcases h with h | h <;> rw [h] <;> decide
  have htokens : x.tokensByKind i = [] := by
    unfold tokensByKind
    dsimp only
    rcases h with h | h <;> rw [h] <;> rfl
  have htruth : x.truthTokens i = [] := by
    unfold truthTokens
    rcases h with h | h <;> rw [h] <;> rfl
  unfold usesAt
  rw [hstatement, htokens, htruth]
  rfl

/-- The uses at a node have the change asked for. -/
lemma change_of_mem_usesAt {change : Change} {u : Use} (h : u ∈ x.usesAt change i) : u.change = change := by
  unfold usesAt at h
  split at h
  · rw [List.mem_singleton.1 h]
  · obtain ⟨t, -, rfl⟩ := List.mem_map.1 h
    rfl

end Extractor

variable {r : Revision} {registry : Registry}

/-- Nodes have at most five uses each. -/
lemma length_usesOf_le (nodes : List Nat) : (usesOf r registry nodes).length ≤ 5 * nodes.length := by
  induction nodes with
  | nil => simp [usesOf]
  | cons i nodes ih =>
    have hi := Extractor.length_usesAt_le ⟨r.toAst, registry⟩ i (r.change i)
    have hcons : usesOf r registry (i :: nodes) =
        Extractor.usesAt ⟨r.toAst, registry⟩ (r.change i) i ++ usesOf r registry nodes := rfl
    rw [hcons, List.length_append, List.length_cons]
    omega

/-- A use carries the label of some node. -/
lemma exists_change_of_mem_usesOf {nodes : List Nat} {u : Use} (h : u ∈ usesOf r registry nodes) :
    ∃ i < r.size, u.change = r.change i := by
  obtain ⟨i, -, hi⟩ := List.mem_flatMap.1 h
  refine ⟨i, ?_, Extractor.change_of_mem_usesAt _ _ hi⟩
  by_contra hsize
  have hkind := Syntax.Ast.kind_eq_empty hsize
  rw [Extractor.usesAt_eq_nil ⟨r.toAst, registry⟩ i _ (.inr hkind)] at hi
  cases hi

end Mend.Keyword
