import Mend.Proofs.Syntax.Arena
import Mend.Syntax.Naming
import Mend.Syntax.Walk

/-!
# Subtrees are nested runs

The nodes of a subtree are those from its top to its last node (`Ast.contains`). The subtree of a child
lies inside that of its parent (`contains_of_mem_children`), and the subtrees of two children have no node
in common (`last_lt_of_mem_children`). So two subtrees that meet are nested (`contains_or_contains`).
-/

namespace Mend

/-- The subtree at a root ends before the next root. -/
lemma Forest.add_lt_of_mem_rootNumbers {α : Type} {f kids : Forest α} {n c c' : Nat} {x : α}
    (hc : c ∈ f.rootNumbers n) (hc' : c' ∈ f.rootNumbers n) (hlt : c < c')
    (h : f.sub? (c - n) = some (x, kids)) : c + kids.size < c' := by
  induction f generalizing n with
  | nil => simp [rootNumbers] at hc
  | cons y below rest _ ihr =>
    rcases List.mem_cons.1 hc with rfl | hc
    · rw [Nat.sub_self, sub?, Option.some.injEq, Prod.mk.injEq] at h
      obtain ⟨-, rfl⟩ := h
      rcases List.mem_cons.1 hc' with rfl | hc'
      · omega
      · have := mem_rootNumbers hc'
        omega
    · have hge := mem_rootNumbers hc
      rcases List.mem_cons.1 hc' with rfl | hc'
      · omega
      · refine ihr hc hc' ?_
        rw [← h, show c - n = 1 + below.size + (c - (n + 1 + below.size)) by omega, sub?_rest]

/-- Every node of a forest stands in the subtree of a root. -/
lemma Forest.exists_mem_rootNumbers {α : Type} {f : Forest α} {n k : Nat} (h : k < f.size) :
    ∃ c ∈ f.rootNumbers n, ∃ x kids, f.sub? (c - n) = some (x, kids) ∧ c ≤ n + k ∧ n + k ≤ c + kids.size := by
  induction f generalizing n k with
  | nil => simp [size] at h
  | cons x kids rest _ ihr =>
    simp only [size] at h
    by_cases hk : k ≤ kids.size
    · refine ⟨n, List.mem_cons_self, x, kids, ?_, Nat.le_add_right n k, Nat.add_le_add_left hk n⟩
      rw [Nat.sub_self, sub?]
    · obtain ⟨c, hc, y, below, hs, hle, hge⟩ := ihr (n := n + 1 + kids.size) (k := k - (1 + kids.size)) (by omega)
      refine ⟨c, List.mem_cons_of_mem _ hc, y, below, ?_, by omega, by omega⟩
      have hn := mem_rootNumbers hc
      rw [show c - n = 1 + kids.size + (c - (n + 1 + kids.size)) by omega, sub?_rest, hs]

/-- The last number of a rising list is greater than the others. -/
lemma lt_of_getLast? {l : List Nat} {n last : Nat} (h : l.Pairwise (· < ·)) (hlast : l.getLast? = some last)
    (hn : n ∈ l) (hne : n ≠ last) : n < last := by
  obtain ⟨front, rfl⟩ := List.getLast?_eq_some_iff.1 hlast
  rcases List.mem_append.1 hn with hn | hn
  · exact (List.pairwise_append.1 h).2.2 n hn last List.mem_cons_self
  · exact absurd (List.mem_singleton.1 hn) hne

namespace Syntax.Ast

variable {a : Ast} {i j k c : Nat}

/-- A node contains those numbered from it to its last. -/
lemma contains_iff : a.contains i j = true ↔ i ≤ j ∧ j ≤ a.last i := by
  simp [contains]

/-- A node stands no later than the last below it. -/
lemma le_last (a : Ast) (i : Nat) : i ≤ a.last i := by
  by_cases hi : i < a.size
  · obtain ⟨x, kids, hs⟩ := exists_sub? hi
    rw [last_of_sub? hs]
    omega
  · simp [last, row?_eq_none (Nat.le_of_not_lt hi)]

/-- A node contains itself. -/
@[simp] lemma contains_self (a : Ast) (i : Nat) : a.contains i i = true :=
  contains_iff.2 ⟨Nat.le_refl i, le_last a i⟩

/-- The last node below a node is a node of the tree. -/
lemma last_lt_size (h : i < a.size) : a.last i < a.size := by
  obtain ⟨x, kids, hs⟩ := exists_sub? h
  rw [last_of_sub? hs]
  exact add_lt_size hs

/-- A subtree ends no later than one that it begins in. -/
lemma last_le_last (h : a.contains i j = true) : a.last j ≤ a.last i := by
  rw [contains_iff] at h
  by_cases hi : i < a.size
  · obtain ⟨x, kids, hs⟩ := exists_sub? hi
    rw [last_of_sub? hs] at h ⊢
    rcases Nat.eq_or_lt_of_le h.1 with rfl | hlt
    · exact Nat.le_of_eq (last_of_sub? hs)
    · obtain ⟨y, below, hy⟩ := Forest.exists_sub? (f := kids) (i := j - (i + 1)) (by omega)
      have hsub := Forest.sub?_below hs (Forest.lt_of_sub? hy)
      rw [hy, show i + 1 + (j - (i + 1)) = j by omega] at hsub
      have := Forest.add_lt_of_sub? hy
      rw [last_of_sub? hsub]
      omega
  · have hlast : a.last i = i := by simp [last, row?_eq_none (Nat.le_of_not_lt hi)]
    exact Nat.le_of_eq (by rw [Nat.le_antisymm (hlast ▸ h.2) h.1])

/-- Containing is transitive. -/
lemma contains_trans (hij : a.contains i j = true) (hjk : a.contains j k = true) :
    a.contains i k = true := by
  have := last_le_last hij
  rw [contains_iff] at *
  omega

/-- A node contains its children. -/
lemma contains_child (h : c ∈ a.children i) : a.contains i c = true := by
  have hc := mem_children h
  obtain ⟨x, kids, hs⟩ := exists_sub? (i := i) (a := a) (by omega)
  rw [children_of_sub? hs] at h
  have := Forest.mem_rootNumbers h
  rw [contains_iff, last_of_sub? hs]
  omega

/-- A node contains what its children contain. -/
lemma contains_of_mem_children (h : c ∈ a.children i) (hj : a.contains c j = true) :
    a.contains i j = true :=
  contains_trans (contains_child h) hj

/-- A node contains what the child of a role contains. -/
lemma contains_of_child? {field : String} (h : a.child? i field = some c)
    (hj : a.contains c j = true) : a.contains i j = true :=
  contains_of_mem_children (List.mem_of_find?_eq_some h) hj

/-- A node contains what its first child contains. -/
lemma contains_of_firstChild? (h : a.firstChild? i = some c) (hj : a.contains c j = true) :
    a.contains i j = true :=
  contains_of_mem_children (List.mem_of_mem_head? h) hj

/-- The subtrees of two children are apart. -/
lemma last_lt_of_mem_children {c' : Nat} (hc : c ∈ a.children i) (hc' : c' ∈ a.children i)
    (hlt : c < c') : a.last c < c' := by
  have hbounds := mem_children hc
  obtain ⟨x, kids, hs⟩ := exists_sub? (i := i) (a := a) (by omega)
  rw [children_of_sub? hs] at hc hc'
  have hrange := Forest.mem_rootNumbers hc
  obtain ⟨y, below, hy⟩ := Forest.exists_sub? (f := kids) (i := c - (i + 1)) (by omega)
  have hsub := Forest.sub?_below hs (Forest.lt_of_sub? hy)
  rw [hy, show i + 1 + (c - (i + 1)) = c by omega] at hsub
  rw [last_of_sub? hsub]
  exact Forest.add_lt_of_mem_rootNumbers hc hc' hlt hy

/-- Taking off parentheses twice takes off no more. -/
lemma unparen_unparen (a : Ast) (i : Nat) : a.unparen (a.unparen i) = a.unparen i := by
  fun_induction unparen a i with
  | case1 i _ c hc ih => exact ih
  | case2 i hk hc =>
    rw [unparen, if_pos hk]
    split
    · next c hc' => cases hc.symm.trans hc'
    · rfl
  | case3 i hk => rw [unparen, if_neg hk]

/-- A node contains what it contains inside its parentheses. -/
lemma contains_unparen (h : a.contains (a.unparen i) j = true) : a.contains i j = true := by
  fun_induction unparen a i with
  | case1 i _ c hc ih => exact contains_of_firstChild? hc (ih h)
  | case2 => exact h
  | case3 => exact h

/-- Two subtrees have no node in common. -/
def Apart (a : Ast) (j k : Nat) : Prop :=
  ∀ n, a.contains j n = true → a.contains k n = true → False

/-- Standing apart is symmetric. -/
lemma Apart.symm (h : a.Apart j k) : a.Apart k j := fun n hk hj => h n hj hk

instance (a : Ast) : Std.Symm a.Apart := ⟨fun _ _ => Apart.symm⟩

/-- What lies below nodes that stand apart stands apart. -/
lemma Apart.mono {j' k' : Nat} (h : a.Apart j k) (hj : a.contains j j' = true)
    (hk : a.contains k k' = true) : a.Apart j' k' :=
  fun n hj' hk' => h n (contains_trans hj hj') (contains_trans hk hk')

/-- A child stands apart from any later one. -/
lemma apart_of_lt {c' : Nat} (hc : c ∈ a.children i) (hc' : c' ∈ a.children i) (hlt : c < c') :
    a.Apart c c' := by
  intro n hn hn'
  have := last_lt_of_mem_children hc hc' hlt
  rw [contains_iff] at hn hn'
  omega

/-- Two children stand apart. -/
lemma apart_of_ne {c' : Nat} (hc : c ∈ a.children i) (hc' : c' ∈ a.children i) (hne : c ≠ c') :
    a.Apart c c' := by
  rcases Nat.lt_or_gt_of_ne hne with hlt | hlt
  · exact apart_of_lt hc hc' hlt
  · exact (apart_of_lt hc' hc hlt).symm

/-- Children whose subtrees meet are the same. -/
lemma eq_of_contains {c' n : Nat} (hc : c ∈ a.children i) (hc' : c' ∈ a.children i) (hn : a.contains c n = true)
    (hn' : a.contains c' n = true) : c = c' :=
  Decidable.byContradiction fun hne => apart_of_ne hc hc' hne n hn hn'

/-- The child of a role has that role. -/
lemma field?_of_child? {field : String} (h : a.child? i field = some c) : a.field? c = some field := by
  simpa using List.find?_some h

/-- The child of a role is a child. -/
lemma mem_children_of_child? {field : String} (h : a.child? i field = some c) : c ∈ a.children i :=
  List.mem_of_find?_eq_some h

/-- Children in different roles stand apart. -/
lemma apart_of_child? {c' : Nat} {field field' : String} (hc : a.child? i field = some c)
    (hc' : a.child? i field' = some c') (hne : field ≠ field') : a.Apart c c' := by
  apply apart_of_ne (mem_children_of_child? hc) (mem_children_of_child? hc')
  rintro rfl
  exact hne (Option.some.inj ((field?_of_child? hc).symm.trans (field?_of_child? hc')))

/-- Two subtrees with a node in common are nested. -/
lemma contains_or_contains {n : Nat} (hi : a.contains i n = true) (hj : a.contains j n = true) :
    a.contains i j = true ∨ a.contains j i = true := by
  simp only [contains_iff] at *
  omega

/-- Whatever stands below a node stands in the subtree of a child. -/
lemma exists_child_of_contains (h : a.contains i k = true) (hne : k ≠ i) :
    ∃ c ∈ a.children i, a.contains c k = true := by
  rw [contains_iff] at h
  by_cases hi : i < a.size
  · obtain ⟨x, kids, hs⟩ := exists_sub? hi
    rw [last_of_sub? hs] at h
    obtain ⟨c, hc, y, below, hy, hle, hge⟩ :=
      Forest.exists_mem_rootNumbers (f := kids) (n := i + 1) (k := k - (i + 1)) (by omega)
    have hsub := Forest.sub?_below hs (Forest.lt_of_sub? hy)
    have hn := Forest.mem_rootNumbers hc
    rw [hy, show i + 1 + (c - (i + 1)) = c by omega] at hsub
    refine ⟨c, children_of_sub? hs ▸ hc, contains_iff.2 ⟨by omega, ?_⟩⟩
    rw [last_of_sub? hsub]
    omega
  · have hlast : a.last i = i := by simp [last, row?_eq_none (Nat.le_of_not_lt hi)]
    exact absurd (Nat.le_antisymm (hlast ▸ h.2) h.1) hne

/-- A subtree ends where that of the last child ends. -/
lemma last_eq (a : Ast) (i : Nat) : a.last i = (a.children i).getLast?.elim i a.last := by
  have hend : a.contains i (a.last i) = true := contains_iff.2 ⟨le_last a i, Nat.le_refl _⟩
  cases hlast : (a.children i).getLast? with
  | none =>
    refine Decidable.byContradiction fun hne => ?_
    obtain ⟨c, hc, -⟩ := exists_child_of_contains hend hne
    rw [List.getLast?_eq_none_iff.1 hlast] at hc
    cases hc
  | some c =>
    have hc : c ∈ a.children i := List.mem_of_getLast? hlast
    have hbounds := mem_children hc
    have hself := le_last a c
    have hle := last_le_last (contains_child hc)
    rw [Option.elim_some]
    obtain ⟨c', hc', hend⟩ := exists_child_of_contains hend (by omega)
    -- The last node stands in the subtree of a child, and there is no child behind the last.
    by_cases heq : c' = c
    · subst heq
      exact Nat.le_antisymm (contains_iff.1 hend).2 hle
    · have hlt : c' < c := lt_of_getLast? (pairwise_children a i) hlast hc' heq
      have := last_lt_of_mem_children hc' hc hlt
      have := (contains_iff.1 hend).2
      omega

/-- A subtree with a node of the subtree of a child stands in it, or the parent stands in the subtree. -/
lemma contains_child_or_parent {n : Nat} (hc : c ∈ a.children i) (hn : a.contains c n = true)
    (hj : a.contains j n = true) : a.contains c j = true ∨ a.contains j i = true := by
  rcases contains_or_contains (contains_of_mem_children hc hn) hj with hij | hji
  · by_cases hne : j = i
    · exact .inr (hne ▸ contains_self a j)
    · obtain ⟨c', hc', hj'⟩ := exists_child_of_contains hij hne
      cases eq_of_contains hc hc' hn (contains_trans hj' hj)
      exact .inl hj'
  · exact .inr hji

/-- The steps upwards lead from children to parents around a node. -/
lemma mem_ascent {n up below : Nat} (h : (up, below) ∈ a.ascent n) :
    below ∈ a.children up ∧ a.contains below n = true := by
  unfold ascent at h
  fun_induction ancestors a n with
  | case1 => cases h
  | case2 n p hp ih =>
    have hn : n ∈ a.children p := parent?_eq_some_iff.1 hp
    rw [List.zip_cons_cons, List.mem_cons] at h
    rcases h with h | h
    · cases h
      exact ⟨hn, contains_self a _⟩
    · obtain ⟨hbelow, hp⟩ := ih h
      exact ⟨hbelow, contains_trans hp (contains_child hn)⟩

end Syntax.Ast

end Mend
