import Mathlib.Data.List.Basic
import Mend.Proofs.Syntax.Nesting
import Mend.Proofs.Syntax.Walk

/-!
# Ways up and ways down

The ancestors of a node are the other nodes whose subtrees hold it (`mem_ancestors`), innermost first
(`pairwise_ancestors`). A walk down meets a node exactly if it enters everything on the way to it
(`mem_reach`), and it meets nodes in the order of the file (`pairwise_reach`). So what is said of one
direction can be said of the other.
-/

namespace Mend

/-- Nodes are met in the order of the file. -/
lemma Forest.pairwise_met {α : Type} (enters : Nat → Bool) (f : Forest α) (n : Nat) :
    (f.met enters n).Pairwise (· < ·) := by
  induction f generalizing n with
  | nil => exact .nil
  | cons x kids rest ihk ihr =>
    have hbelow : ∀ j ∈ (if enters n then kids.met enters (n + 1) else []),
        n + 1 ≤ j ∧ j < n + 1 + kids.size := by
      intro j hj
      split at hj
      · exact mem_met hj
      · cases hj
    rw [met, List.pairwise_cons, List.pairwise_append]
    refine ⟨?_, ?_, ihr _, ?_⟩
    · intro j hj
      rcases List.mem_append.1 hj with hj | hj
      · exact (hbelow j hj).1
      · have := mem_met hj
        omega
    · split
      · exact ihk _
      · exact .nil
    · intro j hj k hk
      exact Nat.lt_of_lt_of_le (hbelow j hj).2 (mem_met hk).1

/-- The first number of a falling list that satisfies `p` is the greatest. -/
lemma find?_eq_some_iff_of_pairwise {l : List Nat} {p : Nat → Bool} (h : l.Pairwise (· > ·)) {f : Nat} :
    l.find? p = some f ↔ f ∈ l ∧ p f = true ∧ ∀ g ∈ l, p g = true → g ≤ f := by
  induction h with
  | nil => simp
  | @cons n l hn _ ih =>
    rw [List.find?_cons]
    cases hp : p n with
    | true =>
      constructor
      · rintro ⟨⟩
        refine ⟨List.mem_cons_self, hp, fun g hg _ => ?_⟩
        rcases List.mem_cons.1 hg with rfl | hg
        · exact Nat.le_refl g
        · exact Nat.le_of_lt (hn g hg)
      · rintro ⟨hf, -, hmax⟩
        rcases List.mem_cons.1 hf with rfl | hf
        · rfl
        · exact absurd (hn f hf) (Nat.not_lt.2 (hmax n List.mem_cons_self hp))
    | false =>
      rw [ih]
      have hne : ∀ g, p g = true → g ≠ n := by
        rintro g hg rfl
        rw [hp] at hg
        cases hg
      constructor
      · rintro ⟨hf, hpf, hmax⟩
        refine ⟨List.mem_cons_of_mem n hf, hpf, fun g hg hpg => ?_⟩
        exact hmax g ((List.mem_cons.1 hg).resolve_left (hne g hpg)) hpg
      · rintro ⟨hf, hpf, hmax⟩
        refine ⟨(List.mem_cons.1 hf).resolve_left (hne f hpf), hpf, fun g hg => ?_⟩
        exact hmax g (List.mem_cons_of_mem n hg)

/-- The first numbers of a falling list that satisfy `p` are those without a failure as great. -/
lemma mem_takeWhile_iff_of_pairwise {l : List Nat} {p : Nat → Bool} (h : l.Pairwise (· > ·)) {n : Nat} :
    n ∈ l.takeWhile p ↔ n ∈ l ∧ ∀ m ∈ l, n ≤ m → p m = true := by
  induction h with
  | nil => simp
  | @cons k l hk _ ih =>
    rw [List.takeWhile_cons]
    constructor
    · split
      · next hp =>
        intro hn
        rcases List.mem_cons.1 hn with rfl | hn
        · refine ⟨List.mem_cons_self, fun m hm hle => ?_⟩
          rcases List.mem_cons.1 hm with rfl | hm
          · exact hp
          · exact absurd (hk m hm) (Nat.not_lt.2 hle)
        · obtain ⟨hmem, hall⟩ := ih.1 hn
          refine ⟨List.mem_cons_of_mem k hmem, fun m hm hle => ?_⟩
          rcases List.mem_cons.1 hm with rfl | hm
          · exact hp
          · exact hall m hm hle
      · intro hn
        cases hn
    · rintro ⟨hn, hall⟩
      have hle : n ≤ k := by
        rcases List.mem_cons.1 hn with rfl | hn
        · exact Nat.le_refl n
        · exact Nat.le_of_lt (hk n hn)
      rw [if_pos (hall k List.mem_cons_self hle), List.mem_cons]
      rcases List.mem_cons.1 hn with rfl | hn
      · exact .inl rfl
      · exact .inr (ih.2 ⟨hn, fun m hm => hall m (List.mem_cons_of_mem k hm)⟩)

namespace Syntax.Ast

variable {a : Ast} {i j k n : Nat}

/-- The ancestors of a node are its parent and the ancestors of that. -/
lemma ancestors_of_parent? (h : a.parent? i = some j) : a.ancestors i = j :: a.ancestors j := by
  rw [ancestors]
  split
  · next hnone =>
    rw [h] at hnone
    cases hnone
  · next p hp =>
    cases h.symm.trans hp
    rfl

/-- A root has no ancestors. -/
lemma ancestors_of_root (h : a.parent? i = none) : a.ancestors i = [] := by
  rw [ancestors]
  split
  · rfl
  · next p hp =>
    rw [h] at hp
    cases hp

/-- The ascent from a node starts with the step to its parent. -/
lemma ascent_of_parent? (h : a.parent? i = some j) : a.ascent i = (j, i) :: a.ascent j := by
  rw [ascent, ascent, ancestors_of_parent? h, List.zip_cons_cons]

/-- A parent is an ancestor. -/
lemma mem_ancestors_of_mem_children (h : i ∈ a.children j) : j ∈ a.ancestors i := by
  rw [ancestors_of_parent? (parent?_eq_some_iff.2 h)]
  exact List.mem_cons_self

/-- An ancestor of an ancestor is an ancestor. -/
lemma mem_ancestors_trans (hij : i ∈ a.ancestors j) (hjk : j ∈ a.ancestors k) : i ∈ a.ancestors k := by
  fun_induction ancestors a k with
  | case1 => cases hjk
  | case2 k p hp ih =>
    apply List.mem_cons_of_mem
    rcases List.mem_cons.1 hjk with rfl | hjk
    · exact hij
    · exact ih hjk

/-- An ancestor contains the node. -/
lemma contains_of_mem_ancestors (h : j ∈ a.ancestors i) : a.contains j i = true := by
  fun_induction ancestors a i with
  | case1 => cases h
  | case2 i p hp ih =>
    have hi : i ∈ a.children p := parent?_eq_some_iff.1 hp
    rcases List.mem_cons.1 h with rfl | h
    · exact contains_child hi
    · exact contains_trans (ih h) (contains_child hi)

/-- The ancestors of a node are the other nodes whose subtrees hold it. -/
lemma mem_ancestors : j ∈ a.ancestors i ↔ a.contains j i = true ∧ j ≠ i := by
  constructor
  · intro h
    exact ⟨contains_of_mem_ancestors h, Nat.ne_of_lt (lt_of_mem_ancestors h)⟩
  · rintro ⟨h, hne⟩
    -- The child of `j` towards `i` is nearer to `i`.
    induction hd : i - j using Nat.strongRecOn generalizing j with
    | _ d ih =>
      obtain ⟨c, hc, hci⟩ := exists_child_of_contains h (Ne.symm hne)
      have hjc := mem_ancestors_of_mem_children hc
      by_cases heq : c = i
      · exact heq ▸ hjc
      · have hlt := (mem_children hc).1
        have hle := (contains_iff.1 hci).1
        exact mem_ancestors_trans hjc (ih (i - c) (by omega) hci heq rfl)

/-- What stands below a node has it among its ancestors. -/
lemma mem_descendants_iff_mem_ancestors : i ∈ a.descendants j ↔ j ∈ a.ancestors i := by
  have := le_last a j
  rw [mem_ancestors, contains_iff, descendants, List.mem_range'_1]
  omega

/-- The ancestors are listed from the inside out. -/
lemma pairwise_ancestors (a : Ast) (i : Nat) : (a.ancestors i).Pairwise (· > ·) := by
  fun_induction ancestors a i with
  | case1 => exact .nil
  | case2 i p hp ih => exact .cons (fun j hj => lt_of_mem_ancestors hj) ih

/-- What a node contains is a node of the tree. -/
lemma lt_size_of_contains (h : a.contains i j = true) (hi : i < a.size) : j < a.size := by
  obtain ⟨x, kids, hs⟩ := exists_sub? hi
  have := add_lt_size hs
  rw [contains_iff, last_of_sub? hs] at h
  omega

/-- What is met in the trees of a forest is met from their roots. -/
lemma met_eq (enters : Nat → Bool) {f : Forest Node} (h : a.StandsAt f n) :
    f.met enters n = (f.rootNumbers n).flatMap (a.reach enters) := by
  induction f generalizing n with
  | nil => rfl
  | cons x kids rest _ ihr =>
    rw [Forest.met, Forest.rootNumbers, List.flatMap_cons, reach_eq enters h.root, List.cons_append, ihr h.right]

/-- A walk meets its start and, if it enters there, what it meets from the children. -/
lemma reach_unfold (enters : Nat → Bool) (hi : i < a.size) :
    a.reach enters i = i :: if enters i then (a.children i).flatMap (a.reach enters) else [] := by
  obtain ⟨x, kids, hs⟩ := exists_sub? hi
  rw [reach_eq enters hs, children_of_sub? hs, met_eq enters (standsAt_kids hs)]

/-- What is reached below a node is listed upwards. -/
lemma pairwise_reach (enters : Nat → Bool) (hi : i < a.size) : (a.reach enters i).Pairwise (· < ·) := by
  obtain ⟨x, kids, hs⟩ := exists_sub? hi
  rw [reach_eq enters hs, List.pairwise_cons]
  split
  · exact ⟨fun j hj => (Forest.mem_met hj).1, Forest.pairwise_met enters kids _⟩
  · exact ⟨nofun, .nil⟩

/-- A walk meets the nodes below its start that have only entered nodes above them. -/
lemma mem_reach {enters : Nat → Bool} (hi : i < a.size) :
    j ∈ a.reach enters i ↔ a.contains i j = true ∧
      ∀ u, a.contains i u = true → a.contains u j = true → u ≠ j → enters u = true := by
  induction hd : a.size - i using Nat.strongRecOn generalizing i with
  | _ d ih =>
    have hchild : ∀ c ∈ a.children i, (j ∈ a.reach enters c ↔ a.contains c j = true ∧
        ∀ u, a.contains c u = true → a.contains u j = true → u ≠ j → enters u = true) := by
      intro c hc
      have hbounds := mem_children hc
      exact ih (a.size - c) (by omega) hbounds.2 rfl
    rw [reach_unfold enters hi, List.mem_cons]
    constructor
    · rintro (rfl | h)
      · refine ⟨contains_self a j, fun u hju huj hne => ?_⟩
        rw [contains_iff] at hju huj
        exact absurd (Nat.le_antisymm huj.1 hju.1) hne
      · split at h
        · next hent =>
          obtain ⟨c, hc, hj⟩ := List.mem_flatMap.1 h
          obtain ⟨hcj, hway⟩ := (hchild c hc).1 hj
          refine ⟨contains_of_mem_children hc hcj, fun u hiu huj hne => ?_⟩
          -- A node on the way is the start, or stands in the subtree of the child.
          rcases contains_child_or_parent hc hcj huj with hcu | hui
          · exact hway u hcu huj hne
          · rw [contains_iff] at hiu hui
            rw [Nat.le_antisymm hui.1 hiu.1]
            exact hent
        · cases h
    · rintro ⟨hij, hway⟩
      by_cases hne : j = i
      · exact .inl hne
      · right
        obtain ⟨c, hc, hcj⟩ := exists_child_of_contains hij hne
        rw [if_pos (hway i (contains_self a i) hij (Ne.symm hne))]
        refine List.mem_flatMap.2 ⟨c, hc, (hchild c hc).2 ⟨hcj, fun u hcu => ?_⟩⟩
        exact hway u (contains_of_mem_children hc hcu)

/-- The function `f` is the innermost one strictly around `n`. -/
structure Innermost (a : Ast) (f n : Nat) : Prop where
  isFunction : a.isFunction f = true
  ne : f ≠ n
  contains : a.contains f n = true
  inside : ∀ g, a.isFunction g = true → g ≠ n → a.contains g n = true → a.contains g f = true

/-- The enclosing function is the innermost one around a node. -/
lemma enclosingFunction?_eq_some_iff {f : Nat} : a.enclosingFunction? n = some f ↔ a.Innermost f n := by
  rw [enclosingFunction?, find?_eq_some_iff_of_pairwise (pairwise_ancestors a n)]
  constructor
  · rintro ⟨hmem, hf, hmax⟩
    obtain ⟨hcontains, hne⟩ := mem_ancestors.1 hmem
    refine ⟨hf, hne, hcontains, fun g hg hgn hgc => ?_⟩
    have hle := hmax g (mem_ancestors.2 ⟨hgc, hgn⟩) hg
    have hfn := (contains_iff.1 hcontains).1
    exact contains_iff.2 ⟨hle, Nat.le_trans hfn (contains_iff.1 hgc).2⟩
  · intro h
    refine ⟨mem_ancestors.2 ⟨h.contains, h.ne⟩, h.isFunction, fun g hg hgf => ?_⟩
    obtain ⟨hgc, hgn⟩ := mem_ancestors.1 hg
    exact (contains_iff.1 (h.inside g hgf hgn hgc)).1

/-- There is no enclosing function iff none is around the node. -/
lemma enclosingFunction?_eq_none_iff :
    a.enclosingFunction? n = none ↔ ∀ f, ¬ a.Innermost f n := by
  rw [Option.eq_none_iff_forall_ne_some]
  simp only [ne_eq, enclosingFunction?_eq_some_iff]

end Syntax.Ast

end Mend
