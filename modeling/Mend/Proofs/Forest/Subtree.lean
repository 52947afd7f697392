import Mathlib.Tactic.Lemma
import Mend.Forest

/-!
# Subtrees of a numbered forest

`sub?` finds the node that has a number in preorder, as its head with the forest below it. The entries of
`number` are told by it (`map_number`): the children of a node are the roots of the forest below it, and
its last descendant is as far away as that forest is large. What stands below a node is found at the
numbers behind it (`sub?_below`), so that a subtree is a run of numbers.

A parent and its children say the same of each other: `parent_of_mem_children`, `mem_children_of_parent`.
-/

namespace Mend.Forest

universe u v

variable {α : Type u} {β : Type v}

/-- The node with a number in preorder: its head, and the forest below it. -/
def sub? : Forest α → Nat → Option (α × Forest α)
  | nil, _ => none
  | cons h kids _, 0 => some (h, kids)
  | cons _ kids rest, i + 1 => if i < kids.size then kids.sub? i else rest.sub? (i - kids.size)

/-- The trees of a forest, each as its head with the forest below it. -/
def trees : Forest α → List (α × Forest α)
  | nil => []
  | cons h kids rest => (h, kids) :: rest.trees

/-- The first node of a forest is one of its roots. -/
lemma mem_roots_of_sub? {f kids : Forest α} {x : α} (h : f.sub? 0 = some (x, kids)) : x ∈ f.roots := by
  cases f with
  | nil => cases h
  | cons y below rest =>
    cases h
    exact List.mem_cons_self

/-- A subtree among the children of the first root. -/
lemma sub?_kids {h : α} {kids rest : Forest α} {i : Nat} (hi : i < kids.size) :
    (cons h kids rest).sub? (i + 1) = kids.sub? i := if_pos hi

/-- A subtree behind the first root and everything below it. -/
lemma sub?_rest (h : α) (kids rest : Forest α) (i : Nat) :
    (cons h kids rest).sub? (1 + kids.size + i) = rest.sub? i := by
  rw [show 1 + kids.size + i = kids.size + i + 1 by omega, sub?, if_neg (by omega)]
  congr 1
  omega

/-- Every number below the size has its subtree. -/
lemma exists_sub? {f : Forest α} {i : Nat} (h : i < f.size) : ∃ x kids, f.sub? i = some (x, kids) := by
  induction f generalizing i with
  | nil => simp [size] at h
  | cons x kids rest ihk ihr =>
    cases i with
    | zero => exact ⟨x, kids, rfl⟩
    | succ i =>
      simp only [size] at h
      by_cases hi : i < kids.size
      · rw [sub?_kids hi]
        exact ihk hi
      · simp only [sub?, if_neg hi]
        exact ihr (by omega)

/-- A subtree ends within the forest. -/
lemma add_lt_of_sub? {f kids : Forest α} {i : Nat} {x : α} (h : f.sub? i = some (x, kids)) :
    i + kids.size < f.size := by
  induction f generalizing i with
  | nil => simp [sub?] at h
  | cons y below rest ihk ihr =>
    simp only [size]
    cases i with
    | zero =>
      simp only [sub?, Option.some.injEq, Prod.mk.injEq] at h
      obtain ⟨-, rfl⟩ := h
      omega
    | succ i =>
      by_cases hi : i < below.size
      · rw [sub?_kids hi] at h
        have := ihk h
        omega
      · simp only [sub?, if_neg hi] at h
        have := ihr h
        omega

/-- Only numbers below the size have a subtree. -/
lemma lt_of_sub? {f : Forest α} {i : Nat} {p : α × Forest α} (h : f.sub? i = some p) : i < f.size := by
  obtain ⟨x, kids⟩ := p
  have := add_lt_of_sub? h
  omega

/-- A subtree of the children is one of the whole forest. -/
lemma sub?_of_kids {x : α} {kids rest : Forest α} {i : Nat} {p : α × Forest α}
    (h : kids.sub? i = some p) : (cons x kids rest).sub? (i + 1) = some p := by
  rw [sub?_kids (lt_of_sub? h), h]

/-- A subtree of the rest is one of the whole forest. -/
lemma sub?_of_rest {kids rest : Forest α} {i : Nat} {p : α × Forest α} (x : α)
    (h : rest.sub? i = some p) : (cons x kids rest).sub? (1 + kids.size + i) = some p := by
  rw [sub?_rest, h]

/-- What stands below a node has the numbers behind it. -/
lemma sub?_below {f kids : Forest α} {i k : Nat} {x : α} (h : f.sub? i = some (x, kids))
    (hk : k < kids.size) : f.sub? (i + 1 + k) = kids.sub? k := by
  induction f generalizing i with
  | nil => simp [sub?] at h
  | cons y below rest ihk ihr =>
    cases i with
    | zero =>
      simp only [sub?, Option.some.injEq, Prod.mk.injEq] at h
      obtain ⟨-, rfl⟩ := h
      rw [show 0 + 1 + k = k + 1 by omega, sub?_kids hk]
    | succ i =>
      rw [show i + 1 + 1 + k = i + 1 + k + 1 by omega]
      by_cases hi : i < below.size
      · rw [sub?_kids hi] at h
        have := add_lt_of_sub? h
        rw [sub?_kids (by omega), ihk h]
      · simp only [sub?, if_neg hi] at h
        simp only [sub?, if_neg (show ¬ i + 1 + k < below.size by omega)]
        rw [← ihr h]
        congr 1
        omega

/-- Mapping the contents keeps the size. -/
@[simp] lemma size_map (g : α → β) (f : Forest α) : (f.map g).size = f.size := by
  induction f with
  | nil => rfl
  | cons h kids rest ihk ihr => simp only [map, size, ihk, ihr]

/-- Mapping the contents keeps the height. -/
@[simp] lemma height_map (g : α → β) (f : Forest α) : (f.map g).height = f.height := by
  induction f with
  | nil => rfl
  | cons h kids rest ihk ihr => simp only [map, height, ihk, ihr]

/-- Mapping by the identity changes nothing. -/
lemma map_id (f : Forest α) : f.map id = f := by
  induction f with
  | nil => rfl
  | cons h kids rest ihk ihr => rw [map, ihk, ihr, id_eq]

/-- The subtrees of a mapped forest are the mapped subtrees. -/
lemma sub?_map (g : α → β) (f : Forest α) (i : Nat) :
    (f.map g).sub? i = (f.sub? i).map fun p => (g p.1, p.2.map g) := by
  induction f generalizing i with
  | nil => rfl
  | cons h kids rest ihk ihr =>
    cases i with
    | zero => rfl
    | succ i =>
      simp only [map, sub?, size_map]
      split
      · exact ihk i
      · exact ihr _

/-- A forest is told by its trees. -/
lemma trees_injective : Function.Injective (trees : Forest α → List (α × Forest α)) := by
  intro f g h
  induction f generalizing g with
  | nil =>
    cases g with
    | nil => rfl
    | cons _ _ _ => simp [trees] at h
  | cons x kids rest _ ihr =>
    cases g with
    | nil => simp [trees] at h
    | cons y below others =>
      simp only [trees, List.cons.injEq, Prod.mk.injEq] at h
      obtain ⟨⟨rfl, rfl⟩, hr⟩ := h
      rw [ihr hr]

/-- What lies below a root is smaller than the forest. -/
lemma size_lt_of_mem_trees {f : Forest α} {p : α × Forest α} (h : p ∈ f.trees) : p.2.size < f.size := by
  induction f with
  | nil => cases h
  | cons x kids rest _ ihr =>
    rw [size]
    rcases List.mem_cons.1 h with rfl | h
    · dsimp only
      omega
    · have := ihr h
      omega

/-- Mapping the contents keeps the numbers of the roots. -/
@[simp] lemma rootNumbers_map (g : α → β) (f : Forest α) (n : Nat) :
    (f.map g).rootNumbers n = f.rootNumbers n := by
  induction f generalizing n with
  | nil => rfl
  | cons h kids rest _ ihr => simp only [map, rootNumbers, size_map, ihr]

/-- Numbering from later on shifts the numbers of the roots. -/
lemma rootNumbers_add (f : Forest α) (n k : Nat) :
    f.rootNumbers (n + k) = (f.rootNumbers n).map (· + k) := by
  induction f generalizing n with
  | nil => rfl
  | cons _ kids rest _ ihr =>
    rw [rootNumbers, rootNumbers, List.map_cons, ← ihr]
    congr 2
    omega

/-- Mapping the contents keeps the postorder. -/
@[simp] lemma postorder_map (g : α → β) (f : Forest α) (n : Nat) :
    (f.map g).postorder n = f.postorder n := by
  induction f generalizing n with
  | nil => rfl
  | cons h kids rest ihk ihr => simp only [map, postorder, size_map, ihk, ihr]

/-- The trees of a forest are found at the numbers of its roots. -/
lemma map_rootNumbers {γ : Type v} {f : Forest α} {n : Nat} {g : Nat → γ} {h : α × Forest α → γ}
    (hg : ∀ k p, f.sub? k = some p → g (n + k) = h p) : (f.rootNumbers n).map g = f.trees.map h := by
  induction f generalizing n with
  | nil => rfl
  | cons x kids rest _ ihr =>
    simp only [rootNumbers, trees, List.map_cons]
    congr 1
    · exact hg 0 _ rfl
    · apply ihr
      intro k p hp
      rw [← hg _ p (sub?_of_rest x hp)]
      congr 1
      omega

/-- The roots are numbered upwards. -/
lemma pairwise_rootNumbers (f : Forest α) (n : Nat) : (f.rootNumbers n).Pairwise (· < ·) := by
  induction f generalizing n with
  | nil => exact .nil
  | cons _ kids rest _ ihr =>
    refine .cons (fun c hc => ?_) (ihr _)
    have := mem_rootNumbers hc
    omega

/-- The rows behind the first root are those of its children. -/
lemma getElem?_number_kids {x : α} {kids rest : Forest α} {parent : Option Nat} {n i : Nat}
    (hi : i < kids.size) :
    ((cons x kids rest).number parent n)[i + 1]? = (kids.number (some n) (n + 1))[i]? := by
  simp only [number, List.getElem?_cons_succ]
  exact List.getElem?_append_left (by simpa using hi)

/-- The rows behind the first tree are those of the rest. -/
lemma getElem?_number_rest (x : α) (kids rest : Forest α) (parent : Option Nat) (n i : Nat) :
    ((cons x kids rest).number parent n)[kids.size + i + 1]? =
      (rest.number parent (n + 1 + kids.size))[i]? := by
  simp only [number, List.getElem?_cons_succ]
  rw [List.getElem?_append_right (by simp), length_number, Nat.add_sub_cancel_left]

/-- The postorder holds exactly the numbers of the forest. -/
lemma mem_postorder {f : Forest α} {n i : Nat} : i ∈ f.postorder n ↔ n ≤ i ∧ i < n + f.size := by
  induction f generalizing n with
  | nil => simp [postorder, size]
  | cons h kids rest ihk ihr =>
    simp only [postorder, List.mem_append, List.mem_cons, ihk, ihr, size]
    omega

/-- The postorder holds no number twice. -/
lemma nodup_postorder (f : Forest α) (n : Nat) : (f.postorder n).Nodup := by
  induction f generalizing n with
  | nil => exact List.nodup_nil
  | cons h kids rest ihk ihr =>
    refine List.nodup_append.2 ⟨ihk _, List.nodup_cons.2 ⟨fun hm => ?_, ihr _⟩, fun i hi j hj => ?_⟩
    · have := mem_postorder.1 hm
      omega
    · have := mem_postorder.1 hi
      rcases List.mem_cons.1 hj with rfl | hj
      · omega
      · have := mem_postorder.1 hj
        omega

/-- What stands below a node comes before it. -/
lemma idxOf_postorder_lt {f kids : Forest α} {n k j : Nat} {x : α} (h : f.sub? k = some (x, kids))
    (hlt : n + k < j) (hle : j ≤ n + k + kids.size) :
    (f.postorder n).idxOf j < (f.postorder n).idxOf (n + k) := by
  induction f generalizing n k with
  | nil => simp [sub?] at h
  | cons y below rest ihk ihr =>
    simp only [postorder, List.idxOf_append, mem_postorder, List.idxOf_cons]
    cases k with
    | zero =>
      simp only [sub?, Option.some.injEq, Prod.mk.injEq] at h
      obtain ⟨rfl, rfl⟩ := h
      rw [if_pos (by omega), if_neg (by omega)]
      have := List.idxOf_lt_length_iff.2 (mem_postorder (f := below) (n := n + 1) (i := j).2 (by omega))
      omega
    | succ k =>
      by_cases hk : k < below.size
      · rw [sub?_kids hk] at h
        have := add_lt_of_sub? h
        rw [if_pos (by omega), if_pos (by omega), show n + (k + 1) = n + 1 + k by omega]
        exact ihk h (by omega) (by omega)
      · obtain ⟨i, rfl⟩ := Nat.exists_eq_add_of_le (Nat.le_of_not_lt hk)
        rw [show below.size + i + 1 = 1 + below.size + i by omega] at h hlt hle ⊢
        rw [sub?_rest] at h
        have := ihr (n := n + 1 + below.size) h (by omega) (by omega)
        rw [if_neg (by omega), if_neg (by omega), beq_false_of_ne (by omega), beq_false_of_ne (by omega),
          show n + (1 + below.size + i) = n + 1 + below.size + i by omega]
        simp only [cond_false]
        omega

/-- What lies below a node is lower than the forest. -/
lemma height_lt_of_sub? {f kids : Forest α} {i : Nat} {x : α} (h : f.sub? i = some (x, kids)) :
    kids.height < f.height := by
  induction f generalizing i with
  | nil => simp [sub?] at h
  | cons y below rest ihk ihr =>
    simp only [height]
    cases i with
    | zero =>
      simp only [sub?, Option.some.injEq, Prod.mk.injEq] at h
      obtain ⟨-, rfl⟩ := h
      omega
    | succ i =>
      by_cases hi : i < below.size
      · rw [sub?_kids hi] at h
        have := ihk h
        omega
      · simp only [sub?, if_neg hi] at h
        have := ihr h
        omega

/-- An entry without its parent is what `sub?` finds. -/
lemma map_number (f : Forest α) (parent : Option Nat) (n i : Nat) :
    ((f.number parent n)[i]?).map (fun e => (e.head, e.children, e.last)) =
      (f.sub? i).map fun p => (p.1, p.2.rootNumbers (n + i + 1), n + i + p.2.size) := by
  induction f generalizing parent n i with
  | nil => rfl
  | cons x kids rest ihk ihr =>
    cases i with
    | zero => rfl
    | succ i =>
      by_cases hi : i < kids.size
      · rw [getElem?_number_kids hi, sub?_kids hi, ihk]
        simp only [show n + 1 + i = n + (i + 1) by omega]
      · obtain ⟨j, rfl⟩ := Nat.exists_eq_add_of_le (Nat.le_of_not_lt hi)
        rw [getElem?_number_rest, show kids.size + j + 1 = 1 + kids.size + j by omega, sub?_rest, ihr]
        simp only [show n + 1 + kids.size + j = n + (1 + kids.size + j) by omega]

/-- The roots have the parent that was given to them. -/
lemma parent_of_mem_rootNumbers {f : Forest α} {parent : Option Nat} {n c : Nat}
    (h : c ∈ f.rootNumbers n) : ∃ e, (f.number parent n)[c - n]? = some e ∧ e.parent = parent := by
  induction f generalizing n with
  | nil => simp [rootNumbers] at h
  | cons x kids rest _ ihr =>
    rcases List.mem_cons.1 h with rfl | h
    · rw [Nat.sub_self]
      exact ⟨_, rfl, rfl⟩
    · obtain ⟨e, he, hp⟩ := ihr h
      have := mem_rootNumbers h
      refine ⟨e, ?_, hp⟩
      rw [show c - n = kids.size + (c - (n + 1 + kids.size)) + 1 by omega, getElem?_number_rest]
      exact he

/-- The parent of a child is the node that lists it. -/
lemma parent_of_mem_children {f : Forest α} {parent : Option Nat} {n i c : Nat} {e : Entry α}
    (he : (f.number parent n)[i]? = some e) (hc : c ∈ e.children) :
    ∃ e', (f.number parent n)[c - n]? = some e' ∧ e'.parent = some (n + i) := by
  induction f generalizing parent n i with
  | nil => simp [number] at he
  | cons x kids rest ihk ihr =>
    cases i with
    | zero =>
      simp only [number, List.getElem?_cons_zero, Option.some.injEq] at he
      subst he
      obtain ⟨e', he', hp⟩ := parent_of_mem_rootNumbers hc
      have := mem_rootNumbers hc
      refine ⟨e', ?_, hp⟩
      rw [show c - n = c - (n + 1) + 1 by omega, getElem?_number_kids (by omega)]
      exact he'
    | succ i =>
      by_cases hi : i < kids.size
      · rw [getElem?_number_kids hi] at he
        obtain ⟨e', he', hp⟩ := ihk he
        have := lt_of_mem_children he hc
        refine ⟨e', ?_, by rw [hp]; congr 1; omega⟩
        rw [show c - n = c - (n + 1) + 1 by omega, getElem?_number_kids (by omega)]
        exact he'
      · obtain ⟨j, rfl⟩ := Nat.exists_eq_add_of_le (Nat.le_of_not_lt hi)
        rw [getElem?_number_rest] at he
        obtain ⟨e', he', hp⟩ := ihr he
        have := lt_of_mem_children he hc
        refine ⟨e', ?_, by rw [hp]; congr 1; omega⟩
        rw [show c - n = kids.size + (c - (n + 1 + kids.size)) + 1 by omega, getElem?_number_rest]
        exact he'

/-- A node is a root, or it is listed by its parent. -/
lemma mem_children_of_parent {f : Forest α} {parent : Option Nat} {n j : Nat} {e : Entry α}
    (he : (f.number parent n)[j]? = some e) :
    (e.parent = parent ∧ n + j ∈ f.rootNumbers n) ∨
      ∃ i e', (f.number parent n)[i]? = some e' ∧ e.parent = some (n + i) ∧ n + j ∈ e'.children := by
  induction f generalizing parent n j with
  | nil => simp [number] at he
  | cons x kids rest ihk ihr =>
    cases j with
    | zero =>
      simp only [number, List.getElem?_cons_zero, Option.some.injEq] at he
      subst he
      exact .inl ⟨rfl, by simp [rootNumbers]⟩
    | succ j =>
      by_cases hj : j < kids.size
      · rw [getElem?_number_kids hj] at he
        rw [show n + (j + 1) = n + 1 + j by omega]
        right
        rcases ihk he with ⟨hp, hr⟩ | ⟨i, e', he', hp, hc⟩
        · exact ⟨0, _, rfl, hp, hr⟩
        · have hi : i < kids.size := by
            have := List.getElem?_eq_some_iff.1 he'
            simpa using this.1
          refine ⟨i + 1, e', ?_, by rw [hp]; congr 1; omega, hc⟩
          rw [getElem?_number_kids hi]
          exact he'
      · obtain ⟨k, rfl⟩ := Nat.exists_eq_add_of_le (Nat.le_of_not_lt hj)
        rw [getElem?_number_rest] at he
        rw [show n + (kids.size + k + 1) = n + 1 + kids.size + k by omega]
        rcases ihr he with ⟨hp, hr⟩ | ⟨i, e', he', hp, hc⟩
        · exact .inl ⟨hp, List.mem_cons_of_mem _ hr⟩
        · right
          refine ⟨kids.size + i + 1, e', ?_, by rw [hp]; congr 1; omega, hc⟩
          rw [getElem?_number_rest]
          exact he'

end Mend.Forest
