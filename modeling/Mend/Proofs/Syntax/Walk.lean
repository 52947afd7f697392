import Mend.Proofs.Syntax.Arena

/-!
# Walks follow the tree

A walk through the table of a program is the walk through its tree: the node, then the forest below it if
the visitor enters, tree after tree (`walk_eq`). For a visitor that only collects, this gives the nodes
met as a list (`reach_eq`).

Upwards, the way from any other node leads to the root of the program (`zero_mem_ancestors`).
-/

namespace Mend

namespace Forest

universe u

variable {α : Type u} {σ : Type}

/-- Walks through the trees of a forest numbered from `n`. -/
def walk (visit : Nat → σ → Bool × σ) : Forest α → Nat → σ → σ
  | nil, _, s => s
  | cons _ kids rest, n, s =>
    rest.walk visit (n + 1 + kids.size)
      (if (visit n s).1 then kids.walk visit (n + 1) (visit n s).2 else (visit n s).2)

/-- The nodes met in a forest numbered from `n` when only nodes that satisfy `enters` are entered. -/
def met (enters : Nat → Bool) : Forest α → Nat → List Nat
  | nil, _ => []
  | cons _ kids rest, n =>
    n :: ((if enters n then kids.met enters (n + 1) else []) ++ rest.met enters (n + 1 + kids.size))

/-- A walk that collects what it meets. -/
lemma toList_walk_push (enters : Nat → Bool) (f : Forest α) (n : Nat) (seen : Array Nat) :
    (f.walk (fun j seen => (enters j, seen.push j)) n seen).toList =
      seen.toList ++ f.met enters n := by
  induction f generalizing n seen with
  | nil => simp [walk, met]
  | cons x kids rest ihk ihr =>
    simp only [walk, met, ihr]
    split
    · rw [ihk]
      simp
    · simp

/-- What is met belongs to the forest. -/
lemma mem_met {enters : Nat → Bool} {f : Forest α} {n j : Nat} (h : j ∈ f.met enters n) :
    n ≤ j ∧ j < n + f.size := by
  induction f generalizing n with
  | nil => simp [met] at h
  | cons x kids rest ihk ihr =>
    simp only [met, List.mem_cons, List.mem_append] at h
    simp only [size]
    rcases h with rfl | h | h
    · omega
    · split at h
      · have := ihk h
        omega
      · simp at h
    · have := ihr h
      omega

/-- What is met depends on the nodes of the forest only. -/
lemma met_congr {e e' : Nat → Bool} {f : Forest α} {n : Nat}
    (h : ∀ j, n ≤ j → j < n + f.size → e j = e' j) : f.met e n = f.met e' n := by
  induction f generalizing n with
  | nil => rfl
  | cons x kids rest ihk ihr =>
    simp only [size] at h
    simp only [met]
    rw [h n (by omega) (by omega), ihk fun j hj hj' => h j (by omega) (by omega),
      ihr fun j hj hj' => h j (by omega) (by omega)]

end Forest

namespace Syntax.Ast

variable {a : Ast} {σ : Type} {i : Nat} {x : Node} {kids : Forest Node}

/-- A walk visits a node and, if it enters, the children in order. -/
lemma walk_unfold (visit : Nat → σ → Bool × σ) (i : Nat) (s : σ) :
    a.walk visit i s =
      if (visit i s).1 then (a.children i).foldl (fun s c => a.walk visit c s) (visit i s).2
      else (visit i s).2 := by
  rw [walk]
  dsimp only
  rw [List.foldl_attach (f := fun s c => a.walk visit c s)]

/-- The trees of a forest stand in the program side by side, with numbers from `n`. -/
def StandsAt (a : Ast) (f : Forest Node) (n : Nat) : Prop :=
  ∀ k p, f.sub? k = some p → a.tree.sub? (n + k) = some p

namespace StandsAt

variable {rest : Forest Node} {n : Nat}

/-- The tree stands at its first root. -/
lemma root (h : a.StandsAt (.cons x kids rest) n) : a.tree.sub? n = some (x, kids) := h 0 (x, kids) rfl

/-- The tree stands below its first root. -/
lemma below (h : a.StandsAt (.cons x kids rest) n) : a.StandsAt kids (n + 1) := fun k p hk => by
  rw [show n + 1 + k = n + (k + 1) by omega]
  exact h (k + 1) p (Forest.sub?_of_kids hk)

/-- The tree stands behind its first root. -/
lemma right (h : a.StandsAt (.cons x kids rest) n) : a.StandsAt rest (n + 1 + kids.size) := fun k p hk => by
  rw [show n + 1 + kids.size + k = n + (1 + kids.size + k) by omega]
  exact h _ p (Forest.sub?_of_rest x hk)

end StandsAt

/-- The whole tree stands at its start. -/
lemma standsAt_tree (a : Ast) : a.StandsAt a.tree 0 := fun k p hk => by rwa [Nat.zero_add]

/-- What stands below a node stands behind it. -/
lemma standsAt_kids (h : a.tree.sub? i = some (x, kids)) : a.StandsAt kids (i + 1) := fun k p hk => by
  rw [Forest.sub?_below h (Forest.lt_of_sub? hk), hk]

/-- Walking from root to root goes through the forest. -/
lemma foldl_walk (visit : Nat → σ → Bool × σ) {f : Forest Node} {n : Nat} (s : σ) (h : a.StandsAt f n) :
    (f.rootNumbers n).foldl (fun s c => a.walk visit c s) s = f.walk visit n s := by
  induction f generalizing n s with
  | nil => rfl
  | cons x kids rest ihk ihr =>
    have hbelow : ∀ s, (a.children n).foldl (fun s c => a.walk visit c s) s =
        kids.walk visit (n + 1) s := by
      intro s
      rw [children_of_sub? h.root]
      exact ihk s h.below
    simp only [Forest.rootNumbers, List.foldl_cons, Forest.walk]
    rw [walk_unfold, hbelow]
    exact ihr _ h.right

/-- A walk shows the node and then, if the visitor enters, the forest below it. -/
lemma walk_eq (visit : Nat → σ → Bool × σ) (h : a.tree.sub? i = some (x, kids)) (s : σ) :
    a.walk visit i s =
      if (visit i s).1 then kids.walk visit (i + 1) (visit i s).2 else (visit i s).2 := by
  rw [walk_unfold, children_of_sub? h, foldl_walk visit _ (standsAt_kids h)]

/-- The nodes met from a node are the node itself and, if it is entered, those met below it. -/
lemma reach_eq (enters : Nat → Bool) (h : a.tree.sub? i = some (x, kids)) :
    a.reach enters i = i :: if enters i then kids.met enters (i + 1) else [] := by
  unfold reach
  rw [walk_eq _ h]
  split
  · rw [Forest.toList_walk_push]
    rfl
  · rfl

/-- All ways up lead to the root. -/
lemma IsArena.zero_mem_ancestors (ha : a.IsArena) {c : Nat} (hc : c < a.size) (h0 : c ≠ 0) :
    0 ∈ a.ancestors c := by
  induction c using Nat.strongRecOn with
  | _ c ih =>
    obtain ⟨p, hp⟩ := ha.exists_parent? hc h0
    unfold ancestors
    split
    · next hnone => simp [hp] at hnone
    · next q hq =>
      rw [hp, Option.some.injEq] at hq
      subst hq
      have hlt := parent_lt hp
      by_cases hp0 : p = 0
      · rw [hp0]
        exact List.mem_cons_self
      · exact List.mem_cons_of_mem _ (ih p hlt (by omega) hp0)

end Syntax.Ast

end Mend
