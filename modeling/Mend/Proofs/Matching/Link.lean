import Mathlib.Data.List.Basic
import Mend.Proofs.Matching.Checked

/-!
# Pairing two nodes

What `link` does to the two views of a matching when both nodes are there and free, and the condition for
that. `Fits` is what every phase keeps: the tables have a place for every node of the two trees, and only
nodes of one kind are paired.
-/

namespace Mend.Matching

variable {m : Matching} {s d : Nat}

/-- A pair is free iff both nodes exist and neither is linked. -/
lemma isFree_iff : m.isFree s d = true ↔ s < m.forward.size ∧ d < m.backward.size ∧
    m.toRepaired? s = none ∧ m.toBuggy? d = none := by
  simp only [isFree, Bool.and_eq_true, beq_iff_eq, toRepaired?, toBuggy?]
  constructor
  · rintro ⟨hs, hd⟩
    exact ⟨(Array.getElem?_eq_some_iff.1 hs).1, (Array.getElem?_eq_some_iff.1 hd).1,
      by rw [hs]; rfl, by rw [hd]; rfl⟩
  · rintro ⟨hs, hd, hs', hd'⟩
    rw [Array.getElem?_eq_getElem hs] at hs' ⊢
    rw [Array.getElem?_eq_getElem hd] at hd' ⊢
    exact ⟨congrArg some hs', congrArg some hd'⟩

/-- A pair that is not free is not linked. -/
lemma link_of_not_isFree (h : ¬ m.isFree s d = true) : m.link s d = m := dif_neg h

/-- A free pair once linked, seen from the original side. -/
lemma toRepaired?_link (h : m.isFree s d = true) (x : Nat) :
    (m.link s d).toRepaired? x = if x = s then some d else m.toRepaired? x := by
  have hs := (isFree_iff.1 h).1
  simp only [link, dif_pos h, toRepaired?, Array.getElem?_setIfInBounds]
  by_cases hx : x = s
  · subst hx
    simp [hs]
  · simp [hx, Ne.symm hx]

/-- A free pair once linked, seen from the repaired side. -/
lemma toBuggy?_link (h : m.isFree s d = true) (x : Nat) :
    (m.link s d).toBuggy? x = if x = d then some s else m.toBuggy? x := by
  have hd := (isFree_iff.1 h).2.1
  simp only [link, dif_pos h, toBuggy?, Array.getElem?_setIfInBounds]
  by_cases hx : x = d
  · subst hx
    simp [hd]
  · simp [hx, Ne.symm hx]

/-- Linking keeps how many nodes the original has. -/
@[simp] lemma forward_size_link : (m.link s d).forward.size = m.forward.size := by
  unfold link
  split <;> simp

/-- Linking keeps how many nodes the repaired tree has. -/
@[simp] lemma backward_size_link : (m.link s d).backward.size = m.backward.size := by
  unfold link
  split <;> simp

/-- Where every buggy node has a partner, nothing can be paired any more. -/
lemma link_of_full (h : ∀ s < m.forward.size, m.toRepaired? s ≠ none) : m.link s d = m :=
  link_of_not_isFree fun hf => h s (isFree_iff.1 hf).1 (isFree_iff.1 hf).2.2.1

/-- With every original node linked, subtrees link nothing more. -/
lemma linkSubtrees_of_full (h : ∀ s < m.forward.size, m.toRepaired? s ≠ none) (size : Nat) :
    m.linkSubtrees s d size = m :=
  List.foldl_fixed' (fun _ => link_of_full h) _

/-- One more pair is linked behind the others. -/
lemma linkSubtrees_succ (size : Nat) :
    m.linkSubtrees s d (size + 1) = (m.linkSubtrees s d size).link (s + size) (d + size) := by
  simp only [linkSubtrees, List.range_succ, List.foldl_append, List.foldl_cons, List.foldl_nil]

/-- Linking subtrees keeps how many nodes the original has. -/
@[simp] lemma forward_size_linkSubtrees (size : Nat) :
    (m.linkSubtrees s d size).forward.size = m.forward.size := by
  induction size with
  | zero => rfl
  | succ size ih => rw [linkSubtrees_succ, forward_size_link, ih]

/-- Linking subtrees keeps how many nodes the repaired tree has. -/
@[simp] lemma backward_size_linkSubtrees (size : Nat) :
    (m.linkSubtrees s d size).backward.size = m.backward.size := by
  induction size with
  | zero => rfl
  | succ size ih => rw [linkSubtrees_succ, backward_size_link, ih]

/-- The pairs of two subtrees with one more node at the end of each. -/
lemma ite_range_succ (s d size x : Nat) (other : Option Nat) :
    (if x = s + size then some (d + size)
      else if s ≤ x ∧ x < s + size then some (d + (x - s)) else other) =
      if s ≤ x ∧ x < s + (size + 1) then some (d + (x - s)) else other := by
  by_cases hx : x = s + size
  · rw [if_pos hx, if_pos (by omega)]
    congr 1
    omega
  · rw [if_neg hx]
    congr 1
    simp only [eq_iff_iff]
    omega

/-- Two free subtrees are paired node by node. -/
lemma linkSubtrees_spec {size : Nat} (h : ∀ k < size, m.isFree (s + k) (d + k) = true) :
    (∀ x, (m.linkSubtrees s d size).toRepaired? x =
      if s ≤ x ∧ x < s + size then some (d + (x - s)) else m.toRepaired? x) ∧
    ∀ y, (m.linkSubtrees s d size).toBuggy? y =
      if d ≤ y ∧ y < d + size then some (s + (y - d)) else m.toBuggy? y := by
  induction size with
  | zero =>
    refine ⟨fun x => ?_, fun y => ?_⟩
    · rw [if_neg (by omega)]
      rfl
    · rw [if_neg (by omega)]
      rfl
  | succ size ih =>
    obtain ⟨hto, hback⟩ := ih fun k hk => h k (Nat.lt_succ_of_lt hk)
    obtain ⟨hs, hd, hs', hd'⟩ := isFree_iff.1 (h size (Nat.lt_succ_self size))
    -- The last two nodes are still free: those paired before stand before them.
    have hf : (m.linkSubtrees s d size).isFree (s + size) (d + size) = true := by
      rw [isFree_iff, forward_size_linkSubtrees, backward_size_linkSubtrees, hto, hback,
        if_neg (by omega), if_neg (by omega)]
      exact ⟨hs, hd, hs', hd'⟩
    rw [linkSubtrees_succ]
    refine ⟨fun x => ?_, fun y => ?_⟩
    · rw [toRepaired?_link hf, hto, ite_range_succ]
    · rw [toBuggy?_link hf, hback, ite_range_succ]

/-- A linked original node exists. -/
lemma lt_forward_size (h : m.toRepaired? s = some d) : s < m.forward.size := by
  rw [toRepaired?, Option.join_eq_some_iff] at h
  exact (Array.getElem?_eq_some_iff.1 h).1

/-- A linked repaired node exists. -/
lemma lt_backward_size (h : m.toRepaired? s = some d) : d < m.backward.size := by
  rw [toRepaired?_eq_some_iff, toBuggy?, Option.join_eq_some_iff] at h
  exact (Array.getElem?_eq_some_iff.1 h).1

/-- An empty mapping links no repaired node. -/
@[simp] lemma toBuggy?_empty (n k x : Nat) : (Matching.empty n k).toBuggy? x = none := by
  simp only [toBuggy?, empty, Array.getElem?_replicate]
  split <;> rfl

/-- An empty mapping links no original node. -/
@[simp] lemma toRepaired?_empty (n k x : Nat) : (Matching.empty n k).toRepaired? x = none := by
  simp only [toRepaired?, empty, Array.getElem?_replicate]
  split <;> rfl

/-- In an empty mapping every pair of nodes is free. -/
lemma isFree_empty {n k : Nat} : (Matching.empty n k).isFree s d = true ↔ s < n ∧ d < k := by
  rw [isFree_iff, toRepaired?_empty, toBuggy?_empty]
  simp [empty]

/-- A matching with a place for every node of two trees that pairs only nodes of one kind. -/
structure Fits (t : Trees) (m : Matching) : Prop where
  forward_size : m.forward.size = t.buggy.size
  backward_size : m.backward.size = t.repaired.size
  kind_eq : ∀ s d, m.toRepaired? s = some d → t.buggy.kind s = t.repaired.kind d

variable {t : Trees}

/-- An empty mapping of the right sizes fits its trees. -/
lemma fits_empty (t : Trees) : Fits t (.empty t.buggy.size t.repaired.size) where
  forward_size := Array.size_replicate
  backward_size := Array.size_replicate
  kind_eq s d h := by simp at h

/-- In a mapping that fits, a pair is free iff both nodes exist and neither is linked. -/
lemma Fits.isFree_iff (h : Fits t m) : m.isFree s d = true ↔
    s < t.buggy.size ∧ d < t.repaired.size ∧ m.toRepaired? s = none ∧ m.toBuggy? d = none := by
  rw [Matching.isFree_iff, h.forward_size, h.backward_size]

/-- In a mapping that fits, linked nodes exist. -/
lemma Fits.lt_size (h : Fits t m) (hp : m.toRepaired? s = some d) :
    s < t.buggy.size ∧ d < t.repaired.size :=
  ⟨h.forward_size ▸ lt_forward_size hp, h.backward_size ▸ lt_backward_size hp⟩

/-- Pairing two nodes of one kind keeps what fits. -/
lemma Fits.link (h : Fits t m) (hk : t.buggy.kind s = t.repaired.kind d) : Fits t (m.link s d) where
  forward_size := by rw [forward_size_link, h.forward_size]
  backward_size := by rw [backward_size_link, h.backward_size]
  kind_eq x y hxy := by
    by_cases hf : m.isFree s d = true
    · rw [toRepaired?_link hf] at hxy
      split at hxy
      · next hx =>
        cases hxy
        rw [hx, hk]
      · exact h.kind_eq x y hxy
    · rw [link_of_not_isFree hf] at hxy
      exact h.kind_eq x y hxy

end Mend.Matching
