import Mend.Matching.Labels
import Mend.Proofs.Matching.Increasing
import Mend.Proofs.Matching.Link
import Mend.Proofs.Syntax.Arena

/-!
# Siblings that kept their order

The children of a paired node that stay below its partner, with their new places among the siblings, are
listed by `keptChildren`, and `outOfOrder` names those outside a longest increasing run of the places.
Here the lists are turned into statements about partners: partners of children that kept their order come
in the same order (`partner_lt_of_not_mem_outOfOrder`), and a child is not out of order where the places of
its siblings increase (`not_mem_outOfOrder`).
-/

namespace Mend.Matching

open Syntax (Ast)

variable {a b : Ast} {m : Matching} {s d sp dp c : Nat}

lemma mem_pairs : (s, d) ∈ m.pairs ↔ m.toRepaired? s = some d := by
  simp only [pairs, List.mem_filterMap, List.mem_range, Option.map_eq_some_iff, Prod.mk.injEq]
  constructor
  · rintro ⟨s', -, d', h, rfl, rfl⟩
    exact h
  · intro h
    exact ⟨s, lt_forward_size h, d, h, rfl, rfl⟩

lemma siblingIndex?_eq_some {e place : Nat} (hp : b.parent? e = some dp)
    (h : b.siblingIndex? e = some place) : (b.children dp)[place]? = some e := by
  simp only [Ast.siblingIndex?, hp, Option.bind_some, List.idxOf?, List.findIdx?_eq_some_iff_getElem]
    at h
  obtain ⟨hlt, heq, -⟩ := h
  rw [List.getElem?_eq_getElem hlt, eq_of_beq heq]

lemma exists_siblingIndex? {e : Nat} (hp : b.parent? e = some dp) :
    ∃ place, b.siblingIndex? e = some place := by
  have hmem := Ast.parent?_eq_some_iff.1 hp
  simp only [Ast.siblingIndex?, hp, Option.bind_some]
  cases h : (b.children dp).idxOf? e with
  | none => exact absurd hmem (List.idxOf?_eq_none_iff.1 h)
  | some place => exact ⟨place, rfl⟩

/-- Children of one node come in the order of their places. -/
lemma lt_iff_siblingIndex?_lt {e e' place place' : Nat} (hp : b.parent? e = some dp)
    (hp' : b.parent? e' = some dp) (h : b.siblingIndex? e = some place)
    (h' : b.siblingIndex? e' = some place') : e < e' ↔ place < place' := by
  obtain ⟨hlt, hget⟩ := List.getElem?_eq_some_iff.1 (siblingIndex?_eq_some hp h)
  obtain ⟨hlt', hget'⟩ := List.getElem?_eq_some_iff.1 (siblingIndex?_eq_some hp' h')
  have hsorted := List.pairwise_iff_getElem.1 (b.pairwise_children dp)
  constructor
  · intro hee
    by_contra hnot
    rcases Nat.lt_or_eq_of_le (Nat.le_of_not_lt hnot) with hback | rfl
    · have := hsorted place' place hlt' hlt hback
      omega
    · omega
  · intro hplaces
    rw [← hget, ← hget']
    exact hsorted place place' hlt hlt' hplaces

/-- A child of `sp` is kept with a place if its partner stands there below `dp`. -/
lemma mem_keptChildren {place : Nat} : (c, place) ∈ keptChildren a b m sp dp ↔
    c ∈ a.children sp ∧ ∃ e, m.toRepaired? c = some e ∧ b.parent? e = some dp ∧
      b.siblingIndex? e = some place := by
  simp only [keptChildren, List.mem_filterMap, Option.bind_eq_bind, Option.bind_eq_some_iff]
  constructor
  · rintro ⟨c', hc, e, he, heq⟩
    split at heq
    · next hp =>
      obtain ⟨place', hplace, hpair⟩ := Option.map_eq_some_iff.1 heq
      cases hpair
      exact ⟨hc, e, he, beq_iff_eq.1 hp, hplace⟩
    · cases heq
  · rintro ⟨hc, e, he, hp, hplace⟩
    exact ⟨c, hc, e, he, by simp [hp, hplace]⟩

lemma pairwise_keptChildren (a b : Ast) (m : Matching) (sp dp : Nat) :
    (keptChildren a b m sp dp).Pairwise fun x y => x.1 < y.1 := by
  refine List.Pairwise.filterMap _ (fun c c' hcc' x hx y hy => ?_) (a.pairwise_children sp)
  have hfst : ∀ c (x : Nat × Nat), (do
      let partner ← m.toRepaired? c
      if b.parent? partner == some dp then (b.siblingIndex? partner).map fun place => (c, place)
      else none) = some x → x.1 = c := by
    intro c x h
    obtain ⟨e, -, h⟩ := Option.bind_eq_some_iff.1 h
    split at h
    · obtain ⟨place, -, rfl⟩ := Option.map_eq_some_iff.1 h
      rfl
    · cases h
  rw [hfst c x hx, hfst c' y hy]
  exact hcc'

lemma mem_outOfOrder : c ∈ outOfOrder a b m ↔ ∃ sp dp, m.toRepaired? sp = some dp ∧
    ∃ i place, (keptChildren a b m sp dp)[i]? = some (c, place) ∧
      i ∉ longestIncreasing ((keptChildren a b m sp dp).map (·.2)) := by
  simp only [outOfOrder, List.mem_flatMap, List.mem_filterMap, Prod.exists, mem_pairs]
  constructor
  · rintro ⟨sp, dp, hp, c', place, i, hi, heq⟩
    split at heq
    · cases heq
    · next hnot =>
      cases heq
      exact ⟨sp, dp, hp, i, place, List.mem_zipIdx_iff_getElem?.1 hi, by simpa using hnot⟩
  · rintro ⟨sp, dp, hp, i, place, hi, hnot⟩
    exact ⟨sp, dp, hp, c, place, i, List.mem_zipIdx_iff_getElem?.2 hi, by simp [hnot]⟩

/-- Of two children that stay below the same parent in order, the partners come in that order. -/
lemma partner_lt_of_not_mem_outOfOrder {c' e e' : Nat} (hpair : m.toRepaired? sp = some dp)
    (hc : c ∈ a.children sp) (he : m.toRepaired? c = some e) (hp : b.parent? e = some dp)
    (hc' : c' ∈ a.children sp) (he' : m.toRepaired? c' = some e') (hp' : b.parent? e' = some dp)
    (hout : c ∉ outOfOrder a b m) (hout' : c' ∉ outOfOrder a b m) (hlt : c < c') : e < e' := by
  obtain ⟨place, hplace⟩ := exists_siblingIndex? hp
  obtain ⟨place', hplace'⟩ := exists_siblingIndex? hp'
  obtain ⟨i, hi⟩ := List.mem_iff_getElem?.1 (mem_keptChildren.2 ⟨hc, e, he, hp, hplace⟩)
  obtain ⟨j, hj⟩ := List.mem_iff_getElem?.1 (mem_keptChildren.2 ⟨hc', e', he', hp', hplace'⟩)
  have hiin : i ∈ longestIncreasing ((keptChildren a b m sp dp).map (·.2)) := by
    by_contra hnot
    exact hout (mem_outOfOrder.2 ⟨sp, dp, hpair, i, place, hi, hnot⟩)
  have hjin : j ∈ longestIncreasing ((keptChildren a b m sp dp).map (·.2)) := by
    by_contra hnot
    exact hout' (mem_outOfOrder.2 ⟨sp, dp, hpair, j, place', hj, hnot⟩)
  have hij : i < j := by
    -- The list has the children in order, so `c` cannot stand behind `c'`.
    obtain ⟨hilt, hi⟩ := List.getElem?_eq_some_iff.1 hi
    obtain ⟨hjlt, hj⟩ := List.getElem?_eq_some_iff.1 hj
    have hsorted := List.pairwise_iff_getElem.1 (pairwise_keptChildren a b m sp dp)
    by_contra hnot
    rcases Nat.lt_or_eq_of_le (Nat.le_of_not_lt hnot) with hji | rfl
    · have := hsorted j i hjlt hilt hji
      rw [hi, hj] at this
      omega
    · rw [hi] at hj
      cases hj
      omega
  have hplaces : place < place' :=
    longestIncreasing_increasing hiin hjin (by simp [hi]) (by simp [hj]) hij
  exact (lt_iff_siblingIndex?_lt hp hp' hplace hplace').2 hplaces

/-- Where the partners of its siblings come in order, a child is not out of order. -/
lemma not_mem_outOfOrder
    (h : ∀ sp dp, m.toRepaired? sp = some dp → s ∈ a.children sp →
      ∀ c ∈ a.children sp, ∀ c' ∈ a.children sp, c < c' → ∀ e e', m.toRepaired? c = some e →
        m.toRepaired? c' = some e' → e < e') :
    s ∉ outOfOrder a b m := by
  intro hs
  obtain ⟨sp, dp, hp, i, place, hi, hnot⟩ := mem_outOfOrder.1 hs
  have hchild := (mem_keptChildren.1 (List.mem_of_getElem? hi)).1
  refine hnot (mem_longestIncreasing_of_pairwise ?_ (by
    simpa using (List.getElem?_eq_some_iff.1 hi).1))
  refine List.pairwise_map.2 ((pairwise_keptChildren a b m sp dp).imp_of_mem ?_)
  rintro ⟨c, place⟩ ⟨c', place'⟩ hx hy hlt
  obtain ⟨hc, e, he, hparent, hplace⟩ := mem_keptChildren.1 hx
  obtain ⟨hc', e', he', hparent', hplace'⟩ := mem_keptChildren.1 hy
  have hee := h sp dp hp hchild c hc c' hc' hlt e e' he he'
  exact (lt_iff_siblingIndex?_lt hparent hparent' hplace hplace').1 hee

end Mend.Matching
