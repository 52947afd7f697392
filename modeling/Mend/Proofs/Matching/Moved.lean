import Mathlib.Data.Finset.Card
import Mend.Proofs.Matching.Labels
import Mend.Proofs.Matching.Siblings

/-!
# As few children as possible move

Of the children that stay below the partner of their parent, those outside a longest increasing run of
their new places are out of order. What is left is in order, and no larger set of these children is
(`fewest_outOfOrder`): a set of children that come in the same order on both sides shows as an increasing
subsequence of their new places (`card_le_longestIncreasing`), and none of these is longer than the run
(`length_le_of_sublist`).
-/

namespace Mend.Matching

open Syntax (Ast)

/-! ## Values -/

variable {values : List Nat}

/-- The values of a sequence that are marked as members of the longest run. -/
def inRun (values : List Nat) : List Nat :=
  (values.zipIdx.filter fun p => (longestIncreasing values).contains p.2).map (·.1)

/-- The values in the run stand in the list in their order. -/
lemma inRun_sublist (values : List Nat) : (inRun values).Sublist values := by
  have hsub : (inRun values).Sublist (values.zipIdx.map (·.1)) := List.filter_sublist.map _
  rwa [List.zipIdx_map_fst] at hsub

/-- The values in the run increase. -/
lemma pairwise_inRun (values : List Nat) : (inRun values).Pairwise (· < ·) := by
  rw [inRun, List.pairwise_map]
  have hplaces : values.zipIdx.Pairwise fun p q => p.2 < q.2 := by
    rw [List.pairwise_iff_getElem]
    intro i j hi hj hij
    simpa only [List.getElem_zipIdx, Nat.zero_add] using hij
  refine (hplaces.filter _).imp_of_mem fun hp hq hlt => ?_
  obtain ⟨hp, hpin⟩ := List.mem_filter.1 hp
  obtain ⟨hq, hqin⟩ := List.mem_filter.1 hq
  exact longestIncreasing_increasing (List.contains_iff_mem.1 hpin) (List.contains_iff_mem.1 hqin)
    (List.mem_zipIdx_iff_getElem?.1 hp) (List.mem_zipIdx_iff_getElem?.1 hq) hlt

/-- The run has as many values as places marked. -/
lemma length_inRun (values : List Nat) : (inRun values).length = (longestIncreasing values).length := by
  have hplaces : (inRun values).length =
      ((List.range values.length).filter (longestIncreasing values).contains).length := by
    rw [inRun, List.length_map, List.range_eq_range', ← List.zipIdx_map_snd, List.filter_map,
      List.length_map]
    rfl
  have hperm : ((List.range values.length).filter (longestIncreasing values).contains).Perm
      (longestIncreasing values) := by
    rw [List.perm_ext_iff_of_nodup (List.nodup_range.filter _) (nodup_longestIncreasing values)]
    intro i
    rw [List.mem_filter, List.mem_range, List.contains_iff_mem]
    exact ⟨And.right, fun hi => ⟨lt_length_of_mem_longestIncreasing hi, hi⟩⟩
  rw [hplaces, hperm.length_eq]

/-! ## Children -/

variable {a b : Ast} {m : Matching} {sp dp c : Nat} {S : Finset Nat}

/-- The children of `sp` whose partners are children of `dp`. -/
def staying (a b : Ast) (m : Matching) (sp dp : Nat) : Finset Nat :=
  (a.children sp).toFinset.filter fun c => (m.toRepaired? c).bind b.parent? = some dp

/-- Those of them that are not out of order. -/
def inPlace (a b : Ast) (m : Matching) (sp dp : Nat) : Finset Nat :=
  (staying a b m sp dp).filter (· ∉ outOfOrder a b m)

/-- The nodes of a set and their partners come in the same order. -/
def SameOrder (m : Matching) (S : Finset Nat) : Prop :=
  ∀ c ∈ S, ∀ c' ∈ S, ∀ e e', m.toRepaired? c = some e → m.toRepaired? c' = some e' → (c < c' ↔ e < e')

/-- The children that stay are those linked below the partner. -/
lemma mem_staying : c ∈ staying a b m sp dp ↔
    c ∈ a.children sp ∧ ∃ e, m.toRepaired? c = some e ∧ b.parent? e = some dp := by
  simp only [staying, Finset.mem_filter, List.mem_toFinset, Option.bind_eq_some_iff]

/-- The children that stay are the kept ones. -/
lemma mem_staying_iff_keptChildren :
    c ∈ staying a b m sp dp ↔ ∃ place, (c, place) ∈ keptChildren a b m sp dp := by
  rw [mem_staying]
  constructor
  · rintro ⟨hc, e, he, hp⟩
    obtain ⟨place, hplace⟩ := exists_siblingIndex? hp
    exact ⟨place, mem_keptChildren.2 ⟨hc, e, he, hp, hplace⟩⟩
  · rintro ⟨place, hmem⟩
    obtain ⟨hc, e, he, hp, -⟩ := mem_keptChildren.1 hmem
    exact ⟨hc, e, he, hp⟩

/-- No child is kept twice. -/
lemma nodup_keptChildren : ((keptChildren a b m sp dp).map (·.1)).Nodup := by
  rw [List.Nodup, List.pairwise_map]
  exact (pairwise_keptChildren a b m sp dp).imp Nat.ne_of_lt

/-- The children of a set, with their places, are as many as the set has. -/
lemma card_eq_length_keptChildren (hS : S ⊆ staying a b m sp dp) :
    S.card = ((keptChildren a b m sp dp).filter fun p => decide (p.1 ∈ S)).length := by
  have hnodup : (((keptChildren a b m sp dp).filter fun p => decide (p.1 ∈ S)).map (·.1)).Nodup :=
    nodup_keptChildren.sublist (List.filter_sublist.map _)
  rw [← List.length_map (·.1), ← List.toFinset_card_of_nodup hnodup]
  congr 1
  ext c
  simp only [List.mem_toFinset, List.mem_map, List.mem_filter, decide_eq_true_eq]
  constructor
  · intro hc
    obtain ⟨place, hplace⟩ := mem_staying_iff_keptChildren.1 (hS hc)
    exact ⟨(c, place), ⟨hplace, hc⟩, rfl⟩
  · rintro ⟨p, ⟨-, hp⟩, rfl⟩
    exact hp

/-- Children that come in the same order on both sides are at most as many as the longest run of their
places has members. -/
lemma card_le_longestIncreasing (hS : S ⊆ staying a b m sp dp) (horder : SameOrder m S) :
    S.card ≤ (longestIncreasing ((keptChildren a b m sp dp).map (·.2))).length := by
  rw [card_eq_length_keptChildren hS, ← List.length_map (·.2)]
  refine length_le_of_sublist (List.filter_sublist.map _) (List.pairwise_map.2 ?_)
  refine ((pairwise_keptChildren a b m sp dp).filter _).imp_of_mem ?_
  rintro ⟨c, place⟩ ⟨c', place'⟩ hc hc' hlt
  simp only [List.mem_filter, decide_eq_true_eq] at hc hc'
  obtain ⟨-, e, he, hp, hplace⟩ := mem_keptChildren.1 hc.1
  obtain ⟨-, e', he', hp', hplace'⟩ := mem_keptChildren.1 hc'.1
  have hee : e < e' := (horder c hc.2 c' hc'.2 e e' he he').1 hlt
  exact (lt_iff_siblingIndex?_lt hp hp' hplace hplace').1 hee

/-- The lists of all pairs have a child once, so that a member of the run is not out of order. -/
lemma not_mem_outOfOrder_of_run {i : Nat} (hc : ((keptChildren a b m sp dp).map (·.1))[i]? = some c)
    (hi : i ∈ longestIncreasing ((keptChildren a b m sp dp).map (·.2))) : c ∉ outOfOrder a b m := by
  intro hout
  obtain ⟨sp', dp', -, j, place', hc', hj⟩ := mem_outOfOrder.1 hout
  obtain ⟨⟨x, place⟩, hmem, rfl⟩ := List.mem_map.1 (List.mem_of_getElem? hc)
  obtain ⟨hchild, e, he, hp, -⟩ := mem_keptChildren.1 hmem
  obtain ⟨hchild', e', he', hp', -⟩ := mem_keptChildren.1 (List.mem_of_getElem? hc')
  obtain rfl : sp' = sp := Option.some.inj
    ((Ast.parent?_eq_some_iff.2 hchild').symm.trans (Ast.parent?_eq_some_iff.2 hchild))
  obtain rfl : e' = e := Option.some.inj (he'.symm.trans he)
  obtain rfl : dp' = dp := Option.some.inj (hp'.symm.trans hp)
  have hat : ((keptChildren a b m sp' dp').map (·.1))[j]? = some x := by rw [List.getElem?_map, hc']; rfl
  have hij : i = j := (List.getElem?_inj (List.getElem?_eq_some_iff.1 hc).1 nodup_keptChildren).1
    (hc.trans hat.symm)
  exact hj (hij ▸ hi)

/-- Every member of the run stands for a child that is in place. -/
lemma longestIncreasing_le_card : (longestIncreasing ((keptChildren a b m sp dp).map (·.2))).length ≤
    (inPlace a b m sp dp).card := by
  rw [← List.toFinset_card_of_nodup (nodup_longestIncreasing _)]
  have hchild : ∀ i ∈ longestIncreasing ((keptChildren a b m sp dp).map (·.2)),
      ∃ c, ((keptChildren a b m sp dp).map (·.1))[i]? = some c := by
    intro i hi
    have hlt := lt_length_of_mem_longestIncreasing hi
    rw [List.length_map] at hlt
    exact ⟨_, List.getElem?_eq_getElem (by rwa [List.length_map])⟩
  refine Finset.card_le_card_of_injOn (fun i => (((keptChildren a b m sp dp).map (·.1))[i]?).getD 0)
    (fun i hi => ?_) fun i hi j hj heq => ?_
  · rw [Finset.mem_coe, List.mem_toFinset] at hi
    obtain ⟨c, hc⟩ := hchild i hi
    simp only [Finset.mem_coe, hc, Option.getD_some, inPlace, Finset.mem_filter,
      mem_staying_iff_keptChildren]
    obtain ⟨⟨x, place⟩, hmem, rfl⟩ := List.mem_map.1 (List.mem_of_getElem? hc)
    exact ⟨⟨place, hmem⟩, not_mem_outOfOrder_of_run hc hi⟩
  · rw [Finset.mem_coe, List.mem_toFinset] at hi hj
    obtain ⟨c, hc⟩ := hchild i hi
    obtain ⟨c', hc'⟩ := hchild j hj
    simp only [hc, hc', Option.getD_some] at heq
    exact (List.getElem?_inj (List.getElem?_eq_some_iff.1 hc).1 nodup_keptChildren).1
      (hc.trans (heq ▸ hc'.symm))

/-- The children left in place are in the order of their partners. -/
lemma sameOrder_inPlace (hpair : m.toRepaired? sp = some dp) : SameOrder m (inPlace a b m sp dp) := by
  intro c hc c' hc' e e' he he'
  obtain ⟨hc, hin⟩ := Finset.mem_filter.1 hc
  obtain ⟨hc', hin'⟩ := Finset.mem_filter.1 hc'
  obtain ⟨hchild, f, hf, hp⟩ := mem_staying.1 hc
  obtain ⟨hchild', f', hf', hp'⟩ := mem_staying.1 hc'
  obtain rfl : f = e := Option.some.inj (hf.symm.trans he)
  obtain rfl : f' = e' := Option.some.inj (hf'.symm.trans he')
  constructor
  · exact partner_lt_of_not_mem_outOfOrder hpair hchild he hp hchild' he' hp' hin hin'
  · intro hlt
    rcases Nat.lt_trichotomy c c' with hcc | rfl | hcc
    · exact hcc
    · rw [he, Option.some.injEq] at he'
      omega
    · have := partner_lt_of_not_mem_outOfOrder hpair hchild' he' hp' hchild he hp hin' hin hcc
      omega

/-- The marked values of a sequence increase, and no increasing subsequence is longer. So the children that
stay below the partner of their parent and are not out of order come in the same order on both sides, and no
larger set of the children that stay does. -/
theorem fewest_outOfOrder :
    (∀ values : List Nat, (inRun values).Sublist values ∧ (inRun values).Pairwise (· < ·) ∧
      ∀ l : List Nat, l.Sublist values → l.Pairwise (· < ·) → l.length ≤ (inRun values).length) ∧
    ∀ (a b : Ast) (m : Matching) (sp dp : Nat), m.toRepaired? sp = some dp →
      SameOrder m (inPlace a b m sp dp) ∧
      ∀ S ⊆ staying a b m sp dp, SameOrder m S → S.card ≤ (inPlace a b m sp dp).card := by
  refine ⟨fun values => ⟨inRun_sublist values, pairwise_inRun values, fun l hl hincreasing => ?_⟩,
    fun a b m sp dp hpair => ⟨sameOrder_inPlace hpair, fun S hS horder => ?_⟩⟩
  · rw [length_inRun]
    exact length_le_of_sublist hl hincreasing
  · exact Nat.le_trans (card_le_longestIncreasing hS horder) longestIncreasing_le_card

/-- The three statements of a program, the last of them put first. -/
def rotation : Matching := ((((Matching.empty 4 4).link 0 0).link 1 2).link 2 3).link 3 1

/-- Where the last of three statements was put first, the other two are in place. -/
theorem fewest_outOfOrder_rotation :
    (inRun [2, 0, 1] = [0, 1] ∧ [2].Sublist [2, 0, 1] ∧ [2].length ≤ (inRun [2, 0, 1]).length) ∧
    rotation.toRepaired? 0 = some 0 ∧
    staying (statements ["x", "y", "z"]) (statements ["z", "x", "y"]) rotation 0 0 = {1, 2, 3} ∧
    inPlace (statements ["x", "y", "z"]) (statements ["z", "x", "y"]) rotation 0 0 = {1, 2} ∧
    SameOrder rotation (inPlace (statements ["x", "y", "z"]) (statements ["z", "x", "y"]) rotation 0 0) ∧
    ¬ SameOrder rotation {1, 2, 3} := by
  obtain ⟨hvalues, hchildren⟩ := fewest_outOfOrder
  have hpair : rotation.toRepaired? 0 = some 0 := by decide +kernel
  obtain ⟨horder, hmost⟩ :=
    hchildren (statements ["x", "y", "z"]) (statements ["z", "x", "y"]) rotation 0 0 hpair
  have hstay : staying (statements ["x", "y", "z"]) (statements ["z", "x", "y"]) rotation 0 0 =
      {1, 2, 3} := by
    decide +kernel
  have hplace : inPlace (statements ["x", "y", "z"]) (statements ["z", "x", "y"]) rotation 0 0 =
      {1, 2} := by
    decide +kernel
  have hsub : [2].Sublist [2, 0, 1] := by decide
  refine ⟨⟨by decide +kernel, hsub, (hvalues [2, 0, 1]).2.2 [2] hsub (List.pairwise_singleton _ 2)⟩,
    hpair, hstay, hplace, horder, fun hall => ?_⟩
  have hcard := hmost {1, 2, 3} (by rw [hstay]) hall
  rw [hplace] at hcard
  exact absurd hcard (by decide)

end Mend.Matching
