import Mathlib.Data.List.Flatten
import Mathlib.Data.List.Nodup
import Mathlib.Data.List.Perm.Basic
import Mend.Detector.Visits
import Mend.Proofs.Scope.Shape

/-!
# Detectors see everything once

The walk of the driver goes inwards on the repaired side, and on the buggy side through deleted scopes
only, while pairs may lie across the nesting. What it visits is told by one rule, what is visited next
(`inside`): the visits are the first one and the visits next to visits (`perm_visits_inside`), and so are the
repaired scopes with their partners together with the deleted buggy scopes (`perm_expected_inside`). Steps
lead inwards, so that no other list of visits follows the rule (`perm_of_flatMap`).

`Thorough` says what this means for a detector, `thorough_of` that it holds of every analysis.
-/

namespace Mend

open Syntax (Ast)

section Unfolding

variable {α ι : Type} {next : α → List α}

/-- Lists that are spanned by one rule from one start have the same members, if the rule leads upwards. -/
lemma perm_of_flatMap [DecidableEq α] {start xs ys : List α} (rank : α → Nat)
    (hrank : ∀ u, ∀ v ∈ next u, rank u < rank v) (hx : xs.Perm (start ++ xs.flatMap next))
    (hy : ys.Perm (start ++ ys.flatMap next)) : xs.Perm ys := by
  -- How often `v` is reached depends on the members it is next to.
  have hspan : ∀ {l : List α} {v : α}, l.Perm (start ++ l.flatMap next) →
      l.count v = start.count v + ((l.filter fun u => decide (v ∈ next u)).flatMap next).count v := by
    intro l v hl
    have hcount := hl.count_eq v
    rw [List.count_append] at hcount
    rw [hcount]
    congr 1
    clear hl hcount
    induction l with
    | nil => rfl
    | cons u l ih =>
      rw [List.flatMap_cons, List.count_append, ih, List.filter_cons]
      by_cases hv : v ∈ next u
      · rw [decide_eq_true hv, if_pos rfl, List.flatMap_cons, List.count_append]
      · rw [decide_eq_false hv, List.count_eq_zero_of_not_mem hv, Nat.zero_add]
        rfl
  rw [List.perm_iff_count]
  intro v
  induction hr : rank v using Nat.strongRecOn generalizing v with
  | _ r ih =>
    rw [hspan hx, hspan hy]
    congr 1
    refine List.Perm.count_eq (List.Perm.flatMap_right _ (List.perm_iff_count.2 fun u => ?_)) v
    by_cases hu : v ∈ next u
    · have hmem : ∀ l : List α, (l.filter fun u => decide (v ∈ next u)).count u = l.count u :=
        fun l => List.count_filter (decide_eq_true hu)
      rw [hmem, hmem]
      exact ih (rank u) (hr ▸ hrank u v hu) u rfl
    · have hnot : ∀ l : List α, u ∉ l.filter fun u => decide (v ∈ next u) := fun l hmem =>
        hu (of_decide_eq_true (List.mem_filter.1 hmem).2)
      rw [List.count_eq_zero_of_not_mem (hnot xs), List.count_eq_zero_of_not_mem (hnot ys)]

/-- Lists spanned from single starts are spanned together from these starts. -/
lemma perm_flatMap_span {l : List ι} {start : ι → α} {span : ι → List α}
    (h : ∀ i ∈ l, (span i).Perm (start i :: (span i).flatMap next)) :
    (l.flatMap span).Perm (l.map start ++ (l.flatMap span).flatMap next) := by
  rw [List.flatMap_assoc]
  exact (List.Perm.flatMap_left l h).trans (List.map_append_flatMap_perm l start _).symm

end Unfolding

namespace Analysis

variable {x : Analysis} {c : Comparison} {p : Provenance}

/-- The visits directly inside a visit. -/
def inside (x : Analysis) : ScopePair → List ScopePair
  | ⟨old, some new⟩ =>
    ((x.repairedScopes.children new).map fun n => ⟨x.partnerScope? n, some n⟩) ++
      (old.elim [] x.deletedInside).map fun s => ⟨some s, none⟩
  | ⟨some old, none⟩ => (x.deletedInside old).map fun s => ⟨some s, none⟩
  | ⟨none, none⟩ => []

/-- A deleted scope is visited, and then the deleted ones inside it. -/
lemma deletedVisits_unfold (x : Analysis) (old : Nat) :
    x.deletedVisits old = ⟨some old, none⟩ :: (x.deletedInside old).flatMap x.deletedVisits := by
  rw [deletedVisits, List.flatMap_subtype (g := x.deletedVisits) fun _ _ => rfl, List.unattach_attach]

/-- A pair is visited, then the scopes inside the repaired one, then the deleted ones inside the original one.
-/
lemma visitsFrom_unfold (x : Analysis) (old : Option Nat) (new : Nat) :
    x.visitsFrom old new = ⟨old, some new⟩ ::
      (((x.repairedScopes.children new).flatMap fun n => x.visitsFrom (x.partnerScope? n) n) ++
        (old.elim [] x.deletedInside).flatMap x.deletedVisits) := by
  rw [visitsFrom, List.flatMap_subtype (g := fun n => x.visitsFrom (x.partnerScope? n) n)
    fun _ _ => rfl, List.unattach_attach]
  rfl

/-- The visits of a deleted scope are that scope and the insides of all visited. -/
lemma deletedVisits_span (x : Analysis) (old : Nat) :
    (x.deletedVisits old).Perm (⟨some old, none⟩ :: (x.deletedVisits old).flatMap x.inside) := by
  induction hd : x.buggyScopes.size - old using Nat.strongRecOn generalizing old with
  | _ d ih =>
    rw [deletedVisits_unfold, List.flatMap_cons]
    apply List.Perm.cons
    apply perm_flatMap_span
    intro s hs
    have hbounds := ScopeTree.lt_of_mem_children (List.mem_filter.1 hs).1
    exact ih (x.buggyScopes.size - s) (by omega) s rfl

/-- The visits from a pair are that pair and the insides of all visited. -/
lemma visitsFrom_span (x : Analysis) (old : Option Nat) (new : Nat) :
    (x.visitsFrom old new).Perm (⟨old, some new⟩ :: (x.visitsFrom old new).flatMap x.inside) := by
  induction hd : x.repairedScopes.size - new using Nat.strongRecOn generalizing old new with
  | _ d ih =>
    rw [visitsFrom_unfold, List.flatMap_cons, List.flatMap_append]
    apply List.Perm.cons
    let visit (n : Nat) : ScopePair := ⟨x.partnerScope? n, some n⟩
    let visits (n : Nat) : List ScopePair := x.visitsFrom (x.partnerScope? n) n
    have hnew : ((x.repairedScopes.children new).flatMap visits).Perm
        ((x.repairedScopes.children new).map visit ++
          ((x.repairedScopes.children new).flatMap visits).flatMap x.inside) := by
      apply perm_flatMap_span
      intro n hn
      have hbounds := ScopeTree.lt_of_mem_children hn
      exact ih (x.repairedScopes.size - n) (by omega) _ n rfl
    have hold := perm_flatMap_span (l := old.elim [] x.deletedInside) fun s _ => x.deletedVisits_span s
    refine (hnew.append hold).trans ?_
    rw [inside, List.append_assoc, List.append_assoc]
    exact (List.perm_append_comm_assoc _ _ _).append_left _

/-- The buggy scopes without partner. -/
def deletedScopes (x : Analysis) : List Nat := x.buggyScopes.ids.filter fun s => !x.pairedScopes.contains s

/-- The visits that there should be. -/
def expected (x : Analysis) : List ScopePair :=
  (x.repairedScopes.ids.map fun n => ⟨x.partnerScope? n, some n⟩) ++
    x.deletedScopes.map fun s => ⟨some s, none⟩

/-- A buggy and a repaired scope are both scripts, or their nodes are partners. -/
def Paired (x : Analysis) (old new : Nat) : Prop :=
  ∃ s d, x.buggyScopes.owner? old = some s ∧ x.repairedScopes.owner? new = some d ∧
    ((s = 0 ∧ d = 0) ∨ x.comparison.matching.toRepaired? s = some d)

section Rooted

variable (hb : c.buggy.toAst.IsRooted) (hr : c.repaired.toAst.IsRooted) (hc : c.Consistent)

include hb hr hc

/-- A script has no other partner than the script. -/
lemma partner_zero_iff {s d : Nat} (hs : s ∈ (ScopeTree.ofAst c.buggy.toAst).owners)
    (hd : d ∈ (ScopeTree.ofAst c.repaired.toAst).owners) (h : c.matching.toRepaired? s = some d) :
    s = 0 ↔ d = 0 := by
  have hkind : c.buggy.isFunction s = c.repaired.isFunction d := by
    rw [Ast.isFunction, Ast.isFunction, hc.kind_eq s d h]
  constructor
  · rintro rfl
    apply ((ScopeTree.mem_owners hr).1 hd).resolve_right
    rw [← hkind, hb.outer]
    exact Bool.false_ne_true
  · rintro rfl
    apply ((ScopeTree.mem_owners hb).1 hs).resolve_right
    rw [hkind, hr.outer]
    exact Bool.false_ne_true

/-- The partner of a scope is the one paired with it. -/
lemma partnerScope?_eq_some_iff {old new : Nat} :
    (of p c).partnerScope? new = some old ↔ (of p c).Paired old new := by
  have hscope : ∀ s, (of p c).buggyScopes.scopeOf? s = some old ↔
      (of p c).buggyScopes.owner? old = some s := fun s => ScopeTree.scopeOf?_eq_some_iff hb
  have hnew0 : (of p c).repairedScopes.owner? 0 = some 0 := ScopeTree.owner?_zero hr
  have hold0 : (of p c).buggyScopes.owner? 0 = some 0 := ScopeTree.owner?_zero hb
  unfold partnerScope?
  by_cases h0 : new = 0
  · subst h0
    rw [if_pos rfl, Option.some.injEq]
    constructor
    · rintro rfl
      exact ⟨0, 0, hold0, hnew0, .inl ⟨rfl, rfl⟩⟩
    · rintro ⟨s, d, hs, hd, h⟩
      cases hnew0.symm.trans hd
      have hs0 : s = 0 := h.elim And.left fun h =>
        (partner_zero_iff hb hr hc (ScopeTree.mem_owners_of_owner? hs)
          (ScopeTree.mem_owners_of_owner? hd) h).2 rfl
      have hzero := (ScopeTree.scopeOf?_eq_some_iff hb).2 hold0
      rw [hs0] at hs
      exact Option.some.inj (hzero.symm.trans ((hscope 0).2 hs))
  · rw [if_neg h0]
    simp only [Option.bind_eq_some_iff, hscope]
    constructor
    · rintro ⟨s, ⟨d, hd, h⟩, hs⟩
      exact ⟨s, d, hs, hd, .inr (c.matching.toRepaired?_eq_some_iff.2 h)⟩
    · rintro ⟨s, d, hs, hd, ⟨-, rfl⟩ | h⟩
      · have hnew := (ScopeTree.scopeOf?_eq_some_iff hr).2 hd
        rw [(ScopeTree.scopeOf?_eq_some_iff hr).2 hnew0] at hnew
        exact absurd (Option.some.inj hnew).symm h0
      · exact ⟨s, ⟨d, hd, c.matching.toRepaired?_eq_some_iff.1 h⟩, hs⟩

/-- No two repaired scopes have the same partner. -/
lemma Paired.right_unique {old new new' : Nat} (h : (of p c).Paired old new)
    (h' : (of p c).Paired old new') : new = new' := by
  obtain ⟨s, d, hs, hd, hsd⟩ := h
  obtain ⟨s', d', hs', hd', hsd'⟩ := h'
  cases hs.symm.trans hs'
  have hown := ScopeTree.mem_owners_of_owner? hs
  have heq : d = d' := by
    rcases hsd with ⟨rfl, rfl⟩ | hsd
    · rcases hsd' with ⟨-, rfl⟩ | hsd'
      · rfl
      · exact ((partner_zero_iff hb hr hc hown (ScopeTree.mem_owners_of_owner? hd') hsd').1 rfl).symm
    · rcases hsd' with ⟨rfl, rfl⟩ | hsd'
      · exact (partner_zero_iff hb hr hc hown (ScopeTree.mem_owners_of_owner? hd) hsd).1 rfl
      · exact Option.some.inj (hsd.symm.trans hsd')
  subst heq
  have hnew := (ScopeTree.scopeOf?_eq_some_iff hr).2 hd
  exact Option.some.inj (hnew.symm.trans ((ScopeTree.scopeOf?_eq_some_iff hr).2 hd'))

/-- The paired scopes are those paired with some repaired one. -/
lemma mem_pairedScopes {old : Nat} : old ∈ (of p c).pairedScopes ↔ ∃ new, (of p c).Paired old new := by
  simp only [pairedScopes, List.mem_filterMap, partnerScope?_eq_some_iff hb hr hc]
  constructor
  · rintro ⟨new, -, h⟩
    exact ⟨new, h⟩
  · rintro ⟨new, h⟩
    obtain ⟨s, d, -, hd, -⟩ := id h
    exact ⟨new, List.mem_range.2 (ScopeTree.lt_size_of_owner? hd), h⟩

/-- Each original scope is paired or deleted. -/
lemma perm_paired_deleted :
    ((of p c).pairedScopes ++ (of p c).deletedScopes).Perm (of p c).buggyScopes.ids := by
  have hpaired : (of p c).pairedScopes.Perm
      ((of p c).buggyScopes.ids.filter (of p c).pairedScopes.contains) := by
    have hnodup : (of p c).pairedScopes.Nodup := by
      apply List.Nodup.filterMap _ List.nodup_range
      intro new new' old h h'
      exact Paired.right_unique hb hr hc ((partnerScope?_eq_some_iff hb hr hc).1 h)
        ((partnerScope?_eq_some_iff hb hr hc).1 h')
    refine (List.perm_ext_iff_of_nodup hnodup (List.nodup_range.filter _)).2 fun old => ?_
    rw [List.mem_filter, List.contains_iff_mem, iff_and_self, mem_pairedScopes hb hr hc]
    rintro ⟨new, s, d, hs, -⟩
    exact List.mem_range.2 (ScopeTree.lt_size_of_owner? hs)
  exact (hpaired.append_right _).trans (List.filter_append_perm _ _)

/-- A deleted scope is inside a scope with partner, or inside a deleted one. -/
lemma perm_deletedScopes : (of p c).deletedScopes.Perm
    ((of p c).pairedScopes.flatMap (of p c).deletedInside ++
      (of p c).deletedScopes.flatMap (of p c).deletedInside) := by
  have hzero : (of p c).pairedScopes.contains 0 = true :=
    List.contains_iff_mem.2 ((mem_pairedScopes hb hr hc).2
      ⟨0, 0, 0, ScopeTree.owner?_zero hb, ScopeTree.owner?_zero hr, .inl ⟨rfl, rfl⟩⟩)
  have hids : (of p c).deletedScopes.Perm
      (((of p c).buggyScopes.ids.flatMap (of p c).buggyScopes.children).filter
        fun s => !(of p c).pairedScopes.contains s) := by
    have h := (ScopeTree.perm_ids hb).filter fun s => !(of p c).pairedScopes.contains s
    rwa [List.filter_cons, hzero] at h
  rw [← List.flatMap_append]
  refine hids.trans ?_
  rw [List.filter_flatMap]
  exact ((perm_paired_deleted hb hr hc).flatMap_right _).symm

/-- The pairs expected are the first one and those inside the ones expected. -/
lemma perm_expected_inside : (of p c).expected.Perm
    ([⟨some 0, some 0⟩] ++ (of p c).expected.flatMap (of p c).inside) := by
  have hnew := (ScopeTree.perm_ids hr).map fun n => (⟨(of p c).partnerScope? n, some n⟩ : ScopePair)
  have hold := (perm_deletedScopes (p := p) hb hr hc).map fun s => (⟨some s, none⟩ : ScopePair)
  refine (hnew.append hold).trans ?_
  have hpaired : ∀ l : List Nat, (l.filterMap (of p c).partnerScope?).flatMap (of p c).deletedInside =
      l.flatMap fun n => ((of p c).partnerScope? n).elim [] (of p c).deletedInside := by
    intro l
    induction l with
    | nil => rfl
    | cons n l ih =>
      rw [List.filterMap_cons, List.flatMap_cons, ← ih]
      cases (of p c).partnerScope? n <;> rfl
  rw [List.map_cons, List.cons_append, List.singleton_append, expected, List.flatMap_append,
    List.flatMap_map, List.flatMap_map, List.map_append, ← List.append_assoc, pairedScopes, hpaired,
    List.map_flatMap, List.map_flatMap, List.map_flatMap]
  exact ((List.flatMap_append_perm _ _ _).append_right _).cons _

/-- The visits are the repaired scopes with their partners, and the deleted scopes. -/
lemma perm_visits : (of p c).visits.Perm (of p c).expected := by
  have hsize : ¬ ((of p c).buggyScopes.size = 0 ∨ (of p c).repairedScopes.size = 0) := by
    have hold := ScopeTree.lt_size_of_owner? (ScopeTree.owner?_zero hb)
    have hnew := ScopeTree.lt_size_of_owner? (ScopeTree.owner?_zero hr)
    exact not_or.2 ⟨Nat.ne_of_gt hold, Nat.ne_of_gt hnew⟩
  rw [visits, if_neg hsize]
  -- Repaired scopes come before deleted ones, and either kind from the outside inwards.
  let bound := (of p c).repairedScopes.size
  let rank : ScopePair → Nat
    | ⟨_, some new⟩ => min new bound
    | ⟨some old, none⟩ => bound + 1 + old
    | ⟨none, none⟩ => 0
  refine perm_of_flatMap rank ?_ ((of p c).visitsFrom_span (some 0) 0) (perm_expected_inside hb hr hc)
  intro u v hv
  match u with
  | ⟨old, some new⟩ =>
    rcases List.mem_append.1 hv with hv | hv
    · obtain ⟨n, hn, rfl⟩ := List.mem_map.1 hv
      have hbounds := ScopeTree.lt_of_mem_children hn
      show min new bound < min n bound
      omega
    · obtain ⟨s, -, rfl⟩ := List.mem_map.1 hv
      show min new bound < bound + 1 + s
      omega
  | ⟨some old, none⟩ =>
    obtain ⟨s, hs, rfl⟩ := List.mem_map.1 hv
    have hbounds := ScopeTree.lt_of_mem_children (List.mem_filter.1 hs).1
    show bound + 1 + old < bound + 1 + s
    omega
  | ⟨none, none⟩ => cases hv

/-- The deleted scopes are those paired with none. -/
lemma mem_deletedScopes {old : Nat} : old ∈ (of p c).deletedScopes ↔
    old < (of p c).buggyScopes.size ∧ ∀ new, ¬ (of p c).Paired old new := by
  rw [deletedScopes, List.mem_filter, Bool.not_eq_true', ← Bool.not_eq_true, List.contains_iff_mem,
    mem_pairedScopes hb hr hc, not_exists]
  exact and_congr_left fun _ => List.mem_range

/-- Each repaired scope is visited once, with its partner. -/
lemma mem_visits {old : Option Nat} {new : Nat} : ⟨old, some new⟩ ∈ (of p c).visits ↔
    new < (of p c).repairedScopes.size ∧ (of p c).partnerScope? new = old := by
  rw [(perm_visits hb hr hc).mem_iff, expected, List.mem_append, List.mem_map, List.mem_map]
  constructor
  · rintro (⟨n, hn, heq⟩ | ⟨s, -, heq⟩)
    · simp only [ScopePair.mk.injEq, Option.some.injEq] at heq
      obtain ⟨hpartner, rfl⟩ := heq
      exact ⟨List.mem_range.1 hn, hpartner⟩
    · cases heq
  · rintro ⟨hnew, rfl⟩
    exact .inl ⟨new, List.mem_range.2 hnew, rfl⟩

end Rooted

/-- The nodes shown at all visits. -/
def shown (x : Analysis) : List (Side × Nat × Nat) := x.visits.flatMap x.shownNodes

/-- The own nodes of some scopes, with their side and scope. -/
def tagged (t : ScopeTree) (side : Side) (scopes : List Nat) : List (Side × Nat × Nat) :=
  scopes.flatMap fun s => (t.ownNodes s).map fun i => (side, i, s)

/-- The nodes tagged are the own nodes of the scopes listed. -/
lemma mem_tagged {t : ScopeTree} {side side' : Side} {l : List Nat} {i s : Nat} :
    (side', i, s) ∈ tagged t side l ↔ side = side' ∧ s ∈ l ∧ i ∈ t.ownNodes s := by
  simp only [tagged, List.mem_flatMap, List.mem_map, Prod.mk.injEq]
  constructor
  · rintro ⟨s, hs, i, hi, rfl, rfl, rfl⟩
    exact ⟨rfl, hs, hi⟩
  · rintro ⟨rfl, hs, hi⟩
    exact ⟨s, hs, i, hi, rfl, rfl, rfl⟩

/-- No node is tagged twice. -/
lemma nodup_tagged {a : Ast} (h : a.IsRooted) (side : Side) {l : List Nat}
    (hl : l.Sublist (ScopeTree.ofAst a).ids) :
    (tagged (ScopeTree.ofAst a) side l).Nodup := by
  have hall := (ScopeTree.ofAst_shaped h).partition.nodup_iff.2 List.nodup_range'
  apply List.Nodup.of_map fun t => t.2.1
  rw [tagged, List.map_flatMap]
  simp only [List.map_map, Function.comp_def, List.map_id']
  exact hall.sublist (hl.flatMap _)

/-- The nodes shown are those of all repaired scopes and of the deleted ones. -/
lemma perm_shown (hb : c.buggy.toAst.IsRooted) (hr : c.repaired.toAst.IsRooted) (hc : c.Consistent) :
    (of p c).shown.Perm (tagged (of p c).repairedScopes .repaired (of p c).repairedScopes.ids ++
      tagged (of p c).buggyScopes .buggy (of p c).deletedScopes) := by
  apply ((perm_visits hb hr hc).flatMap_right (of p c).shownNodes).trans
  rw [expected, List.flatMap_append, List.flatMap_map, List.flatMap_map]
  exact List.Perm.refl _

/-- No node is shown twice. -/
lemma nodup_shown (hb : c.buggy.toAst.IsRooted) (hr : c.repaired.toAst.IsRooted) (hc : c.Consistent) :
    (of p c).shown.Nodup := by
  rw [(perm_shown hb hr hc).nodup_iff, List.nodup_append]
  refine ⟨nodup_tagged hr _ (List.Sublist.refl _), nodup_tagged hb _ List.filter_sublist, ?_⟩
  rintro ⟨side, i, s⟩ h t h' rfl
  cases (mem_tagged.1 h).1.trans (mem_tagged.1 h').1.symm

/-- Detectors are shown everything there is to see, and nothing twice. -/
structure Thorough (x : Analysis) : Prop where
  repaired_once : (x.visits.filterMap (·.repaired)).Perm x.repairedScopes.ids
  buggy_once : (x.visits.filterMap (·.buggy)).Perm x.buggyScopes.ids
  /-- Two scopes are shown together if they are both scripts or their nodes are partners. -/
  together : ∀ old new, ⟨some old, some new⟩ ∈ x.visits ↔ x.Paired old new
  shown_once : x.shown.Nodup
  repaired_node : ∀ i new, (.repaired, i, new) ∈ x.shown ↔
    i ≠ 0 ∧ i < x.comparison.repaired.size ∧ x.repairedScopes.enclosing i = new
  /-- Of the buggy nodes those are shown whose scope has no partner. -/
  buggy_node : ∀ i old, (.buggy, i, old) ∈ x.shown ↔
    i ≠ 0 ∧ i < x.comparison.buggy.size ∧ x.buggyScopes.enclosing i = old ∧ ∀ new, ¬ x.Paired old new
  /-- What is found is what each detector finds at the visits and at the nodes shown. -/
  found : ∀ detectors : List Detector, (x.visits.flatMap (x.foundAt detectors)).Perm
    ((x.visits.flatMap fun pair => detectors.flatMap fun d => d.inScopes x pair) ++
      x.shown.flatMap fun (side, node, scope) => detectors.flatMap fun d => d.inNode x side node scope)
  collected : ∀ (detectors : List Detector) (found : Findings),
    x.collect detectors found = found.registerAll (x.visits.flatMap (x.foundAt detectors))

/-- Detectors see the scopes of a comparison once each, partners together, and of the nodes those of the
repaired program and those of the deleted functions. -/
theorem thorough_of (hb : c.buggy.toAst.IsRooted) (hr : c.repaired.toAst.IsRooted) (hc : c.Consistent)
    (p : Provenance) : (of p c).Thorough where
  repaired_once := by
    have h := (perm_visits (p := p) hb hr hc).filterMap (·.repaired)
    rw [expected, List.filterMap_append, List.filterMap_map, List.filterMap_map] at h
    have hnew : (of p c).repairedScopes.ids.filterMap (ScopePair.repaired ∘
        fun n => ⟨(of p c).partnerScope? n, some n⟩) = (of p c).repairedScopes.ids := List.filterMap_some
    have hold : (of p c).deletedScopes.filterMap (ScopePair.repaired ∘ fun s => ⟨some s, none⟩) = [] :=
      List.filterMap_eq_nil_iff.2 fun _ _ => rfl
    rwa [hnew, hold, List.append_nil] at h
  buggy_once := by
    have h := (perm_visits (p := p) hb hr hc).filterMap (·.buggy)
    rw [expected, List.filterMap_append, List.filterMap_map, List.filterMap_map] at h
    have hold : (of p c).deletedScopes.filterMap (ScopePair.buggy ∘ fun s => ⟨some s, none⟩) =
        (of p c).deletedScopes := List.filterMap_some
    rw [hold] at h
    exact h.trans (perm_paired_deleted hb hr hc)
  together old new := by
    rw [mem_visits hb hr hc, partnerScope?_eq_some_iff hb hr hc, and_iff_right_iff_imp]
    rintro ⟨s, d, -, hd, -⟩
    exact ScopeTree.lt_size_of_owner? hd
  shown_once := nodup_shown hb hr hc
  repaired_node i new := by
    rw [(perm_shown hb hr hc).mem_iff, List.mem_append, mem_tagged, mem_tagged]
    have howned : new ∈ (of p c).repairedScopes.ids ∧ i ∈ (of p c).repairedScopes.ownNodes new ↔
        i ≠ 0 ∧ i < c.repaired.size ∧ (of p c).repairedScopes.enclosing i = new :=
      ScopeTree.owned_iff hr
    rw [and_iff_right rfl, howned]
    apply or_iff_left
    rintro ⟨hside, -⟩
    cases hside
  buggy_node i old := by
    rw [(perm_shown hb hr hc).mem_iff, List.mem_append, mem_tagged, mem_tagged]
    have howned : old ∈ (of p c).buggyScopes.ids ∧ i ∈ (of p c).buggyScopes.ownNodes old ↔
        i ≠ 0 ∧ i < c.buggy.size ∧ (of p c).buggyScopes.enclosing i = old :=
      ScopeTree.owned_iff hb
    constructor
    · rintro (⟨hside, -⟩ | ⟨-, hold, hi⟩)
      · cases hside
      · obtain ⟨hlt, hpaired⟩ := (mem_deletedScopes hb hr hc).1 hold
        obtain ⟨h0, hsize, henc⟩ := howned.1 ⟨List.mem_range.2 hlt, hi⟩
        exact ⟨h0, hsize, henc, hpaired⟩
    · rintro ⟨h0, hsize, henc, hpaired⟩
      obtain ⟨hold, hi⟩ := howned.2 ⟨h0, hsize, henc⟩
      exact .inr ⟨rfl, (mem_deletedScopes hb hr hc).2 ⟨List.mem_range.1 hold, hpaired⟩, hi⟩
  found detectors := by
    rw [shown, List.flatMap_assoc]
    exact (List.flatMap_append_perm _ _ _).symm
  collected detectors found := by
    rw [Findings.registerAll, List.foldl_flatMap]
    rfl

/-- The program `x => y`, parameters left out. -/
def arrow : Ast :=
  .ofForest "x => y" <|
    .cons ⟨"program", none, "", 0, 6, 1⟩
      (.cons ⟨"arrow_function", none, "", 0, 6, 1⟩
        (.cons ⟨"identifier", some "body", "y", 5, 6, 1⟩ .nil .nil) .nil) .nil

/-- A function is deleted, and the function inside it stays: the three buggy scopes are seen once each, and
so are the two repaired ones. -/
theorem thorough_of_nested : ScopeTree.nested.IsRooted ∧ arrow.IsRooted ∧
    ∃ d, Matching.classify ScopeTree.nested arrow = .ok d ∧ d.Consistent ∧
      (of .empty (.ofClassified d)).Thorough ∧
      ((of .empty (.ofClassified d)).visits.filterMap (·.buggy)).Perm [0, 1, 2] ∧
      ((of .empty (.ofClassified d)).visits.filterMap (·.repaired)).Perm [0, 1] := by
  have hnested : ScopeTree.nested.IsRooted := ⟨Ast.isArena_of_root rfl, by decide, by decide⟩
  have harrow : arrow.IsRooted := ⟨Ast.isArena_of_root rfl, by decide, by decide⟩
  have htells : Digest.TellsApart ScopeTree.nested arrow := by decide +kernel
  let d := Matching.classifiedBy ScopeTree.nested arrow (Matching.Trees.of ScopeTree.nested arrow).matching
  have hd : d.Consistent := Matching.consistent_classifiedBy (Matching.Trees.safe_matching htells).2
  have h : (of .empty (.ofClassified d)).Thorough := thorough_of hnested harrow hd .empty
  have hbuggy : (of .empty (.ofClassified d)).buggyScopes.ids = [0, 1, 2] := by decide +kernel
  have hrepaired : (of .empty (.ofClassified d)).repairedScopes.ids = [0, 1] := by decide +kernel
  exact ⟨hnested, harrow, d, Matching.classify_eq htells, hd, h, hbuggy ▸ h.buggy_once,
    hrepaired ▸ h.repaired_once⟩

end Analysis

end Mend
