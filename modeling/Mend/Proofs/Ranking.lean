import Mathlib.Data.List.Nodup
import Mathlib.Data.List.Pairwise
import Mathlib.Data.String.Basic

/-!
# Rankings

Sorting puts a list in order and leaves equally good members in the order that they had
(`pairwise_mergeSort_of_pairwise`). Frequencies and clusters are ranked alike: larger numbers come first, and
among equal numbers a text decides (`RanksBefore`).
-/

namespace Mend

section Stable

variable {α : Type} {R : α → α → Prop} {le : α → α → Bool} {l : List α} {x y : α}

/-- A strictly sorted list repeats nothing. -/
lemma nodup_of_pairwise [Std.Asymm R] (h : l.Pairwise R) : l.Nodup := by
  refine h.imp fun {x y} hxy heq => ?_
  subst heq
  exact Std.Asymm.asymm x x hxy hxy

/-- In a sorted list, what comes before in the order comes first. -/
lemma pair_sublist_of_pairwise [Std.Asymm R] (h : l.Pairwise R) (hx : x ∈ l) (hy : y ∈ l) (hxy : R x y) :
    [x, y].Sublist l := by
  obtain ⟨before, after, rfl⟩ := List.append_of_mem hx
  obtain ⟨-, -, hbefore⟩ := List.pairwise_append.1 h
  rcases List.mem_append.1 hy with hy | hy
  · exact absurd hxy (Std.Asymm.asymm y x (hbefore y hy x List.mem_cons_self))
  · rcases List.mem_cons.1 hy with rfl | hy
    · exact absurd hxy (Std.Asymm.asymm y y hxy)
    · have hpair : [x, y].Sublist (x :: after) := (List.singleton_sublist.2 hy).cons_cons x
      exact hpair.trans (List.sublist_append_right before _)

/-- Without repetition, two elements come in one order only. -/
lemma not_pair_sublist_of_nodup (h : l.Nodup) (hxy : [x, y].Sublist l) : ¬ [y, x].Sublist l := by
  intro hyx
  induction l with
  | nil => cases hxy
  | cons z l ih =>
    obtain ⟨hz, hl⟩ := List.nodup_cons.1 h
    cases hxy with
    | cons _ hxy =>
      cases hyx with
      | cons _ hyx => exact ih hl hxy hyx
      | cons_cons _ hx => exact hz (hxy.subset (by simp))
    | cons_cons _ hy =>
      cases hyx with
      | cons _ hyx => exact hz (hyx.subset (by simp))
      | cons_cons _ _ => exact hz (List.singleton_sublist.1 hy)

/-- Sorting keeps the order of a sorted list where members are equally good. -/
lemma pairwise_mergeSort_of_pairwise [Std.Asymm R]
    (htrans : ∀ x y z, le x y = true → le y z = true → le x z = true)
    (htotal : ∀ x y, (le x y || le y x) = true) (h : l.Pairwise R) :
    (l.mergeSort le).Pairwise fun x y => le x y = true ∧ (le y x = true → R x y) := by
  have hperm := List.mergeSort_perm l le
  have hnodup := hperm.nodup_iff.2 (nodup_of_pairwise h)
  have hsorted := List.pairwise_mergeSort htrans htotal l
  have hor : ∀ x ∈ l, ∀ y ∈ l, x ≠ y → R x y ∨ R y x := by
    have : Std.Symm fun x y => x ≠ y → R x y ∨ R y x := ⟨fun x y hxy hne => (hxy hne.symm).symm⟩
    have hpair : l.Pairwise fun x y => x ≠ y → R x y ∨ R y x := h.imp fun hxy _ => .inl hxy
    exact fun x hx y hy => hpair.forall_of_forall (fun x _ hne => absurd rfl hne) hx hy
  refine List.pairwise_iff_forall_sublist.2 fun {x y} hxy => ⟨?_, fun hle => ?_⟩
  · exact List.pairwise_iff_forall_sublist.1 hsorted hxy
  have hx : x ∈ l := hperm.mem_iff.1 (hxy.subset (by simp))
  have hy : y ∈ l := hperm.mem_iff.1 (hxy.subset (by simp))
  have hne : x ≠ y := List.pairwise_iff_forall_sublist.1 hnodup hxy
  refine (hor x hx y hy hne).resolve_right fun hyx => ?_
  -- Then `y` comes before `x` in the list, and sorting would have left it there.
  have hkept := List.pair_sublist_mergeSort htrans htotal hle (pair_sublist_of_pairwise h hy hx hyx)
  exact not_pair_sublist_of_nodup hnodup hxy hkept

end Stable

/-- Larger numbers come first, and among equal ones the lesser text. -/
def RanksBefore {α : Type} (number : α → Nat) (text : α → String) (x y : α) : Prop :=
  number y < number x ∨ number x = number y ∧ text x ≤ text y

section Ranks

variable {α : Type} {number : α → Nat} {text : α → String} {precedes : α → α → Bool} {x y z : α} {l : List α}

/-- Ranking before is transitive. -/
lemma RanksBefore.trans (hxy : RanksBefore number text x y) (hyz : RanksBefore number text y z) :
    RanksBefore number text x z := by
  rcases hxy with hxy | ⟨hxy, htext⟩
  · rcases hyz with hyz | ⟨hyz, -⟩
    · exact .inl (Nat.lt_trans hyz hxy)
    · exact .inl (hyz ▸ hxy)
  · rcases hyz with hyz | ⟨hyz, htext'⟩
    · exact .inl (hxy ▸ hyz)
    · exact .inr ⟨hxy.trans hyz, String.le_trans htext htext'⟩

/-- Of two elements, one ranks before the other. -/
lemma RanksBefore.total (number : α → Nat) (text : α → String) (x y : α) :
    RanksBefore number text x y ∨ RanksBefore number text y x := by
  rcases Nat.lt_trichotomy (number x) (number y) with hlt | heq | hlt
  · exact .inr (.inl hlt)
  · rcases String.le_total (text x) (text y) with hle | hle
    · exact .inl (.inr ⟨heq, hle⟩)
    · exact .inr (.inr ⟨heq.symm, hle⟩)
  · exact .inl (.inl hlt)

/-- What decides the ranking is transitive. -/
lemma precedes_trans (hprecedes : ∀ x y, precedes x y = true ↔ RanksBefore number text x y) :
    ∀ x y z, precedes x y = true → precedes y z = true → precedes x z = true := by
  simpa only [hprecedes] using fun x y z => RanksBefore.trans

/-- What decides the ranking is total. -/
lemma precedes_total (hprecedes : ∀ x y, precedes x y = true ↔ RanksBefore number text x y) :
    ∀ x y, (precedes x y || precedes y x) = true := by
  simpa only [Bool.or_eq_true, hprecedes] using RanksBefore.total number text

/-- A list sorted by it is ranked. -/
lemma pairwise_mergeSort_ranksBefore (hprecedes : ∀ x y, precedes x y = true ↔ RanksBefore number text x y)
    (l : List α) : (l.mergeSort precedes).Pairwise (RanksBefore number text) := by
  have h := List.pairwise_mergeSort (precedes_trans hprecedes) (precedes_total hprecedes) l
  simpa only [hprecedes] using h

/-- Members with the same number and text stay in the order that they had. -/
lemma pairwise_mergeSort_ranks {R : α → α → Prop} [Std.Asymm R]
    (hprecedes : ∀ x y, precedes x y = true ↔ RanksBefore number text x y) (h : l.Pairwise R) :
    (l.mergeSort precedes).Pairwise fun x y => RanksBefore number text x y ∧
      (number x = number y → text x = text y → R x y) := by
  have h := pairwise_mergeSort_of_pairwise (precedes_trans hprecedes) (precedes_total hprecedes) h
  refine h.imp fun {x y} ⟨hxy, hstable⟩ => ?_
  refine ⟨(hprecedes x y).1 hxy, fun hnumber htext => hstable ((hprecedes y x).2 ?_)⟩
  exact .inr ⟨hnumber.symm, le_of_eq htext.symm⟩

end Ranks

end Mend
