import Mathlib
import Mend.Feature.Basic

/-!
# What a tally answers

Adding to a use changes what the tally answers for that use and for no other (`number_add`), so that
adding entry after entry adds up what the entries say of each use (`number_addAll`). The entries of a
tally name no use twice, and their sum for a use is what the tally answers (`total_entries`).
-/

namespace Mend

open Keyword (Use)

namespace Tally

variable {ν : Type} {u w : Use}

/-- Uses that are not ordered equal differ. -/
lemma ne_of_order {u v : Use} {o : Ordering} (h : u.order v = o) (ho : o ≠ .eq) : u ≠ v := by
  rintro rfl
  exact ho (h.symm.trans Std.ReflCmp.compare_self)

/-- The number of a use in a list of entries. -/
def lookup (w : Use) (l : List (Use × ν)) : Option ν := (l.find? (·.1 == w)).map Prod.snd

/-- A use is looked up in the first entry and then in the others. -/
lemma lookup_cons (w : Use) (e : Use × ν) (l : List (Use × ν)) :
    lookup w (e :: l) = if e.1 = w then some e.2 else lookup w l := by
  by_cases h : e.1 = w <;> simp [lookup, h]

/-- Behind a greater entry nothing is found. -/
lemma lookup_of_before {l : List (Use × ν)} (h : ∀ e ∈ l, w.order e.1 = .lt) : lookup w l = none := by
  have hnot : l.find? (·.1 == w) = none :=
    List.find?_eq_none.2 fun e he heq =>
      ne_of_order (h e he) (by decide) (beq_iff_eq.1 heq).symm
  rw [lookup, hnot, Option.map_none]

/-- Inserting an entry adds to the value of its use and to no other. -/
lemma lookup_insertEntry [Add ν] (u w : Use) (n : ν) {l : List (Use × ν)} (h : l.Pairwise Before) :
    lookup w (insertEntry u n l) =
      if u = w then some ((lookup w l).elim n (· + n)) else lookup w l := by
  fun_induction insertEntry u n l with
  | case1 => simp [lookup]
  | case2 v m r hlt =>
    -- Everything in the list comes after `u`.
    have hnone : lookup u ((v, m) :: r) = none := by
      refine lookup_of_before fun e he => ?_
      rcases List.mem_cons.1 he with rfl | he
      · exact hlt
      · exact Std.TransCmp.lt_trans hlt (List.rel_of_pairwise_cons h he)
    rw [lookup_cons]
    split
    · next huw =>
      subst huw
      rw [hnone, Option.elim_none]
    · rfl
  | case3 v m r heq =>
    obtain rfl := Keyword.Use.order_eq heq
    simp only [lookup_cons]
    split <;> rfl
  | case4 v m r hgt ih =>
    have hne : u ≠ v := ne_of_order hgt (by decide)
    simp only [lookup_cons, ih (List.pairwise_cons.1 h).2]
    by_cases hv : v = w
    · subst hv
      rw [if_pos rfl, if_neg hne, if_pos rfl]
    · rw [if_neg hv, if_neg hv]

/-- Inserting an entry adds its use. -/
lemma mem_insertEntry [Add ν] (u w : Use) (n : ν) (l : List (Use × ν)) :
    w ∈ (insertEntry u n l).map Prod.fst ↔ w = u ∨ w ∈ l.map Prod.fst := by
  fun_induction insertEntry u n l with
  | case1 => simp
  | case2 v m r hlt => simp
  | case3 v m r heq =>
    obtain rfl := Keyword.Use.order_eq heq
    simp
  | case4 v m r hgt ih =>
    rw [List.map_cons, List.mem_cons, ih, List.map_cons, List.mem_cons]
    exact or_left_comm

/-- Adding entries adds their uses. -/
lemma mem_uses_addAll [Add ν] (t : Tally ν) (l : List (Use × ν)) (w : Use) :
    w ∈ (t.addAll l).uses ↔ w ∈ t.uses ∨ w ∈ l.map Prod.fst := by
  induction l generalizing t with
  | nil => simp [addAll]
  | cons e l ih =>
    have hadd : w ∈ (t.add e.1 e.2).uses ↔ w = e.1 ∨ w ∈ t.uses := mem_insertEntry e.1 w e.2 t.entries
    change w ∈ ((t.add e.1 e.2).addAll l).uses ↔ _
    rw [ih, hadd, List.map_cons, List.mem_cons]
    exact or_assoc.trans or_left_comm

/-- An entry that comes after all others is put at the end. -/
lemma insertEntry_of_before [Add ν] (u : Use) (n : ν) {l : List (Use × ν)}
    (h : ∀ e ∈ l, Before e (u, n)) : insertEntry u n l = l ++ [(u, n)] := by
  induction l with
  | nil => rfl
  | cons e l ih =>
    obtain ⟨v, m⟩ := e
    have hgt : u.order v = .gt := Std.OrientedCmp.gt_of_lt (h (v, m) List.mem_cons_self)
    rw [insertEntry, hgt, List.cons_append, ← ih fun e he => h e (List.mem_cons_of_mem _ he)]

/-- Entries already in order are added as they are. -/
lemma entries_addAll [Add ν] (t : Tally ν) {l : List (Use × ν)}
    (h : (t.entries ++ l).Pairwise Before) : (t.addAll l).entries = t.entries ++ l := by
  induction l generalizing t with
  | nil => simp [addAll]
  | cons e l ih =>
    have hlast : (t.add e.1 e.2).entries = t.entries ++ [e] :=
      insertEntry_of_before e.1 e.2 fun e' he' =>
        (List.pairwise_append.1 h).2.2 e' he' e List.mem_cons_self
    have hstep := ih (t.add e.1 e.2) (by rwa [hlast, List.append_assoc])
    rw [hlast, List.append_assoc] at hstep
    exact hstep

/-- A tally is told by its entries. -/
lemma congr_entries {s t : Tally ν} (h : s.entries = t.entries) : s = t := by
  obtain ⟨entries, sorted⟩ := s
  cases h
  rfl

/-- A tally is filled again from its own entries. -/
lemma addAll_entries [Add ν] (t : Tally ν) : empty.addAll t.entries = t := by
  exact congr_entries (entries_addAll empty t.sorted)

/-- What the tally answers for a use; zero for a use that it does not hold. -/
def number (t : Tally UInt64) (w : Use) : UInt64 := (t.get? w).getD 0

/-- An empty tally counts no use. -/
@[simp] lemma number_empty (w : Use) : (empty : Tally UInt64).number w = 0 := rfl

/-- Adding counts for the use added and for no other. -/
lemma number_add (t : Tally UInt64) (u w : Use) (n : UInt64) :
    (t.add u n).number w = t.number w + if u = w then n else 0 := by
  have h : (t.add u n).get? w = if u = w then some ((t.get? w).elim n (· + n)) else t.get? w :=
    lookup_insertEntry u w n t.sorted
  rw [number, number, h]
  split
  · cases t.get? w <;> simp
  · simp

/-- What entries say of a use, added up. -/
def total (w : Use) (l : List (Use × UInt64)) : Nat :=
  ((l.filter (·.1 == w)).map (·.2.toNat)).sum

/-- No entries have no total. -/
@[simp] lemma total_nil (w : Use) : total w [] = 0 := rfl

/-- One more entry adds its number to the total of its use. -/
lemma total_cons (w : Use) (e : Use × UInt64) (l : List (Use × UInt64)) :
    total w (e :: l) = (if e.1 = w then e.2.toNat else 0) + total w l := by
  by_cases h : e.1 = w <;> simp [total, h]

/-- Adding entry after entry adds up what they say. -/
lemma number_addAll (t : Tally UInt64) (l : List (Use × UInt64)) (w : Use) :
    (t.addAll l).number w = t.number w + UInt64.ofNat (total w l) := by
  induction l generalizing t with
  | nil => simp [addAll]
  | cons e l ih =>
    have hstep : (t.addAll (e :: l)).number w = ((t.add e.1 e.2).addAll l).number w := rfl
    rw [hstep, ih, number_add, total_cons, UInt64.ofNat_add, UInt64.add_assoc]
    congr 2
    split
    · rw [UInt64.ofNat_toNat]
    · rfl

/-- The total of a use no entry speaks of is zero. -/
lemma total_eq_zero {l : List (Use × UInt64)} (h : ∀ e ∈ l, e.1 ≠ w) : total w l = 0 := by
  have hnone : l.filter (·.1 == w) = [] := by
    refine List.filter_eq_nil_iff.2 fun e he => ?_
    simpa using h e he
  rw [total, hnone, List.map_nil, List.sum_nil]

/-- The entries of a tally say of a use what the tally answers. -/
lemma total_entries (t : Tally UInt64) (w : Use) : total w t.entries = (t.number w).toNat := by
  have h : ∀ l : List (Use × UInt64), l.Pairwise Before →
      total w l = ((lookup w l).getD 0).toNat := by
    intro l hl
    induction l with
    | nil => rfl
    | cons e l ih =>
      obtain ⟨he, hl⟩ := List.pairwise_cons.1 hl
      rw [total_cons, lookup_cons]
      by_cases hw : e.1 = w
      · -- No use is named twice.
        have hrest : total w l = 0 := total_eq_zero fun e' he' heq =>
          ne_of_order (he e' he') (by decide) (hw.trans heq.symm)
        rw [if_pos hw, if_pos hw, hrest, Nat.add_zero, Option.getD_some]
      · rw [if_neg hw, if_neg hw, Nat.zero_add, ih hl]
  exact h t.entries t.sorted

end Tally

namespace FeatureVector

variable (v : FeatureVector) (u : Use)

/-- A vector counts a use as its tally does. -/
lemma count_eq : v.count u = v.counts.number u := rfl

/-- Adding uses counts each as often as it is listed. -/
lemma count_addUses (uses : List Use) :
    (v.addUses uses).count u = v.count u + UInt64.ofNat (uses.count u) := by
  induction uses generalizing v with
  | nil => simp [addUses]
  | cons w uses ih =>
    have hstep : (v.addUses (w :: uses)).count u = ((v.add w 1).addUses uses).count u := rfl
    rw [hstep, ih, count_eq, add, Tally.number_add, ← count_eq, List.count_cons, UInt64.ofNat_add,
      UInt64.add_assoc, UInt64.add_comm (UInt64.ofNat _)]
    congr 2
    by_cases hw : w = u <;> simp [hw]

/-- Joining a vector of the buggy file takes over its removed uses, and no others. -/
lemma count_join (b : FeatureVector) :
    (v.join b).count u = v.count u + if u.change = .removed then b.count u else 0 := by
  have hjoin : (v.join b).count u =
      (v.counts.addAll (b.counts.entries.filter fun e => e.1.change == .removed)).number u := rfl
  rw [hjoin, Tally.number_addAll, ← count_eq]
  congr 1
  split
  · next hu =>
    have hsame : Tally.total u (b.counts.entries.filter fun e => e.1.change == .removed) =
        Tally.total u b.counts.entries := by
      simp only [Tally.total, List.filter_filter]
      congr 2
      refine List.filter_congr fun e _ => ?_
      by_cases he : e.1 = u <;> simp [he, hu]
    rw [hsame, Tally.total_entries, UInt64.ofNat_toNat, count_eq]
  · next hu =>
    rw [Tally.total_eq_zero fun e he heq => hu (by simpa [heq] using (List.mem_filter.1 he).2)]
    rfl

end FeatureVector

end Mend
