import Mathlib.Data.List.Nodup
import Mend.DataSet.Metrics
import Mend.Proofs.Feature.Tally

/-!
# What frequencies count

The tally of changed uses holds the changed uses of all vectors, and its number for a use is that of the
vectors that hold it, because no vector holds a use twice (`Tally.times_foldl`). The frequencies are these
entries in another order (`DataSet.mem_frequencies`).
-/

namespace Mend

open Keyword (Use)

namespace Tally

variable {ν : Type}

/-- A tally lists each use once. -/
lemma nodup_uses (t : Tally ν) : t.uses.Nodup :=
  List.pairwise_map.2 (t.sorted.imp fun h => ne_of_order h Ordering.noConfusion)

/-- An entry is what the tally answers for its use. -/
lemma mem_entries_iff (t : Tally ν) (e : Use × ν) : e ∈ t.entries ↔ t.get? e.1 = some e.2 := by
  have hlookup : ∀ l : List (Use × ν), (l.map Prod.fst).Nodup → (e ∈ l ↔ lookup e.1 l = some e.2) := by
    intro l hl
    induction l with
    | nil => exact ⟨nofun, nofun⟩
    | cons e' l ih =>
      obtain ⟨hnew, hl⟩ := List.nodup_cons.1 hl
      rw [lookup_cons, List.mem_cons, ih hl]
      by_cases huse : e'.1 = e.1
      · -- The use of the first entry does not come again.
        have hrest : lookup e.1 l ≠ some e.2 := fun h =>
          hnew (huse ▸ List.mem_map_of_mem ((ih hl).2 h))
        rw [if_pos huse, Option.some.injEq, or_iff_left hrest, Prod.ext_iff]
        exact ⟨fun h => h.2.symm, fun h => ⟨huse.symm, h.symm⟩⟩
      · rw [if_neg huse]
        exact or_iff_right fun h => huse (h ▸ rfl)
  exact hlookup t.entries t.nodup_uses

/-- How often a use was counted; zero for a use that the tally does not hold. -/
def times (t : Tally Nat) (w : Use) : Nat := (t.get? w).getD 0

/-- The number of a use is the one entered. -/
lemma times_of_mem {t : Tally Nat} {e : Use × Nat} (h : e ∈ t.entries) : t.times e.1 = e.2 := by
  rw [times, (mem_entries_iff t e).1 h, Option.getD_some]

/-- Adding counts for the use added and for no other. -/
lemma times_add (t : Tally Nat) (u w : Use) (n : Nat) :
    (t.add u n).times w = t.times w + if u = w then n else 0 := by
  have h : (t.add u n).get? w = if u = w then some ((t.get? w).elim n (· + n)) else t.get? w :=
    lookup_insertEntry u w n t.sorted
  rw [times, times, h]
  split
  · cases t.get? w <;> simp
  · simp

/-- Uses that are counted one after the other. -/
lemma times_addAll (t : Tally Nat) (uses : List Use) (w : Use) :
    (t.addAll (uses.map (·, 1))).times w = t.times w + uses.count w := by
  induction uses generalizing t with
  | nil => rfl
  | cons u uses ih =>
    have hstep : t.addAll ((u :: uses).map (·, 1)) = (t.add u 1).addAll (uses.map (·, 1)) := rfl
    have hbeq : (if (u == w) = true then 1 else 0) = if u = w then 1 else 0 := by simp
    rw [hstep, ih, times_add, List.count_cons, hbeq, Nat.add_assoc, Nat.add_comm (List.count w uses)]

end Tally

namespace DataSet

variable {d : DataSet} {u : Use}

/-- The changed uses that a vector holds. -/
def changedIn (v : FeatureVector) : List Use := v.uses.filter (·.change.isChange)

/-- A changed use of a vector is listed once. -/
lemma count_changedIn (v : FeatureVector) (h : u.change.isChange = true) :
    (changedIn v).count u = if v.uses.contains u then 1 else 0 := by
  have hnodup : (changedIn v).Nodup := v.counts.nodup_uses.filter _
  rw [hnodup.count]
  simp [changedIn, h]

/-- Every vector counts once for each changed use that it holds. -/
lemma times_foldl (vs : List FeatureVector) (t : Tally Nat) (h : u.change.isChange = true) :
    (vs.foldl (fun t v => t.addAll ((changedIn v).map (·, 1))) t).times u =
      t.times u + vs.countP (·.uses.contains u) := by
  induction vs generalizing t with
  | nil => rfl
  | cons v vs ih =>
    rw [List.foldl_cons, ih, t.times_addAll, count_changedIn v h, List.countP_cons, Nat.add_assoc,
      Nat.add_comm (vs.countP _)]

/-- The uses counted are those before and the changed ones of the vectors. -/
lemma mem_uses_foldl (vs : List FeatureVector) (t : Tally Nat) :
    u ∈ (vs.foldl (fun t v => t.addAll ((changedIn v).map (·, 1))) t).uses ↔
      u ∈ t.uses ∨ ∃ v ∈ vs, u ∈ changedIn v := by
  induction vs generalizing t with
  | nil => simp
  | cons v vs ih =>
    have huses : ((changedIn v).map (·, 1)).map Prod.fst = changedIn v := by
      rw [List.map_map]
      exact List.map_id _
    rw [List.foldl_cons, ih, Tally.mem_uses_addAll, huses, or_assoc, List.exists_mem_cons_iff]

/-- The changed uses of a data set are those of its vectors. -/
lemma mem_uses_changedUses (d : DataSet) :
    u ∈ d.changedUses.uses ↔ u.change.isChange = true ∧ ∃ v ∈ d.vectors, u ∈ v.uses := by
  have h : u ∈ d.changedUses.uses ↔ _ := mem_uses_foldl d.vectors .empty
  have hnone : u ∉ (Tally.empty : Tally Nat).uses := List.not_mem_nil
  rw [h, or_iff_right hnone]
  simp only [changedIn, List.mem_filter]
  exact ⟨fun ⟨v, hv, hu, hc⟩ => ⟨hc, v, hv, hu⟩, fun ⟨hc, v, hv, hu⟩ => ⟨v, hv, hu, hc⟩⟩

/-- A changed use is counted once for each vector with it. -/
lemma times_changedUses (d : DataSet) (h : u.change.isChange = true) :
    d.changedUses.times u = d.vectors.countP (·.uses.contains u) :=
  (times_foldl d.vectors .empty h).trans (Nat.zero_add _)

/-- A changed use stands among the frequencies if some vector holds it, with the number of vectors that do. -/
lemma mem_frequencies (d : DataSet) (f : Frequency) :
    f ∈ d.frequencies ↔ f.use.change.isChange = true ∧ (∃ v ∈ d.vectors, f.use ∈ v.uses) ∧
      f.count = d.vectors.countP (·.uses.contains f.use) := by
  have hentry : f ∈ d.frequencies ↔ (f.use, f.count) ∈ d.changedUses.entries := by
    rw [frequencies, List.mem_mergeSort, List.mem_map]
    constructor
    · rintro ⟨e, he, rfl⟩
      exact he
    · exact fun h => ⟨_, h, rfl⟩
  rw [hentry]
  constructor
  · intro he
    obtain ⟨hchange, hsome⟩ := (mem_uses_changedUses d).1 (List.mem_map_of_mem he)
    exact ⟨hchange, hsome, (Tally.times_of_mem he).symm.trans (times_changedUses d hchange)⟩
  · rintro ⟨hchange, hsome, hcount⟩
    obtain ⟨e, he, huse⟩ := List.mem_map.1 ((mem_uses_changedUses d).2 ⟨hchange, hsome⟩)
    have htimes : e.2 = f.count := by
      rw [← Tally.times_of_mem he, huse, hcount, times_changedUses d hchange]
    rwa [← huse, ← htimes]

end DataSet

end Mend
