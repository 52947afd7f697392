import Mend.Batch.Report
import Mend.Proofs.Comparison
import Mend.Proofs.Feature.Tally
import Mend.Proofs.Keyword.Uses
import Mend.Proofs.Matching.Unchanged
import Mend.Proofs.Syntax.Placeless
import Mend.Proofs.Syntax.Reading

/-!
# Nothing changed, nothing reported

Detectors report what a repair inserted, and vectors take removed uses from the buggy file. Where every node
of a comparison is unchanged (`Analysis.Untouched`), the detectors have nothing to report
(`Untouched.collect_all`), and all uses of all vectors are unchanged (`Untouched.change_of_mem_uses`). Two
texts of one tree, places and roles apart, come out so (`analyzePair_of_sameOutline`).
-/

namespace Mend

open Digest (TellsApart)
open Keyword (Registry Use usesOf)
open Matching (Trees classifiedBy)
open Syntax (Ast Source)

/-- A node with a change is one of the revision. -/
lemma Revision.lt_size_of_change {r : Revision} {i : Nat} (h : r.change i ≠ .unknown) :
    i < r.changes.size := by
  by_contra hi
  exact h (by rw [change, Array.getElem?_eq_none (Nat.le_of_not_lt hi)]; rfl)

namespace FeatureVector

variable {v b : FeatureVector} {u : Use} {uses : List Use}

/-- Adding uses adds those uses. -/
lemma mem_uses_addUses : u ∈ (v.addUses uses).uses ↔ u ∈ v.uses ∨ u ∈ uses := by
  induction uses generalizing v with
  | nil => simp [addUses]
  | cons w uses ih =>
    have hadd : u ∈ (v.add w 1).uses ↔ u = w ∨ u ∈ v.uses :=
      Tally.mem_insertEntry w u 1 v.counts.entries
    change u ∈ ((v.add w 1).addUses uses).uses ↔ _
    rw [ih, hadd, List.mem_cons]
    exact or_assoc.trans or_left_comm

/-- Only removed uses are taken over from the buggy file. -/
lemma mem_uses_join (h : u ∈ (v.join b).uses) : u ∈ v.uses ∨ u ∈ b.uses ∧ u.change = .removed := by
  rcases (Tally.mem_uses_addAll _ _ u).1 h with h | h
  · exact .inl h
  · obtain ⟨e, he, rfl⟩ := List.mem_map.1 h
    obtain ⟨hmem, hchange⟩ := List.mem_filter.1 he
    exact .inr ⟨List.mem_map_of_mem hmem, beq_iff_eq.1 hchange⟩

end FeatureVector

namespace Analysis

variable {x : Analysis}

/-- A comparison in which every node of either side is unchanged. -/
structure Untouched (x : Analysis) : Prop where
  buggy : ∀ s < x.comparison.buggy.size, x.comparison.buggy.change s = .unchanged
  repaired : ∀ d < x.comparison.repaired.size, x.comparison.repaired.change d = .unchanged
  fits : x.comparison.repaired.changes.size = x.comparison.repaired.size

namespace Untouched

variable (h : x.Untouched)

include h

/-- Nothing is inserted. -/
lemma not_inserted (i : Nat) : (x.comparison.repaired.change i == .inserted) = false := by
  by_contra hi
  have hi : x.comparison.repaired.change i = .inserted := by simpa using hi
  have hsize := Revision.lt_size_of_change (r := x.comparison.repaired) (i := i) (by rw [hi]; decide)
  rw [h.repaired i (h.fits ▸ hsize)] at hi
  cases hi

/-! ### Findings -/

/-- Nothing is newly protected. -/
lemma newlyProtected (old new : Nat) : Detector.newlyProtected x old new = [] := by
  simp [Detector.newlyProtected, h.not_inserted]

/-- Nothing is newly called. -/
lemma newlyCalled (new : Nat) : Detector.newlyCalled x new = [] := by
  have hcalls : ∀ function callback, Detector.insertedCalls x function callback = [] := by
    intro function callback
    unfold Detector.insertedCalls
    dsimp only
    split
    · rfl
    · refine List.filter_eq_nil_iff.2 fun i _ => ?_
      simp [Detector.isInsertedCallOf, h.not_inserted]
  unfold Detector.newlyCalled
  dsimp only
  simp only [hcalls]
  split
  · rfl
  · split
    · split <;> rfl
    · rfl

/-- Nothing is newly guarded. -/
lemma newlyGuarded (new : Nat) : Detector.newlyGuarded x new = [] := by
  simp [Detector.newlyGuarded, Detector.testsAnything, h.not_inserted]

/-- No detector finds anything. -/
lemma foundAt_all (pair : ScopePair) : x.foundAt Detector.all pair = [] := by
  have hprotected : Detector.errorHandling.inScopes x pair = [] := by
    unfold Detector.errorHandling
    dsimp only
    split
    · exact h.newlyProtected _ _
    · rfl
  have hcalled : Detector.callbackError.inScopes x pair = [] := by
    unfold Detector.callbackError
    dsimp only
    split
    · exact h.newlyCalled _
    · rfl
  have hguarded : Detector.specialValue.inScopes x pair = [] := by
    unfold Detector.specialValue
    dsimp only
    split
    · exact h.newlyGuarded _
    · rfl
  have hscopes : (Detector.all.flatMap fun d => d.inScopes x pair) = [] := by
    rw [Detector.all, List.flatMap_cons, List.flatMap_cons, List.flatMap_cons, hprotected, hcalled, hguarded]
    rfl
  -- None of the three looks at single nodes.
  exact List.append_eq_nil_iff.2 ⟨hscopes, List.flatMap_eq_nil_iff.2 fun _ _ => rfl⟩

/-- There is nothing to report. -/
lemma collect_all (found : Findings) : x.collect Detector.all found = found := by
  have hstep : ∀ pair, found.registerAll (x.foundAt Detector.all pair) = found := fun pair => by
    rw [h.foundAt_all]
    rfl
  rw [collect]
  exact List.foldl_fixed' hstep _

/-! ### Vectors -/

/-- Every use is unchanged. -/
lemma change_of_mem_usesIn {side : Side} {registry : Registry} {scope : Nat} {u : Use}
    (hu : u ∈ x.usesIn side registry scope) : u.change = .unchanged := by
  obtain ⟨i, hi, hchange⟩ := Keyword.exists_change_of_mem_usesOf hu
  rw [hchange]
  cases side with
  | buggy => exact h.buggy i hi
  | repaired => exact h.repaired i hi

/-- Adopting functions keeps every use unchanged. -/
lemma change_of_mem_foldl_adopt {registry : Registry} {olds : List Nat} {v : FeatureVector}
    (hv : ∀ u ∈ v.uses, u.change = .unchanged) :
    ∀ u ∈ (olds.foldl (x.adopt registry) v).uses, u.change = .unchanged := by
  induction olds generalizing v with
  | nil => exact hv
  | cons old olds ih =>
    refine ih fun u hu => ?_
    rcases FeatureVector.mem_uses_join hu with hu | ⟨hu, -⟩
    · exact hv u hu
    · rcases FeatureVector.mem_uses_addUses.1 hu with hu | hu
      · cases hu
      · exact h.change_of_mem_usesIn hu

/-- All uses of all vectors are unchanged. -/
lemma change_of_mem_uses {ids : IdSource} {v : FeatureVector} (hv : v ∈ (x.vectors ids).1) :
    ∀ u ∈ v.uses, u.change = .unchanged := by
  obtain ⟨new, -, rfl⟩ := List.mem_map.1 hv
  refine h.change_of_mem_foldl_adopt fun u hu => ?_
  rcases FeatureVector.mem_uses_addUses.1 hu with hu | hu
  · cases hu
  · exact h.change_of_mem_usesIn hu

/-- The vectors are all kept when unchanged ones are asked for, and none otherwise. -/
lemma filter_vectors (ids : IdSource) (includesUnchanged : Bool) :
    ((x.vectors ids).1.filter fun v => includesUnchanged || v.hasChanges) =
      if includesUnchanged then (x.vectors ids).1 else [] := by
  cases includesUnchanged with
  | true => exact List.filter_eq_self.2 fun _ _ => rfl
  | false =>
    refine List.filter_eq_nil_iff.2 fun v hv => ?_
    have hnone : v.hasChanges = false := by
      refine List.any_eq_false.2 fun u hu => ?_
      rw [h.change_of_mem_uses hv u hu]
      decide
    simp [hnone]

end Untouched

end Analysis

/-- Programs that agree in kinds, labels and children are classified without a change. -/
lemma Analysis.untouched_of_outline_eq {a b : Ast} (p : Provenance) (ha : a.IsArena)
    (htell : TellsApart a b) (ho : a.outline = b.outline) :
    (of p (.ofClassified (classifiedBy a b (Trees.of a b).matching))).Untouched where
  buggy s hs := by
    have hpair := fun s hs => Trees.toRepaired?_matching ha htell ho (s := s) hs
    refine (Matching.buggy_change_classifiedBy a b _ hs).trans ?_
    rw [hpair s hs]
    exact Matching.pairChange_of_outline_eq ho hpair hs
  repaired d hd := by
    have hpair := fun s hs => Trees.toRepaired?_matching ha htell ho (s := s) hs
    have hs : d < a.size := Ast.size_congr ho ▸ hd
    refine (Matching.repaired_change_classifiedBy a b _ hd).trans ?_
    rw [(Matching.toRepaired?_eq_some_iff _).1 (hpair d hs)]
    exact Matching.pairChange_of_outline_eq ho hpair hs
  fits := by
    change ((Array.range b.size).map _).size = b.size
    rw [Array.size_map, Array.size_range]

/-- Two texts whose trees agree in kinds, labels and children are analysed, without a finding and without a
changed use in any vector, so that vectors are kept only on request. -/
theorem analyzePair_of_sameOutline {o : AnalysisOptions} {p : FilePair} {a b : Ast} (ids : IdSource)
    (hbuggy : Text.isBlankText p.buggy.text = false) (hrepaired : Text.isBlankText p.repaired.text = false)
    (ha : p.buggy.parse .buggy o.simplify = .ok a) (hb : p.repaired.parse .repaired o.simplify = .ok b)
    (hsame : a.SameOutline b) (htell : TellsApart a b) :
    ∃ c, compare o.simplify p.buggy p.repaired = .ok c ∧
      analyzePair o p ids =
        .ok (.analyzed p.provenance .empty
            (if o.includesUnchanged then ((Analysis.of p.provenance c).vectors ids).1 else []),
          ((Analysis.of p.provenance c).vectors ids).2) ∧
      ∀ v ∈ ((Analysis.of p.provenance c).vectors ids).1, ∀ u ∈ v.uses, u.change = .unchanged := by
  obtain ⟨hfault, rfl⟩ := Source.parse_eq_ok ha
  obtain ⟨hfault', rfl⟩ := Source.parse_eq_ok hb
  have harena := Syntax.isArena_read p.buggy o.simplify
  have ho := hsame.outline_eq harena (Syntax.isArena_read p.repaired o.simplify)
  have hx := Analysis.untouched_of_outline_eq p.provenance harena htell ho
  have hc : compare o.simplify p.buggy p.repaired = _ := compare_eq hbuggy hrepaired hfault hfault'
  rw [Matching.classify_eq htell] at hc
  refine ⟨_, hc, ?_, fun v hv => hx.change_of_mem_uses hv⟩
  rw [analyzePair, hc]
  simp only [Except.map, Analysis.outcome, hx.collect_all, hx.filter_vectors]
  rfl

/-- Two blanks in place of one. -/
def respaced : FilePair :=
  ⟨.empty, .statement "throw_statement" "throw e" 6, .statement "throw_statement" "throw  e" 7⟩

/-- Another blank before the name of what is thrown is nothing to report. -/
theorem analyzePair_of_sameOutline_respaced :
    Text.isBlankText respaced.buggy.text = false ∧ Text.isBlankText respaced.repaired.text = false ∧
      ∃ a b, respaced.buggy.parse .buggy false = .ok a ∧
        respaced.repaired.parse .repaired false = .ok b ∧ a.SameOutline b ∧ TellsApart a b ∧
        ∃ c, compare false respaced.buggy respaced.repaired = .ok c ∧
          analyzePair {} respaced .start =
            .ok (.analyzed .empty .empty [], ((Analysis.of .empty c).vectors .start).2) := by
  have hbuggy : Text.isBlankText respaced.buggy.text = false := by decide
  have hrepaired : Text.isBlankText respaced.repaired.text = false := by decide
  have hsame : (respaced.buggy.read false).SameOutline (respaced.repaired.read false) :=
    Ast.sameOutline_of_outline_eq (by decide +kernel)
  have htell : TellsApart (respaced.buggy.read false) (respaced.repaired.read false) := by decide +kernel
  have h : ∃ c, compare false respaced.buggy respaced.repaired = .ok c ∧ _ :=
    analyzePair_of_sameOutline (o := {}) .start hbuggy hrepaired rfl rfl hsame htell
  obtain ⟨c, hc, hp, -⟩ := h
  exact ⟨hbuggy, hrepaired, _, _, rfl, rfl, hsame, htell, c, hc, hp⟩

end Mend
