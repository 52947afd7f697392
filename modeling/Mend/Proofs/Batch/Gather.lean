import Mathlib.Data.List.Induction
import Mathlib.Data.List.Nodup
import Mend.Batch.Report

/-!
# Gathering results

The findings of a batch are those of its pairs, each where it comes first
(`Findings.toList_registerAll`). Its vectors are those of its pairs, if the data set accepts them and no two
have the same number (`DataSet.vectors_addAll`). What a report comes to after any results is put together
from these two (`BatchReport.foldl_record`).
-/

namespace Mend

section EraseDups

variable {α : Type} [BEq α] [LawfulBEq α] {l : List α}

/-- A list without repetition is left alone. -/
lemma eraseDups_of_nodup (h : l.Nodup) : l.eraseDups = l := by
  induction l with
  | nil => rfl
  | cons x l ih =>
    obtain ⟨hx, hl⟩ := List.nodup_cons.1 h
    have hkeep : l.filter (fun y => !y == x) = l := by
      refine List.filter_eq_self.2 fun y hy => ?_
      have hne : y ≠ x := fun heq => hx (heq ▸ hy)
      simpa using hne
    rw [List.eraseDups_cons, hkeep, ih hl]

/-- One more element is kept iff it was not there. -/
lemma eraseDups_append_singleton {x : α} :
    (l ++ [x]).eraseDups = if l.contains x then l.eraseDups else l.eraseDups ++ [x] := by
  by_cases hx : x ∈ l <;> simp [List.eraseDups_append, List.eraseDups_cons, List.removeAll, hx]

/-- What is left holds nothing twice. -/
lemma nodup_eraseDups (l : List α) : l.eraseDups.Nodup := by
  induction l using List.reverseRecOn with
  | nil => exact .nil
  | append_singleton l x ih =>
    rw [eraseDups_append_singleton]
    split
    · exact ih
    · next hnew =>
      refine List.nodup_append.2 ⟨ih, List.nodup_singleton x, fun y hy z hz heq => hnew ?_⟩
      rw [List.contains_iff_mem, ← List.mem_singleton.1 hz, ← heq]
      exact List.mem_eraseDups.1 hy

end EraseDups

namespace Findings

/-- A finding is registered behind the others unless it was there. -/
lemma toList_register (s : Findings) (f : Finding) :
    (s.register f).toList = if s.toList.contains f then s.toList else s.toList ++ [f] := by
  rw [register]
  split
  · next h => exact (if_pos h).symm
  · next h => exact (if_neg h).symm

/-- Findings are registered one list after the other. -/
lemma registerAll_append (s : Findings) (fs gs : List Finding) :
    s.registerAll (fs ++ gs) = (s.registerAll fs).registerAll gs := List.foldl_append

/-- Findings that are registered one after the other stay where they come first. -/
lemma toList_registerAll (s : Findings) (fs : List Finding) :
    (s.registerAll fs).toList = (s.toList ++ fs).eraseDups := by
  induction fs using List.reverseRecOn with
  | nil =>
    rw [List.append_nil, eraseDups_of_nodup s.nodup]
    rfl
  | append_singleton fs f ih =>
    have hstep : s.registerAll (fs ++ [f]) = (s.registerAll fs).register f := registerAll_append s fs [f]
    have hcontains : (s.toList ++ fs).eraseDups.contains f = (s.toList ++ fs).contains f := by
      rw [Bool.eq_iff_iff, List.contains_iff_mem, List.contains_iff_mem, List.mem_eraseDups]
    rw [hstep, toList_register, ih, hcontains, ← List.append_assoc, eraseDups_append_singleton]

end Findings

namespace DataSet

variable {d : DataSet} {v : FeatureVector}

/-- Adding a vector changes nothing about which are accepted. -/
lemma accepts_add (d : DataSet) (v : FeatureVector) : (d.add v).accepts = d.accepts := by
  funext w
  rw [add]
  split <;> rfl

/-- Vectors are added one list after the other. -/
lemma addAll_append (d : DataSet) (vs ws : List FeatureVector) :
    d.addAll (vs ++ ws) = (d.addAll vs).addAll ws := List.foldl_append

/-- Of vectors with different numbers those are taken in that the data set accepts. -/
lemma vectors_addAll_filter {vs : List FeatureVector} (hdistinct : (d.ids ++ vs.map (·.id)).Nodup) :
    (d.addAll vs).vectors = d.vectors ++ vs.filter d.accepts := by
  induction vs generalizing d with
  | nil => exact (List.append_nil _).symm
  | cons v vs ih =>
    have hnew : v.id ∉ d.ids := fun hmem =>
      (List.nodup_append.1 hdistinct).2.2 v.id hmem v.id List.mem_cons_self rfl
    have hadmits : d.admits v = d.accepts v := by
      rw [admits, List.contains_eq_mem, decide_eq_false hnew, Bool.not_false, Bool.and_true]
    have hstep : d.addAll (v :: vs) = (d.add v).addAll vs := rfl
    cases haccepts : d.accepts v with
    | true =>
      have hadd : (d.add v).vectors = d.vectors ++ [v] := by rw [add, dif_pos (hadmits.trans haccepts)]
      have hids : (d.add v).ids ++ vs.map (·.id) = d.ids ++ (v :: vs).map (·.id) := by
        rw [ids, hadd, List.map_append, List.append_assoc]
        rfl
      rw [hstep, ih (hids ▸ hdistinct), hadd, accepts_add, List.filter_cons_of_pos haccepts,
        List.append_assoc, List.singleton_append]
    | false =>
      have hrefused : ¬ d.accepts v = true := by rw [haccepts]; exact Bool.false_ne_true
      have hadd : d.add v = d := by rw [add, dif_neg (by rwa [hadmits])]
      rw [hstep, hadd, List.filter_cons_of_neg hrefused]
      exact ih (hdistinct.sublist ((List.sublist_cons_self _ _).append_left _))

/-- Vectors that the data set accepts are all taken in, if no two have the same number. -/
lemma vectors_addAll {vs : List FeatureVector} (haccepts : ∀ v ∈ vs, d.accepts v = true)
    (hdistinct : (d.ids ++ vs.map (·.id)).Nodup) : (d.addAll vs).vectors = d.vectors ++ vs := by
  rw [vectors_addAll_filter hdistinct, List.filter_eq_self.2 haccepts]

end DataSet

namespace PairOutcome

/-- What was found in a pair. -/
def findings : PairOutcome → List Finding
  | analyzed _ findings _ => findings.toList
  | skipped _ _ => []

/-- The vectors of a pair that are kept. -/
def vectors : PairOutcome → List FeatureVector
  | analyzed _ _ vectors => vectors
  | skipped _ _ => []

/-- Which pair was skipped, and why. -/
def skip? : PairOutcome → Option (Provenance × Failure)
  | analyzed _ _ _ => none
  | skipped provenance reason => some (provenance, reason)

end PairOutcome

/-- What a report comes to after results for pairs. -/
lemma BatchReport.foldl_record (outcomes : List PairOutcome) (r : BatchReport) :
    outcomes.foldl record r =
      ⟨r.findings.registerAll (outcomes.flatMap (·.findings)),
        r.dataSet.addAll (outcomes.flatMap (·.vectors)),
        r.analyzed + outcomes.countP (·.skip?.isNone),
        r.skipped ++ outcomes.filterMap PairOutcome.skip?⟩ := by
  induction outcomes generalizing r with
  | nil => simp [Findings.registerAll, DataSet.addAll]
  | cons outcome outcomes ih =>
    rw [List.foldl_cons, ih, List.flatMap_cons, List.flatMap_cons, Findings.registerAll_append,
      DataSet.addAll_append, List.countP_cons]
    cases outcome with
    | analyzed provenance findings vectors =>
      have hskip : PairOutcome.skip? (.analyzed provenance findings vectors) = none := rfl
      have hstep : r.record (.analyzed provenance findings vectors) =
          ⟨r.findings.registerAll findings.toList, r.dataSet.addAll vectors, r.analyzed + 1, r.skipped⟩ :=
        rfl
      rw [hstep, List.filterMap_cons_none hskip, hskip, Option.isNone_none, if_pos rfl, Nat.add_assoc,
        Nat.add_comm 1]
      rfl
    | skipped provenance reason =>
      have hskip : PairOutcome.skip? (.skipped provenance reason) = some (provenance, reason) := rfl
      have hstep : r.record (.skipped provenance reason) =
          ⟨r.findings, r.dataSet, r.analyzed, r.skipped ++ [(provenance, reason)]⟩ := rfl
      rw [hstep, List.filterMap_cons_some hskip,
        List.append_cons r.skipped (provenance, reason) (outcomes.filterMap _)]
      rfl

/-- Outcomes are skipped or not. -/
lemma countP_add_length_skipped (outcomes : List PairOutcome) :
    outcomes.countP (·.skip?.isNone) + (outcomes.filterMap PairOutcome.skip?).length =
      outcomes.length := by
  induction outcomes with
  | nil => rfl
  | cons outcome outcomes ih =>
    rw [List.countP_cons, List.length_cons]
    cases h : outcome.skip? with
    | none =>
      rw [List.filterMap_cons_none h]
      simp only [Option.isNone_none, if_true]
      omega
    | some skip =>
      rw [List.filterMap_cons_some h, List.length_cons]
      simp only [Option.isNone_some, Bool.false_eq_true, if_false]
      omega

end Mend
