import Mathlib.Tactic.Lemma
import Mend.Cohort.Basic
import Mend.Proofs.Batch.Gather
import Mend.Proofs.DataSet.Frequency
import Mend.Proofs.Feature.Conservation
import Mend.Proofs.Feature.Exact

/-!
# Cohorts are exact

A filtered data set holds the vectors that the filter accepts, in their order (`DataSet.vectors_filtered`),
and the filter of the cohort of a closed use accepts those that hold the use (`accepts_cohortFilter`). So the
clusterer is handed as many vectors as the frequencies say (`cohorts_exact`). A use with an empty text is not
closed, and its cohort takes in the vectors of other uses (`cohort_of_insertedPackage_empty`).
-/

namespace Mend

open Keyword (Use Extractor)

namespace DataSet

variable {d : DataSet} {u : Use} {f : Filter} {c : Clusterer} {leftOut : List String}

lemma vectors_filtered (d : DataSet) (f : Filter) : (d.filtered f).vectors = d.vectors.filter f.accepts := by
  have hdistinct : ((empty [f] true).ids ++ d.vectors.map (·.id)).Nodup := d.distinct
  have haccepts : (empty [f] true).accepts = f.accepts := by
    funext v
    simp [accepts, empty]
  have h := vectors_addAll_filter hdistinct
  rw [haccepts] at h
  exact h

/-- A vector is accepted that holds a use with the parts of `u`; it need not be `u` where `u` is open. -/
lemma accepts_cohortFilter (u : Use) (v : FeatureVector) :
    (cohortFilter u).accepts v = v.uses.any (KeywordFilter.exact .include u).fits := by
  rw [cohortFilter, Filter.accepts]
  rfl

lemma accepts_cohortFilter_of_isClosed (h : u.IsClosed) (v : FeatureVector) :
    (cohortFilter u).accepts v = v.uses.contains u := by
  rw [accepts_cohortFilter, Bool.eq_iff_iff, List.any_eq_true, List.contains_iff_mem]
  constructor
  · rintro ⟨w, hw, hfits⟩
    exact KeywordFilter.eq_of_fits_exact h hfits ▸ hw
  · exact fun hu => ⟨u, hu, KeywordFilter.fits_exact_self _ u⟩

/-- What is handed to the clusterer for a use. -/
def cohort (d : DataSet) (u : Use) : DataSet := (d.filtered (cohortFilter u)).withoutUnchangedUses

lemma vectors_cohort (d : DataSet) (h : u.IsClosed) :
    (d.cohort u).vectors =
      (d.vectors.filter (·.uses.contains u)).map (·.retain (·.change != .unchanged)) := by
  have haccepts : (cohortFilter u).accepts = (·.uses.contains u) :=
    funext (accepts_cohortFilter_of_isClosed h)
  rw [← haccepts, ← vectors_filtered]
  rfl

/-- Whether the clusterer takes the cohort of a use. -/
def isClustered (d : DataSet) (c : Clusterer) (u : Use) : Bool := ((d.cohort u).cluster c).toBool

lemma clusterFiltered_eq (d : DataSet) (c : Clusterer) (u : Use) :
    d.clusterFiltered (cohortFilter u) c =
      ((d.cohort u).cluster c).map fun labels => (d.cohort u, labels) := by
  rw [clusterFiltered]
  change (do return (d.cohort u, ← (d.cohort u).cluster c)) = _
  cases (d.cohort u).cluster c <;> rfl

/-- What clustering the cohort of one use adds to the report. -/
lemma clusterCohort_cases {r r' : CohortReport} (h : d.clusterCohort c leftOut r u = .ok r') :
    (d.isClustered c u = true ∧ r'.subsets = r.subsets ++ [(u, d.cohort u)] ∧ r'.skipped = r.skipped) ∨
    (d.isClustered c u = false ∧ r'.subsets = r.subsets ∧
      ∃ e, r'.skipped = r.skipped ++ [(u, e)]) := by
  rw [clusterCohort, clusterFiltered_eq] at h
  cases hlabels : (d.cohort u).cluster c with
  | error e =>
    rw [hlabels] at h
    dsimp only [Except.map] at h
    split at h
    · cases h
      exact .inr ⟨by rw [isClustered, hlabels]; rfl, rfl, e, rfl⟩
    · cases h
  | ok labels =>
    rw [hlabels] at h
    refine .inl ⟨by rw [isClustered, hlabels]; rfl, ?_⟩
    dsimp only [Except.map] at h
    split at h
    all_goals cases h
    all_goals exact ⟨rfl, rfl⟩

/-- Every cohort is handed over once and in turn: the report notes it, or that it was skipped. -/
lemma foldlM_clusterCohort {uses : List Use} {r r' : CohortReport}
    (h : uses.foldlM (d.clusterCohort c leftOut) r = .ok r') :
    r'.subsets = r.subsets ++ (uses.filter (d.isClustered c)).map (fun u => (u, d.cohort u)) ∧
    r'.skipped.map Prod.fst = r.skipped.map Prod.fst ++ uses.filter (!d.isClustered c ·) := by
  induction uses generalizing r with
  | nil =>
    cases h
    exact ⟨(List.append_nil _).symm, (List.append_nil _).symm⟩
  | cons u uses ih =>
    rw [List.foldlM_cons] at h
    cases hstep : d.clusterCohort c leftOut r u with
    | error e =>
      rw [hstep] at h
      cases h
    | ok r₁ =>
      rw [hstep] at h
      obtain ⟨hsubsets, hskipped⟩ := ih h
      rw [hsubsets, hskipped]
      obtain ⟨hclustered, h₁, h₂⟩ | ⟨hclustered, h₁, e, h₂⟩ := clusterCohort_cases hstep
      · rw [h₁, h₂]
        simp [hclustered]
      · rw [h₁, h₂]
        simp [hclustered]

/-- The report is that of the run over all cohorts, with its clusters ranked. -/
lemma clusterCohorts_eq_ok {r : CohortReport} (h : d.clusterCohorts c leftOut = .ok r) :
    ∃ run, (d.frequencies.map (·.use)).foldlM (d.clusterCohort c leftOut) .empty = .ok run ∧ r = run.rank := by
  rw [clusterCohorts] at h
  cases hrun : (d.frequencies.map (·.use)).foldlM (d.clusterCohort c leftOut) .empty with
  | error e =>
    rw [hrun] at h
    cases h
  | ok run =>
    rw [hrun] at h
    cases h
    exact ⟨run, rfl, rfl⟩

lemma subsets_clusterCohorts {r : CohortReport} (h : d.clusterCohorts c leftOut = .ok r) :
    r.subsets = ((d.frequencies.map (·.use)).filter (d.isClustered c)).map (fun u => (u, d.cohort u)) ∧
      r.skipped.map Prod.fst = (d.frequencies.map (·.use)).filter (!d.isClustered c ·) := by
  obtain ⟨run, hrun, rfl⟩ := clusterCohorts_eq_ok h
  exact foldlM_clusterCohort hrun

/-- A clusterer that refuses matrices only in a way from which one recovers does not end the run. -/
lemma exists_foldlM_clusterCohort
    (hrecover : ∀ rows e, c.labels rows = .error e → e.isRecoverable = true) (uses : List Use)
    (r : CohortReport) : ∃ r', uses.foldlM (d.clusterCohort c leftOut) r = .ok r' := by
  induction uses generalizing r with
  | nil => exact ⟨r, rfl⟩
  | cons u uses ih =>
    have hstep : ∃ r₁, d.clusterCohort c leftOut r u = .ok r₁ := by
      rw [clusterCohort, clusterFiltered_eq]
      cases hlabels : (d.cohort u).cluster c with
      | error e => exact ⟨_, if_pos (hrecover _ e hlabels)⟩
      | ok labels => exact ⟨_, rfl⟩
    obtain ⟨r₁, h₁⟩ := hstep
    rw [List.foldlM_cons, h₁]
    exact ih r₁

lemma exists_clusterCohorts (d : DataSet) (leftOut : List String)
    (hrecover : ∀ rows e, c.labels rows = .error e → e.isRecoverable = true) :
    ∃ r, d.clusterCohorts c leftOut = .ok r := by
  obtain ⟨run, hrun⟩ := exists_foldlM_clusterCohort hrecover (d.frequencies.map (·.use)) .empty
  exact ⟨run.rank, by rw [clusterCohorts, hrun]; rfl⟩

/-- The filter of a cohort fits its use and no other just if no part of the use is open; in a program only
the texts can be. For such a use the clusterer is handed the vectors that hold it, in their order, and these
are as many as the frequencies say. -/
theorem cohorts_exact (d : DataSet) (c : Clusterer) (leftOut : List String) :
    (∀ mode u, (∀ w, (KeywordFilter.exact mode u).fits w = true ↔ w = u) ↔ u.IsClosed) ∧
    (∀ (x : Extractor) change i, ∀ u ∈ x.usesAt change i,
      u.IsClosed ↔ change ≠ .unknown ∧ u.api ≠ "" ∧ u.keyword ≠ "") ∧
    (∀ f, f ∈ d.frequencies ↔ f.use.change.isChange = true ∧ (∃ v ∈ d.vectors, f.use ∈ v.uses) ∧
      f.count = d.vectors.countP (·.uses.contains f.use)) ∧
    (∀ f ∈ d.frequencies, f.use.IsClosed → (d.cohort f.use).size = f.count ∧
      (d.cohort f.use).vectors =
        (d.vectors.filter (·.uses.contains f.use)).map (·.retain (·.change != .unchanged))) ∧
    (∀ r, d.clusterCohorts c leftOut = .ok r →
      r.subsets = ((d.frequencies.map (·.use)).filter (d.isClustered c)).map (fun u => (u, d.cohort u)) ∧
      r.skipped.map Prod.fst = (d.frequencies.map (·.use)).filter (!d.isClustered c ·)) ∧
    ((∀ rows e, c.labels rows = .error e → e.isRecoverable = true) →
      ∃ r, d.clusterCohorts c leftOut = .ok r) := by
  refine ⟨KeywordFilter.fits_exact_iff, fun x change i u => Extractor.isClosed_iff_of_mem_usesAt,
    d.mem_frequencies, fun f hf hclosed => ?_, fun r h => ?_, d.exists_clusterCohorts leftOut⟩
  · have hvectors := d.vectors_cohort hclosed
    refine ⟨?_, hvectors⟩
    rw [size, hvectors, List.length_map, ← List.countP_eq_length_filter]
    exact ((d.mem_frequencies f).1 hf).2.2.symm
  · exact subsets_clusterCohorts h

/-- A data set whose vectors hold one use each. -/
def ofUses (uses : List Use) : DataSet :=
  (empty [] false).addAll
    (uses.zipIdx.map fun (u, i) => (FeatureVector.blank (UInt64.ofNat i) .empty "f").add u 1)

/-- The keyword of a statement that a repair put in. -/
def insertedThrow : Use := ⟨.reserved, .statement, .inserted, Keyword.globalApi, "throw"⟩

/-- The keyword of a package that a repair put in. -/
def insertedPackage (name : String) : Use := ⟨.package, .expression, .inserted, name, name⟩

/-- Gives all rows the same label. -/
def together : Clusterer := ⟨"together", fun rows => .ok (rows.map fun _ => 0)⟩

/-- Of three vectors two hold the keyword, and the clusterer is handed these two. -/
theorem cohorts_exact_insertedThrow :
    let d := ofUses [insertedThrow, insertedPackage "fs", insertedThrow]
    let x : Extractor := ⟨Analysis.throwing.read false, .empty⟩
    insertedThrow ∈ x.usesAt .inserted 1 ∧ insertedThrow.IsClosed ∧
      ⟨insertedThrow, 2⟩ ∈ d.frequencies ∧ (d.cohort insertedThrow).size = 2 ∧
      ∃ r, d.clusterCohorts together [] = .ok r ∧
        (insertedThrow, d.cohort insertedThrow) ∈ r.subsets := by
  intro d x
  obtain ⟨-, hprogram, hfrequencies, hclosed, hsubsets, hok⟩ := cohorts_exact d together []
  have huse : insertedThrow ∈ x.usesAt .inserted 1 := by decide +kernel
  have hthrow : insertedThrow.IsClosed := (hprogram x .inserted 1 _ huse).2 (by decide)
  have hfrequency : ⟨insertedThrow, 2⟩ ∈ d.frequencies := (hfrequencies _).2 (by decide +kernel)
  obtain ⟨r, hr⟩ := hok nofun
  refine ⟨huse, hthrow, hfrequency, (hclosed _ hfrequency hthrow).1, r, hr, ?_⟩
  rw [(hsubsets r hr).1]
  exact List.mem_map_of_mem (List.mem_filter.2 ⟨List.mem_map_of_mem hfrequency, rfl⟩)

/-- The name of a package may be empty, and the filter with the parts of this use fits every package. -/
theorem cohort_of_insertedPackage_empty :
    let d := ofUses [insertedPackage "", insertedPackage "fs"]
    ⟨insertedPackage "", 1⟩ ∈ d.frequencies ∧ (d.cohort (insertedPackage "")).size = 2 ∧
      (KeywordFilter.exact .include (insertedPackage "")).fits (insertedPackage "fs") = true ∧
      insertedPackage "fs" ≠ insertedPackage "" := by
  refine ⟨(mem_frequencies _ _).2 ?_, ?_, ?_, ?_⟩
  · decide +kernel
  · decide +kernel
  · decide +kernel
  · decide

end DataSet

end Mend
