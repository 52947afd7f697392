import Mend.Command.RunDataSet
import Mend.Proofs.DataSet.Metrics

/-!
# Reports account for every cohort

Of each changed use the report says what the labels of its cohort make of it (`DataSet.listed?`) or why its
cohort was refused (`DataSet.refusal?`), and neither depends on any other use: the report is put together
from these, use by use (`DataSet.exists_clusterCohorts_eq`). So one can read off it which uses are listed and
which are skipped, and a cohort that is refused leaves the others as they are (`clusterCohorts_accounts`).

What is counted and gathered on the way stays in step with the clusters that came in: the number of vectors of a
cohort (`Clusters.InStep`) and the clusters to be ranked (`CohortReport.InStep`).
-/

namespace Mend

open Keyword (Use)

/-- What is made of some members, each told by its key, comes in the order of the members. -/
lemma sublist_map_filterMap {α β : Type} {f : α → Option β} {key : β → α}
    (hkey : ∀ a b, f a = some b → key b = a) (l : List α) : ((l.filterMap f).map key).Sublist l := by
  induction l with
  | nil => exact .slnil
  | cons a l ih =>
    rw [List.filterMap_cons]
    cases ha : f a with
    | none => exact ih.cons a
    | some b =>
      rw [List.map_cons, hkey a b ha]
      exact ih.cons_cons a

namespace Clusters

variable {cs : Clusters}

/-- The number that is kept is that of the vectors that the clusters hold together. -/
def InStep (cs : Clusters) : Prop := cs.total = (cs.list.map (·.instances)).sum

/-- The empty list is in step with its total. -/
lemma inStep_empty : empty.InStep := rfl

/-- A cluster that is added adds its vectors to the number. -/
lemma InStep.add (h : cs.InStep) (k : Cluster) : (cs.add k).InStep := by
  rw [InStep, Clusters.add, List.map_append, List.sum_append, h, List.map_singleton, List.sum_singleton]

/-- Adding clusters one by one keeps the list and its total in step. -/
lemma InStep.foldl_add (h : cs.InStep) (l : List Cluster) : (l.foldl Clusters.add cs).InStep := by
  induction l generalizing cs with
  | nil => exact h
  | cons k l ih => exact ih (h.add k)

/-- Clusters are added at the end, in the order given. -/
lemma list_foldl_add (cs : Clusters) (l : List Cluster) : (l.foldl Clusters.add cs).list = cs.list ++ l := by
  induction l generalizing cs with
  | nil => exact (List.append_nil _).symm
  | cons k l ih => rw [List.foldl_cons, ih, Clusters.add, List.append_assoc, List.singleton_append]

/-- A list filled step by step holds exactly the clusters given. -/
@[simp] lemma list_ofList (l : List Cluster) : (ofList l).list = l := list_foldl_add empty l

/-- The total of a list filled step by step is the sum of its instances. -/
lemma total_ofList (l : List Cluster) : (ofList l).total = (l.map (·.instances)).sum := by
  have hstep := inStep_empty.foldl_add l
  rwa [InStep, list_foldl_add] at hstep

end Clusters

namespace Cohort

variable {u : Use} {labels : List Int} {k : Cluster}

/-- The labels but for noise, each once. -/
def numbers (labels : List Int) : List Int := ((labels.filter (· != Clusterer.noise)).mergeSort).eraseDups

/-- The numbers of a labelling are its labels other than noise. -/
lemma mem_numbers {n : Int} : n ∈ numbers labels ↔ n ∈ labels ∧ n ≠ Clusterer.noise := by
  rw [numbers, List.mem_eraseDups, List.mem_mergeSort, List.mem_filter, bne_iff_ne]

/-- Each number of a labelling is taken once. -/
lemma nodup_numbers (labels : List Int) : (numbers labels).Nodup := nodup_eraseDups _

/-- A cohort has one cluster for each number, with as many instances as rows carry it. -/
lemma clusters_ofLabels (u : Use) (labels : List Int) :
    (ofLabels u labels).clusters = (numbers labels).map fun n => ⟨u, n, labels.count n⟩ :=
  Clusters.list_ofList _

/-- The clusters of a cohort, told from its labels. -/
lemma mem_clusters_ofLabels : k ∈ (ofLabels u labels).clusters ↔
    k.use = u ∧ k.id ∈ labels ∧ k.id ≠ Clusterer.noise ∧ k.instances = labels.count k.id := by
  rw [clusters_ofLabels, List.mem_map]
  constructor
  · rintro ⟨n, hn, rfl⟩
    obtain ⟨hmem, hnoise⟩ := mem_numbers.1 hn
    exact ⟨rfl, hmem, hnoise, rfl⟩
  · rintro ⟨rfl, hmem, hnoise, hcount⟩
    refine ⟨k.id, mem_numbers.2 ⟨hmem, hnoise⟩, ?_⟩
    rw [← hcount]

/-- No two clusters of a cohort share a number. -/
lemma nodup_clusters_ofLabels (u : Use) (labels : List Int) :
    ((ofLabels u labels).clusters.map (·.id)).Nodup := by
  rw [clusters_ofLabels, List.map_map]
  exact (List.map_id (numbers labels)).symm ▸ nodup_numbers labels

/-- Every row but those of noise is counted once. -/
lemma total_ofLabels (u : Use) (labels : List Int) :
    (ofLabels u labels).total = labels.countP (· != Clusterer.noise) := by
  have hperm : (numbers labels).Perm (labels.dedup.filter (· != Clusterer.noise)) := by
    refine (List.perm_ext_iff_of_nodup (nodup_numbers labels) (labels.nodup_dedup.filter _)).2 fun n => ?_
    rw [mem_numbers, List.mem_filter, List.mem_dedup, bne_iff_ne]
  have htotal : (ofLabels u labels).total = ((numbers labels).map (labels.count ·)).sum := by
    refine (Clusters.total_ofList _).trans ?_
    rw [List.map_map]
    rfl
  rw [htotal, (hperm.map _).sum_eq, List.sum_map_count_dedup_filter_eq_countP]

/-- A cohort has a cluster iff some row is not noise. -/
lemma isEmpty_clusters_ofLabels (u : Use) (labels : List Int) :
    (ofLabels u labels).clusters.isEmpty = false ↔ ∃ n ∈ labels, n ≠ Clusterer.noise := by
  rw [Bool.eq_false_iff, Ne, List.isEmpty_iff, clusters_ofLabels, List.map_eq_nil_iff,
    List.eq_nil_iff_forall_not_mem, not_forall]
  simp only [mem_numbers, not_not]

/-- The clusters of a cohort are those that the labels of its vectors make. -/
structure Tallies (k : Cohort) (labels : List Int) : Prop where
  /-- There is a cluster for each label but noise, with the number of vectors that have it. -/
  mem_clusters : ∀ l, l ∈ k.clusters ↔
    l.use = k.use ∧ l.id ∈ labels ∧ l.id ≠ Clusterer.noise ∧ l.instances = labels.count l.id
  nodup : (k.clusters.map (·.id)).Nodup
  /-- Every vector counts once, unless it is noise. -/
  total_eq : k.total = labels.countP (· != Clusterer.noise)

/-- A cohort built from labels tallies them. -/
lemma tallies_ofLabels (u : Use) (labels : List Int) : (ofLabels u labels).Tallies labels where
  mem_clusters _ := mem_clusters_ofLabels
  nodup := nodup_clusters_ofLabels u labels
  total_eq := total_ofLabels u labels

end Cohort

/-- Clusters are ranked by their instances and then by their text. -/
lemma Cluster.precedes_iff (k l : Cluster) :
    k.precedes l = true ↔ RanksBefore (·.instances) (·.text) k l := by
  simp [precedes, RanksBefore]

namespace CohortReport

variable {r : CohortReport}

/-- The clusters that are kept are those of the cohorts that are kept. -/
def InStep (r : CohortReport) : Prop := r.ranked = r.cohorts.flatMap (·.clusters)

/-- The empty report is in step. -/
lemma inStep_empty : empty.InStep := rfl

/-- Adding a cohort keeps the ranking in step with the cohorts. -/
lemma InStep.addCohort (h : r.InStep) (k : Cohort) : (r.addCohort k).InStep := by
  rw [InStep, CohortReport.addCohort, List.flatMap_append, h, List.flatMap_singleton]

end CohortReport

namespace DataSet

variable {d : DataSet} {c : Clusterer} {leftOut : List String} {u : Use} {k : Cohort} {e : Failure}

/-- The cohort of a use, if the report lists it. -/
def listed? (d : DataSet) (c : Clusterer) (leftOut : List String) (u : Use) : Option Cohort :=
  match (d.cohort u).cluster c with
  | .ok labels =>
    let k := Cohort.ofLabels u labels
    if Cohort.isReported leftOut u && !k.clusters.isEmpty then some k else none
  | .error _ => none

/-- Why the cohort of a use was refused. -/
def refusal? (d : DataSet) (c : Clusterer) (u : Use) : Option (Use × Failure) :=
  match (d.cohort u).cluster c with
  | .ok _ => none
  | .error e => some (u, e)

/-- A use is listed with the cohort of its labels iff it clusters, is reported and leaves a row that is not
noise. -/
lemma listed?_eq_some_iff : d.listed? c leftOut u = some k ↔ ∃ labels,
    (d.cohort u).cluster c = .ok labels ∧ Cohort.isReported leftOut u = true ∧
      (∃ n ∈ labels, n ≠ Clusterer.noise) ∧ k = Cohort.ofLabels u labels := by
  rw [listed?]
  cases (d.cohort u).cluster c with
  | error e => simp
  | ok labels =>
    dsimp only
    constructor
    · intro h
      split at h
      · next hlisted =>
        cases h
        rw [Bool.and_eq_true, Bool.not_eq_true', Cohort.isEmpty_clusters_ofLabels] at hlisted
        exact ⟨labels, rfl, hlisted.1, hlisted.2, rfl⟩
      · cases h
    · rintro ⟨_, ⟨⟩, hreported, hsome, rfl⟩
      rw [hreported, (Cohort.isEmpty_clusters_ofLabels u labels).2 hsome]
      rfl

/-- The cohort listed for a use is a cohort of that use. -/
lemma use_of_listed? (h : d.listed? c leftOut u = some k) : k.use = u := by
  obtain ⟨labels, -, -, -, rfl⟩ := listed?_eq_some_iff.1 h
  rfl

/-- A use is refused with the failure of its clustering. -/
lemma refusal?_eq_some_iff {p : Use × Failure} :
    d.refusal? c u = some p ↔ p.1 = u ∧ (d.cohort u).cluster c = .error p.2 := by
  rw [refusal?]
  cases (d.cohort u).cluster c with
  | error e => simp [Prod.ext_iff, eq_comm]
  | ok labels => simp

/-- Clustering one use adds its cohort, its refusal and its subset to the report, whichever there are. -/
lemma clusterCohort_eq (d : DataSet) (leftOut : List String) (r : CohortReport) (u : Use)
    (hrecover : ∀ rows e, c.labels rows = .error e → e.isRecoverable = true) :
    ∃ r', d.clusterCohort c leftOut r u = .ok r' ∧
      r'.cohorts = r.cohorts ++ (d.listed? c leftOut u).toList ∧
      r'.skipped = r.skipped ++ (d.refusal? c u).toList ∧ (r.InStep → r'.InStep) := by
  rw [clusterCohort, clusterFiltered_eq, listed?, refusal?]
  cases hlabels : (d.cohort u).cluster c with
  | error e =>
    dsimp only [Except.map]
    rw [if_pos (hrecover _ e hlabels)]
    exact ⟨_, rfl, by simp, rfl, id⟩
  | ok labels =>
    refine ⟨_, rfl, ?_⟩
    dsimp only
    cases Cohort.isReported leftOut u && !(Cohort.ofLabels u labels).clusters.isEmpty with
    | true => exact ⟨rfl, (List.append_nil _).symm, fun h => CohortReport.InStep.addCohort h _⟩
    | false => exact ⟨(List.append_nil _).symm, (List.append_nil _).symm, id⟩

/-- What is said of a use depends on that use alone. -/
lemma exists_foldlM_eq (d : DataSet) (leftOut : List String)
    (hrecover : ∀ rows e, c.labels rows = .error e → e.isRecoverable = true) (uses : List Use)
    (r : CohortReport) :
    ∃ r', uses.foldlM (d.clusterCohort c leftOut) r = .ok r' ∧
      r'.cohorts = r.cohorts ++ uses.filterMap (d.listed? c leftOut) ∧
      r'.skipped = r.skipped ++ uses.filterMap (d.refusal? c) ∧ (r.InStep → r'.InStep) := by
  induction uses generalizing r with
  | nil => exact ⟨r, rfl, (List.append_nil _).symm, (List.append_nil _).symm, id⟩
  | cons u uses ih =>
    obtain ⟨r₁, hstep, hcohorts, hskipped, hkept⟩ := clusterCohort_eq d leftOut r u hrecover
    obtain ⟨r', hrest, hcohorts', hskipped', hkept'⟩ := ih r₁
    refine ⟨r', ?_, ?_, ?_, hkept' ∘ hkept⟩
    · rw [List.foldlM_cons, hstep]
      exact hrest
    · rw [hcohorts', hcohorts, List.filterMap_cons]
      cases d.listed? c leftOut u <;> simp
    · rw [hskipped', hskipped, List.filterMap_cons]
      cases d.refusal? c u <;> simp

/-- Clustering every use collects the cohorts and the refusals in the order of the uses. -/
lemma exists_clusterCohorts_eq (d : DataSet) (leftOut : List String)
    (hrecover : ∀ rows e, c.labels rows = .error e → e.isRecoverable = true) :
    ∃ r, d.clusterCohorts c leftOut = .ok r ∧
      r.cohorts = (d.frequencies.map (·.use)).filterMap (d.listed? c leftOut) ∧
      r.skipped = (d.frequencies.map (·.use)).filterMap (d.refusal? c) ∧
      r.ranked = (r.cohorts.flatMap (·.clusters)).mergeSort Cluster.precedes := by
  obtain ⟨run, hrun, hcohorts, hskipped, hkept⟩ :=
    exists_foldlM_eq d leftOut hrecover (d.frequencies.map (·.use)) .empty
  refine ⟨run.rank, by rw [clusterCohorts, hrun]; rfl, hcohorts, hskipped, ?_⟩
  exact congrArg (List.mergeSort · Cluster.precedes) (hkept CohortReport.inStep_empty)

/-- Some vector holds the changed use. -/
def HoldsChanged (d : DataSet) (u : Use) : Prop := u.change.isChange = true ∧ ∃ v ∈ d.vectors, u ∈ v.uses

/-- The uses counted are those the data set holds with a change. -/
lemma mem_map_use_frequencies : u ∈ d.frequencies.map (·.use) ↔ d.HoldsChanged u := by
  rw [List.mem_map]
  constructor
  · rintro ⟨f, hf, rfl⟩
    obtain ⟨hchange, hsome, -⟩ := (d.mem_frequencies f).1 hf
    exact ⟨hchange, hsome⟩
  · rintro ⟨hchange, hsome⟩
    exact ⟨⟨u, d.vectors.countP (·.uses.contains u)⟩, (d.mem_frequencies _).2 ⟨hchange, hsome, rfl⟩, rfl⟩

/-- The uses skipped are the ones held whose clustering is refused. -/
lemma mem_skipped_iff : (u, e) ∈ (d.frequencies.map (·.use)).filterMap (d.refusal? c) ↔
    d.HoldsChanged u ∧ (d.cohort u).cluster c = .error e := by
  simp only [List.mem_filterMap, refusal?_eq_some_iff, mem_map_use_frequencies]
  constructor
  · rintro ⟨w, hw, rfl, herror⟩
    exact ⟨hw, herror⟩
  · rintro ⟨hu, herror⟩
    exact ⟨u, hu, rfl, herror⟩

/-- The cohorts kept are the ones listed for the uses held. -/
lemma mem_cohorts_iff : k ∈ (d.frequencies.map (·.use)).filterMap (d.listed? c leftOut) ↔
    d.HoldsChanged k.use ∧ d.listed? c leftOut k.use = some k := by
  simp only [List.mem_filterMap, mem_map_use_frequencies]
  constructor
  · rintro ⟨u, hu, hk⟩
    cases use_of_listed? hk
    exact ⟨hu, hk⟩
  · rintro ⟨hu, hk⟩
    exact ⟨k.use, hu, hk⟩

/-- A clusterer that labels every row labels as many rows as the data set has. -/
lemma length_labels (hlength : ∀ rows labels, c.labels rows = .ok labels → labels.length = rows.length)
    {labels : List Int} (h : d.cluster c = .ok labels) : labels.length = d.size := by
  rw [hlength _ _ h, List.length_map, matrix, List.length_map, size]

/-- No use is listed or skipped twice, and none is both. -/
lemma nodup_skipped_append_cohorts (d : DataSet) (c : Clusterer) (leftOut : List String) :
    (((d.frequencies.map (·.use)).filterMap (d.refusal? c)).map Prod.fst ++
      ((d.frequencies.map (·.use)).filterMap (d.listed? c leftOut)).map (·.use)).Nodup := by
  have huses : (d.frequencies.map (·.use)).Nodup := d.nodup_frequencies
  have hrefused : ∀ u p, d.refusal? c u = some p → p.1 = u := fun u p h => (refusal?_eq_some_iff.1 h).1
  have hlisted : ∀ u k, d.listed? c leftOut u = some k → k.use = u := fun u k => use_of_listed?
  refine List.nodup_append.2 ⟨huses.sublist (sublist_map_filterMap hrefused _),
    huses.sublist (sublist_map_filterMap hlisted _), fun u hu w hw heq => ?_⟩
  obtain ⟨⟨_, e⟩, he, rfl⟩ := List.mem_map.1 hu
  obtain ⟨k, hk, rfl⟩ := List.mem_map.1 hw
  obtain ⟨labels, hok, -⟩ := listed?_eq_some_iff.1 (mem_cohorts_iff.1 hk).2
  rw [← heq, (mem_skipped_iff.1 he).2] at hok
  cases hok

/-- Where a second clusterer only refuses more cohorts, the report lists those that it still takes. -/
lemma filterMap_listed? {c' : Clusterer}
    (h : ∀ u, (d.cohort u).cluster c' = (d.cohort u).cluster c ∨ ∃ e, (d.cohort u).cluster c' = .error e)
    (uses : List Use) : uses.filterMap (d.listed? c' leftOut) =
      (uses.filterMap (d.listed? c leftOut)).filter fun k => d.isClustered c' k.use := by
  induction uses with
  | nil => rfl
  | cons u uses ih =>
    have hstep : (d.listed? c' leftOut u).toList =
        (d.listed? c leftOut u).toList.filter fun k => d.isClustered c' k.use := by
      rcases h u with hsame | ⟨e, herror⟩
      · have hlisted : d.listed? c' leftOut u = d.listed? c leftOut u := by
          rw [listed?, listed?, hsame]
        rw [hlisted]
        refine (List.filter_eq_self.2 fun k hk => ?_).symm
        obtain ⟨labels, hok, -⟩ := listed?_eq_some_iff.1 (Option.mem_toList.1 hk)
        rw [isClustered, use_of_listed? (Option.mem_toList.1 hk), hsame, hok]
        rfl
      · have hnone : d.listed? c' leftOut u = none := by rw [listed?, herror]
        rw [hnone]
        refine (List.filter_eq_nil_iff.2 fun k hk => ?_).symm
        rw [isClustered, use_of_listed? (Option.mem_toList.1 hk), herror]
        exact Bool.false_ne_true
    rw [List.filterMap_eq_flatMap_toList] at ih ⊢
    rw [List.flatMap_cons, hstep, ih, ← List.filter_append, List.filterMap_eq_flatMap_toList,
      List.filterMap_eq_flatMap_toList, List.flatMap_cons]

end DataSet

namespace CohortReport

open DataSet

variable {r : CohortReport} {d : DataSet} {c : Clusterer} {leftOut : List String}

/-- The report tells of every changed use what was made of its cohort. -/
structure Accounts (r : CohortReport) (d : DataSet) (c : Clusterer) (leftOut : List String) : Prop where
  /-- A use is skipped where its cohort is refused. -/
  mem_skipped : ∀ u e, (u, e) ∈ r.skipped ↔ d.HoldsChanged u ∧ (d.cohort u).cluster c = .error e
  /-- A use is listed where its cohort is taken, it is worth a report and not all is noise. -/
  mem_cohorts : ∀ u, (∃ k ∈ r.cohorts, k.use = u) ↔ d.HoldsChanged u ∧ ∃ labels,
    (d.cohort u).cluster c = .ok labels ∧ Cohort.isReported leftOut u = true ∧
      ∃ n ∈ labels, n ≠ Clusterer.noise
  /-- No use is told of twice. -/
  nodup : (r.skipped.map Prod.fst ++ r.cohorts.map (·.use)).Nodup
  /-- A cohort that is listed has the clusters that its labels make, one label for each vector. -/
  tallies : ∀ k ∈ r.cohorts, ∃ labels, (d.cohort k.use).cluster c = .ok labels ∧
    labels.length = (d.cohort k.use).size ∧ k.Tallies labels
  /-- Ranked are the clusters of all cohorts and no others. -/
  perm_ranked : r.ranked.Perm (r.cohorts.flatMap (·.clusters))
  pairwise_ranked : r.ranked.Pairwise (RanksBefore (·.instances) (·.text))

/-- A report with exactly these cohorts, refusals and subsets accounts for the data set. -/
lemma accounts_of_eq (hlength : ∀ rows labels, c.labels rows = .ok labels → labels.length = rows.length)
    (hcohorts : r.cohorts = (d.frequencies.map (·.use)).filterMap (d.listed? c leftOut))
    (hskipped : r.skipped = (d.frequencies.map (·.use)).filterMap (d.refusal? c))
    (hranked : r.ranked = (r.cohorts.flatMap (·.clusters)).mergeSort Cluster.precedes) :
    r.Accounts d c leftOut where
  mem_skipped u e := hskipped ▸ mem_skipped_iff
  mem_cohorts u := by
    rw [hcohorts]
    constructor
    · rintro ⟨k, hk, rfl⟩
      obtain ⟨hheld, hlisted⟩ := mem_cohorts_iff.1 hk
      obtain ⟨labels, hok, hreported, hsome, -⟩ := listed?_eq_some_iff.1 hlisted
      exact ⟨hheld, labels, hok, hreported, hsome⟩
    · rintro ⟨hheld, labels, hok, hreported, hsome⟩
      have hlisted : d.listed? c leftOut u = some (Cohort.ofLabels u labels) :=
        listed?_eq_some_iff.2 ⟨labels, hok, hreported, hsome, rfl⟩
      exact ⟨_, List.mem_filterMap.2 ⟨u, mem_map_use_frequencies.2 hheld, hlisted⟩, use_of_listed? hlisted⟩
  nodup := by
    rw [hcohorts, hskipped]
    exact d.nodup_skipped_append_cohorts c leftOut
  tallies k hk := by
    obtain ⟨-, hlisted⟩ := mem_cohorts_iff.1 (hcohorts ▸ hk)
    obtain ⟨labels, hok, -, -, hof⟩ := listed?_eq_some_iff.1 hlisted
    refine ⟨labels, hok, length_labels hlength hok, ?_⟩
    rw [hof]
    exact Cohort.tallies_ofLabels k.use labels
  perm_ranked := hranked ▸ List.mergeSort_perm _ _
  pairwise_ranked := hranked ▸ pairwise_mergeSort_ranksBefore Cluster.precedes_iff _

end CohortReport

namespace Command

variable {m : Type → Type} [Monad m] [LawfulMonad m]

/-- The command hands on the report of the data set. A folder for files only adds that they are written. -/
lemma cohortReport_eq {host : Host m} {s : DataSetSettings} {d : DataSet} {r : CohortReport}
    (hasks : (s.printsClusters || s.arffFolder.isSome) = true)
    (hr : d.clusterCohorts s.clustering.clusterer s.leftOut = .ok r) :
    cohortReport host s d = (do
      if let some folder := s.arffFolder then writeFiles host folder "clustering keyword cohorts" r.files
      return some r) := by
  rw [cohortReport, if_pos hasks, hr]
  exact pure_bind r _

end Command

namespace DataSet

variable {d : DataSet}

/-- Where cohorts are refused only in a way from which one recovers, there is a report and it accounts for
every changed use. A folder for the files of the cohorts changes nothing in it, unless writing fails. Were some
cohorts refused that are not, they would leave the report and the others would stay as they are. -/
theorem clusterCohorts_accounts (d : DataSet) (c : Clusterer) (leftOut : List String)
    (hrecover : ∀ rows e, c.labels rows = .error e → e.isRecoverable = true)
    (hlength : ∀ rows labels, c.labels rows = .ok labels → labels.length = rows.length) :
    ∃ r, d.clusterCohorts c leftOut = .ok r ∧ r.Accounts d c leftOut ∧
      (∀ (m : Type → Type) [Monad m] [LawfulMonad m] (host : Host m) (s : Command.DataSetSettings),
        s.clustering.clusterer = c → s.leftOut = leftOut →
        (s.printsClusters || s.arffFolder.isSome) = true →
        Command.cohortReport host s d = (do
          if let some folder := s.arffFolder then
            Command.writeFiles host folder "clustering keyword cohorts" r.files
          return some r)) ∧
      ∀ c' : Clusterer, (∀ rows e, c'.labels rows = .error e → e.isRecoverable = true) →
        (∀ u, (d.cohort u).cluster c' = (d.cohort u).cluster c ∨
          ∃ e, (d.cohort u).cluster c' = .error e) →
        ∃ r', d.clusterCohorts c' leftOut = .ok r' ∧
          r'.cohorts = r.cohorts.filter fun k => d.isClustered c' k.use := by
  obtain ⟨r, hr, hcohorts, hskipped, hranked⟩ := exists_clusterCohorts_eq d leftOut hrecover
  refine ⟨r, hr, CohortReport.accounts_of_eq hlength hcohorts hskipped hranked, ?_, fun c' hrecover' h => ?_⟩
  · rintro m _ _ host s rfl rfl hasks
    exact Command.cohortReport_eq hasks hr
  · obtain ⟨r', hr', hcohorts', -⟩ := exists_clusterCohorts_eq d leftOut hrecover'
    refine ⟨r', hr', ?_⟩
    rw [hcohorts', hcohorts]
    exact filterMap_listed? h _

/-- Puts the first two rows together and takes the others for noise. -/
def firstTwo : Clusterer :=
  ⟨"first two", fun rows => .ok ((rows.take 2).map (fun _ => 0) ++ (rows.drop 2).map fun _ => Clusterer.noise)⟩

/-- Refuses single rows. -/
def notSingle : Clusterer :=
  ⟨"not single", fun rows =>
    if rows.length < 2 then .error (.clusterer "too few rows") else firstTwo.labels rows⟩

/-- The first two rows form one cluster and the others are noise. -/
lemma cluster_firstTwo (d : DataSet) : d.cluster firstTwo =
    .ok (List.replicate (min 2 d.size) 0 ++ List.replicate (d.size - 2) Clusterer.noise) := by
  simp [cluster, firstTwo, matrix, size]

/-- A data set of fewer than two rows is refused. -/
lemma cluster_notSingle (d : DataSet) : d.cluster notSingle =
    if d.size < 2 then .error (.clusterer "too few rows") else d.cluster firstTwo := by
  simp [cluster, notSingle, matrix, size]

/-- A package that one vector holds is listed, or skipped where single rows are refused. The package that three
vectors hold is listed with the same cluster of two in either case. -/
theorem clusterCohorts_accounts_notSingle :
    let often := insertedPackage "fs"
    let once := insertedPackage "os"
    let d := ofUses [often, once, often, often]
    ∃ r r', d.clusterCohorts firstTwo [] = .ok r ∧ d.clusterCohorts notSingle [] = .ok r' ∧
      (∃ k ∈ r.cohorts, k.use = once) ∧ (once, .clusterer "too few rows") ∈ r'.skipped ∧
      ∃ k ∈ r.cohorts, k ∈ r'.cohorts ∧ k.use = often ∧ ⟨often, 0, 2⟩ ∈ k.clusters ∧ k.total = 2 := by
  intro often once d
  have hrecover : ∀ rows e, notSingle.labels rows = .error e → e.isRecoverable = true := by
    intro rows e h
    change (if rows.length < 2 then _ else _) = _ at h
    split at h
    · cases h
      rfl
    · cases h
  have hlength : ∀ rows labels, firstTwo.labels rows = .ok labels → labels.length = rows.length := by
    rintro rows labels ⟨⟩
    simp
    omega
  have hlength' : ∀ rows labels, notSingle.labels rows = .ok labels → labels.length = rows.length := by
    intro rows labels h
    change (if rows.length < 2 then _ else _) = _ at h
    split at h
    · cases h
    · exact hlength rows labels h
  have hfewer : ∀ u, (d.cohort u).cluster notSingle = (d.cohort u).cluster firstTwo ∨
      ∃ e, (d.cohort u).cluster notSingle = .error e := by
    intro u
    rw [cluster_notSingle]
    split
    · exact .inr ⟨_, rfl⟩
    · exact .inl rfl
  have honce : (d.cohort once).size = 1 := by decide +kernel
  have hoften : (d.cohort often).size = 3 := by decide +kernel
  have htaken : (d.cohort often).cluster firstTwo = .ok [0, 0, -1] := by
    rw [cluster_firstTwo, hoften]
    rfl
  obtain ⟨r, hr, haccounts, -, hrest⟩ := clusterCohorts_accounts d firstTwo [] nofun hlength
  obtain ⟨r', hr', hcohorts⟩ := hrest notSingle hrecover hfewer
  obtain ⟨r'', hr'', haccounts', -⟩ := clusterCohorts_accounts d notSingle [] hrecover hlength'
  cases hr'.symm.trans hr''
  refine ⟨r, r', hr, hr', ?_, ?_, ?_⟩
  · refine (haccounts.mem_cohorts once).2 ⟨⟨by decide, by decide +kernel⟩, [0], ?_, by decide, 0, by decide⟩
    rw [cluster_firstTwo, honce]
    rfl
  · refine (haccounts'.mem_skipped once _).2 ⟨⟨by decide, by decide +kernel⟩, ?_⟩
    rw [cluster_notSingle, honce]
    rfl
  · obtain ⟨k, hk, huse⟩ := (haccounts.mem_cohorts often).2
      ⟨⟨by decide, by decide +kernel⟩, _, htaken, by decide, 0, by decide⟩
    obtain ⟨labels, hok, -, htallies⟩ := haccounts.tallies k hk
    rw [huse, htaken] at hok
    cases hok
    refine ⟨k, hk, ?_, huse, ?_, htallies.total_eq⟩
    · rw [hcohorts]
      refine List.mem_filter.2 ⟨hk, ?_⟩
      rw [huse, isClustered, cluster_notSingle, hoften]
      change ((d.cohort often).cluster firstTwo).toBool = true
      rw [htaken]
      rfl
    · exact (htallies.mem_clusters _).2 ⟨huse.symm, by decide, by decide, by decide⟩

end DataSet

end Mend
