import Mend.Proofs.Command.Folder
import Mend.Proofs.DataSet.Metrics
import Mend.Proofs.Keyword.Stem

/-!
# The files of cohorts

The file of a cohort is named for its use (`fileName_eq_iff`), and of the cohorts of one name the last one is in
the file in the end (`read_fileOf`). The cohorts stand for different uses, so each has its file as long as the names
of files tell the uses apart (`files_apart`). They do not tell `$` from `_` (`file_overwritten`).
-/

namespace Mend

open Keyword (Use)

namespace Cohort

variable {u v : Use}

lemma fileName_eq_iff : fileName u = fileName v ↔ u.Blurs v := by
  rw [fileName, fileName, String.append_left_inj, Use.fileStem_eq_iff]

lemma isName_fileName (u : Use) : Path.IsName (fileName u) := by
  have hlast : (fileName u).toList.getLast? = some 'f' := by
    rw [fileName, String.toList_append]
    exact List.getLast?_append_of_ne_nil _ (List.cons_ne_nil _ _)
  have hne : ∀ s : String, s.toList.getLast? ≠ some 'f' → fileName u ≠ s := fun s hs heq => hs (heq ▸ hlast)
  refine ⟨hne _ (by decide), fun hslash => ?_, hne _ (by decide), hne _ (by decide)⟩
  rw [fileName, String.toList_append, List.mem_append] at hslash
  rcases hslash with hslash | hslash
  · rw [Use.fileStem, String.toList_ofList] at hslash
    obtain ⟨c, -, hc⟩ := List.mem_map.1 hslash
    split at hc
    · next hstem =>
      rw [hc] at hstem
      exact absurd hstem (by decide)
    · exact absurd hc (by decide)
  · exact absurd hslash (by decide)

end Cohort

namespace DataSet

variable {d : DataSet} {c : Clusterer} {leftOut : List String} {r : CohortReport}

/-- The uses whose cohorts were clustered. -/
def clusteredUses (d : DataSet) (c : Clusterer) : List Use :=
  (d.frequencies.map (·.use)).filter (d.isClustered c)

lemma nodup_clusteredUses (d : DataSet) (c : Clusterer) : (d.clusteredUses c).Nodup :=
  d.nodup_frequencies.filter _

/-- The file of the cohort of a use, with its content. -/
def fileOf (d : DataSet) (u : Use) : String × String :=
  (Cohort.fileName u, (d.cohort u).arffFile (Cohort.fileName u))

lemma files_eq (h : d.clusterCohorts c leftOut = .ok r) : r.files = (d.clusteredUses c).map d.fileOf := by
  rw [CohortReport.files, (subsets_clusterCohorts h).1, List.map_map]
  rfl

lemma read_fileOf {folder activity : String} {s s' : Memory} {before after : List Use} {u : Use}
    (h : d.clusterCohorts c leftOut = .ok r)
    (hrun : Command.writeFiles Memory.host folder activity r.files s = (.ok (), s'))
    (huses : d.clusteredUses c = before ++ u :: after) (hafter : ∀ v ∈ after, ¬u.Blurs v) :
    s'.disk.read (Path.below folder (Cohort.fileName u)) =
      .ok (Text.encode ((d.cohort u).arffFile (Cohort.fileName u)), .nil) := by
  have hnames : ∀ f ∈ r.files, Path.IsName f.1 := by
    rw [files_eq h]
    exact List.forall_mem_map.2 fun v _ => Cohort.isName_fileName v
  have hfiles : r.files = before.map d.fileOf ++ d.fileOf u :: after.map d.fileOf := by
    rw [files_eq h, huses, List.map_append, List.map_cons]
  rw [hfiles] at hnames hrun
  refine Command.read_of_writeFiles hnames (List.forall_mem_map.2 fun v hv heq => ?_) hrun
  exact hafter v hv (Cohort.fileName_eq_iff.1 heq)

/-- The names of the files of two cohorts are the same just if their uses agree in role, context and change,
and character by character in what such a name tells of API and keyword. Uses of plain texts agree only if
they are equal. Every clustered cohort is written into one file, and the file holds it in the end unless a
later cohort has a file of this name. -/
theorem files_apart (d : DataSet) (c : Clusterer) (leftOut : List String) :
    (∀ u v : Use, Cohort.fileName u = Cohort.fileName v ↔ u.Blurs v) ∧
    (∀ u v : Use, u.IsPlain → v.IsPlain → Cohort.fileName u = Cohort.fileName v → u = v) ∧
    (d.clusteredUses c).Nodup ∧
    ∀ r, d.clusterCohorts c leftOut = .ok r →
      r.files = (d.clusteredUses c).map d.fileOf ∧
      ((r.files.map Prod.fst).Nodup ↔ (d.clusteredUses c).Pairwise fun u v => ¬u.Blurs v) ∧
      ∀ folder activity (s s' : Memory),
        Command.writeFiles Memory.host folder activity r.files s = (.ok (), s') →
        ∀ before u after, d.clusteredUses c = before ++ u :: after → (∀ v ∈ after, ¬u.Blurs v) →
          s'.disk.read (Path.below folder (Cohort.fileName u)) =
            .ok (Text.encode ((d.cohort u).arffFile (Cohort.fileName u)), .nil) := by
  refine ⟨fun u v => Cohort.fileName_eq_iff, fun u v hu hv h => (Cohort.fileName_eq_iff.1 h).eq hu hv,
    d.nodup_clusteredUses c, fun r hr => ⟨files_eq hr, ?_, fun folder activity s s' hrun before u after => ?_⟩⟩
  · rw [files_eq hr, List.map_map, List.Nodup, List.pairwise_map]
    simp only [Function.comp_apply, fileOf, ne_eq, Cohort.fileName_eq_iff]
  · exact read_fileOf hr hrun

/-- A call of a function that a repair put in. -/
def insertedCall (name : String) : Use := ⟨.methodCall, .expression, .inserted, Keyword.globalApi, name⟩

/-- All cohorts are clustered. Their uses stand as they are counted if this is how they are ranked. -/
lemma clusteredUses_together
    (h : (d.changedUses.entries.map fun e => (⟨e.1, e.2⟩ : Frequency)).Pairwise (Frequency.precedes · · = true)) :
    d.clusteredUses together = d.changedUses.entries.map Prod.fst := by
  have hfrequencies : d.frequencies = d.changedUses.entries.map fun e => ⟨e.1, e.2⟩ :=
    List.mergeSort_of_pairwise h
  have hall : ∀ u ∈ d.frequencies.map (·.use), d.isClustered together u = true := fun _ _ => rfl
  rw [clusteredUses, List.filter_eq_self.2 hall, hfrequencies, List.map_map]
  rfl

/-- Two functions with plain names have a file each. -/
theorem files_apart_plain :
    let uses := [insertedCall "each", insertedCall "map"]
    let d := ofUses uses
    (∀ u ∈ uses, u.IsPlain) ∧ ∃ r, d.clusterCohorts together [] = .ok r ∧ ∃ s',
      Command.writeFiles Memory.host "out" "clustering" r.files (.start .empty []) = (.ok (), s') ∧
      ∀ u ∈ uses, s'.disk.read (Path.below "out" (Cohort.fileName u)) =
        .ok (Text.encode ((d.cohort u).arffFile (Cohort.fileName u)), .nil) := by
  intro uses d
  obtain ⟨hnames, happart, -, hreport⟩ := files_apart d together []
  have hplain : ∀ u ∈ uses, u.IsPlain := by
    have htexts : ∀ u ∈ uses, u.api.toList.all Use.isTold = true ∧
        u.keyword.toList.all Use.isStemChar = true := by decide +kernel
    exact fun u hu => ⟨List.all_eq_true.1 (htexts u hu).1, List.all_eq_true.1 (htexts u hu).2⟩
  have huses : d.clusteredUses together = uses :=
    (clusteredUses_together (by decide +kernel)).trans (by decide +kernel)
  obtain ⟨r, hr⟩ : ∃ r, d.clusterCohorts together [] = .ok r :=
    exists_clusterCohorts d [] nofun
  obtain ⟨hfiles, -, hread⟩ := hreport r hr
  rw [huses] at hfiles hread
  have hok : (Command.writeFiles Memory.host "out" "clustering" (uses.map d.fileOf)
      (.start .empty [])).1.isOk = true := by decide +kernel
  rw [← hfiles] at hok
  refine ⟨hplain, r, hr, ?_⟩
  cases hrun : Command.writeFiles Memory.host "out" "clustering" r.files (.start .empty []) with
  | mk result s' =>
    rw [hrun] at hok
    cases result with
    | error e => cases hok
    | ok =>
      refine ⟨s', rfl, List.forall_mem_cons.2 ⟨?_, List.forall_mem_singleton.2 ?_⟩⟩
      · refine hread _ _ _ s' hrun [] _ [insertedCall "map"] rfl (List.forall_mem_singleton.2 fun hblurs => ?_)
        have heq := happart _ _ (hplain _ List.mem_cons_self)
          (hplain _ (List.mem_cons_of_mem _ List.mem_cons_self)) ((hnames _ _).2 hblurs)
        exact absurd heq (by decide)
      · exact hread _ _ _ s' hrun [insertedCall "each"] _ [] rfl (List.forall_mem_nil _)

/-- The functions `$` and `_` have one file between them, and the cohort of `$` is not in it. -/
theorem file_overwritten :
    let dollar := insertedCall "$"
    let underscore := insertedCall "_"
    let d := ofUses [dollar, underscore]
    dollar ≠ underscore ∧ d.clusteredUses together = [dollar, underscore] ∧
      (d.cohort dollar).ids = [0] ∧ (d.cohort underscore).ids = [1] ∧
      Cohort.fileName dollar = Cohort.fileName underscore ∧
      ∀ r, d.clusterCohorts together [] = .ok r → ∀ folder activity (s s' : Memory),
        Command.writeFiles Memory.host folder activity r.files s = (.ok (), s') →
        s'.disk.read (Path.below folder (Cohort.fileName dollar)) =
          .ok (Text.encode ((d.cohort underscore).arffFile (Cohort.fileName dollar)), .nil) := by
  intro dollar underscore d
  have huses : d.clusteredUses together = [dollar] ++ underscore :: [] :=
    (clusteredUses_together (by decide +kernel)).trans (by decide +kernel)
  have hname : Cohort.fileName dollar = Cohort.fileName underscore := by decide +kernel
  refine ⟨by decide, huses, by decide +kernel, by decide +kernel, hname, ?_⟩
  intro r hr folder activity s s' hrun
  rw [hname]
  exact read_fileOf hr hrun huses (List.forall_mem_nil _)

end DataSet

end Mend
