import Mend.Proofs.Cohort.Exact
import Mend.Proofs.Ranking

/-!
# Frequencies do not depend on the order of the vectors

The frequencies name each changed use once (`nodup_frequencies`), and they stand in an order in which no two
are equally good (`Frequency.Before`): by count, by text, and where both are the same by the parts of the
use. So they are fixed by what they hold, which is the same for vectors in any order
(`frequencies_complete`). Two uses can have one text (`clashing`).
-/

namespace Mend

open Keyword (Use)

/-- Larger counts first, equal ones by the text of the use, and uses with one text by their parts. -/
def Frequency.Before (f g : Frequency) : Prop :=
  g.count < f.count ∨ f.count = g.count ∧
    (f.use.text < g.use.text ∨ f.use.text = g.use.text ∧ f.use.order g.use = .lt)

namespace Frequency

variable {f g : Frequency}

lemma precedes_iff (f g : Frequency) :
    f.precedes g = true ↔ RanksBefore (fun f => f.count) (fun f => f.use.text) f g := by
  simp [precedes, RanksBefore]

lemma Before.asymm (hfg : f.Before g) : ¬ g.Before f := by
  rintro (hgf | ⟨hgf, htext⟩)
  · rcases hfg with hfg | ⟨hfg, -⟩ <;> omega
  · rcases hfg with hfg | ⟨-, htext'⟩
    · omega
    · rcases htext with htext | ⟨htext, horder⟩
      · rcases htext' with htext' | ⟨htext', -⟩
        · exact lt_asymm htext htext'
        · exact absurd (htext' ▸ htext) (lt_irrefl _)
      · rcases htext' with htext' | ⟨-, horder'⟩
        · exact absurd (htext ▸ htext') (lt_irrefl _)
        · rw [Std.OrientedCmp.gt_of_lt horder'] at horder
          cases horder

end Frequency

namespace DataSet

variable {d d' : DataSet}

/-- The frequencies before they are ranked. -/
lemma pairwise_changedUses (d : DataSet) : (d.changedUses.entries.map fun e => (⟨e.1, e.2⟩ : Frequency)).Pairwise
    fun f g => f.use.order g.use = .lt := List.pairwise_map.2 d.changedUses.sorted

lemma nodup_frequencies (d : DataSet) : (d.frequencies.map (·.use)).Nodup := by
  have hperm := (List.mergeSort_perm (d.changedUses.entries.map fun e => (⟨e.1, e.2⟩ : Frequency))
    Frequency.precedes).map (·.use)
  refine hperm.nodup_iff.2 ?_
  rw [List.map_map]
  exact d.changedUses.nodup_uses

lemma pairwise_frequencies (d : DataSet) : d.frequencies.Pairwise Frequency.Before := by
  have : Std.Asymm fun f g : Frequency => f.use.order g.use = .lt :=
    ⟨fun f g hfg hgf => by rw [Std.OrientedCmp.gt_of_lt hfg] at hgf; cases hgf⟩
  refine (pairwise_mergeSort_ranks Frequency.precedes_iff d.pairwise_changedUses).imp ?_
  rintro f g ⟨hlt | ⟨hcount, htext⟩, horder⟩
  · exact .inl hlt
  · rcases htext.lt_or_eq with hlt | heq
    · exact .inr ⟨hcount, .inl hlt⟩
    · exact .inr ⟨hcount, .inr ⟨heq, horder hcount heq⟩⟩

/-- Data sets with the same vectors in any order have the same frequencies. -/
lemma frequencies_congr (h : d'.vectors.Perm d.vectors) : d'.frequencies = d.frequencies := by
  have hmem : ∀ f, f ∈ d'.frequencies ↔ f ∈ d.frequencies := by
    intro f
    rw [mem_frequencies, mem_frequencies, h.countP_eq]
    simp only [h.mem_iff]
  have hperm : d'.frequencies.Perm d.frequencies :=
    (List.perm_ext_iff_of_nodup (.of_map _ d'.nodup_frequencies) (.of_map _ d.nodup_frequencies)).2 hmem
  exact hperm.eq_of_pairwise (fun f g _ _ hfg hgf => absurd hgf hfg.asymm) d'.pairwise_frequencies
    d.pairwise_frequencies

/-- The frequencies list every changed use that some vector holds, once and with the number of vectors that
hold it, and nothing else. They stand by count, by text and by the parts of the use, and the order of the
vectors plays no part. -/
theorem frequencies_complete (d : DataSet) :
    (∀ u, (∃ f ∈ d.frequencies, f.use = u) ↔ u.change.isChange = true ∧ ∃ v ∈ d.vectors, u ∈ v.uses) ∧
    (d.frequencies.map (·.use)).Nodup ∧
    (∀ f ∈ d.frequencies, f.count = d.vectors.countP (·.uses.contains f.use)) ∧
    d.frequencies.Pairwise Frequency.Before ∧
    ∀ d' : DataSet, d'.vectors.Perm d.vectors → d'.frequencies = d.frequencies := by
  refine ⟨fun u => ⟨?_, ?_⟩, d.nodup_frequencies, fun f hf => ((d.mem_frequencies f).1 hf).2.2,
    d.pairwise_frequencies, fun d' => frequencies_congr⟩
  · rintro ⟨f, hf, rfl⟩
    obtain ⟨hchange, hsome, -⟩ := (d.mem_frequencies f).1 hf
    exact ⟨hchange, hsome⟩
  · rintro ⟨hchange, hsome⟩
    exact ⟨⟨u, d.vectors.countP (·.uses.contains u)⟩, (d.mem_frequencies _).2 ⟨hchange, hsome, rfl⟩, rfl⟩

/-- Two uses with the same text: the colon stands once in the API and once in the keyword. -/
def clashing : List Use :=
  [⟨.reserved, .expression, .inserted, "a:b", "c"⟩, ⟨.reserved, .expression, .inserted, "a", "b:c"⟩]

/-- Uses with the same text and count are listed in one order, whichever vector comes first. -/
theorem frequencies_complete_clashing :
    let d := ofUses clashing
    let d' := (empty [] false).addAll d.vectors.reverse
    (∀ u ∈ clashing, u.text = "RESERVED:EXPRESSION:INSERTED:a:b:c") ∧ d'.vectors.Perm d.vectors ∧
      d'.vectors ≠ d.vectors ∧ (∀ u ∈ clashing, ∃ f ∈ d.frequencies, f.use = u) ∧
      d'.frequencies = d.frequencies := by
  intro d d'
  have hvectors : d'.vectors = d.vectors.reverse := by decide +kernel
  have hperm : d'.vectors.Perm d.vectors := by
    rw [hvectors]
    exact d.vectors.reverse_perm
  obtain ⟨hlisted, -, -, -, hcongr⟩ := frequencies_complete d
  refine ⟨by decide +kernel, hperm, by decide +kernel, fun u hu => (hlisted u).2 ?_, hcongr d' hperm⟩
  revert u
  decide +kernel

end DataSet

end Mend
