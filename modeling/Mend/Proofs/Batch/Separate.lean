import Mathlib
import Mend.Proofs.Batch.Gather
import Mend.Proofs.Comparison
import Mend.Proofs.Syntax.Reading

/-!
# Pairs of a batch do not disturb each other

All that the pairs of a batch share is the source of numbers. The vectors of a comparison are the same
whatever numbers they are given (`Analysis.vectors_eq`), so that the result for a pair is told by the pair
and by the numbers that its vectors happen to be given (`FilePair.outcomeBy`); one pair after the other
(`analyzePair_eq`) is one way to give out numbers. As long as no number is given out twice, the report on a
batch holds the results of all its pairs, each as it is for the pair alone (`Separate`).
-/

namespace Mend

open Digest (TellsApart)
open Keyword (Registry Use)
open Syntax (Ast Source)

namespace IdSource

/-- A source advanced by nothing is the same. -/
lemma advanceBy_zero (ids : IdSource) : ids.advanceBy 0 = ids := by
  change IdSource.mk (ids.next + 0) = ids
  rw [UInt64.add_zero]

/-- What lies ahead of an advanced source lies further ahead of the first. -/
lemma ahead_advanceBy (ids : IdSource) (k j : Nat) : (ids.advanceBy k).ahead j = ids.ahead (k + j) := by
  rw [ahead, advanceBy, ahead, ahead, UInt64.ofNat_add, UInt64.add_assoc]

/-- No number comes twice before all words have been given out. -/
lemma nodup_ahead (ids : IdSource) {n : Nat} (h : n ≤ 2 ^ 64) : ((List.range n).map ids.ahead).Nodup := by
  refine List.Nodup.map_on (fun i hi j hj heq => ?_) List.nodup_range
  rw [List.mem_range] at hi hj
  rw [ahead, ahead, UInt64.add_right_inj] at heq
  have hwords := congrArg UInt64.toNat heq
  rwa [UInt64.toNat_ofNat', UInt64.toNat_ofNat', Nat.mod_eq_of_lt (by omega), Nat.mod_eq_of_lt (by omega)]
    at hwords

end IdSource

namespace FeatureVector

/-- The vector with another number. -/
def numbered (v : FeatureVector) (id : UInt64) : FeatureVector := { v with id }

/-- Adding uses changes nothing but the counts. -/
lemma addUses_eq (v : FeatureVector) (uses : List Use) :
    v.addUses uses = { v with counts := uses.foldl (fun t u => t.add u 1) v.counts } := by
  induction uses generalizing v with
  | nil => rfl
  | cons u uses ih => exact ih (v.add u 1)

end FeatureVector

/-- The result without the numbers of the vectors. -/
def PairOutcome.unnumbered : PairOutcome → PairOutcome
  | analyzed provenance findings vectors => .analyzed provenance findings (vectors.map (·.numbered 0))
  | skipped provenance reason => .skipped provenance reason

/-- Whether a vector is kept. -/
def AnalysisOptions.keeps (o : AnalysisOptions) (v : FeatureVector) : Bool :=
  o.includesUnchanged || v.hasChanges

namespace Analysis

variable {x : Analysis} {o : AnalysisOptions}

/-- A vector may be numbered before or after it adopts a function. -/
lemma adopt_numbered (registry : Registry) (v : FeatureVector) (id : UInt64) (old : Nat) :
    x.adopt registry (v.numbered id) old = (x.adopt registry v old).numbered id := by
  unfold adopt
  dsimp only
  rw [FeatureVector.addUses_eq, FeatureVector.addUses_eq]
  rfl

/-- A vector may be numbered before or after it adopts several functions. -/
lemma foldl_adopt_numbered (registry : Registry) (v : FeatureVector) (id : UInt64) (olds : List Nat) :
    olds.foldl (x.adopt registry) (v.numbered id) = (olds.foldl (x.adopt registry) v).numbered id := by
  induction olds generalizing v with
  | nil => rfl
  | cons old olds ih => rw [List.foldl_cons, adopt_numbered, ih, List.foldl_cons]

/-- A scope's own vector may be numbered later. -/
lemma ownVector_numbered (registry : Registry) (id : UInt64) (new : Nat) :
    x.ownVector registry id new = (x.ownVector registry 0 new).numbered id := by
  rw [ownVector, ownVector, FeatureVector.addUses_eq, FeatureVector.addUses_eq]
  rfl

/-- The vector of a repaired scope, without a number of its own. -/
def bare (x : Analysis) (new : Nat) : FeatureVector :=
  (x.adopted.filter fun old => x.adopter? old == some new).foldl
    (x.adopt (Registry.ofAst x.comparison.buggy.toAst))
    (x.ownVector (Registry.ofAst x.comparison.repaired.toAst) 0 new)

/-- How many numbers are used up. -/
def drawn (x : Analysis) : Nat := x.repairedScopes.size + x.adopted.length

/-- The vectors when that of the repaired scope `new` has the number `number new`. -/
def vectorsBy (x : Analysis) (number : Nat → UInt64) : List FeatureVector :=
  x.repairedScopes.ids.map fun new => (x.bare new).numbered (number new)

/-- Numbers do not come into the vectors otherwise. -/
lemma vectors_eq (ids : IdSource) : x.vectors ids = (x.vectorsBy ids.ahead, ids.advanceBy x.drawn) := by
  simp only [vectors, vectorsBy, drawn, bare, ownVector_numbered (x := x) _ (ids.ahead _),
    foldl_adopt_numbered]

/-- The repaired scopes whose vectors are kept. -/
def keptScopes (x : Analysis) (o : AnalysisOptions) : List Nat :=
  x.repairedScopes.ids.filter fun new => o.keeps (x.bare new)

/-- The vectors kept are those of the kept scopes, each with its number. -/
lemma filter_vectorsBy (number : Nat → UInt64) :
    (x.vectorsBy number).filter o.keeps =
      (x.keptScopes o).map fun new => (x.bare new).numbered (number new) := by
  rw [vectorsBy, List.filter_map]
  rfl

end Analysis

namespace FilePair

variable {o : AnalysisOptions} {p : FilePair}

/-- The two texts, if they can be read, have no subtrees that digests take for equal though they are not. -/
def TellsApart (p : FilePair) (simplify : Bool) : Prop :=
  ∀ a b, p.buggy.parse .buggy simplify = .ok a → p.repaired.parse .repaired simplify = .ok b →
    Digest.TellsApart a b

/-- How many numbers the analysis of a pair uses up. -/
def drawn (o : AnalysisOptions) (p : FilePair) : Nat :=
  match compare o.simplify p.buggy p.repaired with
  | .ok c => (Analysis.of p.provenance c).drawn
  | .error _ => 0

/-- How many of them are those of vectors. -/
def scopes (o : AnalysisOptions) (p : FilePair) : Nat :=
  match compare o.simplify p.buggy p.repaired with
  | .ok c => (Analysis.of p.provenance c).repairedScopes.size
  | .error _ => 0

/-- The result for a pair whose vectors have the numbers `number`. -/
def outcomeBy (o : AnalysisOptions) (p : FilePair) (number : Nat → UInt64) : PairOutcome :=
  match compare o.simplify p.buggy p.repaired with
  | .ok c =>
    .analyzed p.provenance ((Analysis.of p.provenance c).collect Detector.all .empty)
      (((Analysis.of p.provenance c).vectorsBy number).filter o.keeps)
  | .error e => .skipped p.provenance e

/-- A comparison comes to its end, or it fails in a way that only skips the pair. -/
lemma compare_cases {simplify : Bool} (h : p.TellsApart simplify) :
    (∃ c, compare simplify p.buggy p.repaired = .ok c) ∨
      ∃ e, compare simplify p.buggy p.repaired = .error e ∧ e.isRecoverable = true := by
  cases hbuggy : Text.isBlankText p.buggy.text with
  | true => exact .inr ⟨.emptyInput .buggy, by rw [compare, hbuggy]; rfl, rfl⟩
  | false =>
    cases hrepaired : Text.isBlankText p.repaired.text with
    | true => exact .inr ⟨.emptyInput .repaired, by rw [compare, hbuggy, hrepaired]; rfl, rfl⟩
    | false =>
      cases hb : p.buggy.tree.fault? with
      | some fault =>
        refine .inr ⟨.syntaxError .buggy fault.1.message fault.2, ?_, rfl⟩
        rw [compare, hbuggy, hrepaired, Source.parse, hb]
        rfl
      | none =>
        cases hr : p.repaired.tree.fault? with
        | some fault =>
          refine .inr ⟨.syntaxError .repaired fault.1.message fault.2, ?_, rfl⟩
          rw [compare, hbuggy, hrepaired, Source.parse, Source.parse, hb, hr]
          rfl
        | none =>
          have htell := h _ _ (by rw [Source.parse, hb]) (by rw [Source.parse, hr])
          exact .inl (compare_of_tellsApart hbuggy hrepaired hb hr htell)

/-- One pair by itself draws the next numbers. -/
lemma analyzePair_eq (h : p.TellsApart o.simplify) (ids : IdSource) :
    analyzePair o p ids = .ok (p.outcomeBy o ids.ahead, ids.advanceBy (p.drawn o)) := by
  rcases compare_cases h with ⟨c, hc⟩ | ⟨e, he, hrecoverable⟩
  · rw [analyzePair, outcomeBy, drawn, hc]
    simp only [Analysis.outcome, Analysis.vectors_eq]
    rfl
  · rw [analyzePair, outcomeBy, drawn, he]
    simp only [hrecoverable, if_true, IdSource.advanceBy_zero]

/-- Apart from its numbers, an outcome does not depend on them. -/
lemma unnumbered_outcomeBy (number number' : Nat → UInt64) :
    (p.outcomeBy o number).unnumbered = (p.outcomeBy o number').unnumbered := by
  unfold outcomeBy
  split
  · simp only [PairOutcome.unnumbered, Analysis.filter_vectorsBy, List.map_map]
    rfl
  · rfl

/-- The vectors of an outcome are ones the options keep. -/
lemma keeps_of_mem_outcomeBy {number : Nat → UInt64} :
    ∀ v ∈ (p.outcomeBy o number).vectors, o.keeps v = true := by
  intro v hv
  unfold outcomeBy at hv
  split at hv
  · exact (List.mem_filter.1 hv).2
  · cases hv

/-- The numbers of vectors that are kept are some of those that the scopes are given. -/
lemma sublist_map_id_outcomeBy (number : Nat → UInt64) :
    ((p.outcomeBy o number).vectors.map (·.id)).Sublist ((List.range (p.scopes o)).map number) := by
  unfold outcomeBy scopes
  split
  · next c _ =>
    rw [PairOutcome.vectors, Analysis.filter_vectorsBy, List.map_map]
    exact List.filter_sublist.map number
  · exact List.nil_sublist _

/-- An id is drawn for each scope. -/
lemma scopes_le_drawn (p : FilePair) : p.scopes o ≤ p.drawn o := by
  unfold scopes drawn
  split
  · exact Nat.le_add_right _ _
  · exact Nat.le_refl 0

/-- No more ids are drawn than the two files have scopes. -/
lemma drawn_le : p.drawn o ≤ (ScopeTree.ofAst (p.buggy.read o.simplify)).size +
    (ScopeTree.ofAst (p.repaired.read o.simplify)).size := by
  unfold drawn
  split
  · next c hc =>
    obtain ⟨hb, hr⟩ := compare_eq_ok hc
    have hadopted : (Analysis.of p.provenance c).adopted.length ≤
        (ScopeTree.ofAst c.buggy.toAst).ids.length := List.length_filter_le _ _
    rw [ScopeTree.ids, List.length_range] at hadopted
    rw [← hb, ← hr, Nat.add_comm, Analysis.drawn]
    exact Nat.add_le_add_left hadopted _
  · exact Nat.zero_le _

end FilePair

/-- The results for pairs whose vectors have, pair by pair, the numbers `numbers`. -/
def outcomesBy (o : AnalysisOptions) (pairs : List FilePair) (numbers : List (Nat → UInt64)) :
    List PairOutcome := List.zipWith (FilePair.outcomeBy o) pairs numbers

/-- The numbers that all vectors of the pairs are given. -/
def given (o : AnalysisOptions) (pairs : List FilePair) (numbers : List (Nat → UInt64)) : List UInt64 :=
  (List.zipWith (fun p number => (List.range (p.scopes o)).map number) pairs numbers).flatten

/-- The numbers that are drawn if the pairs have their turns one after the other. -/
def numbersFrom (o : AnalysisOptions) : List FilePair → IdSource → List (Nat → UInt64)
  | [], _ => []
  | p :: ps, ids => ids.ahead :: numbersFrom o ps (ids.advanceBy (p.drawn o))

/-- The report on a batch holds the results of all its pairs, and each result is, numbers apart, the one for
the pair alone. -/
structure Separate (o : AnalysisOptions) (pairs : List FilePair) (outcomes : List PairOutcome)
    (r : BatchReport) : Prop where
  counted : r.analyzed + r.skipped.length = pairs.length
  skipped : r.skipped = outcomes.filterMap PairOutcome.skip?
  findings : r.findings.toList = (outcomes.flatMap (·.findings)).eraseDups
  vectors : r.dataSet.vectors = outcomes.flatMap (·.vectors)
  alone : List.Forall₂ (fun p outcome => ∀ ids, ∃ single ids',
    analyzePair o p ids = .ok (single, ids') ∧ single.unnumbered = outcome.unnumbered) pairs outcomes

variable {o : AnalysisOptions} {pairs : List FilePair} {numbers : List (Nat → UInt64)} {ids : IdSource}

/-- The ids of the vectors are among those given out, in order. -/
lemma sublist_given (o : AnalysisOptions) (pairs : List FilePair) (numbers : List (Nat → UInt64)) :
    (((outcomesBy o pairs numbers).flatMap (·.vectors)).map (·.id)).Sublist (given o pairs numbers) := by
  induction pairs generalizing numbers with
  | nil => exact List.nil_sublist _
  | cons p pairs ih =>
    cases numbers with
    | nil => exact List.nil_sublist _
    | cons number numbers =>
      rw [outcomesBy, List.zipWith_cons_cons, List.flatMap_cons, List.map_append, given,
        List.zipWith_cons_cons, List.flatten_cons]
      exact (p.sublist_map_id_outcomeBy number).append (ih numbers)

/-- Each outcome is that of one pair with its numbers. -/
lemma exists_of_mem_outcomesBy {outcome : PairOutcome} (h : outcome ∈ outcomesBy o pairs numbers) :
    ∃ p number, outcome = FilePair.outcomeBy o p number := by
  obtain ⟨i, hi, rfl⟩ := List.mem_iff_getElem.1 h
  exact ⟨_, _, List.getElem_zipWith⟩

/-- Every result is, numbers apart, the one for the pair alone. -/
lemma forall₂_outcomesBy (h : ∀ p ∈ pairs, p.TellsApart o.simplify)
    (hlength : numbers.length = pairs.length) :
    List.Forall₂ (fun p outcome => ∀ ids, ∃ single ids',
      analyzePair o p ids = .ok (single, ids') ∧ single.unnumbered = outcome.unnumbered) pairs
      (outcomesBy o pairs numbers) := by
  induction pairs generalizing numbers with
  | nil => exact .nil
  | cons p pairs ih =>
    cases numbers with
    | nil => cases hlength
    | cons number numbers =>
      refine .cons (fun ids => ?_) (ih (fun q hq => h q (List.mem_cons_of_mem _ hq)) ?_)
      · exact ⟨_, _, FilePair.analyzePair_eq (h p List.mem_cons_self) ids,
          FilePair.unnumbered_outcomeBy _ _⟩
      · simpa using hlength

/-- Whatever numbers the vectors are given, no two the same, the results are all there. -/
lemma separate_of_given (h : ∀ p ∈ pairs, p.TellsApart o.simplify)
    (hlength : numbers.length = pairs.length) (hgiven : (given o pairs numbers).Nodup) :
    Separate o pairs (outcomesBy o pairs numbers)
      ((outcomesBy o pairs numbers).foldl BatchReport.record (.empty o)) := by
  have houtcomes : (outcomesBy o pairs numbers).length = pairs.length := by
    rw [outcomesBy, List.length_zipWith, hlength, Nat.min_self]
  have haccepts : ∀ v ∈ (outcomesBy o pairs numbers).flatMap (·.vectors),
      (DataSet.empty [] o.includesUnchanged).accepts v = true := by
    intro v hv
    obtain ⟨outcome, hmem, hv⟩ := List.mem_flatMap.1 hv
    obtain ⟨p, number, rfl⟩ := exists_of_mem_outcomesBy hmem
    exact (Bool.and_true _).trans (FilePair.keeps_of_mem_outcomeBy v hv)
  rw [BatchReport.foldl_record]
  refine ⟨?_, rfl, ?_, ?_, forall₂_outcomesBy h hlength⟩
  · simp only [BatchReport.empty, Nat.zero_add, List.nil_append, countP_add_length_skipped, houtcomes]
  · exact Findings.toList_registerAll _ _
  · exact DataSet.vectors_addAll haccepts (hgiven.sublist (sublist_given o pairs numbers))

/-- Pairs that have their turns one after the other draw the numbers of `numbersFrom`. -/
lemma analyzeEach_eq (h : ∀ p ∈ pairs, p.TellsApart o.simplify) (ids : IdSource) :
    analyzeEach o pairs ids = .ok (outcomesBy o pairs (numbersFrom o pairs ids),
      ids.advanceBy (pairs.map (FilePair.drawn o)).sum) := by
  induction pairs generalizing ids with
  | nil => exact congrArg (fun s => Except.ok ([], s)) ids.advanceBy_zero.symm
  | cons p pairs ih =>
    have hadvance : (ids.advanceBy (p.drawn o)).advanceBy (pairs.map (FilePair.drawn o)).sum =
        ids.advanceBy (p.drawn o + (pairs.map (FilePair.drawn o)).sum) :=
      congrArg IdSource.mk (ids.ahead_advanceBy _ _)
    rw [analyzeEach, FilePair.analyzePair_eq (h p List.mem_cons_self)]
    simp only [bind, Except.bind, ih (fun q hq => h q (List.mem_cons_of_mem _ hq)), hadvance]
    rfl

/-- Analysing pairs records their outcomes one by one and draws their ids in order. -/
lemma analyzePairs_eq (h : ∀ p ∈ pairs, p.TellsApart o.simplify) (ids : IdSource) :
    analyzePairs o pairs ids =
      .ok ((outcomesBy o pairs (numbersFrom o pairs ids)).foldl BatchReport.record (.empty o),
        ids.advanceBy (pairs.map (FilePair.drawn o)).sum) := by
  rw [analyzePairs, analyzeEach_eq h ids]
  rfl

/-- There is one numbering for each pair. -/
lemma length_numbersFrom (o : AnalysisOptions) (pairs : List FilePair) (ids : IdSource) :
    (numbersFrom o pairs ids).length = pairs.length := by
  induction pairs generalizing ids with
  | nil => rfl
  | cons p pairs ih => rw [numbersFrom, List.length_cons, ih, List.length_cons]

/-- The ids given out lie ahead of the source, in order. -/
lemma sublist_numbersFrom (o : AnalysisOptions) (pairs : List FilePair) (ids : IdSource) :
    (given o pairs (numbersFrom o pairs ids)).Sublist
      ((List.range (pairs.map (FilePair.drawn o)).sum).map ids.ahead) := by
  induction pairs generalizing ids with
  | nil => exact List.nil_sublist _
  | cons p pairs ih =>
    have hshift : (ids.advanceBy (p.drawn o)).ahead = ids.ahead ∘ (p.drawn o + ·) := by
      funext j
      exact ids.ahead_advanceBy _ j
    have hrest := ih (ids.advanceBy (p.drawn o))
    rw [hshift, ← List.map_map] at hrest
    rw [given, numbersFrom, List.zipWith_cons_cons, List.flatten_cons, List.map_cons, List.sum_cons,
      List.range_add, List.map_append]
    exact ((List.range_sublist.2 p.scopes_le_drawn).map ids.ahead).append hrest

/-- A batch holds the results of all its pairs, each as it is for the pair alone, as long as no more numbers
are drawn than there are words. The same holds of pairs that run side by side, in whatever order they draw
their numbers. -/
theorem analyzePairs_separate (h : ∀ p ∈ pairs, p.TellsApart o.simplify) (ids : IdSource)
    (hdrawn : (pairs.map (FilePair.drawn o)).sum ≤ 2 ^ 64) :
    (∃ outcomes r ids', analyzeEach o pairs ids = .ok (outcomes, ids') ∧
        analyzePairs o pairs ids = .ok (r, ids') ∧ Separate o pairs outcomes r) ∧
      ∀ numbers, numbers.length = pairs.length → (given o pairs numbers).Nodup →
        Separate o pairs (outcomesBy o pairs numbers)
          ((outcomesBy o pairs numbers).foldl BatchReport.record (.empty o)) := by
  have hgiven : (given o pairs (numbersFrom o pairs ids)).Nodup :=
    (ids.nodup_ahead hdrawn).sublist (sublist_numbersFrom o pairs ids)
  exact ⟨⟨_, _, _, analyzeEach_eq h ids, analyzePairs_eq h ids,
    separate_of_given h (length_numbersFrom o pairs ids) hgiven⟩, fun numbers => separate_of_given h⟩

/-- A repaired text that is not a program. -/
def broken : FilePair :=
  ⟨.empty, .statement "throw_statement" "throw e" 6,
    ⟨"throw", .cons { Syntax.Token.clean "program" none 0 5 with hasError := true } .nil .nil⟩⟩

/-- A statement gives way to another one. -/
def returned : FilePair :=
  ⟨.empty, .statement "throw_statement" "throw e" 6, .statement "return_statement" "return e" 7⟩

/-- Of two pairs the second is skipped, and the first is reported on as if it stood alone. -/
theorem analyzePairs_separate_returned :
    (∀ p ∈ [returned, broken], p.TellsApart false) ∧
      ([returned, broken].map (FilePair.drawn {})).sum ≤ 2 ^ 64 ∧
      ∃ outcomes r ids', analyzeEach {} [returned, broken] .start = .ok (outcomes, ids') ∧
        analyzePairs {} [returned, broken] .start = .ok (r, ids') ∧
        Separate {} [returned, broken] outcomes r := by
  have htell : ∀ p ∈ [returned, broken], p.TellsApart false := by
    intro p hp a b ha hb
    rcases List.mem_pair.1 hp with rfl | rfl
    · obtain ⟨-, rfl⟩ := Source.parse_eq_ok ha
      obtain ⟨-, rfl⟩ := Source.parse_eq_ok hb
      clear ha hb
      decide +kernel
    · cases hb
  have hdrawn : ([returned, broken].map (FilePair.drawn {})).sum ≤ 2 ^ 64 := by
    have hscopes : ∀ p ∈ [returned, broken], (ScopeTree.ofAst (p.buggy.read false)).size +
        (ScopeTree.ofAst (p.repaired.read false)).size = 2 := by decide +kernel
    have hpair : ∀ p ∈ [returned, broken], p.drawn {} ≤ 2 := fun p hp =>
      Nat.le_trans FilePair.drawn_le (Nat.le_of_eq (hscopes p hp))
    have hreturned := hpair returned (by simp)
    have hbroken := hpair broken (by simp)
    rw [List.map_cons, List.map_cons, List.map_nil, List.sum_cons, List.sum_cons, List.sum_nil]
    omega
  exact ⟨htell, hdrawn, (analyzePairs_separate htell .start hdrawn).1⟩

end Mend
