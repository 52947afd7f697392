import Mend.Comparison
import Mend.Proofs.Matching.Labels

/-!
# What is compared

A parser's tree has one root, the node of a whole script (`Source.IsScript`), and so has the tree that is
read from it (`Source.IsScript.read`). A comparison that comes to its end is about these two trees
(`compare_eq_ok`), and it comes to its end for texts without faults whose digests tell their subtrees
apart (`compare_of_tellsApart`).
-/

namespace Mend

open Digest (TellsApart)
open Matching (classify)
open Syntax (Ast Source)

/-- A program of one root, the node of a whole script. -/
def Syntax.Ast.IsScript (a : Ast) : Prop := ∃ x kids, a.tree = .cons x kids .nil ∧ x.kind = "program"

/-- A parser's tree as it is for every text: one root, the grammar rule for a whole script. -/
def Syntax.Source.IsScript (s : Source) : Prop :=
  ∃ t kids, s.tree = .cons t kids .nil ∧ t.named = true ∧ t.kind = "program"

namespace Syntax

lemma Source.IsScript.read {s : Source} (h : s.IsScript) (simplify : Bool) :
    (s.read simplify).IsScript := by
  obtain ⟨t, kids, hT, hnamed, hkind⟩ := h
  have hwrapper : isWrapper t kids = false := by simp [isWrapper, hkind]
  refine ⟨⟨t.kind, none, labelOf s.text t kids, t.start, t.stop, t.row + 1⟩,
    if leafKinds.contains t.kind then .nil else readForest s.text simplify kids .all, ?_, hkind⟩
  simp only [Source.read, Ast.ofForest, hT, readForest, Pick.skips, hnamed, hwrapper, Bool.not_true,
    Bool.and_false, Bool.false_eq_true, if_false, Pick.role]

namespace Ast

variable {a : Ast}

lemma IsScript.kind_zero (h : a.IsScript) : a.kind 0 = "program" := by
  obtain ⟨x, kids, hT, hkind⟩ := h
  rw [kind_of_sub? (sub?_of_root hT), hkind]

lemma IsScript.not_isFunction (h : a.IsScript) : a.isFunction 0 = false := by
  rw [isFunction, h.kind_zero]
  decide

end Ast

end Syntax

variable {simplify : Bool} {buggy repaired : Source} {c : Comparison}

lemma compare_eq (hbuggy : Text.isBlankText buggy.text = false)
    (hrepaired : Text.isBlankText repaired.text = false) (hb : buggy.tree.fault? = none)
    (hr : repaired.tree.fault? = none) :
    compare simplify buggy repaired =
      (classify (buggy.read simplify) (repaired.read simplify)).map .ofClassified := by
  unfold compare Source.parse
  rw [hbuggy, hrepaired, hb, hr]
  cases hc : classify (buggy.read simplify) (repaired.read simplify) with
  | error e => simp only [bind, Except.bind, hc, Except.map, Bool.false_eq_true, if_false]
  | ok d => simp only [bind, Except.bind, hc, Except.map, pure, Except.pure, Bool.false_eq_true, if_false]

/-- A comparison that comes to its end is about texts that are not blank and have no fault. -/
lemma compare_guards (h : compare simplify buggy repaired = .ok c) :
    Text.isBlankText buggy.text = false ∧ Text.isBlankText repaired.text = false ∧
      buggy.tree.fault? = none ∧ repaired.tree.fault? = none := by
  unfold compare Source.parse at h
  cases hbuggy : Text.isBlankText buggy.text with
  | true =>
    rw [hbuggy] at h
    cases h
  | false =>
    cases hrepaired : Text.isBlankText repaired.text with
    | true =>
      rw [hbuggy, hrepaired] at h
      cases h
    | false =>
      cases hb : buggy.tree.fault? with
      | some fault =>
        rw [hbuggy, hrepaired, hb] at h
        cases h
      | none =>
        cases hr : repaired.tree.fault? with
        | some fault =>
          rw [hbuggy, hrepaired, hb, hr] at h
          cases h
        | none => exact ⟨rfl, rfl, rfl, rfl⟩

/-- A comparison that comes to its end labels the trees of the two texts. -/
lemma compare_eq_ok (h : compare simplify buggy repaired = .ok c) :
    c.buggy.toAst = buggy.read simplify ∧ c.repaired.toAst = repaired.read simplify := by
  obtain ⟨hbuggy, hrepaired, hb, hr⟩ := compare_guards h
  rw [compare_eq hbuggy hrepaired hb hr] at h
  -- Whatever the matching says, the labels are put on the two trees as they were read.
  unfold classify at h
  dsimp only at h
  split at h
  · cases h
  · cases h
    exact ⟨rfl, rfl⟩

/-- The labels of a comparison are consistent with its matching, if digests tell subtrees apart. -/
lemma compare_consistent (h : compare simplify buggy repaired = .ok c)
    (htells : TellsApart (buggy.read simplify) (repaired.read simplify)) : c.Consistent := by
  obtain ⟨hbuggy, hrepaired, hb, hr⟩ := compare_guards h
  rw [compare_eq hbuggy hrepaired hb hr, Matching.classify_eq htells] at h
  cases h
  exact Matching.consistent_classifiedBy (Matching.Trees.safe_matching htells).2

/-- Texts that are not blank and have no fault are compared, if digests tell their subtrees apart. -/
lemma compare_of_tellsApart (hbuggy : Text.isBlankText buggy.text = false)
    (hrepaired : Text.isBlankText repaired.text = false) (hb : buggy.tree.fault? = none)
    (hr : repaired.tree.fault? = none)
    (h : TellsApart (buggy.read simplify) (repaired.read simplify)) :
    ∃ c, compare simplify buggy repaired = .ok c := by
  rw [compare_eq hbuggy hrepaired hb hr, Matching.classify_eq h]
  exact ⟨_, rfl⟩

end Mend
