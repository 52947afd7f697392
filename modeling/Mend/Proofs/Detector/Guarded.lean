import Mend.Detector.SpecialValue
import Mend.Proofs.Flow.Covers
import Mend.Proofs.Scope.Shape
import Mend.Proofs.Sentinel.Exclusion

/-!
# Looking for tests first changes nothing

Before the detector of special values looks at dereferences, it looks whether an inserted guard of the scope
tests for anything at all. This only saves work (`specialValue_eq`). What a condition rules out it also tests
for (`Condition.mem_tests_of_mem_excluded`), and a guard that covers a node stands in the same function as the
node (`enclosingFunction?_of_mem_covers`); so the guard of every finding is among those that were looked at.
-/

namespace Mend

open Syntax (Ast)

/-- A condition tests for what it rules out, whichever way it comes out. -/
lemma Condition.mem_tests_of_mem_excluded {c : Condition} {outcome : Bool} {f : Fact}
    (h : f ∈ c.excluded outcome) : f ∈ c.tests := by
  induction c generalizing outcome with
  | truth p =>
    cases outcome with
    | true => exact h
    | false => cases h
  | negation c ih => exact ih h
  | both l r ihl ihr =>
    cases outcome with
    | true => exact List.mem_append.2 ((List.mem_append.1 h).imp ihl ihr)
    | false => cases h
  | either l r ihl ihr =>
    cases outcome with
    | true => cases h
    | false => exact List.mem_append.2 ((List.mem_append.1 h).imp ihl ihr)
  | comparison op l r =>
    rw [excluded] at h
    split at h
    · exact h
    · cases h
  | isNaN p =>
    cases outcome with
    | true => cases h
    | false => exact h
  | unknown => cases h

namespace Syntax.Ast

variable {a : Ast} {n i p : Nat} {cover : Cover}

/-- A guard that tests for nothing rules nothing out. -/
lemma ruledOut_eq_nil (h : a.guardTests cover.guard = []) : a.ruledOut cover = [] := by
  unfold guardTests at h
  unfold ruledOut
  cases hc : a.guardCondition? cover.guard with
  | none => rfl
  | some e =>
    rw [hc, Option.elim_some] at h
    refine List.eq_nil_iff_forall_not_mem.2 fun f hf => ?_
    have := Condition.mem_tests_of_mem_excluded hf
    rw [h] at this
    cases this

/-- A cover is found at a guard. -/
lemma isGuard_of_coverOf? {up below : Nat} (h : a.coverOf? up below = some cover) : a.isGuard up = true := by
  unfold coverOf? at h
  split at h
  · next hk => simp [isGuard, hk]
  · next hk => simp [isGuard, hk]
  · split at h
    · next hguard => exact (Bool.and_eq_true_iff.1 hguard).1
    · cases h
  · cases h

/-- An early exit is a guard. -/
lemma isGuard_of_isEarlyExit (h : a.isEarlyExit i = true) : a.isGuard i = true := by
  simp [isGuard, kind_of_isEarlyExit h]

/-- A node and its parent have one enclosing function, unless the parent is one. -/
lemma enclosingFunction?_of_parent? (hp : a.parent? i = some p) (hfun : a.isFunction p = false) :
    a.enclosingFunction? i = a.enclosingFunction? p := by
  rw [enclosingFunction?, ancestors_of_parent? hp, List.find?_cons, hfun]
  rfl

/-- On the way out of a node all steps before the first function are made in one function. -/
lemma enclosingFunction?_of_mem_ascent {up below : Nat}
    (h : (up, below) ∈ (a.ascent n).takeWhile fun (up, _) => !a.isFunction up) :
    a.isFunction up = false ∧ a.enclosingFunction? up = a.enclosingFunction? n := by
  fun_induction ancestors a n with
  | case1 n hroot =>
    rw [ascent, ancestors_of_root hroot] at h
    cases h
  | case2 n p hp ih =>
    rw [ascent_of_parent? hp] at h
    cases hfun : a.isFunction p with
    | true => simp [hfun] at h
    | false =>
      rw [List.takeWhile_cons_of_pos (by simp [hfun]), List.mem_cons] at h
      rw [enclosingFunction?_of_parent? hp hfun]
      rcases h with h | h
      · cases h
        exact ⟨hfun, rfl⟩
      · exact ih h

/-- What covers a node is around it, or a child of something around it, within the same function. -/
lemma cover_cases (h : cover ∈ a.covers n) :
    a.isGuard cover.guard = true ∧ a.enclosingFunction? cover.guard = a.enclosingFunction? n ∧
      ∃ up below, (up, below) ∈ a.ascent n ∧ (cover.guard = up ∨ cover.guard ∈ a.children up) := by
  obtain ⟨⟨up, below⟩, hstep, hcover⟩ := List.mem_flatMap.1 h
  obtain ⟨hfun, hsame⟩ := enclosingFunction?_of_mem_ascent hstep
  have hascent := List.takeWhile_subset _ hstep
  rcases List.mem_append.1 hcover with hcover | hcover
  · rw [Option.mem_toList] at hcover
    have hup := guard_of_coverOf? hcover
    rw [hup]
    exact ⟨isGuard_of_coverOf? hcover, hsame, up, below, hascent, .inl rfl⟩
  · obtain ⟨g, hg, rfl⟩ := List.mem_map.1 hcover
    obtain ⟨hbefore, hexit⟩ := List.mem_filter.1 hg
    have hchild : g ∈ a.children up := List.takeWhile_subset _ hbefore
    refine ⟨isGuard_of_isEarlyExit hexit, ?_, up, below, hascent, .inr hchild⟩
    rw [← hsame]
    exact enclosingFunction?_of_parent? (parent?_eq_some_iff.2 hchild) hfun

end Syntax.Ast

namespace ScopeTree

variable {a : Ast} {s n : Nat}

/-- Nodes of one function have one scope around them. -/
lemma enclosing_congr (h : a.IsRooted) {m : Nat} (hsame : a.enclosingFunction? m = a.enclosingFunction? n) :
    (ofAst a).enclosing m = (ofAst a).enclosing n := by
  cases hf : a.enclosingFunction? n with
  | none =>
    rw [enclosing_of_outer h (Ast.enclosingFunction?_eq_none_iff.1 hf),
      enclosing_of_outer h (Ast.enclosingFunction?_eq_none_iff.1 (hsame.trans hf))]
  | some f =>
    have hn := enclosing_of_innermost h (Ast.enclosingFunction?_eq_some_iff.1 hf)
    have hm := enclosing_of_innermost h (Ast.enclosingFunction?_eq_some_iff.1 (hsame.trans hf))
    exact Option.some.inj (((scopeOf?_eq_some_iff h).2 hm).symm.trans ((scopeOf?_eq_some_iff h).2 hn))

/-- A scope with own nodes is a scope of the tree. -/
lemma lt_size_of_mem_ownNodes {t : ScopeTree} (hn : n ∈ t.ownNodes s) : s < t.size := by
  unfold ownNodes owner? at hn
  split at hn
  · cases hn
  · next h => exact (List.getElem?_eq_some_iff.1 h).1

/-- A guard that covers a node of a scope belongs to the scope itself. -/
lemma guard_mem_ownNodes (h : a.IsScript) (hn : n ∈ (ofAst a).ownNodes s) {cover : Ast.Cover}
    (hcover : cover ∈ a.covers n) : cover.guard ∈ (ofAst a).ownNodes s := by
  have hs := lt_size_of_mem_ownNodes hn
  obtain ⟨-, hsize, hscope⟩ := (mem_ownNodes h.isRooted hs).1 hn
  obtain ⟨hguard, hsame, up, below, hstep, hup⟩ := Ast.cover_cases hcover
  have hbelow := Ast.mem_children (Ast.mem_ascent hstep).1
  refine (mem_ownNodes h.isRooted hs).2 ⟨?_, ?_, ?_⟩
  · intro h0
    rw [h0, Ast.isGuard, h.kind_zero] at hguard
    cases hguard
  · rcases hup with hup | hup
    · omega
    · exact (Ast.mem_children hup).2
  · rw [enclosing_congr h.isRooted hsame, hscope]

end ScopeTree

namespace Detector

variable {c : Comparison} {p : Provenance}

/-- What is found in a repaired scope without looking for tests first. -/
def newlyGuardedThroughout (x : Analysis) (new : Nat) : List Finding :=
  (firstOfEach ((x.repairedScopes.ownNodes new).flatMap (protections x))).map fun p =>
    x.finding new p.line (.specialValueGuardAdded p.path p.sentinels)

/-- The detector of special values that does not look for tests first. -/
def specialValueThroughout : Detector where
  name := "special-value"
  inScopes x pair :=
    match pair.buggy, pair.repaired with
    | some _, some new => newlyGuardedThroughout x new
    | _, _ => []

/-- Where something is protected, an inserted guard tests for something. -/
lemma guardTests_of_mem_protections {x : Analysis} {node : Nat} {q : Protection} (hq : q ∈ protections x node) :
    ∃ cover ∈ x.comparison.repaired.covers node, x.comparison.repaired.change cover.guard = .inserted ∧
      x.comparison.repaired.guardTests cover.guard ≠ [] := by
  unfold protections at hq
  dsimp only at hq
  split at hq
  · split at hq
    · obtain ⟨cover, hcover, hq⟩ := List.mem_flatMap.1 hq
      obtain ⟨hcover, hinserted⟩ := List.mem_filter.1 hcover
      refine ⟨cover, hcover, beq_iff_eq.1 hinserted, fun hnone => ?_⟩
      rw [Ast.ruledOut_eq_nil hnone] at hq
      cases hq
    · cases hq
  · cases hq

/-- A scope where something is protected has an inserted guard that tests for something. -/
lemma testsAnything_of_mem_protections (hr : c.repaired.toAst.IsScript) {scope node : Nat} {q : Protection}
    (hnode : node ∈ (ScopeTree.ofAst c.repaired.toAst).ownNodes scope) (hq : q ∈ protections (.of p c) node) :
    testsAnything c.repaired ((ScopeTree.ofAst c.repaired.toAst).ownNodes scope) = true := by
  obtain ⟨cover, hcover, hinserted, htests⟩ := guardTests_of_mem_protections hq
  refine List.any_eq_true.2 ⟨cover.guard, ScopeTree.guard_mem_ownNodes hr hnode hcover, ?_⟩
  have hguard : c.repaired.isGuard cover.guard = true := (Ast.cover_cases hcover).1
  have hinserted : c.repaired.change cover.guard = .inserted := hinserted
  have htests : (c.repaired.guardTests cover.guard).isEmpty = false := by
    rw [List.isEmpty_eq_false_iff]
    exact htests
  rw [hguard, hinserted, htests]
  rfl

/-- What is newly guarded may be told without the early return. -/
lemma newlyGuarded_eq (hr : c.repaired.toAst.IsScript) (p : Provenance) (new : Nat) :
    newlyGuarded (.of p c) new = newlyGuardedThroughout (.of p c) new := by
  unfold newlyGuarded newlyGuardedThroughout
  dsimp only
  split
  · rfl
  · next hnone =>
    have hprotections : ((Analysis.of p c).repairedScopes.ownNodes new).flatMap (protections (.of p c)) = [] :=
      List.flatMap_eq_nil_iff.2 fun node hnode => List.eq_nil_iff_forall_not_mem.2 fun _ hq =>
        hnone (testsAnything_of_mem_protections hr hnode hq)
    rw [hprotections]
    rfl

/-- Looking for tests first is only a matter of speed. Pointwise, a condition tests for whatever it excludes; an
inserted guard that covers a node of a scope belongs to the scope; and at every visit the detector finds what it
would find without looking for tests. -/
theorem specialValue_eq (hr : c.repaired.toAst.IsScript) (p : Provenance) :
    (∀ (a : Ast) i outcome path s, (sentinelsOf ((a.condition i).excluded outcome) path).contains s = true →
      (sentinelsOf (a.condition i).tests path).contains s = true) ∧
    (∀ scope, ∀ node ∈ (ScopeTree.ofAst c.repaired.toAst).ownNodes scope, ∀ cover ∈ c.repaired.covers node,
      c.repaired.change cover.guard = .inserted →
        cover.guard ∈ (ScopeTree.ofAst c.repaired.toAst).ownNodes scope) ∧
    ∀ pair, specialValue.inScopes (.of p c) pair = specialValueThroughout.inScopes (.of p c) pair := by
  refine ⟨fun a i outcome path s h => ?_, fun _ _ hnode _ hcover _ => ScopeTree.guard_mem_ownNodes hr hnode hcover,
    fun pair => ?_⟩
  · rw [contains_sentinelsOf] at h ⊢
    exact Condition.mem_tests_of_mem_excluded h
  · match pair with
    | ⟨none, _⟩ => rfl
    | ⟨some _, none⟩ => rfl
    | ⟨some _, some new⟩ => exact newlyGuarded_eq hr p new

/-- A member read without a guard. -/
def unguarded : Ast :=
  .ofForest "o.x;" <|
    .cons ⟨"program", none, "", 0, 4, 1⟩
      (.cons ⟨"expression_statement", none, "", 0, 4, 1⟩
        (.cons ⟨"member_expression", none, "", 0, 3, 1⟩
          (.cons ⟨"identifier", some "object", "o", 0, 1, 1⟩ .nil
            (.cons ⟨"property_identifier", some "property", "x", 2, 3, 1⟩ .nil .nil)) .nil) .nil) .nil

/-- The same read behind an early exit. -/
def leftEarly : Ast :=
  .ofForest "if (!o) throw 0; o.x;" <|
    .cons ⟨"program", none, "", 0, 21, 1⟩
      (.cons ⟨"if_statement", none, "", 0, 16, 1⟩
        (.cons ⟨"parenthesized_expression", some "condition", "", 3, 7, 1⟩
          (.cons ⟨"unary_expression", none, "!", 4, 6, 1⟩
            (.cons ⟨"identifier", some "argument", "o", 5, 6, 1⟩ .nil .nil) .nil)
          (.cons ⟨"throw_statement", some "consequence", "", 8, 16, 1⟩
            (.cons ⟨"number", none, "0", 14, 15, 1⟩ .nil .nil) .nil))
        (.cons ⟨"expression_statement", none, "", 17, 21, 1⟩
          (.cons ⟨"member_expression", none, "", 17, 20, 1⟩
            (.cons ⟨"identifier", some "object", "o", 17, 18, 1⟩ .nil
              (.cons ⟨"property_identifier", some "property", "x", 19, 20, 1⟩ .nil .nil)) .nil) .nil)) .nil

/-- The two programs compared: the statement of the first is the last statement of the second. -/
def guarding : Comparison :=
  .ofClassified <| Matching.classifiedBy unguarded leftEarly <|
    ([(0, 0), (1, 7), (2, 8), (3, 9), (4, 10)]).foldl (fun m (s, d) => m.link s d) (.empty 5 11)

/-- A dereference after an inserted early exit is found by both. -/
theorem specialValue_eq_guarding : guarding.repaired.toAst.IsScript ∧
    specialValue.inScopes (.of .empty guarding) ⟨some 0, some 0⟩ =
      [(Analysis.of .empty guarding).finding 0 1 (.specialValueGuardAdded "o" (.single .falsey))] ∧
    specialValueThroughout.inScopes (.of .empty guarding) ⟨some 0, some 0⟩ =
      [(Analysis.of .empty guarding).finding 0 1 (.specialValueGuardAdded "o" (.single .falsey))] := by
  have hr : guarding.repaired.toAst.IsScript := ⟨_, _, rfl, rfl⟩
  have hfound : specialValue.inScopes (.of .empty guarding) ⟨some 0, some 0⟩ =
      [(Analysis.of .empty guarding).finding 0 1 (.specialValueGuardAdded "o" (.single .falsey))] := by
    decide +kernel
  obtain ⟨-, -, hsame⟩ := specialValue_eq hr .empty
  exact ⟨hr, hfound, (hsame _).symm.trans hfound⟩

end Detector

end Mend
