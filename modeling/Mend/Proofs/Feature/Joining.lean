import Mend.Proofs.Feature.Code
import Mend.Proofs.Feature.Numbers
import Mend.Proofs.Scope.Build
import Mend.Proofs.Scope.Globals

/-!
# Joining the buggy scopes in one pass

The vectors as one pass over either side makes them (`Joining.run`): one for each repaired scope with the next
number, and then every buggy scope is joined to the vector of its partner, or to the one that took over the scope
around it. The pass records what was taken over, and looks nothing up but the record. As the scope around a
scope comes before it, the record is what the scopes around a scope decide (`adopter?_eq`), and every vector
takes over its scopes in order (`Joining.Follows`). So the pass ends with the vectors and the source of numbers of
the comparison (`run_joining`).
-/

namespace Mend

open Keyword (Registry)

lemma IdSource.advance_advanceBy (ids : IdSource) (n : Nat) :
    (ids.advanceBy n).advance = ids.advanceBy (n + 1) := by
  rw [advance, advanceBy, advanceBy, ahead, ahead, UInt64.ofNat_add, ← UInt64.add_assoc]
  rfl

namespace Analysis

/-- What one pass has when some of the buggy scopes are joined. -/
structure Joining where
  /-- The scopes that were taken over, the last one first, each with the repaired scope that did. -/
  targets : List (Nat × Nat)
  vectors : List FeatureVector
  ids : IdSource

namespace Joining

/-- Adds the vector of a repaired scope by itself, with the next number. -/
def begin (x : Analysis) (j : Joining) (new : Nat) : Joining :=
  { j with
    vectors := j.vectors ++ [x.ownVector (Registry.ofAst x.comparison.repaired.toAst) j.ids.next new]
    ids := j.ids.advance }

/-- The repaired scope that takes over a buggy scope: its partner, or the one that took over the scope
around it. -/
def target? (x : Analysis) (j : Joining) (old : Nat) : Option Nat :=
  (x.repairedPartner? old).or ((x.buggyScopes.parent? old).bind fun around => j.targets.lookup around)

/-- Joins a buggy scope to the vector that takes it over, if there is one, and uses up a number for it. -/
def join (x : Analysis) (j : Joining) (old : Nat) : Joining :=
  match j.target? x old with
  | none => j
  | some new =>
    { targets := (old, new) :: j.targets
      vectors := j.vectors.modify new fun v => x.adopt (Registry.ofAst x.comparison.buggy.toAst) v old
      ids := j.ids.advance }

/-- The pass over the repaired scopes and then over the buggy ones. -/
def run (x : Analysis) (ids : IdSource) : Joining :=
  x.buggyScopes.ids.foldl (join x) (x.repairedScopes.ids.foldl (begin x) ⟨[], [], ids⟩)

end Joining

variable {x : Analysis} {c : Comparison} {p : Provenance} {ids : IdSource} {j : Joining} {n old new : Nat}

/-- A buggy scope is adopted by its partner, or else by the adopter of the scope around it. -/
lemma adopter?_eq (hb : c.buggy.toAst.IsRooted) (old : Nat) : (of p c).adopter? old =
    ((of p c).repairedPartner? old).or (((of p c).buggyScopes.parent? old).bind (of p c).adopter?) := by
  cases hp : (of p c).buggyScopes.parent? old with
  | none =>
    have hchain : (of p c).buggyScopes.chain old = [old] := ScopeTree.chain_eq_of_outermost hp
    rw [adopter?, hchain, List.findSome?_singleton, Option.bind_none, Option.or_none]
  | some around =>
    have hchain : (of p c).buggyScopes.chain old = old :: (of p c).buggyScopes.chain around :=
      ScopeTree.chain_eq_of_parent? hb hp
    rw [adopter?, hchain, List.findSome?_cons, Option.bind_some]
    cases (of p c).repairedPartner? old <;> rfl

/-- The buggy scopes before `n` that a repaired scope adopts. -/
def adoptedBefore (x : Analysis) (n new : Nat) : List Nat :=
  (List.range n).filter fun old => x.adopter? old == some new

/-- The vector of a repaired scope when the buggy scopes before `n` are joined. -/
def vectorBefore (x : Analysis) (ids : IdSource) (n new : Nat) : FeatureVector :=
  (x.adoptedBefore n new).foldl (x.adopt (Registry.ofAst x.comparison.buggy.toAst))
    (x.ownVector (Registry.ofAst x.comparison.repaired.toAst) (ids.ahead new) new)

/-- The number of scopes before `n` that are adopted. -/
def adoptions (x : Analysis) (n : Nat) : Nat := ((List.range n).filter fun old => (x.adopter? old).isSome).length

/-- The pass is at the buggy scope `n`. -/
structure Joining.Follows (x : Analysis) (ids : IdSource) (j : Joining) (n : Nat) : Prop where
  lookup : ∀ old, j.targets.lookup old = if old < n then x.adopter? old else none
  vectors : j.vectors = x.repairedScopes.ids.map (x.vectorBefore ids n)
  ids : j.ids = ids.advanceBy (x.repairedScopes.size + x.adoptions n)

lemma vectorBefore_succ (x : Analysis) (ids : IdSource) (n new : Nat) : x.vectorBefore ids (n + 1) new =
    if x.adopter? n = some new then
      x.adopt (Registry.ofAst x.comparison.buggy.toAst) (x.vectorBefore ids n new) n
    else x.vectorBefore ids n new := by
  rw [vectorBefore, adoptedBefore, List.range_succ, List.filter_append, List.foldl_append, List.filter_cons,
    List.filter_nil]
  simp only [beq_iff_eq]
  split <;> rfl

lemma adoptions_succ (x : Analysis) (n : Nat) :
    x.adoptions (n + 1) = x.adoptions n + if (x.adopter? n).isSome then 1 else 0 := by
  rw [adoptions, List.range_succ, List.filter_append, List.length_append, List.filter_cons, List.filter_nil]
  congr 1
  split <;> rfl

namespace Joining

/-- The record gives the scope that adopts the next one. -/
lemma Follows.target?_eq (hb : c.buggy.toAst.IsRooted) (hj : j.Follows (of p c) ids n) :
    j.target? (of p c) n = (of p c).adopter? n := by
  rw [target?, adopter?_eq hb]
  cases hp : (of p c).buggyScopes.parent? n with
  | none => rfl
  | some around =>
    rw [Option.bind_some, Option.bind_some, hj.lookup around, if_pos (ScopeTree.parent?_lt hb hp)]

/-- Joining the next buggy scope. -/
lemma Follows.join (hb : c.buggy.toAst.IsRooted) (hj : j.Follows (of p c) ids n) :
    (j.join (of p c) n).Follows (of p c) ids (n + 1) := by
  have htarget := hj.target?_eq hb
  cases hn : (of p c).adopter? n with
  | none =>
    rw [Joining.join, htarget, hn]
    constructor
    · intro old
      rw [hj.lookup]
      by_cases hold : old = n
      · rw [hold, if_neg (Nat.lt_irrefl n), if_pos (Nat.lt_succ_self n), hn]
      · exact if_congr (by omega) rfl rfl
    · rw [hj.vectors]
      refine List.map_congr_left fun new _ => ?_
      rw [vectorBefore_succ, hn, if_neg nofun]
    · rw [hj.ids, adoptions_succ, hn]
      rfl
  | some new =>
    rw [Joining.join, htarget, hn]
    constructor
    · intro old
      rw [List.lookup_cons]
      by_cases hold : old = n
      · rw [hold, beq_self_eq_true, if_pos (Nat.lt_succ_self n), hn]
      · rw [beq_eq_false_iff_ne.2 hold]
        exact (hj.lookup old).trans (if_congr (by omega) rfl rfl)
    · dsimp only
      rw [hj.vectors, ScopeTree.ids, modify_map_range]
      refine List.map_congr_left fun i _ => ?_
      rw [vectorBefore_succ, hn]
      exact if_congr (by rw [Option.some.injEq]) rfl rfl
    · dsimp only
      rw [hj.ids, adoptions_succ, hn]
      exact IdSource.advance_advanceBy _ _

lemma Follows.foldl_join (hb : c.buggy.toAst.IsRooted) (hj : j.Follows (of p c) ids 0) (n : Nat) :
    ((List.range n).foldl (Joining.join (of p c)) j).Follows (of p c) ids n := by
  induction n with
  | zero => exact hj
  | succ n ih =>
    rw [List.range_succ, List.foldl_append]
    exact ih.join hb

/-- Before any buggy scope is joined there is a vector for each repaired scope. -/
lemma foldl_begin (x : Analysis) (ids : IdSource) (n : Nat) :
    (List.range n).foldl (begin x) ⟨[], [], ids⟩ =
      ⟨[], (List.range n).map (x.vectorBefore ids 0), ids.advanceBy n⟩ := by
  induction n with
  | zero =>
    rw [IdSource.advanceBy_zero]
    rfl
  | succ n ih =>
    rw [List.range_succ, List.foldl_append, ih, List.map_append, List.foldl_cons, List.foldl_nil, begin,
      IdSource.advance_advanceBy]
    rfl

/-- The whole pass. -/
lemma run_follows (hb : c.buggy.toAst.IsRooted) (p : Provenance) (ids : IdSource) :
    (run (of p c) ids).Follows (of p c) ids (of p c).buggyScopes.size := by
  rw [run, ScopeTree.ids, ScopeTree.ids, foldl_begin]
  exact Follows.foldl_join hb ⟨fun _ => (if_neg (Nat.not_lt_zero _)).symm, rfl, rfl⟩ _

end Joining

/-- The pass records who adopts each of the buggy scopes, and gives the vectors of the comparison and the source
of numbers after them. -/
theorem run_joining (hb : c.buggy.toAst.IsRooted) (p : Provenance) (ids : IdSource) :
    (∀ old < (of p c).buggyScopes.size,
      (Joining.run (of p c) ids).targets.lookup old = (of p c).adopter? old) ∧
    ((Joining.run (of p c) ids).vectors, (Joining.run (of p c) ids).ids) = (of p c).vectors ids := by
  have hrun := Joining.run_follows hb p ids
  refine ⟨fun old hold => by rw [hrun.lookup, if_pos hold], ?_⟩
  have hadopted : ∀ new, ((of p c).adopted.filter fun old => (of p c).adopter? old == some new) =
      (of p c).adoptedBefore (of p c).buggyScopes.size new := fun new => by
    rw [adopted, List.filter_filter, adoptedBefore, ScopeTree.ids]
    refine List.filter_congr fun old _ => ?_
    cases (of p c).adopter? old <;> simp
  rw [hrun.vectors, hrun.ids, vectors]
  simp only [hadopted]
  rfl

end Analysis

end Mend
