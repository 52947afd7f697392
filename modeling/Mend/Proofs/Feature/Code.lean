import Mathlib.Data.List.Forall2
import Mend.Feature.OfAnalysis
import Mend.Proofs.Detector.Visits

/-!
# Buggy code stays with its function

The vector of a repaired scope carries the code of the buggy scope that it is paired with, or none
(`vectors_code`). Joining a buggy scope brings its code along if the scope has a partner, and leaves the code
of the vector as it is if the function was deleted (`buggyCode_adopt`). Of the scopes that a repaired scope
adopts just one has a partner, so that the order in which they are joined plays no part
(`isPartnersCode_foldl_adopt`).
-/

namespace Mend

open Keyword (Registry Use)
open Syntax (Ast)

@[simp] lemma FeatureVector.buggyCode_addUses (v : FeatureVector) (uses : List Use) :
    (v.addUses uses).buggyCode = v.buggyCode := by
  induction uses generalizing v with
  | nil => rfl
  | cons u uses ih => exact ih (v.add u 1)

namespace Analysis

variable {x : Analysis} {c : Comparison} {p : Provenance} {registry : Registry} {v : FeatureVector}
  {old new : Nat} {olds : List Nat}

/-- The code of the buggy scope that a repaired scope is paired with, or no code if there is none. -/
def IsPartnersCode (x : Analysis) (new : Nat) (code : String) : Prop :=
  (∀ old, x.Paired old new → code = x.codeOf .buggy old) ∧ ((∀ old, ¬ x.Paired old new) → code = "")

/-- A scope with partner brings its code along, a deleted function does not. -/
lemma buggyCode_adopt (registry : Registry) (v : FeatureVector) (old : Nat) :
    (x.adopt registry v old).buggyCode =
      if (x.repairedPartner? old).isSome then x.codeOf .buggy old else v.buggyCode := by
  rw [adopt]
  exact FeatureVector.buggyCode_addUses _ _

/-- Deleted functions leave the code of a vector as it is, however many of them are joined. -/
lemma buggyCode_foldl_adopt_of_deleted (h : ∀ old ∈ olds, x.repairedPartner? old = none) :
    (olds.foldl (x.adopt registry) v).buggyCode = v.buggyCode := by
  induction olds generalizing v with
  | nil => rfl
  | cons old olds ih =>
    rw [List.foldl_cons, ih fun s hs => h s (List.mem_cons_of_mem old hs), buggyCode_adopt,
      h old List.mem_cons_self]
    rfl

/-- If one of the joined scopes has a partner, and the others are deleted functions or are this scope again, the
vector ends up with the code of this scope. -/
lemma buggyCode_foldl_adopt_of_partner (hold : (x.repairedPartner? old).isSome)
    (honly : ∀ s ∈ olds, s = old ∨ x.repairedPartner? s = none)
    (h : old ∈ olds ∨ v.buggyCode = x.codeOf .buggy old) :
    (olds.foldl (x.adopt registry) v).buggyCode = x.codeOf .buggy old := by
  induction olds generalizing v with
  | nil => exact h.resolve_left List.not_mem_nil
  | cons s olds ih =>
    rw [List.foldl_cons]
    refine ih (fun r hr => honly r (List.mem_cons_of_mem s hr)) ?_
    rw [buggyCode_adopt]
    rcases honly s List.mem_cons_self with rfl | hs
    · exact .inr (if_pos hold)
    · rcases h with h | h
      · rcases List.mem_cons.1 h with rfl | h
        · exact .inr (if_pos hold)
        · exact .inl h
      · right
        rw [hs]
        exact h

/-- The scope that adopts a scope with partner is the partner. -/
lemma adopter?_of_repairedPartner? (h : x.repairedPartner? old = some new) : x.adopter? old = some new := by
  rw [adopter?, ScopeTree.chain, List.findSome?_cons, h]

section Rooted

variable (hb : c.buggy.toAst.IsRooted) (hr : c.repaired.toAst.IsRooted) (hc : c.Consistent)

include hb hr hc

/-- Seen from the buggy side the partners are the same. -/
lemma repairedPartner?_eq_some_iff : (of p c).repairedPartner? old = some new ↔ (of p c).Paired old new := by
  have hscripts : (of p c).Paired 0 0 :=
    ⟨0, 0, ScopeTree.owner?_zero hb, ScopeTree.owner?_zero hr, .inl ⟨rfl, rfl⟩⟩
  have hsize : (of p c).repairedScopes.size ≠ 0 :=
    Nat.ne_of_gt (ScopeTree.lt_size_of_owner? (ScopeTree.owner?_zero hr))
  unfold repairedPartner?
  by_cases h0 : old = 0
  · subst h0
    rw [if_pos rfl, if_neg hsize, Option.some.injEq]
    constructor
    · rintro rfl
      exact hscripts
    · exact Paired.right_unique hb hr hc hscripts
  · have hscope : ∀ d, (of p c).repairedScopes.scopeOf? d = some new ↔
        (of p c).repairedScopes.owner? new = some d := fun d => ScopeTree.scopeOf?_eq_some_iff hr
    rw [if_neg h0]
    simp only [Option.bind_eq_some_iff, hscope]
    constructor
    · rintro ⟨d, ⟨s, hs, h⟩, hd⟩
      exact ⟨s, d, hs, hd, .inr h⟩
    · rintro ⟨s, d, hs, hd, ⟨rfl, -⟩ | h⟩
      · have hold := (ScopeTree.scopeOf?_eq_some_iff hb).2 hs
        rw [(ScopeTree.scopeOf?_eq_some_iff hb).2 (ScopeTree.owner?_zero hb)] at hold
        exact absurd (Option.some.inj hold).symm h0
      · exact ⟨d, ⟨s, hs, h⟩, hd⟩

/-- Whatever the order in which the adopted scopes are joined, the code is that of the partner. -/
lemma isPartnersCode_foldl_adopt (hadopted : ∀ old ∈ olds, (of p c).adopter? old = some new)
    (hall : ∀ old, (of p c).Paired old new → old ∈ olds) (hv : v.buggyCode = "") :
    (of p c).IsPartnersCode new (olds.foldl ((of p c).adopt registry) v).buggyCode := by
  constructor
  · intro old hold
    have hpartner := (repairedPartner?_eq_some_iff hb hr hc).2 hold
    refine buggyCode_foldl_adopt_of_partner (by rw [hpartner]; rfl) (fun s hs => ?_) (.inl (hall old hold))
    cases hp : (of p c).repairedPartner? s with
    | none => exact .inr rfl
    | some new' =>
      -- The adopted scope is its own adopter's partner, and there is only one.
      left
      cases (adopter?_of_repairedPartner? hp).symm.trans (hadopted s hs)
      have hs' := (partnerScope?_eq_some_iff hb hr hc).2 ((repairedPartner?_eq_some_iff hb hr hc).1 hp)
      exact Option.some.inj (hs'.symm.trans ((partnerScope?_eq_some_iff hb hr hc).2 hold))
  · intro hnone
    rw [buggyCode_foldl_adopt_of_deleted fun s hs => ?_, hv]
    cases hp : (of p c).repairedPartner? s with
    | none => rfl
    | some new' =>
      cases (adopter?_of_repairedPartner? hp).symm.trans (hadopted s hs)
      exact absurd ((repairedPartner?_eq_some_iff hb hr hc).1 hp) (hnone s)

/-- A repaired scope adopts its partner. -/
lemma mem_adopted_of_paired (h : (of p c).Paired old new) :
    old ∈ (of p c).adopted.filter fun s => (of p c).adopter? s == some new := by
  have hadopter := adopter?_of_repairedPartner? ((repairedPartner?_eq_some_iff hb hr hc).2 h)
  obtain ⟨s, d, hs, -⟩ := h
  have hids : old ∈ (of p c).buggyScopes.ids := List.mem_range.2 (ScopeTree.lt_size_of_owner? hs)
  exact List.mem_filter.2 ⟨List.mem_filter.2 ⟨hids, by rw [hadopter]; rfl⟩, beq_iff_eq.2 hadopter⟩

end Rooted

/-- Every vector carries the buggy code of the function that its scope is paired with, or none. Joining deleted
functions, wherever they stood and in whatever order, never changes the code. -/
theorem vectors_code (hb : c.buggy.toAst.IsRooted) (hr : c.repaired.toAst.IsRooted) (hc : c.Consistent)
    (p : Provenance) (ids : IdSource) :
    List.Forall₂ (fun new v => (of p c).IsPartnersCode new v.buggyCode) (of p c).repairedScopes.ids
      ((of p c).vectors ids).1 ∧
    ∀ (registry : Registry) (v : FeatureVector) (olds : List Nat),
      (∀ old ∈ olds, ∀ new, ¬ (of p c).Paired old new) →
        (olds.foldl ((of p c).adopt registry) v).buggyCode = v.buggyCode := by
  constructor
  · rw [vectors]
    simp only [List.forall₂_map_right_iff]
    refine List.forall₂_same.2 fun new _ => ?_
    apply isPartnersCode_foldl_adopt hb hr hc
    · intro old hold
      exact beq_iff_eq.1 (List.mem_filter.1 hold).2
    · exact fun old => mem_adopted_of_paired hb hr hc
    · exact FeatureVector.buggyCode_addUses _ _
  · intro registry v olds h
    apply buggyCode_foldl_adopt_of_deleted
    intro old hold
    exact Option.eq_none_iff_forall_ne_some.2 fun new hp =>
      h old hold new ((repairedPartner?_eq_some_iff hb hr hc).1 hp)

/-- A function around another one is deleted: the scripts are paired, and the inner functions with their
bodies. -/
def outerDeleted : Comparison :=
  .ofClassified <| Matching.classifiedBy ScopeTree.nested arrow <|
    (((Matching.empty 6 3).link 0 0).link 4 1).link 5 2

lemma consistent_outerDeleted : outerDeleted.Consistent := by
  apply Matching.consistent_classifiedBy
  have hnone := Matching.fits_empty (Matching.Trees.of ScopeTree.nested arrow)
  exact ((hnone.link (s := 0) (d := 0) (by decide)).link (s := 4) (d := 1) (by decide)).link (by decide)

/-- The script and the inner function keep their code, and the deleted function, which the script adopts,
changes nothing. -/
theorem vectors_code_outerDeleted : outerDeleted.buggy.toAst.IsRooted ∧ outerDeleted.repaired.toAst.IsRooted ∧
    outerDeleted.Consistent ∧ (∀ new, ¬ (of .empty outerDeleted).Paired 1 new) ∧
    (of .empty outerDeleted).adopter? 1 = some 0 ∧
    ((of .empty outerDeleted).vectors .start).1.map (·.buggyCode) = ["function f() { x => y }", "x => y"] := by
  have hb : outerDeleted.buggy.toAst.IsRooted := ⟨Ast.isArena_of_root rfl, by decide, by decide⟩
  have hr : outerDeleted.repaired.toAst.IsRooted := ⟨Ast.isArena_of_root rfl, by decide, by decide⟩
  have hc := consistent_outerDeleted
  obtain ⟨hcode, -⟩ := vectors_code hb hr hc .empty .start
  have hscripts : (of .empty outerDeleted).Paired 0 0 := (partnerScope?_eq_some_iff hb hr hc).1 rfl
  have hinner : (of .empty outerDeleted).Paired 2 1 := (partnerScope?_eq_some_iff hb hr hc).1 (by decide +kernel)
  have hdeleted : ∀ new, ¬ (of .empty outerDeleted).Paired 1 new := fun new hnew => by
    have hpartner := (repairedPartner?_eq_some_iff hb hr hc).2 hnew
    rw [show (of .empty outerDeleted).repairedPartner? 1 = none by decide +kernel] at hpartner
    cases hpartner
  refine ⟨hb, hr, hc, hdeleted, by decide +kernel, ?_⟩
  rw [show (of .empty outerDeleted).repairedScopes.ids = [0, 1] by decide +kernel] at hcode
  obtain ⟨v, vs, hv, hvs, heq⟩ := List.forall₂_cons_left_iff.1 hcode
  obtain ⟨w, ws, hw, hws, rfl⟩ := List.forall₂_cons_left_iff.1 hvs
  rw [heq, List.forall₂_nil_left_iff.1 hws, List.map_cons, List.map_cons, List.map_nil, hv.1 0 hscripts,
    hw.1 2 hinner]
  decide +kernel

end Analysis

end Mend
