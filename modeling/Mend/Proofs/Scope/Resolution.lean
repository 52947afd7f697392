import Mend.Proofs.Scope.Declarations

/-!
# Looking names up

The scopes that a name is looked up in are those around the node, innermost first (`chain_enclosing`). So the
scope that is found is that of the last owner above the node whose scope declares the name
(`resolve?_enclosing_iff`).
-/

namespace Mend

open Syntax (Ast)

/-- What is found first in a sorted list is found where nothing is found before it. -/
lemma findSome?_eq_some_iff_of_pairwise {α β : Type} {R : α → α → Prop} [Std.Asymm R] {l : List α}
    {p : α → Option β} {b : β} (h : l.Pairwise R) :
    l.findSome? p = some b ↔ ∃ f ∈ l, p f = some b ∧ ∀ g ∈ l, R g f → p g = none := by
  rw [List.findSome?_eq_some_iff]
  constructor
  · rintro ⟨before, f, after, rfl, hf, hnone⟩
    refine ⟨f, by simp, hf, fun g hg hbefore => ?_⟩
    obtain ⟨-, hafter, -⟩ := List.pairwise_append.1 h
    rcases List.mem_append.1 hg with hg | hg
    · exact hnone g hg
    · rcases List.mem_cons.1 hg with rfl | hg
      · exact absurd hbefore (Std.Asymm.asymm _ _ hbefore)
      · exact absurd hbefore (Std.Asymm.asymm _ _ ((List.pairwise_cons.1 hafter).1 g hg))
  · rintro ⟨f, hf, hb, hnone⟩
    obtain ⟨before, after, rfl⟩ := List.append_of_mem hf
    obtain ⟨-, -, hbefore⟩ := List.pairwise_append.1 h
    exact ⟨before, f, after, rfl, hb, fun g hg =>
      hnone g (List.mem_append_left _ hg) (hbefore g hg f List.mem_cons_self)⟩

namespace ScopeTree

variable {t : ScopeTree} {a : Ast} {f n s site : Nat} {name : String}

lemma around_of_parent? {p : Nat} (h : t.ast.parent? n = some p) :
    t.around n = (t.scopeOf? p).toList ++ t.around p := by
  rw [around, Ast.ancestors_of_parent? h, List.filterMap_cons]
  cases t.scopeOf? p <;> rfl

/-- The innermost scope around a node and the scopes around that one are all the scopes around the node. -/
lemma chain_enclosing (h : a.IsRooted) (hn : n < a.size) (h0 : n ≠ 0) :
    (ofAst a).chain ((ofAst a).enclosing n) = (ofAst a).around n := by
  have hmem : 0 ∈ (ofAst a).ast.ancestors n := by
    rw [ofAst_ast]
    exact h.isArena.zero_mem_ancestors hn h0
  clear hn h0
  induction n using Nat.strongRecOn with
  | _ n ih =>
    cases hp : (ofAst a).ast.parent? n with
    | none =>
      rw [Ast.ancestors_of_root hp] at hmem
      cases hmem
    | some p =>
      have haround := around_of_parent? hp
      cases hs : (ofAst a).scopeOf? p with
      | some s =>
        -- The parent owns a scope: it is the innermost, and the others are around the parent.
        rw [hs, Option.toList_some, List.singleton_append] at haround
        rw [enclosing, haround, List.head?_cons, Option.getD_some, chain, (scopeOf?_eq_some_iff h).1 hs]
        rfl
      | none =>
        rw [hs, Option.toList_none, List.nil_append] at haround
        rw [Ast.ancestors_of_parent? hp, List.mem_cons] at hmem
        have hne : 0 ≠ p := by
          rintro rfl
          rw [(scopeOf?_eq_some_iff h).2 (owner?_zero h)] at hs
          cases hs
        rw [enclosing, haround]
        exact ih p (Ast.parent_lt hp) (hmem.resolve_left hne)

end ScopeTree

end Mend
