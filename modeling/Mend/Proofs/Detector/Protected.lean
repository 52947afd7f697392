import Mend.Proofs.Detector.Unprotected

/-!
# Calls that are newly protected

What the detector of error handling reports is a call that was there before the repair, that stands in the body
of an inserted `try` statement of its scope now, and whose partner no `try` statement protected
(`errorHandling_sound`). The walks on both sides leave something out, functions on the one side and `try`
statements in clauses on the other, but nothing that they find is a call of another scope
(`mem_ownNodes_of_body`, `unprotected_of_mem`).
-/

namespace Mend

open Syntax (Ast)

/-- A call of the repaired scope `new` was there before the repair and stands in the body of an inserted `try`
statement of the scope; its partner is a call of the buggy scope `old` that no `try` statement protects. -/
structure NewlyProtected (c : Comparison) (old new call : Nat) : Prop where
  owned : call ∈ (ScopeTree.ofAst c.repaired.toAst).ownNodes new
  isCall : c.repaired.kind call = "call_expression"
  kept : c.repaired.change call = .unchanged ∨ c.repaired.change call = .moved
  inTry : ∃ t body, t ∈ (ScopeTree.ofAst c.repaired.toAst).ownNodes new ∧
    c.repaired.kind t = "try_statement" ∧ c.repaired.change t = .inserted ∧
    c.repaired.child? t "body" = some body ∧ c.repaired.contains body call = true
  exposed : ∃ partner, c.matching.toBuggy? call = some partner ∧
    partner ∈ (ScopeTree.ofAst c.buggy.toAst).ownNodes old ∧ c.buggy.kind partner = "call_expression" ∧
    c.buggy.enclosingTry? partner = none

namespace ScopeTree

variable {a : Ast} {body i j s t : Nat}

/-- What stands in the body of a `try` statement of a scope, outside of functions, belongs to the scope. -/
lemma mem_ownNodes_of_body (h : a.IsRooted) (ht : t ∈ (ofAst a).ownNodes s) (htry : a.kind t = "try_statement")
    (hbody : a.child? t "body" = some body) (hj : j ∈ withoutFunctions a body) :
    a.contains body j = true ∧ j ∈ (ofAst a).ownNodes s := by
  have hchild := Ast.mem_children_of_child? hbody
  have hbounds := Ast.mem_children hchild
  have hplain : a.isFunction t = false := by
    rw [Ast.isFunction, htry]
    decide
  cases hi : (ofAst a).owner? s with
  | none => simp [ownNodes, hi] at ht
  | some i =>
    obtain ⟨⟨hit, hway⟩, hti⟩ := (mem_ownNodes_of_owner? h hi).1 ht
    rw [withoutFunctions, List.mem_filter, Ast.mem_reach hbounds.2] at hj
    obtain ⟨⟨hbj, hfree⟩, -⟩ := hj
    have htj := Ast.contains_of_mem_children hchild hbj
    have hlt : i < j := by
      rw [Ast.contains_iff] at hit hbj
      omega
    refine ⟨hbj, (mem_ownNodes_of_owner? h hi).2
      ⟨⟨Ast.contains_trans hit htj, fun u hiu huj hne => ?_⟩, Nat.ne_of_gt hlt⟩⟩
    -- Whatever stands between the scope and the node is in the body, or it is above the `try` statement.
    rcases Ast.contains_child_or_parent hchild hbj huj with hbu | hut
    · exact .inr (by simpa using hfree u hbu huj hne)
    · by_cases heq : u = t
      · exact .inr (heq ▸ hplain)
      · exact hway u hiu hut heq

/-- A listed call is one of the scope that no `try` statement protects. -/
lemma unprotected_of_mem (h : a.IsScript) (hg : a.NoClauseIsTry)
    (hj : j ∈ ((ofAst a).unprotectedCalls s).map (·.1)) :
    j ∈ (ofAst a).ownNodes s ∧ a.kind j = "call_expression" ∧ a.enclosingTry? j = none := by
  obtain ⟨⟨k, name⟩, hlisted, rfl⟩ := List.mem_map.1 hj
  obtain ⟨hexposed, hcall, -⟩ := of_mem_unprotectedCalls hlisted
  cases hi : (ofAst a).owner? s with
  | none => simp [exposedNodes, hi] at hexposed
  | some i =>
    obtain ⟨hown, hnone, -⟩ := own_of_mem_exposedNodes h hi hg hcall hexposed
    exact ⟨hown, hcall, hnone⟩

end ScopeTree

namespace Detector

variable {c : Comparison} {p : Provenance} {old new call : Nat}

lemma mem_protectedCalls {a : Ast} {t : Nat} : call ∈ protectedCalls a t ↔
    ∃ body, a.child? t "body" = some body ∧ call ∈ ScopeTree.withoutFunctions a body ∧
      a.kind call = "call_expression" := by
  unfold protectedCalls
  cases a.child? t "body" <;> simp

/-- What is found for a pair of scopes is found at a call in the body of an inserted `try` statement. -/
lemma exists_call_of_mem_newlyProtected {x : Analysis} {f : Finding} (hf : f ∈ newlyProtected x old new) :
    ∃ t ∈ x.repairedScopes.ownNodes new, x.comparison.repaired.kind t = "try_statement" ∧
      x.comparison.repaired.change t = .inserted ∧ ∃ call ∈ protectedCalls x.comparison.repaired.toAst t,
        x.isOld call = true ∧ (∃ partner, x.partner? call = some partner ∧
          partner ∈ (x.buggyScopes.unprotectedCalls old).map (·.1)) ∧
        ∃ name, x.comparison.repaired.calleeName? call = some name ∧
          f = x.finding new (x.comparison.repaired.line call) (.errorHandlingAdded name) := by
  obtain ⟨t, ht, hf⟩ := List.mem_flatMap.1 hf
  obtain ⟨call, hcall, hf⟩ := List.mem_filterMap.1 hf
  rw [List.mem_filter, Bool.and_eq_true, beq_iff_eq, beq_iff_eq] at ht
  refine ⟨t, ht.1, ht.2.1, ht.2.2, call, hcall, ?_⟩
  split at hf
  · next hguard =>
    rw [Bool.and_eq_true, Option.any_eq_true] at hguard
    obtain ⟨hold, partner, hpartner, hexposed⟩ := hguard
    obtain ⟨name, hname, rfl⟩ := Option.map_eq_some_iff.1 hf
    exact ⟨hold, ⟨partner, hpartner, List.contains_iff_mem.1 hexposed⟩, name, hname, rfl⟩
  · cases hf

/-- What the detector of error handling reports is a call with its line and the name of what it calls, which is
newly protected. -/
theorem errorHandling_sound (hb : c.buggy.toAst.IsScript) (hg : c.buggy.toAst.NoClauseIsTry)
    (hr : c.repaired.toAst.IsRooted) (p : Provenance) (pair : ScopePair) :
    ∀ f ∈ errorHandling.inScopes (.of p c) pair, ∃ old new call name, pair = ⟨some old, some new⟩ ∧
      NewlyProtected c old new call ∧ c.repaired.calleeName? call = some name ∧
      f = (Analysis.of p c).finding new (c.repaired.line call) (.errorHandlingAdded name) := by
  intro f hf
  match pair with
  | ⟨none, _⟩ => cases hf
  | ⟨some _, none⟩ => cases hf
  | ⟨some old, some new⟩ =>
    obtain ⟨t, ht, htry, hinserted, call, hcall, hold, ⟨partner, hpartner, hexposed⟩, name, hname, rfl⟩ :=
      exists_call_of_mem_newlyProtected hf
    obtain ⟨body, hbody, hwithout, hkind⟩ := mem_protectedCalls.1 hcall
    obtain ⟨hin, hown⟩ := ScopeTree.mem_ownNodes_of_body hr ht htry hbody hwithout
    exact ⟨old, new, call, name, rfl,
      ⟨hown, hkind, Analysis.isOld_iff.1 hold, ⟨t, body, ht, htry, hinserted, hbody, hin⟩,
        ⟨partner, hpartner, ScopeTree.unprotected_of_mem hb hg hexposed⟩⟩, hname, rfl⟩

open ScopeTree (tryStatement callStatement)

def caught : Ast :=
  .ofForest "try { b(); } catch (e) { a(); }" <|
    .cons ⟨"program", none, "", 0, 31, 1⟩ (tryStatement "b" "e" 0 31 (callStatement "a" 25)) .nil

def wrapped : Ast :=
  .ofForest "try { b(); } catch (e) { try { a(); } catch (f) { } }" <|
    .cons ⟨"program", none, "", 0, 53, 1⟩ (tryStatement "b" "e" 0 53 (tryStatement "a" "f" 25 51 .nil)) .nil

/-- The two programs compared: the block of the `catch` clause is paired with the inner `try` body. -/
def wrapping : Comparison :=
  .ofClassified <| Matching.classifiedBy caught wrapped <|
    ((List.range 9).map (fun i => (i, i)) ++ (List.range' 9 5).map fun i => (i, i + 2)).foldl
      (fun m (s, d) => m.link s d) (.empty 14 19)

/-- In a `catch` clause a call is not protected by the `try` statement of the clause, but by one inside. Of the
two calls only this one is reported. -/
theorem errorHandling_sound_wrapping : wrapping.buggy.toAst.IsScript ∧ wrapping.buggy.toAst.NoClauseIsTry ∧
    wrapping.repaired.toAst.IsRooted ∧ NewlyProtected wrapping 0 0 13 ∧
    errorHandling.inScopes (.of .empty wrapping) ⟨some 0, some 0⟩ =
      [(Analysis.of .empty wrapping).finding 0 1 (.errorHandlingAdded "a")] := by
  have hb : wrapping.buggy.toAst.IsScript := ⟨_, _, rfl, rfl⟩
  have hg : wrapping.buggy.toAst.NoClauseIsTry := by decide +kernel
  have hr : wrapping.repaired.toAst.IsRooted := ⟨Ast.isArena_of_root rfl, by decide +kernel, by decide +kernel⟩
  have hfound : errorHandling.inScopes (.of .empty wrapping) ⟨some 0, some 0⟩ =
      [(Analysis.of .empty wrapping).finding 0 1 (.errorHandlingAdded "a")] := by decide +kernel
  obtain ⟨old, new, call, name, ⟨⟩, hcall, -⟩ := errorHandling_sound hb hg hr .empty ⟨some 0, some 0⟩ _
    (hfound ▸ List.mem_singleton_self _)
  -- The only call in an inserted `try` statement is the one in the inner body.
  have hall : ∀ t < wrapped.size, ∀ k < wrapped.size, wrapping.repaired.change t = .inserted →
      wrapping.repaired.kind k = "call_expression" → wrapping.repaired.contains t k = true → k = 13 := by
    decide +kernel
  have hs : 0 < (ScopeTree.ofAst wrapping.repaired.toAst).size := by decide +kernel
  obtain ⟨t, body, ht, -, hinserted, hbody, hin⟩ := hcall.inTry
  have htsize := ((ScopeTree.mem_ownNodes hr hs).1 ht).2.1
  have hsize := ((ScopeTree.mem_ownNodes hr hs).1 hcall.owned).2.1
  cases hall t htsize call hsize hinserted hcall.isCall (Ast.contains_of_child? hbody hin)
  exact ⟨hb, hg, hr, hcall, hfound⟩

end Detector

end Mend
