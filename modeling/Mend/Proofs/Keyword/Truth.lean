import Mathlib.Tactic.Lemma
import Mend.Keyword.Extract
import Mend.Proofs.Syntax.Ancestry

/-!
# Names that are used for their truth

A name or member is used for its truth if, out of any number of parentheses, it is negated, is a side of
`&&` or `||`, or is the condition of one of the statements and expressions that own one (`DecidesBy`). The
keyword `falsey` marks these uses (`falsey_iff`), but for the condition of a `for` statement: it is a
condition where the context of a keyword is told (`conditionOwners`) and none where the truth of a name is
(`no_falsey_of_forHead`).
-/

namespace Mend

open Syntax (Ast)

namespace Syntax.Ast

/-- The second node is the first, or parentheses around it. -/
inductive Parenthesizes (a : Ast) : Nat → Nat → Prop
  | self (i : Nat) : a.Parenthesizes i i
  | out {i p j : Nat} : a.parent? i = some p → a.kind p = "parenthesized_expression" →
      a.Parenthesizes p j → a.Parenthesizes i j

/-- The node `p` asks for the truth of its child `j`. -/
inductive AsksTruth (a : Ast) (p j : Nat) : Prop
  | negation : a.kind p = "unary_expression" → a.label p = "!" → a.AsksTruth p j
  | side : a.kind p = "binary_expression" → a.label p = "&&" ∨ a.label p = "||" → a.AsksTruth p j
  | condition : a.kind p ∈ Keyword.Extractor.conditionOwners → a.field? j = some "condition" →
      a.AsksTruth p j

/-- The node `p` decides by the truth of `i`, which may stand in parentheses. -/
def DecidesBy (a : Ast) (p i : Nat) : Prop :=
  ∃ j, a.Parenthesizes i j ∧ a.parent? j = some p ∧ a.AsksTruth p j

/-- Whoever asks for a truth is no pair of parentheses. -/
lemma AsksTruth.ne_parentheses {a : Ast} {p j : Nat} (h : a.AsksTruth p j) :
    a.kind p ≠ "parenthesized_expression" := by
  intro hp
  cases h with
  | negation hk _ => simp [hp] at hk
  | side hk _ => simp [hp] at hk
  | condition hk _ =>
    rw [hp] at hk
    exact absurd hk (by decide)

end Syntax.Ast

namespace Keyword.Extractor

variable {x : Extractor} {i : Nat} {change : Change}

/-- The way out of parentheses ends at the first node that is none. -/
lemma outOfParentheses_eq_some_iff {up below : Nat} : x.outOfParentheses i = some (up, below) ↔
    x.ast.Parenthesizes i below ∧ x.ast.parent? below = some up ∧
      x.ast.kind up ≠ "parenthesized_expression" := by
  unfold outOfParentheses
  fun_induction Ast.ancestors x.ast i with
  | case1 i hroot =>
    rw [Ast.ascent, Ast.ancestors_of_root hroot, List.zip_nil_left]
    constructor
    · intro h
      cases h
    · rintro ⟨hout, hup, -⟩
      cases hout with
      | self => cases hroot.symm.trans hup
      | out hp _ _ => cases hroot.symm.trans hp
  | case2 i p hp ih =>
    rw [Ast.ascent_of_parent? hp, List.find?_cons]
    by_cases hkind : x.ast.kind p = "parenthesized_expression"
    · simp only [hkind, bne_self_eq_false]
      rw [ih]
      constructor
      · rintro ⟨hout, hup⟩
        exact ⟨.out hp hkind hout, hup⟩
      · rintro ⟨hout, hup, hne⟩
        cases hout with
        | self =>
          cases hp.symm.trans hup
          exact absurd hkind hne
        | out hp' _ hout =>
          cases hp.symm.trans hp'
          exact ⟨hout, hup, hne⟩
    · simp only [bne_iff_ne.2 hkind, Option.some.injEq, Prod.mk.injEq]
      constructor
      · rintro ⟨rfl, rfl⟩
        exact ⟨.self i, hp, hkind⟩
      · rintro ⟨hout, hup, -⟩
        cases hout with
        | self => exact ⟨Option.some.inj (hp.symm.trans hup), rfl⟩
        | out hp' hkind' _ =>
          cases hp.symm.trans hp'
          exact absurd hkind' hkind

/-- The test for truth knows every owner of a condition but the `for` statement. -/
lemma isTruthTest_iff (hpath : (x.ast.path? i).isSome) (hundefined : x.ast.isUndefined i = false)
    (hnan : x.ast.label i ≠ "NaN") :
    x.isTruthTest i = true ↔ ∃ p, x.ast.DecidesBy p i ∧ x.ast.kind p ≠ "for_statement" := by
  have hname : ((x.ast.path? i).isNone || x.ast.isUndefined i || x.ast.label i == "NaN") = false := by
    rw [hundefined, beq_eq_false_iff_ne.2 hnan, Option.isNone_eq_false_iff.2 hpath]
    rfl
  unfold isTruthTest
  dsimp only
  rw [hname]
  simp only [Bool.false_eq_true, if_false]
  constructor
  · intro h
    split at h
    · cases h
    · next up below hout =>
      obtain ⟨hout, hup, -⟩ := outOfParentheses_eq_some_iff.1 hout
      have howner : ∀ k ∈ conditionOwners, k ≠ "for_statement" → x.ast.kind up = k →
          (x.ast.field? below == some "condition") = true →
            ∃ p, x.ast.DecidesBy p i ∧ x.ast.kind p ≠ "for_statement" := by
        rintro k hk hfor rfl hf
        exact ⟨up, ⟨below, hout, hup, .condition hk (beq_iff_eq.1 hf)⟩, hfor⟩
      split at h
      · next hk => exact ⟨up, ⟨below, hout, hup, .negation hk (beq_iff_eq.1 h)⟩, by simp [hk]⟩
      · next hk => exact ⟨up, ⟨below, hout, hup, .side hk (by simpa using h)⟩, by simp [hk]⟩
      · next hk => exact howner _ (by decide) (by decide) hk h
      · next hk => exact howner _ (by decide) (by decide) hk h
      · next hk => exact howner _ (by decide) (by decide) hk h
      · next hk => exact howner _ (by decide) (by decide) hk h
      · cases h
  · rintro ⟨p, ⟨j, hout, hup, hask⟩, hfor⟩
    rw [outOfParentheses_eq_some_iff.2 ⟨hout, hup, hask.ne_parentheses⟩]
    dsimp only
    cases hask with
    | negation hk hl => simp [hk, hl]
    | side hk hl => simpa [hk] using hl
    | condition hk hf =>
      simp only [conditionOwners, List.mem_cons, List.not_mem_nil, or_false] at hk
      rcases hk with hk | hk | hk | hk | hk
      · simp [hk, hf]
      · simp [hk, hf]
      · simp [hk, hf]
      · exact absurd hk hfor
      · simp [hk, hf]

lemma forall_mem_ite {α : Type} {P : α → Prop} {l : List α} (c : Prop) [Decidable c] (h : ∀ t ∈ l, P t) :
    ∀ t ∈ (if c then l else []), P t := by
  split
  · exact h
  · exact List.forall_mem_nil _

/-- The only reserved words among the keywords of a plain name are `undefined` and `NaN`. -/
lemma kind_ne_reserved_of_mem_identifierTokens (hundefined : x.ast.label i ≠ "undefined")
    (hnan : x.ast.label i ≠ "NaN") : ∀ t ∈ x.identifierTokens i, t.kind ≠ .reserved := by
  have hsingle : ∀ t : Token, t.kind ≠ .reserved → ∀ u ∈ [t], u.kind ≠ .reserved := fun t ht u hu =>
    List.mem_singleton.1 hu ▸ ht
  unfold identifierTokens
  dsimp only
  rw [if_neg (not_or.2 ⟨hnan, hundefined⟩)]
  simp only [List.forall_mem_append]
  refine ⟨⟨⟨?call, ?object⟩, ?exception⟩, ?parameter⟩
  case call => exact forall_mem_ite _ (hsingle _ Kind.noConfusion)
  case object =>
    refine forall_mem_ite _ fun t ht => ?_
    obtain ⟨package, -, rfl⟩ := Option.map_eq_some_iff.1 (Option.mem_toList.1 ht)
    exact Kind.noConfusion
  case exception => exact forall_mem_ite _ (hsingle _ Kind.noConfusion)
  case parameter =>
    unfold parameterTokens
    split
    · exact List.forall_mem_nil _
    · dsimp only
      split
      · exact hsingle _ Kind.noConfusion
      · exact forall_mem_ite _ (hsingle _ Kind.noConfusion)

/-- A name or member contributes `falsey` if it passes the test for truth. -/
lemma falsey_mem_usesAt_iff (hkind : x.ast.kind i = "identifier" ∨ x.ast.kind i = "member_expression")
    (hundefined : x.ast.isUndefined i = false) (hnan : x.ast.label i ≠ "NaN") :
    (∃ u ∈ x.usesAt change i, u.kind = .reserved ∧ u.keyword = "falsey") ↔ x.isTruthTest i = true := by
  have hstatement : statementWords.find? (·.1 == x.ast.kind i) = none := by
    rcases hkind with hk | hk <;> rw [hk] <;> decide
  have hbyKind : ∀ t ∈ x.tokensByKind i, t.kind ≠ .reserved := by
    unfold tokensByKind
    rcases hkind with hk | hk
    · have hlabel : x.ast.label i ≠ "undefined" := by
        intro hl
        simp [Ast.isUndefined, Ast.unparen, hk, hl] at hundefined
      simp only [hk]
      exact kind_ne_reserved_of_mem_identifierTokens hlabel hnan
    · simp only [hk]
      exact List.forall_mem_nil _
  have htruth : x.truthTokens i = if x.isTruthTest i = true then [.word "falsey"] else [] := by
    unfold truthTokens
    rcases hkind with hk | hk <;> simp [hk]
  unfold usesAt
  rw [hstatement, htruth]
  dsimp only
  constructor
  · rintro ⟨u, hu, hreserved, -⟩
    obtain ⟨t, ht, rfl⟩ := List.mem_map.1 hu
    rcases List.mem_append.1 ht with ht | ht
    · exact absurd hreserved (hbyKind t ht)
    · by_contra hno
      rw [if_neg hno] at ht
      cases ht
  · intro h
    rw [if_pos h]
    exact ⟨_, List.mem_map_of_mem (List.mem_append_right _ (List.mem_singleton_self _)), rfl, rfl⟩

/-- A name or member that is neither `undefined` nor `NaN` contributes `falsey` exactly where something decides
by its truth, the condition of a `for` statement apart. -/
theorem falsey_iff (hkind : x.ast.kind i = "identifier" ∨ x.ast.kind i = "member_expression")
    (hpath : (x.ast.path? i).isSome) (hundefined : x.ast.isUndefined i = false) (hnan : x.ast.label i ≠ "NaN") :
    (∃ u ∈ x.usesAt change i, u.kind = .reserved ∧ u.keyword = "falsey") ↔
      ∃ p, x.ast.DecidesBy p i ∧ x.ast.kind p ≠ "for_statement" :=
  (falsey_mem_usesAt_iff hkind hundefined hnan).trans (isTruthTest_iff hpath hundefined hnan)

/-- The program `while ((x.y)) {}`. -/
def guardedLoop : Ast :=
  .ofForest "while ((x.y)) {}" <|
    .cons ⟨"program", none, "", 0, 16, 1⟩
      (.cons ⟨"while_statement", none, "", 0, 16, 1⟩
        (.cons ⟨"parenthesized_expression", some "condition", "", 6, 13, 1⟩
          (.cons ⟨"parenthesized_expression", none, "", 7, 12, 1⟩
            (.cons ⟨"member_expression", none, "", 8, 11, 1⟩
              (.cons ⟨"identifier", some "object", "x", 8, 9, 1⟩ .nil
                (.cons ⟨"property_identifier", some "property", "y", 10, 11, 1⟩ .nil .nil)) .nil) .nil)
          (.cons ⟨"statement_block", some "body", "", 14, 16, 1⟩ .nil .nil)) .nil) .nil

/-- The loop asks for the truth of the member, out of two pairs of parentheses, and nothing asks for that of the
object in it. -/
theorem falsey_iff_guardedLoop :
    (guardedLoop.kind 4 = "member_expression" ∧ guardedLoop.path? 4 = some "x.y" ∧
      guardedLoop.isUndefined 4 = false ∧ guardedLoop.label 4 ≠ "NaN" ∧
      ∃ u ∈ usesAt ⟨guardedLoop, .empty⟩ .inserted 4, u.kind = .reserved ∧ u.keyword = "falsey") ∧
    guardedLoop.kind 5 = "identifier" ∧ guardedLoop.path? 5 = some "x" ∧
      guardedLoop.isUndefined 5 = false ∧ guardedLoop.label 5 ≠ "NaN" ∧
      ¬ ∃ p, guardedLoop.DecidesBy p 5 ∧ guardedLoop.kind p ≠ "for_statement" := by
  have hmember : guardedLoop.kind 4 = "member_expression" := by decide +kernel
  have hobject : guardedLoop.kind 5 = "identifier" := by decide +kernel
  have hpath : guardedLoop.path? 4 = some "x.y" := by decide +kernel
  have hpath' : guardedLoop.path? 5 = some "x" := by decide +kernel
  have hundefined : guardedLoop.isUndefined 4 = false ∧ guardedLoop.isUndefined 5 = false := by decide +kernel
  have hnan : guardedLoop.label 4 ≠ "NaN" ∧ guardedLoop.label 5 ≠ "NaN" := by decide +kernel
  have hdecides : guardedLoop.DecidesBy 1 4 :=
    ⟨2, .out (p := 3) (by decide +kernel) (by decide +kernel) <|
        .out (by decide +kernel) (by decide +kernel) (.self 2),
      by decide +kernel, .condition (by decide +kernel) (by decide +kernel)⟩
  refine ⟨⟨hmember, hpath, hundefined.1, hnan.1, ?_⟩, hobject, hpath', hundefined.2, hnan.2, ?_⟩
  · exact (falsey_iff (x := ⟨guardedLoop, .empty⟩) (.inr hmember) (by rw [hpath]; rfl) hundefined.1 hnan.1).2
      ⟨1, hdecides, by decide +kernel⟩
  · have hnone : ¬ ∃ u ∈ usesAt ⟨guardedLoop, .empty⟩ .inserted 5, u.kind = .reserved ∧ u.keyword = "falsey" := by
      decide +kernel
    intro h
    exact hnone <| (falsey_iff (x := ⟨guardedLoop, .empty⟩) (.inl hobject) (by rw [hpath']; rfl) hundefined.2
      hnan.2).2 h

/-- The program `for (;x;) {}`. -/
def forHead : Ast :=
  .ofForest "for (;x;) {}" <|
    .cons ⟨"program", none, "", 0, 12, 1⟩
      (.cons ⟨"for_statement", none, "", 0, 12, 1⟩
        (.cons ⟨"empty_statement", some "initializer", "", 5, 6, 1⟩ .nil
          (.cons ⟨"identifier", some "condition", "x", 6, 7, 1⟩ .nil
            (.cons ⟨"statement_block", some "body", "", 10, 12, 1⟩ .nil .nil))) .nil) .nil

/-- The condition of a `for` statement is a condition, and the name in it is not marked as used for its truth. -/
theorem no_falsey_of_forHead : forHead.kind 3 = "identifier" ∧ forHead.path? 3 = some "x" ∧
    forHead.isUndefined 3 = false ∧ forHead.label 3 ≠ "NaN" ∧ forHead.DecidesBy 1 3 ∧
    contextOf ⟨forHead, .empty⟩ 3 = .condition ∧
    ¬ ∃ u ∈ usesAt ⟨forHead, .empty⟩ .inserted 3, u.kind = .reserved ∧ u.keyword = "falsey" := by
  have hdecides : forHead.DecidesBy 1 3 :=
    ⟨3, .self 3, by decide +kernel, .condition (by decide +kernel) (by decide +kernel)⟩
  exact ⟨by decide +kernel, by decide +kernel, by decide +kernel, by decide +kernel, hdecides, by decide +kernel,
    by decide +kernel⟩

end Keyword.Extractor

end Mend
