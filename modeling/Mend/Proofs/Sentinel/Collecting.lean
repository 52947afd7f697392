import Mathlib.Data.String.Basic
import Mend.Proofs.Sentinel.Exclusion

/-!
# Collecting sentinels on the tree

The two recursions over the tree of a condition that collect sentinels, without a formula in between: those
that the condition tests for (`collectTests`), and those that are excluded once it has come out one way
(`collectExcluded`). Each has its own cases, and compares the two sides of a comparison as they stand
(`comparison?`). They collect what the formula tests for and excludes that the condition is read as
(`collectTests_eq`, `collectExcluded_eq`).
-/

namespace Mend

open Syntax (Ast)

/-- Without the characters at its ends a text is not longer. -/
lemma Text.utf8ByteSize_trim_le (p : Char → Bool) (s : String) :
    (trim p s).utf8ByteSize ≤ s.utf8ByteSize := by
  have hsub : (dropEndWhile p (s.toList.dropWhile p)).Sublist s.toList := by
    have hend := (List.dropWhile_sublist p (l := (s.toList.dropWhile p).reverse)).reverse
    rw [List.reverse_reverse] at hend
    exact hend.trans (List.dropWhile_sublist p)
  have hle := String.utf8Len_le_of_sublist hsub
  rwa [← String.utf8ByteSize_ofList, ← String.utf8ByteSize_ofList, String.ofList_toList] at hle

namespace Syntax.Ast

variable {a : Ast} {i l r : Nat}

/-- The path and the sentinel that the comparison of `var` with `value` is about. -/
def comparison? (a : Ast) (var value : Nat) : Option Fact :=
  let var := a.unparen var
  let value := a.unparen value
  if a.kind var = "unary_expression" ∧ a.label var = "typeof" then
    ((a.firstChild? var).bind a.path?).bind fun path =>
      let isQuote (c : Char) : Bool := c == '\'' || c == '"'
      if a.kind value = "string" ∧ Text.trim isQuote (a.text value) = "undefined" then some (path, .undefined)
      else none
  else if (a.literal? var).isSome then none
  else (a.path? var).bind fun path => (a.literal? value).map fun l => (path, l.sentinel)

/-- What a comparison says, either side taken for the variable. -/
def comparisons (a : Ast) (l r : Nat) : List Fact := (a.comparison? l r).toList ++ (a.comparison? r l).toList

/-- The fact that a name or member is falsey, special values apart. -/
def falsey? (a : Ast) (i : Nat) : Option Fact :=
  (a.path? i).bind fun p => if (a.literal? i).isSome then none else some (p, .falsey)

/-- Collects what a condition tests for. -/
def collectTests (a : Ast) (i : Nat) : List Fact :=
  let j := a.unparen i
  match a.kind j with
  | "identifier" | "member_expression" => (a.falsey? j).toList
  | "unary_expression" =>
    if a.label j = "!" then
      match _h : a.firstChild? j with
      | some operand => a.collectTests operand
      | none => []
    else []
  | "binary_expression" =>
    match _hl : a.child? j "left", _hr : a.child? j "right" with
    | some l, some r =>
      match a.label j with
      | "&&" | "||" => a.collectTests l ++ a.collectTests r
      | op => if equalityOperators.contains op then a.comparisons l r else []
    | _, _ => []
  | "call_expression" => (a.nanTest? j).toList.map fun p => (p, .nan)
  | _ => []
termination_by a.size - i
decreasing_by
  all_goals have hle := le_unparen a i
  · have := firstChild?_bounds _h
    omega
  all_goals have hl := child?_bounds _hl
  all_goals have hr := child?_bounds _hr
  all_goals omega

/-- Collects what is excluded once a condition has come out as `outcome`. -/
def collectExcluded (a : Ast) (i : Nat) (outcome : Bool) : List Fact :=
  let j := a.unparen i
  match a.kind j with
  | "identifier" | "member_expression" => if outcome then (a.falsey? j).toList else []
  | "unary_expression" =>
    if a.label j = "!" then
      match _h : a.firstChild? j with
      | some operand => a.collectExcluded operand !outcome
      | none => []
    else []
  | "binary_expression" =>
    match _hl : a.child? j "left", _hr : a.child? j "right" with
    | some l, some r =>
      match a.label j, outcome with
      | "&&", true | "||", false => a.collectExcluded l outcome ++ a.collectExcluded r outcome
      | op, _ =>
        if equalityOperators.contains op ∧ (op.toList.head? == some '!') = outcome then a.comparisons l r
        else []
    | _, _ => []
  | "call_expression" => if outcome then [] else (a.nanTest? j).toList.map fun p => (p, .nan)
  | _ => []
termination_by a.size - i
decreasing_by
  all_goals have hle := le_unparen a i
  · have := firstChild?_bounds _h
    omega
  all_goals have hl := child?_bounds _hl
  all_goals have hr := child?_bounds _hr
  all_goals omega

/-! ## Comparisons -/

/-- A `typeof` expression is read as the type of its operand. -/
lemma operand_of_typeof (hk : a.kind (a.unparen i) = "unary_expression")
    (hl : a.label (a.unparen i) = "typeof") :
    a.operand i = .typeName ((a.firstChild? (a.unparen i)).bind a.path?) := by
  rw [operand]
  exact if_pos ⟨hk, hl⟩

/-- No operator spells out a special value. -/
lemma literal?_of_unary (hk : a.kind (a.unparen i) = "unary_expression") : a.literal? (a.unparen i) = none := by
  rw [literal?, isUndefined, unparen_unparen]
  simp [hk]

/-- An operand is a literal iff it is written as one. -/
lemma operand_eq_literal {s : Literal} :
    a.operand i = .literal s ↔ a.literal? (a.unparen i) = some s := by
  constructor
  · intro h
    have hop := operand_cases a i
    rw [h] at hop
    exact hop
  · intro h
    have htypeof : ¬ (a.kind (a.unparen i) = "unary_expression" ∧ a.label (a.unparen i) = "typeof") := by
      rintro ⟨hk, -⟩
      rw [literal?_of_unary hk] at h
      cases h
    rw [operand, if_neg htypeof, h]

/-- An operand names undefined iff it is that name in quotes. -/
lemma operand_eq_undefinedName : a.operand i = .undefinedName ↔ a.kind (a.unparen i) = "string" ∧
    Text.trim (fun c => c == '\'' || c == '"') (a.text (a.unparen i)) = "undefined" := by
  rw [operand]
  dsimp only
  constructor
  · intro h
    split at h
    · cases h
    · cases hl : a.literal? (a.unparen i) with
      | some s => rw [hl] at h; cases h
      | none =>
        cases hp : a.path? (a.unparen i) with
        | some p => rw [hl, hp] at h; cases h
        | none =>
          rw [hl, hp] at h
          dsimp only at h
          split_ifs at h with hs
          exact hs
  · rintro ⟨hk, ht⟩
    have hliteral : a.literal? (a.unparen i) = none := by
      -- Two quotes alone are too short.
      have hsize : (a.text (a.unparen i)).utf8ByteSize ≠ 2 := fun h2 => by
        have hle := Text.utf8ByteSize_trim_le (fun c => c == '\'' || c == '"') (a.text (a.unparen i))
        rw [ht, h2] at hle
        exact absurd hle (by decide)
      rw [literal?, isUndefined, unparen_unparen]
      simp [hk, hsize]
    have hpath : a.path? (a.unparen i) = none := path?_of_kind (by rw [unparen_unparen, hk]; decide)
    rw [if_neg (by rw [hk]; rintro ⟨h, -⟩; exact absurd h (by decide)), hliteral, hpath]
    exact if_pos ⟨hk, ht⟩

/-- What is no access path and no type name is compared with nothing. -/
lemma fact?_eq_none (htypeof : ¬ (a.kind (a.unparen i) = "unary_expression" ∧ a.label (a.unparen i) = "typeof"))
    (hp : a.path? (a.unparen i) = none) (value : Operand) :
    (a.operand i).fact? value = none := by
  have hop := operand_cases a i
  cases h : a.operand i with
  | literal s => rfl
  | path p =>
    rw [h] at hop
    rw [path?_unparen] at hp
    cases hop.symm.trans hp
  | typeName p =>
    rw [h] at hop
    exact absurd ⟨hop.1, hop.2.1⟩ htypeof
  | undefinedName => rfl
  | other => rfl

/-- A comparison read off the tree is the comparison of its two sides. -/
lemma comparison?_eq (a : Ast) (l r : Nat) : a.comparison? l r = (a.operand l).fact? (a.operand r) := by
  rw [comparison?]
  dsimp only
  split
  · next htypeof =>
    rw [operand_of_typeof htypeof.1 htypeof.2]
    cases (a.firstChild? (a.unparen l)).bind a.path? with
    | none => rfl
    | some p =>
      rw [Option.bind_some]
      by_cases hr : a.operand r = .undefinedName
      · rw [if_pos (operand_eq_undefinedName.1 hr), hr]
        rfl
      · rw [if_neg (mt operand_eq_undefinedName.2 hr)]
        cases hop : a.operand r with
        | undefinedName => exact absurd hop hr
        | literal s => rfl
        | path q => rfl
        | typeName q => rfl
        | other => rfl
  · next htypeof =>
    cases hl : a.literal? (a.unparen l) with
    | some s => rw [operand_eq_literal.2 hl]; rfl
    | none =>
      cases hp : a.path? (a.unparen l) with
      | none => exact (fact?_eq_none htypeof hp _).symm
      | some p =>
        have hleft : a.operand l = .path p := by
          rw [operand, if_neg htypeof, hl, hp]
        rw [hleft]
        cases hr : a.literal? (a.unparen r) with
        | some s => rw [operand_eq_literal.2 hr]; rfl
        | none =>
          cases hop : a.operand r with
          | literal s =>
            rw [operand_eq_literal.1 hop] at hr
            cases hr
          | undefinedName => rfl
          | path q => rfl
          | typeName q => rfl
          | other => rfl

/-- The facts of a comparison are those of its two operands. -/
lemma comparisons_eq (a : Ast) (l r : Nat) :
    a.comparisons l r = Condition.comparisonFacts (a.operand l) (a.operand r) := by
  rw [comparisons, comparison?_eq, comparison?_eq, Condition.comparisonFacts]

/-! ## Names and members -/

/-- The test of a name's truth tests for the fact that it is falsey. -/
lemma toList_falsey? (a : Ast) (i : Nat) : (a.falsey? i).toList = (a.truth i).tests := by
  rw [falsey?, truth]
  cases a.path? i with
  | none => rfl
  | some p => cases a.literal? i <;> rfl

/-- The test of a name's truth excludes what it tests for, once it has come out true. -/
lemma excluded_truth (a : Ast) (i : Nat) (outcome : Bool) :
    (a.truth i).excluded outcome = if outcome then (a.truth i).tests else [] := by
  rw [truth]
  cases a.path? i with
  | none => cases outcome <;> rfl
  | some p => cases a.literal? i <;> cases outcome <;> rfl

/-! ## The two recursions -/

/-- The comparison operators are those that compare. -/
lemma contains_equalityOperators (s : String) : equalityOperators.contains s = (equality? s).isSome := by
  unfold equality?
  split
  all_goals first
    | rfl
    | simp_all [equalityOperators]

/-- A comparison operator is negated if it begins with an exclamation mark. -/
lemma head?_of_equality? {s : String} {op : Equality} (h : equality? s = some op) :
    (s.toList.head? == some '!') = op.isNegated := by
  unfold equality? at h
  split at h
  all_goals cases h
  all_goals decide

/-! What conditions are read as, kind by kind. -/

/-- A name is read as a test of its truth. -/
lemma condition_name (hk : a.kind (a.unparen i) ∈ ["identifier", "member_expression"]) :
    a.condition i = a.truth (a.unparen i) := by
  simp only [List.mem_cons, List.not_mem_nil, or_false] at hk
  rw [condition]
  rcases hk with hk | hk
  all_goals simp only [hk]

/-- A negation is read as one, and no other unary expression is. -/
lemma condition_unary (hk : a.kind (a.unparen i) = "unary_expression") :
    a.condition i = if a.label (a.unparen i) = "!" then
      (a.firstChild? (a.unparen i)).elim .unknown fun c => .negation (a.condition c) else .unknown := by
  rw [condition]
  simp only [hk]
  split
  · split
    · next hc => rw [hc, Option.elim_some]
    · next hc => rw [hc, Option.elim_none]
  · rfl

/-- A binary expression is read as both, either, or a comparison. -/
lemma condition_binary (hk : a.kind (a.unparen i) = "binary_expression")
    (hl : a.child? (a.unparen i) "left" = some l) (hr : a.child? (a.unparen i) "right" = some r) :
    a.condition i = if a.label (a.unparen i) = "&&" then .both (a.condition l) (a.condition r)
      else if a.label (a.unparen i) = "||" then .either (a.condition l) (a.condition r)
      else (equality? (a.label (a.unparen i))).elim .unknown fun e =>
        .comparison e (a.operand l) (a.operand r) := by
  rw [condition]
  simp only [hk]
  split
  · next hl' hr' =>
    cases hl.symm.trans hl'
    cases hr.symm.trans hr'
    split
    · next hs => rw [if_pos hs]
    · next hs => rw [hs, if_neg (by decide), if_pos rfl]
    · next op hboth heither =>
      rw [if_neg hboth, if_neg heither]
      cases equality? (a.label (a.unparen i)) <;> rfl
  · next hno => exact (hno l r hl hr).elim

/-- A binary expression without both sides is not read. -/
lemma condition_incomplete (hk : a.kind (a.unparen i) = "binary_expression")
    (hno : ∀ l r, a.child? (a.unparen i) "left" = some l → a.child? (a.unparen i) "right" = some r → False) :
    a.condition i = .unknown := by
  rw [condition]
  simp only [hk]

/-- A call is read as a test for not a number, or not at all. -/
lemma condition_call (hk : a.kind (a.unparen i) = "call_expression") :
    a.condition i = (a.nanTest? (a.unparen i)).elim .unknown .isNaN := by
  rw [condition]
  simp only [hk]

/-- No other expression is read. -/
lemma condition_other (hk : a.kind (a.unparen i) ∉ ["identifier", "member_expression", "unary_expression",
    "binary_expression", "call_expression"]) : a.condition i = .unknown := by
  rw [condition]
  split
  all_goals simp_all

/-- What a condition tests for is what the formula tests for that it is read as. -/
theorem collectTests_eq (a : Ast) (i : Nat) : a.collectTests i = (a.condition i).tests := by
  rw [collectTests]
  split
  · next hk => rw [condition_name (by simp [hk]), toList_falsey?]
  · next hk => rw [condition_name (by simp [hk]), toList_falsey?]
  · next hk =>
    rw [condition_unary hk]
    split
    · split
      · next c hc =>
        have := firstChild?_bounds hc
        rw [hc]
        exact collectTests_eq a c
      · next hc =>
        rw [hc]
        rfl
    · rfl
  · next hk =>
    split
    · next l r hl hr =>
      rw [condition_binary hk hl hr]
      have := child?_bounds hl
      have := child?_bounds hr
      have ihl := collectTests_eq a l
      have ihr := collectTests_eq a r
      split
      · next hs =>
        rw [if_pos hs, ihl, ihr]
        rfl
      · next hs =>
        rw [hs, if_neg (by decide), if_pos rfl, ihl, ihr]
        rfl
      · next op hboth heither =>
        rw [if_neg hboth, if_neg heither, contains_equalityOperators]
        cases equality? (a.label (a.unparen i)) with
        | none => rfl
        | some e => exact comparisons_eq a l r
    · next hno =>
      rw [condition_incomplete hk hno]
      rfl
  · next hk =>
    rw [condition_call hk]
    cases a.nanTest? (a.unparen i) <;> rfl
  · next h1 h2 h3 h4 h5 =>
    rw [condition_other (by simpa using ⟨h1, h2, h3, h4, h5⟩)]
    rfl
termination_by a.size - i
decreasing_by
  all_goals have hle := le_unparen a i
  all_goals omega

/-- What is excluded once a condition has come out one way is what its formula excludes. -/
theorem collectExcluded_eq (a : Ast) (i : Nat) (outcome : Bool) :
    a.collectExcluded i outcome = (a.condition i).excluded outcome := by
  rw [collectExcluded]
  split
  · next hk => rw [condition_name (by simp [hk]), excluded_truth, toList_falsey?]
  · next hk => rw [condition_name (by simp [hk]), excluded_truth, toList_falsey?]
  · next hk =>
    rw [condition_unary hk]
    split
    · split
      · next c hc =>
        have := firstChild?_bounds hc
        rw [hc]
        exact collectExcluded_eq a c !outcome
      · next hc =>
        rw [hc]
        rfl
    · rfl
  · next hk =>
    split
    · next l r hl hr =>
      have := child?_bounds hl
      have := child?_bounds hr
      have ihl := collectExcluded_eq a l outcome
      have ihr := collectExcluded_eq a r outcome
      rw [condition_binary hk hl hr]
      split
      · next hs =>
        rw [if_pos hs, ihl, ihr]
        rfl
      · next hs =>
        rw [hs, if_neg (by decide), if_pos rfl, ihl, ihr]
        rfl
      · next hboth heither =>
        rw [contains_equalityOperators]
        by_cases hs : a.label (a.unparen i) = "&&"
        · have hfalse := Bool.eq_false_iff.2 (hboth hs)
          rw [if_pos hs, hs, hfalse]
          rfl
        · by_cases hs' : a.label (a.unparen i) = "||"
          · have htrue := (Bool.not_eq_false _).mp (heither hs')
            rw [if_neg hs, if_pos hs', hs', htrue]
            rfl
          · rw [if_neg hs, if_neg hs']
            cases he : equality? (a.label (a.unparen i)) with
            | none => rfl
            | some e =>
              rw [head?_of_equality? he, comparisons_eq]
              simp only [Option.isSome_some, true_and, Option.elim_some, Condition.excluded, beq_iff_eq]
    · next hno =>
      rw [condition_incomplete hk hno]
      rfl
  · next hk =>
    rw [condition_call hk]
    cases a.nanTest? (a.unparen i) <;> cases outcome <;> rfl
  · next h1 h2 h3 h4 h5 =>
    rw [condition_other (by simpa using ⟨h1, h2, h3, h4, h5⟩)]
    rfl
termination_by a.size - i
decreasing_by
  all_goals have hle := le_unparen a i
  all_goals omega

end Syntax.Ast

end Mend
