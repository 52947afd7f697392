import Mend.Proofs.Sentinel.Value
import Mend.Proofs.Syntax.Nesting
import Mend.Sentinel.Reading

/-!
# Excluded sentinels are excluded

Once a condition has come out one way, the paths in it do not hold the sentinels that are read off it
(`excluded_sound`): whatever the values of names and members are, an excluded `FALSEY` means that the
value counts as true, an excluded `NULL` or `UNDEFINED` that it is neither. The formula that a condition
is read as is followed along its recursion (`rulesOut_of_mem_excluded`); at the comparisons the point is
that `null`, `undefined` and strings equal themselves, strictly and loosely, so that what is unequal to
one of them is something else (`unequal_ne`).

A comparison with `false` is not covered: a value other than `false` may well count as false. Nor is a
string with quotes of its own around the word `undefined`.
-/

namespace Mend

open Mend.Evaluation (Value Primitive Surroundings Assignment)
open Syntax (Ast)

/-- A value is not what a sentinel stands for, for the sentinels that a dereference is guarded by. -/
def Sentinel.RulesOut : Sentinel → Value → Prop
  | .falsey, v => v.truthy = true
  | .null, v => v ≠ .primitive .null
  | .undefined, v => v ≠ .primitive .undefined
  | _, _ => True

/-- Whether a path is compared with `false`. -/
def Condition.comparesFalse : Condition → Bool
  | .negation c => c.comparesFalse
  | .both l r | .either l r => l.comparesFalse || r.comparesFalse
  | .comparison _ l r => (comparisonFacts l r).any fun f => f.2 == .falsey
  | _ => false

namespace SentinelSet

/-- A union holds what either set holds. -/
lemma contains_union (s t : SentinelSet) (x : Sentinel) :
    (s.union t).contains x = (s.contains x || t.contains x) := by
  simp [contains, union]

/-- A single sentinel is the only one in its set. -/
lemma contains_single {x y : Sentinel} : (single y).contains x = true ↔ x = y := by
  cases x <;> cases y <;> decide

/-- Adding sentinels one by one adds exactly those of the list. -/
lemma contains_foldl (l : List Sentinel) (s : SentinelSet) (x : Sentinel) :
    (l.foldl (fun s x => s.union (single x)) s).contains x = true ↔ s.contains x = true ∨ x ∈ l := by
  induction l generalizing s with
  | nil => simp
  | cons y l ih =>
    rw [List.foldl_cons, ih, contains_union, Bool.or_eq_true, contains_single, List.mem_cons, or_assoc]

/-- The set of a list holds the members of the list. -/
lemma contains_ofList {l : List Sentinel} {x : Sentinel} : (ofList l).contains x = true ↔ x ∈ l := by
  have hempty : empty.contains x = false := by cases x <;> decide
  rw [ofList, contains_foldl, hempty]
  simp

end SentinelSet

/-- The sentinels of a path are those some fact gives it. -/
lemma contains_sentinelsOf {facts : List Fact} {p : String} {s : Sentinel} :
    (sentinelsOf facts p).contains s = true ↔ (p, s) ∈ facts := by
  rw [sentinelsOf, SentinelSet.contains_ofList]
  simp

namespace Evaluation

variable {w : Surroundings} {x y : Value} {p : Primitive}

/-- Whether two values are equal in the sense of a comparison operator. -/
def equal (w : Surroundings) (op : Equality) (x y : Value) : Bool :=
  if op.isStrict then x.strictEquals y else x.looseEquals w y

/-- The primitive values that comparisons with a sentinel hold against others: each equals itself. -/
def IsMark : Primitive → Prop
  | .undefined | .null | .string _ => True
  | _ => False

/-- Such a value equals itself under every equality. -/
lemma equal_self (w : Surroundings) (op : Equality) (hp : IsMark p) :
    equal w op (.primitive p) (.primitive p) = true := by
  unfold equal
  split
  · cases p <;> simp_all [IsMark, Value.strictEquals]
  · cases p <;> simp_all [IsMark, Value.looseEquals, Primitive.unboolean, Primitive.agrees]

/-- What is unequal to a value that equals itself is another value. -/
lemma unequal_ne {op : Equality} (hp : IsMark p)
    (h : equal w op x (.primitive p) = false ∨ equal w op (.primitive p) x = false) :
    x ≠ .primitive p := by
  rintro rfl
  rw [equal_self w op hp] at h
  rcases h with h | h <;> cases h

/-- An equality operator compares, and its negation turns the result around. -/
lemma binary?_of_equality? {s : String} {op : Equality} (h : Ast.equality? s = some op) :
    binary? w s x y = some (.primitive (.boolean (equal w op x y != op.isNegated))) := by
  unfold Ast.equality? at h
  split at h
  all_goals cases h
  all_goals simp [binary?, equal]

end Evaluation

namespace Syntax.Ast

variable {a : Ast} {w : Surroundings} {σ : Assignment} {i c l r : Nat}

/-- Parentheses change no path. -/
lemma path?_unparen (a : Ast) (i : Nat) : a.path? (a.unparen i) = a.path? i := by
  rw [path?, path?, unparen_unparen]

/-! What expressions come out as, kind by kind. -/

/-- The value of a path is what the state holds there. -/
lemma value_of_path? {p : String} (h : a.path? i = some p) : a.value w σ i = σ.value p := by
  rw [value, path?_unparen, h]

/-- Operators are no access paths. -/
lemma path?_of_kind (h : a.kind (a.unparen i) ∈ ["unary_expression", "binary_expression", "null",
    "undefined", "string"]) : a.path? i = none := by
  rw [path?]
  simp only [List.mem_cons, List.not_mem_nil, or_false] at h
  rcases h with h | h | h | h | h
  all_goals simp [h]

/-- The value of a unary expression, from that of its operand. -/
lemma value_unary (hk : a.kind (a.unparen i) = "unary_expression")
    (hc : a.firstChild? (a.unparen i) = some c) :
    a.value w σ i =
      (Evaluation.unary? w (a.label (a.unparen i)) (a.value w σ c)).getD (w.other (a.unparen i)) := by
  rw [value, path?_unparen, path?_of_kind (by simp [hk])]
  simp only [hk]
  split
  · next d hd =>
    cases hc.symm.trans hd
    rfl
  · next hd => cases hc.symm.trans hd

/-- The value of a binary expression, from those of its operands. -/
lemma value_binary (hk : a.kind (a.unparen i) = "binary_expression")
    (hl : a.child? (a.unparen i) "left" = some l) (hr : a.child? (a.unparen i) "right" = some r) :
    a.value w σ i =
      (Evaluation.binary? w (a.label (a.unparen i)) (a.value w σ l) (a.value w σ r)).getD
        (w.other (a.unparen i)) := by
  rw [value, path?_unparen, path?_of_kind (by simp [hk])]
  simp only [hk]
  split
  · next hl' hr' =>
    cases hl.symm.trans hl'
    cases hr.symm.trans hr'
    rfl
  · next hno => exact (hno l r hl hr).elim

/-- A negation is truthy iff its operand is not. -/
lemma truthy_not (hk : a.kind (a.unparen i) = "unary_expression")
    (hs : a.label (a.unparen i) = "!") (hc : a.firstChild? (a.unparen i) = some c) :
    (a.value w σ i).truthy = !(a.value w σ c).truthy := by
  rw [value_unary hk hc, hs]
  rfl

/-- A conjunction is truthy iff both sides are. -/
lemma truthy_both (hk : a.kind (a.unparen i) = "binary_expression")
    (hs : a.label (a.unparen i) = "&&")
    (hl : a.child? (a.unparen i) "left" = some l) (hr : a.child? (a.unparen i) "right" = some r) :
    (a.value w σ i).truthy = ((a.value w σ l).truthy && (a.value w σ r).truthy) := by
  rw [value_binary hk hl hr, hs]
  cases h : (a.value w σ l).truthy <;> simp [Evaluation.binary?, h]

/-- A disjunction is truthy iff one side is. -/
lemma truthy_either (hk : a.kind (a.unparen i) = "binary_expression")
    (hs : a.label (a.unparen i) = "||")
    (hl : a.child? (a.unparen i) "left" = some l) (hr : a.child? (a.unparen i) "right" = some r) :
    (a.value w σ i).truthy = ((a.value w σ l).truthy || (a.value w σ r).truthy) := by
  rw [value_binary hk hl hr, hs]
  cases h : (a.value w σ l).truthy <;> simp [Evaluation.binary?, h]

/-- A comparison is truthy iff its sides compare so. -/
lemma truthy_comparison {op : Equality} (hk : a.kind (a.unparen i) = "binary_expression")
    (hs : equality? (a.label (a.unparen i)) = some op)
    (hl : a.child? (a.unparen i) "left" = some l) (hr : a.child? (a.unparen i) "right" = some r) :
    (a.value w σ i).truthy =
      (Evaluation.equal w op (a.value w σ l) (a.value w σ r) != op.isNegated) := by
  rw [value_binary hk hl hr, Evaluation.binary?_of_equality? hs]
  rfl

/-! What the sides of a comparison come out as. -/

/-- What is written as undefined has that value. -/
lemma value_of_isUndefined (h : a.isUndefined (a.unparen i) = true) :
    a.value w σ i = .primitive .undefined := by
  simp only [isUndefined, unparen_unparen, Bool.or_eq_true, Bool.and_eq_true, beq_iff_eq] at h
  rcases h with h | ⟨hk, hl⟩
  · rw [value, path?_unparen, path?_of_kind (by simp [h])]
    simp only [h]
  · have hp : a.path? i = some "undefined" := by
      rw [path?]
      simp [hk, hl]
    rw [value_of_path? hp, σ.value_undefined]

/-- The literal `undefined` has that value. -/
lemma value_of_literal_undefined (h : a.literal? (a.unparen i) = some .undefined) :
    a.value w σ i = .primitive .undefined := by
  apply value_of_isUndefined
  by_contra hno
  rw [literal?, if_neg hno] at h
  split at h
  all_goals first
    | split at h <;> cases h
    | cases h

/-- The literal `null` has that value. -/
lemma value_of_literal_null (h : a.literal? (a.unparen i) = some .null) :
    a.value w σ i = .primitive .null := by
  have hk : a.kind (a.unparen i) = "null" := by
    unfold literal? at h
    split at h
    · cases h
    · split at h
      all_goals first
        | assumption
        | split at h <;> cases h
        | cases h
  rw [value, path?_unparen, path?_of_kind (by simp [hk])]
  simp only [hk]

/-- What is known of an expression that is read as a side of a comparison. -/
lemma operand_cases (a : Ast) (i : Nat) :
    match a.operand i with
    | .literal l => a.literal? (a.unparen i) = some l
    | .path p => a.path? i = some p
    | .typeName p => a.kind (a.unparen i) = "unary_expression" ∧ a.label (a.unparen i) = "typeof" ∧
        (a.firstChild? (a.unparen i)).bind a.path? = p
    | .undefinedName => a.kind (a.unparen i) = "string"
    | .other => True := by
  unfold operand
  dsimp only
  by_cases htypeof : a.kind (a.unparen i) = "unary_expression" ∧ a.label (a.unparen i) = "typeof"
  · rw [if_pos htypeof]
    exact ⟨htypeof.1, htypeof.2, rfl⟩
  · rw [if_neg htypeof]
    cases hl : a.literal? (a.unparen i) with
    | some l => rfl
    | none =>
      cases hp : a.path? (a.unparen i) with
      | some p => exact (path?_unparen a i).symm.trans hp
      | none =>
        dsimp only
        split_ifs with hs
        · exact hs.1
        · trivial

/-- A string that reads `undefined` between any number of quotes has one pair of them. -/
def QuotesOnce (a : Ast) (i : Nat) : Prop :=
  a.operand i = .undefinedName → a.text (a.unparen i) ∈ ["'undefined'", "\"undefined\""]

instance (a : Ast) (i : Nat) : Decidable (a.QuotesOnce i) :=
  inferInstanceAs (Decidable (_ → _))

/-- The quoted name of undefined has that text as its value. -/
lemma value_of_undefinedName (h : a.operand i = .undefinedName) (hquotes : a.QuotesOnce i) :
    a.value w σ i = .primitive (.string "undefined") := by
  have hk := operand_cases a i
  rw [h] at hk
  have ht := hquotes h
  rw [value, path?_unparen, path?_of_kind (by simp [hk])]
  simp only [hk]
  simp only [List.mem_cons, List.not_mem_nil, or_false] at ht
  rcases ht with ht | ht
  all_goals rw [ht]
  all_goals rfl

/-- A `typeof` has the name of its operand's type as its value. -/
lemma value_of_typeName {p : String} (h : a.operand i = .typeName (some p)) :
    a.value w σ i = .primitive (.string ((σ.value p).typeName w)) := by
  have hop := operand_cases a i
  rw [h] at hop
  obtain ⟨hk, hs, hp⟩ := hop
  obtain ⟨c, hc, hp⟩ := Option.bind_eq_some_iff.1 hp
  rw [value_unary hk hc, hs, value_of_path? hp]
  rfl

/-- What a side of an inequation says about a path holds of the value of the path. -/
lemma rulesOut_of_fact? {op : Equality} {p : String} {s : Sentinel}
    (h : (a.operand l).fact? (a.operand r) = some (p, s)) (hs : s ≠ .falsey)
    (hquotes : a.QuotesOnce r)
    (hne : Evaluation.equal w op (a.value w σ l) (a.value w σ r) = false ∨
      Evaluation.equal w op (a.value w σ r) (a.value w σ l) = false) :
    s.RulesOut (σ.value p) := by
  unfold Operand.fact? at h
  split at h
  · next q hl hr =>
    -- The type name of the path is not `undefined`.
    simp only [Option.some.injEq, Prod.mk.injEq] at h
    obtain ⟨rfl, rfl⟩ := h
    rw [value_of_typeName hl, value_of_undefinedName hr hquotes] at hne
    have hname := Evaluation.unequal_ne (p := .string "undefined") trivial hne
    intro hv
    rw [hv] at hname
    exact hname rfl
  · next q lit hl hr =>
    simp only [Option.some.injEq, Prod.mk.injEq] at h
    obtain ⟨rfl, rfl⟩ := h
    have hp := operand_cases a l
    have hlit := operand_cases a r
    rw [hl] at hp
    rw [hr] at hlit
    rw [value_of_path? hp] at hne
    cases lit with
    | undefined =>
      rw [value_of_literal_undefined hlit] at hne
      exact Evaluation.unequal_ne trivial hne
    | null =>
      rw [value_of_literal_null hlit] at hne
      exact Evaluation.unequal_ne trivial hne
    | false_ => exact absurd rfl hs
    | true_ | nan | blank | zero => trivial
  · cases h

/-- A path that is a condition counts as true once the condition has come out true. -/
lemma rulesOut_of_mem_truth {outcome : Bool} (hvalue : (a.value w σ i).truthy = outcome) :
    ∀ f ∈ (a.truth (a.unparen i)).excluded outcome, f.2.RulesOut (σ.value f.1) := by
  intro f hf
  unfold truth at hf
  rw [path?_unparen] at hf
  split at hf
  · next p hp =>
    rw [value_of_path? hp] at hvalue
    split at hf
    · cases outcome with
      | true =>
        rw [List.mem_singleton.1 hf]
        exact hvalue
      | false => cases hf
    · cases hf
  · cases hf

/-- What a comparison that has come out negative says of its sides holds, whichever way its operator reads. -/
lemma rulesOut_of_mem_comparison {op : Equality} {outcome : Bool}
    (hfalse : (Condition.comparison op (a.operand l) (a.operand r)).comparesFalse = false)
    (hquotesl : a.QuotesOnce l) (hquotesr : a.QuotesOnce r)
    (hvalue : (Evaluation.equal w op (a.value w σ l) (a.value w σ r) != op.isNegated) = outcome) :
    ∀ f ∈ (Condition.comparison op (a.operand l) (a.operand r)).excluded outcome,
      f.2.RulesOut (σ.value f.1) := by
  intro f hf
  rw [Condition.excluded] at hf
  split at hf
  · next hneg =>
    have hne : Evaluation.equal w op (a.value w σ l) (a.value w σ r) = false := by
      rw [beq_iff_eq] at hneg
      rw [hneg] at hvalue
      cases h : Evaluation.equal w op (a.value w σ l) (a.value w σ r) <;> cases outcome <;> simp_all
    have hs : f.2 ≠ .falsey := by
      intro hs
      rw [Condition.comparesFalse, List.any_eq_false] at hfalse
      exact hfalse f hf (by rw [hs]; rfl)
    rcases List.mem_append.1 hf with hf | hf
    · exact rulesOut_of_fact? (Option.mem_toList.1 hf) hs hquotesr (.inl hne)
    · exact rulesOut_of_fact? (Option.mem_toList.1 hf) hs hquotesl (.inr hne)
  · cases hf

/-- A test for `NaN` excludes nothing but `NAN`, of which `RulesOut` asks nothing. -/
lemma rulesOut_of_mem_nanTest {outcome : Bool} :
    ∀ f ∈ ((a.nanTest? i).elim .unknown Condition.isNaN).excluded outcome, f.2.RulesOut (σ.value f.1) := by
  intro f hf
  cases hn : a.nanTest? i with
  | none =>
    rw [hn] at hf
    cases hf
  | some p =>
    rw [hn, Option.elim_some, Condition.excluded] at hf
    split at hf
    · cases hf
    · rw [List.mem_singleton.1 hf]
      trivial

/-- What is read off a condition holds once the condition has come out that way. -/
lemma rulesOut_of_mem_excluded {outcome : Bool} (hfalse : (a.condition i).comparesFalse = false)
    (hquotes : ∀ j, a.contains i j = true → a.QuotesOnce j)
    (hvalue : (a.value w σ i).truthy = outcome) :
    ∀ f ∈ (a.condition i).excluded outcome, f.2.RulesOut (σ.value f.1) := by
  fun_induction condition a i generalizing outcome
  case case1 i j hk => exact rulesOut_of_mem_truth hvalue
  case case2 i j hk => exact rulesOut_of_mem_truth hvalue
  case case3 i j hk hs c hc ih =>
    have hbelow : ∀ j, a.contains c j = true → a.QuotesOnce j := fun j hj =>
      hquotes j (contains_unparen (contains_of_firstChild? hc hj))
    refine ih hfalse hbelow ?_
    rw [← hvalue, truthy_not hk hs hc, Bool.not_not]
  case case6 i j hk l r hl hr hs ihl ihr =>
    have hquotesl : ∀ j, a.contains l j = true → a.QuotesOnce j := fun j hj =>
      hquotes j (contains_unparen (contains_of_child? hl hj))
    have hquotesr : ∀ j, a.contains r j = true → a.QuotesOnce j := fun j hj =>
      hquotes j (contains_unparen (contains_of_child? hr hj))
    rw [truthy_both hk hs hl hr] at hvalue
    rw [Condition.comparesFalse, Bool.or_eq_false_iff] at hfalse
    cases outcome with
    | false => nofun
    | true =>
      rw [Bool.and_eq_true] at hvalue
      intro f hf
      rcases List.mem_append.1 hf with hf | hf
      · exact ihl hfalse.1 hquotesl hvalue.1 f hf
      · exact ihr hfalse.2 hquotesr hvalue.2 f hf
  case case7 i j hk l r hl hr hs ihl ihr =>
    have hquotesl : ∀ j, a.contains l j = true → a.QuotesOnce j := fun j hj =>
      hquotes j (contains_unparen (contains_of_child? hl hj))
    have hquotesr : ∀ j, a.contains r j = true → a.QuotesOnce j := fun j hj =>
      hquotes j (contains_unparen (contains_of_child? hr hj))
    rw [truthy_either hk hs hl hr] at hvalue
    rw [Condition.comparesFalse, Bool.or_eq_false_iff] at hfalse
    cases outcome with
    | true => nofun
    | false =>
      rw [Bool.or_eq_false_iff] at hvalue
      intro f hf
      rcases List.mem_append.1 hf with hf | hf
      · exact ihl hfalse.1 hquotesl hvalue.1 f hf
      · exact ihr hfalse.2 hquotesr hvalue.2 f hf
  case case8 i j hk l r hl hr op _ _ hs =>
    have hquotesl := hquotes l (contains_unparen (contains_of_child? hl (contains_self a l)))
    have hquotesr := hquotes r (contains_unparen (contains_of_child? hr (contains_self a r)))
    rw [truthy_comparison hk hs hl hr] at hvalue
    exact rulesOut_of_mem_comparison hfalse hquotesl hquotesr hvalue
  case case11 i j hk => exact rulesOut_of_mem_nanTest
  all_goals nofun

/-- Once a condition has come out one way, the value of every path fits what is excluded for it: it counts as
true if `FALSEY` is excluded, and it is not `null` or not `undefined` if that is excluded. This is about
conditions that compare no path with `false` and in which strings reading `undefined` have one pair of
quotes. -/
theorem excluded_sound (a : Ast) (w : Surroundings) (σ : Assignment) (i : Nat) (outcome : Bool)
    (hfalse : (a.condition i).comparesFalse = false)
    (hquotes : ∀ j, a.contains i j = true → a.QuotesOnce j)
    (hvalue : (a.value w σ i).truthy = outcome) (path : String) :
    let known := sentinelsOf ((a.condition i).excluded outcome) path
    (known.contains .falsey = true → (σ.value path).truthy = true) ∧
      (known.contains .null = true → σ.value path ≠ .primitive .null) ∧
      (known.contains .undefined = true → σ.value path ≠ .primitive .undefined) := by
  have hfacts : ∀ s, (sentinelsOf ((a.condition i).excluded outcome) path).contains s = true →
      s.RulesOut (σ.value path) := fun s hs =>
    rulesOut_of_mem_excluded hfalse hquotes hvalue (path, s) (contains_sentinelsOf.1 hs)
  exact ⟨hfacts .falsey, hfacts .null, hfacts .undefined⟩

/-- The program `x != null && typeof y !== "undefined"`. -/
def guarded : Ast :=
  .ofForest "x != null && typeof y !== \"undefined\"" <|
    .cons ⟨"program", none, "", 0, 37, 1⟩
      (.cons ⟨"expression_statement", none, "", 0, 37, 1⟩
        (.cons ⟨"binary_expression", none, "&&", 0, 37, 1⟩
          (.cons ⟨"binary_expression", some "left", "!=", 0, 9, 1⟩
            (.cons ⟨"identifier", some "left", "x", 0, 1, 1⟩ .nil
              (.cons ⟨"null", some "right", "null", 5, 9, 1⟩ .nil .nil))
            (.cons ⟨"binary_expression", some "right", "!==", 13, 37, 1⟩
              (.cons ⟨"unary_expression", some "left", "typeof", 13, 21, 1⟩
                (.cons ⟨"identifier", some "argument", "y", 20, 21, 1⟩ .nil .nil)
                (.cons ⟨"string", some "right", "\"undefined\"", 26, 37, 1⟩ .nil .nil)) .nil)) .nil) .nil) .nil

/-- With an object for both names the condition holds, and neither name is what is excluded for it. -/
theorem excluded_sound_guarded :
    let σ := Assignment.const (.object 0)
    (guarded.value default σ 2).truthy = true ∧
      (sentinelsOf ((guarded.condition 2).excluded true) "y").contains .undefined = true ∧
      σ.value "y" ≠ .primitive .undefined := by
  have hvalue : (guarded.value default (.const (.object 0)) 2).truthy = true := by decide +kernel
  have hknown : (sentinelsOf ((guarded.condition 2).excluded true) "y").contains .undefined = true := by
    decide +kernel
  have hquotes : ∀ j < guarded.size, guarded.QuotesOnce j := by decide +kernel
  refine ⟨hvalue, hknown, (excluded_sound guarded default (.const (.object 0)) 2 true (by decide +kernel)
    (fun j hj => hquotes j ?_) hvalue "y").2.2 hknown⟩
  have hlast : guarded.last 2 < guarded.size := by decide +kernel
  exact Nat.lt_of_le_of_lt (contains_iff.1 hj).2 hlast

/-- The program `x !== false`. -/
def unequalToFalse : Ast :=
  .ofForest "x !== false" <|
    .cons ⟨"program", none, "", 0, 11, 1⟩
      (.cons ⟨"expression_statement", none, "", 0, 11, 1⟩
        (.cons ⟨"binary_expression", none, "!==", 0, 11, 1⟩
          (.cons ⟨"identifier", some "left", "x", 0, 1, 1⟩ .nil
            (.cons ⟨"false", some "right", "false", 6, 11, 1⟩ .nil .nil)) .nil) .nil) .nil

/-- A name that is `null` is unequal to `false` all the same, and counts as false, which is excluded. -/
theorem falsey_excluded_of_null :
    (unequalToFalse.value default (.const (.primitive .null)) 2).truthy = true ∧
      (sentinelsOf ((unequalToFalse.condition 2).excluded true) "x").contains .falsey = true ∧
      ((Assignment.const (.primitive .null)).value "x").truthy = false := by
  decide +kernel

end Syntax.Ast

end Mend
