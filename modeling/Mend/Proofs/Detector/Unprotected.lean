import Mend.Detector.ErrorHandling
import Mend.Proofs.Scope.Shape

/-!
# Which calls count as unprotected

Seen from a call, it is unprotected if no `try` statement around it, within the function, has it in its body
(`enclosingTry?_eq_none_iff`). The walk down from a scope goes into the clauses of the `try` statements that
it meets, but not into the `try` statements it meets there. So it finds the unprotected calls that at most
one `try` statement stands around (`unprotectedCalls_spec`), and misses calls in the clauses of a `try`
statement that itself stands in a clause (`unprotected_call_missing`).
-/

namespace Mend

open Syntax (Ast Node)

/-- A list without repetition whose members are all equal has at most one. -/
lemma length_le_one_of_forall_eq {l : List Nat} {n : Nat} (hl : l.Nodup) (h : ∀ m ∈ l, m = n) :
    l.length ≤ 1 := by
  match l with
  | [] => exact Nat.zero_le 1
  | [_] => exact Nat.le_refl 1
  | k :: m :: l =>
    have hk := h k List.mem_cons_self
    have hm := h m (List.mem_cons_of_mem k List.mem_cons_self)
    exact absurd (hk.trans hm.symm ▸ List.mem_cons_self) (List.nodup_cons.1 hl).1

namespace Syntax.Ast

variable {a : Ast} {c n p t : Nat}

/-- The `try` statements around a node within its function, innermost first. -/
def triesAround (a : Ast) (n : Nat) : List Nat :=
  ((a.ancestors n).takeWhile fun u => !a.isFunction u).filter fun u => a.kind u == "try_statement"

/-- As the grammar has it: besides its body a `try` statement holds clauses, at most one of each role, and
no clause is itself a `try` statement. -/
def TriesHoldClauses (a : Ast) : Prop :=
  ∀ t ∈ a.ids, a.kind t = "try_statement" → ∀ c ∈ a.children t, a.field? c = some "body" ∨
    (∃ role ∈ ["handler", "finalizer"], a.child? t role = some c) ∧ a.kind c ≠ "try_statement"

instance (a : Ast) : Decidable a.TriesHoldClauses := by
  unfold TriesHoldClauses
  infer_instance

/-- No clause of a `try` statement is itself a `try` statement. -/
def NoClauseIsTry (a : Ast) : Prop :=
  ∀ t ∈ a.ids, a.kind t = "try_statement" → ∀ c ∈ a.children t,
    a.field? c = some "handler" ∨ a.field? c = some "finalizer" → a.kind c ≠ "try_statement"

instance (a : Ast) : Decidable a.NoClauseIsTry := by
  unfold NoClauseIsTry
  infer_instance

/-- Where handlers and finalizers are clauses, none is itself a `try`. -/
lemma TriesHoldClauses.noClauseIsTry (hg : a.TriesHoldClauses) : a.NoClauseIsTry := by
  intro t ht htry c hc hclause
  rcases hg t ht htry c hc with hbody | ⟨-, hkind⟩
  · rw [hbody] at hclause
    exact absurd hclause (by decide)
  · exact hkind

/-- The `try` statements around a node are listed from the inside out. -/
lemma pairwise_triesAround (a : Ast) (n : Nat) : (a.triesAround n).Pairwise (· > ·) :=
  ((pairwise_ancestors a n).sublist (List.takeWhile_sublist _)).filter _

/-- A `try` is around a node iff no function stands between them. -/
lemma mem_triesAround : t ∈ a.triesAround n ↔ t ∈ a.ancestors n ∧
    (∀ u ∈ a.ancestors n, t ≤ u → a.isFunction u = false) ∧ a.kind t = "try_statement" := by
  rw [triesAround, List.mem_filter, mem_takeWhile_iff_of_pairwise (pairwise_ancestors a n), beq_iff_eq]
  simp only [Bool.not_eq_true', and_assoc]

/-- The `try` statements around a node are those around its parent and, unless a function ends them, the parent
itself. -/
lemma triesAround_of_parent? (h : a.parent? n = some p) :
    a.triesAround n = if a.isFunction p then [] else
      if a.kind p = "try_statement" then p :: a.triesAround p else a.triesAround p := by
  rw [triesAround, ancestors_of_parent? h, List.takeWhile_cons]
  cases a.isFunction p with
  | true => rfl
  | false =>
    rw [Bool.not_false, if_pos rfl, List.filter_cons, if_neg Bool.false_ne_true]
    simp only [beq_iff_eq]
    rfl

/-- The `try` whose body holds a node, told from its parent. -/
lemma enclosingTry?_of_parent? (h : a.parent? n = some p) :
    a.enclosingTry? n = if a.isFunction p then none else
      if a.kind p = "try_statement" ∧ a.field? n = some "body" then some p else a.enclosingTry? p := by
  rw [enclosingTry?, ascent_of_parent? h, List.find?_cons]
  dsimp only
  cases hf : a.isFunction p with
  | true => simp only [Bool.true_or, hf, if_true]
  | false =>
    rw [Bool.false_or, if_neg Bool.false_ne_true]
    by_cases hbody : a.kind p = "try_statement" ∧ a.field? n = some "body"
    · rw [if_pos hbody, hbody.1, hbody.2]
      simp only [beq_self_eq_true, Bool.and_self, hf, Bool.false_eq_true, if_false]
    · rw [if_neg hbody]
      have hnot : (a.kind p == "try_statement" && a.field? n == some "body") = false := by
        rw [← Bool.not_eq_true, Bool.and_eq_true, beq_iff_eq, beq_iff_eq]
        exact hbody
      rw [hnot]
      rfl

/-- No `try` is around a root. -/
lemma triesAround_of_root (h : a.parent? n = none) : a.triesAround n = [] := by
  rw [triesAround, ancestors_of_root h]
  rfl

/-- A root is in the body of no `try`. -/
lemma enclosingTry?_of_root (h : a.parent? n = none) : a.enclosingTry? n = none := by
  rw [enclosingTry?, ascent, ancestors_of_root h]
  rfl

/-- No `try` statement protects a node if the node is in the body of none of those around it. -/
lemma enclosingTry?_eq_none_iff : a.enclosingTry? n = none ↔
    ∀ t ∈ a.triesAround n, ∀ c ∈ a.children t, a.contains c n = true → a.field? c ≠ some "body" := by
  induction n using Nat.strongRecOn with
  | _ n ih =>
    cases hp : a.parent? n with
    | none =>
      rw [triesAround_of_root hp, enclosingTry?_of_root hp]
      exact iff_of_true rfl nofun
    | some p =>
      have hn : n ∈ a.children p := parent?_eq_some_iff.1 hp
      -- The way to a `try` statement further up leads through `p`.
      have hup : (∀ t ∈ a.triesAround p, ∀ c ∈ a.children t, a.contains c n = true → a.field? c ≠ some "body") ↔
          a.enclosingTry? p = none := by
        rw [ih p (parent_lt hp)]
        refine forall₄_congr fun t ht c hc => imp_congr_left ⟨fun hcn => ?_, fun hcp => ?_⟩
        · obtain ⟨htp, hne⟩ := mem_ancestors.1 (mem_triesAround.1 ht).1
          obtain ⟨c', hc', hcp⟩ := exists_child_of_contains htp (Ne.symm hne)
          cases eq_of_contains hc hc' hcn (contains_trans hcp (contains_child hn))
          exact hcp
        · exact contains_trans hcp (contains_child hn)
      rw [triesAround_of_parent? hp, enclosingTry?_of_parent? hp]
      by_cases hf : a.isFunction p = true
      · rw [if_pos hf, if_pos hf]
        exact iff_of_true rfl nofun
      · rw [if_neg hf, if_neg hf]
        by_cases htry : a.kind p = "try_statement"
        · rw [if_pos htry, List.forall_mem_cons, hup]
          by_cases hbody : a.field? n = some "body"
          · rw [if_pos ⟨htry, hbody⟩]
            exact iff_of_false nofun fun h => h.1 n hn (contains_self a n) hbody
          · rw [if_neg fun h => hbody h.2, iff_and_self]
            intro _ c hc hcn
            cases eq_of_contains hc hn hcn (contains_self a n)
            exact hbody
        · rw [if_neg htry, if_neg fun h => htry h.1, hup]

end Syntax.Ast

namespace ScopeTree

variable {a : Ast} {i j s t : Nat}

/-- Within the scope at `i`, the `try` statements around a node are those between `i` and the node. -/
lemma mem_triesAround_of_own (h : a.IsScript) (hi : (ofAst a).owner? s = some i)
    (hj : j ∈ (ofAst a).ownNodes s) : t ∈ a.triesAround j ↔
      a.contains i t = true ∧ a.contains t j = true ∧ t ≠ j ∧ a.kind t = "try_statement" := by
  obtain ⟨⟨hij, hway⟩, hne⟩ := (mem_ownNodes_of_owner? h.isRooted hi).1 hj
  have hmem := Ast.mem_ancestors.2 ⟨hij, Ne.symm hne⟩
  have howner := (mem_owners h.isRooted).1 (mem_owners_of_owner? hi)
  rw [Ast.mem_triesAround]
  constructor
  · rintro ⟨ht, hfree, htry⟩
    obtain ⟨htj, htne⟩ := Ast.mem_ancestors.1 ht
    refine ⟨?_, htj, htne, htry⟩
    -- Were `t` above `i`, there would be a function in between, or `t` would be the script.
    have hlt : i ≤ t := by
      by_contra hlt
      rcases howner with rfl | hfun
      · omega
      · rw [hfree i hmem (by omega)] at hfun
        cases hfun
    exact Ast.contains_iff.2 ⟨hlt, Nat.le_trans (Ast.contains_iff.1 htj).1 (Ast.contains_iff.1 hij).2⟩
  · rintro ⟨hit, htj, hne', htry⟩
    refine ⟨Ast.mem_ancestors.2 ⟨htj, hne'⟩, fun u hu htu => ?_, htry⟩
    obtain ⟨huj, hune⟩ := Ast.mem_ancestors.1 hu
    have hiu : a.contains i u = true := by
      rw [Ast.contains_iff] at *
      omega
    rcases hway u hiu huj hune with rfl | hnot
    · have hti : t = u := Nat.le_antisymm htu (Ast.contains_iff.1 hit).1
      rcases howner with rfl | hfun
      · exact h.not_isFunction
      · rw [hti] at htry
        rw [Ast.isFunction, htry]
        decide
    · exact hnot

/-- The nodes met below a clause: those below it that no function or inner `try` hides. -/
lemma mem_clauseNodes {c : Nat} (hc : c < a.size) : j ∈ clauseNodes a c ↔
    (a.contains c j = true ∧ ∀ u, a.contains c u = true → a.contains u j = true → u ≠ j →
      a.isFunction u = false ∧ (u = c ∨ a.kind u ≠ "try_statement")) ∧ a.isFunction j = false := by
  simp only [clauseNodes, List.mem_filter, Ast.mem_reach hc, Bool.and_eq_true, Bool.not_eq_true',
    Bool.or_eq_true, beq_iff_eq, bne_iff_ne]

/-- The nodes met below the clause of a role, if there is one. -/
lemma mem_clause {role : String} : j ∈ (a.child? t role).elim [] (clauseNodes a) ↔
    ∃ c, a.child? t role = some c ∧ j ∈ clauseNodes a c := by
  cases a.child? t role with
  | none => exact iff_of_false nofun nofun
  | some c =>
    constructor
    · intro hj
      exact ⟨c, rfl, hj⟩
    · rintro ⟨_, ⟨⟩, hj⟩
      exact hj

/-- The nodes met below the handler or the finalizer of a `try`. -/
lemma mem_handlerNodes : j ∈ handlerNodes a t ↔
    ∃ role ∈ ["handler", "finalizer"], ∃ c, a.child? t role = some c ∧ j ∈ clauseNodes a c := by
  simp only [handlerNodes, List.mem_flatMap, mem_clause]

/-- A handler or finalizer is no `try` statement. -/
lemma clause_ne_try (hg : a.NoClauseIsTry) (ht : a.kind t = "try_statement") {role : String} {c : Nat}
    (hc : a.child? t role = some c) (hrole : role ∈ ["handler", "finalizer"]) :
    a.kind c ≠ "try_statement" := by
  have hct := Ast.mem_children_of_child? hc
  have hbounds := Ast.mem_children hct
  rw [List.mem_pair] at hrole
  refine hg t (Ast.mem_ids.2 (Nat.lt_trans hbounds.1 hbounds.2)) ht c hct ?_
  rw [Ast.field?_of_child? hc, Option.some.injEq, Option.some.injEq]
  exact hrole

/-- The nodes met below the clauses of a `try` lie properly below it. -/
lemma contains_of_mem_handlerNodes (h : j ∈ handlerNodes a t) : a.contains t j = true ∧ j ≠ t := by
  obtain ⟨role, -, c, hc, hj⟩ := mem_handlerNodes.1 h
  have hbounds := Ast.child?_bounds hc
  have hcj := ((mem_clauseNodes hbounds.2).1 hj).1.1
  refine ⟨Ast.contains_of_child? hc hcj, ?_⟩
  have hle := (Ast.contains_iff.1 hcj).1
  omega

/-- Each node below a clause is met once. -/
lemma nodup_clauseNodes {c : Nat} (hc : c < a.size) : (clauseNodes a c).Nodup :=
  ((Ast.pairwise_reach _ hc).imp Nat.ne_of_lt).filter _

/-- Each node below the clauses of a `try` is met once. -/
lemma nodup_handlerNodes (a : Ast) (t : Nat) : (handlerNodes a t).Nodup := by
  refine List.nodup_flatMap.2 ⟨fun role _ => ?_, ?_⟩
  · cases hc : a.child? t role with
    | none => exact List.nodup_nil
    | some c => exact nodup_clauseNodes (Ast.child?_bounds hc).2
  · refine List.pairwise_pair.2 fun n hn hn' => ?_
    obtain ⟨c, hc, hn⟩ := mem_clause.1 hn
    obtain ⟨c', hc', hn'⟩ := mem_clause.1 hn'
    rw [mem_clauseNodes (Ast.child?_bounds hc).2] at hn
    rw [mem_clauseNodes (Ast.child?_bounds hc').2] at hn'
    exact Ast.apart_of_child? hc hc' (by decide) n hn.1.1 hn'.1.1

/-- What the walk down from `i` exposes at a node that it meets. -/
def exposedAt (a : Ast) (i t : Nat) : List Nat :=
  if !(t == i || !a.isFunction t) then []
  else if a.kind t == "try_statement" then handlerNodes a t
  else [t]

/-- What one node met exposes: the clauses of a `try`, or itself. -/
lemma mem_exposedAt : j ∈ exposedAt a i t ↔ (t = i ∨ a.isFunction t = false) ∧
    ((a.kind t = "try_statement" ∧ j ∈ handlerNodes a t) ∨ (a.kind t ≠ "try_statement" ∧ j = t)) := by
  have hinside : (t == i || !a.isFunction t) = true ↔ t = i ∨ a.isFunction t = false := by
    rw [Bool.or_eq_true, beq_iff_eq, Bool.not_eq_true']
  unfold exposedAt
  cases hin : (t == i || !a.isFunction t) with
  | false =>
    rw [hin] at hinside
    exact iff_of_false nofun fun h => Bool.false_ne_true (hinside.2 h.1)
  | true =>
    rw [Bool.not_true, if_neg Bool.false_ne_true, and_iff_right (hinside.1 hin)]
    simp only [beq_iff_eq]
    by_cases htry : a.kind t = "try_statement"
    · rw [if_pos htry, and_iff_right htry, or_iff_left fun h => h.1 htry]
    · rw [if_neg htry, List.mem_singleton, and_iff_right htry, or_iff_right fun h => htry h.1]

/-- One node met exposes each node once. -/
lemma nodup_exposedAt (a : Ast) (i t : Nat) : (exposedAt a i t).Nodup := by
  unfold exposedAt
  split
  · exact List.nodup_nil
  · split
    · exact nodup_handlerNodes a t
    · exact List.nodup_singleton t

/-- The nodes that the walk down from `i` meets: no function and no `try` statement is passed. -/
def Met (a : Ast) (i j : Nat) : Prop :=
  a.contains i j = true ∧ ∀ u, a.contains i u = true → a.contains u j = true → u ≠ j →
    (u = i ∨ a.isFunction u = false) ∧ a.kind u ≠ "try_statement"

/-- The exposed nodes of a scope, meeting by meeting. -/
lemma exposedNodes_eq (h : a.IsRooted) (hi : (ofAst a).owner? s = some i) : ∃ met : List Nat,
    met.Pairwise (· < ·) ∧ (∀ t, t ∈ met ↔ Met a i t) ∧
      (ofAst a).exposedNodes s = met.flatMap (exposedAt a i) := by
  have hsize := lt_size_of_mem_owners h (mem_owners_of_owner? hi)
  refine ⟨a.reach (fun j => (j == i || !a.isFunction j) && a.kind j != "try_statement") i,
    Ast.pairwise_reach _ hsize, fun t => ?_, ?_⟩
  · simp only [Ast.mem_reach hsize, Bool.and_eq_true, Bool.or_eq_true, beq_iff_eq, bne_iff_ne,
      Bool.not_eq_true', Met]
  · unfold exposedNodes
    rw [hi]
    simp only [ofAst_ast]
    rfl

/-- The exposed nodes of a scope are those some node met exposes. -/
lemma mem_exposedNodes (h : a.IsRooted) (hi : (ofAst a).owner? s = some i) :
    j ∈ (ofAst a).exposedNodes s ↔ ∃ t, Met a i t ∧ j ∈ exposedAt a i t := by
  obtain ⟨met, -, hmet, heq⟩ := exposedNodes_eq h hi
  simp only [heq, List.mem_flatMap, hmet]

/-- Each exposed node of a scope is listed once. -/
lemma nodup_exposedNodes (h : a.IsRooted) (hi : (ofAst a).owner? s = some i) :
    ((ofAst a).exposedNodes s).Nodup := by
  obtain ⟨met, hasc, hmet, heq⟩ := exposedNodes_eq h hi
  rw [heq]
  refine List.nodup_flatMap.2 ⟨fun t _ => nodup_exposedAt a i t, hasc.imp_of_mem ?_⟩
  intro t t' ht ht' hlt n hn hn'
  have hwithin : ∀ {u}, n ∈ exposedAt a i u → a.contains u n = true := by
    intro u hu
    rcases (mem_exposedAt.1 hu).2 with ⟨-, hu⟩ | ⟨-, rfl⟩
    · exact (contains_of_mem_handlerNodes hu).1
    · exact Ast.contains_self a n
  have htn := hwithin hn
  have ht'n := hwithin hn'
  have htt' : a.contains t t' = true := by
    rw [Ast.contains_iff] at *
    omega
  -- The later meeting is below the earlier one, which therefore is no `try` statement.
  have hnot := (((hmet t').1 ht').2 t ((hmet t).1 ht).1 htt' (Nat.ne_of_lt hlt)).2
  rcases (mem_exposedAt.1 hn).2 with ⟨htry, -⟩ | ⟨-, rfl⟩
  · exact hnot htry
  · rw [Ast.contains_iff] at ht'n
    omega

section Script

variable (h : a.IsScript) (hi : (ofAst a).owner? s = some i)

include h hi

/-- A node that the walk meets is owned, and no `try` statement stands around it. -/
lemma own_of_met (hj : Met a i j) (hne : j ≠ i) : j ∈ (ofAst a).ownNodes s ∧ a.triesAround j = [] := by
  obtain ⟨hij, hway⟩ := hj
  have hown : j ∈ (ofAst a).ownNodes s := by
    refine (mem_ownNodes_of_owner? h.isRooted hi).2 ⟨⟨hij, fun u hiu huj hne => ?_⟩, hne⟩
    exact (hway u hiu huj hne).1
  refine ⟨hown, List.eq_nil_iff_forall_not_mem.2 fun u hu => ?_⟩
  obtain ⟨hiu, huj, hne, htry⟩ := (mem_triesAround_of_own h hi hown).1 hu
  exact (hway u hiu huj hne).2 htry

/-- A node exposed in a clause is owned and not protected, and only the `try` statement of the clause
stands around it. -/
lemma own_of_mem_handlerNodes (hg : a.NoClauseIsTry) (ht : Met a i t) (hinside : t = i ∨ a.isFunction t = false)
    (htry : a.kind t = "try_statement") (hj : j ∈ handlerNodes a t) (hne : j ≠ i) :
    j ∈ (ofAst a).ownNodes s ∧ a.enclosingTry? j = none ∧ (a.triesAround j).length ≤ 1 := by
  obtain ⟨hit, hmet⟩ := ht
  obtain ⟨role, hrole, c, hc, hj⟩ := mem_handlerNodes.1 hj
  obtain ⟨⟨hcj, hway⟩, -⟩ := (mem_clauseNodes (Ast.child?_bounds hc).2).1 hj
  have hct := Ast.mem_children_of_child? hc
  have htj := Ast.contains_of_mem_children hct hcj
  -- Whatever stands between the scope and the node is above the `try` statement, or in its clause.
  have hbetween : ∀ {u}, a.contains i u = true → a.contains u j = true → u ≠ j →
      ((u = i ∨ a.isFunction u = false) ∧ (u = t ∨ a.kind u ≠ "try_statement")) := by
    intro u hiu huj hne
    rcases Ast.contains_child_or_parent hct hcj huj with hcu | hut
    · obtain ⟨hfree, hclause⟩ := hway u hcu huj hne
      refine ⟨.inr hfree, .inr ?_⟩
      rcases hclause with rfl | hclause
      · exact clause_ne_try hg htry hc hrole
      · exact hclause
    · by_cases heq : u = t
      · exact ⟨heq ▸ hinside, .inl heq⟩
      · obtain ⟨hfree, hnot⟩ := hmet u hiu hut heq
        exact ⟨hfree, .inr hnot⟩
  have hown : j ∈ (ofAst a).ownNodes s := by
    refine (mem_ownNodes_of_owner? h.isRooted hi).2 ⟨⟨Ast.contains_trans hit htj, ?_⟩, hne⟩
    intro u hiu huj hne
    exact (hbetween hiu huj hne).1
  have hsingle : ∀ u ∈ a.triesAround j, u = t := by
    intro u hu
    obtain ⟨hiu, huj, hne, hutry⟩ := (mem_triesAround_of_own h hi hown).1 hu
    exact (hbetween hiu huj hne).2.resolve_right fun hnot => hnot hutry
  refine ⟨hown, Ast.enclosingTry?_eq_none_iff.2 ?_, ?_⟩
  · intro u hu c' hc' hc'j
    cases hsingle u hu
    cases Ast.eq_of_contains hc' hct hc'j hcj
    rw [Ast.field?_of_child? hc]
    rintro ⟨⟩
    exact absurd hrole (by decide)
  · exact length_le_one_of_forall_eq ((Ast.pairwise_triesAround a j).imp Nat.ne_of_gt) hsingle

/-- An own node that no `try` surrounds is met. -/
lemma met_of_own (hown : j ∈ (ofAst a).ownNodes s) (hnone : a.triesAround j = []) : Met a i j := by
  obtain ⟨⟨hij, hway⟩, -⟩ := (mem_ownNodes_of_owner? h.isRooted hi).1 hown
  refine ⟨hij, fun u hiu huj hne => ⟨hway u hiu huj hne, fun htry => ?_⟩⟩
  have hu := (mem_triesAround_of_own h hi hown).2 ⟨hiu, huj, hne, htry⟩
  rw [hnone] at hu
  cases hu

/-- The walk meets the only `try` statement around an owned node, and finds the node in a clause unless it
is in the body. -/
lemma met_of_own_of_single (hg : a.TriesHoldClauses) (hown : j ∈ (ofAst a).ownNodes s)
    (hplain : a.isFunction j = false) (hnone : a.enclosingTry? j = none) (hsingle : a.triesAround j = [t]) :
    Met a i t ∧ (t = i ∨ a.isFunction t = false) ∧ a.kind t = "try_statement" ∧ j ∈ handlerNodes a t := by
  obtain ⟨⟨hij, hway⟩, -⟩ := (mem_ownNodes_of_owner? h.isRooted hi).1 hown
  have ht : t ∈ a.triesAround j := hsingle ▸ List.mem_singleton_self t
  have hother : ∀ {u}, a.contains i u = true → a.contains u j = true → u ≠ j →
      a.kind u = "try_statement" → u = t := by
    intro u hiu huj hne htry
    have hu := (mem_triesAround_of_own h hi hown).2 ⟨hiu, huj, hne, htry⟩
    rw [hsingle] at hu
    exact List.mem_singleton.1 hu
  obtain ⟨hit, htj, hne, htry⟩ := (mem_triesAround_of_own h hi hown).1 ht
  obtain ⟨c, hct, hcj⟩ := Ast.exists_child_of_contains htj (Ne.symm hne)
  have hbounds := Ast.mem_children hct
  refine ⟨⟨hit, fun u hiu hut hne' => ?_⟩, hway t hit htj hne, htry, ?_⟩
  · have huj := Ast.contains_trans hut htj
    have hne'' : u ≠ j := by
      rintro rfl
      exact hne (Nat.le_antisymm (Ast.contains_iff.1 htj).1 (Ast.contains_iff.1 hut).1)
    exact ⟨hway u hiu huj hne'', fun hutry => hne' (hother hiu huj hne'' hutry)⟩
  · rcases hg t (Ast.mem_ids.2 (Nat.lt_trans hbounds.1 hbounds.2)) htry c hct with hbody | ⟨⟨role, hrole, hc⟩, -⟩
    · exact absurd hbody (Ast.enclosingTry?_eq_none_iff.1 hnone t ht c hct hcj)
    · refine mem_handlerNodes.2 ⟨role, hrole, c, hc, (mem_clauseNodes hbounds.2).2 ⟨⟨hcj, ?_⟩, hplain⟩⟩
      intro u hcu huj hne'
      have hle := (Ast.contains_iff.1 hcu).1
      have hge := (Ast.contains_iff.1 hit).1
      have hiu := Ast.contains_trans hit (Ast.contains_of_mem_children hct hcu)
      refine ⟨(hway u hiu huj hne').resolve_left (by omega), .inr fun hutry => ?_⟩
      have heq := hother hiu huj hne' hutry
      omega

/-- A call that is exposed is owned and not protected, and at most one `try` statement stands around it. -/
lemma own_of_mem_exposedNodes (hg : a.NoClauseIsTry) (hcall : a.kind j = "call_expression")
    (hj : j ∈ (ofAst a).exposedNodes s) :
    j ∈ (ofAst a).ownNodes s ∧ a.enclosingTry? j = none ∧ (a.triesAround j).length ≤ 1 := by
  have hji : j ≠ i := by
    rintro rfl
    rcases (mem_owners h.isRooted).1 (mem_owners_of_owner? hi) with rfl | hfun
    · rw [h.kind_zero] at hcall
      exact absurd hcall (by decide)
    · rw [Ast.isFunction_of_call hcall] at hfun
      cases hfun
  obtain ⟨t, ht, hj⟩ := (mem_exposedNodes h.isRooted hi).1 hj
  obtain ⟨hinside, ⟨htry, hj⟩ | ⟨-, rfl⟩⟩ := mem_exposedAt.1 hj
  · exact own_of_mem_handlerNodes h hi hg ht hinside htry hj hji
  · obtain ⟨hown, hnone⟩ := own_of_met h hi ht hji
    refine ⟨hown, Ast.enclosingTry?_eq_none_iff.2 ?_, ?_⟩
    · rw [hnone]
      exact List.forall_mem_nil _
    · rw [hnone]
      exact Nat.zero_le 1

/-- A call is exposed if it is owned, no `try` statement protects it, and at most one stands around it. -/
lemma call_mem_exposedNodes (hg : a.TriesHoldClauses) (hcall : a.kind j = "call_expression") :
    j ∈ (ofAst a).exposedNodes s ↔
      j ∈ (ofAst a).ownNodes s ∧ a.enclosingTry? j = none ∧ (a.triesAround j).length ≤ 1 := by
  have hplain := Ast.isFunction_of_call hcall
  refine ⟨own_of_mem_exposedNodes h hi hg.noClauseIsTry hcall, ?_⟩
  rintro ⟨hown, hnone, hle⟩
  rw [mem_exposedNodes h.isRooted hi]
  cases hl : a.triesAround j with
  | nil =>
    refine ⟨j, met_of_own h hi hown hl, mem_exposedAt.2 ⟨.inr hplain, .inr ⟨?_, rfl⟩⟩⟩
    rw [hcall]
    decide
  | cons t outer =>
    rw [hl, List.length_cons, Nat.succ_le_succ_iff, Nat.le_zero, List.length_eq_zero_iff] at hle
    rw [hle] at hl
    obtain ⟨ht, hinside, htry, hj⟩ := met_of_own_of_single h hi hg hown hplain hnone hl
    exact ⟨t, ht, mem_exposedAt.2 ⟨hinside, .inl ⟨htry, hj⟩⟩⟩

omit h hi in
/-- An unprotected call is an exposed call expression with the callee's name. -/
lemma of_mem_unprotectedCalls {name : String} (hj : (j, name) ∈ (ofAst a).unprotectedCalls s) :
    j ∈ (ofAst a).exposedNodes s ∧ a.kind j = "call_expression" ∧ a.calleeName? j = some name := by
  rw [unprotectedCalls, List.mem_mergeSort, List.mem_filterMap, ofAst_ast] at hj
  obtain ⟨k, hk, heq⟩ := hj
  split at heq
  · next hcall =>
    obtain ⟨_, hname, ⟨⟩⟩ := Option.map_eq_some_iff.1 heq
    exact ⟨hk, hcall, hname⟩
  · cases heq

/-- The unprotected calls are the own calls in the body of no `try` and below at most one `try`. -/
lemma mem_unprotectedCalls (hg : a.TriesHoldClauses) {name : String} :
    (j, name) ∈ (ofAst a).unprotectedCalls s ↔ j ∈ (ofAst a).ownNodes s ∧ a.kind j = "call_expression" ∧
      a.calleeName? j = some name ∧ a.enclosingTry? j = none ∧ (a.triesAround j).length ≤ 1 := by
  constructor
  · intro hj
    obtain ⟨hexposed, hcall, hname⟩ := of_mem_unprotectedCalls hj
    obtain ⟨hown, hnone, hle⟩ := (call_mem_exposedNodes h hi hg hcall).1 hexposed
    exact ⟨hown, hcall, hname, hnone, hle⟩
  · rintro ⟨hown, hcall, hname, hnone, hle⟩
    rw [unprotectedCalls, List.mem_mergeSort, List.mem_filterMap, ofAst_ast]
    refine ⟨j, (call_mem_exposedNodes h hi hg hcall).2 ⟨hown, hnone, hle⟩, ?_⟩
    rw [if_pos hcall, hname]
    rfl

omit h in
/-- The unprotected calls are listed in document order. -/
lemma pairwise_unprotectedCalls (h : a.IsRooted) :
    (((ofAst a).unprotectedCalls s).map (·.1)).Pairwise (· < ·) := by
  have hperm := List.mergeSort_perm ((ofAst a).exposedNodes s |>.filterMap fun j =>
    if (ofAst a).ast.kind j = "call_expression" then ((ofAst a).ast.calleeName? j).map fun name => (j, name)
    else none) fun x y => decide (x.1 ≤ y.1)
  have hnodup : (((ofAst a).unprotectedCalls s).map (·.1)).Nodup := by
    refine (hperm.map _).nodup_iff.2 ?_
    rw [List.map_filterMap]
    refine List.Nodup.filterMap (fun j j' k hj hj' => ?_) (nodup_exposedNodes h hi)
    have hkeep : ∀ {j}, k ∈ Option.map Prod.fst (if (ofAst a).ast.kind j = "call_expression" then
        ((ofAst a).ast.calleeName? j).map fun name => (j, name) else none) → j = k := by
      intro j hj
      split at hj
      · rw [Option.map_map] at hj
        obtain ⟨_, -, heq⟩ := Option.map_eq_some_iff.1 hj
        exact heq
      · cases hj
    exact (hkeep hj).trans (hkeep hj').symm
  have hsorted : (((ofAst a).unprotectedCalls s).map (·.1)).Pairwise (· ≤ ·) := by
    rw [List.pairwise_map]
    refine (List.pairwise_mergeSort ?_ ?_ _).imp of_decide_eq_true
    · intro x y z hxy hyz
      exact decide_eq_true (Nat.le_trans (of_decide_eq_true hxy) (of_decide_eq_true hyz))
    · intro x y
      rw [Bool.or_eq_true, decide_eq_true_eq, decide_eq_true_eq]
      exact Nat.le_total _ _
  exact (hsorted.and hnodup).imp fun h => Nat.lt_of_le_of_ne h.1 h.2

end Script

/-- The calls that are listed for a scope are its unprotected ones around which at most one `try`
statement stands, in the order of the file. -/
theorem unprotectedCalls_spec (h : a.IsScript) (hg : a.TriesHoldClauses) (hs : s < (ofAst a).size) :
    (((ofAst a).unprotectedCalls s).map (·.1)).Pairwise (· < ·) ∧
      ∀ j name, (j, name) ∈ (ofAst a).unprotectedCalls s ↔ j ∈ (ofAst a).ownNodes s ∧
        a.kind j = "call_expression" ∧ a.calleeName? j = some name ∧ a.enclosingTry? j = none ∧
          (a.triesAround j).length ≤ 1 := by
  obtain ⟨i, hi⟩ := exists_owner? hs
  exact ⟨pairwise_unprotectedCalls hi h.isRooted, fun j name => mem_unprotectedCalls h hi hg⟩

/-- The statement `name();` of a one-letter name. -/
def callStatement (name : String) (start : Nat) : Forest Node :=
  .cons ⟨"expression_statement", none, "", start, start + 4, 1⟩
    (.cons ⟨"call_expression", none, "", start, start + 3, 1⟩
      (.cons ⟨"identifier", some "function", name, start, start + 1, 1⟩ .nil
        (.cons ⟨"arguments", some "arguments", "", start + 1, start + 3, 1⟩ .nil .nil)) .nil) .nil

/-- The statement `try { name(); } catch (error) { … }` of a one-letter name and error, up to `stop`. -/
def tryStatement (name error : String) (start stop : Nat) (handler : Forest Node) : Forest Node :=
  .cons ⟨"try_statement", none, "", start, stop, 1⟩
    (.cons ⟨"statement_block", some "body", "", start + 4, start + 12, 1⟩ (callStatement name (start + 6))
      (.cons ⟨"catch_clause", some "handler", "", start + 13, stop, 1⟩
        (.cons ⟨"identifier", some "parameter", error, start + 20, start + 21, 1⟩ .nil
          (.cons ⟨"statement_block", some "body", "", start + 23, stop, 1⟩ handler .nil)) .nil)) .nil

/-- A `try` inside the handler of another, with a call in its own handler. -/
def tryInCatch : Ast :=
  .ofForest "try { a(); } catch (e) { try { b(); } catch (f) { c(); } }" <|
    .cons ⟨"program", none, "", 0, 58, 1⟩
      (tryStatement "a" "e" 0 58 (tryStatement "b" "f" 25 56 (callStatement "c" 50))) .nil

/-- It is a whole script. -/
lemma isScript_tryInCatch : tryInCatch.IsScript := ⟨_, _, rfl, rfl⟩

/-- The call in the inner `catch` clause is not listed: it is the only one that no body protects. -/
theorem unprotectedCalls_spec_tryInCatch : tryInCatch.IsScript ∧ tryInCatch.TriesHoldClauses ∧
    (ofAst tryInCatch).unprotectedCalls 0 = [] := by
  have hg : tryInCatch.TriesHoldClauses := by decide +kernel
  have hs : 0 < (ofAst tryInCatch).size := by decide +kernel
  have hspec := (unprotectedCalls_spec isScript_tryInCatch hg hs).2
  refine ⟨isScript_tryInCatch, hg, List.eq_nil_iff_forall_not_mem.2 ?_⟩
  rintro ⟨j, name⟩ hj
  obtain ⟨hown, hcall, -, hnone, hle⟩ := (hspec j name).1 hj
  have hj : j < tryInCatch.size := ((mem_ownNodes isScript_tryInCatch.isRooted hs).1 hown).2.1
  -- Of the three calls two are in bodies, and two `try` statements stand around the third.
  have hall : ∀ j < tryInCatch.size, tryInCatch.kind j = "call_expression" →
      tryInCatch.enclosingTry? j ≠ none ∨ (tryInCatch.triesAround j).length = 2 := by decide +kernel
  rcases hall j hj hcall with hsome | htwo
  · exact hsome hnone
  · omega

/-- The list misses a call that the scope owns and no `try` statement protects. -/
theorem unprotected_call_missing : 20 ∈ (ofAst tryInCatch).ownNodes 0 ∧
    tryInCatch.kind 20 = "call_expression" ∧ tryInCatch.calleeName? 20 = some "c" ∧
    tryInCatch.enclosingTry? 20 = none ∧ (20, "c") ∉ (ofAst tryInCatch).unprotectedCalls 0 := by
  have hs : 0 < (ofAst tryInCatch).size := by decide +kernel
  have howner : (ofAst tryInCatch).owner? 0 = some 0 := owner?_zero isScript_tryInCatch.isRooted
  have hg : tryInCatch.TriesHoldClauses := by decide +kernel
  refine ⟨(mem_ownNodes isScript_tryInCatch.isRooted hs).2 ⟨by decide, by decide +kernel, by decide +kernel⟩,
    by decide +kernel, by decide +kernel, by decide +kernel, fun h => ?_⟩
  obtain ⟨-, -, -, -, hle⟩ := (mem_unprotectedCalls isScript_tryInCatch howner hg).1 h
  revert hle
  decide +kernel

end ScopeTree

end Mend
