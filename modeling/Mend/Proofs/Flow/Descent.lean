import Mathlib.Tactic.Lemma
import Mend.Proofs.Flow.Skeleton

/-!
# From a function down to its statements

What holds of the skeleton of a function and passes from each construct to what it is made of (`Passes`) holds
of every statement that is laid out (`Passes.laidOut`).
-/

namespace Mend

namespace Flow

/-- A property of statements and of the clauses of `switch` statements that passes from the outside to the
inside. A clause of a `try` statement that is missing has nothing inside. -/
structure Passes (P : Stmt → Prop) (Q : Clauses → Prop) : Prop where
  seq {first rest : Stmt} : P (.seq first rest) → P first ∧ P rest
  branch {node : Nat} {condition : Option Nat} {onTrue onFalse : Stmt} :
    P (.branch node condition onTrue onFalse) → P onTrue ∧ P onFalse
  whileLoop {node : Nat} {label : Option String} {condition : Option Nat} {body : Stmt} :
    P (.whileLoop node label condition body) → P body
  doLoop {node : Nat} {label : Option String} {condition : Option Nat} {body : Stmt} :
    P (.doLoop node label condition body) → P body
  forLoop {node : Nat} {label : Option String} {start condition step : Option Nat} {body : Stmt} :
    P (.forLoop node label start condition step body) → P body
  forEach {node : Nat} {label : Option String} {iterated : Option Nat} {body : Stmt} :
    P (.forEach node label iterated body) → P body
  switch {node : Nat} {selector : Option Nat} {clauses : Clauses} :
    P (.switch node selector clauses) → Q clauses
  tryCatch {node : Nat} {catchNode finallyNode : Option Nat} {body catchBody finallyBody : Stmt} :
    P (.tryCatch node body catchNode catchBody finallyNode finallyBody) →
      P body ∧ (catchNode.isSome = true → P catchBody) ∧ (finallyNode.isSome = true → P finallyBody)
  labelled {node : Nat} {label : Option String} {body : Stmt} : P (.labelled node label body) → P body
  onCase {value : Option Nat} {body : Stmt} {rest : Clauses} : Q (.onCase value body rest) → P body ∧ Q rest
  onDefault {body : Stmt} {rest : Clauses} : Q (.onDefault body rest) → P body ∧ Q rest
  gap {rest : Clauses} : Q (.gap rest) → Q rest

variable {P : Stmt → Prop} {Q : Clauses → Prop}

lemma Passes.of_mem_ofList (hP : Passes P Q) {l : List Stmt} {s : Stmt} (h : P (.ofList l)) (hs : s ∈ l) : P s := by
  induction l with
  | nil => cases hs
  | cons t l ih =>
    obtain ⟨ht, hl⟩ := hP.seq h
    rcases List.mem_cons.1 hs with rfl | hs
    · exact ht
    · exact ih hl hs

lemma Passes.drop (hP : Passes P Q) {l : List Stmt} (k : List Stmt) (h : P (.ofList (k ++ l))) : P (.ofList l) := by
  induction k with
  | nil => exact h
  | cons s k ih => exact ih (hP.seq h).2

end Flow

open Mend.Flow (Stmt Clauses Passes)

variable {P : Stmt → Prop} {Q : Clauses → Prop} {a : Syntax.Ast} {f i j : Nat} {label : Option String}

namespace Flow.Passes

open Syntax

lemma stmt? {part : Option Nat} (h : P (a.stmt? part label)) (hj : part = some j) : P (a.stmt j label) := by
  subst hj
  exact h

lemma clause (hP : Passes P Q) {l : List Nat} (h : Q (l.foldr a.addClause .nil)) {clause : Nat}
    (hclause : clause ∈ l) (hkind : a.isClause clause = true) : P (a.clauseStmt clause) := by
  induction l with
  | nil => cases hclause
  | cons other l ih =>
    rw [List.foldr_cons, Ast.addClause] at h
    rcases List.mem_cons.1 hclause with rfl | hclause
    · split at h
      · exact (hP.onCase h).1
      · exact (hP.onDefault h).1
      · next hcase hdefault =>
        simp only [Ast.isClause, Bool.or_eq_true, beq_iff_eq] at hkind
        exact (hkind.elim hcase hdefault).elim
    · split at h
      · exact ih (hP.onCase h).2 hclause
      · exact ih (hP.onDefault h).2 hclause
      · exact ih (hP.gap h) hclause

lemma clauseStmt (hP : Passes P Q) {clause : Nat} (h : P (a.clauseStmt clause)) (hj : j ∈ a.clauseParts clause) :
    P (a.stmt j none) := by
  obtain ⟨hj, hfield⟩ := List.mem_filter.1 hj
  have hmem := hP.of_mem_ofList h (List.mem_map_of_mem hj)
  rwa [if_neg (by simpa using hfield)] at hmem

/-- What holds of a statement holds of the statements inside it. -/
lemma of_mem_laidParts (hP : Passes P Q) (h : P (a.stmt i label)) (hj : j ∈ a.laidParts i) :
    ∃ label, P (a.stmt j label) := by
  unfold Ast.laidParts Ast.partsWith at hj
  rw [Ast.stmt_eq, Ast.assembled] at h
  split at h
  all_goals rename_i hk
  all_goals simp only [hk] at hj
  · exact ⟨none, hP.of_mem_ofList h (List.mem_map_of_mem hj)⟩
  · rcases List.mem_append.1 hj with hj | hj
    · exact ⟨none, stmt? (hP.branch h).1 (Option.mem_toList.1 hj)⟩
    · exact ⟨none, stmt? (hP.branch h).2 (Option.mem_toList.1 hj)⟩
  · exact ⟨none, stmt? (hP.whileLoop h) (Option.mem_toList.1 hj)⟩
  · exact ⟨none, stmt? (hP.doLoop h) (Option.mem_toList.1 hj)⟩
  · exact ⟨none, stmt? (hP.forLoop h) (Option.mem_toList.1 hj)⟩
  · exact ⟨none, stmt? (hP.forEach h) (Option.mem_toList.1 hj)⟩
  · obtain ⟨clause, hclause, hj⟩ := List.mem_flatMap.1 hj
    obtain ⟨hclause, hkind⟩ := List.mem_filter.1 hclause
    exact ⟨none, hP.clauseStmt (hP.clause (hP.switch h) hclause hkind) hj⟩
  · obtain ⟨hbody, hcatch, hfinally⟩ := hP.tryCatch h
    rw [List.mem_append, List.mem_append] at hj
    rcases hj with (hj | hj) | hj
    · exact ⟨none, stmt? hbody (Option.mem_toList.1 hj)⟩
    · have hj := Option.mem_toList.1 hj
      obtain ⟨clause, hclause, -⟩ := Option.bind_eq_some_iff.1 hj
      exact ⟨none, stmt? (hcatch (by rw [hclause]; rfl)) hj⟩
    · have hj := Option.mem_toList.1 hj
      obtain ⟨clause, hclause, -⟩ := Option.bind_eq_some_iff.1 hj
      exact ⟨none, stmt? (hfinally (by rw [hclause]; rfl)) hj⟩
  · split at h
    · exact ⟨_, stmt? h (Option.mem_toList.1 hj)⟩
    · exact ⟨none, stmt? (hP.labelled h) (Option.mem_toList.1 hj)⟩
  all_goals cases hj

end Flow.Passes

namespace Syntax.Ast

lemma skeleton_of_mem_entryParts (h : i ∈ a.entryParts f) :
    i ∈ a.children f ∧ ((a.isFunction f = true ∧ a.skeleton f = a.stmt i none) ∨
      a.skeleton f = .ofList ((a.children f).map (a.stmt · none))) := by
  unfold entryParts at h
  unfold skeleton
  cases hf : a.isFunction f with
  | true =>
    rw [hf, if_pos rfl, Option.mem_toList, Option.filter_eq_some_iff] at h
    simp only [if_true, h.1, beq_iff_eq.1 h.2]
    exact ⟨mem_children_of_child? h.1, .inl ⟨trivial, trivial⟩⟩
  | false =>
    rw [hf] at h
    exact ⟨h, .inr rfl⟩

end Syntax.Ast

/-- What holds of the skeleton of a function holds of every statement that is laid out. -/
lemma Flow.Passes.laidOut (hP : Passes P Q) (hf : P (a.skeleton f)) (h : a.LaidOut f i) :
    ∃ label, P (a.stmt i label) := by
  induction h with
  | entry h =>
    obtain ⟨hi, ⟨-, heq⟩ | heq⟩ := Syntax.Ast.skeleton_of_mem_entryParts h
    · exact ⟨none, heq ▸ hf⟩
    · rw [heq] at hf
      exact ⟨none, hP.of_mem_ofList hf (List.mem_map_of_mem hi)⟩
  | part _ hj ih =>
    obtain ⟨label, hlabel⟩ := ih
    exact hP.of_mem_laidParts hlabel hj

end Mend
