import Mathlib.Data.List.Nodup
import Mathlib.Data.List.Pairwise
import Mathlib.Data.List.Perm.Basic
import Mathlib.Tactic.SplitIfs
import Mend.Flow.Graph
import Mend.Flow.Stmt
import Mend.Proofs.Syntax.Grammar
import Mend.Proofs.Syntax.Nesting

/-!
# Skeletons follow the tree

The skeleton of a statement is put together from the skeletons of the statements directly inside it
(`stmt_eq`). What a statement is represented by in a flow graph are its own roles and those of the statements
inside (`census_stmt`). The statements inside a statement stand apart from each other and from what the
statement itself stands for, so that no role occurs twice (`nodup_census`) and a role can be traced back to
the statement it belongs to (`mem_census_of_contains`, `mem_roles_of_mem_census`).

What stands in an `else` clause is read off the tree in two ways. The statement there is what is no comment
(`parts`), and the skeleton takes whatever comes first (`laidParts`). So control comes to statements
(`Reached`) that the skeleton does not have (`LaidOut`): those behind a comment that opens an `else` clause
(`BehindComment`).
-/

namespace Mend

namespace Flow

/-- A part that a flow node plays for a syntax node. -/
abbrev Role := NodeKind × Nat

mutual

/-- The roles that the nodes of a statement laid out play. -/
def Stmt.census : Stmt → List Role
  | .skip => []
  | .seq first rest => first.census ++ rest.census
  | .plain node | .ret node | .throw node | .jump node _ _ => [(.block, node)]
  | .branch node _ onTrue onFalse => (.branch, node) :: (onTrue.census ++ onFalse.census)
  | .whileLoop node _ _ body => (.branch, node) :: body.census
  | .doLoop node _ condition body =>
    (.loopHead, node) :: (body.census ++ [(.branch, condition.getD node)])
  | .forLoop node _ start condition step body =>
    start.toList.map (.block, ·) ++
      (if condition.isSome then .branch else .loopHead, node) ::
        (body.census ++ step.toList.map (.block, ·))
  | .forEach node _ _ body => (.branch, node) :: body.census
  | .switch node _ clauses => (.branch, node) :: clauses.census
  | .tryCatch _ body catchNode catchBody finallyNode finallyBody =>
    catchNode.toList.map (.handler, ·) ++ finallyNode.toList.map (.handler, ·) ++
      (body.census ++ catchNode.elim [] (fun _ => catchBody.census) ++
        finallyNode.elim [] (fun _ => finallyBody.census))
  | .labelled _ _ body => body.census

/-- The roles that the nodes of the clauses laid out play. -/
def Clauses.census : Clauses → List Role
  | .nil => []
  | .onCase _ body rest | .onDefault body rest => body.census ++ rest.census
  | .gap rest => rest.census

end

/-- What holds of everything in the body of a clause, if the clause is there. -/
lemma forall_mem_elim {α : Type} {P : α → Prop} {l : List α} (h : ∀ x ∈ l, P x) (clause : Option Nat) :
    ∀ x ∈ clause.elim [] (fun _ => l), P x := by
  cases clause with
  | none => nofun
  | some _ => exact h

/-- The census of a list of statements is that of each. -/
@[simp] lemma Stmt.census_ofList (l : List Stmt) : (Stmt.ofList l).census = l.flatMap Stmt.census := by
  induction l with
  | nil => rfl
  | cons s l ih => rw [ofList, census, ih, List.flatMap_cons]

end Flow

open Mend.Flow (Stmt Clauses Role)

namespace Syntax.Ast

/-- The clauses of a `switch` statement. -/
def isClause (a : Ast) (i : Nat) : Bool := a.kind i == "switch_case" || a.kind i == "switch_default"

/-- The statements in a clause of a `switch` statement. -/
def clauseParts (a : Ast) (clause : Nat) : List Nat :=
  (a.children clause).filter fun c => a.field? c != some "value"

/-- The statement in the `else` clause of an `if` statement: what stands there and is no comment. -/
def elseBranch? (a : Ast) (i : Nat) : Option Nat :=
  (a.child? i "alternative").bind fun clause => (a.children clause).find? fun c => !extraKinds.contains (a.kind c)

/-- The statements directly inside a statement that its control flow is made of, with `otherwise` for the
statement in the `else` clause. -/
def partsWith (a : Ast) (otherwise : Option Nat) (i : Nat) : List Nat :=
  match a.kind i with
  | "statement_block" => a.children i
  | "if_statement" => (a.child? i "consequence").toList ++ otherwise.toList
  | "while_statement" | "do_statement" | "for_statement" | "for_in_statement" | "labeled_statement" =>
    (a.child? i "body").toList
  | "switch_statement" =>
    (((a.child? i "body").elim [] a.children).filter a.isClause).flatMap a.clauseParts
  | "try_statement" =>
    (a.child? i "body").toList ++ ((a.child? i "handler").bind (a.child? · "body")).toList ++
      ((a.child? i "finalizer").bind (a.child? · "body")).toList
  | _ => []

/-- The statements directly inside a statement. -/
def parts (a : Ast) (i : Nat) : List Nat := a.partsWith (a.elseBranch? i) i

/-- The statements that the skeleton of a statement has directly inside it. For the `else` branch it takes what
comes first in the clause. -/
def laidParts (a : Ast) (i : Nat) : List Nat :=
  a.partsWith ((a.child? i "alternative").bind a.firstChild?) i

/-- What stands for a statement in a flow graph, statements inside it apart. A block, a `try` statement and a
labelled statement have nothing of their own; the clauses of a `try` statement have a handler each. -/
def roles (a : Ast) (i : Nat) : List Role :=
  match a.kind i with
  | "statement_block" | "labeled_statement" => []
  | "if_statement" | "while_statement" | "for_in_statement" | "switch_statement" => [(.branch, i)]
  | "do_statement" => [(.loopHead, i), (.branch, (a.condition? i).getD i)]
  | "for_statement" =>
    (a.loopStart? i).toList.map (.block, ·) ++
      (if (a.condition? i).isSome then .branch else .loopHead, i) ::
        (a.child? i "increment").toList.map (.block, ·)
  | "try_statement" =>
    (a.child? i "handler").toList.map (.handler, ·) ++ (a.child? i "finalizer").toList.map (.handler, ·)
  | _ => [(.block, i)]

/-- The skeleton of a part that may be missing. -/
def stmt? (a : Ast) (part : Option Nat) (label : Option String) : Stmt :=
  part.elim .skip fun i => a.stmt i label

/-- The skeleton of the statements in a clause. -/
def clauseStmt (a : Ast) (clause : Nat) : Stmt :=
  .ofList ((a.children clause).map fun c => if a.field? c == some "value" then .skip else a.stmt c none)

/-- The skeleton of a clause in front of further clauses. -/
def addClause (a : Ast) (clause : Nat) (rest : Clauses) : Clauses :=
  match a.kind clause with
  | "switch_case" => .onCase (a.child? clause "value") (a.clauseStmt clause) rest
  | "switch_default" => .onDefault (a.clauseStmt clause) rest
  | _ => .gap rest

variable {a : Ast} {i j k c : Nat} {label : Option String}

/-- The skeleton of a statement, put together from the skeletons of the statements inside it. -/
def assembled (a : Ast) (i : Nat) (label : Option String) : Stmt :=
  match a.kind i with
  | "statement_block" => .ofList ((a.children i).map (a.stmt · none))
  | "if_statement" =>
    .branch i (a.condition? i) (a.stmt? (a.child? i "consequence") none)
      (a.stmt? ((a.child? i "alternative").bind a.firstChild?) none)
  | "while_statement" =>
    .whileLoop i label (a.condition? i) (a.stmt? (a.child? i "body") none)
  | "do_statement" => .doLoop i label (a.condition? i) (a.stmt? (a.child? i "body") none)
  | "for_statement" =>
    .forLoop i label (a.loopStart? i) (a.condition? i) (a.child? i "increment")
      (a.stmt? (a.child? i "body") none)
  | "for_in_statement" =>
    .forEach i label ((a.child? i "right").map a.unparen) (a.stmt? (a.child? i "body") none)
  | "switch_statement" =>
    .switch i ((a.child? i "value").map a.unparen)
      (((a.child? i "body").elim [] a.children).foldr a.addClause .nil)
  | "try_statement" =>
    .tryCatch i (a.stmt? (a.child? i "body") none)
      (a.child? i "handler") (a.stmt? ((a.child? i "handler").bind (a.child? · "body")) none)
      (a.child? i "finalizer")
      (a.stmt? ((a.child? i "finalizer").bind (a.child? · "body")) none)
  | "labeled_statement" =>
    if ((a.child? i "body").map a.kind).any loopKinds.contains then
      a.stmt? (a.child? i "body") (a.labelText? i)
    else .labelled i (a.labelText? i) (a.stmt? (a.child? i "body") none)
  | "return_statement" => .ret i
  | "throw_statement" => .throw i
  | "break_statement" => .jump i false (a.labelText? i)
  | "continue_statement" => .jump i true (a.labelText? i)
  | _ => .plain i

/-- A statement is put together from its parts. -/
lemma stmt_eq (a : Ast) (i : Nat) (label : Option String) : a.stmt i label = a.assembled i label := by
  have hclause : ∀ clause, (a.children clause).attach.map
      (fun c => if a.field? c.1 == some "value" then Stmt.skip else a.stmt c.1 none) =
      (a.children clause).map fun c => if a.field? c == some "value" then .skip else a.stmt c none :=
    fun clause => List.attach_map_val (l := a.children clause)
      (f := fun c => if a.field? c == some "value" then Stmt.skip else a.stmt c none)
  rw [stmt]
  split
  case h_14 => simp only [assembled]
  all_goals rename_i hk
  all_goals simp only [assembled, hk]
  · rw [List.attach_map_val (f := (a.stmt · none))]
  · congr 1
    · cases a.child? i "consequence" <;> rfl
    · cases a.child? i "alternative" with
      | none => rfl
      | some clause =>
        dsimp only [Option.bind_some]
        cases a.firstChild? clause <;> rfl
  · cases a.child? i "body" <;> rfl
  · cases a.child? i "body" <;> rfl
  · cases a.child? i "body" <;> rfl
  · cases a.child? i "body" <;> rfl
  · congr 1
    cases a.child? i "body" with
    | none => rfl
    | some body =>
      dsimp only [Option.elim_some]
      simp only [hclause]
      exact List.foldr_attach (f := a.addClause) (b := .nil)
  · congr 1
    · cases a.child? i "body" <;> rfl
    · cases a.child? i "handler" with
      | none => rfl
      | some clause =>
        dsimp only [Option.bind_some]
        cases a.child? clause "body" <;> rfl
    · cases a.child? i "finalizer" with
      | none => rfl
      | some clause =>
        dsimp only [Option.bind_some]
        cases a.child? clause "body" <;> rfl
  · cases a.child? i "body" <;> rfl

/-! What holds of the parts of a statement. -/

section

variable {P : Stmt → Prop} {Q : Clauses → Prop}

/-- What holds of a missing statement and of the one that is there. -/
lemma stmt?_of (hskip : P .skip) {part : Option Nat} (h : ∀ j, part = some j → P (a.stmt j label)) :
    P (a.stmt? part label) := by
  cases part with
  | none => exact hskip
  | some j => exact h j rfl

/-- What holds of the statements of a clause and of lists of them holds of a clause. -/
lemma clauseStmt_of (hlist : ∀ l : List Stmt, (∀ s ∈ l, P s) → P (.ofList l)) (hskip : P .skip)
    (h : ∀ j ∈ a.clauseParts c, P (a.stmt j none)) : P (a.clauseStmt c) := by
  apply hlist
  intro s hs
  obtain ⟨j, hj, rfl⟩ := List.mem_map.1 hs
  split
  · exact hskip
  · next hf => exact h j (List.mem_filter.2 ⟨hj, by simpa using hf⟩)

/-- What holds of no clauses and survives each of them holds of the clauses of a switch. -/
lemma clauses_of (hnil : Q .nil) (hcase : ∀ value body rest, P body → Q rest → Q (.onCase value body rest))
    (hdefault : ∀ body rest, P body → Q rest → Q (.onDefault body rest)) {l : List Nat}
    (hgap : ∀ clause ∈ l, a.isClause clause = false → ∀ rest, Q rest → Q (.gap rest))
    (h : ∀ clause ∈ l, a.isClause clause = true → P (a.clauseStmt clause)) : Q (l.foldr a.addClause .nil) := by
  induction l with
  | nil => exact hnil
  | cons clause l ih =>
    have hrest := ih (fun other ho => hgap other (List.mem_cons_of_mem _ ho))
      fun other ho => h other (List.mem_cons_of_mem _ ho)
    have hclause := h clause List.mem_cons_self
    rw [List.foldr_cons, addClause]
    split
    · next hk => exact hcase _ _ _ (hclause (by simp [isClause, hk])) hrest
    · next hk => exact hdefault _ _ (hclause (by simp [isClause, hk])) hrest
    · next hno hno' => exact hgap clause List.mem_cons_self (by simpa [isClause] using ⟨hno, hno'⟩) _ hrest

end

/-! The census of a statement. -/

/-- The label in front of a statement does not show in its census. -/
lemma census_label (a : Ast) (i : Nat) (l l' : Option String) :
    (a.stmt i l).census = (a.stmt i l').census := by
  rw [stmt_eq, stmt_eq, assembled, assembled]
  split <;> rfl

/-- The census of a part is that of the statement that is there. -/
lemma census_stmt? (a : Ast) (part : Option Nat) (label : Option String) :
    (a.stmt? part label).census = part.toList.flatMap fun j => (a.stmt j none).census := by
  cases part with
  | none => rfl
  | some j => simpa [stmt?] using census_label a j label none

/-- The census of a clause is that of its statements. -/
lemma census_clauseStmt (a : Ast) (clause : Nat) :
    (a.clauseStmt clause).census = (a.clauseParts clause).flatMap fun j => (a.stmt j none).census := by
  rw [clauseStmt, Stmt.census_ofList, clauseParts]
  induction a.children clause with
  | nil => rfl
  | cons c l ih =>
    rw [List.map_cons, List.flatMap_cons, ih, List.filter_cons]
    by_cases h : a.field? c = some "value"
    · simp [h, Stmt.census]
    · simp [h]

/-- The census of the clauses of a switch is that of their statements. -/
lemma census_clauses (a : Ast) (l : List Nat) :
    (l.foldr a.addClause .nil).census =
      ((l.filter a.isClause).flatMap a.clauseParts).flatMap fun j => (a.stmt j none).census := by
  induction l with
  | nil => rfl
  | cons clause l ih =>
    rw [List.foldr_cons, addClause, List.filter_cons, isClause]
    split
    · next h => simp [h, Clauses.census, census_clauseStmt, ih]
    · next h => simp [h, Clauses.census, census_clauseStmt, ih]
    · next h h' =>
      rw [if_neg (by simpa using ⟨h, h'⟩), Clauses.census, ih]

/-- What stands for a statement in a graph are its own roles and those of the statements inside it. -/
lemma census_stmt (a : Ast) (i : Nat) (label : Option String) :
    (a.stmt i label).census.Perm
      (a.roles i ++ (a.laidParts i).flatMap fun j => (a.stmt j none).census) := by
  rw [stmt_eq, assembled, roles, laidParts, partsWith]
  split
  all_goals rename_i hk
  all_goals simp only [hk]
  · simp [List.flatMap_map]
  · simp [Stmt.census, census_stmt?]
  · simp [Stmt.census, census_stmt?]
  · rw [Stmt.census, census_stmt?]
    exact .cons _ List.perm_append_comm
  · rw [Stmt.census, census_stmt?, List.append_assoc, List.cons_append]
    exact (List.perm_append_comm.cons _).append_left _
  · simp [Stmt.census, census_stmt?]
  · simp [Stmt.census, census_clauses]
  · have hclause : ∀ clause : Option Nat,
        (clause.elim [] fun _ => (a.stmt? (clause.bind (a.child? · "body")) none).census) =
          (clause.bind (a.child? · "body")).toList.flatMap fun j => (a.stmt j none).census := by
      intro clause
      cases clause with
      | none => rfl
      | some clause => exact census_stmt? a _ none
    rw [Stmt.census, hclause, hclause, census_stmt?, List.flatMap_append, List.flatMap_append]
  · split_ifs
    all_goals simp [Stmt.census, census_stmt?]
  all_goals simp [Stmt.census]

/-! Statements inside a statement stand apart. -/

/-- A statement inside a statement is a child of it or stands inside one, if the `else` branch does. -/
lemma exists_child_of_mem_partsWith {otherwise : Option Nat}
    (hotherwise : ∀ e, otherwise = some e → ∃ c ∈ a.children i, a.contains c e = true)
    (h : j ∈ a.partsWith otherwise i) : ∃ c ∈ a.children i, a.contains c j = true := by
  have hchild : ∀ field c, a.child? i field = some c → a.contains c j = true →
      ∃ c ∈ a.children i, a.contains c j = true := fun field c hc hj =>
    ⟨c, mem_children_of_child? hc, hj⟩
  have hself : ∀ field, a.child? i field = some j → ∃ c ∈ a.children i, a.contains c j = true :=
    fun field hj => hchild field j hj (contains_self a j)
  unfold partsWith at h
  split at h
  · exact ⟨j, h, contains_self a j⟩
  · simp only [List.mem_append, Option.mem_toList] at h
    rcases h with hj | hj
    · exact hself _ hj
    · exact hotherwise j hj
  · exact hself _ (Option.mem_toList.1 h)
  · exact hself _ (Option.mem_toList.1 h)
  · exact hself _ (Option.mem_toList.1 h)
  · exact hself _ (Option.mem_toList.1 h)
  · exact hself _ (Option.mem_toList.1 h)
  · cases hb : a.child? i "body" with
    | none => simp [hb] at h
    | some body =>
      rw [hb, Option.elim_some, List.mem_flatMap] at h
      obtain ⟨clause, hclause, hj⟩ := h
      exact hchild _ body hb (contains_of_mem_children (List.mem_filter.1 hclause).1
        (contains_child (List.mem_filter.1 hj).1))
  · simp only [List.mem_append, Option.mem_toList, Option.bind_eq_some_iff] at h
    rcases h with (hj | ⟨c, hc, hj⟩) | ⟨c, hc, hj⟩
    · exact hself _ hj
    · exact hchild _ c hc (contains_of_child? hj (contains_self a j))
    · exact hchild _ c hc (contains_of_child? hj (contains_self a j))
  · cases h

/-- What is laid out stands below some child. -/
lemma exists_child_of_mem_laidParts (h : j ∈ a.laidParts i) : ∃ c ∈ a.children i, a.contains c j = true :=
  exists_child_of_mem_partsWith (fun e he => by
    obtain ⟨c, hc, he⟩ := Option.bind_eq_some_iff.1 he
    exact ⟨c, mem_children_of_child? hc, contains_of_firstChild? he (contains_self a e)⟩) h

/-- The `else` branch is a child of the `else` clause and no comment. -/
lemma elseBranch?_eq_some (h : a.elseBranch? i = some j) : ∃ clause, a.child? i "alternative" = some clause ∧
    j ∈ a.children clause ∧ extraKinds.contains (a.kind j) = false := by
  obtain ⟨clause, hclause, hj⟩ := Option.bind_eq_some_iff.1 h
  exact ⟨clause, hclause, List.mem_of_find?_eq_some hj, by simpa using List.find?_some hj⟩

/-- A part of a statement stands below some child. -/
lemma exists_child_of_mem_parts (h : j ∈ a.parts i) : ∃ c ∈ a.children i, a.contains c j = true :=
  exists_child_of_mem_partsWith (fun e he => by
    obtain ⟨c, hc, he, -⟩ := elseBranch?_eq_some he
    exact ⟨c, mem_children_of_child? hc, contains_child he⟩) h

/-- So it stands inside the statement. -/
lemma contains_of_mem_parts (h : j ∈ a.parts i) : a.contains i j = true := by
  obtain ⟨c, hc, hj⟩ := exists_child_of_mem_parts h
  exact contains_of_mem_children hc hj

/-- So does what is laid out. -/
lemma contains_of_mem_laidParts (h : j ∈ a.laidParts i) : a.contains i j = true := by
  obtain ⟨c, hc, hj⟩ := exists_child_of_mem_laidParts h
  exact contains_of_mem_children hc hj

/-- A part comes behind its statement. -/
lemma lt_of_mem_parts (h : j ∈ a.parts i) : i < j := by
  obtain ⟨c, hc, hj⟩ := exists_child_of_mem_parts h
  exact Nat.lt_of_lt_of_le (mem_children hc).1 (contains_iff.1 hj).1

/-- So does what is laid out. -/
lemma lt_of_mem_laidParts (h : j ∈ a.laidParts i) : i < j := by
  obtain ⟨c, hc, hj⟩ := exists_child_of_mem_laidParts h
  exact Nat.lt_of_lt_of_le (mem_children hc).1 (contains_iff.1 hj).1

/-- What is laid out is a node. -/
lemma lt_size_of_mem_laidParts (h : j ∈ a.laidParts i) : j < a.size := by
  obtain ⟨c, hc, hj⟩ := exists_child_of_mem_laidParts h
  exact Nat.lt_of_le_of_lt (contains_iff.1 hj).2 (last_lt_size (mem_children hc).2)

/-- The children of a node stand apart. -/
lemma pairwise_apart_children (a : Ast) (i : Nat) : (a.children i).Pairwise a.Apart :=
  (pairwise_children a i).imp_of_mem fun hc hc' hlt => apart_of_lt hc hc' hlt

/-- What follows from statements about the two members of a list of options holds of the list of those
that are there. -/
lemma pairwise_toList_append {R : Nat → Nat → Prop} {l : List Nat} {o : Option Nat}
    (hl : l.Pairwise R) (h : ∀ x ∈ l, ∀ y, o = some y → R x y) : (l ++ o.toList).Pairwise R := by
  rw [List.pairwise_append]
  refine ⟨hl, ?_, fun x hx y hy => h x hx y (Option.mem_toList.1 hy)⟩
  cases o <;> simp

/-- The statements inside a statement have no node in common. -/
lemma pairwise_apart_laidParts (a : Ast) (i : Nat) : (a.laidParts i).Pairwise a.Apart := by
  unfold laidParts partsWith
  split
  · exact pairwise_apart_children a i
  · apply pairwise_toList_append (by cases a.child? i "consequence" <;> simp)
    intro x hx y hy
    obtain ⟨c, hc, hy⟩ := Option.bind_eq_some_iff.1 hy
    exact (apart_of_child? (Option.mem_toList.1 hx) hc (by decide)).mono (contains_self a x)
      (contains_of_firstChild? hy (contains_self a y))
  iterate 5 cases a.child? i "body" <;> simp
  · cases a.child? i "body" with
    | none => simp
    | some body =>
      rw [Option.elim_some, List.pairwise_flatMap]
      constructor
      · intro clause _
        exact (pairwise_apart_children a clause).filter _
      · refine ((pairwise_apart_children a body).filter _).imp fun hapart x hx y hy => ?_
        exact hapart.mono (contains_child (List.mem_filter.1 hx).1)
          (contains_child (List.mem_filter.1 hy).1)
  · have hclause : ∀ field, field ≠ "body" → ∀ x y, a.child? i "body" = some x →
        (a.child? i field).bind (a.child? · "body") = some y → a.Apart x y := by
      intro field hne x y hx hy
      obtain ⟨c, hc, hy⟩ := Option.bind_eq_some_iff.1 hy
      exact (apart_of_child? hx hc hne.symm).mono (contains_self a x)
        (contains_of_child? hy (contains_self a y))
    apply pairwise_toList_append
    · apply pairwise_toList_append (by cases a.child? i "body" <;> simp)
      exact fun x hx y hy => hclause "handler" (by decide) x y (Option.mem_toList.1 hx) hy
    · intro x hx y hy
      rcases List.mem_append.1 hx with hx | hx
      · exact hclause "finalizer" (by decide) x y (Option.mem_toList.1 hx) hy
      · obtain ⟨c, hc, hx⟩ := Option.bind_eq_some_iff.1 (Option.mem_toList.1 hx)
        obtain ⟨c', hc', hy⟩ := Option.bind_eq_some_iff.1 hy
        exact (apart_of_child? hc hc' (by decide)).mono (contains_of_child? hx (contains_self a x))
          (contains_of_child? hy (contains_self a y))
  · exact .nil

/-- A condition is read inside the child in that role. -/
lemma condition?_eq_some (h : a.condition? i = some c) :
    ∃ d, a.child? i "condition" = some d ∧ a.contains d c = true := by
  unfold condition? at h
  obtain ⟨d, hd, h⟩ := Option.bind_eq_some_iff.1 h
  refine ⟨d, hd, ?_⟩
  split at h
  · obtain ⟨e, he, rfl⟩ := Option.map_eq_some_iff.1 h
    exact contains_of_firstChild? he (contains_unparen (contains_self a _))
  · cases h
  · cases h
    exact contains_unparen (contains_self a _)

/-- The start of a loop is the child in that role. -/
lemma child?_of_loopStart? (h : a.loopStart? i = some c) : a.child? i "initializer" = some c :=
  (Option.filter_eq_some_iff.1 h).1

/-- A role belongs to the statement itself, or to a child of it that is no statement. -/
lemma roles_cases {p : Role} (h : p ∈ a.roles i) :
    p.2 = i ∨
      (∃ field c, field ≠ "body" ∧ a.child? i field = some c ∧ a.contains c p.2 = true ∧
        a.laidParts i = (a.child? i "body").toList) ∨
      (a.kind i = "try_statement" ∧
        ∃ field, (field = "handler" ∨ field = "finalizer") ∧ a.child? i field = some p.2) := by
  unfold roles at h
  split at h
  all_goals rename_i hk
  · cases h
  · cases h
  · exact .inl (by rw [List.mem_singleton.1 h])
  · exact .inl (by rw [List.mem_singleton.1 h])
  · exact .inl (by rw [List.mem_singleton.1 h])
  · exact .inl (by rw [List.mem_singleton.1 h])
  · simp only [List.mem_cons, List.not_mem_nil, or_false] at h
    rcases h with rfl | rfl
    · exact .inl rfl
    · cases hc : a.condition? i with
      | none => exact .inl rfl
      | some c =>
        obtain ⟨d, hd, hcontains⟩ := condition?_eq_some hc
        exact .inr (.inl ⟨_, d, by decide, hd, hcontains, by simp only [laidParts, partsWith, hk]⟩)
  · have hparts : a.laidParts i = (a.child? i "body").toList := by simp only [laidParts, partsWith, hk]
    simp only [List.mem_append, List.mem_cons, List.mem_map, Option.mem_toList] at h
    rcases h with ⟨c, hc, rfl⟩ | rfl | ⟨c, hc, rfl⟩
    · exact .inr (.inl ⟨_, c, by decide, child?_of_loopStart? hc, contains_self a c, hparts⟩)
    · exact .inl rfl
    · exact .inr (.inl ⟨_, c, by decide, hc, contains_self a c, hparts⟩)
  · simp only [List.mem_append, List.mem_map, Option.mem_toList] at h
    rcases h with ⟨c, hc, rfl⟩ | ⟨c, hc, rfl⟩
    · exact .inr (.inr ⟨hk, _, .inl rfl, hc⟩)
    · exact .inr (.inr ⟨hk, _, .inr rfl, hc⟩)
  · exact .inl (by rw [List.mem_singleton.1 h])

/-- The roles of a statement belong to nodes inside it. -/
lemma contains_of_mem_roles {p : Role} (h : p ∈ a.roles i) : a.contains i p.2 = true := by
  rcases roles_cases h with h | ⟨field, c, -, hc, hp, -⟩ | ⟨-, field, -, hc⟩
  · rw [h]
    exact contains_self a i
  · exact contains_of_child? hc hp
  · exact contains_of_child? hc (contains_self a p.2)

/-- The roles of a statement belong to no statement inside it. -/
lemma not_contains_of_mem_roles {p : Role} (h : p ∈ a.roles i) (hj : j ∈ a.laidParts i) :
    a.contains j p.2 = false := by
  rw [Bool.eq_false_iff]
  intro hp
  rcases roles_cases h with h | ⟨field, c, hne, hc, hcp, hparts⟩ | ⟨hk, field, hfield, hc⟩
  · have := lt_of_mem_laidParts hj
    rw [h, contains_iff] at hp
    omega
  · rw [hparts, Option.mem_toList] at hj
    exact apart_of_child? hc hj hne p.2 hcp hp
  · have hclause : ∀ other, other ≠ "body" → (a.child? i other).bind (a.child? · "body") = some j →
        False := by
      intro other _ hj
      obtain ⟨c, hc', hj⟩ := Option.bind_eq_some_iff.1 hj
      by_cases hother : field = other
      · subst hother
        cases hc.symm.trans hc'
        have := child?_bounds hj
        rw [contains_iff] at hp
        omega
      · exact apart_of_child? hc hc' hother p.2 (contains_self a p.2)
          (contains_of_child? hj hp)
    simp only [laidParts, partsWith, hk, List.mem_append, Option.mem_toList] at hj
    rcases hj with (hj | hj) | hj
    · refine apart_of_child? hc hj ?_ p.2 (contains_self a p.2) hp
      rcases hfield with rfl | rfl <;> decide
    · exact hclause "handler" (by decide) hj
    · exact hclause "finalizer" (by decide) hj

/-- They are different. -/
lemma nodup_roles (a : Ast) (i : Nat) : (a.roles i).Nodup := by
  have hne : ∀ f f' c c', f ≠ f' → a.child? i f = some c → a.child? i f' = some c' → c ≠ c' := by
    intro f f' c c' hf hc hc' heq
    subst heq
    exact apart_of_child? hc hc' hf c (contains_self a c) (contains_self a c)
  unfold roles
  split
  iterate 7 simp
  · have hhead : ∀ n, (Flow.NodeKind.block, n) ≠
        (if (a.condition? i).isSome then Flow.NodeKind.branch else .loopHead, i) := by
      intro n heq
      split at heq <;> cases heq
    cases hs : a.loopStart? i with
    | none => cases hstep : a.child? i "increment" <;> simp [(hhead _).symm]
    | some s =>
      cases hstep : a.child? i "increment" with
      | none => simp [hhead]
      | some t =>
        have := hne _ _ _ _ (by decide) (child?_of_loopStart? hs) hstep
        simp [hhead, (hhead _).symm, this]
  · cases hc : a.child? i "handler" with
    | none => cases a.child? i "finalizer" <;> simp
    | some c =>
      cases hf : a.child? i "finalizer" with
      | none => simp
      | some f => simpa using hne _ _ _ _ (by decide) hc hf
  · simp

/-! Roles and the statements they belong to. -/

/-- A property that passes from the statements inside a statement to it holds of all. -/
theorem laidParts_induction {P : Nat → Prop} (h : ∀ i, (∀ j ∈ a.laidParts i, P j) → P i) (i : Nat) : P i :=
  h i fun j hj =>
    have := lt_of_mem_laidParts hj
    have := lt_size_of_mem_laidParts hj
    laidParts_induction h j
termination_by a.size - i

/-- The census of a statement lists its own roles and those of what is laid out below it. -/
lemma mem_census_stmt {p : Role} :
    p ∈ (a.stmt i label).census ↔ p ∈ a.roles i ∨ ∃ j ∈ a.laidParts i, p ∈ (a.stmt j none).census := by
  rw [(census_stmt a i label).mem_iff, List.mem_append, List.mem_flatMap]

/-- It belongs to nodes inside the statement. -/
lemma contains_of_mem_census {p : Role} (h : p ∈ (a.stmt i label).census) :
    a.contains i p.2 = true := by
  induction i using laidParts_induction (a := a) generalizing label with
  | h i ih =>
    rcases mem_census_stmt.1 h with h | ⟨j, hj, h⟩
    · exact contains_of_mem_roles h
    · exact contains_trans (contains_of_mem_laidParts hj) (ih j hj h)

/-- Roles in the same subtree are roles of the same statement inside. -/
lemma mem_census_of_contains {p : Role} {l : List Nat} (hl : l.Pairwise a.Apart) (hj : j ∈ l)
    (h : p ∈ l.flatMap fun k => (a.stmt k none).census) (hp : a.contains j p.2 = true) :
    p ∈ (a.stmt j none).census := by
  obtain ⟨k, hk, h⟩ := List.mem_flatMap.1 h
  by_cases hjk : j = k
  · rw [hjk]
    exact h
  · have hapart := hl.forall hj hk hjk
    exact (hapart p.2 hp (contains_of_mem_census h)).elim

/-- Statements that stand apart have no role in common. -/
lemma nodup_flatMap_census {l : List Nat} (hl : l.Pairwise a.Apart)
    (h : ∀ j ∈ l, (a.stmt j none).census.Nodup) :
    (l.flatMap fun j => (a.stmt j none).census).Nodup := by
  rw [List.nodup_flatMap]
  refine ⟨h, hl.imp fun hapart => ?_⟩
  intro p hj hk
  exact hapart p.2 (contains_of_mem_census hj) (contains_of_mem_census hk)

/-- No role occurs twice. -/
lemma nodup_census (a : Ast) (i : Nat) (label : Option String) : (a.stmt i label).census.Nodup := by
  induction i using laidParts_induction (a := a) generalizing label with
  | h i ih =>
    rw [(census_stmt a i label).nodup_iff, List.nodup_append']
    refine ⟨nodup_roles a i, nodup_flatMap_census (pairwise_apart_laidParts a i) fun j hj => ih j hj none, ?_⟩
    intro p hp hpart
    obtain ⟨j, hj, hpart⟩ := List.mem_flatMap.1 hpart
    exact Bool.eq_false_iff.1 (not_contains_of_mem_roles hp hj) (contains_of_mem_census hpart)

/-- Whatever stands for a statement itself is one of its roles. -/
lemma mem_roles_of_mem_census {p : Role} (h : p ∈ (a.stmt i label).census) (hp : p.2 = i) :
    p ∈ a.roles i := by
  rcases mem_census_stmt.1 h with h | ⟨j, hj, h⟩
  · exact h
  · have hlt := lt_of_mem_laidParts hj
    have hle := (contains_iff.1 (contains_of_mem_census h)).1
    omega

/-! The statements of a function. -/

/-- The statements of a function that stand directly in its body, or those of the script. A body that is an
expression has none. -/
def entryParts (a : Ast) (function : Nat) : List Nat :=
  if a.isFunction function then
    ((a.functionBody? function).filter fun body => a.kind body == "statement_block").toList
  else a.children function

/-- The body of an arrow function that is an expression. -/
def expressionBody? (a : Ast) (function : Nat) : Option Nat :=
  if a.isFunction function then
    (a.functionBody? function).filter fun body => a.kind body != "statement_block"
  else none

/-- The statements that control can come to in a function without entering functions inside it. -/
inductive Reached (a : Ast) (function : Nat) : Nat → Prop where
  | entry {i : Nat} (h : i ∈ a.entryParts function) : Reached a function i
  | part {i j : Nat} (h : Reached a function i) (hj : j ∈ a.parts i) : Reached a function j

/-- The statements that the skeleton of a function has. -/
inductive LaidOut (a : Ast) (function : Nat) : Nat → Prop where
  | entry {i : Nat} (h : i ∈ a.entryParts function) : LaidOut a function i
  | part {i j : Nat} (h : LaidOut a function i) (hj : j ∈ a.laidParts i) : LaidOut a function j

/-- A node in an `else` branch that a comment stands in front of. -/
def BehindComment (a : Ast) (function i : Nat) : Prop :=
  ∃ k e, a.Reached function k ∧ a.kind k = "if_statement" ∧ a.elseBranch? k = some e ∧
    (a.child? k "alternative").bind a.firstChild? ≠ some e ∧ a.contains e i = true

variable {f : Nat}

/-- The census of a function is that of its expression or of its statements. -/
lemma census_skeleton (a : Ast) (f : Nat) :
    (a.skeleton f).census = (a.expressionBody? f).toList.map (.block, ·) ++
      (a.entryParts f).flatMap fun j => (a.stmt j none).census := by
  unfold skeleton expressionBody? entryParts
  split
  · cases hb : a.functionBody? f with
    | none => rfl
    | some body => by_cases hk : a.kind body = "statement_block" <;> simp [hk, Stmt.census, Option.filter]
  · simp [List.flatMap_map]

/-- A function has statements, or it has an expression for its body. -/
lemma expressionBody?_eq_none (h : i ∈ a.entryParts f) : a.expressionBody? f = none := by
  unfold expressionBody? entryParts at *
  split
  · next hf =>
    rw [if_pos hf, Option.mem_toList, Option.filter_eq_some_iff] at h
    rw [h.1]
    simpa using h.2
  · rfl

/-- The statements of a function stand apart. -/
lemma pairwise_apart_entryParts (a : Ast) (f : Nat) : (a.entryParts f).Pairwise a.Apart := by
  unfold entryParts
  split
  · cases (a.functionBody? f).filter fun body => a.kind body == "statement_block" <;> simp
  · exact pairwise_apart_children a f

/-- No role of a function comes twice. -/
lemma nodup_census_skeleton (a : Ast) (f : Nat) : (a.skeleton f).census.Nodup := by
  rw [census_skeleton]
  cases he : a.expressionBody? f with
  | none =>
    simpa using nodup_flatMap_census (pairwise_apart_entryParts a f) fun j _ => nodup_census a j none
  | some body =>
    have hentry : a.entryParts f = [] := by
      rw [List.eq_nil_iff_forall_not_mem]
      intro i hi
      cases he.symm.trans (expressionBody?_eq_none hi)
    simp [hentry]

/-- What stands for a statement that is laid out stands for the function. -/
lemma LaidOut.census_subset (h : LaidOut a f i) : (a.stmt i none).census ⊆ (a.skeleton f).census := by
  induction h with
  | entry h =>
    intro p hp
    rw [census_skeleton]
    exact List.mem_append_right _ (List.mem_flatMap.2 ⟨_, h, hp⟩)
  | part _ hj ih => exact fun p hp => ih (mem_census_stmt.2 (.inr ⟨_, hj, hp⟩))

/-- Roles in the subtree of a statement that is laid out are roles of that statement, or of one inside it. -/
lemma LaidOut.mem_census {p : Role} (h : LaidOut a f i) (hp : p ∈ (a.skeleton f).census)
    (hi : a.contains i p.2 = true) : p ∈ (a.stmt i none).census := by
  induction h with
  | entry h =>
    rw [census_skeleton, expressionBody?_eq_none h] at hp
    exact mem_census_of_contains (pairwise_apart_entryParts a f) h hp hi
  | part _ hj ih =>
    rename_i k j _
    have hk := ih (contains_trans (contains_of_mem_laidParts hj) hi)
    rw [(census_stmt a k none).mem_iff, List.mem_append] at hk
    rcases hk with hk | hk
    · exact absurd hi (Bool.eq_false_iff.1 (not_contains_of_mem_roles hk hj))
    · exact mem_census_of_contains (pairwise_apart_laidParts a k) hj hk hi

/-! Statements that control comes to and statements that are laid out. -/

/-- The two readings of the tree differ in `else` branches only. -/
lemma mem_laidParts_or (h : j ∈ a.parts i) : j ∈ a.laidParts i ∨
    a.kind i = "if_statement" ∧ a.elseBranch? i = some j ∧
      (a.child? i "alternative").bind a.firstChild? ≠ some j := by
  by_cases hk : a.kind i = "if_statement"
  · simp only [parts, partsWith, hk, List.mem_append, Option.mem_toList] at h
    simp only [laidParts, partsWith, hk, List.mem_append, Option.mem_toList]
    by_cases hfirst : (a.child? i "alternative").bind a.firstChild? = some j
    · exact .inl (.inr hfirst)
    · exact h.imp .inl fun he => ⟨trivial, he, hfirst⟩
  · refine .inl ?_
    unfold parts partsWith at h
    unfold laidParts partsWith
    split at h
    all_goals simp_all

/-- What is laid out inside a statement is a statement inside it, or it is a comment. -/
lemma mem_parts_or (h : j ∈ a.laidParts i) : j ∈ a.parts i ∨ extraKinds.contains (a.kind j) = true := by
  cases hextra : extraKinds.contains (a.kind j) with
  | true => exact .inr rfl
  | false =>
    refine .inl ?_
    by_cases hk : a.kind i = "if_statement"
    · simp only [laidParts, partsWith, hk, List.mem_append, Option.mem_toList] at h
      simp only [parts, partsWith, hk, List.mem_append, Option.mem_toList]
      refine h.imp_right fun h => ?_
      -- What comes first in the clause is the branch, as it is no comment.
      obtain ⟨clause, hclause, hfirst⟩ := Option.bind_eq_some_iff.1 h
      obtain ⟨rest, hrest⟩ := List.head?_eq_some_iff.1 hfirst
      rw [elseBranch?, hclause, Option.bind_some, hrest, List.find?_cons_of_pos (by rw [hextra]; rfl)]
    · unfold laidParts partsWith at h
      unfold parts partsWith
      split at h
      all_goals simp_all

/-- Control comes to every statement that is laid out, comments apart. -/
lemma LaidOut.reached (h : LaidOut a f i) (hi : extraKinds.contains (a.kind i) = false) : Reached a f i := by
  induction h with
  | entry h => exact .entry h
  | @part k j _ hj ih =>
    refine .part (ih ?_) ((mem_parts_or hj).resolve_right (Bool.eq_false_iff.1 hi))
    -- A comment has no parts.
    rw [Bool.eq_false_iff]
    intro hk
    have hkind : a.kind k = "comment" ∨ a.kind k = "html_comment" := by
      simpa [extraKinds, or_iff_not_imp_left] using hk
    rcases hkind with hkind | hkind <;> simp [laidParts, partsWith, hkind] at hj

/-- A statement that control comes to is laid out, or it stands behind a comment. -/
lemma Reached.laidOut_or (h : Reached a f i) : LaidOut a f i ∨ BehindComment a f i := by
  induction h with
  | entry h => exact .inl (.entry h)
  | @part k j hk hj ih =>
    rcases ih with hlaid | ⟨m, e, hm, hkind, he, hfirst, hin⟩
    · rcases mem_laidParts_or hj with hj | ⟨hkind, he, hfirst⟩
      · exact .inl (hlaid.part hj)
      · exact .inr ⟨k, j, hk, hkind, he, hfirst, contains_self a j⟩
    · exact .inr ⟨m, e, hm, hkind, he, hfirst, contains_trans hin (contains_of_mem_parts hj)⟩

/-- Nothing stands for an `else` branch that does not come first in its clause, nor for anything in it. -/
lemma LaidOut.not_contains_elseBranch {p : Role} (h : LaidOut a f i) (hk : a.kind i = "if_statement")
    (he : a.elseBranch? i = some j) (hfirst : (a.child? i "alternative").bind a.firstChild? ≠ some j)
    (hp : p ∈ (a.skeleton f).census) : a.contains j p.2 = false := by
  rw [Bool.eq_false_iff]
  intro hj
  obtain ⟨clause, hclause, hmem, -⟩ := elseBranch?_eq_some he
  have hin : a.contains i p.2 = true := contains_of_child? hclause (contains_of_mem_children hmem hj)
  rcases mem_census_stmt.1 (h.mem_census hp hin) with hrole | ⟨s, hs, hp⟩
  · simp only [roles, hk, List.mem_singleton] at hrole
    rw [hrole, contains_iff] at hj
    have := child?_bounds hclause
    have := mem_children hmem
    omega
  · have hsp := contains_of_mem_census hp
    simp only [laidParts, partsWith, hk, List.mem_append, Option.mem_toList] at hs
    rcases hs with hs | hs
    · exact apart_of_child? hs hclause (by decide) p.2 hsp (contains_of_mem_children hmem hj)
    · obtain ⟨clause', hclause', hs'⟩ := Option.bind_eq_some_iff.1 hs
      cases hclause.symm.trans hclause'
      exact hfirst (hs.trans (congrArg some (eq_of_contains (List.mem_of_head? hs') hmem hsp hj)))

/-- A statement is laid out if something in it stands for part of the function. -/
lemma Reached.laidOut {p : Role} (h : Reached a f i) (hp : p ∈ (a.skeleton f).census)
    (hi : a.contains i p.2 = true) : LaidOut a f i := by
  induction h with
  | entry h => exact .entry h
  | part _ hj ih =>
    have hlaid := ih (contains_trans (contains_of_mem_parts hj) hi)
    rcases mem_laidParts_or hj with hj | ⟨hkind, he, hfirst⟩
    · exact hlaid.part hj
    · rw [hlaid.not_contains_elseBranch hkind he hfirst hp] at hi
      cases hi

/-- Nothing stands for a statement behind a comment, nor for anything in it. -/
lemma BehindComment.not_contains {p : Role} (h : BehindComment a f i) (hp : p ∈ (a.skeleton f).census) :
    a.contains i p.2 = false := by
  obtain ⟨k, e, hk, hkind, he, hfirst, hin⟩ := h
  rw [Bool.eq_false_iff]
  intro hi
  have hep := contains_trans hin hi
  obtain ⟨clause, hclause, hmem, -⟩ := elseBranch?_eq_some he
  have hlaid := hk.laidOut hp (contains_of_child? hclause (contains_of_mem_children hmem hep))
  rw [hlaid.not_contains_elseBranch hkind he hfirst hp] at hep
  cases hep

end Syntax.Ast

end Mend
