import Mend.Detector.Visits
import Mend.Proofs.Detector.Visits
import Mend.Proofs.Flow.Unchanged
import Mend.Proofs.Matching.Layout
import Mend.Proofs.Syntax.Unlined

/-!
# Analyses without line numbers

`Analysis.unlined` forgets the lines of all nodes of an analysis. What is made of a program without looking at
lines, its flow graphs and its scopes, is the same without them (`graphs_unlined`, `ScopeTree.ofAst_unlined`); so
to forget the lines of a comparison and to analyse it go together (`Analysis.of_unlined`). The visits of an
analysis do not see lines (`Analysis.visits_unlined`).
-/

namespace Mend

open Syntax (Ast)

namespace Syntax.Ast

open Mend.Flow (Stmt)

variable (a : Ast)

/-- Without lines two trees are alike in all that skeletons are read from. -/
lemma alike_unlined : a.unlined.Alike a where
  size := a.size_unlined
  kind := congrFun a.kind_unlined
  label := congrFun a.label_unlined
  children := congrFun a.children_unlined
  field? := congrFun a.field?_unlined
  parent? := congrFun a.parent?_unlined

/-- A loop keeps its condition. -/
@[simp] lemma condition?_unlined : a.unlined.condition? = a.condition? := by
  funext i
  simp [condition?]

/-- A loop starts where it started. -/
@[simp] lemma loopStart?_unlined : a.unlined.loopStart? = a.loopStart? := by
  funext i
  simp [loopStart?]

/-- A label reads the same. -/
@[simp] lemma labelText?_unlined : a.unlined.labelText? = a.labelText? := by
  funext i
  simp [labelText?]

section Behind

variable {a} {i : Nat} (hbehind : a.AgreeBehind a.unlined i)

include hbehind

/-- The part of a statement in a role is laid out the same if the parts below it are. -/
lemma part_unlined (role : String) (label : Option String) :
    a.unlined.stmt? (a.child? i role) label = a.stmt? (a.child? i role) label :=
  (hbehind.stmt?_eq rfl (fun _ hj => child?_bounds hj) label).symm

/-- So is a part that stands below the child in a role. -/
lemma inner_unlined (role : String) {inner : Nat → Option Nat}
    (h : ∀ {c j}, inner c = some j → c < j ∧ j < a.size) :
    a.unlined.stmt? ((a.child? i role).bind inner) none = a.stmt? ((a.child? i role).bind inner) none := by
  refine (hbehind.stmt?_eq rfl (fun j hj => ?_) none).symm
  obtain ⟨c, hc, hj⟩ := Option.bind_eq_some_iff.1 hj
  exact ⟨Nat.lt_trans (child?_bounds hc).1 (h hj).1, (h hj).2⟩

/-- So are the clauses of a switch. -/
lemma clauses_unlined (role : String) :
    ((a.child? i role).elim [] a.children).foldr a.unlined.addClause .nil =
      ((a.child? i role).elim [] a.children).foldr a.addClause .nil := by
  cases hbody : a.child? i role with
  | none => rfl
  | some body =>
    rw [Option.elim_some]
    refine List.foldr_ext _ _ _ fun c hc rest => ?_
    have hlt := Nat.lt_trans (child?_bounds hbody).1 (mem_children hc).1
    have hstmts : a.unlined.clauseStmt c = a.clauseStmt c := by
      rw [clauseStmt, clauseStmt, children_unlined, field?_unlined]
      congr 1
      refine List.map_congr_left fun j hj => ?_
      rw [hbehind j (Nat.lt_trans hlt (mem_children hj).1) (mem_children hj).2 none]
    rw [addClause, addClause, hstmts, kind_unlined, child?_unlined]

/-- A statement is put together from the same parts. -/
lemma assembled_unlined (label : Option String) : a.unlined.assembled i label = a.assembled i label := by
  have hchildren : (a.children i).map (a.unlined.stmt · none) = (a.children i).map (a.stmt · none) :=
    List.map_congr_left fun c hc => (hbehind c (mem_children hc).1 (mem_children hc).2 none).symm
  simp only [assembled, kind_unlined, children_unlined, child?_unlined, firstChild?_unlined, condition?_unlined,
    loopStart?_unlined, labelText?_unlined, unparen_unlined, part_unlined hbehind,
    inner_unlined hbehind _ firstChild?_bounds, inner_unlined hbehind _ child?_bounds, clauses_unlined hbehind,
    hchildren]

end Behind

/-- A statement reads the same, by induction over what stands below it. -/
lemma stmt_unlined (i : Nat) (label : Option String) : a.unlined.stmt i label = a.stmt i label := by
  -- From the last node to the first: all parts come later.
  induction hn : a.size - i using Nat.strongRecOn generalizing i label with
  | _ n ih =>
    rw [stmt_eq, stmt_eq]
    exact assembled_unlined (fun j hij hj label => (ih _ (by omega) j label rfl).symm) label

/-- A function has the same skeleton. -/
@[simp] lemma skeleton_unlined : a.unlined.skeleton = a.skeleton := by
  funext f
  simp [skeleton, stmt_unlined]

/-- A program has the same graphs. -/
@[simp] lemma graphs_unlined : Flow.graphs a.unlined = Flow.graphs a := by
  simp [Flow.graphs, root?, ids]

end Syntax.Ast

/-! ## Forgetting lines -/

namespace Revision

variable (r : Revision)

/-- The revision with the lines of its nodes forgotten. -/
def unlined : Revision := { r with toAst := r.toAst.unlined }

/-- The tree of a revision loses its lines. -/
@[simp] lemma toAst_unlined : r.unlined.toAst = r.toAst.unlined := rfl

/-- Its change labels stay. -/
@[simp] lemma change_unlined : r.unlined.change = r.change := rfl

end Revision

namespace ScopeTree

variable (t : ScopeTree)

/-- The scopes of the program with the lines of its nodes forgotten. -/
def unlined : ScopeTree := { t with ast := t.ast.unlined }

/-- The tree of the scopes loses its lines. -/
@[simp] lemma ast_unlined : t.unlined.ast = t.ast.unlined := rfl

/-- There are as many scopes. -/
@[simp] lemma size_unlined : t.unlined.size = t.size := rfl

/-- They have the same numbers. -/
@[simp] lemma ids_unlined : t.unlined.ids = t.ids := rfl

/-- They have the same nodes. -/
@[simp] lemma owner?_unlined : t.unlined.owner? = t.owner? := rfl

/-- A node opens the same scope. -/
@[simp] lemma scopeOf?_unlined : t.unlined.scopeOf? = t.scopeOf? := rfl

/-- A name is declared at the same node. -/
@[simp] lemma declaration?_unlined : t.unlined.declaration? = t.declaration? := rfl

/-- The same scopes stand around a node. -/
@[simp] lemma around_unlined : t.unlined.around = t.around := by
  funext i
  simp [around]

/-- The innermost of them is the same. -/
@[simp] lemma enclosing_unlined : t.unlined.enclosing = t.enclosing := by
  funext i
  simp [enclosing]

/-- The same scope stands around a scope. -/
@[simp] lemma parent?_unlined : t.unlined.parent? = t.parent? := by
  funext s
  simp [parent?]

/-- The same scopes stand inside it. -/
@[simp] lemma children_unlined : t.unlined.children = t.children := by
  funext s
  simp [children]

/-- A scope is shown under the same name. -/
@[simp] lemma name_unlined : t.unlined.name = t.name := by
  funext s
  simp [name]

/-- A scope has the same nodes of its own. -/
@[simp] lemma ownNodes_unlined : t.unlined.ownNodes = t.ownNodes := by
  funext s
  simp [ownNodes]

/-- The walk that leaves nested functions out meets the same nodes. -/
@[simp] lemma withoutFunctions_unlined (a : Ast) : withoutFunctions a.unlined = withoutFunctions a := by
  funext i
  simp [withoutFunctions]

/-- So does the walk over the clauses of a `try`. -/
@[simp] lemma clauseNodes_unlined (a : Ast) : clauseNodes a.unlined = clauseNodes a := by
  funext i
  simp [clauseNodes]

/-- So does the walk over its handler. -/
@[simp] lemma handlerNodes_unlined (a : Ast) : handlerNodes a.unlined = handlerNodes a := by
  funext i
  simp [handlerNodes]

/-- The same calls stand outside every `try` body. -/
@[simp] lemma unprotectedCalls_unlined : t.unlined.unprotectedCalls = t.unprotectedCalls := by
  funext s
  simp [unprotectedCalls, exposedNodes, Ast.calleeName?]

/-! The scopes of a program. -/

/-- The names of a pattern, one step of the recursion. -/
lemma boundNames_unfold (a : Ast) (i : Nat) : boundNames a i =
    match a.kind i with
    | "identifier" | "shorthand_property_identifier_pattern" => [i]
    | "assignment_pattern" | "object_assignment_pattern" => (a.child? i "left").elim [] (boundNames a)
    | "pair_pattern" => (a.child? i "value").elim [] (boundNames a)
    | "object_pattern" | "array_pattern" | "rest_pattern" => (a.children i).flatMap (boundNames a)
    | _ => [] := by
  rw [boundNames]
  split <;> simp_all
  all_goals split <;> simp_all

/-- A pattern binds the same names. -/
lemma boundNames_unlined (a : Ast) (i : Nat) : boundNames a.unlined i = boundNames a i := by
  induction hn : a.size - i using Nat.strongRecOn generalizing i with
  | _ n ih =>
    have hpart (role : String) : (a.child? i role).elim [] (boundNames a.unlined) =
        (a.child? i role).elim [] (boundNames a) := by
      cases hc : a.child? i role with
      | none => rfl
      | some c =>
        have := Ast.child?_bounds hc
        exact ih (a.size - c) (by omega) c rfl
    have hparts : (a.children i).flatMap (boundNames a.unlined) = (a.children i).flatMap (boundNames a) := by
      refine List.flatMap_congr fun c hc => ?_
      have := Ast.mem_children hc
      exact ih (a.size - c) (by omega) c rfl
    simp only [boundNames_unfold _ i, Ast.kind_unlined, Ast.child?_unlined, Ast.children_unlined, hpart, hparts]

/-- A function declares the same names in its own scope. -/
@[simp] lemma ownBindings_unlined (a : Ast) : ownBindings a.unlined = ownBindings a := by
  funext i
  simp [ownBindings, Ast.parameters, funext (boundNames_unlined a)]

/-- A statement declares the same names in the scope around it. -/
@[simp] lemma outerBindings_unlined (a : Ast) : outerBindings a.unlined = outerBindings a := by
  funext i
  simp [outerBindings, funext (boundNames_unlined a)]

/-- A node makes the same declarations. -/
@[simp] lemma declarationsAt_unlined : t.unlined.declarationsAt = t.declarationsAt := by
  funext i
  simp [declarationsAt]

/-- The same assignments make globals. -/
lemma addGlobal_unlined (i : Nat) : t.unlined.addGlobal i = (t.addGlobal i).unlined := by
  have hassigned : assigned? t.unlined.ast i = assigned? t.ast i := by simp [assigned?]
  have hresolve : t.unlined.resolve? = t.resolve? := by
    funext s name
    simp [resolve?, chain]
  rw [addGlobal, addGlobal, hassigned, hresolve]
  cases assigned? t.ast i with
  | none => rfl
  | some left =>
    simp only [enclosing_unlined, ast_unlined, Ast.label_unlined, apply_ite unlined]
    rfl

/-- The scopes of a program are found without looking at lines. -/
lemma ofAst_unlined (a : Ast) : ofAst a.unlined = (ofAst a).unlined := by
  let bare : ScopeTree := ⟨a, a.root?.toList ++ a.ids.filter a.isFunction, []⟩
  let declared : ScopeTree := { bare with declarations := a.ids.flatMap bare.declarationsAt }
  have hdeclared : ofAst a.unlined = a.ids.foldl addGlobal declared.unlined := by
    have hbare : (⟨a.unlined, a.root?.toList ++ a.ids.filter a.isFunction, []⟩ : ScopeTree) = bare.unlined := rfl
    have hroot : a.unlined.root? = a.root? := by simp [Ast.root?]
    have hids : a.unlined.ids = a.ids := by simp [Ast.ids]
    unfold ofAst
    dsimp only
    rw [hroot, hids, Ast.isFunction_unlined, hbare, declarationsAt_unlined]
    rfl
  rw [hdeclared]
  exact List.foldl_hom unlined (fun t i => t.addGlobal_unlined i)

end ScopeTree

/-- The two labelled trees with the lines of their nodes forgotten. -/
def Matching.Classified.unlined (c : Matching.Classified) : Matching.Classified :=
  { c with buggy := c.buggy.unlined, repaired := c.repaired.unlined }

/-- Labels do not see lines. -/
lemma Matching.classifiedBy_unlined (a b : Ast) (m : Matching) :
    classifiedBy a.unlined b.unlined m = (classifiedBy a b m).unlined := by
  have hverdict := verdict_classifiedBy a.alike_unlined b.alike_unlined m
  simp only [Classified.verdict, Prod.mk.injEq] at hverdict
  obtain ⟨-, hbuggy, hrepaired⟩ := hverdict
  rw [Classified.unlined, Revision.unlined, Revision.unlined, ← hbuggy, ← hrepaired]
  rfl

/-- The comparison with the lines of all nodes forgotten. -/
def Comparison.unlined (c : Comparison) : Comparison := { c with toClassified := c.toClassified.unlined }

/-- A comparison loses the lines of both of its trees. -/
lemma Comparison.ofClassified_unlined (c : Matching.Classified) :
    ofClassified c.unlined = (ofClassified c).unlined := by
  have hbuggy : Flow.graphs c.unlined.buggy.toAst = Flow.graphs c.buggy.toAst := Ast.graphs_unlined _
  have hrepaired : Flow.graphs c.unlined.repaired.toAst = Flow.graphs c.repaired.toAst := Ast.graphs_unlined _
  rw [ofClassified, ofClassified, hbuggy, hrepaired]
  rfl

namespace Analysis

variable (x : Analysis)

/-- The analysis with the lines of all nodes forgotten. -/
def unlined : Analysis :=
  { x with
    comparison := x.comparison.unlined
    buggyScopes := x.buggyScopes.unlined
    repairedScopes := x.repairedScopes.unlined }

/-- Comparisons that agree without lines have analyses that agree without lines. -/
lemma of_unlined (p : Provenance) (c : Comparison) : of p c.unlined = (of p c).unlined := by
  have hbuggy : ScopeTree.ofAst c.unlined.buggy.toAst = (ScopeTree.ofAst c.buggy.toAst).unlined :=
    ScopeTree.ofAst_unlined _
  have hrepaired : ScopeTree.ofAst c.unlined.repaired.toAst = (ScopeTree.ofAst c.repaired.toAst).unlined :=
    ScopeTree.ofAst_unlined _
  rw [of, of, hbuggy, hrepaired]
  rfl

/-- The buggy tree of an analysis loses its lines. -/
@[simp] lemma buggy_unlined : x.unlined.comparison.buggy = x.comparison.buggy.unlined := rfl

/-- So does the repaired tree. -/
@[simp] lemma repaired_unlined : x.unlined.comparison.repaired = x.comparison.repaired.unlined := rfl

/-- So do the scopes of the buggy file. -/
@[simp] lemma buggyScopes_unlined : x.unlined.buggyScopes = x.buggyScopes.unlined := rfl

/-- So do the scopes of the repaired file. -/
@[simp] lemma repairedScopes_unlined : x.unlined.repairedScopes = x.repairedScopes.unlined := rfl

/-- A node of the repaired file is old if it was. -/
@[simp] lemma isOld_unlined : x.unlined.isOld = x.isOld := rfl

/-- It has the same partner. -/
@[simp] lemma partner?_unlined : x.unlined.partner? = x.partner? := rfl

/-- A repaired scope is paired with the same buggy scope. -/
@[simp] lemma partnerScope?_unlined : x.unlined.partnerScope? = x.partnerScope? := rfl

/-- The same functions were deleted inside a buggy scope. -/
@[simp] lemma deletedInside_unlined : x.unlined.deletedInside = x.deletedInside := by
  funext old
  simp [deletedInside, pairedScopes]

/-- They are visited in the same order. -/
lemma deletedVisits_unlined (old : Nat) : x.unlined.deletedVisits old = x.deletedVisits old := by
  induction hn : x.buggyScopes.size - old using Nat.strongRecOn generalizing old with
  | _ n ih =>
    rw [deletedVisits_unfold, deletedVisits_unfold, deletedInside_unlined]
    congr 1
    refine List.flatMap_congr fun c hc => ih _ ?_ c rfl
    have := ScopeTree.lt_of_mem_children (List.mem_filter.1 hc).1
    omega

/-- From a pair of scopes the same scopes are visited. -/
lemma visitsFrom_unlined (old : Option Nat) (new : Nat) : x.unlined.visitsFrom old new = x.visitsFrom old new := by
  induction hn : x.repairedScopes.size - new using Nat.strongRecOn generalizing old new with
  | _ n ih =>
    have hdeleted : x.unlined.deletedVisits = x.deletedVisits := funext x.deletedVisits_unlined
    rw [visitsFrom_unfold, visitsFrom_unfold, deletedInside_unlined, hdeleted]
    congr 2
    rw [repairedScopes_unlined, ScopeTree.children_unlined, partnerScope?_unlined]
    refine List.flatMap_congr fun c hc => ih _ ?_ _ c rfl
    have := ScopeTree.lt_of_mem_children hc
    omega

/-- The detectors are shown the same scopes, in the same order. -/
@[simp] lemma visits_unlined : x.unlined.visits = x.visits := by
  simp only [visits, visitsFrom_unlined]
  rfl

end Analysis

end Mend
