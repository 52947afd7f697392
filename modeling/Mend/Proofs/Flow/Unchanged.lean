import Mend.Proofs.Batch.Unchanged
import Mend.Proofs.Flow.Skeleton
import Mend.Proofs.Syntax.Roles

/-!
# Unchanged programs, unchanged control flow

Labels and digests do not look at roles, but control flow is told by them. Programs with the same outline
whose nodes have the same roles where control flow asks for them (`SameControl`) have the same skeletons
(`SameControl.stmt_eq`) and graphs of the same shape (`SameControl.graphs`). The grammar leaves no choice of
roles to two such programs, except in the head of a `for` statement that was simplified, so that a comparison
without a changed node is one without a change of control flow (`graphs_of_unchanged`). In the head of such a
statement the condition may become the initializer, and no label tells
(`graphs_differ_of_initializer`).
-/

namespace Mend

open Digest (TellsApart)
open Mend.Flow (Stmt Clauses Graph)
open Syntax (Ast Rule Source ruleOf?)

namespace Flow.Graph

/-- Graphs that are the same, names apart. -/
structure SameShape (g g' : Graph) : Prop where
  function : g.function = g'.function
  nodes : g.nodes = g'.nodes
  edges : g.edges = g'.edges
  reached : g.reached = g'.reached

/-- Graphs of one statement have one shape, whatever their names. -/
lemma sameShape_ofStmt (function : Nat) (name name' : String) (s : Stmt) :
    SameShape (.ofStmt function name s) (.ofStmt function name' s) := ⟨rfl, rfl, rfl, rfl⟩

/-- Graphs of one shape have as many nodes. -/
lemma map_size_eq {gs gs' : List Graph} (h : List.Forall₂ SameShape gs gs') :
    gs.map (·.nodes.size) = gs'.map (·.nodes.size) := by
  induction h with
  | nil => rfl
  | cons hg _ ih => rw [List.map_cons, List.map_cons, hg.nodes, ih]

end Flow.Graph

namespace Syntax.Ast

/-- Whether the grammar has a rule for nodes of a kind that speaks of a role. -/
def asksFor (kind role : String) : Bool := (ruleOf? kind).any (·.roles.contains role)

/-- Programs with the same outline whose nodes have the roles of the grammar alike. -/
structure SameControl (a b : Ast) : Prop extends SameOutline a b where
  role : ∀ {i c role}, asksFor (a.kind i) role = true → c ∈ a.children i →
    (a.field? c == some role) = (b.field? c == some role)
  /-- What stands as a clause of a `try` statement is one. -/
  clause : ∀ {i c role}, a.kind i = "try_statement" → role = "handler" ∨ role = "finalizer" →
    a.child? i role = some c → asksFor (a.kind c) "body" = true

/-- The statements behind a node have the same skeletons. -/
def AgreeBehind (a b : Ast) (i : Nat) : Prop :=
  ∀ j, i < j → j < a.size → ∀ label, a.stmt j label = b.stmt j label

/-- A part that is the same on both sides has the same skeleton. -/
lemma AgreeBehind.stmt?_eq {a b : Ast} {i : Nat} (hbehind : a.AgreeBehind b i) {part part' : Option Nat}
    (hpart : part = part') (hlt : ∀ j, part = some j → i < j ∧ j < a.size) (label : Option String) :
    a.stmt? part label = b.stmt? part' label := by
  subst hpart
  cases part with
  | none => rfl
  | some j => exact hbehind j (hlt j rfl).1 (hlt j rfl).2 label

namespace SameControl

variable {a b : Ast} (h : a.SameControl b) {i c : Nat} {role : String}

include h

/-- Trees with the same heads have the same child in every role asked for. -/
lemma child?_eq (role : String) (hasks : asksFor (a.kind i) role = true) :
    a.child? i role = b.child? i role := by
  rw [child?, child?, ← h.children i]
  exact List.find?_congr fun c hc => h.role hasks hc

/-- Trees with the same heads take off the same parentheses. -/
lemma unparen_eq (i : Nat) : a.unparen i = b.unparen i := by
  fun_induction unparen a i with
  | case1 i hkind c hc ih =>
    rw [ih]
    conv_rhs => rw [unparen]
    have hfirst : b.firstChild? i = some c := by rwa [firstChild?, ← h.children i]
    rw [if_pos (h.kind i ▸ hkind)]
    split
    · next c' hc' => rw [hfirst] at hc'; cases hc'; rfl
    · next hnone => rw [hfirst] at hnone; cases hnone
  | case2 i hkind hc =>
    rw [unparen, if_pos (h.kind i ▸ hkind)]
    have hfirst : b.firstChild? i = none := by rwa [firstChild?, ← h.children i]
    split
    · next c' hc' => rw [hfirst] at hc'; cases hc'
    · rfl
  | case3 i hkind => rw [unparen, if_neg (h.kind i ▸ hkind)]

/-- Trees with the same heads have the same first children. -/
lemma firstChild?_eq (i : Nat) : a.firstChild? i = b.firstChild? i := by
  rw [firstChild?, firstChild?, h.children i]

/-- Trees with the same heads have the same conditions. -/
lemma condition?_eq (hasks : asksFor (a.kind i) "condition" = true) : a.condition? i = b.condition? i := by
  have hunparen : a.unparen = b.unparen := funext h.unparen_eq
  rw [condition?, condition?, h.child?_eq _ hasks, hunparen]
  cases b.child? i "condition" with
  | none => rfl
  | some c =>
    simp only [Option.bind_eq_bind, Option.bind_some, h.kind c, h.firstChild?_eq c]

/-- Trees with the same heads have the same loop starts. -/
lemma loopStart?_eq (hasks : asksFor (a.kind i) "initializer" = true) : a.loopStart? i = b.loopStart? i := by
  rw [loopStart?, loopStart?, h.child?_eq _ hasks]
  simp only [h.kind]

/-- Trees with the same heads have the same labels. -/
lemma labelText?_eq (hasks : asksFor (a.kind i) "label" = true) : a.labelText? i = b.labelText? i := by
  rw [labelText?, labelText?, h.child?_eq _ hasks]
  simp only [funext h.label]

/-- A clause of a `switch` statement, if the statements in it have the same skeletons. -/
lemma addClause_eq (hstmt : ∀ j ∈ a.children c, a.stmt j none = b.stmt j none) (rest : Clauses) :
    a.addClause c rest = b.addClause c rest := by
  have hbody (hasks : asksFor (a.kind c) "value" = true) : a.clauseStmt c = b.clauseStmt c := by
    rw [clauseStmt, clauseStmt, ← h.children c]
    congr 1
    refine List.map_congr_left fun j hj => ?_
    rw [h.role hasks hj, hstmt j hj]
  rw [addClause, addClause, ← h.kind c]
  split
  · next hk =>
    have hasks : asksFor (a.kind c) "value" = true := by rw [hk]; decide
    rw [h.child?_eq _ hasks, hbody hasks]
  · next hk => rw [hbody (by rw [hk]; decide)]
  · rfl

section Behind

variable (hbehind : a.AgreeBehind b i)

include hbehind

/-- Parts in a role asked for are read alike. -/
lemma part_eq (hasks : asksFor (a.kind i) role = true) (label : Option String) :
    a.stmt? (a.child? i role) label = b.stmt? (b.child? i role) label :=
  hbehind.stmt?_eq (h.child?_eq _ hasks) (fun _ hj => child?_bounds hj) label

/-- What is done otherwise stands inside the clause for it. -/
lemma otherwise_eq (hasks : asksFor (a.kind i) "alternative" = true) :
    a.stmt? ((a.child? i "alternative").bind a.firstChild?) none =
      b.stmt? ((b.child? i "alternative").bind b.firstChild?) none := by
  refine hbehind.stmt?_eq ?_ (fun j hj => ?_) none
  · rw [h.child?_eq _ hasks, funext h.firstChild?_eq]
  · obtain ⟨c, hc, hj⟩ := Option.bind_eq_some_iff.1 hj
    exact ⟨Nat.lt_trans (child?_bounds hc).1 (firstChild?_bounds hj).1, (firstChild?_bounds hj).2⟩

/-- The bodies of the clauses of a `try` statement. -/
lemma clauseBody_eq (hk : a.kind i = "try_statement") (hrole : role = "handler" ∨ role = "finalizer") :
    a.stmt? ((a.child? i role).bind (a.child? · "body")) none =
      b.stmt? ((b.child? i role).bind (b.child? · "body")) none := by
  have hasks : asksFor (a.kind i) role = true := by
    rw [hk]
    rcases hrole with rfl | rfl <;> decide
  refine hbehind.stmt?_eq ?_ (fun j hj => ?_) none
  · rw [← h.child?_eq _ hasks]
    cases hc : a.child? i role with
    | none => rfl
    | some c => exact h.child?_eq _ (h.clause hk hrole hc)
  · obtain ⟨c, hc, hj⟩ := Option.bind_eq_some_iff.1 hj
    exact ⟨Nat.lt_trans (child?_bounds hc).1 (child?_bounds hj).1, (child?_bounds hj).2⟩

/-- The clauses of a `switch` are read alike. -/
lemma clauses_eq (hasks : asksFor (a.kind i) "body" = true) :
    ((a.child? i "body").elim [] a.children).foldr a.addClause .nil =
      ((b.child? i "body").elim [] b.children).foldr b.addClause .nil := by
  rw [← h.child?_eq "body" hasks]
  cases hbody : a.child? i "body" with
  | none => rfl
  | some body =>
    rw [Option.elim_some, Option.elim_some, ← h.children body]
    refine List.foldr_ext _ _ _ fun c hc rest => h.addClause_eq (fun j hj => ?_) rest
    have hlt := Nat.lt_trans (child?_bounds hbody).1 (mem_children hc).1
    exact hbehind j (Nat.lt_trans hlt (mem_children hj).1) (mem_children hj).2 none

/-- A statement has the same skeleton on both sides, if all that come later have. -/
lemma assembled_eq (label : Option String) : a.assembled i label = b.assembled i label := by
  have hasks : ∀ {kind role}, a.kind i = kind → asksFor kind role = true →
      asksFor (a.kind i) role = true := fun hk hasks => hk ▸ hasks
  have hpart : ∀ {role label}, asksFor (a.kind i) role = true →
      a.stmt? (a.child? i role) label = b.stmt? (b.child? i role) label :=
    fun hasks => h.part_eq hbehind hasks _
  rw [assembled, assembled, ← h.kind i]
  -- One case for each construct, as they are assembled.
  split
  all_goals rename_i hk
  · rw [← h.children i]
    exact congrArg Stmt.ofList (List.map_congr_left fun c hc =>
      hbehind c (mem_children hc).1 (mem_children hc).2 none)
  · rw [h.condition?_eq (hasks hk rfl), hpart (hasks hk rfl), h.otherwise_eq hbehind (hasks hk rfl)]
  · rw [h.condition?_eq (hasks hk rfl), hpart (hasks hk rfl)]
  · rw [h.condition?_eq (hasks hk rfl), hpart (hasks hk rfl)]
  · rw [h.loopStart?_eq (hasks hk rfl), h.condition?_eq (hasks hk rfl), hpart (hasks hk rfl),
      h.child?_eq "increment" (hasks hk rfl)]
  · rw [hpart (hasks hk rfl), h.child?_eq "right" (hasks hk rfl), funext h.unparen_eq]
  · rw [h.child?_eq "value" (hasks hk rfl), funext h.unparen_eq, h.clauses_eq hbehind (hasks hk rfl)]
  · rw [hpart (hasks hk rfl), h.clauseBody_eq hbehind hk (.inl rfl), h.clauseBody_eq hbehind hk (.inr rfl),
      h.child?_eq "handler" (hasks hk rfl), h.child?_eq "finalizer" (hasks hk rfl)]
  · rw [h.labelText?_eq (hasks hk rfl), hpart (hasks hk rfl), hpart (hasks hk rfl),
      h.child?_eq "body" (hasks hk rfl), funext h.kind]
  · rfl
  · rfl
  · rw [h.labelText?_eq (hasks hk rfl)]
  · rw [h.labelText?_eq (hasks hk rfl)]
  · rfl

end Behind

/-- Statements have the same skeletons on both sides. -/
lemma stmt_eq (i : Nat) (label : Option String) : a.stmt i label = b.stmt i label := by
  -- From the last node to the first: all parts come later.
  induction hn : a.size - i using Nat.strongRecOn generalizing i label with
  | _ n ih =>
    have hbehind : a.AgreeBehind b i := fun j hij hj label => ih _ (by omega) j label rfl
    rw [Ast.stmt_eq, Ast.stmt_eq]
    exact h.assembled_eq hbehind label

/-- The same nodes are functions. -/
lemma isFunction_eq (i : Nat) : a.isFunction i = b.isFunction i := by
  rw [isFunction, isFunction, h.kind i]

/-- So have functions and the script. -/
lemma skeleton_eq (f : Nat) : a.skeleton f = b.skeleton f := by
  have hstmts : a.stmt = b.stmt := funext fun i => funext fun label => h.stmt_eq i label
  rw [skeleton, skeleton, ← h.isFunction_eq f, hstmts, ← h.children f, functionBody?, functionBody?]
  split
  · next hf =>
    have hall : ∀ kind ∈ functionKinds, asksFor kind "body" = true := by decide +kernel
    rw [← h.child?_eq "body" (hall _ (List.contains_iff_mem.1 hf)), funext h.kind]
  · rfl

/-- The graphs of both sides have the same shape. -/
lemma graphs : List.Forall₂ Graph.SameShape (Flow.graphs a) (Flow.graphs b) := by
  rw [Flow.graphs, Flow.graphs, root?, root?, ids, ids, ← h.size]
  by_cases hsize : a.size = 0
  · rw [if_pos hsize]
    exact .nil
  · rw [if_neg hsize, funext h.skeleton_eq, funext h.isFunction_eq]
    refine .cons (Graph.sameShape_ofStmt _ _ _ _) ?_
    rw [List.forall₂_map_left_iff, List.forall₂_map_right_iff, List.forall₂_same]
    exact fun f _ => Graph.sameShape_ofStmt _ _ _ _

end SameControl

/-- The heads of `for` statements have their parts in the same roles. -/
def SameHeads (a b : Ast) : Prop :=
  ∀ i < a.size, a.kind i = "for_statement" → (a.children i).map a.field? = (b.children i).map b.field?

instance (a b : Ast) : Decidable (a.SameHeads b) :=
  inferInstanceAs (Decidable (∀ i < a.size, a.kind i = "for_statement" → _ = _))

/-- Programs with the same outline that follow the rules have the same control flow, once the heads of `for`
statements agree. -/
lemma sameControl_of_followsRules {a b : Ast} {simplify : Bool} (ho : a.SameOutline b)
    (ha : a.FollowsRules simplify) (hb : b.FollowsRules simplify)
    (hheads : simplify = true → a.SameHeads b) : a.SameControl b where
  toSameOutline := ho
  role {i c role} hasks hc := by
    obtain ⟨R, hrule, hrole⟩ := (Option.any_eq_true _ _).1 hasks
    have hrole : role ∈ R.roles := List.contains_iff_mem.1 hrole
    cases simplify with
    | false =>
      have htelling := Syntax.telling_rules _ (Syntax.mem_rules hrule)
      exact beq_field?_of_sameOutline ho ha hb hrule htelling hrole hc
    | true =>
      by_cases hk : a.kind i = "for_statement"
      · have hlt := mem_children hc
        have hfields := hheads rfl i (Nat.lt_trans hlt.1 hlt.2) hk
        rw [← ho.children i, List.map_inj_left] at hfields
        rw [hfields c hc]
      · have htelling := (Syntax.telling_simplified _ (Syntax.mem_rules hrule)).2 hk
        exact beq_field?_of_sameOutline ho ha hb hrule htelling hrole hc
  clause {i c role} hk hrole hc := by
    have hrule : ruleOf? (a.kind i) = some (.series [.one "body" (.only "statement_block"),
        .maybe "handler" (.only "catch_clause"), .maybe "finalizer" (.only "finally_clause")]) := by
      rw [hk]
      decide +kernel
    obtain ⟨p, hp, hsame, htakes⟩ :=
      ha.takes hrule rfl (mem_children_of_child? hc) (field?_of_child? hc)
    have hkind : a.kind c = "catch_clause" ∨ a.kind c = "finally_clause" := by
      simp only [List.mem_cons, List.not_mem_nil, or_false] at hp
      rcases hp with rfl | rfl | rfl
      · rcases hrole with rfl | rfl <;> exact absurd hsame (by decide)
      · exact .inl (beq_iff_eq.1 htakes)
      · exact .inr (beq_iff_eq.1 htakes)
    rcases hkind with hkind | hkind <;> rw [hkind] <;> decide +kernel

end Syntax.Ast

variable {simplify : Bool} {buggy repaired : Source} {c : Comparison}

/-- A comparison that finds every node unchanged is one of programs with the same outline. -/
lemma sameOutline_of_unchanged (htell : TellsApart (buggy.read simplify) (repaired.read simplify))
    (h : compare simplify buggy repaired = .ok c)
    (hb : ∀ s < c.buggy.size, c.buggy.change s = .unchanged)
    (hr : ∀ d < c.repaired.size, c.repaired.change d = .unchanged) :
    (buggy.read simplify).SameOutline (repaired.read simplify) := by
  obtain ⟨hbuggy, hrepaired, hfault, hfault'⟩ := compare_guards h
  rw [compare_eq hbuggy hrepaired hfault hfault', Matching.classify_eq htell] at h
  cases h
  have hfit := (Matching.Trees.safe_matching htell).2
  refine Ast.sameOutline_of_outline_eq ?_
  exact (Matching.unchanged_classifiedBy hfit hb hr).outline_eq hfit
    (Syntax.isArena_read buggy simplify) (Syntax.isArena_read repaired simplify)

/-- Texts of one outline are compared without a change. -/
lemma exists_unchanged (hbuggy : Text.isBlankText buggy.text = false)
    (hrepaired : Text.isBlankText repaired.text = false) (hfault : buggy.tree.fault? = none)
    (hfault' : repaired.tree.fault? = none)
    (htell : TellsApart (buggy.read simplify) (repaired.read simplify))
    (ho : (buggy.read simplify).outline = (repaired.read simplify).outline) :
    ∃ c, compare simplify buggy repaired = .ok c ∧ c.buggyGraphs = Flow.graphs (buggy.read simplify) ∧
      c.repairedGraphs = Flow.graphs (repaired.read simplify) ∧
      (∀ s < c.buggy.size, c.buggy.change s = .unchanged) ∧
      ∀ d < c.repaired.size, c.repaired.change d = .unchanged := by
  have hc : compare simplify buggy repaired = _ := compare_eq hbuggy hrepaired hfault hfault'
  rw [Matching.classify_eq htell] at hc
  have hx := Analysis.untouched_of_outline_eq .empty (Syntax.isArena_read buggy simplify) htell ho
  exact ⟨_, hc, rfl, rfl, hx.buggy, hx.repaired⟩

/-- Where a comparison finds every node unchanged, the flow graphs of both sides have the same shape: as many,
with the same nodes, edges and reachable nodes. If the programs are simplified, this needs the heads of their
`for` statements to agree. -/
theorem graphs_of_unchanged (hbuggy : buggy.tree.FollowsGrammar) (hrepaired : repaired.tree.FollowsGrammar)
    (htell : TellsApart (buggy.read simplify) (repaired.read simplify))
    (h : compare simplify buggy repaired = .ok c)
    (hb : ∀ s < c.buggy.size, c.buggy.change s = .unchanged)
    (hr : ∀ d < c.repaired.size, c.repaired.change d = .unchanged)
    (hheads : simplify = true → c.buggy.SameHeads c.repaired.toAst) :
    List.Forall₂ Graph.SameShape c.buggyGraphs c.repairedGraphs := by
  obtain ⟨hbuggyAst, hrepairedAst⟩ := compare_eq_ok h
  have ho := sameOutline_of_unchanged htell h hb hr
  rw [hbuggyAst, hrepairedAst] at hheads
  have hcontrol := Ast.sameControl_of_followsRules ho (Ast.followsRules_read hbuggy simplify)
    (Ast.followsRules_read hrepaired simplify) hheads
  obtain ⟨hbuggyBlank, hrepairedBlank, hfault, hfault'⟩ := compare_guards h
  rw [compare_eq hbuggyBlank hrepairedBlank hfault hfault', Matching.classify_eq htell] at h
  cases h
  exact hcontrol.graphs

/-- A program of one `for` statement with an empty body, from the parts of its head. -/
def forStatement (text : String) (head : List Syntax.Token) (body : Nat) : Source :=
  let parts := head ++ [.clean "statement_block" (some "body") body (body + 2)]
  ⟨text, .cons (.clean "program" none 0 (body + 2)) (.cons (.clean "for_statement" none 0 (body + 2))
    (parts.foldr (fun t rest => .cons t .nil rest) .nil) .nil) .nil⟩

/-- The loop `for (x;;) {}`, its head as the parser gives it. -/
def initializing : Source := forStatement "for (x;;) \x7b\x7d"
  [.clean "identifier" (some "initializer") 5 6, .clean "empty_statement" (some "condition") 7 8] 10

/-- The loop `for (;x;) {}`, its head as the parser gives it. -/
def testing : Source := forStatement "for (;x;) \x7b\x7d"
  [.clean "empty_statement" (some "initializer") 5 6, .clean "identifier" (some "condition") 6 7] 10

/-- The second text with another blank. -/
def testingWide : Source := forStatement "for (; x;) \x7b\x7d"
  [.clean "empty_statement" (some "initializer") 5 6, .clean "identifier" (some "condition") 7 8] 11

/-- What both loops read to when empty statements are left out. -/
def loopOutline : Forest (String × String) :=
  .cons ("program", "") (.cons ("for_statement", "")
    (.cons ("identifier", "x") .nil (.cons ("statement_block", "") .nil .nil)) .nil) .nil

/-- The loops read to one outline. -/
lemma outline_loops : (initializing.read true).outline = loopOutline ∧
    (testing.read true).outline = loopOutline ∧ (testingWide.read true).outline = loopOutline := by
  refine ⟨?_, ?_, ?_⟩ <;> decide +kernel

/-- Digests tell the subtrees of programs with this outline apart. -/
lemma tellsApart_of_loopOutline {a b : Ast} (ha : a.outline = loopOutline) (hb : b.outline = loopOutline) :
    TellsApart a b := by
  have hself : TellsApart (testing.read true) (testing.read true) := by decide +kernel
  exact (Digest.tellsApart_congr (ha.trans outline_loops.2.1.symm) (hb.trans outline_loops.2.1.symm)).2 hself

/-- Another blank in the head of a loop changes no graph. -/
theorem graphs_of_unchanged_testing :
    testing.tree.FollowsGrammar ∧ testingWide.tree.FollowsGrammar ∧
      TellsApart (testing.read true) (testingWide.read true) ∧
      ∃ c, compare true testing testingWide = .ok c ∧
        (∀ s < c.buggy.size, c.buggy.change s = .unchanged) ∧
        (∀ d < c.repaired.size, c.repaired.change d = .unchanged) ∧
        c.buggy.SameHeads c.repaired.toAst ∧
        List.Forall₂ Graph.SameShape c.buggyGraphs c.repairedGraphs := by
  have hbuggy : testing.tree.FollowsGrammar := by decide +kernel
  have hrepaired : testingWide.tree.FollowsGrammar := by decide +kernel
  obtain ⟨-, ho, ho'⟩ := outline_loops
  have htell := tellsApart_of_loopOutline ho ho'
  obtain ⟨c, hc, -, -, hb, hr⟩ :=
    exists_unchanged (by decide) (by decide) rfl rfl htell (ho.trans ho'.symm)
  have hheads : c.buggy.SameHeads c.repaired.toAst := by
    rw [(compare_eq_ok hc).1, (compare_eq_ok hc).2]
    decide +kernel
  exact ⟨hbuggy, hrepaired, htell, c, hc, hb, hr, hheads,
    graphs_of_unchanged hbuggy hrepaired htell hc hb hr fun _ => hheads⟩

/-- Once the head of a loop is simplified, its condition becomes its initializer without a change, and a
branch becomes a loop without a way out. -/
theorem graphs_differ_of_initializer :
    initializing.tree.FollowsGrammar ∧ testing.tree.FollowsGrammar ∧
      TellsApart (initializing.read true) (testing.read true) ∧
      ∃ c, compare true initializing testing = .ok c ∧
        (∀ s < c.buggy.size, c.buggy.change s = .unchanged) ∧
        (∀ d < c.repaired.size, c.repaired.change d = .unchanged) ∧
        ¬ List.Forall₂ Graph.SameShape c.buggyGraphs c.repairedGraphs := by
  have hbuggy : initializing.tree.FollowsGrammar := by decide +kernel
  have hrepaired : testing.tree.FollowsGrammar := by decide +kernel
  obtain ⟨ho, ho', -⟩ := outline_loops
  have htell := tellsApart_of_loopOutline ho ho'
  obtain ⟨c, hc, hgraphs, hgraphs', hb, hr⟩ :=
    exists_unchanged (by decide) (by decide) rfl rfl htell (ho.trans ho'.symm)
  refine ⟨hbuggy, hrepaired, htell, c, hc, hb, hr, fun hsame => ?_⟩
  have hsizes := Graph.map_size_eq hsame
  have hloop : (Flow.graphs (initializing.read true)).map (·.nodes.size) = [4] := by decide +kernel
  have hbranch : (Flow.graphs (testing.read true)).map (·.nodes.size) = [3] := by decide +kernel
  rw [hgraphs, hgraphs', hloop, hbranch] at hsizes
  exact absurd hsizes (by decide)

end Mend
