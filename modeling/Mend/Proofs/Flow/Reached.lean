import Mend.Proofs.Flow.Covers
import Mend.Proofs.Reachable

/-!
# Dead code

A graph has one entry, which nothing leads into, and one exit, which leads nowhere (`Graph.Framed`). Both are
there before anything is laid out, no statement has a role of their kinds (`Stmt.inner_of_mem_census`), and
what a statement adds leaves new nodes or the entry and enters new nodes or the exit. The nodes marked as
reached are those that a walk from the entry comes to, so that the other nodes are just the dead code
(`graphs_reached`).
-/

namespace Mend.Flow

open Syntax (Ast)
open Reachable (Leads)

/-- A role that neither the entry nor the exit plays. -/
def Role.Inner (p : Role) : Prop := p.1 ≠ .entry ∧ p.1 ≠ .exit

/-- A part that may be missing plays inner roles only. -/
lemma inner_of_mem_map {kind : NodeKind} (hk : kind ≠ .entry ∧ kind ≠ .exit) (part : Option Nat) :
    ∀ p ∈ part.toList.map (kind, ·), Role.Inner p := by
  intro p hp
  obtain ⟨i, -, rfl⟩ := List.mem_map.1 hp
  exact hk

mutual

/-- The nodes laid out for a statement are neither entry nor exit. -/
lemma Stmt.inner_of_mem_census (s : Stmt) : ∀ p ∈ s.census, Role.Inner p := by
  match s with
  | .skip => nofun
  | .seq first rest => exact List.forall_mem_append.2 ⟨first.inner_of_mem_census, rest.inner_of_mem_census⟩
  | .plain _ | .ret _ | .throw _ | .jump .. => exact List.forall_mem_singleton.2 ⟨nofun, nofun⟩
  | .branch _ _ onTrue onFalse =>
    exact List.forall_mem_cons.2 ⟨⟨nofun, nofun⟩,
      List.forall_mem_append.2 ⟨onTrue.inner_of_mem_census, onFalse.inner_of_mem_census⟩⟩
  | .whileLoop _ _ _ body | .forEach _ _ _ body =>
    exact List.forall_mem_cons.2 ⟨⟨nofun, nofun⟩, body.inner_of_mem_census⟩
  | .doLoop _ _ _ body =>
    exact List.forall_mem_cons.2 ⟨⟨nofun, nofun⟩,
      List.forall_mem_append.2 ⟨body.inner_of_mem_census, List.forall_mem_singleton.2 ⟨nofun, nofun⟩⟩⟩
  | .forLoop node _ start condition step body =>
    have hhead : Role.Inner (if condition.isSome then .branch else .loopHead, node) := by
      cases condition <;> exact ⟨nofun, nofun⟩
    exact List.forall_mem_append.2 ⟨inner_of_mem_map (by decide) start, List.forall_mem_cons.2 ⟨hhead,
      List.forall_mem_append.2 ⟨body.inner_of_mem_census, inner_of_mem_map (by decide) step⟩⟩⟩
  | .switch _ _ clauses => exact List.forall_mem_cons.2 ⟨⟨nofun, nofun⟩, clauses.inner_of_mem_census⟩
  | .tryCatch _ body catchNode catchBody finallyNode finallyBody =>
    rw [Stmt.census]
    simp only [List.forall_mem_append]
    exact ⟨⟨inner_of_mem_map (by decide) catchNode, inner_of_mem_map (by decide) finallyNode⟩,
      ⟨body.inner_of_mem_census, forall_mem_elim catchBody.inner_of_mem_census catchNode⟩,
      forall_mem_elim finallyBody.inner_of_mem_census finallyNode⟩
  | .labelled _ _ body => exact body.inner_of_mem_census
termination_by structural s

/-- The same of clauses. -/
lemma Clauses.inner_of_mem_census (s : Clauses) : ∀ p ∈ s.census, Role.Inner p := by
  match s with
  | .nil => nofun
  | .onCase _ body rest | .onDefault body rest =>
    exact List.forall_mem_append.2 ⟨body.inner_of_mem_census, rest.inner_of_mem_census⟩
  | .gap rest => exact rest.inner_of_mem_census
termination_by structural s

end

namespace Graph

/-- Control comes in at one node, which nothing leads into, and goes out at one, which leads nowhere. -/
structure Framed (g : Graph) : Prop where
  entry : ∀ n, (g.nodes[n]?).map (·.kind) = some .entry ↔ n = entryNode
  exit : ∀ n, (g.nodes[n]?).map (·.kind) = some .exit ↔ n = exitNode
  bounds : ∀ e ∈ g.edges.toList, e.source < g.nodes.size ∧ e.target < g.nodes.size
  nothingIn : ∀ e ∈ g.edges.toList, e.target ≠ entryNode
  nothingOut : ∀ e ∈ g.edges.toList, e.source ≠ exitNode

variable {g : Graph} {m n : Nat} {path : List Edge}

/-- The successors of a node are where its edges lead. -/
lemma mem_successors : n ∈ g.successors m ↔ ∃ e ∈ g.edges.toList, e.source = m ∧ e.target = n := by
  simp [successors, and_assoc]

/-- A walk leads from its start to its end. -/
lemma IsWalk.leads (hg : g.Framed) (h : g.IsWalk m path n) : Leads g.successors g.nodes.size m n := by
  induction path generalizing m with
  | nil =>
    cases h
    exact .refl
  | cons e path ih =>
    obtain ⟨he, rfl, h⟩ := h
    exact .head ⟨mem_successors.2 ⟨e, he, rfl, rfl⟩, (hg.bounds e he).2⟩ (ih h)

/-- Where something leads, there is a walk. -/
lemma exists_isWalk (h : Leads g.successors g.nodes.size m n) : ∃ path, g.IsWalk m path n := by
  induction h using Relation.ReflTransGen.head_induction_on with
  | refl => exact ⟨[], rfl⟩
  | head hstep _ ih =>
    obtain ⟨e, he, rfl, rfl⟩ := mem_successors.1 hstep.1
    obtain ⟨path, hpath⟩ := ih
    exact ⟨e :: path, he, rfl, hpath⟩

/-- A node is marked as reached just if a walk leads to it from the entry. -/
lemma mem_reached (hg : g.Framed) : n ∈ g.reached ↔ ∃ path, g.IsWalk entryNode path n :=
  mem_reachable.trans ⟨exists_isWalk, fun ⟨_, hpath⟩ => hpath.leads hg⟩

/-- The nodes not reached are the others. -/
lemma mem_unreached : n ∈ g.unreached ↔ n < g.nodes.size ∧ n ∉ g.reached := by
  simp [unreached, nodeIds]

end Graph

/-- What is added to the entry and the exit leaves new nodes or the entry and enters new nodes or the exit. -/
lemma grows_ofStmt (f : Nat) (name : String) (s : Stmt) : ∃ d : Draft, (Graph.ofStmt f name s).nodes = d.nodes ∧
    (Graph.ofStmt f name s).edges = d.edges ∧
      (Draft.start f).Grows (· = exitNode) (·.source = entryNode) d := by
  have hgrown := s.layOut_grown ⟨none, []⟩ (.start f) [.plain entryNode]
  have hgrows := hgrown.grows.connect _ false (.inl (.inl rfl)) hgrown.outs
  refine ⟨_, rfl, rfl, hgrows.mono (fun t ht => .inl ?_) fun w hw => ?_⟩
  · exact ht.resolve_right nofun
  · rw [List.mem_singleton.1 hw]
    rfl

/-- A node that is no block plays one role. -/
lemma Node.roles_of_ne_block {x : Node} (h : x.kind ≠ .block) : x.roles = [(x.kind, x.ast)] := if_neg h

/-- The entry and the exit keep their kinds, and no other node has them. -/
lemma kind_iff_of_start {a : Ast} {f : Nat} {name : String} {kind : NodeKind} {m n : Nat}
    (hstart : (Draft.start f).nodes[m]? = some ⟨kind, f, []⟩) (hk : kind = .entry ∨ kind = .exit) :
    ((Graph.ofStmt f name (a.skeleton f)).nodes[n]?).map (·.kind) = some kind ↔ n = m := by
  obtain ⟨d, hnodes, -, hgrows⟩ := grows_ofStmt f name (a.skeleton f)
  have hcensus : d.census = (Graph.ofStmt f name (a.skeleton f)).census := by
    rw [Draft.census, ← hnodes]
    rfl
  have hnodup : d.census.Nodup := hcensus ▸ (Ast.finished_skeleton a f).nodup
  have hblock : kind ≠ .block := by rcases hk with rfl | rfl <;> decide
  have hm : Plays d.nodes m (kind, f) := hgrows.plays ⟨_, hstart, by rw [Node.roles_of_ne_block hblock]; simp⟩
  rw [hnodes, Option.map_eq_some_iff]
  constructor
  · rintro ⟨x, hx, rfl⟩
    have hn : Plays d.nodes n (x.kind, x.ast) := ⟨x, hx, by rw [Node.roles_of_ne_block hblock]; simp⟩
    have hast : x.ast = f := by
      have hmem := Draft.mem_census.2 ⟨n, hn⟩
      rw [hcensus, (census_ofStmt a f name).mem_iff, List.mem_cons, List.mem_cons] at hmem
      rcases hmem with heq | heq | hmem
      · exact (Prod.ext_iff.1 heq).2
      · exact (Prod.ext_iff.1 heq).2
      · have hinner := (a.skeleton f).inner_of_mem_census _ hmem
        exact (hk.elim hinner.1 hinner.2).elim
    exact Draft.eq_of_plays hnodup (hast ▸ hn) hm
  · rintro rfl
    obtain ⟨more, hmore, -⟩ := hgrows.kept n (Array.getElem?_eq_some_iff.1 hstart).1
    exact ⟨_, hmore.trans (congrArg _ hstart), rfl⟩

/-- The edges of every graph stay among its nodes. -/
lemma framed_of_mem_graphs {a : Ast} {g : Graph} (hg : g ∈ graphs a) : g.Framed := by
  obtain ⟨f, name, rfl⟩ := mem_graphs hg
  obtain ⟨d, hnodes, hedges, hgrows⟩ := grows_ofStmt f name (a.skeleton f)
  obtain ⟨new, hnew, hjoins⟩ := hgrows.edges
  have hle : 2 ≤ d.size := hgrows.size_le
  have hsource : ∀ e ∈ new, e.source = entryNode ∨ (2 ≤ e.source ∧ e.source < d.size) := fun e he =>
    (hjoins e he).source.symm.imp_left fun ⟨w, hw, hs, _⟩ => hs ▸ hw
  have htarget : ∀ e ∈ new, e.target = exitNode ∨ (2 ≤ e.target ∧ e.target < d.size) := fun e he =>
    (hjoins e he).target.symm
  have hnew : (Graph.ofStmt f name (a.skeleton f)).edges.toList = new := by
    rw [hedges, hnew]
    rfl
  refine ⟨fun n => kind_iff_of_start rfl (.inl rfl), fun n => kind_iff_of_start rfl (.inr rfl),
    fun e he => ?_, fun e he => ?_, fun e he => ?_⟩
  · have hs := hsource e (hnew ▸ he)
    have ht := htarget e (hnew ▸ he)
    rw [hnodes]
    simp only [Draft.size, entryNode, exitNode] at hs ht hle
    omega
  · have ht := htarget e (hnew ▸ he)
    simp only [entryNode, exitNode] at ht ⊢
    omega
  · have hs := hsource e (hnew ▸ he)
    simp only [entryNode, exitNode] at hs ⊢
    omega

/-- A graph has one entry and one exit. The nodes that are marked as reached are those to which a walk
leads from the entry, and the others are listed as dead code. -/
theorem graphs_reached {a : Ast} {g : Graph} (hg : g ∈ graphs a) :
    g.Framed ∧ (∀ n, n ∈ g.reached ↔ ∃ path, g.IsWalk entryNode path n) ∧
      ∀ n, n ∈ g.unreached ↔ n < g.nodes.size ∧ ¬ ∃ path, g.IsWalk entryNode path n := by
  have hframed := framed_of_mem_graphs hg
  have hreached : ∀ n, n ∈ g.reached ↔ ∃ path, g.IsWalk entryNode path n := fun n => Graph.mem_reached hframed
  refine ⟨hframed, hreached, fun n => ?_⟩
  rw [Graph.mem_unreached, hreached]

/-- The program `while (c) { break; while (d) x; }`. -/
def brokenLoop : Ast :=
  .ofForest "while (c) { break; while (d) x; }" <|
    .cons ⟨"program", none, "", 0, 33, 1⟩
      (.cons ⟨"while_statement", none, "", 0, 33, 1⟩
        (.cons ⟨"parenthesized_expression", some "condition", "", 6, 9, 1⟩
          (.cons ⟨"identifier", none, "c", 7, 8, 1⟩ .nil .nil)
          (.cons ⟨"statement_block", some "body", "", 10, 33, 1⟩
            (.cons ⟨"break_statement", none, "", 12, 18, 1⟩ .nil
              (.cons ⟨"while_statement", none, "", 19, 31, 1⟩
                (.cons ⟨"parenthesized_expression", some "condition", "", 25, 28, 1⟩
                  (.cons ⟨"identifier", none, "d", 26, 27, 1⟩ .nil .nil)
                  (.cons ⟨"expression_statement", some "body", "", 29, 31, 1⟩
                    (.cons ⟨"identifier", none, "x", 29, 30, 1⟩ .nil .nil) .nil)) .nil)) .nil)) .nil) .nil

/-- The graph of the program. -/
def brokenGraph : Graph := .ofStmt 0 Syntax.scriptName (brokenLoop.skeleton 0)

/-- The `break` is reached. The loop behind it, nodes 4 and 5, is dead, though its nodes have edges in. -/
theorem graphs_reached_brokenLoop :
    brokenGraph ∈ graphs brokenLoop ∧ brokenGraph.Framed ∧ 3 ∈ brokenGraph.reached ∧
      4 ∈ brokenGraph.unreached ∧ 5 ∈ brokenGraph.unreached := by
  have hg : brokenGraph ∈ graphs brokenLoop := by decide +kernel
  obtain ⟨hframed, hreached, hunreached⟩ := graphs_reached hg
  have hwalk : brokenGraph.IsWalk entryNode
      [⟨0, 2, .unconditional, none, none, false⟩, ⟨2, 3, .onTrue, some 3, none, false⟩] 3 := by decide +kernel
  -- The edges into the two nodes leave one of them.
  have hapart : ∀ e ∈ brokenGraph.edges.toList, e.target = 4 ∨ e.target = 5 →
      e.source = 4 ∨ e.source = 5 := by decide +kernel
  have hdead : ∀ n, n = 4 ∨ n = 5 → ¬ ∃ path, brokenGraph.IsWalk entryNode path n := by
    rintro n hn ⟨path, hpath⟩
    rcases hpath.enters (P := fun n => n = 4 ∨ n = 5) hn with ⟨hentry, -⟩ | ⟨_, e, _, _, he, hs, ht, -⟩
    · exact absurd hentry (by decide)
    · exact hs (hapart e he ht)
  exact ⟨hg, hframed, (hreached 3).2 ⟨_, hwalk⟩, (hunreached 4).2 ⟨by decide +kernel, hdead 4 (.inl rfl)⟩,
    (hunreached 5).2 ⟨by decide +kernel, hdead 5 (.inr rfl)⟩⟩

end Mend.Flow
