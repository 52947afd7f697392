import Mathlib.Tactic.Lemma
import Mend.Flow.Build

/-!
# Statements laid out

What the primitives of the graph builder do to the nodes, the edges and the open block of a draft, and how
each statement is laid out in terms of them (`layOut_branch`, `layOut_whileLoop` and so on). Later proofs
go by these equations; the numbers of new nodes are read off the size of the draft.
-/

namespace Mend.Flow

/-- A block with further statements. -/
def Node.extend (x : Node) (more : List Nat) : Node := { x with statements := x.statements ++ more }

/-- Nothing is added by no statements. -/
@[simp] lemma Node.extend_nil (x : Node) : x.extend [] = x := by
  simp [extend]

/-- Statements are added in turn. -/
lemma Node.extend_extend (x : Node) (l m : List Nat) : (x.extend l).extend m = x.extend (l ++ m) := by
  simp [extend]

namespace Draft

/-- The number of nodes. -/
def size (d : Draft) : Nat := d.nodes.size

/-- The numbers of the nodes that `d'` has and `d` has not. -/
def Added (d d' : Draft) (n : Nat) : Prop := d.size ≤ n ∧ n < d'.size

/-- The block `n` takes the next statement. -/
def reopen (d : Draft) (n : Nat) : Draft := { d with current := some n }

/-- The edge to the handler in force that a new node gets. -/
def handlerEdges (c : Context) (n : Nat) : List Edge :=
  c.handler.toList.map fun h => ⟨n, h, .exception, none, none, false⟩

variable (d : Draft) (c : Context) (kind : NodeKind) (ast n : Nat) (ways : List Way)

/-- Closing the open block changes no node. -/
@[simp] lemma nodes_close : d.close.nodes = d.nodes := rfl

/-- It changes no edge. -/
@[simp] lemma edges_close : d.close.edges = d.edges := rfl

/-- It leaves no block open. -/
@[simp] lemma current_close : d.close.current = none := rfl

/-- It adds no node. -/
@[simp] lemma size_close : d.close.size = d.size := rfl

/-- Opening a block again changes no node. -/
@[simp] lemma nodes_reopen : (d.reopen n).nodes = d.nodes := rfl

/-- It changes no edge. -/
@[simp] lemma edges_reopen : (d.reopen n).edges = d.edges := rfl

/-- It opens that block. -/
@[simp] lemma current_reopen : (d.reopen n).current = some n := rfl

/-- It adds no node. -/
@[simp] lemma size_reopen : (d.reopen n).size = d.size := rfl

/-- Connecting ways changes no node. -/
@[simp] lemma nodes_connect (b : Bool) : (d.connect ways n b).nodes = d.nodes := rfl

/-- It adds an edge for each of the ways, in order. -/
@[simp] lemma edges_connect (b : Bool) :
    (d.connect ways n b).edges.toList = d.edges.toList ++ ways.map (·.toEdge n b) := by
  simp [connect]

/-- It opens and closes no block. -/
@[simp] lemma current_connect (b : Bool) : (d.connect ways n b).current = d.current := rfl

/-- It adds no node. -/
@[simp] lemma size_connect (b : Bool) : (d.connect ways n b).size = d.size := rfl

/-- A new node has the next number. -/
@[simp] lemma addNode_snd : (d.addNode c kind ast).2 = d.size := by
  unfold addNode
  cases c.handler <;> rfl

/-- A new node comes last and holds no statements yet. -/
@[simp] lemma nodes_addNode : (d.addNode c kind ast).1.nodes = d.nodes.push ⟨kind, ast, []⟩ := by
  unfold addNode
  cases c.handler <;> rfl

/-- It comes with an edge to the handler in force, if there is one. -/
@[simp] lemma edges_addNode :
    (d.addNode c kind ast).1.edges.toList = d.edges.toList ++ handlerEdges c d.size := by
  unfold addNode
  cases h : c.handler <;> simp [handlerEdges, h, size]

/-- It is not the open block. -/
@[simp] lemma current_addNode : (d.addNode c kind ast).1.current = d.current := by
  unfold addNode
  cases c.handler <;> rfl

/-- It is one node more. -/
@[simp] lemma size_addNode : (d.addNode c kind ast).1.size = d.size + 1 := by
  simp [size]

/-- A target is a new node to which all ways are connected, with no block open. -/
lemma addTarget_fst : (d.addTarget c kind ast ways).1 =
    (d.close.addNode c kind ast).1.connect ways d.size false := by
  simp [addTarget]

/-- It has the next number. -/
@[simp] lemma addTarget_snd : (d.addTarget c kind ast ways).2 = d.size := by
  simp [addTarget]

/-- No block is open behind a target. -/
@[simp] lemma current_addTarget : (d.addTarget c kind ast ways).1.current = none := by
  simp [addTarget]

/-- It is one node more. -/
@[simp] lemma size_addTarget : (d.addTarget c kind ast ways).1.size = d.size + 1 := by
  simp [addTarget]

/-- It comes last and holds no statements yet. -/
@[simp] lemma nodes_addTarget :
    (d.addTarget c kind ast ways).1.nodes = d.nodes.push ⟨kind, ast, []⟩ := by
  simp [addTarget]

/-- A further statement in a block changes no edge. -/
@[simp] lemma edges_append : (d.append n ast).edges = d.edges := rfl

/-- The block stays open if it was. -/
@[simp] lemma current_append : (d.append n ast).current = d.current := rfl

/-- There are as many nodes as before. -/
@[simp] lemma size_append : (d.append n ast).size = d.size := by
  simp [append, size]

/-- Of all nodes only the block gets the statement. -/
lemma getElem?_append (m : Nat) :
    (d.append n ast).nodes[m]? =
      if m = n then (d.nodes[m]?).map (·.extend [ast]) else d.nodes[m]? := by
  simp only [append, Array.getElem?_modify, Node.extend, eq_comm]

/-- There is a block for the next statement if the only way leads straight on from the current one. -/
lemma openBlock?_eq_some {block : Nat} (h : d.openBlock? ways = some block) :
    d.current = some block ∧ ∃ way, ways = [way] ∧ way.source = block ∧ way.kind = .unconditional := by
  unfold openBlock? at h
  split at h
  · next way =>
    obtain ⟨hc, hw⟩ := Option.filter_eq_some_iff.1 h
    rw [Bool.and_eq_true, beq_iff_eq, beq_iff_eq] at hw
    exact ⟨hc, way, rfl, hw⟩
  · cases h

/-- A statement that goes to no open block gets a new one. -/
lemma plain_of_openBlock?_eq_none (h : d.openBlock? ways = none) :
    d.plain c ast ways =
      ((((d.addNode c .block ast).1.append d.size ast).connect ways d.size false).reopen d.size,
        [.plain d.size]) := by
  simp only [plain, h, addNode_snd]
  rfl

/-- A plain statement goes into the open block if there is one to take it. -/
lemma plain_of_openBlock?_eq_some {block : Nat} (h : d.openBlock? ways = some block) :
    d.plain c ast ways = (d.append block ast, ways) := by
  simp only [plain, h]

end Draft

namespace Layout

/-- The breaks that the frame at `depth` takes. -/
def breaks (l : Layout) (depth : Nat) : List Way := (l.take depth).1

/-- The continues that the frame at `depth` takes. -/
def continues (l : Layout) (depth : Nat) : List Way := (l.take depth).2.1

/-- The jumps that the frame at `depth` lets pass. -/
def passing (l : Layout) (depth : Nat) : List Jump := (l.take depth).2.2.jumps

/-- The breaks at a depth are the ways of the jumps to it that leave. -/
lemma mem_breaks {l : Layout} {depth : Nat} {w : Way} :
    w ∈ l.breaks depth ↔ ∃ j ∈ l.jumps, j.depth = depth ∧ j.isContinue = false ∧ j.way = w := by
  simp [breaks, take, and_assoc, and_left_comm]

/-- The continues at a depth are the ways of the jumps to it that go on. -/
lemma mem_continues {l : Layout} {depth : Nat} {w : Way} :
    w ∈ l.continues depth ↔ ∃ j ∈ l.jumps, j.depth = depth ∧ j.isContinue = true ∧ j.way = w := by
  simp [continues, take, and_assoc, and_left_comm]

/-- Passing jumps are those to another depth. -/
lemma mem_passing {l : Layout} {depth : Nat} {j : Jump} :
    j ∈ l.passing depth ↔ j ∈ l.jumps ∧ j.depth ≠ depth := by
  simp [passing, take]

/-- Passing jumps are among the jumps. -/
lemma passing_subset (l : Layout) (depth : Nat) : l.passing depth ⊆ l.jumps :=
  fun _ hj => (mem_passing.1 hj).1

end Layout

/-- Lays out a part that may be missing and that control only passes through. -/
def Draft.plain? (d : Draft) (c : Context) (part : Option Nat) (ways : List Way) : Draft × List Way :=
  part.elim (d, ways) fun ast => d.plain c ast ways

/-- Adds the node of a `catch` or `finally` clause, if there is one. -/
def Draft.addClause (d : Draft) (c : Context) (clause : Option Nat) : Draft × Option Nat :=
  clause.elim (d, none) fun ast => ((d.addNode c .handler ast).1, some d.size)

/-- A clause opens and closes no block. -/
@[simp] lemma Draft.current_addClause (d : Draft) (c : Context) (clause : Option Nat) :
    (d.addClause c clause).1.current = d.current := by
  cases clause <;> simp [addClause]

/-- There is a node for a clause if there is a clause. -/
lemma Draft.isSome_addClause (d : Draft) (c : Context) (clause : Option Nat) :
    (d.addClause c clause).2.isSome = clause.isSome := by
  cases clause <;> rfl

/-- Lays out the body of a clause behind the node of the clause, if there is one. -/
def Stmt.layOutClause (c : Context) (body : Stmt) (l : Layout) : Option Nat → Layout
  | some n =>
    let k := body.layOut c l.draft.close [.plain n]
    ⟨k.draft, l.outs ++ k.outs, l.jumps ++ k.jumps⟩
  | none => l

/-- Connects the ways out to the node of a clause, if there is one. -/
def Layout.into (l : Layout) : Option Nat → Layout
  | some n => ⟨l.draft.connect l.outs n false, [], l.jumps⟩
  | none => l

/-- Going on inside a clause adds no node. -/
@[simp] lemma Layout.size_into (l : Layout) (clause : Option Nat) :
    (l.into clause).draft.size = l.draft.size := by
  cases clause <;> rfl

section

variable (c : Context) (d : Draft) (ways : List Way) (node : Nat) (label : Option String)
  (condition : Option Nat) (body : Stmt)

/-- How an `if` is laid out. -/
lemma layOut_branch (onTrue onFalse : Stmt) :
    (Stmt.branch node condition onTrue onFalse).layOut c d ways =
      let t := onTrue.layOut c (d.addTarget c .branch node ways).1 [.guarded d.size .onTrue condition]
      let f := onFalse.layOut c t.draft.close [.guarded d.size .onFalse condition]
      ⟨f.draft.close, t.outs ++ f.outs, t.jumps ++ f.jumps⟩ := by
  rw [Stmt.layOut]
  simp only [Draft.addTarget_snd]

/-- How a `while` loop is laid out. -/
lemma layOut_whileLoop :
    (Stmt.whileLoop node label condition body).layOut c d ways =
      let l := body.layOut (c.enter ⟨label, true, true⟩) (d.addTarget c .branch node ways).1
        [.guarded d.size .onTrue condition]
      ⟨((l.draft.connect l.outs d.size true).connect (l.continues c.frames.length) d.size true).close,
        .guarded d.size .onFalse condition :: l.breaks c.frames.length,
        l.passing c.frames.length⟩ := by
  rw [Stmt.layOut]
  simp only [Draft.addTarget_snd]
  rfl

/-- How a `do` loop is laid out. -/
lemma layOut_doLoop :
    (Stmt.doLoop node label condition body).layOut c d ways =
      let l := body.layOut (c.enter ⟨label, true, true⟩) (d.addTarget c .loopHead node ways).1
        [.plain d.size]
      let test := l.draft.size
      ⟨(((l.draft.addTarget c .branch (condition.getD node) l.outs).1.connect
          (l.continues c.frames.length) test false).connect
          [.guarded test .onTrue condition] d.size true).close,
        .guarded test .onFalse condition :: l.breaks c.frames.length,
        l.passing c.frames.length⟩ := by
  rw [Stmt.layOut]
  simp only [Draft.addTarget_snd]
  rfl

/-- How a `for` loop with three parts is laid out. -/
lemma layOut_forLoop (start step : Option Nat) :
    (Stmt.forLoop node label start condition step body).layOut c d ways =
      let p := d.plain? c start ways
      let head := p.1.size
      let l := body.layOut (c.enter ⟨label, true, true⟩)
        (p.1.addTarget c (if condition.isSome then .branch else .loopHead) node p.2).1
        [if condition.isSome then .guarded head .onTrue condition else .plain head]
      let q := l.draft.close.plain? c step (l.outs ++ l.continues c.frames.length)
      ⟨(q.1.connect q.2 head true).close,
        (if condition.isSome then [.guarded head .onFalse condition] else []) ++
          l.breaks c.frames.length,
        l.passing c.frames.length⟩ := by
  cases start <;> cases step <;> cases condition <;> rw [Stmt.layOut] <;>
    simp only [Draft.addTarget_snd] <;> rfl

/-- How a `for` loop over something is laid out. -/
lemma layOut_forEach (iterated : Option Nat) :
    (Stmt.forEach node label iterated body).layOut c d ways =
      let l := body.layOut (c.enter ⟨label, true, true⟩) (d.addTarget c .branch node ways).1
        [.guarded d.size .onTrue iterated]
      ⟨((l.draft.connect l.outs d.size true).connect (l.continues c.frames.length) d.size true).close,
        .guarded d.size .onFalse iterated :: l.breaks c.frames.length,
        l.passing c.frames.length⟩ := by
  rw [Stmt.layOut]
  simp only [Draft.addTarget_snd]
  rfl

/-- How a `switch` is laid out. -/
lemma layOut_switch (selector : Option Nat) (clauses : Clauses) :
    (Stmt.switch node selector clauses).layOut c d ways =
      let l := clauses.layOut (c.enter ⟨none, false, true⟩) d.size selector
        (d.addTarget c .branch node ways).1 []
      ⟨l.draft.close,
        l.outs ++ (if clauses.hasDefault then [] else [.guarded d.size .onDefault selector]) ++
          l.breaks c.frames.length,
        l.passing c.frames.length⟩ := by
  rw [Stmt.layOut]
  simp only [Draft.addTarget_snd]
  rfl

/-- How a `try` with its clauses is laid out. -/
lemma layOut_tryCatch (catchNode finallyNode : Option Nat) (catchBody finallyBody : Stmt) :
    (Stmt.tryCatch node body catchNode catchBody finallyNode finallyBody).layOut c d ways =
      let catcher := d.close.addClause c catchNode
      let finisher := catcher.1.addClause c finallyNode
      let b := body.layOut { c with handler := some ((catcher.2.or finisher.2).getD exitNode) }
        finisher.1 ways
      let k := catchBody.layOutClause { c with handler := finisher.2.or c.handler } b catcher.2
      let f := finallyBody.layOutClause c (k.into finisher.2) finisher.2
      ⟨f.draft.close, f.outs, f.jumps⟩ := by
  rw [Stmt.layOut]
  cases catchNode <;> cases finallyNode <;>
    simp [Stmt.layOutClause, Draft.addClause, Layout.into]

/-- How a statement with a label is laid out. -/
lemma layOut_labelled :
    (Stmt.labelled node label body).layOut c d ways =
      let l := body.layOut (c.enter ⟨label, false, false⟩) d.close ways
      ⟨l.draft.close, l.outs ++ l.breaks c.frames.length, l.passing c.frames.length⟩ := by
  rw [Stmt.layOut]
  rfl

end

/-- The draft that a graph starts from: the entry and the exit. -/
def Draft.start (f : Nat) : Draft := ⟨#[⟨.entry, f, []⟩, ⟨.exit, f, []⟩], #[], none⟩

/-- Every graph is built from the skeleton of a function or of the script. -/
lemma mem_graphs {a : Syntax.Ast} {g : Graph} (h : g ∈ graphs a) :
    ∃ f name, g = .ofStmt f name (a.skeleton f) := by
  unfold graphs at h
  split at h
  · cases h
  · rcases List.mem_cons.1 h with rfl | h
    · exact ⟨_, _, rfl⟩
    · obtain ⟨f, -, rfl⟩ := List.mem_map.1 h
      exact ⟨f, _, rfl⟩

end Mend.Flow
