import Mend.Flow.Graph
import Mend.Flow.Stmt

/-!
# From skeletons to graphs

A statement is laid out between the ways that lead into it and the ways that lead out. Ways are edges
whose target is not known yet; whoever comes next connects them. Graphs only grow: nodes and edges are
added at the end, and the only node that still changes is the block that takes further statements.

Jumps are handed outwards until the construct takes them that they leave. What a construct offers to
jumps is its frame; a jump goes to the innermost frame that accepts it, and where there is none control
simply goes on. Inside a `try` statement every node gets an edge to the handler in force, which is the
catch clause, else the finally clause, for the body, and the finally clause for the catch clause.
-/

namespace Mend.Flow

/-- A way out of a node that is not connected yet. -/
structure Way where
  source : Nat
  kind : EdgeKind
  condition : Option Nat
  caseValue : Option Nat
  deriving DecidableEq, Repr

namespace Way

/-- The way on from a node. -/
def plain (source : Nat) : Way := ⟨source, .unconditional, none, none⟩

/-- The way that is taken under a condition. -/
def guarded (source : Nat) (kind : EdgeKind) (condition : Option Nat) : Way :=
  ⟨source, kind, condition, none⟩

/-- The edge that a way becomes. -/
def toEdge (w : Way) (target : Nat) (isBack : Bool) : Edge :=
  ⟨w.source, target, w.kind, w.condition, w.caseValue, isBack⟩

end Way

/-- What a construct offers to jumps. -/
structure Frame where
  label : Option String
  isLoop : Bool
  /-- Whether a `break` without label leaves the construct. -/
  takesBreak : Bool
  deriving DecidableEq, Repr

/-- Whether a jump is meant for a frame. -/
def Frame.accepts (f : Frame) (isContinue : Bool) : Option String → Bool
  | some label => f.label == some label
  | none => if isContinue then f.isLoop else f.takesBreak

/-- A jump on its way out to the frame that stands at `depth`, counted from the outside. -/
structure Jump where
  depth : Nat
  isContinue : Bool
  way : Way
  deriving DecidableEq, Repr

/-- What stands around a statement. -/
structure Context where
  /-- The node that exceptions go to. -/
  handler : Option Nat
  /-- The frames, innermost first. -/
  frames : List Frame

namespace Context

/-- The context inside a construct with a frame. -/
def enter (c : Context) (f : Frame) : Context := { c with frames := f :: c.frames }

/-- The depth of the frame that takes a jump. -/
def target? (c : Context) (isContinue : Bool) (label : Option String) : Option Nat :=
  (c.frames.findIdx? (·.accepts isContinue label)).map fun i => c.frames.length - 1 - i

end Context

/-- A graph in the making. -/
structure Draft where
  nodes : Array Node
  edges : Array Edge
  /-- The block that takes the next statement, if control goes straight on from it. -/
  current : Option Nat

/-- A statement laid out: the graph so far, the ways out, and the jumps that are still under way. -/
structure Layout where
  draft : Draft
  outs : List Way
  jumps : List Jump

namespace Draft

/-- No block takes the next statement. -/
def close (d : Draft) : Draft := { d with current := none }

/-- Adds a node, with its edge to the handler in force. The answer is the new node's number. -/
def addNode (d : Draft) (c : Context) (kind : NodeKind) (ast : Nat) : Draft × Nat :=
  let n := d.nodes.size
  let nodes := d.nodes.push ⟨kind, ast, []⟩
  match c.handler with
  | some handler => ({ d with nodes, edges := d.edges.push ⟨n, handler, .exception, none, none, false⟩ }, n)
  | none => ({ d with nodes }, n)

/-- Connects ways to a node. -/
def connect (d : Draft) (ways : List Way) (target : Nat) (isBack : Bool) : Draft :=
  { d with edges := d.edges ++ (ways.map (·.toEdge target isBack)).toArray }

/-- Adds a node that all `ways` lead to. -/
def addTarget (d : Draft) (c : Context) (kind : NodeKind) (ast : Nat) (ways : List Way) :
    Draft × Nat :=
  let (d, n) := d.close.addNode c kind ast
  (d.connect ways n false, n)

/-- Adds a statement to the end of a block. -/
def append (d : Draft) (block ast : Nat) : Draft :=
  { d with nodes := d.nodes.modify block fun n => { n with statements := n.statements ++ [ast] } }

/-- The block that the next statement belongs to: there is one if control goes from it straight on to the
statement and comes from nowhere else. -/
def openBlock? (d : Draft) : List Way → Option Nat
  | [way] => d.current.filter fun block => way.source == block && way.kind == .unconditional
  | _ => none

/-- Lays out a statement that control only passes through. -/
def plain (d : Draft) (c : Context) (ast : Nat) (ways : List Way) : Draft × List Way :=
  match d.openBlock? ways with
  | some block => (d.append block ast, ways)
  | none =>
    let (d, n) := d.addNode c .block ast
    ({ (d.append n ast).connect ways n false with current := some n }, [.plain n])

end Draft

namespace Layout

/-- Splits off the jumps that the frame at `depth` takes: its breaks, its continues, and the layout with
the jumps that go further. -/
def take (l : Layout) (depth : Nat) : List Way × List Way × Layout :=
  let mine := l.jumps.filter (·.depth == depth)
  let way (isContinue : Bool) := (mine.filter (·.isContinue == isContinue)).map (·.way)
  (way false, way true, { l with jumps := l.jumps.filter (·.depth != depth) })

end Layout

mutual

/-- Lays out a statement that `ways` lead into. -/
def Stmt.layOut (c : Context) : Stmt → Draft → List Way → Layout
  | .skip, d, ways => ⟨d, ways, []⟩
  | .seq first rest, d, ways =>
    let l := first.layOut c d ways
    let r := rest.layOut c l.draft l.outs
    ⟨r.draft, r.outs, l.jumps ++ r.jumps⟩
  | .plain node, d, ways =>
    let (d, outs) := d.plain c node ways
    ⟨d, outs, []⟩
  | .ret node, d, ways =>
    let (d, outs) := d.plain c node ways
    ⟨(d.connect outs exitNode false).close, [], []⟩
  | .throw node, d, ways =>
    let (d, outs) := d.plain c node ways
    let thrown := if c.handler.isSome then [] else outs.map fun w => .guarded w.source .exception none
    ⟨(d.connect thrown exitNode false).close, [], []⟩
  | .jump node isContinue label, d, ways =>
    let (d, outs) := d.plain c node ways
    match c.target? isContinue label with
    | some depth => ⟨d.close, [], outs.map fun way => ⟨depth, isContinue, way⟩⟩
    | none => ⟨d.close, outs, []⟩
  | .branch node condition onTrue onFalse, d, ways =>
    let (d, branch) := d.addTarget c .branch node ways
    let t := onTrue.layOut c d [.guarded branch .onTrue condition]
    let f := onFalse.layOut c t.draft.close [.guarded branch .onFalse condition]
    ⟨f.draft.close, t.outs ++ f.outs, t.jumps ++ f.jumps⟩
  | .whileLoop node label condition body, d, ways =>
    let (d, head) := d.addTarget c .branch node ways
    let inner := c.enter ⟨label, true, true⟩
    let (breaks, continues, b) :=
      (body.layOut inner d [.guarded head .onTrue condition]).take c.frames.length
    let d := (b.draft.connect b.outs head true).connect continues head true
    ⟨d.close, .guarded head .onFalse condition :: breaks, b.jumps⟩
  | .doLoop node label condition body, d, ways =>
    let (d, head) := d.addTarget c .loopHead node ways
    let inner := c.enter ⟨label, true, true⟩
    let (breaks, continues, b) := (body.layOut inner d [.plain head]).take c.frames.length
    let (d, test) := b.draft.addTarget c .branch (condition.getD node) b.outs
    let d := (d.connect continues test false).connect [.guarded test .onTrue condition] head true
    ⟨d.close, .guarded test .onFalse condition :: breaks, b.jumps⟩
  | .forLoop node label start condition step body, d, ways =>
    let (d, ways) := match start with
      | some init => d.plain c init ways
      | none => (d, ways)
    let (d, head) := d.addTarget c (if condition.isSome then .branch else .loopHead) node ways
    let into : Way :=
      if condition.isSome then .guarded head .onTrue condition else .plain head
    let inner := c.enter ⟨label, true, true⟩
    let (breaks, continues, b) := (body.layOut inner d [into]).take c.frames.length
    let d := match step with
      | some s =>
        let (d, outs) := b.draft.close.plain c s (b.outs ++ continues)
        d.close.connect outs head true
      | none => b.draft.connect (b.outs ++ continues) head true
    let outs := if condition.isSome then .guarded head .onFalse condition :: breaks else breaks
    ⟨d.close, outs, b.jumps⟩
  | .forEach node label iterated body, d, ways =>
    let (d, head) := d.addTarget c .branch node ways
    let inner := c.enter ⟨label, true, true⟩
    let (breaks, continues, b) :=
      (body.layOut inner d [.guarded head .onTrue iterated]).take c.frames.length
    let d := (b.draft.connect b.outs head true).connect continues head true
    ⟨d.close, .guarded head .onFalse iterated :: breaks, b.jumps⟩
  | .switch node selector clauses, d, ways =>
    let (d, branch) := d.addTarget c .branch node ways
    let inner := c.enter ⟨none, false, true⟩
    let (breaks, _, b) := (clauses.layOut inner branch selector d []).take c.frames.length
    let missed := if clauses.hasDefault then [] else [.guarded branch .onDefault selector]
    ⟨b.draft.close, b.outs ++ missed ++ breaks, b.jumps⟩
  | .tryCatch _ body catchNode catchBody finallyNode finallyBody, d, ways =>
    let add (d : Draft) (clause : Option Nat) : Draft × Option Nat :=
      match clause with
      | some ast => let (d, n) := d.addNode c .handler ast; (d, some n)
      | none => (d, none)
    let (d, catcher) := add d.close catchNode
    let (d, finisher) := add d finallyNode
    let target := (catcher.or finisher).getD exitNode
    let b := body.layOut { c with handler := some target } d ways
    let b : Layout := match catcher with
      | some n =>
        let k := catchBody.layOut { c with handler := finisher.or c.handler } b.draft.close [.plain n]
        ⟨k.draft, b.outs ++ k.outs, b.jumps ++ k.jumps⟩
      | none => b
    match finisher with
    | some n =>
      let k := finallyBody.layOut c (b.draft.connect b.outs n false).close [.plain n]
      ⟨k.draft.close, k.outs, b.jumps ++ k.jumps⟩
    | none => ⟨b.draft.close, b.outs, b.jumps⟩
  | .labelled _ label body, d, ways =>
    let inner := c.enter ⟨label, false, false⟩
    let (breaks, _, b) := (body.layOut inner d.close ways).take c.frames.length
    ⟨b.draft.close, b.outs ++ breaks, b.jumps⟩

/-- Lays out the clauses of a `switch` statement, of which `falling` lead into the first from the clause
before it. -/
def Clauses.layOut (c : Context) (branch : Nat) (selector : Option Nat) :
    Clauses → Draft → List Way → Layout
  | .nil, d, falling => ⟨d, falling, []⟩
  | .onCase value body rest, d, falling =>
    let way : Way := ⟨branch, .onCase, selector, value⟩
    let l := body.layOut c d.close (falling ++ [way])
    let r := rest.layOut c branch selector l.draft l.outs
    ⟨r.draft, r.outs, l.jumps ++ r.jumps⟩
  | .onDefault body rest, d, falling =>
    let l := body.layOut c d.close (falling ++ [.guarded branch .onDefault selector])
    let r := rest.layOut c branch selector l.draft l.outs
    ⟨r.draft, r.outs, l.jumps ++ r.jumps⟩
  | .gap rest, d, _ => rest.layOut c branch selector d []

/-- Whether one of the clauses is the default. -/
def Clauses.hasDefault : Clauses → Bool
  | .nil => false
  | .onCase _ _ rest => rest.hasDefault
  | .onDefault .. => true
  | .gap rest => rest.hasDefault

end

/-- The graph of a skeleton: an entry, an exit, and the statement between them. -/
def Graph.ofStmt (function : Nat) (name : String) (s : Stmt) : Graph :=
  let start : Draft := ⟨#[⟨.entry, function, []⟩, ⟨.exit, function, []⟩], #[], none⟩
  let l := s.layOut ⟨none, []⟩ start [.plain entryNode]
  let d := l.draft.connect l.outs exitNode false
  ⟨function, name, d.nodes, d.edges⟩

/-- The graph of the script and then one per function, in the order of the file. -/
def graphs (a : Syntax.Ast) : List Graph :=
  match a.root? with
  | none => []
  | some root =>
    .ofStmt root Syntax.scriptName (a.skeleton root) ::
      (a.ids.filter a.isFunction).map fun f => .ofStmt f (a.functionName f) (a.skeleton f)

end Mend.Flow
