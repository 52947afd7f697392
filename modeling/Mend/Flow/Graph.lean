import Mend.Change
import Mend.Reachable
import Mend.Revision

/-!
# Control-flow graphs

A flow graph has one entry and one exit, blocks of statements that follow each other, branches that
evaluate a condition or a selector, heads of loops without a condition in front, and handlers that start a
`catch` or `finally` clause. It is a shape over the numbers of syntax nodes; change labels come from a
revision, so that two programs with one tree have one graph.

Edges are in the order in which the graph was built, and several may join the same nodes.
-/

namespace Mend.Flow

/-- What a flow node stands for. -/
inductive NodeKind where
  | entry
  | exit
  /-- Statements that follow each other. -/
  | block
  /-- The evaluation of a condition or selector. -/
  | branch
  /-- The head of a loop without a condition in front. -/
  | loopHead
  /-- The start of a `catch` or `finally` clause. -/
  | handler
  deriving DecidableEq, Repr, Inhabited

/-- The name of a kind of flow node. -/
def NodeKind.text : NodeKind → String
  | entry => "Entry"
  | exit => "Exit"
  | block => "Block"
  | branch => "Branch"
  | loopHead => "LoopHead"
  | handler => "Handler"

/-- A flow node. -/
structure Node where
  kind : NodeKind
  /-- The syntax node it stands for: the function, the statement, the condition or the clause. -/
  ast : Nat
  /-- The statements of a block, in order. -/
  statements : List Nat
  deriving DecidableEq, Repr, Inhabited

/-- When an edge is taken. -/
inductive EdgeKind where
  | unconditional
  /-- The condition holds. -/
  | onTrue
  /-- The condition fails. -/
  | onFalse
  /-- The selector equals the value of a case. -/
  | onCase
  /-- The selector equals no case. -/
  | onDefault
  /-- Something was thrown. -/
  | exception
  deriving DecidableEq, Repr, Inhabited

/-- The name of a kind of edge. -/
def EdgeKind.text : EdgeKind → String
  | unconditional => "Unconditional"
  | onTrue => "True"
  | onFalse => "False"
  | onCase => "Case"
  | onDefault => "Default"
  | exception => "Exception"

/-- An edge between two flow nodes. -/
structure Edge where
  source : Nat
  target : Nat
  kind : EdgeKind
  /-- The condition or selector. -/
  condition : Option Nat
  /-- The value of a case. -/
  caseValue : Option Nat
  /-- Whether the edge closes a loop. -/
  isBack : Bool
  deriving DecidableEq, Repr, Inhabited

/-- The number of the entry. -/
def entryNode : Nat := 0

/-- The number of the exit. -/
def exitNode : Nat := 1

/-- The flow graph of one function, or of the script. -/
structure Graph where
  /-- The syntax node of the function, or the root. -/
  function : Nat
  name : String
  nodes : Array Node
  edges : Array Edge
  deriving DecidableEq, Repr

namespace Graph

variable (g : Graph)

/-- The numbers of all nodes. -/
def nodeIds : List Nat := List.range g.nodes.size

/-- The targets of the edges that leave a node. -/
def successors (n : Nat) : List Nat :=
  (g.edges.toList.filter (·.source == n)).map (·.target)

/-- The nodes that control can reach from the entry. -/
def reached : List Nat := reachable g.successors g.nodes.size entryNode

/-- The nodes that control cannot reach. -/
def unreached : List Nat :=
  let reached := g.reached
  g.nodeIds.filter fun n => !reached.contains n

/-- The nodes that stand for a syntax node or hold it as a statement. -/
def nodesFor (ast : Nat) : List Nat :=
  g.nodeIds.filter fun n =>
    match g.nodes[n]? with
    | some node => node.ast == ast || node.statements.contains ast
    | none => false

/-- The label of a node: that of its syntax node. A block has the common label of its statements, and is
updated if they have none in common. -/
def nodeChange (r : Revision) (node : Node) : Change :=
  match node.kind, node.statements with
  | .block, first :: others =>
    if others.all fun s => r.change s == r.change first then r.change first else .updated
  | _, _ => r.change node.ast

/-- The label of an edge: that of its condition; without one, the edge is inserted or removed with one
of its ends. -/
def edgeChange (r : Revision) (e : Edge) : Change :=
  match e.condition with
  | some condition => r.change condition
  | none =>
    let ends := [e.source, e.target].map fun n => (g.nodes[n]?).elim .unknown (nodeChange r)
    if ends.contains .inserted then .inserted
    else if ends.contains .removed then .removed
    else .unchanged

end Graph

end Mend.Flow
