import Mend.Syntax.Naming

/-!
# Control skeletons

What the control flow of a function depends on: its statements, with the nesting of branches, loops,
`switch` and `try` statements, labels and jumps. The skeleton of a function is read off its tree; nested
functions count as plain parts of the statement they stand in. Blocks leave no trace of their own: a
block is the sequence of its statements, and a part that is missing is the empty sequence.
-/

namespace Mend.Flow

open Syntax (Ast)

mutual

/-- A statement by its effect on control. The numbers are those of the syntax nodes. -/
inductive Stmt where
  /-- Nothing. -/
  | skip
  | seq (first rest : Stmt)
  /-- A statement that control only passes through. -/
  | plain (node : Nat)
  | ret (node : Nat)
  | throw (node : Nat)
  /-- `break` or `continue`, with or without a label. -/
  | jump (node : Nat) (isContinue : Bool) (label : Option String)
  | branch (node : Nat) (condition : Option Nat) (onTrue onFalse : Stmt)
  | whileLoop (node : Nat) (label : Option String) (condition : Option Nat) (body : Stmt)
  | doLoop (node : Nat) (label : Option String) (condition : Option Nat) (body : Stmt)
  | forLoop (node : Nat) (label : Option String) (start condition step : Option Nat) (body : Stmt)
  /-- A loop over the keys or members of something. -/
  | forEach (node : Nat) (label : Option String) (iterated : Option Nat) (body : Stmt)
  | switch (node : Nat) (selector : Option Nat) (clauses : Clauses)
  /-- The clauses are given by their nodes, if they are there. -/
  | tryCatch (node : Nat) (body : Stmt) (catchNode : Option Nat) (catchBody : Stmt)
      (finallyNode : Option Nat) (finallyBody : Stmt)
  /-- A labelled statement that is no loop. -/
  | labelled (node : Nat) (label : Option String) (body : Stmt)

/-- The clauses of a `switch` statement. -/
inductive Clauses where
  | nil
  | onCase (value : Option Nat) (body : Stmt) (rest : Clauses)
  | onDefault (body : Stmt) (rest : Clauses)
  /-- Something that is no clause: control does not fall through it. -/
  | gap (rest : Clauses)

end

deriving instance Repr for Stmt, Clauses
deriving instance Inhabited for Stmt, Clauses

namespace Stmt

/-- One statement after the other. -/
def ofList : List Stmt → Stmt
  | [] => skip
  | s :: rest => seq s (ofList rest)

end Stmt

end Mend.Flow

namespace Mend.Syntax.Ast

open Mend.Flow (Stmt Clauses)

/-- The condition of a statement, out of its parentheses. -/
def condition? (a : Ast) (i : Nat) : Option Nat := do
  let c ← a.child? i "condition"
  match a.kind c with
  | "expression_statement" => (a.firstChild? c).map a.unparen
  | "empty_statement" => none
  | _ => some (a.unparen c)

/-- What a `for` statement does before it starts. -/
def loopStart? (a : Ast) (i : Nat) : Option Nat :=
  (a.child? i "initializer").filter fun start => a.kind start != "empty_statement"

/-- The label that a statement carries or a jump names. -/
def labelText? (a : Ast) (i : Nat) : Option String := (a.child? i "label").map a.label

/-- The kinds of loop. -/
def loopKinds : List String :=
  ["for_statement", "for_in_statement", "while_statement", "do_statement"]

/-- The skeleton of a statement that carries `label` if it is a loop. -/
def stmt (a : Ast) (i : Nat) (label : Option String) : Stmt :=
  let part (role : String) (label : Option String) : Stmt :=
    match _h : a.child? i role with
    | some c => a.stmt c label
    | none => .skip
  let clauseBody (role : String) : Stmt :=
    match _h : a.child? i role with
    | some clause =>
      match _h' : a.child? clause "body" with
      | some body => a.stmt body none
      | none => .skip
    | none => .skip
  match a.kind i with
  | "statement_block" => .ofList ((a.children i).attach.map fun c => a.stmt c.1 none)
  | "if_statement" =>
    let otherwise : Stmt :=
      match _h : a.child? i "alternative" with
      | some clause =>
        match _h' : a.firstChild? clause with
        | some c => a.stmt c none
        | none => .skip
      | none => .skip
    .branch i (a.condition? i) (part "consequence" none) otherwise
  | "while_statement" => .whileLoop i label (a.condition? i) (part "body" none)
  | "do_statement" => .doLoop i label (a.condition? i) (part "body" none)
  | "for_statement" =>
    .forLoop i label (a.loopStart? i) (a.condition? i) (a.child? i "increment") (part "body" none)
  | "for_in_statement" =>
    .forEach i label ((a.child? i "right").map a.unparen) (part "body" none)
  | "switch_statement" =>
    let clauses : Clauses :=
      match _h : a.child? i "body" with
      | none => .nil
      | some body =>
        (a.children body).attach.foldr (fun clause rest =>
          let statements := Stmt.ofList
            ((a.children clause.1).attach.map fun c =>
              if a.field? c.1 == some "value" then .skip else a.stmt c.1 none)
          match a.kind clause.1 with
          | "switch_case" => .onCase (a.child? clause.1 "value") statements rest
          | "switch_default" => .onDefault statements rest
          | _ => .gap rest) .nil
    .switch i ((a.child? i "value").map a.unparen) clauses
  | "try_statement" =>
    .tryCatch i (part "body" none) (a.child? i "handler") (clauseBody "handler")
      (a.child? i "finalizer") (clauseBody "finalizer")
  | "labeled_statement" =>
    if ((a.child? i "body").map a.kind).any loopKinds.contains then
      part "body" (a.labelText? i)
    else .labelled i (a.labelText? i) (part "body" none)
  | "return_statement" => .ret i
  | "throw_statement" => .throw i
  | "break_statement" => .jump i false (a.labelText? i)
  | "continue_statement" => .jump i true (a.labelText? i)
  | _ => .plain i
termination_by a.size - i
decreasing_by
  · have := child?_bounds _h
    omega
  · have := child?_bounds _h
    have := child?_bounds _h'
    omega
  · have := mem_children c.2
    omega
  · have := child?_bounds _h
    have := firstChild?_bounds _h'
    omega
  · have := child?_bounds _h
    have := mem_children clause.2
    have := mem_children c.2
    omega

/-- The skeleton of a function's body, or of the script. The body of an arrow function may be an
expression. -/
def skeleton (a : Ast) (function : Nat) : Stmt :=
  if a.isFunction function then
    match a.functionBody? function with
    | some body => if a.kind body = "statement_block" then a.stmt body none else .plain body
    | none => .skip
  else .ofList ((a.children function).map fun c => a.stmt c none)

end Mend.Syntax.Ast
