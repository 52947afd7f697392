import Mend.Detector.Basic

/-!
# Callback errors added

The first parameter of a function often is a callback that takes errors. Finds functions that were there
before the repair and now call their first parameter where they did not.
-/

namespace Mend

open Syntax (Ast)

namespace Detector

/-- Whether a node is an inserted call of the plain name `callback`. -/
def isInsertedCallOf (r : Revision) (callback : String) (i : Nat) : Bool :=
  r.kind i == "call_expression" && r.change i == .inserted &&
    ((r.child? i "function").map r.unparen).any fun target =>
      r.kind target == "identifier" && r.label target == callback

/-- The inserted calls of a function's parameter `callback` in its body. Nested functions that declare
the name themselves do not count. -/
def insertedCalls (x : Analysis) (function : Nat) (callback : String) : List Nat :=
  let r := x.comparison.repaired
  let scopes := x.repairedScopes
  let hides (i : Nat) : Bool :=
    (scopes.scopeOf? i).any fun s => (scopes.declaration? s callback).isSome
  match r.functionBody? function with
  | none => []
  | some body =>
    (r.reach (fun i => !r.isFunction i || !hides i) body).filter fun i =>
      !r.isFunction i && isInsertedCallOf r callback i

/-- What is found in a repaired scope. -/
def newlyCalled (x : Analysis) (new : Nat) : List Finding :=
  let r := x.comparison.repaired
  match x.repairedScopes.owner? new with
  | none => []
  | some function =>
    if r.isFunction function && x.isOld function then
      match r.firstParameterName? function with
      | none => []
      | some callback =>
        match (insertedCalls x function callback).min? with
        | some call => [x.finding new (r.line call) (.callbackErrorAdded callback)]
        | none => []
    else []

/-- Finds functions that newly call their error callback. -/
def callbackError : Detector where
  name := "callback-error"
  inScopes x pair :=
    match pair.buggy, pair.repaired with
    | some _, some new => newlyCalled x new
    | _, _ => []

end Detector

end Mend
