import Mend.Comparison
import Mend.Finding.Basic
import Mend.Scope.Tree

/-!
# Detectors

A detector looks for one shape of repair. It is shown the scopes of a comparison in pairs, a buggy scope
with the repaired scope whose function it is paired with, outer scopes first; a function that was deleted
or introduced is shown alone. It is also shown the nodes that belong to a scope: those of the repaired
scope if there is one, else those of the buggy scope.
-/

namespace Mend

open Syntax (Ast)

/-- A comparison with the scopes of both sides. -/
structure Analysis where
  provenance : Provenance
  comparison : Comparison
  buggyScopes : ScopeTree
  repairedScopes : ScopeTree

/-- A buggy scope and its partner; one of them may be missing. -/
structure ScopePair where
  buggy : Option Nat
  repaired : Option Nat
  deriving DecidableEq, Repr

namespace Analysis

/-- The analysis of a comparison. -/
def of (provenance : Provenance) (c : Comparison) : Analysis :=
  ⟨provenance, c, .ofAst c.buggy.toAst, .ofAst c.repaired.toAst⟩

variable (x : Analysis)

/-- The labelled tree of a side. -/
def revision : Side → Revision
  | .buggy => x.comparison.buggy
  | .repaired => x.comparison.repaired

/-- The scopes of a side. -/
def scopes : Side → ScopeTree
  | .buggy => x.buggyScopes
  | .repaired => x.repairedScopes

/-- Whether a repaired node was there before the repair. -/
def isOld (node : Nat) : Bool :=
  match x.comparison.repaired.change node with
  | .unchanged | .moved => true
  | _ => false

theorem isOld_iff {x : Analysis} {node : Nat} : x.isOld node = true ↔
    x.comparison.repaired.change node = .unchanged ∨ x.comparison.repaired.change node = .moved := by
  unfold isOld
  cases x.comparison.repaired.change node <;> simp

/-- The partner of a repaired node. -/
def partner? (node : Nat) : Option Nat := x.comparison.matching.toBuggy? node

/-- A finding in a repaired scope. -/
def finding (scope line : Nat) (pattern : RepairPattern) : Finding :=
  .of x.provenance (x.repairedScopes.name scope) line pattern

end Analysis

/-- Something that looks for one shape of repair. -/
structure Detector where
  name : String
  /-- What it finds in a pair of scopes. -/
  inScopes : Analysis → ScopePair → List Finding
  /-- What it finds in a node of a side, which belongs to a scope of that side. -/
  inNode : Analysis → Side → Nat → Nat → List Finding := fun _ _ _ _ => []

end Mend

namespace Mend.Syntax.Ast

/-- The name of what a call calls: its access path, or else its text. -/
def calleeName? (a : Ast) (call : Nat) : Option String :=
  (a.child? call "function").map fun target => (a.path? target).getD (a.text target)

end Mend.Syntax.Ast
