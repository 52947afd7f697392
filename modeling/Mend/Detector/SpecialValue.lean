import Mend.Detector.Basic
import Mend.Sentinel.Guard

/-!
# Special value guards added

Finds dereferences that were there before the repair and that an inserted guard now protects from special
values, where no guard did so before. A guard is reported once per line and variable; if it tests both a
path and something reached through it, only the path counts.
-/

namespace Mend

open Syntax (Ast)

namespace Detector

/-- A path that an inserted guard protects, with the line of the guard and the sentinels ruled out. -/
structure Protection where
  line : Nat
  path : String
  sentinels : SentinelSet
  deriving DecidableEq, Repr

/-- The paths that the facts protect for a dereference of `path`: those that the dereference reaches
through, without those that another of them leads to. -/
def protectedPaths (facts : List Fact) (path : String) : List String :=
  let candidates := (pathsOf facts).filter fun v =>
    reachesThrough path v && (sentinelsOf facts v).meets .dereferenceGuards
  candidates.filter fun v => !candidates.any fun w => w != v && reachesThrough v w

/-- Whether a guard of the buggy program already said something about the path or what leads to it. -/
def wasGuarded (a : Ast) (node : Nat) (path : String) : Bool :=
  (a.covers node).any fun c => (pathsOf (a.ruledOut c)).any (reachesThrough path)

/-- What protects the dereference at a repaired node. -/
def protections (x : Analysis) (node : Nat) : List Protection :=
  let r := x.comparison.repaired
  match r.dereferenced? node, x.partner? node with
  | some path, some partner =>
    if x.isOld node then
      ((r.covers node).filter fun c => r.change c.guard == .inserted).flatMap fun c =>
        let facts := r.ruledOut c
        ((protectedPaths facts path).filter fun v =>
            !wasGuarded x.comparison.buggy.toAst partner v).map fun v =>
          ⟨r.line c.guard, v, (sentinelsOf facts v).inter .dereferenceGuards⟩
    else []
  | _, _ => []

/-- Keeps the first protection of every line and path. -/
def firstOfEach (ps : List Protection) : List Protection :=
  ps.foldl (fun kept p =>
    if kept.any fun q => q.line == p.line && q.path == p.path then kept else kept ++ [p]) []

/-- Whether an inserted guard of a scope tests for anything at all. -/
def testsAnything (r : Revision) (own : List Nat) : Bool :=
  own.any fun i => r.isGuard i && r.change i == .inserted && !(r.guardTests i).isEmpty

/-- What is found in a repaired scope. -/
def newlyGuarded (x : Analysis) (new : Nat) : List Finding :=
  let own := x.repairedScopes.ownNodes new
  if testsAnything x.comparison.repaired own then
    (firstOfEach (own.flatMap (protections x))).map fun p =>
      x.finding new p.line (.specialValueGuardAdded p.path p.sentinels)
  else []

/-- Finds dereferences that are newly guarded. -/
def specialValue : Detector where
  name := "special-value"
  inScopes x pair :=
    match pair.buggy, pair.repaired with
    | some _, some new => newlyGuarded x new
    | _, _ => []

end Detector

end Mend
