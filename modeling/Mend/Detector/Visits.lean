import Mend.Detector.CallbackError
import Mend.Detector.ErrorHandling
import Mend.Detector.SpecialValue

/-!
# Visiting a comparison

The order in which detectors see the scopes of a comparison: from the pair of scripts inwards, at every
pair first the scopes inside the repaired scope, each with its partner, then those inside the buggy scope
that have no partner anywhere.
-/

namespace Mend

namespace Analysis

variable (x : Analysis)

/-- The buggy scope that a repaired scope is paired with; the scripts are paired with each other. -/
def partnerScope? (new : Nat) : Option Nat :=
  if new = 0 then some 0
  else ((x.repairedScopes.owner? new).bind x.partner?).bind x.buggyScopes.scopeOf?

/-- The buggy scopes that are paired with some repaired scope. -/
def pairedScopes : List Nat := x.repairedScopes.ids.filterMap x.partnerScope?

/-- The scopes directly inside a buggy scope that have no partner. -/
def deletedInside (old : Nat) : List Nat :=
  let paired := x.pairedScopes
  (x.buggyScopes.children old).filter fun c => !paired.contains c

/-- The visits from a deleted scope inwards. -/
def deletedVisits (old : Nat) : List ScopePair :=
  ⟨some old, none⟩ :: (x.deletedInside old).attach.flatMap fun c => deletedVisits c.1
termination_by x.buggyScopes.size - old
decreasing_by
  have := ScopeTree.lt_of_mem_children (List.mem_filter.1 c.2 |>.1)
  omega

/-- The visits from a repaired scope inwards. -/
def visitsFrom (old : Option Nat) (new : Nat) : List ScopePair :=
  ⟨old, some new⟩ ::
    ((x.repairedScopes.children new).attach.flatMap fun c =>
        visitsFrom (x.partnerScope? c.1) c.1) ++
      (old.elim [] x.deletedInside).flatMap x.deletedVisits
termination_by x.repairedScopes.size - new
decreasing_by
  have := ScopeTree.lt_of_mem_children c.2
  omega

/-- All visits of a comparison; there are none if a tree is empty. -/
def visits : List ScopePair :=
  if x.buggyScopes.size = 0 ∨ x.repairedScopes.size = 0 then [] else x.visitsFrom (some 0) 0

/-- The nodes shown at a visit, with their side and scope. -/
def shownNodes (pair : ScopePair) : List (Side × Nat × Nat) :=
  match pair.repaired, pair.buggy with
  | some new, _ => (x.repairedScopes.ownNodes new).map fun i => (.repaired, i, new)
  | none, some old => (x.buggyScopes.ownNodes old).map fun i => (.buggy, i, old)
  | none, none => []

/-- What detectors find at a visit, in the order in which they find it. -/
def foundAt (detectors : List Detector) (pair : ScopePair) : List Finding :=
  (detectors.flatMap fun d => d.inScopes x pair) ++
    (x.shownNodes pair).flatMap fun (side, node, scope) =>
      detectors.flatMap fun d => d.inNode x side node scope

/-- Adds to a collection what detectors find. -/
def collect (detectors : List Detector) (found : Findings) : Findings :=
  x.visits.foldl (fun found pair => found.registerAll (x.foundAt detectors pair)) found

end Analysis

/-- The detectors that are used unless others are asked for. -/
def Detector.all : List Detector := [errorHandling, callbackError, specialValue]

end Mend
