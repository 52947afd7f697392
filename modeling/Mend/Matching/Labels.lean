import Mend.Failure
import Mend.Matching.Longest
import Mend.Matching.Phases
import Mend.Revision

/-!
# Change labels from a matching

A buggy node without partner is removed, a repaired one is inserted. The two nodes of a pair carry one
label: updated if their own labels differ; moved if their parents are not partners, or if their place
among the siblings is outside the longest run that kept its order; otherwise unchanged.
-/

namespace Mend.Matching

open Syntax (Ast)

/-- The two sides of a comparison with their labels, and the matching that the labels say. -/
structure Classified where
  buggy : Revision
  repaired : Revision
  matching : Matching

instance : Inhabited Classified := ⟨⟨default, default, .empty 0 0⟩⟩

/-- Whether two paired nodes stand below partners, or are both roots. -/
def sameParent (buggy repaired : Ast) (m : Matching) (s d : Nat) : Bool :=
  match buggy.parent? s, repaired.parent? d with
  | none, none => true
  | some sp, some dp => m.toRepaired? sp == some dp
  | _, _ => false

/-- The children of `sp` whose partners are children of `dp`, with the places of the partners. -/
def keptChildren (buggy repaired : Ast) (m : Matching) (sp dp : Nat) : List (Nat × Nat) :=
  (buggy.children sp).filterMap fun c => do
    let partner ← m.toRepaired? c
    if repaired.parent? partner == some dp then
      (repaired.siblingIndex? partner).map fun place => (c, place)
    else none

/-- The buggy nodes that stand below their old parent but out of order. -/
def outOfOrder (buggy repaired : Ast) (m : Matching) : List Nat :=
  m.pairs.flatMap fun (sp, dp) =>
    let kept := keptChildren buggy repaired m sp dp
    let inOrder := longestIncreasing (kept.map (·.2))
    kept.zipIdx.filterMap fun ((c, _), i) => if inOrder.contains i then none else some c

/-- The label of a pair. -/
def pairChange (buggy repaired : Ast) (m : Matching) (moved : List Nat) (s d : Nat) : Change :=
  if buggy.label s ≠ repaired.label d then .updated
  else if !sameParent buggy repaired m s d || moved.contains s then .moved
  else .unchanged

/-- Labels both trees as a matching says. -/
def classifiedBy (buggy repaired : Ast) (m : Matching) : Classified :=
  let moved := outOfOrder buggy repaired m
  { buggy := .relabel buggy fun s =>
      (m.toRepaired? s).elim .removed fun d => pairChange buggy repaired m moved s d
    repaired := .relabel repaired fun d =>
      (m.toBuggy? d).elim .inserted fun s => pairChange buggy repaired m moved s d
    matching := m }

namespace Classified

variable (c : Classified)

/-- What is wrong with the label of a buggy node, if anything. -/
def buggyViolation? (s : Nat) : Option String :=
  match c.buggy.change s, c.matching.toRepaired? s with
  | .unknown, _ => some s!"source node {s} unlabelled"
  | .inserted, _ => some s!"source node {s} labelled INSERTED"
  | .removed, some _ => some s!"paired source node {s} labelled REMOVED"
  | .removed, none => none
  | change, some d =>
    if c.matching.toBuggy? d ≠ some s then some s!"pairing of source node {s} is not symmetric"
    else if c.repaired.change d ≠ change then some s!"pair ({s}, {d}) carries two labels"
    else none
  | _, none => some s!"unpaired source node {s} not labelled REMOVED"

/-- What is wrong with the label of a repaired node, if anything. -/
def repairedViolation? (d : Nat) : Option String :=
  match c.repaired.change d, c.matching.toBuggy? d with
  | .unknown, _ => some s!"destination node {d} unlabelled"
  | .removed, _ => some s!"destination node {d} labelled REMOVED"
  | .inserted, some _ => some s!"paired destination node {d} labelled INSERTED"
  | .inserted, none => none
  | _, none => some s!"unpaired destination node {d} not labelled INSERTED"
  | _, some s =>
    if c.matching.toRepaired? s ≠ some d then
      some s!"pairing of destination node {d} is not symmetric"
    else none

/-- The first contradiction between labels and matching. -/
def violation? : Option String :=
  (c.buggy.ids.findSome? c.buggyViolation?).or (c.repaired.ids.findSome? c.repairedViolation?)

end Classified

/-- Matches two trees and labels them. -/
def classify (buggy repaired : Ast) : Except Failure Classified :=
  let c := classifiedBy buggy repaired (Trees.of buggy repaired).matching
  match c.violation? with
  | some what => .error (.brokenInvariant what)
  | none => .ok c

end Mend.Matching
