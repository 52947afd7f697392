import Mathlib.Tactic.Lemma
import Mend.Matching.Labels

/-!
# The matching with every step checked

`Matching.link` leaves a matching alone when one of the two nodes is missing or has a partner already. The
phases do not count on that: they look before they pair, or know that both nodes are there and free. Here
the phases are run once more with a `link?` that breaks the run off instead, and that looks at the partners
first only where the phases do so. Every step has the name of the one it checks, with a question mark. That
the run always comes to its end, with the same matching, is shown in `Mend.Proofs.Matching.Safe`.

The search for nodes out of order is run once more, too, with a mark for every kept child: a place of the
longest run that is no place in the row breaks it off, and so does a child without a mark. It comes to its end
in `Mend.Proofs.Matching.Labels`.
-/

namespace Mend.Matching

open Syntax (Ast)

/-- Pairs two nodes. Breaks off if one of them is missing or has a partner. -/
def link? (m : Matching) (s d : Nat) : Option Matching :=
  if m.isFree s d then some (m.link s d) else none

/-- Pairs two nodes, unless one of them is seen to have a partner. -/
def linkFree? (m : Matching) (s d : Nat) : Option Matching :=
  if (m.toRepaired? s).isNone && (m.toBuggy? d).isNone then m.link? s d else some m

/-- Pairs two subtrees of `size` nodes, passing over nodes that have a partner. -/
def linkSubtrees? (m : Matching) (s d size : Nat) : Option Matching :=
  (List.range size).foldlM (fun m k => m.linkFree? (s + k) (d + k)) m

namespace Trees

variable (t : Trees)

/-- Linking a twin, every pair checked. -/
def linkTwin? (m : Matching) (s : Nat) : Option Matching :=
  if (m.toRepaired? s).isSome then some m
  else
    match best? (fun x y => t.rank m s x < t.rank m s y) (t.twins m s) with
    | some d => m.linkSubtrees? s d (t.old s).size
    | none => some m

/-- The top-down phase, every pair checked. -/
def topDown? (m : Matching) : Option Matching := t.tallestFirst.foldlM t.linkTwin? m

/-- Linking the roots, the pair checked. -/
def linkRoots? (m : Matching) : Option Matching :=
  match t.buggy.root?, t.repaired.root? with
  | some s, some d => if t.buggy.kind s == t.repaired.kind d then m.linkFree? s d else some m
  | _, _ => some m

/-- Linking anchors, every pair checked. -/
def linkAnchors? (m : Matching) : Option Matching :=
  (t.uniqueAnchors m).foldlM (fun m (s, d) => m.linkFree? s d) m

/-- Linking an inner node, the pair checked. -/
def linkInner? (m : Matching) (s : Nat) : Option Matching :=
  if (m.toRepaired? s).isSome || (t.buggy.children s).isEmpty then some m
  else
    match best? Candidate.beats ((t.candidates m s).filter (·.isEnough)) with
    -- The candidate was free when it was listed, and is not looked at again.
    | some c => m.link? s c.node
    | none => some m

/-- The bottom-up phase, every pair checked. -/
def bottomUp? (m : Matching) : Option Matching := t.buggy.postorder.foldlM t.linkInner? m

/-- Recovery of an equal child, every pair checked. -/
def recoverEqual? (d : Nat) (m : Matching) (c : Nat) : Option Matching :=
  match (t.freeNew m d).find? (t.sameDigest c) with
  | some e => m.linkSubtrees? c e (t.old c).size
  | none => some m

/-- Recovery of a child of one label, the pair checked. -/
def recoverAlike? (d : Nat) (m : Matching) (c : Nat) : Option Matching :=
  match (t.freeNew m d).find? (fun e => t.repaired.kind e == t.buggy.kind c &&
      t.repaired.label e == t.buggy.label c && t.sameName c e) with
  -- The child was free when the children were listed, before the others had their turn.
  | some e => m.link? c e
  | none => some m

/-- Recovery of the only child of a kind, the pair checked. -/
def recoverLone? (old new : List Nat) (m : Matching) (c : Nat) : Option Matching :=
  let kind := t.buggy.kind c
  match old.filter (t.buggy.kind · == kind), new.filter (t.repaired.kind · == kind) with
  -- Both were free when the children were listed, before the others had their turn.
  | [_], [e] => if t.sameName c e then m.link? c e else some m
  | _, _ => some m

/-- Recovery below one pair, every pair checked. -/
def recoverBelow? (m : Matching) (s : Nat) : Option Matching :=
  match m.toRepaired? s with
  | none => some m
  | some d => do
    let m ← (t.freeOld m s).foldlM (t.recoverEqual? d) m
    let m ← (t.freeOld m s).foldlM (t.recoverAlike? d) m
    (t.freeOld m s).foldlM (t.recoverLone? (t.freeOld m s) (t.freeNew m d)) m

/-- Recovery, every pair checked. -/
def recover? (m : Matching) : Option Matching := t.buggy.ids.foldlM t.recoverBelow? m

/-- The matching of two trees, checked. -/
def matching? : Option Matching :=
  let start := Matching.empty t.buggy.size t.repaired.size
  if t.buggy.isEmpty || t.repaired.isEmpty then some start
  else do
    let m ← t.topDown? start
    let m ← t.linkRoots? m
    let m ← t.linkAnchors? m
    let m ← t.bottomUp? m
    t.recover? m

end Trees

/-! ## Nodes out of order -/

/-- Sets a mark. Breaks off if there is no mark at that place. -/
def mark? (marks : List Bool) (i : Nat) : Option (List Bool) :=
  if i < marks.length then some (marks.set i true) else none

/-- Marks the members of a longest strictly increasing subsequence. -/
def inOrder? (values : List Nat) : Option (List Bool) :=
  (longestIncreasing values).foldlM mark? (List.replicate values.length false)

/-- The children of `sp` that stay below `dp` and have no mark. Breaks off if one has none to look at. -/
def outOfOrderBelow? (buggy repaired : Ast) (m : Matching) (sp dp : Nat) : Option (List Nat) := do
  let kept := keptChildren buggy repaired m sp dp
  let marks ← inOrder? (kept.map (·.2))
  let found ← kept.zipIdx.mapM fun ((c, _), i) => (marks[i]?).map (c, ·)
  return found.filterMap fun (c, mark) => if mark then none else some c

/-- The buggy nodes that stand below their old parent but out of order, checked. -/
def outOfOrder? (buggy repaired : Ast) (m : Matching) : Option (List Nat) :=
  (m.pairs.mapM fun (sp, dp) => outOfOrderBelow? buggy repaired m sp dp).map List.flatten

end Mend.Matching
