import Mend.Matching.Trees
import Mend.Syntax.Walk

/-!
# The phases of the matching

A matching is built in five phases, each of which only adds pairs.

1. Equal subtrees of at least two levels are paired as wholes, the tallest first.
2. The roots are paired if they are of one kind.
3. Declarations whose kind and name occur once on either side are paired, whatever changed inside.
4. From the leaves upwards, a node is paired with the node of its kind that stands around enough of the
   partners of what stands below it.
5. Under nodes that are paired, children are paired that are equal, or alike in kind and label, or the
   only ones of their kind left.

Where several partners are possible, the one that leaves the parents paired goes first, and then the one
that comes first in the file.
-/

namespace Mend

/-- The member that no other member beats; of several, the first. -/
def best? {α : Type} (beats : α → α → Bool) : List α → Option α
  | [] => none
  | x :: xs => some (xs.foldl (fun b y => if beats y b then y else b) x)

namespace Matching

open Syntax (Ast)

namespace Trees

variable (t : Trees)

/-! ## Equal subtrees -/

/-- How little speaks for a pair of equal subtrees: each entry is 0 if the parents are paired, if they are
of one kind, if the subtrees have the same place among their siblings, if the parents have one shape; the
last is the position of the repaired subtree. Smaller lists go first. -/
def rank (m : Matching) (s d : Nat) : List Nat :=
  let sp := t.buggy.parent? s
  let dp := t.repaired.parent? d
  let against (b : Bool) : Nat := if b then 0 else 1
  let sameKind := match sp, dp with
    | some sp, some dp => t.buggy.kind sp == t.repaired.kind dp
    | none, none => true
    | _, _ => false
  let sameShape := match sp, dp with
    | some sp, some dp => (t.old sp).shape == (t.new dp).shape
    | _, _ => false
  [against (t.parentsPaired m s d), against sameKind,
   against (t.buggy.siblingIndex? s == t.repaired.siblingIndex? d), against sameShape,
   t.repaired.start d]

/-- The buggy subtrees that are tall enough, the tallest first and else in file order. -/
def tallestFirst : List Nat :=
  (t.buggy.ids.filter fun s => leastHeight ≤ (t.old s).height).mergeSort
    fun x y => (t.old y).height ≤ (t.old x).height

/-- The free repaired subtrees that are tall enough and equal to a buggy one. -/
def twins (m : Matching) (s : Nat) : List Nat :=
  t.repaired.ids.filter fun d =>
    leastHeight ≤ (t.new d).height && t.sameDigest s d && (m.toBuggy? d).isNone

/-- Pairs a buggy subtree that has no partner with the best equal one. -/
def linkTwin (m : Matching) (s : Nat) : Matching :=
  if (m.toRepaired? s).isSome then m
  else
    match best? (fun x y => t.rank m s x < t.rank m s y) (t.twins m s) with
    | some d => m.linkSubtrees s d (t.old s).size
    | none => m

def topDown (m : Matching) : Matching := t.tallestFirst.foldl t.linkTwin m

/-! ## Roots and named declarations -/

def linkRoots (m : Matching) : Matching :=
  match t.buggy.root?, t.repaired.root? with
  | some s, some d => if t.buggy.kind s == t.repaired.kind d then m.link s d else m
  | _, _ => m

/-- A declaration by kind and name. -/
structure Anchor where
  kind : String
  name : String
  deriving DecidableEq

/-- The named declarations among the nodes without partner, in file order. -/
def anchorsOf (a : Ast) (isFree : Nat → Bool) : List (Anchor × Nat) :=
  a.ids.filterMap fun i =>
    if anchorKinds.contains (a.kind i) && isFree i then
      (nameText? a i).map fun name => (⟨a.kind i, name⟩, i)
    else none

/-- The only node that is listed under an anchor. -/
def only? (anchors : List (Anchor × Nat)) (key : Anchor) : Option Nat :=
  match anchors.filter (·.1 == key) with
  | [(_, i)] => some i
  | _ => none

/-- The declarations that are the only ones of their kind and name on either side. -/
def uniqueAnchors (m : Matching) : List (Nat × Nat) :=
  let old := anchorsOf t.buggy fun s => (m.toRepaired? s).isNone
  let new := anchorsOf t.repaired fun d => (m.toBuggy? d).isNone
  old.filterMap fun (key, s) =>
    match only? old key, only? new key with
    | some _, some d => some (s, d)
    | _, _ => none

def linkAnchors (m : Matching) : Matching :=
  (t.uniqueAnchors m).foldl (fun m (s, d) => m.link s d) m

/-! ## From the leaves upwards -/

/-- A possible partner of an inner node. The Dice coefficient of the two is `2 * shared / total`. -/
structure Candidate where
  keepsParent : Bool
  /-- How many nodes below the one have their partner below the other. -/
  shared : Nat
  /-- How many nodes stand below the two together. -/
  total : Nat
  node : Nat
  deriving DecidableEq, Repr

namespace Candidate

/-- At least half of what stands below the two is shared. -/
def isEnough (c : Candidate) : Bool := c.total ≤ 4 * c.shared

/-- Leaving the parents paired goes first, then the higher coefficient, then the earlier node. -/
def beats (x y : Candidate) : Bool :=
  if x.keepsParent != y.keepsParent then x.keepsParent
  else if x.shared * y.total ≠ y.shared * x.total then y.shared * x.total < x.shared * y.total
  else x.node < y.node

end Candidate

/-- The repaired nodes that stand above a partner of something below `s`, once for each such partner. -/
def nodesAround (m : Matching) (s : Nat) : List Nat :=
  (t.buggy.descendants s).flatMap fun below =>
    (m.toRepaired? below).elim [] t.repaired.ancestors

/-- The possible partners of an inner node. -/
def candidates (m : Matching) (s : Nat) : List Candidate :=
  let around := t.nodesAround m s
  let expected := (t.buggy.parent? s).bind m.toRepaired?
  (t.repaired.ids.filter fun d =>
      t.repaired.kind d == t.buggy.kind s && (m.toBuggy? d).isNone && around.contains d).map fun d =>
    { keepsParent := expected.isSome && t.repaired.parent? d == expected
      shared := around.count d
      total := (t.buggy.descendants s).length + (t.repaired.descendants d).length
      node := d }

/-- Pairs an inner node that has no partner with its best candidate. -/
def linkInner (m : Matching) (s : Nat) : Matching :=
  if (m.toRepaired? s).isSome || (t.buggy.children s).isEmpty then m
  else
    match best? Candidate.beats ((t.candidates m s).filter (·.isEnough)) with
    | some c => m.link s c.node
    | none => m

def bottomUp (m : Matching) : Matching := t.buggy.postorder.foldl t.linkInner m

/-! ## Below paired nodes -/

/-- The children of a buggy node that have no partner. -/
def freeOld (m : Matching) (s : Nat) : List Nat :=
  (t.buggy.children s).filter fun c => (m.toRepaired? c).isNone

/-- The children of a repaired node that have no partner. -/
def freeNew (m : Matching) (d : Nat) : List Nat :=
  (t.repaired.children d).filter fun c => (m.toBuggy? c).isNone

/-- Pairs a child with the first free child of `d` that is equal. -/
def recoverEqual (d : Nat) (m : Matching) (c : Nat) : Matching :=
  match (t.freeNew m d).find? (t.sameDigest c) with
  | some e => m.linkSubtrees c e (t.old c).size
  | none => m

/-- Pairs a child with the first free child of `d` that is alike in kind and label. -/
def recoverAlike (d : Nat) (m : Matching) (c : Nat) : Matching :=
  match (t.freeNew m d).find? (fun e => t.repaired.kind e == t.buggy.kind c &&
      t.repaired.label e == t.buggy.label c && t.sameName c e) with
  | some e => m.link c e
  | none => m

/-- Pairs a child with a child of `d` if both are the only ones of their kind among the free children
`old` and `new`. -/
def recoverLone (old new : List Nat) (m : Matching) (c : Nat) : Matching :=
  let kind := t.buggy.kind c
  match old.filter (t.buggy.kind · == kind), new.filter (t.repaired.kind · == kind) with
  | [_], [e] => if t.sameName c e then m.link c e else m
  | _, _ => m

/-- Pairs what is left below a node and its partner. -/
def recoverBelow (m : Matching) (s : Nat) : Matching :=
  match m.toRepaired? s with
  | none => m
  | some d =>
    let m := (t.freeOld m s).foldl (t.recoverEqual d) m
    let m := (t.freeOld m s).foldl (t.recoverAlike d) m
    (t.freeOld m s).foldl (t.recoverLone (t.freeOld m s) (t.freeNew m d)) m

/-- Goes through the buggy nodes in preorder, so that pairs made on the way have their turn too. -/
def recover (m : Matching) : Matching := t.buggy.ids.foldl t.recoverBelow m

/-! ## All phases -/

/-- The matching of two trees. With an empty tree nothing is paired. -/
def matching : Matching :=
  let start := Matching.empty t.buggy.size t.repaired.size
  if t.buggy.isEmpty || t.repaired.isEmpty then start
  else t.recover (t.bottomUp (t.linkAnchors (t.linkRoots (t.topDown start))))

end Trees

end Matching

end Mend
