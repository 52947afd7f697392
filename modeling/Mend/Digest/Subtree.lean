import Mend.Digest.Blake3
import Mend.Syntax.Ast

/-!
# Digests of subtrees

Every subtree gets two digests. The exact digest covers kinds, labels and the order of children; two
subtrees with the same exact digest are taken for equal. The shape digest leaves out the labels of names
and literals, so that `f(a)` and `g(b)` have one shape.

The digest of a node is the hash of its kind and label, each ended by a zero byte, and the digests of its
children. The table is filled in the order it is given: a child that has not had its turn counts with
digests, height and size zero.
-/

namespace Mend.Digest

open Syntax (Ast)

/-- The kinds of node whose label says nothing about the shape of a program. -/
def namingKinds : List String :=
  ["identifier", "property_identifier", "shorthand_property_identifier",
   "shorthand_property_identifier_pattern", "private_property_identifier", "statement_identifier",
   "string", "template_string", "number", "regex"]

/-- What a digest sees of a node. -/
structure View where
  kind : String
  label : String
  children : List Nat
  deriving DecidableEq, Repr

/-- What is known of a subtree. -/
structure Subtree where
  exact : UInt64
  shape : UInt64
  /-- The number of nodes on the longest way down. -/
  height : Nat
  /-- The number of nodes. -/
  size : Nat
  deriving DecidableEq, Repr

/-- A subtree whose turn has not come. -/
def Subtree.unknown : Subtree := ⟨0, 0, 0, 0⟩

/-- The node count as it is written: a 32-bit word. -/
def Subtree.sizeWord (s : Subtree) : UInt32 := UInt32.ofNat s.size

/-- A zero byte. -/
def terminator : ByteArray := ⟨#[0]⟩

/-- The eight bytes of a number, the lowest first. -/
def littleEndian (v : UInt64) : ByteArray :=
  ⟨#[v.toUInt8, (v >>> 8).toUInt8, (v >>> 16).toUInt8, (v >>> 24).toUInt8,
     (v >>> 32).toUInt8, (v >>> 40).toUInt8, (v >>> 48).toUInt8, (v >>> 56).toUInt8]⟩

/-- What is hashed for a node. -/
def encode (kind label : String) (children : List UInt64) : ByteArray :=
  children.foldl (fun bytes d => bytes ++ littleEndian d)
    (kind.toUTF8 ++ terminator ++ label.toUTF8 ++ terminator)

/-- The subtree at a node, from the subtrees at its children. -/
def Subtree.ofNode (v : View) (below : List Subtree) : Subtree where
  exact := Blake3.hash (encode v.kind v.label (below.map (·.exact)))
  shape := Blake3.hash
    (encode v.kind (if namingKinds.contains v.kind then "" else v.label) (below.map (·.shape)))
  height := (below.map (·.height)).foldl max 0 + 1
  size := (below.map (·.size)).foldr (· + ·) 1

/-- The subtrees known so far, by node number. -/
abbrev Table := Array Subtree

/-- The subtree at a node; unknown if the table has no such node. -/
def Table.at (t : Table) (i : Nat) : Subtree := t[i]?.getD .unknown

/-- Gives a node its turn. -/
def Table.fill (view : Nat → View) (t : Table) (i : Nat) : Table :=
  t.setIfInBounds i (.ofNode (view i) ((view i).children.map t.at))

/-- The table of `count` nodes after every number in `order` has had its turn. -/
def Table.build (count : Nat) (view : Nat → View) (order : List Nat) : Table :=
  order.foldl (Table.fill view) (Array.replicate count .unknown)

/-- The subtrees of a program. -/
def Table.ofAst (a : Ast) : Table :=
  .build a.size (fun i => ⟨a.kind i, a.label i, a.children i⟩) a.postorder

end Mend.Digest
