import Mend.Detector.Basic
import Mend.Feature.Basic
import Mend.Keyword.Extract

/-!
# Feature vectors of a comparison

Every scope of the repaired file gives one vector. It counts the uses of the nodes that belong to the scope
and the removed uses of the buggy scopes that it adopts: its partner, and the deleted functions whose
innermost partnered scope around them is that partner.
-/

namespace Mend

open Keyword (Registry Use usesOf)

namespace IdSource

/-- The number given out after `n` others. -/
def ahead (s : IdSource) (n : Nat) : UInt64 := s.next + UInt64.ofNat n

/-- The source after `n` numbers were given out. -/
def advanceBy (s : IdSource) (n : Nat) : IdSource := ⟨s.ahead n⟩

end IdSource

namespace Analysis

variable (x : Analysis)

/-- The repaired scope that a buggy scope is paired with; the scripts are paired with each other. -/
def repairedPartner? (old : Nat) : Option Nat :=
  if old = 0 then if x.repairedScopes.size = 0 then none else some 0
  else ((x.buggyScopes.owner? old).bind x.comparison.matching.toRepaired?).bind
    x.repairedScopes.scopeOf?

/-- The repaired scope that takes over the removed uses of a buggy scope: the partner of the scope, or of
the innermost scope around it that has one. -/
def adopter? (old : Nat) : Option Nat := (x.buggyScopes.chain old).findSome? x.repairedPartner?

/-- The buggy scopes that some repaired scope adopts. -/
def adopted : List Nat := x.buggyScopes.ids.filter fun old => (x.adopter? old).isSome

/-- The text of the node of a scope. -/
def codeOf (side : Side) (scope : Nat) : String :=
  ((x.scopes side).owner? scope).elim "" (x.revision side).text

/-- The uses of the nodes that belong to a scope. -/
def usesIn (side : Side) (registry : Registry) (scope : Nat) : List Use :=
  usesOf (x.revision side) registry ((x.scopes side).ownNodes scope)

/-- The vector of a repaired scope by itself. -/
def ownVector (registry : Registry) (id : UInt64) (new : Nat) : FeatureVector :=
  let blank := FeatureVector.blank id x.provenance (x.repairedScopes.name new)
  { blank with repairedCode := x.codeOf .repaired new }.addUses (x.usesIn .repaired registry new)

/-- Joins a buggy scope to the vector that adopts it. A deleted function leaves the buggy code of the
vector as it is. -/
def adopt (registry : Registry) (v : FeatureVector) (old : Nat) : FeatureVector :=
  let code := if (x.repairedPartner? old).isSome then x.codeOf .buggy old else v.buggyCode
  let blank := FeatureVector.blank v.id x.provenance (x.buggyScopes.name old)
  v.join ({ blank with buggyCode := code }.addUses (x.usesIn .buggy registry old))

/-- The vectors of all repaired scopes, and the source of numbers after them. A number is used up for every
repaired scope and then for every buggy scope that is adopted. -/
def vectors (ids : IdSource) : List FeatureVector × IdSource :=
  let oldNames := Registry.ofAst x.comparison.buggy.toAst
  let newNames := Registry.ofAst x.comparison.repaired.toAst
  let adopted := x.adopted
  let vector (new : Nat) : FeatureVector :=
    (adopted.filter fun old => x.adopter? old == some new).foldl (x.adopt oldNames)
      (x.ownVector newNames (ids.ahead new) new)
  (x.repairedScopes.ids.map vector, ids.advanceBy (x.repairedScopes.size + adopted.length))

end Analysis

end Mend
