/-!
# Matchings

A matching pairs nodes of a buggy tree with nodes of its repair, each with at most one partner. It is kept
as two tables of partners, one per side, and the type says that the tables are inverse to each other. The
only way to change a matching is to pair two nodes that are both free (`link`); what is paired stays so.
-/

namespace Mend

/-- A partial bijection between the nodes of two trees. -/
structure Matching where
  /-- The partner of each buggy node. -/
  forward : Array (Option Nat)
  /-- The partner of each repaired node. -/
  backward : Array (Option Nat)
  inverse : ∀ s d : Nat, forward[s]? = some (some d) ↔ backward[d]? = some (some s)

namespace Matching

/-- The matching of `m` with `n` nodes that pairs none. -/
def empty (m n : Nat) : Matching where
  forward := Array.replicate m none
  backward := Array.replicate n none
  inverse s d := by simp [Array.getElem?_replicate]

variable (m : Matching)

/-- The partner of a buggy node. -/
def toRepaired? (s : Nat) : Option Nat := m.forward[s]?.join

/-- The partner of a repaired node. -/
def toBuggy? (d : Nat) : Option Nat := m.backward[d]?.join

/-- Whether two nodes are both there and both without partner. -/
def isFree (s d : Nat) : Bool := m.forward[s]? == some none && m.backward[d]? == some none

/-- Pairs two free nodes; anything else is left as it is. -/
def link (s d : Nat) : Matching :=
  if h : m.isFree s d = true then
    { forward := m.forward.setIfInBounds s (some d)
      backward := m.backward.setIfInBounds d (some s)
      inverse := by
        intro s' d'
        have inv := m.inverse s' d'
        simp only [isFree, Bool.and_eq_true, beq_iff_eq] at h
        have hs : s < m.forward.size := (Array.getElem?_eq_some_iff.1 h.1).1
        have hd : d < m.backward.size := (Array.getElem?_eq_some_iff.1 h.2).1
        rw [Array.getElem?_setIfInBounds, Array.getElem?_setIfInBounds, if_pos hs, if_pos hd]
        by_cases es : s = s' <;> by_cases ed : d = d'
        · subst es ed
          simp
        · subst es
          simp only [if_true, Option.some.injEq, ed, if_false, false_iff]
          intro hb
          rw [← inv, h.1] at hb
          simp at hb
        · subst ed
          simp only [if_true, Option.some.injEq, es, if_false, iff_false]
          intro hf
          rw [inv, h.2] at hf
          simp at hf
        · simpa [es, ed] using inv }
  else m

/-- Pairs two equal subtrees of `size` nodes, node by node, as far as the nodes are free. -/
def linkSubtrees (s d size : Nat) : Matching :=
  (List.range size).foldl (fun m k => m.link (s + k) (d + k)) m

/-- All pairs, by the number of the buggy node. -/
def pairs : List (Nat × Nat) :=
  (List.range m.forward.size).filterMap fun s => (m.toRepaired? s).map fun d => (s, d)

/-- The number of pairs. -/
def size : Nat := m.pairs.length

/-- The two views of a matching agree. -/
theorem toRepaired?_eq_some_iff {s d : Nat} : m.toRepaired? s = some d ↔ m.toBuggy? d = some s := by
  simpa [toRepaired?, toBuggy?, Option.join_eq_some_iff] using m.inverse s d

end Matching

end Mend
