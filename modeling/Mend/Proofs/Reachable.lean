import Mathlib.Logic.Relation
import Mathlib.Tactic.Lemma
import Mend.Reachable

/-!
# The search finds what can be reached

What the search has seen can be reached, and whatever follows what it has seen waits in the queue or was
seen (`Exploring`). Taking a number off the queue keeps this (`Exploring.take`), so that at the end of the
queue nothing is missing: the search finds just the numbers that a chain of successors leads to
(`mem_reachable`).
-/

namespace Mend

namespace Reachable

variable {next : Nat → List Nat} {n start x y : Nat} {queue seen : List Nat}

/-- A chain of successors below `n` leads from one number to another. -/
def Leads (next : Nat → List Nat) (n : Nat) : Nat → Nat → Prop :=
  Relation.ReflTransGen fun x y => y ∈ next x ∧ y < n

/-- How far the search from `start` has come when `queue` waits and `seen` was seen. -/
structure Exploring (next : Nat → List Nat) (n start : Nat) (queue seen : List Nat) : Prop where
  first : start ∈ seen
  sound : ∀ x ∈ seen, Leads next n start x
  waiting : queue ⊆ seen
  /-- What does not wait any more has only successors that were seen. -/
  closed : ∀ x ∈ seen, x ∈ queue ∨ ∀ y ∈ next x, y < n → y ∈ seen

lemma exploring_start (next : Nat → List Nat) (n start : Nat) :
    Exploring next n start [start] [start] where
  first := List.mem_singleton_self start
  sound _ hx := List.mem_singleton.1 hx ▸ .refl
  waiting := List.Subset.refl _
  closed _ hx := .inl hx

/-- The successors of the first number in the queue that were not seen before come to its end. -/
lemma Exploring.take (h : Exploring next n start (x :: queue) seen) :
    Exploring next n start (queue ++ fresh next n seen x) (seen ++ fresh next n seen x) := by
  have hx : x ∈ seen := h.waiting List.mem_cons_self
  refine ⟨List.mem_append_left _ h.first, fun y hy => ?_, fun y hy => ?_, fun y hy => ?_⟩
  · rcases List.mem_append.1 hy with hold | hnew
    · exact h.sound y hold
    · obtain ⟨hnext, hlt, -⟩ := mem_fresh.1 hnew
      exact (h.sound x hx).tail ⟨hnext, hlt⟩
  · rw [List.mem_append] at *
    exact hy.imp_left fun hwaits => h.waiting (List.mem_cons_of_mem x hwaits)
  · rcases List.mem_append.1 hy with hold | hnew
    · rcases h.closed y hold with hwaits | hseen
      · rcases List.mem_cons.1 hwaits with rfl | hwaits
        · -- The number is done: what follows it was seen before, or is seen now.
          refine .inr fun z hz hlt => ?_
          by_cases hs : z ∈ seen
          · exact List.mem_append_left _ hs
          · exact List.mem_append_right _ (mem_fresh.2 ⟨hz, hlt, hs⟩)
        · exact .inl (List.mem_append_left _ hwaits)
      · exact .inr fun z hz hlt => List.mem_append_left _ (hseen z hz hlt)
    · exact .inl (List.mem_append_right _ hnew)

lemma Exploring.explored (h : Exploring next n start queue seen) :
    Exploring next n start [] (explore next n queue seen) := by
  fun_induction explore next n queue seen with
  | case1 seen => exact h
  | case2 seen x queue ih => exact ih h.take

/-- With nothing waiting, all that can be reached was seen. -/
lemma Exploring.mem_iff (h : Exploring next n start [] seen) : y ∈ seen ↔ Leads next n start y := by
  refine ⟨h.sound y, fun hy => ?_⟩
  induction hy with
  | refl => exact h.first
  | tail _ hstep ih => exact (h.closed _ ih).resolve_left List.not_mem_nil _ hstep.1 hstep.2

end Reachable

open Reachable

/-- The search finds just what a chain of successors leads to. -/
theorem mem_reachable {next : Nat → List Nat} {n start y : Nat} :
    y ∈ reachable next n start ↔ Leads next n start y :=
  (exploring_start next n start).explored.mem_iff

end Mend
