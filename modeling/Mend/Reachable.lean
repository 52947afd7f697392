/-!
# What can be reached

The numbers below `n` that can be reached from a start by going from a number to its successors, found by
a queue that never takes a number twice. The search ends because every step shortens the queue or adds
to what has been seen.
-/

namespace Mend

namespace Reachable

/-- The successors of `x` below `n` that have not been seen, each once. -/
def fresh (next : Nat → List Nat) (n : Nat) (seen : List Nat) (x : Nat) : List Nat :=
  ((next x).filter fun y => y < n && !seen.contains y).eraseDups

/-- How many numbers below `n` have not been seen. -/
def unseen (n : Nat) (seen : List Nat) : Nat :=
  (List.range n).countP fun y => !seen.contains y

theorem unseen_append_lt {n y : Nat} {seen new : List Nat} (hy : y < n) (hn : y ∈ new)
    (hs : y ∉ seen) : unseen n (seen ++ new) < unseen n seen := by
  simp only [unseen, List.countP_eq_length_filter]
  have hsub : (List.range n).filter (fun z => !(seen ++ new).contains z) =
      ((List.range n).filter (fun z => !seen.contains z)).filter (fun z => !new.contains z) := by
    rw [List.filter_filter]
    congr 1
    funext z
    simp [Bool.and_comm]
  rw [hsub]
  refine Nat.lt_of_le_of_ne (List.length_filter_le _ _) fun heq => ?_
  have := List.length_filter_eq_length_iff.1 heq y (by simp [hy, hs])
  simp [hn] at this

theorem mem_fresh {next : Nat → List Nat} {n x y : Nat} {seen : List Nat} :
    y ∈ fresh next n seen x ↔ y ∈ next x ∧ y < n ∧ y ∉ seen := by
  simp [fresh, List.mem_eraseDups]

/-- Takes the queue off number by number, adding the unseen successors to its end. -/
def explore (next : Nat → List Nat) (n : Nat) : List Nat → List Nat → List Nat
  | [], seen => seen
  | x :: queue, seen =>
    explore next n (queue ++ fresh next n seen x) (seen ++ fresh next n seen x)
termination_by queue seen => (unseen n seen, queue.length)
decreasing_by
  cases hf : fresh next n seen x with
  | nil => simpa using Prod.Lex.right _ (Nat.lt_succ_self _)
  | cons y ys =>
    have hy : y ∈ fresh next n seen x := by simp [hf]
    obtain ⟨-, hlt, hns⟩ := mem_fresh.1 hy
    exact Prod.Lex.left _ _ (unseen_append_lt hlt (by simp) hns)

end Reachable

/-- The numbers below `n` that can be reached from `start`, and `start` itself. -/
def reachable (next : Nat → List Nat) (n start : Nat) : List Nat :=
  Reachable.explore next n [start] [start]

end Mend
