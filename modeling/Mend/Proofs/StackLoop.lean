import Mathlib.Algebra.Ring.Nat
import Mathlib.Logic.Function.Iterate
import Mathlib.Tactic.Lemma
import Mend.Proofs.Forest.Subtree

/-!
# Loops over a stack

A loop over a stack takes the topmost item off, does some work with it and puts further items in its place,
until nothing is left. Every item has a cost, and what takes the place of an item costs less than the item
(`StackLoop.sum_cost_lt`), so that the loop ends: after as many turns as the items cost together, at the
latest, the stack is empty and the state is that of `run` (`StackLoop.iterate_turn`).

The items of a stack are worked off in turn, whatever lies below them (`StackLoop.run_append`). This is how
the state behind an item is told from what takes its place, by induction on the tree that the items stand
for. The same goes for the items that are taken off (`StackLoop.taken_append`). The trees of a forest, each
with its size as its cost, cost together what the forest does (`Forest.sum_size_trees`).
-/

namespace Mend

universe u v

/-- What a loop does with the topmost item of its stack, and why this comes to an end. -/
structure StackLoop (τ : Type u) (σ : Type v) where
  /-- The items that take the place of an item, topmost first, and the state afterwards. -/
  work : τ → σ → List τ × σ
  cost : τ → Nat
  sum_cost_lt : ∀ x s, ((work x s).1.map cost).sum < cost x

namespace StackLoop

variable {τ : Type u} {σ : Type v} {m : StackLoop τ σ} {x : τ} {stack rest : List τ} {s : σ}

/-- What the items of a stack cost together. -/
def total (m : StackLoop τ σ) (stack : List τ) : Nat := (stack.map m.cost).sum

/-- An empty stack costs nothing. -/
@[simp] lemma total_nil (m : StackLoop τ σ) : m.total [] = 0 := rfl

/-- A stack costs its top and the rest. -/
@[simp] lemma total_cons (m : StackLoop τ σ) (x : τ) (stack : List τ) :
    m.total (x :: stack) = m.cost x + m.total stack := List.sum_cons

/-- Two stacks cost what each does. -/
@[simp] lemma total_append (m : StackLoop τ σ) (stack rest : List τ) :
    m.total (stack ++ rest) = m.total stack + m.total rest := by
  rw [total, List.map_append, List.sum_append, total, total]

/-- The stack becomes cheaper with every item that is taken off it. -/
lemma total_work_lt (m : StackLoop τ σ) (x : τ) (rest : List τ) (s : σ) :
    m.total ((m.work x s).1 ++ rest) < m.total (x :: rest) := by
  have := m.sum_cost_lt x s
  rw [total_append, total_cons, total]
  omega

/-- The state when the stack is empty. -/
def run (m : StackLoop τ σ) : List τ → σ → σ
  | [], s => s
  | x :: rest, s => m.run ((m.work x s).1 ++ rest) (m.work x s).2
termination_by stack => m.total stack
decreasing_by exact m.total_work_lt x rest s

/-- The items that are taken off the stack, in turn. -/
def taken (m : StackLoop τ σ) : List τ → σ → List τ
  | [], _ => []
  | x :: rest, s => x :: m.taken ((m.work x s).1 ++ rest) (m.work x s).2
termination_by stack => m.total stack
decreasing_by exact m.total_work_lt x rest s

/-- One turn of the loop; with an empty stack nothing happens any more. -/
def turn (m : StackLoop τ σ) : List τ × σ → List τ × σ
  | ([], s) => ([], s)
  | (x :: rest, s) => ((m.work x s).1 ++ rest, (m.work x s).2)

/-- Running an empty stack changes nothing. -/
@[simp] lemma run_nil (m : StackLoop τ σ) (s : σ) : m.run [] s = s := by
  rw [run]

/-- Running a stack works on its top first. -/
lemma run_cons (m : StackLoop τ σ) (x : τ) (rest : List τ) (s : σ) :
    m.run (x :: rest) s = m.run ((m.work x s).1 ++ rest) (m.work x s).2 := by
  rw [run]

/-- What lies on top is worked off first. -/
lemma run_append (m : StackLoop τ σ) (stack rest : List τ) (s : σ) :
    m.run (stack ++ rest) s = m.run rest (m.run stack s) := by
  fun_induction run m stack s with
  | case1 s => rfl
  | case2 s x stack ih =>
    rw [List.cons_append, run_cons, ← List.append_assoc]
    exact ih

/-- An empty stack takes nothing. -/
@[simp] lemma taken_nil (m : StackLoop τ σ) (s : σ) : m.taken [] s = [] := by
  rw [taken]

/-- A stack takes its top first. -/
lemma taken_cons (m : StackLoop τ σ) (x : τ) (rest : List τ) (s : σ) :
    m.taken (x :: rest) s = x :: m.taken ((m.work x s).1 ++ rest) (m.work x s).2 := by
  rw [taken]

/-- Of two stacks the first is taken off before the second. -/
lemma taken_append (m : StackLoop τ σ) (stack rest : List τ) (s : σ) :
    m.taken (stack ++ rest) s = m.taken stack s ++ m.taken rest (m.run stack s) := by
  fun_induction run m stack s with
  | case1 s => rw [taken_nil, List.nil_append, List.nil_append]
  | case2 s x stack ih =>
    rw [List.cons_append, taken_cons, taken_cons, ← List.append_assoc, ih, List.cons_append]

/-- One entry is taken, and then what its work puts on the stack. -/
lemma taken_singleton (m : StackLoop τ σ) (x : τ) (s : σ) :
    m.taken [x] s = x :: m.taken (m.work x s).1 (m.work x s).2 := by
  rw [taken_cons, List.append_nil]

/-- The state behind one item is that behind what takes its place. -/
lemma run_singleton (m : StackLoop τ σ) (x : τ) (s : σ) :
    m.run [x] s = m.run (m.work x s).1 (m.work x s).2 := by
  rw [run_cons, List.append_nil]

/-- The loop ends, after no more turns than the items cost together. -/
lemma iterate_turn {n : Nat} (h : m.total stack ≤ n) : m.turn^[n] (stack, s) = ([], m.run stack s) := by
  induction n generalizing stack s with
  | zero =>
    cases stack with
    | nil => rw [Function.iterate_zero, id_eq, run_nil]
    | cons x rest =>
      have := m.total_work_lt x rest s
      omega
  | succ n ih =>
    rw [Function.iterate_succ_apply]
    cases stack with
    | nil => exact ih (Nat.zero_le n)
    | cons x rest =>
      have := m.total_work_lt x rest s
      rw [turn, run_cons]
      exact ih (by omega)

end StackLoop

namespace Forest

variable {α : Type u}

/-- The trees of a forest have its nodes among them. -/
lemma sum_size_trees (f : Forest α) : (f.trees.map fun p => p.2.size + 1).sum = f.size := by
  induction f with
  | nil => rfl
  | cons x kids rest _ ihr =>
    rw [trees, List.map_cons, List.sum_cons, ihr, size, Nat.add_comm kids.size]

end Forest

end Mend
