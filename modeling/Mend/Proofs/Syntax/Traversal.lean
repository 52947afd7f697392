import Mathlib.Algebra.BigOperators.Ring.List
import Mathlib.Algebra.Ring.Nat
import Mathlib.Data.List.Nodup
import Mend.Proofs.StackLoop
import Mend.Proofs.Syntax.Ancestry

/-!
# Traversals with a stack

The two walks through the table of a program as loops over a stack, onto which the children of a node come in
reverse, so that the first child lies on top. `Ast.postorderLoop` puts a node back below its children and
tells it when it is taken off for the second time; `Ast.visitLoop` asks a visitor at each node whether the
children shall be put on the stack at all.

The loops do what the recursions on the tree do: the first gives `Ast.postorder`, in which every node stands
behind what stands below it (`Ast.IsPostorder`), the second is `Ast.walk`. The nodes that a visitor is handed
are told with its answers (`replies`): they are the nodes of the subtree without a refused node above them
(`Ast.IsVisit`).
-/

namespace Mend

variable {σ : Type}

/-- The nodes that a visitor is handed one after the other, each with its answer. -/
def replies (visit : Nat → σ → Bool × σ) : σ → List Nat → List (Nat × Bool)
  | _, [] => []
  | s, i :: nodes => (i, (visit i s).1) :: replies visit (visit i s).2 nodes

/-- The state of a visitor that was handed nodes one after the other. -/
def stateBehind (visit : Nat → σ → Bool × σ) : σ → List Nat → σ
  | s, [] => s
  | s, i :: nodes => stateBehind visit (visit i s).2 nodes

section

variable {visit : Nat → σ → Bool × σ} {s : σ} {nodes more : List Nat}

/-- A visit replies for each node handed to it. -/
lemma map_fst_replies (visit : Nat → σ → Bool × σ) (s : σ) (nodes : List Nat) :
    (replies visit s nodes).map (·.1) = nodes := by
  induction nodes generalizing s with
  | nil => rfl
  | cons i nodes ih => rw [replies, List.map_cons, ih]

/-- The replies for nodes in a row. -/
lemma replies_append (visit : Nat → σ → Bool × σ) (s : σ) (nodes more : List Nat) :
    replies visit s (nodes ++ more) = replies visit s nodes ++ replies visit (stateBehind visit s nodes) more := by
  induction nodes generalizing s with
  | nil => rfl
  | cons i nodes ih => rw [List.cons_append, replies, replies, ih, List.cons_append, stateBehind]

/-- The state behind nodes in a row. -/
lemma stateBehind_append (visit : Nat → σ → Bool × σ) (s : σ) (nodes more : List Nat) :
    stateBehind visit s (nodes ++ more) = stateBehind visit (stateBehind visit s nodes) more := by
  induction nodes generalizing s with
  | nil => rfl
  | cons i nodes ih => rw [List.cons_append, stateBehind, stateBehind, ih]

/-- A node that is handed once has one answer. -/
lemma eq_of_mem_replies (h : nodes.Nodup) {i : Nat} {b c : Bool} (hb : (i, b) ∈ replies visit s nodes)
    (hc : (i, c) ∈ replies visit s nodes) : b = c := by
  rw [← map_fst_replies visit s nodes] at h
  exact congrArg Prod.snd (List.inj_on_of_nodup_map h hb hc rfl)

/-- Nodes that are handed once are asked for by their answers. -/
lemma decide_mem_replies (h : nodes.Nodup) {x : Nat × Bool} (hx : x ∈ replies visit s nodes) :
    decide ((x.1, true) ∈ replies visit s nodes) = x.2 := by
  obtain ⟨i, _ | _⟩ := x
  · rw [decide_eq_false_iff_not]
    intro htrue
    cases eq_of_mem_replies h hx htrue
  · exact decide_eq_true hx

/-- There is a reply for each node. -/
lemma exists_reply (visit : Nat → σ → Bool × σ) (s : σ) {i : Nat} (h : i ∈ nodes) :
    ∃ b, (i, b) ∈ replies visit s nodes := by
  rw [← map_fst_replies visit s nodes] at h
  obtain ⟨⟨i, b⟩, hmem, rfl⟩ := List.mem_map.1 h
  exact ⟨b, hmem⟩

end

namespace Forest

universe u

variable {α : Type u} {visit : Nat → σ → Bool × σ}

/-- The nodes that a visitor is handed on a walk through the trees of a forest numbered from `n`. -/
def handed (visit : Nat → σ → Bool × σ) : Forest α → Nat → σ → List Nat
  | nil, _, _ => []
  | cons _ kids rest, n, s =>
    n :: ((if (visit n s).1 then kids.handed visit (n + 1) (visit n s).2 else []) ++
      rest.handed visit (n + 1 + kids.size)
        (if (visit n s).1 then kids.walk visit (n + 1) (visit n s).2 else (visit n s).2))

/-- The nodes handed over are in document order, each at most once. -/
lemma handed_sublist (visit : Nat → σ → Bool × σ) (f : Forest α) (n : Nat) (s : σ) :
    (f.handed visit n s).Sublist (List.range' n f.size) := by
  induction f generalizing n s with
  | nil => exact .refl _
  | cons x kids rest ihk ihr =>
    rw [handed, size, show 1 + kids.size + rest.size = kids.size + rest.size + 1 by omega,
      List.range'_succ, ← List.range'_append_1]
    refine .cons_cons n (.append ?_ (ihr _ _))
    split
    · exact ihk _ _
    · exact List.nil_sublist _

/-- A walk changes the state of the visitor only where it hands it a node. -/
lemma walk_eq_stateBehind (visit : Nat → σ → Bool × σ) (f : Forest α) (n : Nat) (s : σ) :
    f.walk visit n s = stateBehind visit s (f.handed visit n s) := by
  induction f generalizing n s with
  | nil => rfl
  | cons x kids rest ihk ihr =>
    rw [walk, handed, stateBehind, stateBehind_append, ihr]
    split
    · rw [← ihk]
    · rfl

/-- Handed are the nodes that a walk meets which enters just where the visitor agrees. -/
lemma handed_eq_met {enters : Nat → Bool} {f : Forest α} {n : Nat} {s : σ}
    (h : ∀ x ∈ replies visit s (f.handed visit n s), enters x.1 = x.2) :
    f.handed visit n s = f.met enters n := by
  induction f generalizing n s with
  | nil => rfl
  | cons x kids rest ihk ihr =>
    rw [handed] at h ⊢
    rw [replies, replies_append, List.forall_mem_cons] at h
    obtain ⟨hn, h⟩ := h
    have hkids := fun x hx => h x (List.mem_append_left _ hx)
    have hrest := fun x hx => h x (List.mem_append_right _ hx)
    rw [met, hn]
    cases hb : (visit n s).1 with
    | true =>
      simp only [hb, if_true, ← walk_eq_stateBehind] at hkids hrest ⊢
      rw [ihk hkids, ihr hrest]
    | false =>
      simp only [hb, Bool.false_eq_true, if_false, stateBehind] at hrest ⊢
      rw [ihr hrest]

/-- A node is told behind what stands below it. -/
lemma postorder_sublist {f kids : Forest α} {n k : Nat} {x : α} (h : f.sub? k = some (x, kids)) :
    (kids.postorder (n + k + 1) ++ [n + k]).Sublist (f.postorder n) := by
  induction f generalizing n k with
  | nil => cases h
  | cons y below rest ihk ihr =>
    rw [postorder]
    cases k with
    | zero =>
      cases h
      exact (List.Sublist.refl _).append (List.singleton_sublist.2 List.mem_cons_self)
    | succ k =>
      by_cases hk : k < below.size
      · rw [sub?_kids hk] at h
        rw [show n + (k + 1) = n + 1 + k by omega]
        exact (ihk h).trans (List.sublist_append_left _ _)
      · obtain ⟨i, rfl⟩ := Nat.exists_eq_add_of_le (Nat.le_of_not_lt hk)
        rw [show below.size + i + 1 = 1 + below.size + i by omega] at h ⊢
        rw [sub?_rest] at h
        rw [show n + (1 + below.size + i) = n + 1 + below.size + i by omega]
        exact ((ihr h).cons _).trans (List.sublist_append_right _ _)

/-- The roots come in the postorder in their order. -/
lemma rootNumbers_sublist (f : Forest α) (n : Nat) : (f.rootNumbers n).Sublist (f.postorder n) := by
  induction f generalizing n with
  | nil => exact .refl _
  | cons x kids rest _ ihr =>
    rw [rootNumbers, postorder]
    exact ((ihr _).cons_cons n).trans (List.sublist_append_right _ _)

end Forest

namespace Syntax.Ast

variable {a : Ast} {i j n : Nat} {x : Node} {kids : Forest Node} {visit : Nat → σ → Bool × σ} {s : σ}

/-- The number of nodes in the subtree at `i`. -/
def subtreeSize (a : Ast) (i : Nat) : Nat := a.last i + 1 - i

/-- The size of a subtree counts its node and what lies below it. -/
lemma subtreeSize_of_sub? (h : a.tree.sub? i = some (x, kids)) : a.subtreeSize i = kids.size + 1 := by
  rw [subtreeSize, last_of_sub? h]
  omega

/-- The nodes of a subtree are its root and those in the subtrees of the children. -/
lemma sum_subtreeSize_children (a : Ast) (i : Nat) :
    ((a.children i).map a.subtreeSize).sum + 1 = a.subtreeSize i := by
  by_cases hi : i < a.size
  · obtain ⟨x, kids, hs⟩ := exists_sub? hi
    rw [children_of_sub? hs, subtreeSize_of_sub? hs, ← kids.sum_size_trees]
    congr 2
    apply Forest.map_rootNumbers
    intro k p hp
    apply subtreeSize_of_sub? (x := p.1)
    rw [Forest.sub?_below hs (Forest.lt_of_sub? hp), hp]
  · rw [subtreeSize, last, children, row?_eq_none (Nat.le_of_not_lt hi)]
    simp

/-- Takes a node off the stack, puts it back for the second time and its children above it; a node that is
taken off for the second time is told. -/
def postorderLoop (a : Ast) : StackLoop (Nat × Bool) (List Nat) where
  work x told :=
    if x.2 then ([], told ++ [x.1])
    else ((a.children x.1).map (·, false) ++ [(x.1, true)], told)
  cost x := if x.2 then 1 else 2 * a.subtreeSize x.1
  sum_cost_lt := by
    rintro ⟨i, _ | _⟩ told
    · have hchildren := a.sum_subtreeSize_children i
      have hdouble := List.sum_map_mul_left (a.children i) a.subtreeSize 2
      simp [Function.comp_def, hdouble]
      omega
    · exact Nat.one_pos

/-- Takes a node off the stack and asks the visitor whether to put its children there. -/
def visitLoop (a : Ast) (visit : Nat → σ → Bool × σ) : StackLoop Nat σ where
  work i s := (if (visit i s).1 then a.children i else [], (visit i s).2)
  cost := a.subtreeSize
  sum_cost_lt i s := by
    have hchildren := a.sum_subtreeSize_children i
    dsimp only
    split
    · omega
    · rw [List.map_nil, List.sum_nil]
      omega

/-- Trees of the program that lie on the stack side by side are told as a forest. -/
lemma run_postorderLoop {f : Forest Node} (told : List Nat) (h : a.StandsAt f n) :
    a.postorderLoop.run ((f.rootNumbers n).map (·, false)) told = told ++ f.postorder n := by
  induction f generalizing n told with
  | nil => simp [Forest.rootNumbers, Forest.postorder]
  | cons x kids rest ihk ihr =>
    have hfirst : a.postorderLoop.run [(n, false)] told = told ++ kids.postorder (n + 1) ++ [n] := by
      have hwork : a.postorderLoop.work (n, false) told =
          ((kids.rootNumbers (n + 1)).map (·, false) ++ [(n, true)], told) := by
        rw [← children_of_sub? h.root]
        rfl
      rw [StackLoop.run_singleton, hwork, StackLoop.run_append, ihk told h.below, StackLoop.run_singleton]
      exact StackLoop.run_nil _ _
    rw [Forest.rootNumbers, List.map_cons, ← List.singleton_append, StackLoop.run_append, hfirst,
      ihr _ h.right, Forest.postorder, List.append_assoc, List.append_assoc, List.singleton_append]

/-- An arena has one root, or none when it is empty. -/
lemma IsArena.rootNumbers_eq (h : a.IsArena) : a.tree.rootNumbers 0 = a.root?.toList := by
  rcases h.cases with hT | ⟨x, kids, hT⟩
  · rw [root?, size_eq, hT]
    rfl
  · rw [root?, size_of_root hT, hT, if_neg (Nat.succ_ne_zero _)]
    rfl

/-- The walk that starts at the root tells all nodes, each after what stands below it. -/
lemma IsArena.run_postorderLoop (h : a.IsArena) :
    a.postorderLoop.run (a.root?.toList.map (·, false)) [] = a.postorder := by
  rw [← h.rootNumbers_eq, Ast.run_postorderLoop [] a.standsAt_tree]
  exact List.nil_append _

/-- Every node is taken off the stack twice. -/
lemma IsArena.total_postorderLoop (h : a.IsArena) :
    a.postorderLoop.total (a.root?.toList.map (·, false)) = 2 * a.size := by
  rcases h.cases with hT | ⟨x, kids, hT⟩
  · rw [root?, size_eq, hT]
    rfl
  · have hcost : a.postorderLoop.cost (0, false) = 2 * a.subtreeSize 0 := rfl
    rw [root?, if_neg (by rw [size_of_root hT]; omega), Option.toList_some, List.map_singleton,
      StackLoop.total_cons, StackLoop.total_nil, hcost, subtreeSize_of_sub? (sub?_of_root hT), size_of_root hT,
      Nat.add_zero]

/-- The nodes on the stack are walked through one after the other. -/
lemma run_visitLoop (a : Ast) (visit : Nat → σ → Bool × σ) (stack : List Nat) (s : σ) :
    (a.visitLoop visit).run stack s = stack.foldl (fun s c => a.walk visit c s) s := by
  fun_induction StackLoop.run (a.visitLoop visit) stack s with
  | case1 s => rfl
  | case2 s i stack ih =>
    rw [ih, List.foldl_append, List.foldl_cons, walk_unfold]
    simp only [visitLoop]
    split
    · rfl
    · rfl

/-- Trees of the program that lie on the stack side by side are handed to the visitor as a forest. -/
lemma taken_visitLoop {f : Forest Node} (s : σ) (h : a.StandsAt f n) :
    (a.visitLoop visit).taken (f.rootNumbers n) s = f.handed visit n s := by
  induction f generalizing n s with
  | nil => exact StackLoop.taken_nil _ _
  | cons x kids rest ihk ihr =>
    have hwork : (a.visitLoop visit).work n s =
        (if (visit n s).1 then kids.rootNumbers (n + 1) else [], (visit n s).2) := by
      rw [← children_of_sub? h.root]
      rfl
    rw [Forest.rootNumbers, ← List.singleton_append, StackLoop.taken_append, StackLoop.taken_singleton, hwork,
      run_visitLoop, List.foldl_cons, List.foldl_nil, walk_eq visit h.root, ihr _ h.right, Forest.handed,
      List.cons_append]
    congr 2
    split
    · exact ihk _ h.below
    · exact StackLoop.taken_nil _ _

/-- All nodes once, each behind what stands below it, and the children of a node in their order. -/
structure IsPostorder (a : Ast) (nodes : List Nat) : Prop where
  perm : nodes.Perm a.ids
  below : ∀ i < a.size, ∀ j ∈ a.descendants i, [j, i].Sublist nodes
  siblings : ∀ i, (a.children i).Sublist nodes

/-- The postorder of a tree is one. -/
lemma isPostorder (a : Ast) : a.IsPostorder a.postorder where
  perm := by
    refine (List.perm_ext_iff_of_nodup (a.tree.nodup_postorder 0) List.nodup_range).2 fun i => ?_
    rw [Forest.mem_postorder, ← size_eq, List.mem_range]
    omega
  below i hi j hj := by
    obtain ⟨x, kids, hs⟩ := exists_sub? hi
    have hblock := Forest.postorder_sublist (n := 0) hs
    rw [descendants_of_sub? hs, List.mem_range'_1] at hj
    rw [Nat.zero_add] at hblock
    have hbelow : j ∈ kids.postorder (i + 1) := Forest.mem_postorder.2 hj
    exact (List.Sublist.append (List.singleton_sublist.2 hbelow) (.refl [i])).trans hblock
  siblings i := by
    by_cases hi : i < a.size
    · obtain ⟨x, kids, hs⟩ := exists_sub? hi
      have hblock := Forest.postorder_sublist (n := 0) hs
      rw [Nat.zero_add] at hblock
      rw [children_of_sub? hs]
      exact ((kids.rootNumbers_sublist _).trans (List.sublist_append_left _ _)).trans hblock
    · rw [children, row?_eq_none (Nat.le_of_not_lt hi)]
      exact List.nil_sublist _

/-- The nodes that a visitor is handed from `start`, first in the state `s`: in the order of the file, those of
the subtree that have no node above them there that the visitor refused. -/
structure IsVisit (a : Ast) (visit : Nat → σ → Bool × σ) (start : Nat) (s : σ) (nodes : List Nat) : Prop where
  increasing : nodes.Pairwise (· < ·)
  mem_iff : ∀ j, j ∈ nodes ↔ a.contains start j = true ∧
    ∀ u ∈ a.ancestors j, a.contains start u = true → (u, false) ∉ replies visit s nodes

/-- A node that no node above it keeps from being met is met if it is not refused itself. -/
lemma isVisit_of_eq_reach {start : Nat} {nodes : List Nat} (hstart : start < a.size)
    (hnodes : nodes = a.reach (fun u => decide ((u, true) ∈ replies visit s nodes)) start) :
    a.IsVisit visit start s nodes := by
  have hincreasing : nodes.Pairwise (· < ·) := hnodes ▸ pairwise_reach _ hstart
  have hnodup : nodes.Nodup := hincreasing.imp Nat.ne_of_lt
  have hmem : ∀ j, j ∈ nodes ↔ a.contains start j = true ∧
      ∀ u ∈ a.ancestors j, a.contains start u = true → (u, true) ∈ replies visit s nodes := by
    intro j
    conv_lhs => rw [hnodes]
    rw [mem_reach hstart]
    simp only [decide_eq_true_eq, mem_ancestors]
    exact and_congr_right fun _ => ⟨fun h u hu hs => h u hs hu.1 hu.2, fun h u hs hu hne => h u ⟨hu, hne⟩ hs⟩
  refine ⟨hincreasing, fun j => (hmem j).trans (and_congr_right fun _ => ?_)⟩
  constructor
  · intro h u hu hs hfalse
    cases eq_of_mem_replies hnodup (h u hu hs) hfalse
  · intro h u hu hs
    -- From the start downwards: what is above `u` was entered, so that `u` is handed to the visitor.
    induction u using Nat.strongRecOn with
    | _ u ih =>
      have hmet : u ∈ nodes := (hmem u).2 ⟨hs, fun w hw hws =>
        ih w (lt_of_mem_ancestors hw) (mem_ancestors_trans hw hu) hws⟩
      obtain ⟨b, hb⟩ := exists_reply visit s hmet
      cases b with
      | true => exact hb
      | false => exact absurd hb (h u hu hs)

/-- From a node on, a visitor is handed the node and, unless it refuses it, what stands below it. -/
lemma taken_start (visit : Nat → σ → Bool × σ) (s : σ) (h : a.tree.sub? i = some (x, kids)) :
    (a.visitLoop visit).taken [i] s = (Forest.cons x kids .nil).handed visit i s := by
  have hwork : (a.visitLoop visit).work i s =
      (if (visit i s).1 then kids.rootNumbers (i + 1) else [], (visit i s).2) := by
    rw [← children_of_sub? h]
    rfl
  rw [StackLoop.taken_singleton, hwork, Forest.handed, Forest.handed, List.append_nil]
  congr 1
  split
  · exact taken_visitLoop _ (standsAt_kids h)
  · exact StackLoop.taken_nil _ _

/-- The stack loop visits as specified. -/
lemma isVisit_taken (hi : i < a.size) (visit : Nat → σ → Bool × σ) (s : σ) :
    a.IsVisit visit i s ((a.visitLoop visit).taken [i] s) := by
  obtain ⟨x, kids, hs⟩ := exists_sub? hi
  rw [taken_start visit s hs]
  refine isVisit_of_eq_reach hi ?_
  generalize hnodes : (Forest.cons x kids .nil).handed visit i s = nodes
  have hnodup : nodes.Nodup :=
    hnodes ▸ (Forest.handed_sublist visit _ i s).nodup List.nodup_range'
  have hmet : nodes = (Forest.cons x kids .nil).met (fun u => decide ((u, true) ∈ replies visit s nodes)) i := by
    rw [← hnodes] at hnodup ⊢
    exact Forest.handed_eq_met fun _ hx => decide_mem_replies hnodup hx
  rw [reach_eq _ hs]
  exact hmet.trans (by rw [Forest.met, Forest.met, List.append_nil])

/-- The state of the visitor when a walk ends is that behind the nodes it was handed. -/
lemma walk_eq_stateBehind (hi : i < a.size) (visit : Nat → σ → Bool × σ) (s : σ) :
    a.walk visit i s = stateBehind visit s ((a.visitLoop visit).taken [i] s) := by
  obtain ⟨x, kids, hs⟩ := exists_sub? hi
  rw [taken_start visit s hs, ← Forest.walk_eq_stateBehind, walk_eq visit hs, Forest.walk, Forest.walk]

/-- The walks with a stack come to an end and agree with the recursions on the tree. The one that starts with
the root tells all nodes, each behind what stands below it. The one that asks a visitor leaves its state as
the recursive walk does, and hands it, in the order of the file, the nodes of the subtree at `start` that have
no node above them there that the visitor refused. -/
theorem walks_agree (h : a.IsArena) :
    (a.postorderLoop.turn^[2 * a.size] (a.root?.toList.map (·, false), []) = ([], a.postorder) ∧
      a.IsPostorder a.postorder) ∧
    ∀ (visit : Nat → σ → Bool × σ) (s : σ), ∀ start < a.size,
      (a.visitLoop visit).turn^[a.subtreeSize start] ([start], s) = ([], a.walk visit start s) ∧
      a.walk visit start s = stateBehind visit s ((a.visitLoop visit).taken [start] s) ∧
      a.IsVisit visit start s ((a.visitLoop visit).taken [start] s) := by
  refine ⟨⟨?_, a.isPostorder⟩, fun visit s start hstart => ⟨?_, ?_, isVisit_taken hstart visit s⟩⟩
  · rw [StackLoop.iterate_turn (Nat.le_of_eq h.total_postorderLoop), h.run_postorderLoop]
  · have htotal : (a.visitLoop visit).total [start] = a.subtreeSize start := Nat.add_zero _
    rw [StackLoop.iterate_turn (Nat.le_of_eq htotal), run_visitLoop, List.foldl_cons, List.foldl_nil]
  · exact walk_eq_stateBehind hstart visit s

/-- The program `f(x, y); g();`. -/
def twoCalls : Ast :=
  .ofForest "f(x, y); g();" <|
    .cons ⟨"program", none, "", 0, 13, 1⟩
      (.cons ⟨"expression_statement", none, "", 0, 8, 1⟩
        (.cons ⟨"call_expression", none, "", 0, 7, 1⟩
          (.cons ⟨"identifier", some "function", "f", 0, 1, 1⟩ .nil
            (.cons ⟨"arguments", some "arguments", "", 1, 7, 1⟩
              (.cons ⟨"identifier", none, "x", 2, 3, 1⟩ .nil (.cons ⟨"identifier", none, "y", 5, 6, 1⟩ .nil .nil))
              .nil)) .nil)
        (.cons ⟨"expression_statement", none, "", 9, 13, 1⟩
          (.cons ⟨"call_expression", none, "", 9, 12, 1⟩
            (.cons ⟨"identifier", some "function", "g", 9, 10, 1⟩ .nil
              (.cons ⟨"arguments", some "arguments", "", 10, 12, 1⟩ .nil .nil)) .nil) .nil)) .nil

/-- Notes the nodes it is handed, and refuses the fifth. -/
def refuseFifth (i : Nat) (seen : List Nat) : Bool × List Nat := (seen.length != 4, seen ++ [i])

/-- Refused as the fifth, the arguments of the first call are not entered. -/
theorem walks_agree_twoCalls : twoCalls.IsArena ∧
    twoCalls.postorderLoop.turn^[22] ([(0, false)], []) = ([], [3, 5, 6, 4, 2, 1, 9, 10, 8, 7, 0]) ∧
    (twoCalls.visitLoop refuseFifth).turn^[11] ([0], []) = ([], [0, 1, 2, 3, 4, 7, 8, 9, 10]) ∧
    twoCalls.walk refuseFifth 0 [] = [0, 1, 2, 3, 4, 7, 8, 9, 10] ∧
    twoCalls.IsVisit refuseFifth 0 [] ((twoCalls.visitLoop refuseFifth).taken [0] []) := by
  have harena : twoCalls.IsArena := isArena_of_root rfl
  obtain ⟨⟨hpostorder, -⟩, hvisits⟩ := walks_agree harena
  obtain ⟨hvisit, -, hhanded⟩ := hvisits refuseFifth [] 0 (by decide)
  have hturns : (twoCalls.visitLoop refuseFifth).turn^[11] ([0], []) = ([], [0, 1, 2, 3, 4, 7, 8, 9, 10]) := by
    decide
  refine ⟨harena, hpostorder.trans (by decide), hturns, ?_, hhanded⟩
  exact congrArg Prod.snd (hvisit.symm.trans hturns)

end Syntax.Ast

end Mend
