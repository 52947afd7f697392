import Mathlib.Data.List.Basic
import Mend.Proofs.Syntax.Walk
import Mend.Scope.Tree

/-!
# Every node belongs to one scope

The nodes of a forest are those met without entering functions, and, function by function, those met
inside (`Forest.perm_met`). The scopes of a program are the script and its functions, so that together
their own nodes are all nodes but the root, each once (`perm_ownNodes`).
-/

namespace Mend

open Syntax (Ast Node)

/-- The nodes of a forest, sorted by the innermost function around them; `own` gives the nodes of a
function. -/
lemma Forest.perm_met {α : Type} (isFunction : Nat → Bool) (own : Nat → List Nat) {f : Forest α} {n : Nat}
    (h : ∀ k p, f.sub? k = some p → own (n + k) = p.2.met (fun j => !isFunction j) (n + k + 1)) :
    (f.met (fun j => !isFunction j) n ++ ((List.range' n f.size).filter isFunction).flatMap own).Perm
      (List.range' n f.size) := by
  induction f generalizing n with
  | nil => simp [met, size]
  | cons x kids rest ihk ihr =>
    have hroot : own n = kids.met (fun j => !isFunction j) (n + 1) := h 0 (x, kids) rfl
    have hk := ihk (n := n + 1) fun k p hk => by
      rw [show n + 1 + k = n + (k + 1) by omega]
      exact h (k + 1) p (sub?_of_kids hk)
    have hr := ihr (n := n + 1 + kids.size) fun k p hk => by
      rw [show n + 1 + kids.size + k = n + (1 + kids.size + k) by omega]
      exact h _ p (sub?_of_rest x hk)
    have hrange : List.range' n (size (.cons x kids rest)) =
        n :: (List.range' (n + 1) kids.size ++ List.range' (n + 1 + kids.size) rest.size) := by
      rw [size, show 1 + kids.size + rest.size = kids.size + rest.size + 1 by omega,
        List.range'_succ, ← List.range'_append_1]
    rw [hrange, met]
    simp only [List.filter_cons, List.filter_append]
    generalize List.range' (n + 1) kids.size = below at hk ⊢
    generalize List.range' (n + 1 + kids.size) rest.size = beside at hr ⊢
    cases hn : isFunction n with
    | true =>
      -- The function itself is met, what stands below it is its own or that of functions inside.
      simp only [Bool.not_true, Bool.false_eq_true, if_false, if_true, List.nil_append,
        List.flatMap_cons, List.flatMap_append, hroot, List.cons_append]
      refine .cons n (.trans ?_ (hk.append hr))
      rw [List.append_assoc]
      exact (List.perm_append_comm_assoc _ _ _).trans
        ((List.perm_append_comm_assoc _ _ _).append_left _)
    | false =>
      simp only [Bool.not_false, if_true, Bool.false_eq_true, if_false, List.flatMap_append,
        List.cons_append]
      refine .cons n (.trans ?_ (hk.append hr))
      rw [List.append_assoc, List.append_assoc]
      exact (List.perm_append_comm_assoc _ _ _).append_left _

namespace ScopeTree

variable {a : Ast} {t : ScopeTree} {x : Node} {kids : Forest Node}

/-- Adding a global keeps the syntax tree. -/
@[simp] lemma addGlobal_ast (t : ScopeTree) (i : Nat) : (t.addGlobal i).ast = t.ast := by
  unfold addGlobal
  split
  · dsimp only
    split <;> rfl
  · rfl

/-- Adding a global keeps the owners. -/
@[simp] lemma addGlobal_owners (t : ScopeTree) (i : Nat) : (t.addGlobal i).owners = t.owners := by
  unfold addGlobal
  split
  · dsimp only
    split <;> rfl
  · rfl

/-- Adding globals keeps the syntax tree and the owners. -/
lemma foldl_addGlobal (t : ScopeTree) (l : List Nat) :
    (l.foldl addGlobal t).ast = t.ast ∧ (l.foldl addGlobal t).owners = t.owners := by
  induction l generalizing t with
  | nil => exact ⟨rfl, rfl⟩
  | cons i l ih =>
    rw [List.foldl_cons, (ih _).1, (ih _).2, addGlobal_ast, addGlobal_owners]
    exact ⟨rfl, rfl⟩

/-- A scope tree belongs to the syntax tree it was made of. -/
@[simp] lemma ofAst_ast (a : Ast) : (ofAst a).ast = a := (foldl_addGlobal _ _).1

/-- The owners are the root and the functions. -/
@[simp] lemma ofAst_owners (a : Ast) :
    (ofAst a).owners = a.root?.toList ++ a.ids.filter a.isFunction := (foldl_addGlobal _ _).2

/-- The scopes of a program: the script, then the functions in the order of the file. -/
lemma owners_of_root (hT : a.tree = .cons x kids .nil) (hroot : a.isFunction 0 = false) :
    (ofAst a).owners = 0 :: (List.range' 1 kids.size).filter a.isFunction := by
  have hsize := Ast.size_of_root hT
  rw [ofAst_owners, Ast.root?, if_neg (by omega), Ast.ids_of_root hT, List.filter_cons, hroot]
  rfl

/-- A scope of a node is a scope of the tree. -/
lemma lt_size_of_scopeOf? {i s : Nat} (h : t.scopeOf? i = some s) : s < t.size := by
  rw [scopeOf?, List.idxOf?, List.findIdx?_eq_some_iff_getElem] at h
  exact h.1

/-- Every scope is inside the script, or the script itself. -/
lemma zero_mem_chain (hT : a.tree = .cons x kids .nil) (hroot : a.isFunction 0 = false) {s : Nat}
    (hs : s < (ofAst a).size) : 0 ∈ (ofAst a).chain s := by
  have howners := owners_of_root hT hroot
  cases s with
  | zero => exact List.mem_cons_self
  | succ s =>
    rw [size] at hs
    have howner : (ofAst a).owner? (s + 1) = some (ofAst a).owners[s + 1] := List.getElem?_eq_getElem hs
    -- The node of a function is not the root, so that the root is among those around it.
    have hnode : (ofAst a).owners[s + 1] ∈ List.range' 1 kids.size := by
      have hmem : (ofAst a).owners[s + 1] ∈ (List.range' 1 kids.size).filter a.isFunction := by
        simp only [howners, List.getElem_cons_succ]
        exact List.getElem_mem _
      exact (List.mem_filter.1 hmem).1
    have hsize := Ast.size_of_root hT
    rw [List.mem_range'_1] at hnode
    have hup := (Ast.isArena_of_root hT).zero_mem_ancestors (c := (ofAst a).owners[s + 1])
      (by omega) (by omega)
    have hscope : (ofAst a).scopeOf? 0 = some 0 := by
      rw [scopeOf?, howners, List.idxOf?_cons]
      rfl
    rw [chain, howner]
    refine List.mem_cons_of_mem _ (List.mem_filterMap.2 ⟨0, ?_, hscope⟩)
    rwa [ofAst_ast]

/-- The own nodes of a scope are those met below its node without entering functions. -/
lemma ownNodes_eq {s i : Nat} (hs : (ofAst a).owner? s = some i)
    (hx : a.tree.sub? i = some (x, kids)) :
    (ofAst a).ownNodes s = kids.met (fun j => !a.isFunction j) (i + 1) := by
  unfold ownNodes
  rw [hs]
  simp only [ofAst_ast]
  rw [Ast.reach_eq _ hx]
  simp only [beq_self_eq_true, Bool.true_or, if_true, List.filter_cons, bne_self_eq_false,
    Bool.false_eq_true, if_false]
  -- Below the node all numbers are greater, so that its exemption plays no part.
  rw [List.filter_eq_self.2 fun j hj => by
    have := Forest.mem_met hj
    simp only [bne_iff_ne]
    omega]
  refine Forest.met_congr fun j hj _ => ?_
  rw [beq_eq_false_iff_ne.2 (by omega), Bool.false_or]

/-- What is met inside the function at a node. -/
def inside (a : Ast) (i : Nat) : List Nat :=
  (a.tree.sub? i).elim [] fun p => p.2.met (fun j => !a.isFunction j) (i + 1)

/-- The own nodes of the scopes, told from their owners. -/
lemma map_ownNodes (a : Ast) :
    (ofAst a).ids.map (ofAst a).ownNodes = (ofAst a).owners.map (inside a) := by
  refine List.ext_getElem (by simp [ids, size]) fun s hs hs' => ?_
  have hlt : s < (ofAst a).owners.length := by simpa using hs'
  have howner : (ofAst a).owner? s = some (ofAst a).owners[s] := List.getElem?_eq_getElem hlt
  have hnode : (ofAst a).owners[s] < a.size := by
    have hmem := List.getElem_mem hlt
    generalize (ofAst a).owners[s] = i at hmem
    rw [ofAst_owners, List.mem_append, Option.mem_toList] at hmem
    rcases hmem with hmem | hmem
    · unfold Ast.root? at hmem
      split at hmem
      · cases hmem
      · cases hmem
        omega
    · exact Ast.mem_ids.1 (List.mem_filter.1 hmem).1
  obtain ⟨x, kids, hx⟩ := Ast.exists_sub? hnode
  simp only [ids, List.getElem_map, List.getElem_range]
  rw [ownNodes_eq howner hx, inside, hx, Option.elim_some]

/-- Together the scopes of a program own all nodes but the root, each once. -/
theorem perm_ownNodes (hT : a.tree = .cons x kids .nil) (hroot : a.isFunction 0 = false) :
    ((ofAst a).ids.flatMap (ofAst a).ownNodes).Perm (List.range' 1 kids.size) := by
  have hzero := Ast.sub?_of_root hT
  have hinside : inside a 0 = kids.met (fun j => !a.isFunction j) 1 := by
    rw [inside, hzero, Option.elim_some]
  rw [List.flatMap_def, map_ownNodes, ← List.flatMap_def, owners_of_root hT hroot,
    List.flatMap_cons, hinside]
  refine Forest.perm_met a.isFunction (inside a) fun k p hk => ?_
  have hbelow := Forest.sub?_below hzero (Forest.lt_of_sub? hk)
  rw [Nat.zero_add, hk] at hbelow
  rw [inside, hbelow, Option.elim_some]

end ScopeTree

end Mend
