import Mathlib.Data.List.Nodup
import Mend.Proofs.Comparison
import Mend.Proofs.Scope.Partition
import Mend.Proofs.Syntax.Ancestry

/-!
# The shape of the scopes

The numbers of the scopes follow the file, so that the scope a node opens and the node of a scope are
inverse to each other (`scopeOf?_eq_some_iff`). The scope around a node is that of the last owner on the
way up (`enclosing_eq_iff`), and the nodes that a walk down collects for a scope are those it is the scope
around (`mem_ownNodes`). `Shaped` puts together what holds of the scopes of every program (`ofAst_shaped`).
-/

namespace Mend

open Syntax (Ast Node)

namespace Syntax.Ast

variable {a : Ast}

/-- A program that is not empty and whose only root is no function. -/
structure IsRooted (a : Ast) : Prop where
  isArena : a.IsArena
  size_pos : 0 < a.size
  outer : a.isFunction 0 = false

/-- A script has one root. -/
lemma IsScript.isRooted (h : a.IsScript) : a.IsRooted := by
  obtain ⟨x, kids, hT, hkind⟩ := id h
  exact ⟨isArena_of_root hT, by rw [size_of_root hT]; omega, h.not_isFunction⟩

/-- A tree with one root is that root and what lies below it. -/
lemma IsRooted.exists_tree (h : a.IsRooted) :
    ∃ x kids, a.tree = .cons x kids .nil ∧ a.size = kids.size + 1 := by
  rcases h.isArena.cases with hT | ⟨x, kids, hT⟩
  · have hpos := h.size_pos
    rw [size_eq, hT] at hpos
    exact absurd hpos (Nat.lt_irrefl 0)
  · exact ⟨x, kids, hT, size_of_root hT⟩

/-- A function is a node of the tree. -/
lemma lt_size_of_isFunction {i : Nat} (h : a.isFunction i = true) : i < a.size := by
  by_contra hi
  rw [isFunction, kind, row?_eq_none (Nat.le_of_not_lt hi)] at h
  exact absurd h (by decide)

/-- A call is no function. -/
lemma isFunction_of_call {i : Nat} (h : a.kind i = "call_expression") : a.isFunction i = false := by
  rw [isFunction, h]
  decide

end Syntax.Ast

namespace ScopeTree

variable {a : Ast} {i n s : Nat}

/-- The owners are the root and the functions, in the order of the file. -/
lemma owners_eq (h : a.IsRooted) : (ofAst a).owners = a.ids.filter fun i => i == 0 || a.isFunction i := by
  obtain ⟨x, kids, hT, -⟩ := h.exists_tree
  rw [owners_of_root hT h.outer, Ast.ids_of_root hT, List.filter_cons]
  simp only [beq_self_eq_true, Bool.true_or, if_true]
  congr 1
  apply List.filter_congr
  intro i hi
  have hne : (i == 0) = false := beq_eq_false_iff_ne.2 (by rw [List.mem_range'_1] at hi; omega)
  rw [hne, Bool.false_or]

/-- The owners of scopes are the root and the functions. -/
lemma mem_owners (h : a.IsRooted) : i ∈ (ofAst a).owners ↔ i = 0 ∨ a.isFunction i = true := by
  rw [owners_eq h, List.mem_filter, Ast.mem_ids, Bool.or_eq_true, beq_iff_eq]
  constructor
  · exact And.right
  · rintro (rfl | hf)
    · exact ⟨h.size_pos, .inl rfl⟩
    · exact ⟨Ast.lt_size_of_isFunction hf, .inr hf⟩

/-- The owners are listed in document order. -/
lemma pairwise_owners (h : a.IsRooted) : (ofAst a).owners.Pairwise (· < ·) := by
  rw [owners_eq h]
  exact List.pairwise_lt_range.filter _

/-- The first scope is owned by the root. -/
lemma owner?_zero (h : a.IsRooted) : (ofAst a).owner? 0 = some 0 := by
  obtain ⟨x, kids, hT, -⟩ := h.exists_tree
  rw [owner?, owners_of_root hT h.outer]
  rfl

/-- The scope a node opens and the node of a scope are inverse to each other. -/
lemma scopeOf?_eq_some_iff (h : a.IsRooted) : (ofAst a).scopeOf? i = some s ↔ (ofAst a).owner? s = some i := by
  rw [scopeOf?, owner?, List.idxOf?, List.findIdx?_eq_some_iff_getElem, List.getElem?_eq_some_iff]
  constructor
  · rintro ⟨hs, heq, -⟩
    exact ⟨hs, beq_iff_eq.1 heq⟩
  · rintro ⟨hs, rfl⟩
    refine ⟨hs, beq_self_eq_true _, fun r hr => ?_⟩
    have hlt := List.pairwise_iff_getElem.1 (pairwise_owners h) r s (Nat.lt_trans hr hs) hs hr
    simpa using Nat.ne_of_lt hlt

/-- A node has no scope of its own iff it is no owner. -/
lemma scopeOf?_eq_none_iff : (ofAst a).scopeOf? i = none ↔ i ∉ (ofAst a).owners := by
  rw [scopeOf?, List.idxOf?_eq_none_iff]

/-- What owns a scope is an owner. -/
lemma mem_owners_of_owner? (hs : (ofAst a).owner? s = some i) : i ∈ (ofAst a).owners :=
  List.mem_of_getElem? hs

/-- A scope with an owner is a scope of the tree. -/
lemma lt_size_of_owner? (hs : (ofAst a).owner? s = some i) : s < (ofAst a).size :=
  (List.getElem?_eq_some_iff.1 hs).1

/-- Every scope has an owner. -/
lemma exists_owner? (hs : s < (ofAst a).size) : ∃ i, (ofAst a).owner? s = some i :=
  ⟨_, List.getElem?_eq_getElem hs⟩

/-- An owner is a node of the tree. -/
lemma lt_size_of_mem_owners (h : a.IsRooted) (hi : i ∈ (ofAst a).owners) : i < a.size := by
  rcases (mem_owners h).1 hi with rfl | hf
  · exact h.size_pos
  · exact Ast.lt_size_of_isFunction hf

/-- Two scopes do not have one node. -/
lemma eq_of_owner? (h : a.IsRooted) {r : Nat} (hs : (ofAst a).owner? s = some i)
    (hr : (ofAst a).owner? r = some i) : s = r :=
  Option.some.inj (((scopeOf?_eq_some_iff h).2 hs).symm.trans ((scopeOf?_eq_some_iff h).2 hr))

/-- Scopes are ordered as their nodes are. -/
lemma lt_of_owner? (h : a.IsRooted) {r j : Nat} (hs : (ofAst a).owner? s = some i)
    (hr : (ofAst a).owner? r = some j) (hlt : i < j) : s < r := by
  obtain ⟨hs', hi⟩ := List.getElem?_eq_some_iff.1 hs
  obtain ⟨hr', hj⟩ := List.getElem?_eq_some_iff.1 hr
  by_contra hle
  rcases Nat.eq_or_lt_of_le (Nat.le_of_not_lt hle) with rfl | hrs
  · omega
  · have := List.pairwise_iff_getElem.1 (pairwise_owners h) r s hr' hs' hrs
    omega

/-- The innermost scope around a node is that of the last owner above it. -/
lemma head?_around (h : a.IsRooted) : ((ofAst a).around n).head? =
    ((a.ancestors n).find? fun i => (ofAst a).owners.contains i).bind (ofAst a).scopeOf? := by
  rw [around, ofAst_ast, List.head?_filterMap]
  induction a.ancestors n with
  | nil => rfl
  | cons i l ih =>
    rw [List.findSome?_cons, List.find?_cons]
    cases hi : (ofAst a).scopeOf? i with
    | some s =>
      have hmem := mem_owners_of_owner? ((scopeOf?_eq_some_iff h).1 hi)
      rw [List.contains_iff_mem.2 hmem]
      exact hi.symm
    | none =>
      have hmem : (ofAst a).owners.contains i = false := by
        simpa using scopeOf?_eq_none_iff.1 hi
      rw [hmem]
      exact ih

/-- The innermost scope around a node is owned by its nearest ancestor that owns one. -/
lemma head?_around_eq_some_iff (h : a.IsRooted) : ((ofAst a).around n).head? = some s ↔
    ∃ i, (ofAst a).owner? s = some i ∧ i ∈ a.ancestors n ∧
      ∀ j ∈ a.ancestors n, j ∈ (ofAst a).owners → j ≤ i := by
  rw [head?_around h, Option.bind_eq_some_iff]
  simp only [find?_eq_some_iff_of_pairwise (Ast.pairwise_ancestors a n), List.contains_iff_mem,
    scopeOf?_eq_some_iff h]
  constructor
  · rintro ⟨i, ⟨hmem, -, hmax⟩, hs⟩
    exact ⟨i, hs, hmem, hmax⟩
  · rintro ⟨i, hs, hmem, hmax⟩
    exact ⟨i, ⟨hmem, mem_owners_of_owner? hs, hmax⟩, hs⟩

/-- Every node but the root has a scope around it. -/
lemma head?_around_eq (h : a.IsRooted) (hn : n < a.size) (h0 : n ≠ 0) :
    ((ofAst a).around n).head? = some ((ofAst a).enclosing n) := by
  have hzero : 0 ∈ (ofAst a).around n := by
    refine List.mem_filterMap.2 ⟨0, ?_, (scopeOf?_eq_some_iff h).2 (owner?_zero h)⟩
    rw [ofAst_ast]
    exact h.isArena.zero_mem_ancestors hn h0
  unfold enclosing
  cases hl : (ofAst a).around n with
  | nil =>
    rw [hl] at hzero
    cases hzero
  | cons s l => rfl

/-- The scope that encloses a node is owned by its nearest ancestor that owns one. -/
lemma enclosing_eq_iff (h : a.IsRooted) (hn : n < a.size) (h0 : n ≠ 0) : (ofAst a).enclosing n = s ↔
    ∃ i, (ofAst a).owner? s = some i ∧ i ∈ a.ancestors n ∧
      ∀ j ∈ a.ancestors n, j ∈ (ofAst a).owners → j ≤ i := by
  rw [← head?_around_eq_some_iff h, head?_around_eq h hn h0, Option.some.injEq]

/-- Inside a function the scope is that of the innermost one. -/
lemma enclosing_of_innermost (h : a.IsRooted) {f : Nat} (hf : a.Innermost f n) :
    (ofAst a).owner? ((ofAst a).enclosing n) = some f := by
  have hmem := Ast.mem_ancestors.2 ⟨hf.contains, hf.ne⟩
  have hlt := Ast.lt_of_mem_ancestors hmem
  have hn := Ast.lt_size_of_mem_ancestors hmem
  obtain ⟨i, hi, hin, hmax⟩ := (enclosing_eq_iff h hn (by omega)).1 rfl
  have hle := hmax f hmem ((mem_owners h).2 (.inr hf.isFunction))
  rcases (mem_owners h).1 (mem_owners_of_owner? hi) with rfl | hfun
  · rw [hi, Nat.le_zero.1 hle]
  · obtain ⟨hc, hne⟩ := Ast.mem_ancestors.1 hin
    have hge := (Ast.contains_iff.1 (hf.inside i hfun hne hc)).1
    rw [hi, Nat.le_antisymm hge hle]

/-- Outside all functions it is that of the script. -/
lemma enclosing_of_outer (h : a.IsRooted) (hf : ∀ f, ¬ a.Innermost f n) : (ofAst a).enclosing n = 0 := by
  by_cases hn : n < a.size ∧ n ≠ 0
  · have hzero := h.isArena.zero_mem_ancestors hn.1 hn.2
    refine (enclosing_eq_iff h hn.1 hn.2).2 ⟨0, owner?_zero h, hzero, fun j hj hown => ?_⟩
    have hnone := List.find?_eq_none.1 (Ast.enclosingFunction?_eq_none_iff.2 hf) j hj
    rcases (mem_owners h).1 hown with rfl | hfun
    · exact Nat.le_refl 0
    · exact absurd hfun hnone
  · have hnil : a.ancestors n = [] := by
      apply List.eq_nil_iff_forall_not_mem.2
      intro j hj
      have hlt := Ast.lt_of_mem_ancestors hj
      exact hn ⟨Ast.lt_size_of_mem_ancestors hj, by omega⟩
    rw [enclosing, around, ofAst_ast, hnil]
    rfl

/-- The first scope has no parent. -/
lemma parent?_zero (h : a.IsRooted) : (ofAst a).parent? 0 = none := by
  rw [parent?, owner?_zero h, Option.bind_some, around, ofAst_ast, Ast.ancestors_of_root (Ast.parent?_zero a)]
  rfl

/-- The scope around a function is the one that its node belongs to. -/
lemma parent?_eq (h : a.IsRooted) (hs : (ofAst a).owner? s = some i) (h0 : i ≠ 0) :
    (ofAst a).parent? s = some ((ofAst a).enclosing i) := by
  rw [parent?, hs, Option.bind_some]
  exact head?_around_eq h (lt_size_of_mem_owners h (mem_owners_of_owner? hs)) h0

/-- A parent is numbered below its children. -/
lemma parent?_lt (h : a.IsRooted) {p : Nat} (hp : (ofAst a).parent? s = some p) : p < s := by
  obtain ⟨i, hi, hhead⟩ := Option.bind_eq_some_iff.1 hp
  obtain ⟨j, hj, hmem, -⟩ := (head?_around_eq_some_iff h).1 hhead
  exact lt_of_owner? h hj hi (Ast.lt_of_mem_ancestors hmem)

/-- The children of a scope are those whose parent it is. -/
lemma mem_children (h : a.IsRooted) {c : Nat} :
    c ∈ (ofAst a).children s ↔ (ofAst a).parent? c = some s := by
  rw [children, List.mem_filter, beq_iff_eq, and_iff_right_iff_imp]
  intro hp
  have hlt := parent?_lt h hp
  obtain ⟨i, hi, -⟩ := Option.bind_eq_some_iff.1 hp
  have := lt_size_of_owner? hi
  rw [List.mem_range'_1]
  omega

/-- The children of a scope are listed upwards. -/
lemma pairwise_children (t : ScopeTree) (s : Nat) : (t.children s).Pairwise (· < ·) :=
  List.Pairwise.filter _ List.pairwise_lt_range'

/-- A scope owns the nodes below its node that have no function around them in between. -/
lemma mem_ownNodes_of_owner? (h : a.IsRooted) (hi : (ofAst a).owner? s = some i) : n ∈ (ofAst a).ownNodes s ↔
    (a.contains i n = true ∧ ∀ u, a.contains i u = true → a.contains u n = true → u ≠ n →
      u = i ∨ a.isFunction u = false) ∧ n ≠ i := by
  have hsize := lt_size_of_mem_owners h (mem_owners_of_owner? hi)
  unfold ownNodes
  rw [hi]
  simp only [ofAst_ast, List.mem_filter, Ast.mem_reach hsize, Bool.or_eq_true, beq_iff_eq,
    Bool.not_eq_true', bne_iff_ne]

/-- A scope owns the nodes that it is the scope around. -/
lemma mem_ownNodes (h : a.IsRooted) (hs : s < (ofAst a).size) :
    n ∈ (ofAst a).ownNodes s ↔ n ≠ 0 ∧ n < a.size ∧ (ofAst a).enclosing n = s := by
  obtain ⟨i, hi⟩ := exists_owner? hs
  have hsize := lt_size_of_mem_owners h (mem_owners_of_owner? hi)
  rw [mem_ownNodes_of_owner? h hi]
  constructor
  · rintro ⟨⟨hin, hway⟩, hne⟩
    have hmem := Ast.mem_ancestors.2 ⟨hin, Ne.symm hne⟩
    have hlt := Ast.lt_of_mem_ancestors hmem
    have hn := Ast.lt_size_of_contains hin hsize
    refine ⟨by omega, hn, (enclosing_eq_iff h hn (by omega)).2 ⟨i, hi, hmem, fun j hj hown' => ?_⟩⟩
    -- An owner further down would stand between the two, and stop the walk.
    by_contra hlt'
    obtain ⟨hjn, hjne⟩ := Ast.mem_ancestors.1 hj
    have hij : a.contains i j = true := by
      rw [Ast.contains_iff] at *
      omega
    rcases (mem_owners h).1 hown' with rfl | hfun
    · omega
    · rcases hway j hij hjn hjne with rfl | hnot
      · omega
      · rw [hfun] at hnot
        cases hnot
  · rintro ⟨h0, hn, henc⟩
    obtain ⟨i', hi', hmem, hmax⟩ := (enclosing_eq_iff h hn h0).1 henc
    cases hi.symm.trans hi'
    obtain ⟨hin, hne⟩ := Ast.mem_ancestors.1 hmem
    refine ⟨⟨hin, fun u hiu hun hne' => ?_⟩, Ne.symm hne⟩
    cases hfun : a.isFunction u with
    | false => exact .inr rfl
    | true =>
      have hle := hmax u (Ast.mem_ancestors.2 ⟨hun, hne'⟩) ((mem_owners h).2 (.inr hfun))
      exact .inl (Nat.le_antisymm hle (Ast.contains_iff.1 hiu).1)

/-- Every node but the root is owned by a scope, the one around it. -/
lemma owned_iff (h : a.IsRooted) : s ∈ (ofAst a).ids ∧ n ∈ (ofAst a).ownNodes s ↔
    n ≠ 0 ∧ n < a.size ∧ (ofAst a).enclosing n = s := by
  rw [ids, List.mem_range]
  constructor
  · rintro ⟨hs, hn⟩
    exact (mem_ownNodes h hs).1 hn
  · intro hn
    obtain ⟨h0, hsize, henc⟩ := id hn
    obtain ⟨i, hi, -⟩ := (enclosing_eq_iff h hsize h0).1 henc
    have hs := lt_size_of_owner? hi
    exact ⟨hs, (mem_ownNodes h hs).2 hn⟩

/-- The scope `s` is that of the innermost function strictly around `n`, or of the script if there is none. -/
def Surrounds (t : ScopeTree) (s n : Nat) : Prop :=
  (∃ f, t.ast.Innermost f n ∧ t.owner? s = some f) ∨ ((∀ f, ¬ t.ast.Innermost f n) ∧ s = 0)

/-- The scope that encloses a node surrounds it. -/
lemma surrounds_enclosing (h : a.IsRooted) (n : Nat) : (ofAst a).Surrounds ((ofAst a).enclosing n) n := by
  rw [Surrounds, ofAst_ast]
  cases hf : a.enclosingFunction? n with
  | some f =>
    have hf := Ast.enclosingFunction?_eq_some_iff.1 hf
    exact .inl ⟨f, hf, enclosing_of_innermost h hf⟩
  | none =>
    have hf := Ast.enclosingFunction?_eq_none_iff.1 hf
    exact .inr ⟨hf, enclosing_of_outer h hf⟩

/-- Every scope but the script is inside one other. -/
lemma perm_ids (h : a.IsRooted) :
    (ofAst a).ids.Perm (0 :: (ofAst a).ids.flatMap (ofAst a).children) := by
  have hmem : ∀ {s}, s ∈ (ofAst a).ids ↔ s < (ofAst a).size := List.mem_range
  have hnodup : ((ofAst a).ids.flatMap (ofAst a).children).Nodup := by
    refine List.nodup_flatMap.2 ⟨fun s _ => (pairwise_children _ s).imp Nat.ne_of_lt, ?_⟩
    refine List.nodup_range.imp fun {s r} hne c hs hr => hne ?_
    exact Option.some.inj (((mem_children h).1 hs).symm.trans ((mem_children h).1 hr))
  refine (List.perm_ext_iff_of_nodup List.nodup_range (List.nodup_cons.2 ⟨?_, hnodup⟩)).2 fun c => ?_
  · intro h0
    obtain ⟨s, -, hs⟩ := List.mem_flatMap.1 h0
    rw [mem_children h, parent?_zero h] at hs
    cases hs
  · rw [← ids, hmem, List.mem_cons, List.mem_flatMap]
    constructor
    · intro hc
      obtain ⟨i, hi⟩ := exists_owner? hc
      by_cases h0 : i = 0
      · subst h0
        exact .inl (eq_of_owner? h hi (owner?_zero h))
      · have hp := parent?_eq h hi h0
        exact .inr ⟨_, hmem.2 (Nat.lt_trans (parent?_lt h hp) hc), (mem_children h).2 hp⟩
    · rintro (rfl | ⟨s, -, hs⟩)
      · exact lt_size_of_owner? (owner?_zero h)
      · exact (lt_of_mem_children hs).2

/-- What holds of the scopes of a program. -/
structure Shaped (t : ScopeTree) : Prop where
  /-- There is a scope for the root, and one for each function. -/
  mem_owners : ∀ i, i ∈ t.owners ↔ i = 0 ∨ (i < t.ast.size ∧ t.ast.isFunction i = true)
  /-- They are numbered in the order of the file. -/
  owners_ascend : t.owners.Pairwise (· < ·)
  scopeOf?_iff : ∀ i s, t.scopeOf? i = some s ↔ t.owner? s = some i
  parent?_zero : t.parent? 0 = none
  parent? : ∀ s i, t.owner? s = some i → i ≠ 0 → ∃ p, t.parent? s = some p ∧ t.Surrounds p i
  parent?_lt : ∀ s p, t.parent? s = some p → p < s
  mem_children : ∀ s c, c ∈ t.children s ↔ t.parent? c = some s
  children_ascend : ∀ s, (t.children s).Pairwise (· < ·)
  enclosing : ∀ n, t.Surrounds (t.enclosing n) n
  /-- The scopes share out the nodes below the root. -/
  partition : (t.ids.flatMap t.ownNodes).Perm (List.range' 1 (t.ast.size - 1))
  mem_ownNodes : ∀ s < t.size, ∀ n, n ∈ t.ownNodes s ↔ n ≠ 0 ∧ n < t.ast.size ∧ t.enclosing n = s

/-- The scopes of a program are the script and its functions, nested as the functions are, and every node
but the root belongs to the scope that is found upwards from it. -/
theorem ofAst_shaped (h : a.IsRooted) : (ofAst a).Shaped where
  mem_owners i := by
    rw [mem_owners h, ofAst_ast, and_iff_right_of_imp Ast.lt_size_of_isFunction]
  owners_ascend := pairwise_owners h
  scopeOf?_iff _ _ := scopeOf?_eq_some_iff h
  parent?_zero := parent?_zero h
  parent? _ i hs h0 := ⟨_, parent?_eq h hs h0, surrounds_enclosing h i⟩
  parent?_lt _ _ := parent?_lt h
  mem_children _ _ := mem_children h
  children_ascend := pairwise_children _
  enclosing := surrounds_enclosing h
  partition := by
    obtain ⟨x, kids, hT, hsize⟩ := h.exists_tree
    rw [ofAst_ast, hsize, Nat.add_sub_cancel]
    exact perm_ownNodes hT h.outer
  mem_ownNodes s hs n := by
    rw [ofAst_ast]
    exact mem_ownNodes h hs

/-- The program `function f() { x => y }`, punctuation and parameters left out. -/
def nested : Ast :=
  .ofForest "function f() { x => y }" <|
    .cons ⟨"program", none, "", 0, 23, 1⟩
      (.cons ⟨"function_declaration", none, "", 0, 23, 1⟩
        (.cons ⟨"identifier", some "name", "f", 9, 10, 1⟩ .nil
          (.cons ⟨"statement_block", some "body", "", 13, 23, 1⟩
            (.cons ⟨"arrow_function", none, "", 15, 21, 1⟩
              (.cons ⟨"identifier", some "body", "y", 20, 21, 1⟩ .nil .nil) .nil) .nil)) .nil) .nil

/-- A function inside a function: three scopes, and the name of the outer function belongs to itself. -/
theorem ofAst_shaped_nested : nested.IsRooted ∧ (ofAst nested).Shaped ∧
    (ofAst nested).owners = [0, 1, 4] ∧ (ofAst nested).parent? 2 = some 1 ∧
      (ofAst nested).enclosing 2 = 1 := by
  have h : nested.IsRooted := ⟨Ast.isArena_of_root rfl, by decide, by decide⟩
  exact ⟨h, ofAst_shaped h, by decide +kernel, by decide +kernel, by decide +kernel⟩

end ScopeTree

end Mend
