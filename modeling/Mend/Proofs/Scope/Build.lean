import Mend.Proofs.Scope.Resolution

/-!
# Numbering the scopes

The scopes as they are entered one after the other (`Build.run`): every function gets the next number, finds
the scope around it among those entered already, and becomes the last one inside it. Up to any number the
scopes entered are those of the program, each with the scopes inside it that are entered (`Build.Follows`),
because the scope around a function comes before it. So the finished scopes, their insides and the look-up by
node are those of the program (`build_run`).
-/

namespace Mend

open Syntax (Ast)

/-- Where no member is below a number, none is left below it. -/
lemma filter_lt_eq_nil {l : List Nat} {n : Nat} (h : ∀ x ∈ l, n ≤ x) : l.filter (· < n) = [] :=
  List.filter_eq_nil_iff.2 fun x hx => by simpa using h x hx

/-- In a sorted list the members below the next number are those below this one, and this one. -/
lemma filter_lt_succ {l : List Nat} (h : l.Pairwise (· < ·)) (n : Nat) :
    l.filter (· < n + 1) = l.filter (· < n) ++ if n ∈ l then [n] else [] := by
  induction l with
  | nil => rfl
  | cons x l ih =>
    obtain ⟨hx, hl⟩ := List.pairwise_cons.1 h
    rcases Nat.lt_trichotomy x n with hlt | rfl | hgt
    · rw [List.filter_cons_of_pos (by simpa using Nat.lt_succ_of_lt hlt),
        List.filter_cons_of_pos (by simpa using hlt), ih hl, List.cons_append]
      simp only [List.mem_cons, Nat.ne_of_gt hlt, false_or]
    · rw [List.filter_cons_of_pos (by simp), List.filter_cons_of_neg (by simp),
        filter_lt_eq_nil fun y hy => hx y hy, filter_lt_eq_nil fun y hy => Nat.le_of_lt (hx y hy),
        List.nil_append, if_pos List.mem_cons_self]
    · have habove : ∀ y ∈ x :: l, n < y :=
        List.forall_mem_cons.2 ⟨hgt, fun y hy => Nat.lt_trans hgt (hx y hy)⟩
      rw [filter_lt_eq_nil habove, filter_lt_eq_nil fun y hy => Nat.le_of_lt (habove y hy),
        if_neg fun hn => Nat.lt_irrefl n (habove n hn), List.append_nil]

/-- Modifying one entry of a tabulated list changes it at that place. -/
lemma modify_map_range {α : Type} (f : Nat → α) (m i : Nat) (g : α → α) :
    ((List.range m).map f).modify i g = (List.range m).map fun j => if i = j then g (f j) else f j := by
  refine List.ext_getElem? fun j => ?_
  rw [List.getElem?_modify, List.getElem?_map, List.getElem?_map]
  by_cases hj : j < m
  · rw [List.getElem?_range hj]
    split <;> simp [*]
  · rw [List.getElem?_eq_none (by rw [List.length_range]; omega)]
    split <;> rfl

namespace ScopeTree

/-- A scope as it is kept: its node and its name, the scope around it, and those directly inside it. -/
structure Scope where
  node : Nat
  name : String
  parent : Option Nat
  children : List Nat
  deriving DecidableEq, Repr

/-- The scopes entered so far, and beside them the numbers of the scopes by their nodes. -/
structure Build where
  scopes : List Scope
  byNode : List (Nat × Nat)

namespace Build

variable (b : Build)

/-- The scope that a node opens, if it is entered. -/
def scopeOf? (node : Nat) : Option Nat := b.byNode.lookup node

/-- The scope around a node: that of the innermost function around it if it is entered, else the first. -/
def enclosing (a : Ast) (node : Nat) : Nat := ((a.enclosingFunction? node).bind b.scopeOf?).getD 0

/-- Enters a scope with the next number. -/
def push (node : Nat) (name : String) (parent : Option Nat) : Build where
  scopes := b.scopes ++ [⟨node, name, parent, []⟩]
  byNode := (node, b.scopes.length) :: b.byNode

/-- Enters the scope of a function, as the last one inside the scope around it. -/
def addFunction (a : Ast) (node : Nat) : Build :=
  let parent := b.enclosing a node
  let pushed := b.push node (a.functionName node) (some parent)
  { pushed with scopes := pushed.scopes.modify parent fun s =>
      { s with children := s.children ++ [b.scopes.length] } }

/-- Enters the scopes of a program in the order of the file. -/
def run (a : Ast) : Build :=
  match a.root? with
  | none => ⟨[], []⟩
  | some root =>
    (a.ids.filter a.isFunction).foldl (addFunction · a) (push ⟨[], []⟩ root Syntax.scriptName none)

end Build

/-- A scope of a program with those scopes inside it that come before the scope `n`. -/
def scopeBefore (t : ScopeTree) (n s : Nat) : Scope :=
  ⟨(t.owner? s).getD 0, t.name s, t.parent? s, (t.children s).filter (· < n)⟩

/-- A scope of a program. -/
def scope (t : ScopeTree) (s : Nat) : Scope :=
  ⟨(t.owner? s).getD 0, t.name s, t.parent? s, t.children s⟩

/-- The scopes entered are the first `n` of a program. -/
structure Build.Follows (b : Build) (t : ScopeTree) (n : Nat) : Prop where
  scopes : b.scopes = (List.range n).map (t.scopeBefore n)
  scopeOf?_iff : ∀ i s, b.scopeOf? i = some s ↔ s < n ∧ t.owner? s = some i

variable {a : Ast} {b : Build} {t : ScopeTree} {i n s : Nat} {name : String}

/-- The scope `n` is added to the scope around it. -/
lemma scopeBefore_succ_of_parent? (h : a.IsRooted) (hp : (ofAst a).parent? n = some s) :
    (ofAst a).scopeBefore (n + 1) s = { (ofAst a).scopeBefore n s with
      children := ((ofAst a).scopeBefore n s).children ++ [n] } := by
  simp only [scopeBefore, filter_lt_succ (pairwise_children _ s), if_pos ((mem_children h).2 hp)]

/-- It is added to no other scope. -/
lemma scopeBefore_succ_of_ne (h : a.IsRooted) (hp : (ofAst a).parent? n ≠ some s) :
    (ofAst a).scopeBefore (n + 1) s = (ofAst a).scopeBefore n s := by
  simp only [scopeBefore, filter_lt_succ (pairwise_children _ s), if_neg (mt (mem_children h).1 hp),
    List.append_nil]

/-- A scope comes before all scopes inside it. -/
lemma scopeBefore_self (t : ScopeTree) (n : Nat) :
    t.scopeBefore n n = ⟨(t.owner? n).getD 0, t.name n, t.parent? n, []⟩ := by
  have hnone : (t.children n).filter (· < n) = [] := by
    refine List.filter_eq_nil_iff.2 fun c hc => ?_
    have := (lt_of_mem_children hc).1
    simpa using by omega
  rw [scopeBefore, hnone]

/-- Before the scope behind the last, every scope is whole. -/
lemma scopeBefore_size (t : ScopeTree) (s : Nat) : t.scopeBefore t.size s = t.scope s := by
  have hall : (t.children s).filter (· < t.size) = t.children s :=
    List.filter_eq_self.2 fun c hc => decide_eq_true (lt_of_mem_children hc).2
  rw [scopeBefore, scope, hall]

/-- A node is enclosed by a scope of the tree. -/
lemma enclosing_lt_size (h : a.IsRooted) (i : Nat) : (ofAst a).enclosing i < (ofAst a).size := by
  rcases surrounds_enclosing h i with ⟨f, -, hown⟩ | ⟨-, h0⟩
  · exact lt_size_of_owner? hown
  · rw [h0]
    exact lt_size_of_owner? (owner?_zero h)

namespace Build

/-- After so many steps there are as many scopes. -/
lemma Follows.length (hb : b.Follows t n) : b.scopes.length = n := by
  rw [hb.scopes, List.length_map, List.length_range]

/-- The scope around a node is found once it is entered. -/
lemma Follows.enclosing (h : a.IsRooted) (hb : b.Follows (ofAst a) n) (hlt : (ofAst a).enclosing i < n) :
    b.enclosing a i = (ofAst a).enclosing i := by
  rw [Build.enclosing]
  cases hf : a.enclosingFunction? i with
  | none => exact (enclosing_of_outer h (Ast.enclosingFunction?_eq_none_iff.1 hf)).symm
  | some f =>
    have hown := enclosing_of_innermost h (Ast.enclosingFunction?_eq_some_iff.1 hf)
    rw [Option.bind_some, (hb.scopeOf?_iff _ _).2 ⟨hlt, hown⟩, Option.getD_some]

/-- Entering the scope `n` enters what is known of it then. -/
lemma Follows.scopes_push (hb : b.Follows t n) (hn : t.owner? n = some i) :
    (b.push i (t.name n) (t.parent? n)).scopes = (List.range (n + 1)).map (t.scopeBefore n) := by
  rw [push, hb.scopes, List.range_succ, List.map_append, List.map_singleton, scopeBefore_self, hn,
    Option.getD_some]

/-- The look-up after one more scope is pushed. -/
lemma Follows.scopeOf?_push (h : a.IsRooted) (hb : b.Follows (ofAst a) n) (hn : (ofAst a).owner? n = some i)
    (name : String) (parent : Option Nat) (j s : Nat) :
    (b.push i name parent).scopeOf? j = some s ↔ s < n + 1 ∧ (ofAst a).owner? s = some j := by
  rw [Build.scopeOf?, push, hb.length, List.lookup_cons]
  by_cases hj : j = i
  · subst hj
    rw [beq_self_eq_true, Option.some.injEq]
    constructor
    · rintro rfl
      exact ⟨Nat.lt_succ_self n, hn⟩
    · rintro ⟨-, hs⟩
      exact eq_of_owner? h hn hs
  · rw [beq_eq_false_iff_ne.2 hj]
    refine (hb.scopeOf?_iff j s).trans (and_congr_left fun hs => ?_)
    have hne : s ≠ n := by
      rintro rfl
      exact hj (Option.some.inj (hs.symm.trans hn))
    omega

/-- Entering the function of the scope `n` enters that scope, and adds it to the scope around it. -/
lemma Follows.addFunction (h : a.IsRooted) (hb : b.Follows (ofAst a) n)
    (hn : (ofAst a).owner? n = some i) (h0 : i ≠ 0) : (b.addFunction a i).Follows (ofAst a) (n + 1) := by
  have hp := parent?_eq h hn h0
  -- The scope around a function comes before it, so that it is entered.
  have hlt := parent?_lt h hp
  have hname : (ofAst a).name n = a.functionName i := by
    rw [ScopeTree.name, if_neg (by omega), hn, Option.elim_some, ofAst_ast]
  constructor
  · rw [Build.addFunction, hb.enclosing h hlt, ← hname, ← hp, hb.scopes_push hn, modify_map_range,
      hb.length]
    refine List.map_congr_left fun s _ => ?_
    split
    · next heq => exact (scopeBefore_succ_of_parent? h (heq ▸ hp)).symm
    · next hne => exact (scopeBefore_succ_of_ne h (by rw [hp, ne_eq, Option.some.injEq]; exact hne)).symm
  · exact hb.scopeOf?_push h hn (a.functionName i) (some (b.enclosing a i))

/-! ## The whole run -/

/-- Adding functions keeps following the tree. -/
lemma Follows.foldl_addFunction (h : a.IsRooted) (before fs : List Nat) (hne : before ≠ [])
    (hown : (ofAst a).owners = before ++ fs) (hb : b.Follows (ofAst a) before.length) :
    (fs.foldl (Build.addFunction · a) b).Follows (ofAst a) (ofAst a).size := by
  induction fs generalizing before b with
  | nil =>
    rw [size, hown, List.append_nil]
    exact hb
  | cons i fs ih =>
    have hi : (ofAst a).owner? before.length = some i := by
      rw [owner?, hown, List.getElem?_append_right (Nat.le_refl _), Nat.sub_self, List.getElem?_cons_zero]
    have h0 : i ≠ 0 := by
      rintro rfl
      exact hne (List.length_eq_zero_iff.1 (eq_of_owner? h hi (owner?_zero h)))
    rw [List.foldl_cons]
    refine ih (before ++ [i]) (by simp) (by rw [hown, List.append_assoc, List.singleton_append]) ?_
    rw [List.length_append, List.length_singleton]
    exact hb.addFunction h hi h0

/-- The scopes entered are those of the program. -/
lemma run_follows (h : a.IsRooted) : (run a).Follows (ofAst a) (ofAst a).size := by
  have hroot : a.root? = some 0 := by
    rw [Ast.root?, if_neg (by have := h.size_pos; omega)]
  have hempty : (⟨[], []⟩ : Build).Follows (ofAst a) 0 := ⟨rfl, fun _ _ => by simp [Build.scopeOf?]⟩
  have hfirst : (push ⟨[], []⟩ 0 Syntax.scriptName none).Follows (ofAst a) 1 := by
    constructor
    · have hpush := hempty.scopes_push (owner?_zero h)
      rw [parent?_zero h, ScopeTree.name, if_pos rfl] at hpush
      rw [hpush, List.range_one, List.map_singleton, List.map_singleton,
        scopeBefore_succ_of_ne h (by rw [parent?_zero h]; exact (Option.some_ne_none 0).symm)]
    · exact hempty.scopeOf?_push h (owner?_zero h) Syntax.scriptName none
  rw [run, hroot]
  exact hfirst.foldl_addFunction h [0] _ (by simp) (by rw [ofAst_owners, hroot]; rfl)

end Build

/-- Entering the scopes of a program one after the other gives all of them with all that is inside them, and
the look-ups by node that the finished scopes give. -/
theorem build_run (h : a.IsRooted) :
    (Build.run a).scopes = (ofAst a).ids.map (ofAst a).scope ∧
      (∀ i, (Build.run a).scopeOf? i = (ofAst a).scopeOf? i) ∧
        ∀ i, (Build.run a).enclosing a i = (ofAst a).enclosing i := by
  have hrun := Build.run_follows h
  have hscopeOf : ∀ i, (Build.run a).scopeOf? i = (ofAst a).scopeOf? i := fun i => Option.ext fun s => by
    rw [hrun.scopeOf?_iff, scopeOf?_eq_some_iff h, and_iff_right_iff_imp]
    exact lt_size_of_owner?
  refine ⟨?_, hscopeOf, fun i => hrun.enclosing h (enclosing_lt_size h i)⟩
  rw [hrun.scopes, ids]
  exact List.map_congr_left fun s _ => scopeBefore_size _ s

example : (Build.run nested).scopes.map (·.children) = [[1], [2], []] := by decide +kernel

end ScopeTree

end Mend
