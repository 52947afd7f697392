import Mathlib.Logic.Relation
import Mend.Proofs.Scope.Resolution

/-!
# Assignments make globals

A name is looked up along the parent links (`Finds`), and the walk ends because parents have smaller numbers
(`finds_iff`). The assignments are taken in turn, each against the globals that those before it have made.
What comes of this can be told without the turns (`declaration?_foldl`): the script declares what its nodes
declare, and besides each name that some assignment frees, by the first such assignment (`free?`). So every
plain name that is assigned to is found in the end, in the innermost scope that declares it
(`ofAst_finds_assigned`).
-/

namespace Mend

open Syntax (Ast)

namespace ScopeTree

/-- Along the parent links one comes from a scope to another, or stays. -/
def Within (t : ScopeTree) : Nat → Nat → Prop := Relation.ReflTransGen fun s p => t.parent? s = some p

/-- The walk along the parent links from a scope ends in the scope `r`, where a name is declared by the node
`site`. -/
inductive Finds (t : ScopeTree) (name : String) : Nat → Nat → Nat → Prop
  | here {s site} : t.declaration? s name = some site → Finds t name s s site
  | outwards {s p r site} : t.declaration? s name = none → t.parent? s = some p → Finds t name p r site →
      Finds t name s r site

/-- A node declares the name in the scope. -/
def Declares (t : ScopeTree) (s : Nat) (name : String) : Prop :=
  ∃ i ∈ t.ast.ids, ∃ n, ⟨s, name, n⟩ ∈ t.declarationsAt i

/-- An assignment to the plain name at `left`, which no node declares in the scopes around the assignment. -/
structure Frees (t : ScopeTree) (name : String) (i left : Nat) : Prop where
  assigned : assigned? t.ast i = some left
  label : t.ast.label left = name
  undeclared : ∀ s, t.Within (t.enclosing i) s → ¬ t.Declares s name

/-- The plain name assigned to at a node, if it is the given one and nothing declares it. -/
def free? (t : ScopeTree) (name : String) (i : Nat) : Option Nat :=
  (assigned? t.ast i).filter fun left =>
    t.ast.label left == name && (t.resolve? (t.enclosing i) name).isNone

variable {a : Ast} {t : ScopeTree} {i left n p r s site : Nat} {name : String}

/-- A name is assigned by an assignment whose left side is an identifier. -/
lemma assigned?_eq_some_iff : assigned? a i = some left ↔
    a.kind i = "assignment_expression" ∧ a.child? i "left" = some left ∧ a.kind left = "identifier" := by
  rw [assigned?]
  split
  · next hkind => simp [hkind]
  · next hkind => simp [hkind]

/-! ### The walk along the parent links -/

/-- The chain of a scope is the scope and the chain of its parent. -/
lemma chain_eq_of_parent? (h : a.IsRooted) (hp : (ofAst a).parent? s = some p) :
    (ofAst a).chain s = s :: (ofAst a).chain p := by
  obtain ⟨i, hi, hhead⟩ := Option.bind_eq_some_iff.1 hp
  obtain ⟨j, -, hmem, -⟩ := (head?_around_eq_some_iff h).1 hhead
  have hlt := Ast.lt_of_mem_ancestors hmem
  have hsize := lt_size_of_mem_owners h (mem_owners_of_owner? hi)
  have hne : i ≠ 0 := by omega
  have heq := head?_around_eq h hsize hne
  rw [hhead, Option.some_inj] at heq
  rw [heq, chain_enclosing h hsize hne, chain, hi]
  rfl

/-- The chain of an outermost scope is the scope alone. -/
lemma chain_eq_of_outermost (hp : (ofAst a).parent? s = none) : (ofAst a).chain s = [s] := by
  rw [chain]
  cases hi : (ofAst a).owner? s with
  | none => rfl
  | some i =>
    rw [parent?, hi, Option.bind_some, List.head?_eq_none_iff] at hp
    rw [Option.elim_some, hp]

/-- A name declared in a scope is found there. -/
lemma resolve?_of_declaration? (hd : t.declaration? s name = some site) :
    t.resolve? s name = some (s, site) := by
  rw [resolve?, chain, List.findSome?_cons, hd]
  rfl

/-- A name not declared in a scope is looked up in its parent. -/
lemma resolve?_of_parent? (h : a.IsRooted) (hd : (ofAst a).declaration? s name = none)
    (hp : (ofAst a).parent? s = some p) : (ofAst a).resolve? s name = (ofAst a).resolve? p name := by
  rw [resolve?, chain_eq_of_parent? h hp, List.findSome?_cons, hd]
  rfl

/-- A name not declared in an outermost scope is not found. -/
lemma resolve?_of_outermost (hd : (ofAst a).declaration? s name = none)
    (hp : (ofAst a).parent? s = none) : (ofAst a).resolve? s name = none := by
  rw [resolve?, chain_eq_of_outermost hp, List.findSome?_cons, hd]
  rfl

/-- What is looked up is what the walk finds. -/
lemma finds_iff (h : a.IsRooted) :
    (ofAst a).Finds name s r site ↔ (ofAst a).resolve? s name = some (r, site) := by
  constructor
  · intro hf
    induction hf with
    | here hd => exact resolve?_of_declaration? hd
    | outwards hd hp _ ih => exact (resolve?_of_parent? h hd hp).trans ih
  · -- Parents have smaller numbers.
    induction s using Nat.strongRecOn with
    | _ s ih =>
      intro hr
      cases hd : (ofAst a).declaration? s name with
      | some n =>
        rw [resolve?_of_declaration? hd] at hr
        cases hr
        exact .here hd
      | none =>
        cases hp : (ofAst a).parent? s with
        | some p =>
          rw [resolve?_of_parent? h hd hp] at hr
          exact .outwards hd hp (ih p (parent?_lt h hp) hr)
        | none =>
          rw [resolve?_of_outermost hd hp] at hr
          cases hr

/-- The chain of a scope holds the scopes it lies within. -/
lemma mem_chain_iff (h : a.IsRooted) : r ∈ (ofAst a).chain s ↔ (ofAst a).Within s r := by
  induction s using Nat.strongRecOn with
  | _ s ih =>
    rw [Within, Relation.ReflTransGen.cases_head_iff]
    cases hp : (ofAst a).parent? s with
    | some p =>
      rw [chain_eq_of_parent? h hp, List.mem_cons, ih p (parent?_lt h hp), eq_comm]
      simp [Within]
    | none =>
      rw [chain_eq_of_outermost hp, List.mem_singleton, eq_comm]
      simp

/-- A name is found where it is declared. -/
lemma Finds.declaration? (hf : t.Finds name s r site) : t.declaration? r name = some site := by
  induction hf with
  | here hd => exact hd
  | outwards _ _ _ ih => exact ih

/-- A name is found in a scope around the one it is looked up from. -/
lemma Finds.within (hf : t.Finds name s r site) : t.Within s r := by
  induction hf with
  | here => exact .refl
  | outwards _ hp _ ih => exact .head hp ih

/-- A scope lies within scopes numbered no higher. -/
lemma le_of_within (h : a.IsRooted) (hw : (ofAst a).Within s r) : r ≤ s := by
  induction hw with
  | refl => exact Nat.le_refl s
  | tail _ hp ih => exact Nat.le_trans (Nat.le_of_lt (parent?_lt h hp)) ih

/-- The scopes on the way to the one that is found do not declare the name. -/
lemma Finds.innermost (h : a.IsRooted) (hf : (ofAst a).Finds name s r site) {q : Nat}
    (hq : (ofAst a).Within s q) (hr : (ofAst a).Within q r) (hne : q ≠ r) :
    (ofAst a).declaration? q name = none := by
  induction hf with
  | here =>
    exact absurd (Nat.le_antisymm (le_of_within h hq) (le_of_within h hr)) hne
  | outwards hd hp _ ih =>
    rcases Relation.ReflTransGen.cases_head hq with rfl | ⟨p', hp', hq⟩
    · exact hd
    · cases hp.symm.trans hp'
      exact ih hq hr hne

/-! ### Assignments in turn -/

/-- A name is not found iff no scope of the chain declares it. -/
lemma resolve?_eq_none_iff : t.resolve? s name = none ↔ ∀ r ∈ t.chain s, t.declaration? r name = none := by
  simp only [resolve?, List.findSome?_eq_none_iff, Option.map_eq_none_iff]

/-- The scopes around a node depend on the tree and on the owners of the scopes. -/
lemma scopes_congr {t' : ScopeTree} (hast : t.ast = t'.ast) (howners : t.owners = t'.owners) :
    t.enclosing = t'.enclosing ∧ t.chain = t'.chain ∧ t.parent? = t'.parent? := by
  cases t
  cases t'
  cases hast
  cases howners
  exact ⟨rfl, rfl, rfl⟩

/-- Adding a global changes no enclosing scope. -/
@[simp] lemma addGlobal_enclosing (t : ScopeTree) (i : Nat) : (t.addGlobal i).enclosing = t.enclosing :=
  (scopes_congr (addGlobal_ast t i) (addGlobal_owners t i)).1

/-- Adding a global changes no chain. -/
@[simp] lemma addGlobal_chain (t : ScopeTree) (i : Nat) : (t.addGlobal i).chain = t.chain :=
  (scopes_congr (addGlobal_ast t i) (addGlobal_owners t i)).2.1

/-- One assignment adds a declaration to the script, behind those that are there. -/
lemma declaration?_addGlobal (t : ScopeTree) (i s : Nat) (name : String) :
    (t.addGlobal i).declaration? s name =
      (t.declaration? s name).or (if s = 0 then t.free? name i else none) := by
  rw [addGlobal, free?]
  cases hleft : assigned? t.ast i with
  | none => simp
  | some left =>
    rw [Option.filter_some]
    dsimp only
    cases hfree : (t.resolve? (t.enclosing i) (t.ast.label left)).isNone with
    | true =>
      rw [if_pos rfl, declaration?, List.find?_append, Option.map_or, ← declaration?]
      congr 1
      by_cases hs : s = 0
      · by_cases hname : t.ast.label left = name
        · subst hs hname
          simp [hfree]
        · simp [hs, hname]
      · simp [hs, Ne.symm hs]
    | false =>
      rw [if_neg Bool.false_ne_true]
      by_cases hname : t.ast.label left = name
      · subst hname
        simp [hfree]
      · simp [hname]

/-- Once a node has added its global, the name is free at no node. -/
lemma free?_addGlobal {j : Nat} (hzero : 0 ∈ t.chain (t.enclosing j)) :
    (t.addGlobal i).free? name j = if (t.free? name i).isNone then t.free? name j else none := by
  have hnone : ((t.addGlobal i).resolve? (t.enclosing j) name).isNone =
      ((t.resolve? (t.enclosing j) name).isNone && (t.free? name i).isNone) := by
    rw [Bool.eq_iff_iff, Bool.and_eq_true]
    simp only [Option.isNone_iff_eq_none, resolve?_eq_none_iff, addGlobal_chain, declaration?_addGlobal,
      Option.or_eq_none_iff]
    constructor
    · intro hall
      exact ⟨fun r hr => (hall r hr).1, by simpa using (hall 0 hzero).2⟩
    · rintro ⟨hall, hfree⟩ r hr
      exact ⟨hall r hr, by simp [hfree]⟩
  rw [free?, addGlobal_ast, addGlobal_enclosing, hnone]
  cases (t.free? name i).isNone with
  | true => simp only [Bool.and_true, if_true, free?]
  | false => simp

/-- Of the assignments to a name that is free at first, the first one makes the global. -/
lemma declaration?_foldl (hzero : ∀ i, 0 ∈ t.chain (t.enclosing i)) (l : List Nat) :
    (l.foldl addGlobal t).declaration? s name =
      (t.declaration? s name).or (if s = 0 then l.findSome? (t.free? name) else none) := by
  induction l generalizing t with
  | nil => simp
  | cons i l ih =>
    have hzero' : ∀ j, 0 ∈ (t.addGlobal i).chain ((t.addGlobal i).enclosing j) := by
      simpa using hzero
    have hlater : (t.addGlobal i).free? name =
        fun j => if (t.free? name i).isNone then t.free? name j else none :=
      funext fun j => free?_addGlobal (hzero j)
    rw [List.foldl_cons, ih hzero', declaration?_addGlobal, Option.or_assoc, hlater, List.findSome?_cons]
    congr 1
    split
    · cases t.free? name i <;> simp
    · rfl

/-- After all turns, whatever is assigned to is declared in some scope around the assignment. -/
lemma resolve?_foldl_ne_none (hzero : ∀ i, 0 ∈ t.chain (t.enclosing i)) {l : List Nat} (hi : i ∈ l)
    (hleft : assigned? t.ast i = some left) :
    (l.foldl addGlobal t).resolve? ((l.foldl addGlobal t).enclosing i) (t.ast.label left) ≠ none := by
  obtain ⟨henclosing, hchain, -⟩ := scopes_congr (foldl_addGlobal t l).1 (foldl_addGlobal t l).2
  rw [henclosing, Ne, resolve?_eq_none_iff, hchain]
  intro hall
  -- Then the assignment is free and makes a global, so that the script declares the name after all.
  have hnone : t.resolve? (t.enclosing i) (t.ast.label left) = none := by
    refine resolve?_eq_none_iff.2 fun r hr => ?_
    have h := hall r hr
    rw [declaration?_foldl hzero, Option.or_eq_none_iff] at h
    exact h.1
  have hfree : t.free? (t.ast.label left) i = some left := by
    rw [free?, hleft, Option.filter_some, hnone]
    simp
  have h := hall 0 (hzero i)
  rw [declaration?_foldl hzero, if_pos rfl, Option.or_eq_none_iff, List.findSome?_eq_none_iff] at h
  rw [h.2 i hi] at hfree
  cases hfree

/-! ### The scopes of a program -/

/-- The scopes of a program with the declarations that its nodes make. -/
def bare (a : Ast) : ScopeTree :=
  let t : ScopeTree := ⟨a, a.root?.toList ++ a.ids.filter a.isFunction, []⟩
  { t with declarations := a.ids.flatMap t.declarationsAt }

/-- A scope tree is the bare one with the globals added node by node. -/
lemma ofAst_eq_foldl (a : Ast) : ofAst a = a.ids.foldl addGlobal (bare a) := rfl

/-- The bare tree has the scopes of the whole one. -/
lemma bare_scopes (a : Ast) :
    (bare a).enclosing = (ofAst a).enclosing ∧ (bare a).chain = (ofAst a).chain := by
  obtain ⟨henclosing, hchain, -⟩ := scopes_congr (t := bare a) (ofAst_ast a).symm (ofAst_owners a).symm
  exact ⟨henclosing, hchain⟩

/-- The bare tree holds exactly what is declared outright. -/
lemma declaration?_bare_eq_none_iff :
    (bare a).declaration? s name = none ↔ ¬ (ofAst a).Declares s name := by
  have hat : ∀ i, declarationsAt ⟨a, a.root?.toList ++ a.ids.filter a.isFunction, []⟩ i =
      (ofAst a).declarationsAt i := fun i =>
    declarationsAt_congr (ofAst_ast a).symm (ofAst_owners a).symm
  rw [declaration?, Option.map_eq_none_iff, List.find?_eq_none, Declares, ofAst_ast]
  simp only [bare, hat, List.mem_flatMap, Bool.and_eq_true, beq_iff_eq]
  constructor
  · rintro hall ⟨i, hi, n, hn⟩
    exact hall _ ⟨i, hi, hn⟩ ⟨rfl, rfl⟩
  · rintro hnot d ⟨i, hi, hd⟩ ⟨rfl, rfl⟩
    exact hnot ⟨i, hi, d.node, hd⟩

/-- The program's scope is on every chain. -/
lemma zero_mem_chain_enclosing (h : a.IsRooted) (i : Nat) :
    0 ∈ (ofAst a).chain ((ofAst a).enclosing i) := by
  obtain ⟨x, kids, hT, -⟩ := h.exists_tree
  apply zero_mem_chain hT h.outer
  rcases surrounds_enclosing h i with ⟨f, -, howner⟩ | ⟨-, hzero⟩
  · exact lt_size_of_owner? howner
  · rw [hzero]
    exact lt_size_of_owner? (owner?_zero h)

/-- The program's scope is on every chain of the bare tree. -/
lemma zero_mem_chain_bare (h : a.IsRooted) (i : Nat) : 0 ∈ (bare a).chain ((bare a).enclosing i) := by
  rw [(bare_scopes a).1, (bare_scopes a).2]
  exact zero_mem_chain_enclosing h i

/-- A name is free in the bare tree iff its assignment frees it. -/
lemma free?_bare_eq_some_iff (h : a.IsRooted) :
    (bare a).free? name i = some left ↔ (ofAst a).Frees name i left := by
  have hscopes : (bare a).resolve? ((bare a).enclosing i) name = none ↔
      ∀ s, (ofAst a).Within ((ofAst a).enclosing i) s → ¬ (ofAst a).Declares s name := by
    simp only [resolve?_eq_none_iff, (bare_scopes a).1, (bare_scopes a).2, mem_chain_iff h,
      declaration?_bare_eq_none_iff]
  rw [free?, Option.filter_eq_some_iff, Bool.and_eq_true, beq_iff_eq, Option.isNone_iff_eq_none, hscopes]
  constructor
  · rintro ⟨hleft, hlabel, hnone⟩
    exact ⟨by rw [ofAst_ast]; exact hleft, by rw [ofAst_ast]; exact hlabel, hnone⟩
  · rintro ⟨hleft, hlabel, hnone⟩
    rw [ofAst_ast] at hleft hlabel
    exact ⟨hleft, hlabel, hnone⟩

/-- Beyond what the nodes declare there, the script declares the names that assignments free. -/
lemma declaration?_zero_iff (h : a.IsRooted) (hnode : ¬ (ofAst a).Declares 0 name) :
    (ofAst a).declaration? 0 name = some n ↔
      ∃ i, (ofAst a).Frees name i n ∧ ∀ j < i, ∀ m, ¬ (ofAst a).Frees name j m := by
  have hdeclaration : (ofAst a).declaration? 0 name = a.ids.findSome? ((bare a).free? name) := by
    rw [ofAst_eq_foldl, declaration?_foldl (zero_mem_chain_bare h), if_pos rfl,
      declaration?_bare_eq_none_iff.2 hnode, Option.none_or]
  have hids : a.ids.Pairwise (· < ·) := List.pairwise_lt_range
  rw [hdeclaration, findSome?_eq_some_iff_of_pairwise hids]
  constructor
  · rintro ⟨i, hi, hfree, hfirst⟩
    refine ⟨i, (free?_bare_eq_some_iff h).1 hfree, fun j hj m hm => ?_⟩
    have hnone := hfirst j (Ast.mem_ids.2 (Nat.lt_trans hj (Ast.mem_ids.1 hi))) hj
    rw [(free?_bare_eq_some_iff h).2 hm] at hnone
    cases hnone
  · rintro ⟨i, hfrees, hfirst⟩
    have hkind := (assigned?_eq_some_iff.1 hfrees.assigned).1
    rw [ofAst_ast] at hkind
    refine ⟨i, Ast.mem_ids.2 (Ast.lt_size_of_kind_mem (List.mem_singleton.2 hkind) (by decide)),
      (free?_bare_eq_some_iff h).2 hfrees, fun j _ hj => Option.eq_none_iff_forall_ne_some.2 ?_⟩
    exact fun m hm => hfirst j hj m ((free?_bare_eq_some_iff h).1 hm)

/-- A name that is assigned is found from there. -/
lemma exists_finds_of_assigned (h : a.IsRooted) (hleft : assigned? a i = some left) :
    ∃ s site, (ofAst a).Finds (a.label left) ((ofAst a).enclosing i) s site := by
  have hkind := (assigned?_eq_some_iff.1 hleft).1
  have hi : i ∈ a.ids := Ast.mem_ids.2 (Ast.lt_size_of_kind_mem (List.mem_singleton.2 hkind) (by decide))
  have hne := resolve?_foldl_ne_none (zero_mem_chain_bare h) hi hleft
  rw [← ofAst_eq_foldl] at hne
  obtain ⟨⟨s, site⟩, hsome⟩ := Option.ne_none_iff_exists'.1 hne
  exact ⟨s, site, (finds_iff h).2 hsome⟩

/-- In a tree without nodes nothing is assigned to, and nothing is declared. -/
lemma ofAst_of_size_eq_zero (h : a.size = 0) : (ofAst a).owners = [] ∧ (ofAst a).declarations = [] := by
  have hids : a.ids = [] := by rw [Ast.ids, h, List.range_zero]
  rw [ofAst_owners, ofAst_eq_foldl, hids, Ast.root?, if_pos h]
  exact ⟨rfl, congrArg (List.flatMap _) hids⟩

/-- An empty tree assigns nothing. -/
lemma assigned?_of_size_eq_zero (h : a.size = 0) (i : Nat) : assigned? a i = none := by
  have hkind := Ast.kind_eq_empty (a := a) (i := i) (by omega)
  rw [assigned?, hkind]
  rfl

/-- A plain name that is assigned to is found from the scope around the assignment, in the innermost scope
that declares it. Beyond what its nodes declare, the script declares just the names that are assigned to
where nothing around declares them, each by the first such assignment. -/
theorem ofAst_finds_assigned (h : a.IsArena) (houter : a.isFunction 0 = false) :
    (∀ s p, (ofAst a).parent? s = some p → p < s) ∧
    (∀ i left, a.kind i = "assignment_expression" → a.child? i "left" = some left →
      a.kind left = "identifier" → ∃ s site,
        (ofAst a).Finds (a.label left) ((ofAst a).enclosing i) s site ∧
        (ofAst a).resolve? ((ofAst a).enclosing i) (a.label left) = some (s, site) ∧
        (ofAst a).Within ((ofAst a).enclosing i) s ∧ (a.label left, site) ∈ (ofAst a).declared s ∧
        ∀ r, (ofAst a).Within ((ofAst a).enclosing i) r → (ofAst a).Within r s → r ≠ s →
          ∀ m, (a.label left, m) ∉ (ofAst a).declared r) ∧
    ∀ name n, ¬ (ofAst a).Declares 0 name → ((name, n) ∈ (ofAst a).declared 0 ↔
      ∃ i, (ofAst a).Frees name i n ∧ ∀ j < i, ∀ m, ¬ (ofAst a).Frees name j m) := by
  rcases Nat.eq_zero_or_pos a.size with hempty | hpos
  · obtain ⟨howners, hdeclarations⟩ := ofAst_of_size_eq_zero hempty
    refine ⟨fun s p hp => ?_, fun i left hkind hchild hname => ?_, fun name n _ => ?_⟩
    · rw [parent?, owner?, howners] at hp
      cases hp
    · have hnone := assigned?_of_size_eq_zero hempty i
      rw [assigned?_eq_some_iff.2 ⟨hkind, hchild, hname⟩] at hnone
      cases hnone
    · rw [mem_declared, declaration?, hdeclarations]
      constructor
      · intro hdeclared
        cases hdeclared
      · rintro ⟨i, hfrees, -⟩
        have hassigned := hfrees.assigned
        rw [ofAst_ast, assigned?_of_size_eq_zero hempty i] at hassigned
        cases hassigned
  · have hrooted : a.IsRooted := ⟨h, hpos, houter⟩
    refine ⟨fun s p => parent?_lt hrooted, fun i left hkind hchild hname => ?_, fun name n hnode => ?_⟩
    · obtain ⟨s, site, hfinds⟩ :=
        exists_finds_of_assigned hrooted (assigned?_eq_some_iff.2 ⟨hkind, hchild, hname⟩)
      refine ⟨s, site, hfinds, (finds_iff hrooted).1 hfinds, hfinds.within,
        mem_declared.2 hfinds.declaration?, fun r hr hrs hne m hm => ?_⟩
      have hnone := hfinds.innermost hrooted hr hrs hne
      rw [mem_declared.1 hm] at hnone
      cases hnone
    · rw [mem_declared]
      exact declaration?_zero_iff hrooted hnode

/-- The program `function f(y) { g = 1; y = 2; } g = 3;`, punctuation left out. -/
def leaking : Ast :=
  .ofForest "function f(y) { g = 1; y = 2; } g = 3;" <|
    .cons ⟨"program", none, "", 0, 38, 1⟩
      (.cons ⟨"function_declaration", none, "", 0, 31, 1⟩
        (.cons ⟨"identifier", some "name", "f", 9, 10, 1⟩ .nil
          (.cons ⟨"formal_parameters", some "parameters", "", 10, 13, 1⟩
            (.cons ⟨"identifier", none, "y", 11, 12, 1⟩ .nil .nil)
            (.cons ⟨"statement_block", some "body", "", 14, 31, 1⟩
              (.cons ⟨"assignment_expression", none, "", 16, 21, 1⟩
                (.cons ⟨"identifier", some "left", "g", 16, 17, 1⟩ .nil
                  (.cons ⟨"number", some "right", "1", 20, 21, 1⟩ .nil .nil))
                (.cons ⟨"assignment_expression", none, "", 23, 28, 1⟩
                  (.cons ⟨"identifier", some "left", "y", 23, 24, 1⟩ .nil
                    (.cons ⟨"number", some "right", "2", 27, 28, 1⟩ .nil .nil)) .nil)) .nil)))
        (.cons ⟨"assignment_expression", none, "", 32, 37, 1⟩
          (.cons ⟨"identifier", some "left", "g", 32, 33, 1⟩ .nil
            (.cons ⟨"number", some "right", "3", 36, 37, 1⟩ .nil .nil)) .nil)) .nil

/-- The assignment inside the function makes `g` a global, that to `y` finds the parameter. -/
theorem ofAst_finds_assigned_leaking : leaking.IsArena ∧ leaking.isFunction 0 = false ∧
    (∃ s site, (ofAst leaking).Finds (leaking.label 10) ((ofAst leaking).enclosing 9) s site) ∧
    (ofAst leaking).resolve? ((ofAst leaking).enclosing 9) (leaking.label 10) = some (1, 4) ∧
    (ofAst leaking).declared 0 = [("f", 2), ("g", 7)] ∧
    ∃ i, (ofAst leaking).Frees "g" i 7 ∧ ∀ j < i, ∀ m, ¬ (ofAst leaking).Frees "g" j m := by
  have h : leaking.IsArena := Ast.isArena_of_root rfl
  have houter : leaking.isFunction 0 = false := by decide
  obtain ⟨-, hassigned, hglobal⟩ := ofAst_finds_assigned h houter
  obtain ⟨s, site, hfinds, -⟩ := hassigned 9 10 (by decide) (by decide) (by decide)
  have hdeclared : (ofAst leaking).declared 0 = [("f", 2), ("g", 7)] := by decide +kernel
  have hnode : ¬ (ofAst leaking).Declares 0 "g" := declaration?_bare_eq_none_iff.1 (by decide +kernel)
  exact ⟨h, houter, ⟨s, site, hfinds⟩, by decide +kernel, hdeclared,
    (hglobal "g" 7 hnode).1 (by rw [hdeclared]; decide)⟩

end ScopeTree

end Mend
