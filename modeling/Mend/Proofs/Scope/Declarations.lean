import Mend.Proofs.Scope.Shape
import Mend.Proofs.Syntax.Reading

/-!
# What the scopes declare

`Ast.Binds` says which names a pattern binds, and `ScopeTree.Bound` which names are bound directly in a
scope. All of these are declared there, and nothing else is but the globals that assignments make
(`ofAst_declares`). The name `undefined` is left out, as its node is of a kind of its own.

The declarations are those made at the nodes, one after the other (`mem_declarationsAt`), with the globals
behind them (`exists_declarations_eq`). So a name that a node declares has a declaration that counts, and
it comes from a node too.

The head of a `for` statement over the members of an object declares nothing, with a keyword or without
(`declaration?_of_forHead`).
-/

namespace Mend

open Syntax (Ast Source Token)

namespace Syntax.Ast

/-- The names that a pattern binds: a name itself, the target in front of a default, the value behind a key,
and whatever the parts of an object, an array or a rest bind. -/
inductive Binds (a : Ast) : Nat → Nat → Prop
  | name {p} : a.kind p ∈ ["identifier", "shorthand_property_identifier_pattern", "undefined"] → Binds a p p
  | default {p c n} : a.kind p ∈ ["assignment_pattern", "object_assignment_pattern"] →
      a.child? p "left" = some c → Binds a c n → Binds a p n
  | pair {p c n} : a.kind p = "pair_pattern" → a.child? p "value" = some c → Binds a c n → Binds a p n
  | part {p c n} : a.kind p ∈ ["object_pattern", "array_pattern", "rest_pattern"] → c ∈ a.children p →
      Binds a c n → Binds a p n

variable {a : Ast} {n : Nat}

/-- A node with a kind is a node of the tree. -/
lemma lt_size_of_kind_mem {kinds : List String} (h : a.kind n ∈ kinds) (hkinds : "" ∉ kinds) : n < a.size := by
  by_contra hn
  rw [kind, row?_eq_none (Nat.le_of_not_lt hn)] at h
  exact hkinds h

end Syntax.Ast

namespace ScopeTree

/-- The names bound directly in a scope: by the parameters of its function, by the name of a function
expression, and by the declarators, declarations and clauses that it is the scope around. -/
inductive Bound (t : ScopeTree) (s : Nat) : Nat → Prop
  | parameter {f p n} : t.owner? s = some f → t.ast.isFunction f = true → p ∈ t.ast.parameters f →
      t.ast.Binds p n → Bound t s n
  | ownName {f n} : t.owner? s = some f → t.ast.kind f ∈ expressionKinds →
      t.ast.child? f "name" = some n → Bound t s n
  | declarator {i p n} : t.Surrounds s i → t.ast.kind i = "variable_declarator" →
      t.ast.child? i "name" = some p → t.ast.Binds p n → Bound t s n
  | declaration {i n} : t.Surrounds s i →
      t.ast.kind i ∈ ["function_declaration", "generator_function_declaration", "class_declaration"] →
      t.ast.child? i "name" = some n → Bound t s n
  | caught {i p n} : t.Surrounds s i → t.ast.kind i = "catch_clause" →
      t.ast.child? i "parameter" = some p → t.ast.Binds p n → Bound t s n

variable {a : Ast} {t t' : ScopeTree} {i n p s : Nat} {name : String}

/-! ### Names in patterns -/

/-- A name binds itself. -/
lemma boundNames_name (h : a.kind p = "identifier" ∨ a.kind p = "shorthand_property_identifier_pattern") :
    boundNames a p = [p] := by
  rw [boundNames]
  rcases h with h | h <;> simp only [h]

/-- A pattern with a default binds what its left side binds. -/
lemma boundNames_default (h : a.kind p ∈ ["assignment_pattern", "object_assignment_pattern"]) :
    boundNames a p = (a.child? p "left").elim [] (boundNames a) := by
  rw [boundNames]
  simp only [List.mem_cons, List.not_mem_nil, or_false] at h
  rcases h with h | h <;> simp only [h] <;> split <;> rename_i hc <;> rw [hc] <;> rfl

/-- A pair binds what its value binds. -/
lemma boundNames_pair (h : a.kind p = "pair_pattern") :
    boundNames a p = (a.child? p "value").elim [] (boundNames a) := by
  rw [boundNames]
  simp only [h]
  split <;> rename_i hc <;> rw [hc] <;> rfl

/-- A pattern of several parts binds what they bind. -/
lemma boundNames_part (h : a.kind p ∈ ["object_pattern", "array_pattern", "rest_pattern"]) :
    boundNames a p = (a.children p).flatMap (boundNames a) := by
  rw [boundNames]
  simp only [List.mem_cons, List.not_mem_nil, or_false] at h
  rcases h with h | h | h <;> simp only [h] <;> simp

/-- A name that a pattern binds is listed, unless it is `undefined`. -/
lemma mem_boundNames_of_binds (h : a.Binds p n) (hn : a.kind n ≠ "undefined") : n ∈ boundNames a p := by
  induction h with
  | @name p hk =>
    simp only [List.mem_cons, List.not_mem_nil, or_false, hn] at hk
    rw [boundNames_name hk]
    exact List.mem_singleton.2 rfl
  | default hk hc _ ih =>
    rw [boundNames_default hk, hc]
    exact ih hn
  | pair hk hc _ ih =>
    rw [boundNames_pair hk, hc]
    exact ih hn
  | part hk hc _ ih =>
    rw [boundNames_part hk]
    exact List.mem_flatMap.2 ⟨_, hc, ih hn⟩

/-- What is listed for the child of a role is there with that child. -/
lemma exists_child?_of_mem {role : String}
    (h : n ∈ match _h : a.child? p role with
      | some c => boundNames a c
      | none => []) :
    ∃ c, a.child? p role = some c ∧ n ∈ boundNames a c := by
  split at h
  · exact ⟨_, ‹_›, h⟩
  · cases h

/-- A name listed is one the pattern binds. -/
lemma binds_of_mem_boundNames (h : n ∈ boundNames a p) : a.Binds p n := by
  fun_induction boundNames a p with
  | case1 p hk | case2 p hk =>
    cases List.mem_singleton.1 h
    exact .name (by simp [hk])
  | case3 p part hk ih | case4 p part hk ih =>
    obtain ⟨c, hc, hn⟩ := exists_child?_of_mem h
    exact .default (by simp [hk]) hc (ih "left" c hc hn)
  | case5 p part hk ih =>
    obtain ⟨c, hc, hn⟩ := exists_child?_of_mem h
    exact .pair hk hc (ih "value" c hc hn)
  | case6 p hk _ ih | case7 p hk _ ih | case8 p hk _ ih =>
    obtain ⟨c, -, hn⟩ := List.mem_flatMap.1 h
    exact .part (by simp [hk]) c.2 (ih c hn)
  | case9 => cases h

/-! ### Declarations at nodes -/

/-- A node declares in its own scope what it binds there, and around it what it binds outside. -/
lemma mem_declarationsAt : ⟨s, name, n⟩ ∈ t.declarationsAt i ↔ name = t.ast.label n ∧
    (t.ast.isFunction i = true ∧ t.scopeOf? i = some s ∧ n ∈ ownBindings t.ast i ∨
      s = t.enclosing i ∧ n ∈ outerBindings t.ast i) := by
  have hbind : ∀ (r : Nat) (nodes : List Nat),
      (⟨s, name, n⟩ : Declaration) ∈ nodes.map (fun m => ⟨r, t.ast.label m, m⟩) ↔
        s = r ∧ name = t.ast.label n ∧ n ∈ nodes := by
    intro r nodes
    rw [List.mem_map]
    constructor
    · rintro ⟨m, hm, heq⟩
      cases heq
      exact ⟨rfl, rfl, hm⟩
    · rintro ⟨rfl, rfl, hn⟩
      exact ⟨n, hn, rfl⟩
  rw [declarationsAt, List.mem_append, hbind]
  cases hf : t.ast.isFunction i with
  | false => simp [and_left_comm]
  | true =>
    cases hs : t.scopeOf? i with
    | none => simp [and_left_comm]
    | some r =>
      rw [if_pos rfl, Option.elim_some, hbind, Option.some_inj]
      simp only [true_and]
      tauto

/-- What is declared at the nodes depends on the tree and on the owners of the scopes. -/
lemma declarationsAt_congr (hast : t.ast = t'.ast) (howners : t.owners = t'.owners) :
    t.declarationsAt i = t'.declarationsAt i := by
  cases t
  cases t'
  cases hast
  cases howners
  rfl

/-- Adding globals adds declarations of assigned names to the first scope. -/
lemma exists_declarations_foldl (t : ScopeTree) (l : List Nat) : ∃ globals,
    (l.foldl addGlobal t).declarations = t.declarations ++ globals ∧
      ∀ d ∈ globals, d.scope = 0 ∧ d.name = t.ast.label d.node ∧ ∃ i, assigned? t.ast i = some d.node := by
  induction l generalizing t with
  | nil => exact ⟨[], (List.append_nil _).symm, nofun⟩
  | cons i l ih =>
    obtain ⟨globals, heq, hglobals⟩ := ih (t.addGlobal i)
    rw [addGlobal_ast] at hglobals
    rw [List.foldl_cons, heq]
    unfold addGlobal
    split
    · rename_i left hleft
      dsimp only
      split
      · refine ⟨⟨0, t.ast.label left, left⟩ :: globals, List.append_assoc _ _ _, ?_⟩
        exact List.forall_mem_cons.2 ⟨⟨rfl, rfl, i, hleft⟩, hglobals⟩
      · exact ⟨globals, rfl, hglobals⟩
    · exact ⟨globals, rfl, hglobals⟩

/-- First come the declarations made at the nodes, then the globals. -/
lemma exists_declarations_eq (a : Ast) : ∃ globals,
    (ofAst a).declarations = a.ids.flatMap (ofAst a).declarationsAt ++ globals ∧
      ∀ d ∈ globals, d.scope = 0 ∧ d.name = a.label d.node ∧ ∃ i, assigned? a i = some d.node := by
  obtain ⟨globals, heq, hglobals⟩ := exists_declarations_foldl
    ⟨a, a.root?.toList ++ a.ids.filter a.isFunction, a.ids.flatMap
      (declarationsAt ⟨a, a.root?.toList ++ a.ids.filter a.isFunction, []⟩)⟩ a.ids
  refine ⟨globals, heq.trans ?_, hglobals⟩
  congr 1
  apply List.flatMap_congr
  intro i _
  exact declarationsAt_congr (ofAst_ast a).symm (ofAst_owners a).symm

/-- The scope that surrounds a node is the one that encloses it. -/
lemma enclosing_of_surrounds (h : a.IsRooted) (hs : (ofAst a).Surrounds s i) : s = (ofAst a).enclosing i := by
  rw [Surrounds, ofAst_ast] at hs
  rcases hs with ⟨f, hf, howner⟩ | ⟨hnone, rfl⟩
  · have henclosing := (scopeOf?_eq_some_iff h).2 (enclosing_of_innermost h hf)
    exact Option.some.inj (((scopeOf?_eq_some_iff h).2 howner).symm.trans henclosing)
  · exact (enclosing_of_outer h hnone).symm

/-- A name bound in a scope is declared there by some node, unless it is `undefined`. -/
lemma mem_declarationsAt_of_bound (h : a.IsRooted) (hn : (ofAst a).Bound s n)
    (hkind : a.kind n ≠ "undefined") : ∃ i ∈ a.ids, ⟨s, a.label n, n⟩ ∈ (ofAst a).declarationsAt i := by
  have hmem : ∀ {i} {kinds : List String}, a.kind i ∈ kinds → "" ∉ kinds → i ∈ a.ids :=
    fun hk hne => Ast.mem_ids.2 (Ast.lt_size_of_kind_mem hk hne)
  cases hn with
  | @parameter f p _ howner hf hp hb =>
    rw [ofAst_ast] at hf hp hb
    refine ⟨f, Ast.mem_ids.2 (Ast.lt_size_of_isFunction hf), mem_declarationsAt.2 ?_⟩
    rw [ofAst_ast]
    refine ⟨rfl, .inl ⟨hf, (scopeOf?_eq_some_iff h).2 howner, ?_⟩⟩
    exact List.mem_append_left _ (List.mem_flatMap.2 ⟨p, hp, mem_boundNames_of_binds hb hkind⟩)
  | @ownName f _ howner hf hname =>
    rw [ofAst_ast] at hf hname
    have hfun : a.isFunction f = true := by
      simp only [expressionKinds, List.mem_cons, List.not_mem_nil, or_false] at hf
      rw [Ast.isFunction]
      rcases hf with hf | hf | hf <;> rw [hf] <;> rfl
    refine ⟨f, Ast.mem_ids.2 (Ast.lt_size_of_isFunction hfun), mem_declarationsAt.2 ?_⟩
    rw [ofAst_ast]
    refine ⟨rfl, .inl ⟨hfun, (scopeOf?_eq_some_iff h).2 howner, List.mem_append_right _ ?_⟩⟩
    rw [if_pos (List.contains_iff_mem.2 hf), hname]
    exact List.mem_singleton.2 rfl
  | @declarator i p _ hs hi hname hb =>
    rw [ofAst_ast] at hi hname hb
    refine ⟨i, hmem (List.mem_singleton.2 hi) (by decide), mem_declarationsAt.2 ?_⟩
    rw [ofAst_ast]
    refine ⟨rfl, .inr ⟨enclosing_of_surrounds h hs, ?_⟩⟩
    simp only [outerBindings, hi, hname]
    exact mem_boundNames_of_binds hb hkind
  | @declaration i _ hs hi hname =>
    rw [ofAst_ast] at hi hname
    refine ⟨i, hmem hi (by decide), mem_declarationsAt.2 ?_⟩
    rw [ofAst_ast]
    refine ⟨rfl, .inr ⟨enclosing_of_surrounds h hs, ?_⟩⟩
    simp only [List.mem_cons, List.not_mem_nil, or_false] at hi
    rcases hi with hi | hi | hi <;> simp [outerBindings, hi, hname]
  | @caught i p _ hs hi hname hb =>
    rw [ofAst_ast] at hi hname hb
    refine ⟨i, hmem (List.mem_singleton.2 hi) (by decide), mem_declarationsAt.2 ?_⟩
    rw [ofAst_ast]
    refine ⟨rfl, .inr ⟨enclosing_of_surrounds h hs, ?_⟩⟩
    simp only [outerBindings, hi, hname]
    exact mem_boundNames_of_binds hb hkind

/-- What a node declares is bound in the scope. -/
lemma bound_of_mem_declarationsAt (h : a.IsRooted) (hn : ⟨s, name, n⟩ ∈ (ofAst a).declarationsAt i) :
    (ofAst a).Bound s n := by
  obtain ⟨-, ⟨hf, hs, hown⟩ | ⟨hs, hout⟩⟩ := mem_declarationsAt.1 hn
  · have howner := (scopeOf?_eq_some_iff h).1 hs
    rcases List.mem_append.1 hown with hparameter | hname
    · obtain ⟨p, hp, hb⟩ := List.mem_flatMap.1 hparameter
      exact .parameter howner hf hp (binds_of_mem_boundNames hb)
    · split at hname
      · rename_i hkind
        exact .ownName howner (List.contains_iff_mem.1 hkind) (Option.mem_toList.1 hname)
      · cases hname
  · have hsurrounds : (ofAst a).Surrounds s i := hs ▸ surrounds_enclosing h i
    rw [outerBindings] at hout
    split at hout
    · rename_i hkind
      cases hc : (ofAst a).ast.child? i "name" with
      | none =>
        rw [hc] at hout
        cases hout
      | some p =>
        rw [hc] at hout
        exact .declarator hsurrounds hkind hc (binds_of_mem_boundNames hout)
    · rename_i hkind
      exact .declaration hsurrounds (by rw [hkind]; decide) (Option.mem_toList.1 hout)
    · rename_i hkind
      exact .declaration hsurrounds (by rw [hkind]; decide) (Option.mem_toList.1 hout)
    · rename_i hkind
      exact .declaration hsurrounds (by rw [hkind]; decide) (Option.mem_toList.1 hout)
    · rename_i hkind
      cases hc : (ofAst a).ast.child? i "parameter" with
      | none =>
        rw [hc] at hout
        cases hout
      | some p =>
        rw [hc] at hout
        exact .caught hsurrounds hkind hc (binds_of_mem_boundNames hout)
    · cases hout

/-! ### Declarations of a scope -/

/-- A scope lists the names declared in it, each with its first site. -/
lemma mem_declared : (name, n) ∈ t.declared s ↔ t.declaration? s name = some n := by
  rw [declared, List.mem_filterMap]
  constructor
  · rintro ⟨other, -, hother⟩
    obtain ⟨m, hm, heq⟩ := Option.map_eq_some_iff.1 hother
    cases heq
    exact hm
  · intro hn
    obtain ⟨d, hd, -⟩ := Option.map_eq_some_iff.1 hn
    have hfound := List.find?_some hd
    rw [Bool.and_eq_true, beq_iff_eq, beq_iff_eq] at hfound
    refine ⟨name, ?_, Option.map_eq_some_iff.2 ⟨n, hn, rfl⟩⟩
    rw [List.mem_eraseDups, List.mem_map]
    exact ⟨d, List.mem_filter.2 ⟨List.mem_of_find?_eq_some hd, beq_iff_eq.2 hfound.1⟩, hfound.2⟩

/-- A declaration that counts is made at a node, or it is a global. -/
lemma of_declaration? (h : a.IsRooted) (hn : (ofAst a).declaration? s name = some n) :
    name = a.label n ∧ ((ofAst a).Bound s n ∨ s = 0 ∧ ∃ i, assigned? a i = some n) := by
  obtain ⟨globals, heq, hglobals⟩ := exists_declarations_eq a
  obtain ⟨d, hd, rfl⟩ := Option.map_eq_some_iff.1 hn
  have hfound := List.find?_some hd
  rw [Bool.and_eq_true, beq_iff_eq, beq_iff_eq] at hfound
  obtain ⟨rfl, rfl⟩ := hfound
  have hmem := List.mem_of_find?_eq_some hd
  rw [heq, List.mem_append] at hmem
  rcases hmem with hnode | hglobal
  · obtain ⟨i, -, hi⟩ := List.mem_flatMap.1 hnode
    have hname := (mem_declarationsAt.1 hi).1
    rw [ofAst_ast] at hname
    exact ⟨hname, .inl (bound_of_mem_declarationsAt h hi)⟩
  · obtain ⟨hscope, hname, hassigned⟩ := hglobals d hglobal
    exact ⟨hname, .inr ⟨hscope, hassigned⟩⟩

/-- Of the declarations of a name that a node declares, one made at a node counts. -/
lemma exists_declaration? (h : a.IsRooted) (hn : (ofAst a).Bound s n) (hkind : a.kind n ≠ "undefined") :
    ∃ d, (ofAst a).declaration? s (a.label n) = some d ∧ (ofAst a).Bound s d := by
  obtain ⟨globals, heq, -⟩ := exists_declarations_eq a
  obtain ⟨i, hi, hdeclared⟩ := mem_declarationsAt_of_bound h hn hkind
  have hmem : ⟨s, a.label n, n⟩ ∈ a.ids.flatMap (ofAst a).declarationsAt := List.mem_flatMap.2 ⟨i, hi, hdeclared⟩
  cases hfind : (a.ids.flatMap (ofAst a).declarationsAt).find? fun d => d.scope == s && d.name == a.label n with
  | none =>
    have hnot := List.find?_eq_none.1 hfind _ hmem
    simp at hnot
  | some d =>
    have hfound := List.find?_some hfind
    rw [Bool.and_eq_true, beq_iff_eq, beq_iff_eq] at hfound
    obtain ⟨j, -, hj⟩ := List.mem_flatMap.1 (List.mem_of_find?_eq_some hfind)
    refine ⟨d.node, ?_, ?_⟩
    · rw [declaration?, heq, List.find?_append, hfind]
      rfl
    · rw [← hfound.1]
      exact bound_of_mem_declarationsAt h hj

/-- A scope declares all names that are bound directly in it, and nothing else, but for the globals that
assignments make. -/
theorem ofAst_declares (h : a.IsRooted) (s : Nat) :
    (∀ n, (ofAst a).Bound s n → a.kind n ≠ "undefined" →
      ∃ d, (a.label n, d) ∈ (ofAst a).declared s ∧ (ofAst a).Bound s d) ∧
    ∀ name d, (name, d) ∈ (ofAst a).declared s →
      name = a.label d ∧ ((ofAst a).Bound s d ∨ s = 0 ∧ ∃ i, assigned? a i = some d) := by
  constructor
  · intro n hn hkind
    obtain ⟨d, hd, hbound⟩ := exists_declaration? h hn hkind
    exact ⟨d, mem_declared.2 hd, hbound⟩
  · intro name d hd
    exact of_declaration? h (mem_declared.1 hd)

/-- The program `function f({a: [b = 1]}) { g = 2; }`, punctuation left out. -/
def destructured : Ast :=
  .ofForest "function f({a: [b = 1]}) { g = 2; }" <|
    .cons ⟨"program", none, "", 0, 35, 1⟩
      (.cons ⟨"function_declaration", none, "", 0, 35, 1⟩
        (.cons ⟨"identifier", some "name", "f", 9, 10, 1⟩ .nil
          (.cons ⟨"formal_parameters", some "parameters", "", 10, 24, 1⟩
            (.cons ⟨"object_pattern", none, "", 11, 23, 1⟩
              (.cons ⟨"pair_pattern", none, "", 12, 22, 1⟩
                (.cons ⟨"property_identifier", some "key", "a", 12, 13, 1⟩ .nil
                  (.cons ⟨"array_pattern", some "value", "", 15, 22, 1⟩
                    (.cons ⟨"assignment_pattern", none, "", 16, 21, 1⟩
                      (.cons ⟨"identifier", some "left", "b", 16, 17, 1⟩ .nil
                        (.cons ⟨"number", some "right", "1", 20, 21, 1⟩ .nil .nil)) .nil) .nil)) .nil) .nil)
            (.cons ⟨"statement_block", some "body", "", 25, 35, 1⟩
              (.cons ⟨"expression_statement", none, "", 27, 33, 1⟩
                (.cons ⟨"assignment_expression", none, "", 27, 32, 1⟩
                  (.cons ⟨"identifier", some "left", "g", 27, 28, 1⟩ .nil
                    (.cons ⟨"number", some "right", "2", 31, 32, 1⟩ .nil .nil)) .nil) .nil) .nil))) .nil) .nil

/-- The parameter binds `b` in the function, the assignment makes `g` a global beside `f`. -/
theorem ofAst_declares_destructured : destructured.IsRooted ∧
    (ofAst destructured).declared 0 = [("f", 2), ("g", 14)] ∧ (ofAst destructured).declared 1 = [("b", 9)] ∧
    (∀ n, (ofAst destructured).Bound 1 n → destructured.kind n ≠ "undefined" →
      ∃ d, (destructured.label n, d) ∈ (ofAst destructured).declared 1 ∧ (ofAst destructured).Bound 1 d) ∧
    ∀ name d, (name, d) ∈ (ofAst destructured).declared 1 → name = destructured.label d ∧
      ((ofAst destructured).Bound 1 d ∨ 1 = 0 ∧ ∃ i, assigned? destructured i = some d) := by
  have h : destructured.IsRooted := ⟨Ast.isArena_of_root rfl, by decide, by decide⟩
  exact ⟨h, by decide +kernel, by decide +kernel, ofAst_declares h 1⟩

/-- The text `for (var k in o) {}`. -/
def forHead : Source :=
  ⟨"for (var k in o) {}", .cons (.clean "program" none 0 19)
    (.cons (.clean "for_in_statement" none 0 19)
      (.cons { Token.clean "var" (some "kind") 5 8 with named := false } .nil
        (.cons (.clean "identifier" (some "left") 9 10) .nil
          (.cons { Token.clean "in" (some "operator") 11 13 with named := false } .nil
            (.cons (.clean "identifier" (some "right") 14 15) .nil
              (.cons (.clean "statement_block" (some "body") 17 19) .nil .nil))))) .nil) .nil⟩

/-- The variable that the head of such a `for` statement declares is in no scope. -/
theorem declaration?_of_forHead : forHead.IsScript ∧ Syntax.Concrete.fault? forHead.tree = none ∧
    (∃ t ∈ forHead.tree.preorder, t.kind = "var" ∧ t.field = some "kind") ∧
    ∃ a, forHead.parse .repaired false = .ok a ∧ a.kind 1 = "for_in_statement" ∧
      a.child? 1 "left" = some 2 ∧ a.kind 2 = "identifier" ∧ a.label 2 = "k" ∧
      (ofAst a).Surrounds 0 1 ∧ (ofAst a).declared 0 = [] := by
  refine ⟨⟨_, _, rfl, rfl, rfl⟩, rfl, by decide, forHead.read false, rfl, by decide, by decide, by decide,
    by decide, ?_, by decide +kernel⟩
  have hrooted : (forHead.read false).IsRooted := ⟨Syntax.isArena_read _ _, by decide, by decide⟩
  have hscope : (ofAst (forHead.read false)).enclosing 1 = 0 := by decide +kernel
  exact hscope ▸ surrounds_enclosing hrooted 1

end ScopeTree

end Mend
