import Mend.Keyword.Registry
import Mend.Proofs.Scope.Declarations

/-!
# Which names the registry takes for packages

A name that the file binds to no package, and that is no global object, has no API just if it is not the
name of a package either, or if it is declared plainly: by a name in a list of parameters, or by a name
alone in front of a declarator's value (`namespaceOf?_eq_none_iff`).

The registry is filled node by node, and what a node adds does not depend on what was there before
(`enter_spec`), so the names in it are those that some node adds (`mem_names_ofAst`, `mem_shadowed_ofAst`). All other ways to declare a name go unnoticed, the only parameter of an arrow function
without parentheses among them (`namespaceOf?_of_singleParameter`).
-/

namespace Mend

/-- A state that each element of a list may bring about, apart from the others. -/
lemma foldl_iff {α β : Type} {f : β → α → β} {P : β → Prop} {Q : α → Prop}
    (h : ∀ b x, P (f b x) ↔ P b ∨ Q x) (l : List α) (b : β) :
    P (l.foldl f b) ↔ P b ∨ ∃ x ∈ l, Q x := by
  induction l generalizing b with
  | nil => simp
  | cons x l ih =>
    rw [List.foldl_cons, ih, h, or_assoc]
    simp

namespace Keyword.Registry

open Syntax (Ast Source Token)

/-- The names that a node binds to packages. -/
inductive BindsPackage (a : Ast) (d : Nat) : String → String → Prop
  | required {n : Nat} {p : String} : a.kind d = "variable_declarator" → a.child? d "name" = some n →
      (a.child? d "value").bind (requiredPackage? a) = some p → a.kind n = "identifier" →
      BindsPackage a d (a.label n) p
  | destructured {n i : Nat} {p : String} : a.kind d = "variable_declarator" → a.child? d "name" = some n →
      (a.child? d "value").bind (requiredPackage? a) = some p → a.kind n = "object_pattern" →
      i ∈ a.descendants n → a.kind i ∈ ["shorthand_property_identifier_pattern", "identifier"] →
      BindsPackage a d (a.label i) p
  | imported {s i : Nat} : a.kind d = "import_statement" → a.child? d "source" = some s →
      i ∈ a.descendants d → a.kind i = "identifier" → isAliasedAway a i = false →
      BindsPackage a d (a.label i) (unquoted a s)

/-- The names that a node declares by themselves: a parameter in a list, or a declarator whose value is no
package. -/
inductive DeclaresPlainly (a : Ast) (d : Nat) : String → Prop
  | parameter {n : Nat} : a.kind d = "formal_parameters" → n ∈ a.children d → a.kind n = "identifier" →
      DeclaresPlainly a d (a.label n)
  | declarator {n : Nat} : a.kind d = "variable_declarator" → a.child? d "name" = some n →
      (a.child? d "value").bind (requiredPackage? a) = none → a.kind n = "identifier" →
      DeclaresPlainly a d (a.label n)

variable {a : Ast} {r : Registry} {d i : Nat} {x package : String}

/-- The names that are bound to packages. -/
def names (r : Registry) : List String := r.bindings.map (·.1)

/-- Binding a name adds it to the names. -/
lemma mem_names_bind (name : String) : x ∈ (r.bind name package).names ↔ x ∈ r.names ∨ name = x := by
  rw [names, names, bind, List.map_cons, List.mem_cons]
  by_cases hx : name = x
  · exact iff_of_true (.inl hx.symm) (.inr hx)
  · simp only [List.mem_map, List.mem_filter, bne_iff_ne]
    constructor
    · rintro (rfl | ⟨b, ⟨hb, -⟩, rfl⟩)
      · exact absurd rfl hx
      · exact .inl ⟨b, hb, rfl⟩
    · rintro (⟨b, hb, rfl⟩ | heq)
      · exact .inr ⟨b, ⟨hb, Ne.symm hx⟩, rfl⟩
      · exact absurd heq hx

/-- Shadowing a name adds it to those shadowed. -/
lemma mem_shadowed_shadow (name : String) : x ∈ (r.shadow name).shadowed ↔ x ∈ r.shadowed ∨ name = x := by
  rw [shadow, List.mem_cons, or_comm, eq_comm]

/-! ### What a node adds -/

/-- Only declarators and imports bind a package. -/
lemma BindsPackage.kind_mem (h : BindsPackage a d x package) :
    a.kind d ∈ ["variable_declarator", "import_statement"] := by
  cases h with
  | required hd => exact hd ▸ List.mem_cons_self
  | destructured hd => exact hd ▸ List.mem_cons_self
  | imported hd => exact hd ▸ List.mem_cons_of_mem _ (List.mem_singleton_self _)

/-- Only parameters and declarators declare plainly. -/
lemma DeclaresPlainly.kind_mem (h : DeclaresPlainly a d x) :
    a.kind d ∈ ["formal_parameters", "variable_declarator"] := by
  cases h with
  | parameter hd => exact hd ▸ List.mem_cons_self
  | declarator hd => exact hd ▸ List.mem_cons_of_mem _ (List.mem_singleton_self _)

/-- At a node of another kind, no name is bound to a package. -/
lemma exists_bindsPackage_iff (hd : a.kind d ∉ ["variable_declarator", "import_statement"]) :
    (∃ p, BindsPackage a d x p) ↔ False :=
  iff_of_false (fun ⟨_, h⟩ => hd h.kind_mem) id

/-- At a node of another kind, no name is declared plainly. -/
lemma declaresPlainly_iff (hd : a.kind d ∉ ["formal_parameters", "variable_declarator"]) :
    DeclaresPlainly a d x ↔ False := iff_of_false (fun h => hd h.kind_mem) id

/-- A declarator binds a package to its name, or to the names of its pattern, when its value requires it. -/
lemma bindsPackage_declarator_iff (hd : a.kind d = "variable_declarator") : BindsPackage a d x package ↔
    ∃ n, a.child? d "name" = some n ∧ (a.child? d "value").bind (requiredPackage? a) = some package ∧
      (a.kind n = "identifier" ∧ a.label n = x ∨ a.kind n = "object_pattern" ∧ ∃ i ∈ a.descendants n,
        a.kind i ∈ ["shorthand_property_identifier_pattern", "identifier"] ∧ a.label i = x) := by
  constructor
  · intro h
    cases h with
    | required _ hname hvalue hn => exact ⟨_, hname, hvalue, .inl ⟨hn, rfl⟩⟩
    | destructured _ hname hvalue hn hi hkind => exact ⟨_, hname, hvalue, .inr ⟨hn, _, hi, hkind, rfl⟩⟩
    | imported hd' => exact absurd (hd.symm.trans hd') (by decide)
  · rintro ⟨n, hname, hvalue, ⟨hn, rfl⟩ | ⟨hn, i, hi, hkind, rfl⟩⟩
    · exact .required hd hname hvalue hn
    · exact .destructured hd hname hvalue hn hi hkind

/-- A declarator declares its name plainly when its value requires nothing. -/
lemma declaresPlainly_declarator_iff (hd : a.kind d = "variable_declarator") : DeclaresPlainly a d x ↔
    ∃ n, a.child? d "name" = some n ∧ (a.child? d "value").bind (requiredPackage? a) = none ∧
      a.kind n = "identifier" ∧ a.label n = x := by
  constructor
  · intro h
    cases h with
    | parameter hd' => exact absurd (hd.symm.trans hd') (by decide)
    | declarator _ hname hvalue hn => exact ⟨_, hname, hvalue, hn, rfl⟩
  · rintro ⟨n, hname, hvalue, hn, rfl⟩
    exact .declarator hd hname hvalue hn

/-- Binding some of a list of nodes binds their labels. -/
lemma mem_names_foldl_bind (keeps : Nat → Bool) (l : List Nat) (r : Registry) :
    x ∈ (l.foldl (fun r i => if keeps i then r.bind (a.label i) package else r) r).names ↔
      x ∈ r.names ∨ ∃ i ∈ l, keeps i = true ∧ a.label i = x := by
  apply foldl_iff (P := fun r : Registry => x ∈ r.names) (Q := fun i => keeps i = true ∧ a.label i = x)
  intro r i
  split
  · rename_i hi
    rw [mem_names_bind, and_iff_right hi]
  · rename_i hi
    simp only [hi, Bool.false_eq_true, false_and, or_false]

/-- Binding shadows nothing. -/
lemma shadowed_foldl_bind (keeps : Nat → Bool) (l : List Nat) (r : Registry) :
    (l.foldl (fun r i => if keeps i then r.bind (a.label i) package else r) r).shadowed = r.shadowed := by
  induction l generalizing r with
  | nil => rfl
  | cons i l ih =>
    rw [List.foldl_cons, ih]
    split <;> rfl

/-- What a declarator binds and shadows. -/
lemma declare_spec (hd : a.kind d = "variable_declarator") :
    (x ∈ (declare a r d).names ↔ x ∈ r.names ∨ ∃ p, BindsPackage a d x p) ∧
      (x ∈ (declare a r d).shadowed ↔ x ∈ r.shadowed ∨ DeclaresPlainly a d x) := by
  simp only [bindsPackage_declarator_iff hd, declaresPlainly_declarator_iff hd]
  rw [declare]
  cases hname : a.child? d "name" with
  | none => simp
  | some n =>
    dsimp only
    cases hvalue : (a.child? d "value").bind (requiredPackage? a) with
    | none =>
      split
      · contradiction
      · rename_i hn _
        rw [mem_shadowed_shadow]
        simp [hn, shadow, names]
      · contradiction
      · rename_i hplain _
        simp_all
    | some package =>
      split
      · rename_i hn heq
        cases heq
        rw [mem_names_bind]
        simp [hn, bind]
      · contradiction
      · rename_i hn heq
        cases heq
        rw [mem_names_foldl_bind, shadowed_foldl_bind]
        simp [hn]
      · simp_all

/-- What an import binds. -/
lemma bindImport_spec (hd : a.kind d = "import_statement") :
    (x ∈ (bindImport a r d).names ↔ x ∈ r.names ∨ ∃ p, BindsPackage a d x p) ∧
      (bindImport a r d).shadowed = r.shadowed := by
  have hiff : ∀ p, BindsPackage a d x p ↔ ∃ s, a.child? d "source" = some s ∧ ∃ i ∈ a.descendants d,
      (a.kind i == "identifier" && !isAliasedAway a i) = true ∧ a.label i = x ∧ unquoted a s = p := by
    intro p
    constructor
    · intro h
      cases h with
      | required hd' => exact absurd (hd.symm.trans hd') (by decide)
      | destructured hd' => exact absurd (hd.symm.trans hd') (by decide)
      | imported _ hs hi hkind haway => exact ⟨_, hs, _, hi, by simp [hkind, haway], rfl, rfl⟩
    · rintro ⟨s, hs, i, hi, hkeeps, rfl, rfl⟩
      rw [Bool.and_eq_true, beq_iff_eq, Bool.not_eq_true'] at hkeeps
      exact .imported hd hs hi hkeeps.1 hkeeps.2
  simp only [hiff]
  rw [bindImport]
  cases hs : a.child? d "source" with
  | none => simp
  | some s =>
    dsimp only [Option.map_some]
    rw [mem_names_foldl_bind, shadowed_foldl_bind]
    simp

/-- Parameters shadow their identifiers and bind nothing. -/
lemma parameters_spec (l : List Nat) (r : Registry) :
    let after := l.foldl (fun r p => if a.kind p == "identifier" then r.shadow (a.label p) else r) r
    after.bindings = r.bindings ∧
      (x ∈ after.shadowed ↔ x ∈ r.shadowed ∨ ∃ n ∈ l, a.kind n = "identifier" ∧ a.label n = x) := by
  constructor
  · induction l generalizing r with
    | nil => rfl
    | cons p l ih =>
      rw [List.foldl_cons, ih]
      split <;> rfl
  · apply foldl_iff (P := fun r : Registry => x ∈ r.shadowed)
      (Q := fun n => a.kind n = "identifier" ∧ a.label n = x)
    intro r n
    split
    · rename_i hn
      rw [mem_shadowed_shadow, and_iff_right (beq_iff_eq.1 hn)]
    · rename_i hn
      simp only [beq_iff_eq] at hn
      simp only [hn, false_and, or_false]

/-- Parameters declare their identifiers plainly. -/
lemma declaresPlainly_parameters_iff (hd : a.kind d = "formal_parameters") :
    DeclaresPlainly a d x ↔ ∃ n ∈ a.children d, a.kind n = "identifier" ∧ a.label n = x := by
  constructor
  · intro h
    cases h with
    | parameter _ hn hkind => exact ⟨_, hn, hkind, rfl⟩
    | declarator hd' => exact absurd (hd.symm.trans hd') (by decide)
  · rintro ⟨n, hn, hkind, rfl⟩
    exact .parameter hd hn hkind

/-- What a node adds to the names bound to packages and to those that the file declares itself. -/
lemma enter_spec (a : Ast) (x : String) (r : Registry) (d : Nat) :
    (x ∈ (enter a r d).names ↔ x ∈ r.names ∨ ∃ p, BindsPackage a d x p) ∧
      (x ∈ (enter a r d).shadowed ↔ x ∈ r.shadowed ∨ DeclaresPlainly a d x) := by
  rw [enter]
  split
  · rename_i hd
    exact declare_spec hd
  · rename_i hd
    obtain ⟨hnames, hshadowed⟩ := bindImport_spec (a := a) (r := r) (x := x) hd
    refine ⟨hnames, ?_⟩
    rw [hshadowed, declaresPlainly_iff (by rw [hd]; decide), or_false]
  · rename_i hd
    obtain ⟨hbindings, hshadowed⟩ := parameters_spec (a := a) (x := x) (a.children d) r
    constructor
    · rw [names, hbindings, ← names, exists_bindsPackage_iff (by rw [hd]; decide), or_false]
    · rw [hshadowed, declaresPlainly_parameters_iff hd]
  · rename_i hdeclarator himport hparameters
    constructor
    · rw [exists_bindsPackage_iff, or_false]
      rw [List.mem_cons, List.mem_singleton, not_or]
      exact ⟨hdeclarator, himport⟩
    · rw [declaresPlainly_iff, or_false]
      rw [List.mem_cons, List.mem_singleton, not_or]
      exact ⟨hparameters, hdeclarator⟩

/-! ### The registry of a file -/

/-- A file binds the names some node of it binds. -/
lemma mem_names_ofAst (a : Ast) (x : String) : x ∈ (ofAst a).names ↔ ∃ d p, BindsPackage a d x p := by
  rw [ofAst, foldl_iff (P := fun r : Registry => x ∈ r.names) fun r d => (enter_spec a x r d).1]
  refine (or_iff_right List.not_mem_nil).trans ?_
  refine exists_congr fun d => and_iff_right_of_imp fun ⟨p, h⟩ => ?_
  exact Syntax.Ast.mem_ids.2 (Syntax.Ast.lt_size_of_kind_mem h.kind_mem (by decide))

/-- A file shadows the names some node of it declares plainly. -/
lemma mem_shadowed_ofAst (a : Ast) (x : String) : x ∈ (ofAst a).shadowed ↔ ∃ d, DeclaresPlainly a d x := by
  rw [ofAst, foldl_iff (P := fun r : Registry => x ∈ r.shadowed) fun r d => (enter_spec a x r d).2]
  refine (or_iff_right List.not_mem_nil).trans ?_
  refine exists_congr fun d => and_iff_right_of_imp fun h => ?_
  exact Syntax.Ast.mem_ids.2 (Syntax.Ast.lt_size_of_kind_mem h.kind_mem (by decide))

/-- A name has no package iff it is neither bound nor global. -/
lemma packageOf?_eq_none_iff : r.packageOf? x = none ↔ x ∉ r.names ∧ x ∉ globalObjects := by
  rw [packageOf?]
  cases hfind : r.bindings.find? (·.1 == x) with
  | some b =>
    have hmem : x ∈ r.names :=
      List.mem_map.2 ⟨b, List.mem_of_find?_eq_some hfind, by simpa using List.find?_some hfind⟩
    exact iff_of_false nofun fun h => h.1 hmem
  | none =>
    have hnot : x ∉ r.names := by
      intro hmem
      obtain ⟨b, hb, rfl⟩ := List.mem_map.1 hmem
      simpa using List.find?_eq_none.1 hfind b hb
    rw [and_iff_right hnot]
    simp only [List.find?_eq_none, beq_iff_eq]
    exact ⟨fun h hx => h x hx rfl, fun h y hy heq => h (heq ▸ hy)⟩

/-- A name that is bound to no package and is no global object has no API just if it is declared plainly
or is not the name of a package. -/
theorem namespaceOf?_eq_none_iff (hbound : ∀ d p, ¬BindsPackage a d x p) (hglobal : x ∉ globalObjects) :
    (ofAst a).namespaceOf? x = none ↔
      (∃ d, DeclaresPlainly a d x) ∨ (ofAst a).isPackageName x = false := by
  have hnames : x ∉ (ofAst a).names := by
    rw [mem_names_ofAst]
    rintro ⟨d, p, h⟩
    exact hbound d p h
  rw [namespaceOf?, packageOf?_eq_none_iff.2 ⟨hnames, hglobal⟩, ← mem_shadowed_ofAst]
  cases hpackage : (ofAst a).isPackageName x with
  | false => simp
  | true => simp

/-- The program `(path, url = 1) => 1`, punctuation left out. -/
def twoParameters : Ast :=
  .ofForest "(path, url = 1) => 1" <|
    .cons ⟨"program", none, "", 0, 20, 1⟩
      (.cons ⟨"expression_statement", none, "", 0, 20, 1⟩
        (.cons ⟨"arrow_function", none, "", 0, 20, 1⟩
          (.cons ⟨"formal_parameters", some "parameters", "", 0, 15, 1⟩
            (.cons ⟨"identifier", none, "path", 1, 5, 1⟩ .nil
              (.cons ⟨"assignment_pattern", none, "", 7, 14, 1⟩
                (.cons ⟨"identifier", some "left", "url", 7, 10, 1⟩ .nil
                  (.cons ⟨"number", some "right", "1", 13, 14, 1⟩ .nil .nil)) .nil))
            (.cons ⟨"number", some "body", "1", 19, 20, 1⟩ .nil .nil)) .nil) .nil) .nil

/-- The first of the parameters is declared plainly. -/
theorem namespaceOf?_eq_none_iff_twoParameters :
    (∀ d p, ¬BindsPackage twoParameters d "path" p) ∧ "path" ∉ globalObjects ∧
      DeclaresPlainly twoParameters 3 "path" ∧ (ofAst twoParameters).namespaceOf? "path" = none := by
  have hbound : ∀ d p, ¬BindsPackage twoParameters d "path" p := fun d p h =>
    absurd ((mem_names_ofAst twoParameters "path").2 ⟨d, p, h⟩) (by decide +kernel)
  have hplain : DeclaresPlainly twoParameters 3 "path" :=
    .parameter (n := 4) (by decide) (by decide) (by decide)
  exact ⟨hbound, by decide, hplain, (namespaceOf?_eq_none_iff hbound (by decide)).2 (.inl ⟨3, hplain⟩)⟩

/-- The text `path => 1`. -/
def singleParameter : Source :=
  ⟨"path => 1", .cons (.clean "program" none 0 9)
    (.cons (.clean "expression_statement" none 0 9)
      (.cons (.clean "arrow_function" none 0 9)
        (.cons (.clean "identifier" (some "parameter") 0 4) .nil
          (.cons (.clean "number" (some "body") 8 9) .nil .nil)) .nil) .nil) .nil⟩

/-- The parameter is taken for the module of its name. -/
theorem namespaceOf?_of_singleParameter :
    singleParameter.IsScript ∧ Syntax.Concrete.fault? singleParameter.tree = none ∧
      ∃ a, singleParameter.parse .repaired false = .ok a ∧ (ScopeTree.ofAst a).Bound 1 3 ∧
        a.label 3 = "path" ∧ (∀ d p, ¬BindsPackage a d "path" p) ∧ "path" ∉ globalObjects ∧
        (ofAst a).namespaceOf? "path" = some "path" := by
  refine ⟨⟨_, _, rfl, rfl, rfl⟩, rfl, singleParameter.read false, rfl, ?_, by decide, fun d p h => ?_,
    by decide, by decide +kernel⟩
  · exact .parameter (f := 2) (p := 3) (by decide +kernel) (by decide) (by decide) (.name (by decide))
  · exact absurd ((mem_names_ofAst _ "path").2 ⟨d, p, h⟩) (by decide +kernel)

end Keyword.Registry

end Mend
