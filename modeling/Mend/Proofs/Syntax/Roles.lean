import Mend.Proofs.Syntax.Grammar

/-!
# Roles in a program

`Concrete.FollowsGrammar` says that the parser's tree follows the rules of the grammar for the statements,
clauses and functions that control flow depends on. Then so does the program that is read from it, where
simplified parts may be missing (`followsRules_read`). The roles in two such programs with the same outline are
the same wherever the rule is telling (`beq_field?_of_sameOutline`): everywhere (`telling_rules`), or, once
the programs are simplified, everywhere but in the head of a `for` statement (`telling_simplified`).
-/

namespace Mend

universe u

namespace Forest

variable {α : Type u} {p : α → Forest α → Bool} {f g : Forest α}

/-- Whether every node with the forest below it satisfies a condition. -/
def everywhere (p : α → Forest α → Bool) : Forest α → Bool
  | nil => true
  | cons x kids rest => p x kids && kids.everywhere p && rest.everywhere p

/-- A condition holds everywhere in a forest iff it holds at its first root, below it and behind it. -/
lemma everywhere_cons {x : α} : (cons x f g).everywhere p = true ↔
    p x f = true ∧ f.everywhere p = true ∧ g.everywhere p = true := by
  rw [everywhere, Bool.and_eq_true, Bool.and_eq_true, and_assoc]

/-- What holds everywhere in two forests holds in both in a row. -/
lemma everywhere_append (hf : f.everywhere p = true) (hg : g.everywhere p = true) :
    (f ++ g).everywhere p = true := by
  induction f with
  | nil => exact hg
  | cons x kids rest _ ih =>
    obtain ⟨hx, hkids, hrest⟩ := everywhere_cons.1 hf
    exact everywhere_cons.2 ⟨hx, hkids, ih hrest⟩

/-- What holds everywhere holds at each subtree. -/
lemma everywhere_sub? {i : Nat} {x : α} {kids : Forest α} (h : f.everywhere p = true)
    (hs : f.sub? i = some (x, kids)) : p x kids = true := by
  induction f generalizing i with
  | nil => cases hs
  | cons y below rest ihk ihr =>
    obtain ⟨hy, hbelow, hrest⟩ := everywhere_cons.1 h
    cases i with
    | zero =>
      cases hs
      exact hy
    | succ i =>
      rw [sub?] at hs
      split at hs
      · exact ihk hbelow hs
      · exact ihr hrest hs

/-- The roots of two forests in a row. -/
lemma roots_append (f g : Forest α) : (f ++ g).roots = f.roots ++ g.roots := by
  change (f.append g).roots = _
  induction f with
  | nil => rfl
  | cons x kids rest _ ih => rw [append, roots, ih, roots, List.cons_append]

/-- The roots are the tops of the trees. -/
lemma map_trees {β : Type u} (k : α → β) (f : Forest α) : f.trees.map (fun p => k p.1) = f.roots.map k := by
  induction f with
  | nil => rfl
  | cons x kids rest _ ih => rw [trees, roots, List.map_cons, List.map_cons, ih]

end Forest

namespace Syntax

/-- What the grammar says of the nodes that control flow depends on. -/
def rules : List (String × Rule) :=
  [("if_statement", .series [.one "condition" .expression, .one "consequence" .statement,
      .maybe "alternative" (.only "else_clause")]),
   ("while_statement", .series [.one "condition" .expression, .one "body" .statement]),
   ("do_statement", .series [.one "body" .statement, .one "condition" .expression]),
   ("for_statement", .series [.one "initializer" .anything, .one "condition" .anything,
      .maybe "increment" .expression, .one "body" .statement]),
   ("for_in_statement", .series [.one "left" .expression, .maybe "value" .expression,
      .one "right" .expression, .one "body" .statement]),
   ("switch_statement", .series [.one "value" .expression, .one "body" (.only "switch_body")]),
   ("switch_case", .first "value"),
   ("switch_default", .never "value"),
   ("try_statement", .series [.one "body" (.only "statement_block"),
      .maybe "handler" (.only "catch_clause"), .maybe "finalizer" (.only "finally_clause")]),
   ("catch_clause", .series [.maybe "parameter" .expression, .one "body" (.only "statement_block")]),
   ("finally_clause", .series [.one "body" (.only "statement_block")]),
   ("labeled_statement", .series [.one "label" (.only "statement_identifier"),
      .one "body" .statement]),
   ("break_statement", .series [.maybe "label" (.only "statement_identifier")]),
   ("continue_statement", .series [.maybe "label" (.only "statement_identifier")]),
   ("parenthesized_expression", .series [⟨none, .expression, false⟩])] ++
  functionKinds.map fun kind => (kind, .last "body")

/-- The rule for nodes of a kind. -/
def ruleOf? (kind : String) : Option Rule := (rules.find? (·.1 == kind)).map (·.2)

/-- Whether the parts of a node follow its rule. What stands between them has no role. -/
def follows (rule? : Option Rule) (parts : List Part) : Bool :=
  rule?.all fun R =>
    (parts.all fun x => !x.isExtra || x.role == none) && R.allows (parts.filter (!·.isExtra))

/-- Whether every node of a parser's tree follows its rule. -/
def Concrete.FollowsGrammar (f : Concrete) : Prop :=
  f.everywhere (fun t kids => follows (ruleOf? t.kind) ((namedRoots kids).map Token.part)) = true

instance (f : Concrete) : Decidable f.FollowsGrammar := inferInstanceAs (Decidable (_ = true))

/-- A rule found is one of the rules. -/
lemma mem_rules {kind : String} {R : Rule} (h : ruleOf? kind = some R) : (kind, R) ∈ rules := by
  obtain ⟨e, he, rfl⟩ := Option.map_eq_some_iff.1 h
  have hkind := List.find?_some he
  rw [← beq_iff_eq.1 hkind]
  exact List.mem_of_find?_eq_some he

/-- Kinds tell the roles of the rules. -/
lemma telling_rules : ∀ e ∈ rules, (e.2.asRead false).telling = true := by decide +kernel

/-- In a program that is simplified they do not tell them in a `for` statement, and in nothing else. -/
lemma telling_simplified : ∀ e ∈ rules, (e.2.asRead true).telling = true ↔ e.1 ≠ "for_statement" := by
  decide +kernel

/-- Every rule allows parentheses to be taken off. -/
lemma unwraps_rules : ∀ e ∈ rules, e.2.unwraps = true := by decide +kernel

/-- No leaf kind has a rule. -/
lemma not_leaf_rules : ∀ e ∈ rules, leafKinds.contains e.1 = false := by decide +kernel

variable {source : String} {simplify : Bool} {t : Token} {kids f : Concrete} {xs ys : List Part}

/-- If what stands at a node that is read satisfies `q`, whenever what it is read from satisfies `p`, then
so does everything that is read. -/
lemma everywhere_readForest_of {p : Token → Concrete → Bool} {q : Node → Forest Node → Bool}
    (hpq : ∀ t kids role, p t kids = true → kids.everywhere p = true →
      q ⟨t.kind, role, labelOf source t kids, t.start, t.stop, t.row + 1⟩
        (if leafKinds.contains t.kind then .nil else readForest source simplify kids .all) = true)
    (h : f.everywhere p = true) (pick : Pick) :
    (readForest source simplify f pick).everywhere q = true := by
  induction f generalizing pick with
  | nil => rfl
  | cons t kids rest ihk ihr =>
    obtain ⟨ht, hkids, hrest⟩ := Forest.everywhere_cons.1 h
    have htree : ∀ role, (readTree source simplify t kids role).everywhere q = true := by
      intro role
      rw [readTree]
      split
      · exact ihk hkids (.inner role)
      · refine Forest.everywhere_cons.2 ⟨hpq t kids role ht hkids, ?_, rfl⟩
        split
        · rfl
        · exact ihk hkids .all
    cases hskips : pick.skips simplify t with
    | true =>
      rw [readForest_of_skips hskips]
      exact ihr hrest pick
    | false =>
      cases pick with
      | all =>
        rw [readForest_all hskips]
        exact Forest.everywhere_append (htree t.field) (ihr hrest .all)
      | inner role =>
        rw [readForest_inner hskips]
        exact htree role

/-- Parts that follow a rule still do, when they are read. -/
lemma follows_of_reads {kind : String} (h : follows (ruleOf? kind) xs = true)
    (hreads : Reads simplify (xs.filter (·.kind != "comment")) ys) :
    follows ((ruleOf? kind).map (·.asRead simplify)) ys = true := by
  cases hrule : ruleOf? kind with
  | none => rfl
  | some R =>
    simp only [hrule, follows, Option.all_some, Option.map_some, Bool.and_eq_true] at h ⊢
    refine ⟨List.all_eq_true.2 fun y hy => ?_, ?_⟩
    · cases hextra : y.isExtra with
      | false => rfl
      | true =>
        have hmem := (List.mem_filter.1 (hreads.mem_of_isExtra hy hextra)).1
        simpa [hextra] using List.all_eq_true.1 h.1 y hmem
    · have hsame : (xs.filter (·.kind != "comment")).filter (!·.isExtra) = xs.filter (!·.isExtra) := by
        rw [List.filter_filter]
        refine List.filter_congr fun x _ => ?_
        by_cases hcomment : x.kind = "comment"
        · simp [Part.isExtra, extraKinds, hcomment]
        · simp [hcomment]
      exact Reads.allows (unwraps_rules _ (mem_rules hrule)) h.2 (hsame ▸ hreads.filter)

/-- A forest follows the grammar at its first root, below it and behind it. -/
lemma followsGrammar_cons {rest : Concrete} (h : Concrete.FollowsGrammar (.cons t kids rest)) :
    follows (ruleOf? t.kind) ((Concrete.namedRoots kids).map Token.part) = true ∧
      Concrete.FollowsGrammar kids ∧ Concrete.FollowsGrammar rest :=
  Forest.everywhere_cons.1 h

/-- In parentheses that give way to what they hold stands an expression. -/
lemma expression_of_isWrapper (hwrapper : isWrapper t kids = true)
    (h : follows (ruleOf? t.kind) ((Concrete.namedRoots kids).map Token.part) = true) :
    ∃ u, Concrete.namedRoots kids = [u] ∧ isExpression u.kind = true := by
  rw [isWrapper, Bool.and_eq_true, beq_iff_eq, beq_iff_eq] at hwrapper
  obtain ⟨u, hu⟩ := List.length_eq_one_iff.1 hwrapper.2
  refine ⟨u, hu, ?_⟩
  have hrule : ruleOf? t.kind = some (.series [⟨none, .expression, false⟩]) := by
    rw [hwrapper.1]
    decide
  rw [hrule, hu] at h
  cases hextra : u.part.isExtra <;>
    simp_all [follows, Rule.allows, Place.fits, Place.holds, Matter.takes, Token.part]

/-- The named roots of a forest, told from its first. -/
lemma namedRoots_cons (t : Token) (kids rest : Concrete) :
    Concrete.namedRoots (.cons t kids rest) =
      (if t.named then [t] else []) ++ Concrete.namedRoots rest := by
  rw [Concrete.namedRoots, Forest.roots, List.filter_cons]
  split <;> rfl

/-- An expression that is read out of parentheses takes their role, and so on inside. -/
lemma roots_readForest_inner (h : f.FollowsGrammar) {u : Token} (hu : Concrete.namedRoots f = [u])
    (hexpression : isExpression u.kind = true) (role : Option String) :
    ∃ kind, isExpression kind = true ∧
      (readForest source simplify f (.inner role)).roots.map Node.part = [⟨role, kind⟩] := by
  induction f generalizing u with
  | nil => cases hu
  | cons t kids rest ihk ihr =>
    obtain ⟨hfollows, hkids, hrest⟩ := followsGrammar_cons h
    rw [namedRoots_cons] at hu
    cases hnamed : t.named with
    | false =>
      rw [hnamed] at hu
      have hskips : (Pick.inner role).skips simplify t = true := by rw [Pick.skips, hnamed]; rfl
      rw [readForest_of_skips hskips]
      exact ihr hrest hu hexpression
    | true =>
      rw [hnamed, if_pos rfl, List.singleton_append, List.cons.injEq] at hu
      obtain ⟨rfl, -⟩ := hu
      have hskips : (Pick.inner role).skips simplify t = false := by rw [Pick.skips, hnamed]; rfl
      rw [readForest_inner hskips, readTree]
      split
      · next hwrapper =>
        obtain ⟨u, hu, hinner⟩ := expression_of_isWrapper (Bool.and_eq_true_iff.1 hwrapper).2 hfollows
        exact ihk hkids hu hinner
      · exact ⟨t.kind, hexpression, rfl⟩

/-- The parts of a node are read in turn. -/
lemma reads_roots (h : f.FollowsGrammar) :
    Reads simplify (((Concrete.namedRoots f).map Token.part).filter (·.kind != "comment"))
      ((readForest source simplify f .all).roots.map Node.part) := by
  induction f with
  | nil => exact .nil
  | cons t kids rest _ ih =>
    obtain ⟨hfollows, hkids, hrest⟩ := followsGrammar_cons h
    have ih := ih hrest
    rw [namedRoots_cons]
    cases hskips : Pick.all.skips simplify t with
    | true =>
      rw [readForest_of_skips hskips]
      simp only [Pick.skips, Bool.or_eq_true, Bool.and_eq_true, Bool.not_eq_true', beq_iff_eq] at hskips
      rcases hskips with (hnamed | hcomment) | ⟨hsimplify, hkind⟩
      · rwa [hnamed]
      · cases t.named with
        | false => exact ih
        | true => simpa [Token.part, hcomment] using ih
      · cases t.named with
        | false => exact ih
        | true =>
          have hpart : (t.kind != "comment") = true := by
            rw [hkind]
            decide
          rw [if_pos rfl, List.singleton_append, List.map_cons, List.filter_cons, Token.part_kind,
            if_pos hpart]
          exact .leaveOut hsimplify hkind ih
    | false =>
      have hread : t.named = true ∧ (t.kind != "comment") = true := by
        simp only [Pick.skips, Bool.or_eq_false_iff, Bool.not_eq_false'] at hskips
        exact ⟨hskips.1.1, by simpa using hskips.1.2⟩
      rw [hread.1, if_pos rfl, List.singleton_append, List.map_cons, List.filter_cons, Token.part_kind,
        if_pos hread.2, readForest_all hskips, Forest.roots_append, List.map_append, readTree]
      split
      · next hwrapper =>
        obtain ⟨hsimplify, hwrapper⟩ := Bool.and_eq_true_iff.1 hwrapper
        obtain ⟨u, hu, hinner⟩ := expression_of_isWrapper hwrapper hfollows
        obtain ⟨kind, hkind, hroots⟩ := roots_readForest_inner hkids hu hinner t.field
        rw [hroots]
        exact .unwrap hsimplify (beq_iff_eq.1 (Bool.and_eq_true_iff.1 hwrapper).1) hkind ih
      · exact .keep t.part ih

/-- What is read follows the rules for what is read. -/
lemma everywhere_readForest (h : f.FollowsGrammar) (pick : Pick) :
    (readForest source simplify f pick).everywhere (fun x kids =>
      follows ((ruleOf? x.kind).map (·.asRead simplify)) (kids.roots.map Node.part)) = true := by
  refine everywhere_readForest_of (fun t kids role hfollows hkids => ?_) h pick
  dsimp only
  split
  · next hleaf =>
    -- No rule is about leaves.
    cases hrule : ruleOf? t.kind with
    | none => rfl
    | some R =>
      rw [not_leaf_rules _ (mem_rules hrule)] at hleaf
      cases hleaf
  · exact follows_of_reads hfollows (reads_roots hkids)

namespace Ast

variable {a b : Ast} {i c : Nat} {role : String} {R : Rule}

/-- What a node is to the node above it. -/
def part (a : Ast) (i : Nat) : Part := ⟨a.field? i, a.kind i⟩

/-- Every node follows the rule for what is read. -/
def FollowsRules (a : Ast) (simplify : Bool) : Prop :=
  ∀ i, follows ((ruleOf? (a.kind i)).map (·.asRead simplify)) ((a.children i).map a.part) = true

/-- The part a node is, read off its subtree. -/
lemma part_of_sub? {x : Node} {kids : Forest Node} (h : a.tree.sub? i = some (x, kids)) :
    a.part i = x.part := by
  rw [part, field?_of_sub? h, kind_of_sub? h, Node.part]

/-- The parts that the children of a node are, read off its subtree. -/
lemma map_part_children {x : Node} {kids : Forest Node} (h : a.tree.sub? i = some (x, kids)) :
    (a.children i).map a.part = kids.roots.map Node.part := by
  rw [children_of_sub? h, ← Forest.map_trees]
  refine Forest.map_rootNumbers fun k p hk => ?_
  have hbelow : a.tree.sub? (i + 1 + k) = some (p.1, p.2) := by
    rw [Forest.sub?_below h (Forest.lt_of_sub? hk), hk]
  exact part_of_sub? hbelow

/-- A program that is read from a tree that follows the grammar follows the rules. -/
lemma followsRules_read {s : Source} (h : s.tree.FollowsGrammar) (simplify : Bool) :
    (s.read simplify).FollowsRules simplify := by
  intro i
  by_cases hi : i < (s.read simplify).size
  · obtain ⟨x, kids, hs⟩ := exists_sub? hi
    rw [kind_of_sub? hs, map_part_children hs]
    exact Forest.everywhere_sub? (everywhere_readForest h (.inner none)) hs
  · have hrule : ruleOf? "" = none := by decide
    rw [kind_eq_empty hi, hrule]
    rfl

namespace FollowsRules

variable (h : a.FollowsRules simplify) (hrule : ruleOf? (a.kind i) = some R)

include h hrule

/-- The children of a node in the tree read: extras have no role, and the others are allowed. -/
lemma parts : (∀ c ∈ a.children i, (a.part c).isExtra = true → a.field? c = none) ∧
    (R.asRead simplify).allows (((a.children i).filter fun c => !(a.part c).isExtra).map a.part) = true := by
  have hi := h i
  rw [hrule] at hi
  simp only [follows, Option.map_some, Option.all_some, Bool.and_eq_true, List.filter_map] at hi
  refine ⟨fun c hc hextra => ?_, hi.2⟩
  have hnone := List.all_eq_true.1 hi.1 (a.part c) (List.mem_map_of_mem hc)
  rwa [hextra, Bool.not_true, Bool.false_or, beq_iff_eq] at hnone

/-- What stands in a role is what the rule has there. -/
lemma takes {places : List Place} (hseries : R = .series places) (hc : c ∈ a.children i)
    (hrole : a.field? c = some role) : ∃ p ∈ places, p.role = some role ∧ p.matter.takes (a.kind c) = true := by
  obtain ⟨hextra, hallows⟩ := h.parts hrule
  have hpart : (!(a.part c).isExtra) = true := by
    cases he : (a.part c).isExtra with
    | false => rfl
    | true =>
      rw [hextra c hc he] at hrole
      cases hrole
  rw [hseries] at hallows
  obtain ⟨p', hp, hholds⟩ :=
    Place.exists_holds hallows (List.mem_map_of_mem (List.mem_filter.2 ⟨hc, hpart⟩))
  obtain ⟨p, hplace, rfl⟩ := List.mem_map.1 hp
  obtain ⟨hsame, htakes⟩ := Place.role_of_holds hholds
  exact ⟨p, hplace, hsame.symm.trans hrole, htakes⟩

end FollowsRules

/-- Of two programs with the same outline that follow the rules, the same nodes have a role of a telling
rule. -/
lemma beq_field?_of_sameOutline (ho : a.SameOutline b) (ha : a.FollowsRules simplify)
    (hb : b.FollowsRules simplify) (hrule : ruleOf? (a.kind i) = some R)
    (htelling : (R.asRead simplify).telling = true) (hrole : role ∈ R.roles) (hc : c ∈ a.children i) :
    (a.field? c == some role) = (b.field? c == some role) := by
  obtain ⟨hextra, hallows⟩ := ha.parts hrule
  obtain ⟨hextra', hallows'⟩ := hb.parts (ho.kind i ▸ hrule)
  have hkind : ∀ c, (b.part c).isExtra = (a.part c).isExtra := fun c => by
    rw [Part.isExtra, Part.isExtra, part, part, ho.kind c]
  cases he : (a.part c).isExtra with
  | true =>
    rw [hextra c hc he, hextra' c (ho.children i ▸ hc) ((hkind c).trans he)]
  | false =>
    rw [← ho.children i] at hallows'
    simp only [hkind] at hallows'
    have hkinds : ∀ cs : List Nat, (cs.map a.part).map (·.kind) = (cs.map b.part).map (·.kind) := fun cs => by
      rw [List.map_map, List.map_map]
      exact List.map_congr_left fun c _ => ho.kind c
    have hmarks := Rule.marks_eq htelling hallows hallows' (hkinds _) (R.roles_asRead simplify ▸ hrole)
    rw [Rule.marks, Rule.marks, List.map_map, List.map_map, List.map_inj_left] at hmarks
    exact hmarks c (List.mem_filter.2 ⟨hc, by rw [he]; rfl⟩)

end Ast

end Syntax

end Mend
