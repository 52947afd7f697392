import Mend.Proofs.Detector.Unprotected
import Mend.Proofs.Flow.Coverage
import Mend.Proofs.Syntax.Roles

/-!
# What catches exceptions

On the way up from a node, the first `try` statement that has the node in its body catches its exceptions, or
the `finally` clause of one that has the node in its `catch` clause does (`Ast.catcher?`). The skeleton of a
function shows the same nesting from the outside to the inside: in a skeleton that stands under a catcher, each
part stands under the catcher that the walk finds for it (`Stmt.Under`, `under_skeleton`).

The walk passes nodes that no part of the skeleton stands for: `else` clauses, the bodies and clauses of `switch`
statements, and parentheses. That none of them is itself a `try` statement is a matter of the grammar.
-/

namespace Mend

/-- Where exceptions go: to a `catch` or `finally` clause, or out of the function. -/
inductive Flow.Catcher where
  | clause (node : Nat)
  | exit
  deriving DecidableEq, Repr

open Mend.Flow (Catcher)

namespace Syntax

/-- Whether only one kind of node may stand in a role. -/
def Rule.reserves (role kind : String) : Rule → Bool
  | .series places => places.all fun p => p.role != some role || p.matter == .only kind
  | .first _ | .last _ | .never _ => false

namespace Ast

/-- What catches exceptions in the body of a `try` statement: the `catch` clause, or else the `finally` clause. -/
def bodyCatcher (a : Ast) (t : Nat) : Catcher :=
  ((a.child? t "handler").or (a.child? t "finalizer")).elim .exit .clause

/-- The `finally` clause of the `try` statement that has `c` for its `catch` clause. -/
def finallyOf? (a : Ast) (c : Nat) : Option Nat :=
  (a.parent? c).bind fun t =>
    if a.kind t = "try_statement" ∧ a.field? c = some "handler" then a.child? t "finalizer" else none

/-- What catches exceptions on the step up to `up` from `part`. -/
def catcherAt? (a : Ast) (up part : Nat) : Option Catcher :=
  if a.kind up = "try_statement" ∧ a.field? part = some "body" then some (a.bodyCatcher up)
  else (a.finallyOf? up).map .clause

/-- What catches the exceptions of a node within the function `f`: the first that the walk up comes to. -/
def catcher? (a : Ast) (f i : Nat) : Option Catcher :=
  ((a.ascent i).takeWhile (·.1 != f)).findSome? fun step => a.catcherAt? step.1 step.2

/-- A node in the `catch` clause of a `try` statement inside of `t` that has a `finally` clause. -/
def InInnerCatch (a : Ast) (t i : Nat) : Prop :=
  ∃ c ∈ a.ancestors i, t ∈ a.ancestors c ∧ a.parent? c ≠ some t ∧ (a.finallyOf? c).isSome = true

instance (a : Ast) (t i : Nat) : Decidable (a.InInnerCatch t i) := by
  unfold InInnerCatch
  infer_instance

/-- A `throw` that stands where control comes to a statement in the function `f`, not in the head of a loop. -/
def IsThrow (a : Ast) (f s : Nat) : Prop := a.kind s = "throw_statement" ∧ a.Reached f s

end Ast

end Syntax

namespace Flow

mutual

/-- A skeleton under the catcher `k`. `K` says what catches the exceptions of a node, and `T` which statements
are a `throw`. -/
def Stmt.Under (K : Nat → Option Catcher) (T : Nat → Prop) (k : Option Catcher) : Stmt → Prop
  | .skip => True
  | .seq first rest => first.Under K T k ∧ rest.Under K T k
  | .plain node | .ret node | .jump node _ _ => K node = k ∧ ¬T node
  | .throw node => K node = k ∧ T node
  | .branch node _ onTrue onFalse => K node = k ∧ onTrue.Under K T k ∧ onFalse.Under K T k
  | .whileLoop node _ _ body | .forEach node _ _ body => K node = k ∧ body.Under K T k
  | .doLoop node _ condition body => K node = k ∧ K (condition.getD node) = k ∧ body.Under K T k
  | .forLoop node _ start _ step body =>
    K node = k ∧ (∀ s ∈ start, K s = k ∧ ¬T s) ∧ (∀ s ∈ step, K s = k ∧ ¬T s) ∧ body.Under K T k
  | .switch node _ clauses => K node = k ∧ clauses.Under K T k
  | .tryCatch _ body catchNode catchBody finallyNode finallyBody =>
    (∀ n ∈ catchNode, K n = k) ∧ (∀ n ∈ finallyNode, K n = k) ∧
      body.Under K T (some ((catchNode.or finallyNode).elim .exit .clause)) ∧
        catchBody.Under K T ((finallyNode.map .clause).or k) ∧ finallyBody.Under K T k
  | .labelled _ _ body => body.Under K T k

/-- Clauses under the catcher `k`. -/
def Clauses.Under (K : Nat → Option Catcher) (T : Nat → Prop) (k : Option Catcher) : Clauses → Prop
  | .nil => True
  | .onCase _ body rest | .onDefault body rest => body.Under K T k ∧ rest.Under K T k
  | .gap rest => rest.Under K T k

end

variable {K : Nat → Option Catcher} {T : Nat → Prop} {k : Option Catcher}

/-- Statements in a row are under what catches each of them. -/
lemma Stmt.under_ofList {l : List Stmt} (h : ∀ s ∈ l, s.Under K T k) : (Stmt.ofList l).Under K T k := by
  induction l with
  | nil => trivial
  | cons s l ih => exact ⟨h s List.mem_cons_self, ih fun t ht => h t (List.mem_cons_of_mem s ht)⟩

end Flow

open Mend.Flow (Stmt Clauses Role)

namespace Syntax.Ast

variable {a : Ast} {f i j c p t : Nat} {simplify : Bool} {label : Option String}

/-! ### Steps up -/

/-- What catches at a node, told from its parent. -/
lemma catcher?_of_parent? (h : a.parent? i = some p) :
    a.catcher? f i = if p = f then none else (a.catcherAt? p i).or (a.catcher? f p) := by
  rw [catcher?, ascent_of_parent? h, List.takeWhile_cons]
  by_cases hp : p = f
  · simp only [hp, bne_self_eq_false, Bool.false_eq_true, if_false, if_true]
    rfl
  · rw [if_pos (bne_iff_ne.2 hp), if_neg hp, List.findSome?_cons, catcher?]
    dsimp only
    cases a.catcherAt? p i with
    | none => rfl
    | some k => rfl

/-- Nothing catches at a child of the function. -/
lemma catcher?_of_child (hc : c ∈ a.children f) : a.catcher? f c = none := by
  rw [catcher?_of_parent? (parent?_eq_some_iff.2 hc), if_pos rfl]

/-- What catches at a child of another node, told from that node. -/
lemma catcher?_of_step (hc : c ∈ a.children p) (hp : p ≠ f) :
    a.catcher? f c = (a.catcherAt? p c).or (a.catcher? f p) := by
  rw [catcher?_of_parent? (parent?_eq_some_iff.2 hc), if_neg hp]

/-- What runs behind a handler is the finalizer of its `try`. -/
lemma finallyOf?_eq (hc : c ∈ a.children t) (ht : a.kind t = "try_statement") (hfield : a.field? c = some "handler") :
    a.finallyOf? c = a.child? t "finalizer" := by
  rw [finallyOf?, parent?_eq_some_iff.2 hc, Option.bind_some, if_pos ⟨ht, hfield⟩]

/-- In the body of a `try` statement, exceptions go to its clauses. -/
lemma catcher?_of_body (ht : a.kind t = "try_statement") (hf : f < t) (hc : a.child? t "body" = some c) :
    a.catcher? f c = some (a.bodyCatcher t) := by
  rw [catcher?_of_step (mem_children_of_child? hc) (Nat.ne_of_gt hf), catcherAt?, if_pos ⟨ht, field?_of_child? hc⟩,
    Option.some_or]

/-- Below a node that is no `try`, only a finalizer behind it can catch. -/
lemma catcherAt?_of_ne_try (hp : a.kind p ≠ "try_statement") (c : Nat) :
    a.catcherAt? p c = (a.finallyOf? p).map .clause := by
  rw [catcherAt?, if_neg fun h => hp h.1]

section Grammar

variable (h : a.FollowsRules simplify)

include h

/-- In a role that the grammar reserves stands a node of the one kind. -/
lemma FollowsRules.kind_eq {role kind : String} (hrule : (ruleOf? (a.kind i)).any (·.reserves role kind) = true)
    (hc : c ∈ a.children i) (hrole : a.field? c = some role) : a.kind c = kind := by
  cases hR : ruleOf? (a.kind i) with
  | none =>
    rw [hR] at hrule
    cases hrule
  | some R =>
    rw [hR, Option.any_some] at hrule
    cases R with
    | series places =>
      obtain ⟨p, hp, hplace, htakes⟩ := h.takes hR rfl hc hrole
      have hreserved := List.all_eq_true.1 hrule p hp
      simp only [hplace, bne_self_eq_false, Bool.false_or, beq_iff_eq] at hreserved
      rw [hreserved] at htakes
      exact beq_iff_eq.1 htakes
    | first role => cases hrule
    | last role => cases hrule
    | never role => cases hrule

/-- The handler of a `try` is a catch clause. -/
lemma kind_handler (ht : a.kind t = "try_statement") (hc : c ∈ a.children t) (hfield : a.field? c = some "handler") :
    a.kind c = "catch_clause" :=
  h.kind_eq (by rw [ht]; decide) hc hfield

/-- Nothing is caught on the step up to a node that is neither a `try` statement nor a `catch` clause. -/
lemma catcher?_of_mem_children (hc : c ∈ a.children p) (hp : p ≠ f)
    (hkind : a.kind p ∉ ["try_statement", "catch_clause"]) : a.catcher? f c = a.catcher? f p := by
  rw [List.mem_cons, List.mem_singleton, not_or] at hkind
  have hnone : a.finallyOf? p = none := by
    rw [finallyOf?, Option.bind_eq_none_iff]
    intro t ht
    exact if_neg fun htry => hkind.2 (kind_handler h htry.1 (parent?_eq_some_iff.1 ht) htry.2)
  rw [catcher?_of_step hc hp, catcherAt?_of_ne_try hkind.1, hnone, Option.map_none, Option.none_or]

/-- A child in a role of a plain node is caught where the node is. -/
lemma catcher?_of_child? {role : String} (hc : a.child? p role = some c) (hp : p ≠ f)
    (hkind : a.kind p ∉ ["try_statement", "catch_clause"]) : a.catcher? f c = a.catcher? f p :=
  catcher?_of_mem_children h (mem_children_of_child? hc) hp hkind

/-- The first child of a plain node is caught where the node is. -/
lemma catcher?_of_firstChild? (hc : a.firstChild? p = some c) (hp : p ≠ f)
    (hkind : a.kind p ∉ ["try_statement", "catch_clause"]) : a.catcher? f c = a.catcher? f p :=
  catcher?_of_mem_children h (List.mem_of_mem_head? hc) hp hkind

/-- Parentheses change nothing about what catches. -/
lemma catcher?_unparen (hi : f < i) : a.catcher? f (a.unparen i) = a.catcher? f i := by
  fun_induction unparen a i with
  | case1 i hkind c hc ih =>
    rw [ih (Nat.lt_trans hi (firstChild?_bounds hc).1)]
    exact catcher?_of_firstChild? h hc (Nat.ne_of_gt hi) (by rw [hkind]; decide)
  | case2 => rfl
  | case3 => rfl

/-- A condition is caught where its statement is. -/
lemma catcher?_of_condition? (hc : a.condition? i = some c) (hi : f < i)
    (hkind : a.kind i ∉ ["try_statement", "catch_clause"]) : a.catcher? f c = a.catcher? f i := by
  unfold condition? at hc
  obtain ⟨d, hd, hc⟩ := Option.bind_eq_some_iff.1 hc
  have hlt : f < d := Nat.lt_trans hi (child?_bounds hd).1
  rw [← catcher?_of_child? h hd (Nat.ne_of_gt hi) hkind]
  split at hc
  · next hexpression =>
    obtain ⟨e, he, rfl⟩ := Option.map_eq_some_iff.1 hc
    rw [catcher?_unparen h (Nat.lt_trans hlt (firstChild?_bounds he).1)]
    exact catcher?_of_firstChild? h he (Nat.ne_of_gt hlt) (by rw [hexpression]; decide)
  · cases hc
  · cases hc
    exact catcher?_unparen h hlt

/-! ### Around a `try` statement -/

/-- A `try` itself is no handler. -/
lemma finallyOf?_try (ht : a.kind t = "try_statement") : a.finallyOf? t = none := by
  rw [finallyOf?, Option.bind_eq_none_iff]
  intro u hu
  refine if_neg fun hcatch => ?_
  have hkind := kind_handler h hcatch.1 (parent?_eq_some_iff.1 hu) hcatch.2
  rw [ht] at hkind
  exact absurd hkind (by decide)

section Try

variable (ht : a.kind t = "try_statement") (hf : f < t)

include ht hf

/-- A clause stands where its `try` statement stands. -/
lemma catcher?_of_clause {role : String} (hrole : role ≠ "body") (hc : a.child? t role = some c) :
    a.catcher? f c = a.catcher? f t := by
  have hbody : a.field? c ≠ some "body" := by
    rw [field?_of_child? hc]
    exact fun heq => hrole (Option.some.inj heq)
  rw [catcher?_of_step (mem_children_of_child? hc) (Nat.ne_of_gt hf), catcherAt?, if_neg fun h => hbody h.2,
    finallyOf?_try h ht, Option.map_none, Option.none_or]

/-- In the `catch` clause, exceptions go to the `finally` clause, or on outwards. -/
lemma catcher?_of_handlerBody (hc : a.child? t "handler" = some c) (hi : a.child? c "body" = some i) :
    a.catcher? f i = ((a.child? t "finalizer").map .clause).or (a.catcher? f t) := by
  have hkind := kind_handler h ht (mem_children_of_child? hc) (field?_of_child? hc)
  have hne : a.kind c ≠ "try_statement" := by
    rw [hkind]
    decide
  have hlt : f < c := Nat.lt_trans hf (child?_bounds hc).1
  rw [catcher?_of_step (mem_children_of_child? hi) (Nat.ne_of_gt hlt), catcherAt?_of_ne_try hne,
    finallyOf?_eq (mem_children_of_child? hc) ht (field?_of_child? hc),
    catcher?_of_clause h ht hf (by decide) hc]

/-- The body of a finalizer is caught where the `try` is. -/
lemma catcher?_of_finalizerBody (hc : a.child? t "finalizer" = some c) (hi : a.child? c "body" = some i) :
    a.catcher? f i = a.catcher? f t := by
  have hkind : a.kind c = "finally_clause" :=
    h.kind_eq (by rw [ht]; decide) (mem_children_of_child? hc) (field?_of_child? hc)
  have hlt : f < c := Nat.lt_trans hf (child?_bounds hc).1
  rw [catcher?_of_child? h hi (Nat.ne_of_gt hlt) (by rw [hkind]; decide), catcher?_of_clause h ht hf (by decide) hc]

end Try

/-! ### Parts and roles of a statement -/

/-- What stands for a statement stands where the statement does. -/
lemma catcher?_of_mem_roles {p : Role} (hp : p ∈ a.roles i) (hf : f < i) : a.catcher? f p.2 = a.catcher? f i := by
  unfold roles at hp
  split at hp
  all_goals rename_i hk
  · cases hp
  · cases hp
  iterate 4 rw [List.mem_singleton.1 hp]
  · simp only [List.mem_cons, List.not_mem_nil, or_false] at hp
    rcases hp with rfl | rfl
    · rfl
    · cases hc : a.condition? i with
      | none => rfl
      | some c => exact catcher?_of_condition? h hc hf (by rw [hk]; decide)
  · simp only [List.mem_append, List.mem_cons, List.mem_map, Option.mem_toList] at hp
    rcases hp with ⟨c, hc, rfl⟩ | rfl | ⟨c, hc, rfl⟩
    · exact catcher?_of_child? h (child?_of_loopStart? hc) (Nat.ne_of_gt hf) (by rw [hk]; decide)
    · rfl
    · exact catcher?_of_child? h hc (Nat.ne_of_gt hf) (by rw [hk]; decide)
  · simp only [List.mem_append, List.mem_map, Option.mem_toList] at hp
    rcases hp with ⟨c, hc, rfl⟩ | ⟨c, hc, rfl⟩
    · exact catcher?_of_clause h hk hf (by decide) hc
    · exact catcher?_of_clause h hk hf (by decide) hc
  · rw [List.mem_singleton.1 hp]

/-- The statements inside a statement stand where it does, unless it is a `try` statement. -/
lemma catcher?_of_mem_laidParts (hj : j ∈ a.laidParts i) (hf : f < i) (hi : a.kind i ≠ "try_statement") :
    a.catcher? f j = a.catcher? f i := by
  unfold laidParts partsWith at hj
  split at hj
  all_goals rename_i hk
  · exact catcher?_of_mem_children h hj (Nat.ne_of_gt hf) (by rw [hk]; decide)
  · rcases List.mem_append.1 hj with hj | hj
    · exact catcher?_of_child? h (Option.mem_toList.1 hj) (Nat.ne_of_gt hf) (by rw [hk]; decide)
    · obtain ⟨c, hc, hj⟩ := Option.bind_eq_some_iff.1 (Option.mem_toList.1 hj)
      have hkind : a.kind c = "else_clause" :=
        h.kind_eq (by rw [hk]; decide) (mem_children_of_child? hc) (field?_of_child? hc)
      have hlt : f < c := Nat.lt_trans hf (child?_bounds hc).1
      rw [catcher?_of_firstChild? h hj (Nat.ne_of_gt hlt) (by rw [hkind]; decide)]
      exact catcher?_of_child? h hc (Nat.ne_of_gt hf) (by rw [hk]; decide)
  iterate 5 exact catcher?_of_child? h (Option.mem_toList.1 hj) (Nat.ne_of_gt hf) (by rw [hk]; decide)
  · obtain ⟨clause, hclause, hj⟩ := List.mem_flatMap.1 hj
    obtain ⟨hclause, hkind⟩ := List.mem_filter.1 hclause
    cases hbody : a.child? i "body" with
    | none =>
      rw [hbody] at hclause
      cases hclause
    | some body =>
      rw [hbody, Option.elim_some] at hclause
      have hswitch : a.kind body = "switch_body" :=
        h.kind_eq (by rw [hk]; decide) (mem_children_of_child? hbody) (field?_of_child? hbody)
      have hlt : f < body := Nat.lt_trans hf (child?_bounds hbody).1
      have hlt' : f < clause := Nat.lt_trans hlt (mem_children hclause).1
      rw [catcher?_of_mem_children h (List.mem_filter.1 hj).1 (Nat.ne_of_gt hlt') ?_,
        catcher?_of_mem_children h hclause (Nat.ne_of_gt hlt) (by rw [hswitch]; decide),
        catcher?_of_child? h hbody (Nat.ne_of_gt hf) (by rw [hk]; decide)]
      rw [isClause, Bool.or_eq_true, beq_iff_eq, beq_iff_eq] at hkind
      rcases hkind with hkind | hkind <;> rw [hkind] <;> decide
  · exact absurd hk hi
  · cases hj

end Grammar

/-! ### What protects a node -/

/-- The `try` whose body holds a node is above it. -/
lemma mem_ancestors_of_enclosingTry? (h : a.enclosingTry? i = some t) : t ∈ a.ancestors i := by
  rw [enclosingTry?] at h
  split at h
  · next up below hfind =>
    split at h
    · cases h
    · cases h
      exact (List.of_mem_zip (List.mem_of_find?_eq_some hfind)).1
  · cases h

/-- What is in an inner handler stays there for everything below. -/
lemma InInnerCatch.of_parent? (hp : a.parent? i = some p) (h : a.InInnerCatch t p) : a.InInnerCatch t i := by
  obtain ⟨c, hc, hclause⟩ := h
  refine ⟨c, ?_, hclause⟩
  rw [ancestors_of_parent? hp]
  exact List.mem_cons_of_mem p hc

/-- The `catch` clause of a `try` statement inside of the one that protects it. -/
lemma inInnerCatch_of_finallyOf? (hp : a.parent? i = some p) (h : a.enclosingTry? p = some t)
    (hfinally : (a.finallyOf? p).isSome = true) : a.InInnerCatch t i := by
  refine ⟨p, ?_, mem_ancestors_of_enclosingTry? h, fun ht => ?_, hfinally⟩
  · rw [ancestors_of_parent? hp]
    exact List.mem_cons_self
  · rw [finallyOf?, ht, Option.bind_some] at hfinally
    rw [enclosingTry?_of_parent? ht] at h
    split at hfinally
    · next hcatch =>
      have hbody : ¬(a.kind t = "try_statement" ∧ a.field? p = some "body") := by
        rw [hcatch.2]
        exact fun hbody => absurd hbody.2 (by decide)
      rw [if_neg hbody] at h
      split at h
      · cases h
      · exact (mem_ancestors.1 (mem_ancestors_of_enclosingTry? h)).2 rfl
    · cases hfinally

/-- What protects a node catches its exceptions, unless the `finally` clause of an inner `try` statement does. -/
lemma catcher?_of_enclosingTry? (hf : a.isFunction f = true ∨ (a.parent? f = none ∧ a.kind f ≠ "try_statement"))
    (h : a.enclosingTry? i = some t) (hno : ¬a.InInnerCatch t i) : a.catcher? f i = some (a.bodyCatcher t) := by
  induction i using Nat.strongRecOn with
  | _ i ih =>
    cases hp : a.parent? i with
    | none =>
      rw [enclosingTry?_of_root hp] at h
      cases h
    | some p =>
      rw [enclosingTry?_of_parent? hp] at h
      split at h
      · cases h
      · next hfun =>
        have hne : p ≠ f := by
          rintro rfl
          rcases hf with hf | ⟨hroot, htry⟩
          · exact hfun hf
          · rw [if_neg fun hbody => htry hbody.1, enclosingTry?_of_root hroot] at h
            cases h
        rw [catcher?_of_parent? hp, if_neg hne, catcherAt?]
        split at h
        · next hbody =>
          cases h
          rw [if_pos hbody, Option.some_or]
        · next hbody =>
          have hfinally : a.finallyOf? p = none := by
            rw [← Option.not_isSome_iff_eq_none]
            exact fun hsome => hno (inInnerCatch_of_finallyOf? hp h hsome)
          rw [if_neg hbody, hfinally, Option.map_none, Option.none_or]
          exact ih p (parent_lt hp) h fun hinner => hno (hinner.of_parent? hp)

/-! ### Statements that control comes to -/

/-- What is laid out lies in one of the parts entered. -/
lemma LaidOut.exists_entry (h : a.LaidOut f i) : ∃ e ∈ a.entryParts f, a.contains e i = true := by
  induction h with
  | entry h => exact ⟨_, h, contains_self a _⟩
  | part _ hj ih =>
    obtain ⟨e, he, hi⟩ := ih
    exact ⟨e, he, contains_trans hi (contains_of_mem_laidParts hj)⟩

/-- A statement that stands in another one and is laid out stands in a part of it. -/
lemma LaidOut.inside (hi : a.LaidOut f i) (hj : a.LaidOut f j) (hij : a.contains i j = true) :
    j = i ∨ ∃ c ∈ a.laidParts i, a.contains c j = true := by
  induction j using Nat.strongRecOn generalizing i with
  | _ j ih =>
    have hle := (contains_iff.1 hij).1
    cases hj with
    | entry hj =>
      obtain ⟨e, he, hei⟩ := hi.exists_entry
      have heq : e = j := by
        by_contra hne
        exact (pairwise_apart_entryParts a f).forall he hj hne j (contains_trans hei hij) (contains_self a j)
      rw [heq] at hei
      exact .inl (Nat.le_antisymm (contains_iff.1 hei).1 hle)
    | @part m _ hm hj =>
      have hmj := contains_of_mem_laidParts hj
      rcases contains_or_contains hij hmj with him | hmi
      · rcases ih m (lt_of_mem_laidParts hj) hi hm him with rfl | ⟨c, hc, hcm⟩
        · exact .inr ⟨j, hj, contains_self a j⟩
        · exact .inr ⟨c, hc, contains_trans hcm hmj⟩
      · rcases Nat.eq_or_lt_of_le hle with heq | hlt
        · exact .inl heq.symm
        · rcases ih i hlt hm hi hmi with rfl | ⟨c, hc, hci⟩
          · exact .inr ⟨j, hj, contains_self a j⟩
          · have heq : c = j := by
              by_contra hne
              exact (pairwise_apart_laidParts a m).forall hc hj hne j (contains_trans hci hij) (contains_self a j)
            rw [heq] at hci
            exact absurd hlt (Nat.not_lt.2 (contains_iff.1 hci).1)

/-- A part that is no statement is not one that control can come to. -/
lemma LaidOut.not_of_mem_roles {p : Role} (hi : a.LaidOut f i) (hp : p ∈ a.roles i) (hne : p.2 ≠ i) :
    ¬a.Reached f p.2 := by
  intro hreached
  have hlaid := hreached.laidOut (hi.census_subset (mem_census_stmt.2 (.inl hp))) (contains_self a p.2)
  rcases hi.inside hlaid (contains_of_mem_roles hp) with heq | ⟨c, hc, hcp⟩
  · exact hne heq
  · rw [not_contains_of_mem_roles hp hc] at hcp
    cases hcp

/-- A body that is an expression has no statements to reach. -/
lemma not_reached_of_expressionBody? (h : a.expressionBody? f = some i) : ¬a.Reached f j := by
  intro hreached
  induction hreached with
  | entry he =>
    rw [expressionBody?_eq_none he] at h
    cases h
  | part _ _ ih => exact ih

/-! ### Skeletons -/

section Skeleton

variable {K : Nat → Option Catcher} {T : Nat → Prop} {k : Option Catcher}

/-- A statement that may be missing is under what catches it when present. -/
lemma under_stmt? {o : Option Nat} (h : ∀ j, o = some j → (a.stmt j label).Under K T k) :
    (a.stmt? o label).Under K T k :=
  stmt?_of (P := (·.Under K T k)) trivial h

/-- The statements of a clause are under what catches each part. -/
lemma under_clauseStmt (h : ∀ j ∈ a.clauseParts c, (a.stmt j none).Under K T k) : (a.clauseStmt c).Under K T k :=
  clauseStmt_of (P := (·.Under K T k)) (fun _ => Stmt.under_ofList) trivial h

/-- The clauses of a `switch` are under what catches the statements of each. -/
lemma under_clauses {l : List Nat}
    (h : ∀ clause ∈ l, a.isClause clause = true → (a.clauseStmt clause).Under K T k) :
    (l.foldr a.addClause .nil).Under K T k :=
  clauses_of (P := (·.Under K T k)) (Q := (·.Under K T k)) trivial (fun _ _ _ => And.intro) (fun _ _ => And.intro)
    (fun _ _ _ _ => id) h

end Skeleton

variable (h : a.FollowsRules simplify)

include h

/-- The initializer and the increment of a loop stand where it does, and are no `throw`. -/
lemma under_role {p : Role} (hi : a.LaidOut f i) (hp : p ∈ a.roles i) (hlt : i < p.2) :
    a.catcher? f p.2 = a.catcher? f i ∧ ¬a.IsThrow f p.2 :=
  ⟨catcher?_of_mem_roles h hp (Flow.lt_of_laidOut hi),
    fun hthrow => hi.not_of_mem_roles hp (Nat.ne_of_gt hlt) hthrow.2⟩

/-- The skeleton of a statement that is laid out stands under what the walk finds for it. -/
lemma under_stmt (hi : a.LaidOut f i) : (a.stmt i label).Under (a.catcher? f) (a.IsThrow f) (a.catcher? f i) := by
  induction i using laidParts_induction (a := a) generalizing label with
  | h i ih =>
    have hf : f < i := Flow.lt_of_laidOut hi
    -- The parts of a `try` statement have catchers of their own; all other parts have that of the statement.
    have htry : ∀ j ∈ a.laidParts i, ∀ {k}, a.catcher? f j = k →
        (a.stmt j none).Under (a.catcher? f) (a.IsThrow f) k := fun j hj k hk => hk ▸ ih j hj (hi.part hj)
    have hpart : a.kind i ≠ "try_statement" → ∀ j ∈ a.laidParts i, ∀ label,
        (a.stmt j label).Under (a.catcher? f) (a.IsThrow f) (a.catcher? f i) := fun hne j hj label =>
      catcher?_of_mem_laidParts h hj hf hne ▸ ih j hj (hi.part hj)
    have hroles := fun p hp => catcher?_of_mem_roles h (p := p) hp hf
    have hextra := fun p hp => under_role h (p := p) hi hp
    unfold laidParts partsWith at htry hpart
    unfold roles at hroles hextra
    rw [stmt_eq, assembled]
    split
    all_goals rename_i hk
    all_goals simp only [hk] at htry hpart hroles hextra
    · apply Stmt.under_ofList
      intro s hs
      obtain ⟨j, hj, rfl⟩ := List.mem_map.1 hs
      exact hpart (by decide) j hj none
    · exact ⟨rfl, under_stmt? fun j hj => hpart (by decide) j (List.mem_append_left _ (Option.mem_toList.2 hj)) none,
        under_stmt? fun j hj => hpart (by decide) j (List.mem_append_right _ (Option.mem_toList.2 hj)) none⟩
    · exact ⟨rfl, under_stmt? fun j hj => hpart (by decide) j (Option.mem_toList.2 hj) none⟩
    · exact ⟨rfl, hroles (.branch, (a.condition? i).getD i) (List.mem_cons_of_mem _ (List.mem_singleton_self _)),
        under_stmt? fun j hj => hpart (by decide) j (Option.mem_toList.2 hj) none⟩
    · refine ⟨rfl, fun s hs => ?_, fun s hs => ?_,
        under_stmt? fun j hj => hpart (by decide) j (Option.mem_toList.2 hj) none⟩
      · exact hextra (.block, s) (by simp_all) (child?_bounds (child?_of_loopStart? hs)).1
      · exact hextra (.block, s) (by simp_all) (child?_bounds hs).1
    · exact ⟨rfl, under_stmt? fun j hj => hpart (by decide) j (Option.mem_toList.2 hj) none⟩
    · refine ⟨rfl, under_clauses fun clause hclause hkind => under_clauseStmt fun j hj => ?_⟩
      exact hpart (by decide) j (List.mem_flatMap.2 ⟨clause, List.mem_filter.2 ⟨hclause, hkind⟩, hj⟩) none
    · refine ⟨fun n hn => catcher?_of_clause h hk hf (by decide) hn,
        fun n hn => catcher?_of_clause h hk hf (by decide) hn, under_stmt? fun j hj => ?_,
        under_stmt? fun j hj => ?_, under_stmt? fun j hj => ?_⟩
      · exact htry j (List.mem_append_left _ (List.mem_append_left _ (Option.mem_toList.2 hj)))
          (catcher?_of_body hk hf hj)
      · obtain ⟨c, hc, hj'⟩ := Option.bind_eq_some_iff.1 hj
        exact htry j (List.mem_append_left _ (List.mem_append_right _ (Option.mem_toList.2 hj)))
          (catcher?_of_handlerBody h hk hf hc hj')
      · obtain ⟨c, hc, hj'⟩ := Option.bind_eq_some_iff.1 hj
        exact htry j (List.mem_append_right _ (Option.mem_toList.2 hj)) (catcher?_of_finalizerBody h hk hf hc hj')
    · split
      · exact under_stmt? fun j hj => hpart (by decide) j (Option.mem_toList.2 hj) _
      · exact under_stmt? fun j hj => hpart (by decide) j (Option.mem_toList.2 hj) none
    · exact ⟨rfl, fun hthrow => absurd (hk.symm.trans hthrow.1) (by decide)⟩
    · exact ⟨rfl, hk, hi.reached (by rw [hk]; decide)⟩
    · exact ⟨rfl, fun hthrow => absurd (hk.symm.trans hthrow.1) (by decide)⟩
    · exact ⟨rfl, fun hthrow => absurd (hk.symm.trans hthrow.1) (by decide)⟩
    · exact ⟨rfl, fun hthrow => by simp_all [IsThrow]⟩

/-- Nothing catches exceptions around the statements of a function. -/
lemma under_skeleton (f : Nat) : (a.skeleton f).Under (a.catcher? f) (a.IsThrow f) none := by
  have hentry : ∀ i ∈ a.entryParts f, i ∈ a.children f →
      (a.stmt i none).Under (a.catcher? f) (a.IsThrow f) none := fun i hi hc =>
    catcher?_of_child hc ▸ under_stmt h (.entry hi)
  have hbody := fun i => not_reached_of_expressionBody? (a := a) (f := f) (i := i) (j := i)
  unfold skeleton
  unfold entryParts at hentry
  unfold expressionBody? at hbody
  split
  · next hf =>
    rw [if_pos hf] at hentry hbody
    cases hb : a.functionBody? f with
    | none => trivial
    | some body =>
      have hc : body ∈ a.children f := mem_children_of_child? hb
      rw [hb] at hentry hbody
      dsimp only
      split
      · next hk => exact hentry body (by simp [hk]) hc
      · next hk => exact ⟨catcher?_of_child hc, fun hthrow => hbody body (by simp [hk]) hthrow.2⟩
  · next hf =>
    rw [if_neg hf] at hentry
    apply Stmt.under_ofList
    intro s hs
    obtain ⟨i, hi, rfl⟩ := List.mem_map.1 hs
    exact hentry i hi hi

end Syntax.Ast

end Mend
