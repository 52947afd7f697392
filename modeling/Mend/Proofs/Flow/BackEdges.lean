import Mend.Proofs.Flow.LeadsOn
import Mend.Proofs.Flow.Order

/-!
# Back edges close loops

A back edge enters the node at which a loop starts over, and comes from a node that stands for something in
the loop (`Node.Restarts`). While a statement is laid out, new nodes stand for syntax nodes in its subtree
(`Draft.LoopsIn`); the only ways that become back edges are those that the body of a loop leaves open, and these
leave nodes that were added behind the head of the loop. Together with the order of the nodes this says that
the back edges are the loops of the graph (`back_edges_of_mem_graphs`).
-/

namespace Mend

open Syntax (Ast)

/-- The kind of the node at which a loop starts over. -/
def Syntax.Ast.headKind (a : Ast) (loop : Nat) : Flow.NodeKind :=
  match a.kind loop with
  | "do_statement" => .loopHead
  | "for_statement" => if (a.condition? loop).isSome then .branch else .loopHead
  | _ => .branch

namespace Flow

/-- From `x` control goes back to `y`, at which a loop starts over that contains the syntax node of `x`. -/
structure Node.Restarts (a : Ast) (x y : Node) : Prop where
  isLoop : a.kind y.ast ∈ Ast.loopKinds
  head : y.kind = a.headKind y.ast
  inside : a.contains y.ast x.ast = true

/-- What was added on the way from `d` to `d'` stands for something in the subtree of `i`, and new back edges close
loops. -/
structure Draft.LoopsIn (a : Ast) (i : Nat) (d d' : Draft) : Prop where
  extend : d.Extends d'
  inside : ∀ (n : Nat) (x : Node), d.Added d' n → d'.nodes[n]? = some x → a.contains i x.ast = true
  backs : ∀ e ∈ d'.edges.toList, e.isBack = true → e ∈ d.edges.toList ∨
    ∃ x y, d'.nodes[e.source]? = some x ∧ d'.nodes[e.target]? = some y ∧ x.Restarts a y

variable {a : Ast} {i j n ast node : Nat} {d d' d'' : Draft} {c : Context} {kind : NodeKind} {ways : List Way}
  {l : Layout} {clause : Option Nat}

namespace Draft

/-- A node that is there stays, with more statements at most. -/
lemma Extends.getElem? (h : d.Extends d') {x : Node} (hx : d.nodes[n]? = some x) :
    ∃ more, d'.nodes[n]? = some (x.extend more) := by
  obtain ⟨more, hmore, -⟩ := h.kept n (Array.getElem?_eq_some_iff.1 hx).1
  exact ⟨more, by rw [hmore, hx, Option.map_some]⟩

namespace LoopsIn

/-- Where nothing is added there is no new edge. -/
lemma refl (d : Draft) : d.LoopsIn a i d where
  extend := .refl d
  inside _ _ hn := absurd hn.2 (Nat.not_lt.2 hn.1)
  backs _ he _ := .inl he

/-- What is laid out in two steps. -/
lemma trans (h : d.LoopsIn a i d') (h' : d'.LoopsIn a i d'') : d.LoopsIn a i d'' where
  extend := h.extend.andThen h'.extend
  inside n x hn hx := by
    by_cases hlt : n < d'.size
    · obtain ⟨more, hmore⟩ := h'.extend.getElem? (Array.getElem?_eq_getElem hlt)
      cases hmore.symm.trans hx
      have hold := h.inside n _ ⟨hn.1, hlt⟩ (Array.getElem?_eq_getElem hlt)
      exact hold
    · exact h'.inside n x ⟨Nat.not_lt.1 hlt, hn.2⟩ hx
  backs e he hback := by
    rcases h'.backs e he hback with he | hnew
    · refine (h.backs e he hback).imp_right fun ⟨x, y, hx, hy, hxy⟩ => ?_
      obtain ⟨more, hx⟩ := h'.extend.getElem? hx
      obtain ⟨more', hy⟩ := h'.extend.getElem? hy
      exact ⟨_, _, hx, hy, hxy.isLoop, hxy.head, hxy.inside⟩
    · exact .inr hnew

/-- What holds inside a node holds inside the nodes around it. -/
lemma mono (h : d.LoopsIn a j d') (hj : a.contains i j = true) : d.LoopsIn a i d' where
  extend := h.extend
  inside n x hn hx := Ast.contains_trans hj (h.inside n x hn hx)
  backs := h.backs

/-- Closing a block adds no edge. -/
lemma close (h : d.LoopsIn a i d') : d.LoopsIn a i d'.close :=
  ⟨Grows.close h.extend, h.inside, h.backs⟩

/-- Edges that close no loop do not matter. -/
lemma connect (h : d.LoopsIn a i d') (ways : List Way) (n : Nat) : d.LoopsIn a i (d'.connect ways n false) where
  extend := h.extend.connect ways n false
  inside := h.inside
  backs e he hback := by
    rw [edges_connect, List.mem_append] at he
    rcases he with he | he
    · exact h.backs e he hback
    · obtain ⟨w, -, rfl⟩ := List.mem_map.1 he
      cases hback

/-- Ways out of new nodes go back to the head of the loop. -/
lemma back (h : d.LoopsIn a i d') (hloop : a.kind i ∈ Ast.loopKinds) (hkind : kind = a.headKind i)
    (hhead : d'.nodes[n]? = some ⟨kind, i, []⟩) (hways : ∀ w ∈ ways, d.Added d' w.source) :
    d.LoopsIn a i (d'.connect ways n true) where
  extend := h.extend.connect ways n true
  inside := h.inside
  backs e he hback := by
    rw [edges_connect, List.mem_append] at he
    rcases he with he | he
    · exact h.backs e he hback
    · obtain ⟨w, hw, rfl⟩ := List.mem_map.1 he
      have hx := Array.getElem?_eq_getElem (hways w hw).2
      exact .inr ⟨_, _, hx, hhead, hloop, hkind, h.inside _ _ (hways w hw) hx⟩

/-- A new node of the tree inside the loop. -/
lemma addNode (h : d.LoopsIn a i d') (c : Context) (kind : NodeKind) (hast : a.contains i ast = true) :
    d.LoopsIn a i (d'.addNode c kind ast).1 := by
  refine h.trans ⟨(Grows.refl _ _ d').addNode kind ast fun _ _ => .inl trivial, fun n x hn hx => ?_,
    fun e he hback => ?_⟩
  · rw [Added, size_addNode] at hn
    obtain rfl : n = d'.nodes.size := Nat.le_antisymm (Nat.lt_succ_iff.1 hn.2) hn.1
    rw [nodes_addNode, Array.getElem?_push_size] at hx
    cases hx
    exact hast
  · rw [edges_addNode, List.mem_append] at he
    refine he.imp_right fun he => ?_
    obtain ⟨m, -, rfl⟩ := List.mem_map.1 he
    cases hback

/-- A new target inside the loop. -/
lemma addTarget (h : d.LoopsIn a i d') (c : Context) (kind : NodeKind) (ways : List Way)
    (hast : a.contains i ast = true) : d.LoopsIn a i (d'.addTarget c kind ast ways).1 := by
  rw [addTarget_fst]
  exact (h.close.addNode c kind hast).connect ways d'.size

/-- The node of a clause inside the loop. -/
lemma addClause (h : d.LoopsIn a i d') (c : Context) (hclause : ∀ n ∈ clause, a.contains i n = true) :
    d.LoopsIn a i (d'.addClause c clause).1 := by
  cases clause with
  | none => exact h
  | some ast => exact h.addNode c .handler (hclause ast rfl)

/-- A plain statement inside the loop. -/
lemma plain (h : d.LoopsIn a i d') (c : Context) (ways : List Way) (hast : a.contains i ast = true) :
    d.LoopsIn a i (d'.plain c ast ways).1 := by
  have hd : d'.Extends (d'.plain c ast ways).1 :=
    ((Grows.refl _ _ d').plain ast (fun _ _ => .inl trivial) fun _ _ => .inl trivial).1
  cases hb : d'.openBlock? ways with
  | some block =>
    rw [plain_of_openBlock?_eq_some _ _ _ _ hb] at hd ⊢
    refine h.trans ⟨hd, fun n x hn => ?_, fun e he _ => .inl he⟩
    rw [Added, size_append] at hn
    exact absurd hn.2 (Nat.not_lt.2 hn.1)
  | none =>
    rw [plain_of_openBlock?_eq_none _ _ _ _ hb] at hd ⊢
    refine h.trans ⟨hd, fun n x hn hx => ?_, fun e he hback => .inl ?_⟩
    · rw [Added, size_reopen, size_connect, size_append, size_addNode] at hn
      obtain rfl : n = d'.nodes.size := Nat.le_antisymm (Nat.lt_succ_iff.1 hn.2) hn.1
      rw [nodes_reopen, nodes_connect, getElem?_append, size, if_pos rfl, nodes_addNode,
        Array.getElem?_push_size] at hx
      cases hx
      exact hast
    · rw [edges_reopen, edges_connect, edges_append, edges_addNode, List.mem_append, List.mem_append] at he
      rcases he with (he | he) | he
      · exact he
      · obtain ⟨m, -, rfl⟩ := List.mem_map.1 he
        cases hback
      · obtain ⟨w, -, rfl⟩ := List.mem_map.1 he
        cases hback

/-- A plain statement that may be missing. -/
lemma plain? (h : d.LoopsIn a i d') (c : Context) (ways : List Way) {part : Option Nat}
    (hpart : ∀ n ∈ part, a.contains i n = true) : d.LoopsIn a i (d'.plain? c part ways).1 := by
  cases part with
  | none => exact h
  | some ast => exact h.plain c ways (hpart ast rfl)

end LoopsIn

/-- The head of a loop stays what it was. -/
lemma Grows.getElem?_head {T : Nat → Prop} {W : Way → Prop} (h : (d.addTarget c kind ast ways).1.Grows T W d') :
    d'.nodes[d.size]? = some ⟨kind, ast, []⟩ := by
  rw [h.getElem?_of_closed (current_addTarget ..) (by simp), nodes_addTarget, size, Array.getElem?_push_size]

end Draft

/-- Laid out anywhere, a statement adds loops in the subtree of `i` only. -/
def Stmt.LoopsIn (a : Ast) (i : Nat) (s : Stmt) : Prop :=
  ∀ (c : Context) (d : Draft) (ways : List Way), d.LoopsIn a i (s.layOut c d ways).draft

/-- The same of clauses. -/
def Clauses.LoopIn (a : Ast) (i : Nat) (s : Clauses) : Prop :=
  ∀ (c : Context) (branch : Nat) (selector : Option Nat) (d : Draft) (falling : List Way),
    d.LoopsIn a i (s.layOut c branch selector d falling).draft

variable {label : Option String} {condition : Option Nat} {body first rest onTrue onFalse : Stmt}

/-- A statement inside a node is inside the nodes around it. -/
lemma Stmt.LoopsIn.mono {s : Stmt} (h : s.LoopsIn a j) (hj : a.contains i j = true) : s.LoopsIn a i :=
  fun c d ways => (h c d ways).mono hj

/-- Nothing. -/
lemma loopsIn_skip : Stmt.skip.LoopsIn a i := fun _ d _ => .refl d

/-- One statement after the other. -/
lemma loopsIn_seq (hf : first.LoopsIn a i) (hr : rest.LoopsIn a i) : (Stmt.seq first rest).LoopsIn a i := by
  intro c d ways
  rw [Stmt.layOut]
  exact (hf c d ways).trans (hr c _ _)

/-- A list of statements. -/
lemma loopsIn_ofList {l : List Stmt} (h : ∀ s ∈ l, s.LoopsIn a i) : (Stmt.ofList l).LoopsIn a i := by
  induction l with
  | nil => exact loopsIn_skip
  | cons s l ih => exact loopsIn_seq (h s List.mem_cons_self) (ih fun t ht => h t (List.mem_cons_of_mem _ ht))

/-- A plain statement. -/
lemma loopsIn_plain (hnode : a.contains i node = true) : (Stmt.plain node).LoopsIn a i :=
  fun c d ways => (Draft.LoopsIn.refl d).plain c ways hnode

/-- A `return`. -/
lemma loopsIn_ret (hnode : a.contains i node = true) : (Stmt.ret node).LoopsIn a i :=
  fun c d ways => (((Draft.LoopsIn.refl d).plain c ways hnode).connect _ exitNode).close

/-- A `throw`. -/
lemma loopsIn_throw (hnode : a.contains i node = true) : (Stmt.throw node).LoopsIn a i :=
  fun c d ways => (((Draft.LoopsIn.refl d).plain c ways hnode).connect _ exitNode).close

/-- A `break` or `continue`: its edge is added by the loop it belongs to. -/
lemma loopsIn_jump {isContinue : Bool} (hnode : a.contains i node = true) :
    (Stmt.jump node isContinue label).LoopsIn a i := by
  intro c d ways
  have h := ((Draft.LoopsIn.refl d).plain c ways hnode).close
  rw [Stmt.layOut]
  cases c.target? isContinue label with
  | none => exact h
  | some depth => exact h

/-- An `if` statement. -/
lemma loopsIn_branch (hnode : a.contains i node = true) (ht : onTrue.LoopsIn a i) (hf : onFalse.LoopsIn a i) :
    (Stmt.branch node condition onTrue onFalse).LoopsIn a i := by
  intro c d ways
  rw [layOut_branch]
  exact ((((Draft.LoopsIn.refl d).addTarget c .branch ways hnode).trans (ht c _ _)).close.trans (hf c _ _)).close

/-- The body of a loop behind the head: what it leaves open comes from behind the head, too. -/
lemma loopsIn_behind (hbody : body.LoopsIn a i) (c : Context) (d : Draft) (kind : NodeKind) (ways : List Way) {w : Way}
    (hw : w.source = d.size) :
    let l := body.layOut c (d.addTarget c kind i ways).1 [w]
    d.LoopsIn a i l.draft ∧ (∀ v ∈ l.left, d.Added l.draft v.source) ∧
      ∀ d', l.draft.Extends d' → d'.nodes[d.size]? = some ⟨kind, i, []⟩ := by
  intro l
  have hg := body.layOut_grown c (d.addTarget c kind i ways).1 [w]
  have hl : d.LoopsIn a i l.draft :=
    ((Draft.LoopsIn.refl d).addTarget c kind ways (Ast.contains_self a i)).trans (hbody c _ _)
  refine ⟨hl, fun v hv => ?_, fun d' hd' => ?_⟩
  · have hsize := hg.grows.size_le
    rw [Draft.size_addTarget] at hsize
    rcases hg.left v hv with hv | hv
    · rw [List.mem_singleton.1 hv, hw]
      exact ⟨Nat.le_refl _, hsize⟩
    · rw [Draft.Added, Draft.size_addTarget] at hv
      exact ⟨Nat.le_of_succ_le hv.1, hv.2⟩
  · have hfrom := hg.grows.mono (fun _ _ => .inl trivial) fun _ _ => trivial
    exact (Draft.Extends.andThen hfrom hd').getElem?_head

/-- A loop whose head is tested before the body: the edges back enter the head. -/
lemma loopsIn_loop (hloop : a.kind i ∈ Ast.loopKinds) (hkind : .branch = a.headKind i) (hbody : body.LoopsIn a i)
    (c : Context) (frame : Frame) (d : Draft) (ways : List Way) {w : Way} (hw : w.source = d.size) (depth : Nat) :
    let l := body.layOut (c.enter frame) (d.addTarget c .branch i ways).1 [w]
    d.LoopsIn a i ((l.draft.connect l.outs d.size true).connect (l.continues depth) d.size true).close := by
  intro l
  obtain ⟨hl, hleft, hhead⟩ := loopsIn_behind hbody (c.enter frame) d .branch ways hw
  have hhead := hhead _ (.refl _)
  have houts := hl.back hloop hkind hhead fun v hv => hleft v (Layout.mem_left_of_outs hv)
  exact (houts.back hloop hkind hhead fun v hv => hleft v (Layout.mem_left_of_latch
    (List.mem_append_right _ hv))).close

/-- A `while` loop. -/
lemma loopsIn_whileLoop (hk : a.kind i = "while_statement") (hbody : body.LoopsIn a i) :
    (Stmt.whileLoop i label condition body).LoopsIn a i := by
  intro c d ways
  rw [layOut_whileLoop]
  exact loopsIn_loop (by simp [hk, Ast.loopKinds]) (by simp [hk, Ast.headKind]) hbody c _ d ways rfl _

/-- A `for` loop over something. -/
lemma loopsIn_forEach {iterated : Option Nat} (hk : a.kind i = "for_in_statement") (hbody : body.LoopsIn a i) :
    (Stmt.forEach i label iterated body).LoopsIn a i := by
  intro c d ways
  rw [layOut_forEach]
  exact loopsIn_loop (by simp [hk, Ast.loopKinds]) (by simp [hk, Ast.headKind]) hbody c _ d ways rfl _

/-- A `do` loop, whose test comes behind its body. -/
lemma loopsIn_doLoop (hk : a.kind i = "do_statement") (hcondition : a.contains i (condition.getD i) = true)
    (hbody : body.LoopsIn a i) : (Stmt.doLoop i label condition body).LoopsIn a i := by
  intro c d ways
  rw [layOut_doLoop]
  extract_lets l test
  obtain ⟨hl, -, hhead⟩ : d.LoopsIn a i l.draft ∧ _ ∧ _ := loopsIn_behind hbody (c.enter ⟨label, true, true⟩) d
    .loopHead ways rfl
  have htest := ((Draft.LoopsIn.refl l.draft).addTarget c .branch l.outs hcondition).connect
    (l.continues c.frames.length) test
  refine ((hl.trans htest).back (by simp [hk, Ast.loopKinds]) (by simp [hk, Ast.headKind]) (hhead _ htest.extend)
    (List.forall_mem_singleton.2 ⟨hl.extend.size_le, ?_⟩)).close
  simp [Way.guarded, test]

/-- A `for` loop with three parts. -/
lemma loopsIn_forLoop {start step : Option Nat} (hk : a.kind i = "for_statement")
    (hstart : ∀ n ∈ start, a.contains i n = true) (hstep : ∀ n ∈ step, a.contains i n = true)
    (hbody : body.LoopsIn a i) : (Stmt.forLoop i label start (a.condition? i) step body).LoopsIn a i := by
  intro c d ways
  rw [layOut_forLoop]
  extract_lets p head l q
  have hp : d.LoopsIn a i p.1 := (Draft.LoopsIn.refl d).plain? c ways hstart
  obtain ⟨hl, hleft, hhead⟩ : p.1.LoopsIn a i l.draft ∧ (∀ v ∈ l.left, p.1.Added l.draft v.source) ∧ _ :=
    loopsIn_behind hbody (c.enter ⟨label, true, true⟩) p.1 (if (a.condition? i).isSome then .branch else .loopHead)
      p.2 (by split <;> rfl)
  have hq : l.draft.LoopsIn a i q.1 := (Draft.LoopsIn.refl l.draft).close.plain? c _ hstep
  have hlatch : ∀ w ∈ q.2, p.1.Added q.1 w.source := by
    intro w hw
    obtain ⟨-, hout⟩ := (Draft.Grows.refl (fun _ => True) (· ∈ l.outs ++ l.continues c.frames.length)
      l.draft).close.plain? (c := c) step (fun _ _ => .inl trivial) fun _ => .inl
    rcases hout w hw with hw | hw
    · exact (hleft w (Layout.mem_left_of_latch hw)).widen hq.extend.size_le
    · exact ⟨Nat.le_trans hl.extend.size_le hw.1, hw.2⟩
  have hback := (hl.trans hq).back (by simp [hk, Ast.loopKinds]) (by simp only [Ast.headKind, hk])
    (hhead _ hq.extend) hlatch
  exact (hp.trans hback).close

/-- A `switch`. -/
lemma loopsIn_switch {selector : Option Nat} {clauses : Clauses} (hnode : a.contains i node = true)
    (hclauses : clauses.LoopIn a i) : (Stmt.switch node selector clauses).LoopsIn a i := by
  intro c d ways
  rw [layOut_switch]
  exact (((Draft.LoopsIn.refl d).addTarget c .branch ways hnode).trans (hclauses _ d.size selector _ [])).close

/-- A statement with a label. -/
lemma loopsIn_labelled (hbody : body.LoopsIn a i) : (Stmt.labelled node label body).LoopsIn a i := by
  intro c d ways
  rw [layOut_labelled]
  exact ((Draft.LoopsIn.refl d).close.trans (hbody _ _ ways)).close

/-- The body of a clause, laid out if the clause is there. -/
lemma Draft.LoopsIn.layOutClause (h : d.LoopsIn a i l.draft) (c : Context) (clause : Option Nat)
    (hbody : body.LoopsIn a i) : d.LoopsIn a i (body.layOutClause c l clause).draft := by
  cases clause with
  | none => exact h
  | some n => exact h.close.trans (hbody c l.draft.close [.plain n])

/-- Going on inside a clause adds no edge that closes a loop. -/
lemma Draft.LoopsIn.into (h : d.LoopsIn a i l.draft) (clause : Option Nat) : d.LoopsIn a i (l.into clause).draft := by
  cases clause with
  | none => exact h
  | some n => exact h.connect l.outs n

/-- A `try` with its clauses. -/
lemma loopsIn_tryCatch {catchNode finallyNode : Option Nat} {catchBody finallyBody : Stmt}
    (hcatchNode : ∀ n ∈ catchNode, a.contains i n = true) (hfinallyNode : ∀ n ∈ finallyNode, a.contains i n = true)
    (hbody : body.LoopsIn a i) (hcatch : catchBody.LoopsIn a i) (hfinally : finallyBody.LoopsIn a i) :
    (Stmt.tryCatch node body catchNode catchBody finallyNode finallyBody).LoopsIn a i := by
  intro c d ways
  rw [layOut_tryCatch]
  extract_lets catcher finisher b k f
  have hstart : d.LoopsIn a i finisher.1 :=
    ((Draft.LoopsIn.refl d).close.addClause c hcatchNode).addClause c hfinallyNode
  have hk : d.LoopsIn a i k.draft := (hstart.trans (hbody _ finisher.1 ways)).layOutClause _ catcher.2 hcatch
  exact ((hk.into finisher.2).layOutClause c finisher.2 hfinally).close

/-- No clauses. -/
lemma loopIn_nil : Clauses.nil.LoopIn a i := fun _ _ _ d _ => .refl d

/-- A `case` clause and those behind it. -/
lemma loopIn_onCase {value : Option Nat} {others : Clauses} (hbody : body.LoopsIn a i) (hothers : others.LoopIn a i) :
    (Clauses.onCase value body others).LoopIn a i := by
  intro c branch selector d falling
  rw [Clauses.layOut]
  exact ((Draft.LoopsIn.refl d).close.trans (hbody c _ _)).trans (hothers c branch selector _ _)

/-- The `default` clause and those behind it. -/
lemma loopIn_onDefault {others : Clauses} (hbody : body.LoopsIn a i) (hothers : others.LoopIn a i) :
    (Clauses.onDefault body others).LoopIn a i := by
  intro c branch selector d falling
  rw [Clauses.layOut]
  exact ((Draft.LoopsIn.refl d).close.trans (hbody c _ _)).trans (hothers c branch selector _ _)

/-- A comment between clauses. -/
lemma loopIn_gap {others : Clauses} (hothers : others.LoopIn a i) : (Clauses.gap others).LoopIn a i := by
  intro c branch selector d falling
  rw [Clauses.layOut]
  exact hothers c branch selector d []

end Flow

open Mend.Flow (Stmt Clauses)

namespace Syntax.Ast

variable {a : Ast} {i : Nat} {label : Option String}

/-- The part of a statement that may be missing. -/
lemma loopsIn_stmt? {part : Option Nat} (h : ∀ j, part = some j → (a.stmt j label).LoopsIn a i) :
    (a.stmt? part label).LoopsIn a i :=
  stmt?_of (P := (·.LoopsIn a i)) Flow.loopsIn_skip h

/-- The clauses in the tree of a switch. -/
lemma loopsIn_clauses {l : List Nat}
    (h : ∀ clause ∈ l, a.isClause clause = true → ∀ j ∈ a.clauseParts clause, (a.stmt j none).LoopsIn a i) :
    (l.foldr a.addClause .nil).LoopIn a i :=
  clauses_of (P := (·.LoopsIn a i)) (Q := (·.LoopIn a i)) Flow.loopIn_nil (fun _ _ _ => Flow.loopIn_onCase)
    (fun _ _ => Flow.loopIn_onDefault) (fun _ _ _ _ => Flow.loopIn_gap) fun clause hclause hkind =>
    clauseStmt_of (P := (·.LoopsIn a i)) (fun _ => Flow.loopsIn_ofList) Flow.loopsIn_skip (h clause hclause hkind)

/-- The loops of a statement are in its subtree. -/
lemma loopsIn_stmt (a : Ast) (i : Nat) (label : Option String) : (a.stmt i label).LoopsIn a i := by
  induction i using laidParts_induction (a := a) generalizing label with
  | h i ih =>
    have hpart : ∀ j ∈ a.laidParts i, ∀ label, (a.stmt j label).LoopsIn a i := fun j hj label =>
      (ih j hj label).mono (contains_of_mem_laidParts hj)
    have hself := contains_self a i
    have hroles : ∀ p ∈ a.roles i, a.contains i p.2 = true := fun p => contains_of_mem_roles
    unfold laidParts partsWith at hpart
    unfold roles at hroles
    rw [stmt_eq, assembled]
    split
    all_goals rename_i hk
    all_goals simp only [hk] at hpart hroles
    · apply Flow.loopsIn_ofList
      intro s hs
      obtain ⟨j, hj, rfl⟩ := List.mem_map.1 hs
      exact hpart j hj none
    · exact Flow.loopsIn_branch hself
        (loopsIn_stmt? fun j hj => hpart j (List.mem_append_left _ (Option.mem_toList.2 hj)) none)
        (loopsIn_stmt? fun j hj => hpart j (List.mem_append_right _ (Option.mem_toList.2 hj)) none)
    · exact Flow.loopsIn_whileLoop hk (loopsIn_stmt? fun j hj => hpart j (Option.mem_toList.2 hj) none)
    · exact Flow.loopsIn_doLoop hk (hroles (.branch, (a.condition? i).getD i) (by simp))
        (loopsIn_stmt? fun j hj => hpart j (Option.mem_toList.2 hj) none)
    · refine Flow.loopsIn_forLoop hk (fun n hn => hroles (.block, n) ?_) (fun n hn => hroles (.block, n) ?_)
        (loopsIn_stmt? fun j hj => hpart j (Option.mem_toList.2 hj) none)
      · simp [Option.mem_def.1 hn]
      · simp [Option.mem_def.1 hn]
    · exact Flow.loopsIn_forEach hk (loopsIn_stmt? fun j hj => hpart j (Option.mem_toList.2 hj) none)
    · refine Flow.loopsIn_switch hself (loopsIn_clauses fun clause hclause hkind j hj => ?_)
      exact hpart j (List.mem_flatMap.2 ⟨clause, List.mem_filter.2 ⟨hclause, hkind⟩, hj⟩) none
    · refine Flow.loopsIn_tryCatch (fun n hn => hroles (.handler, n) ?_) (fun n hn => hroles (.handler, n) ?_)
        (loopsIn_stmt? fun j hj => hpart j ?_ none) (loopsIn_stmt? fun j hj => hpart j ?_ none)
        (loopsIn_stmt? fun j hj => hpart j ?_ none)
      · simp [Option.mem_def.1 hn]
      · simp [Option.mem_def.1 hn]
      · exact List.mem_append_left _ (List.mem_append_left _ (Option.mem_toList.2 hj))
      · exact List.mem_append_left _ (List.mem_append_right _ (Option.mem_toList.2 hj))
      · exact List.mem_append_right _ (Option.mem_toList.2 hj)
    · split
      · exact loopsIn_stmt? fun j hj => hpart j (Option.mem_toList.2 hj) _
      · exact Flow.loopsIn_labelled (loopsIn_stmt? fun j hj => hpart j (Option.mem_toList.2 hj) none)
    · exact Flow.loopsIn_ret hself
    · exact Flow.loopsIn_throw hself
    · exact Flow.loopsIn_jump hself
    · exact Flow.loopsIn_jump hself
    · exact Flow.loopsIn_plain hself

/-- The skeleton of a function. -/
lemma loopsIn_skeleton (a : Ast) (f : Nat) : (a.skeleton f).LoopsIn a f := by
  unfold skeleton
  split
  · split
    · next body hb =>
      have hbody := contains_child (mem_children_of_child? hb)
      split
      · exact (loopsIn_stmt a body none).mono hbody
      · exact Flow.loopsIn_plain hbody
    · exact Flow.loopsIn_skip
  · apply Flow.loopsIn_ofList
    intro s hs
    obtain ⟨j, hj, rfl⟩ := List.mem_map.1 hs
    exact (loopsIn_stmt a j none).mono (contains_child hj)

end Syntax.Ast

namespace Flow

/-- The back edges of a graph are its loops: without them it has no cycle, and each leads from something in a loop
to the node at which the loop starts over. -/
theorem back_edges_of_mem_graphs {a : Ast} {g : Graph} (hg : g ∈ graphs a) :
    (∀ n path, g.IsWalk n path n → (∀ e ∈ path, e.isBack = false) → path = []) ∧
      ∀ e ∈ g.edges.toList, e.isBack = true →
        ∃ x y, g.nodes[e.source]? = some x ∧ g.nodes[e.target]? = some y ∧ x.Restarts a y := by
  obtain ⟨f, name, rfl⟩ := mem_graphs hg
  refine ⟨fun n path => acyclic_ofStmt, fun e he hback => ?_⟩
  let l := (a.skeleton f).layOut ⟨none, []⟩ (.start f) [.plain entryNode]
  have hloops : (Draft.start f).LoopsIn a f (l.draft.connect l.outs exitNode false) :=
    (Ast.loopsIn_skeleton a f ⟨none, []⟩ (.start f) [.plain entryNode]).connect l.outs exitNode
  exact (hloops.backs e he hback).resolve_left nofun

/-- The program `do { try { a; } catch (e) { continue; } } while (b);`. -/
def handledLoop : Ast :=
  .ofForest "do { try { a; } catch (e) { continue; } } while (b);" <|
    .cons ⟨"program", none, "", 0, 52, 1⟩
      (.cons ⟨"do_statement", none, "", 0, 52, 1⟩
        (.cons ⟨"statement_block", some "body", "", 3, 41, 1⟩
          (.cons ⟨"try_statement", none, "", 5, 39, 1⟩
            (.cons ⟨"statement_block", some "body", "", 9, 15, 1⟩
              (.cons ⟨"expression_statement", none, "", 11, 13, 1⟩
                (.cons ⟨"identifier", none, "a", 11, 12, 1⟩ .nil .nil) .nil)
              (.cons ⟨"catch_clause", some "handler", "", 16, 39, 1⟩
                (.cons ⟨"identifier", some "parameter", "e", 23, 24, 1⟩ .nil
                  (.cons ⟨"statement_block", some "body", "", 26, 39, 1⟩
                    (.cons ⟨"continue_statement", none, "", 28, 37, 1⟩ .nil .nil) .nil)) .nil)) .nil)
          (.cons ⟨"parenthesized_expression", some "condition", "", 48, 51, 1⟩
            (.cons ⟨"identifier", none, "b", 49, 50, 1⟩ .nil .nil) .nil)) .nil) .nil

/-- The graph of the program, in which the handler comes before the block that throws to it. -/
def handledGraph : Graph := .ofStmt 0 Syntax.scriptName (handledLoop.skeleton 0)

/-- A loop with a handler: the walk back to the head takes the edge that closes the loop. -/
theorem back_edges_of_mem_graphs_handledLoop :
    handledGraph ∈ graphs handledLoop ∧ (⟨4, 3, .exception, none, none, false⟩ : Edge) ∈ handledGraph.edges.toList ∧
      (∀ n path, handledGraph.IsWalk n path n → (∀ e ∈ path, e.isBack = false) → path = []) ∧
      (⟨6, 2, .onTrue, some 12, none, true⟩ : Edge) ∈ handledGraph.edges.toList ∧
      Node.Restarts handledLoop ⟨.branch, 12, []⟩ ⟨.loopHead, 1, []⟩ := by
  have hg : handledGraph ∈ graphs handledLoop := by decide +kernel
  have hthrows : (⟨4, 3, .exception, none, none, false⟩ : Edge) ∈ handledGraph.edges.toList := by decide +kernel
  have hback : (⟨6, 2, .onTrue, some 12, none, true⟩ : Edge) ∈ handledGraph.edges.toList := by decide +kernel
  have htest : handledGraph.nodes[6]? = some ⟨.branch, 12, []⟩ := by decide +kernel
  have hhead : handledGraph.nodes[2]? = some ⟨.loopHead, 1, []⟩ := by decide +kernel
  obtain ⟨hacyclic, hloops⟩ := back_edges_of_mem_graphs hg
  obtain ⟨x, y, hx, hy, hxy⟩ := hloops _ hback rfl
  cases htest.symm.trans hx
  cases hhead.symm.trans hy
  exact ⟨hg, hthrows, hacyclic, hback, hxy⟩

end Flow

end Mend
