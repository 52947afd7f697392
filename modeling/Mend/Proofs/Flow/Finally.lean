import Mend.Proofs.Flow.Covers
import Mend.Proofs.Flow.Departure
import Mend.Proofs.Flow.Exits

/-!
# Out of a `try` statement with a `finally` clause

A `finally` clause stands on every way out of the body and the `catch` clause of its `try` statement, but for a few
kinds of edges (`finally_of_walk`). The body and the `catch` clause are laid out between the handlers of the clauses
and the body of the `finally` clause (`layOut_tryFinally`), so that their nodes are a run of numbers. Edges out of
the run go to the handler of the `finally` clause, as long as they were added with it (`leaves_layOutTry`); later
only jumps leave it (`leaves_later`).

What gets past the clause are returns and jumps, which are connected to where they lead without regard to it, and
exceptions: those from in front of the `catch` clause, whose handler is made before the one of the `finally` clause
is in force, and those in a `try` statement without clauses. One program shows all of them
(`finally_bypassed_of_leakyTry`).
-/

namespace Mend

namespace Flow

namespace Draft

variable {T T' : Nat → Prop} {W W' : Way → Prop} {J : Nat → Prop} {d d' final : Draft} {n : Nat} {p : Role}
  {w : List Role}

/-- What is played by a node that was added between two drafts was written between them. -/
lemma Finished.written (hfinal : final.Finished J) (h : d.Grows T W d') (hlater : d'.Grows T' W' final)
    (hclosed : d'.current = none) (hw : d.Writes J d' w) (hn : d.Added d' n) (hp : Plays final.nodes n p) :
    p ∈ w := by
  have hp' : Plays d'.nodes n p := by
    rwa [Plays, ← hlater.getElem?_of_closed hclosed hn.2]
  rcases List.mem_append.1 (hw.census.mem_iff.1 (mem_census.2 ⟨n, hp'⟩)) with hold | hnew
  · obtain ⟨m, hm⟩ := mem_census.1 hold
    cases eq_of_plays (hlater.nodup_census hfinal.nodup) (h.plays hm) hp'
    obtain ⟨x, hx, -⟩ := hm
    exact absurd (Array.getElem?_eq_some_iff.1 hx).1 (Nat.not_lt.2 hn.1)
  · exact hnew

/-- The node added for a clause is given the edges of a handler. -/
lemma edges_addClause (d : Draft) (c : Context) (clause : Option Nat) :
    (d.addClause c clause).1.edges.toList =
      d.edges.toList ++ clause.elim [] fun _ => handlerEdges c d.size := by
  cases clause <;> simp [addClause]

/-- The number of the handler of the `finally` clause of a `try` statement. -/
def finisher (d : Draft) (c : Context) (catchNode : Option Nat) : Nat := (d.close.addClause c catchNode).1.size

/-- The draft in front of the body of a `try` statement with a `finally` clause. -/
def tryStart (d : Draft) (c : Context) (catchNode : Option Nat) (fin : Nat) : Draft :=
  ((d.close.addClause c catchNode).1.addNode c .handler fin).1

variable {c : Context} {catchNode : Option Nat} {fin : Nat}

/-- The finisher is the last node made at the start of a `try`. -/
lemma size_tryStart : (d.tryStart c catchNode fin).size = d.finisher c catchNode + 1 := size_addNode ..

/-- No block is open at the start of a `try`. -/
lemma current_tryStart : (d.tryStart c catchNode fin).current = none := by
  rw [tryStart, current_addNode, current_addClause, current_close]

/-- The start of a `try` extends the draft. -/
lemma grows_tryStart (d : Draft) (c : Context) (catchNode : Option Nat) (fin : Nat) :
    d.close.Extends (d.tryStart c catchNode fin) :=
  ((Extends.refl d.close).addClause catchNode fun _ _ => .inl trivial).1.addNode .handler fin
    fun _ _ => .inl trivial

/-- The finisher is the handler node of the finalizer. -/
lemma nodes_finisher : (d.tryStart c catchNode fin).nodes[d.finisher c catchNode]? = some ⟨.handler, fin, []⟩ := by
  simp [tryStart, finisher, size]

/-- The catcher is the handler node of the catch clause. -/
lemma nodes_catcher {ast : Nat} : (d.tryStart c (some ast) fin).nodes[d.size]? = some ⟨.handler, ast, []⟩ := by
  have hlt : d.size < (d.close.addClause c (some ast)).1.nodes.size := by simp [addClause, size]
  rw [tryStart, nodes_addNode, Array.getElem?_push_lt hlt, ← Array.getElem?_eq_getElem]
  simp [addClause, size]

/-- The finisher is made after the draft. -/
lemma le_finisher (d : Draft) (c : Context) (catchNode : Option Nat) : d.size ≤ d.finisher c catchNode :=
  size_le_addClause d.close c catchNode

/-- The handler of the `catch` clause is the first node, and that of the `finally` clause comes after it. -/
lemma addClause_eq_some (h : (d.close.addClause c catchNode).2 = some n) :
    n = d.size ∧ n < d.finisher c catchNode := by
  cases catchNode with
  | none => cases h
  | some ast =>
    cases h
    exact ⟨rfl, by simp [finisher, addClause]⟩

end Draft

/-- The body and the `catch` clause of a `try` statement with a `finally` clause. -/
def Stmt.layOutTry (c : Context) (body : Stmt) (catchNode : Option Nat) (catchBody : Stmt) (fin : Nat) (d : Draft)
    (ways : List Way) : Layout :=
  let catcher := (d.close.addClause c catchNode).2
  let b := body.layOut { c with handler := some (catcher.getD (d.finisher c catchNode)) }
    (d.tryStart c catchNode fin) ways
  catchBody.layOutClause { c with handler := some (d.finisher c catchNode) } b catcher

variable {E : EdgeKind → Role → Prop} {L : Nat → Prop} {J : Nat → Prop} {c : Context} {d final : Draft}
  {ways : List Way} {node fin : Nat} {body catchBody finallyBody : Stmt} {catchNode : Option Nat} {e : Edge}

/-- A `try` with a finalizer is its body and handler, laid out, and then the finalizer. -/
lemma layOut_tryFinally :
    (Stmt.tryCatch node body catchNode catchBody (some fin) finallyBody).layOut c d ways =
      let k := Stmt.layOutTry c body catchNode catchBody fin d ways
      let f := finallyBody.layOut c (k.draft.connect k.outs (d.finisher c catchNode) false).close
        [.plain (d.finisher c catchNode)]
      ⟨f.draft.close, f.outs, k.jumps ++ f.jumps⟩ := by
  rw [layOut_tryCatch]
  cases catchNode <;> rfl

/-- Inside the body and the `catch` clause the handlers are those of the statement. -/
lemma grown_layOutTry (c : Context) (body : Stmt) (catchNode : Option Nat) (catchBody : Stmt) (fin : Nat)
    (d : Draft) (ways : List Way) :
    (Stmt.layOutTry c body catchNode catchBody fin d ways).Grown
      (fun t => t = exitNode ∨ t = d.finisher c catchNode ∨ (d.close.addClause c catchNode).2 = some t)
      (fun _ => True) (d.tryStart c catchNode fin) := by
  unfold Stmt.layOutTry
  extract_lets catcher b
  have hb : b.Grown _ (· ∈ ways) (d.tryStart c catchNode fin) := body.layOut_grown _ _ ways
  refine (hb.after (.refl _ _ _) (fun t ht => .inl ?_) fun _ _ => .inl trivial).clause
    (fun _ _ => .inl trivial) (fun d ways => catchBody.layOut_grown _ d ways) fun t ht => .inl ?_
  · refine ht.imp_right fun ht => ?_
    rw [Option.some.injEq] at ht
    cases hcatcher : catcher with
    | none => exact .inl (by rw [← ht, hcatcher]; rfl)
    | some n =>
      rw [hcatcher] at ht
      exact .inr (ht ▸ hcatcher)
  · exact ht.imp_right fun ht => .inl (Option.some.inj ht).symm

/-- To the exit, control leads from inside the body and the `catch` clause as `E` says only. -/
lemma shown_layOutTry (c : Context) (catchNode : Option Nat) (fin : Nat) (ways : List Way) (h2 : 2 ≤ d.size)
    (hbody : body.Admits E L) (hcatch : catchBody.Admits E L) :
    (Stmt.layOutTry c body catchNode catchBody fin d ways).Shown E L (d.tryStart c catchNode fin) := by
  unfold Stmt.layOutTry
  extract_lets catcher b
  have hm : 2 ≤ d.finisher c catchNode := Nat.le_trans h2 (d.le_finisher c catchNode)
  have hstart : 2 ≤ (d.tryStart c catchNode fin).size := Nat.le_trans h2 (d.grows_tryStart c catchNode fin).size_le
  have hb : b.Shown E L (d.tryStart c catchNode fin) := by
    refine (body.layOut_shown _ _ ways hbody hstart (.of_closed Draft.current_tryStart) fun hexit => ?_).1
    rw [Option.getD_some] at hexit
    cases hx : catcher with
    | none =>
      rw [hx] at hexit
      exact absurd hexit (Nat.ne_of_gt hm)
    | some n =>
      rw [hx] at hexit
      obtain ⟨rfl, -⟩ := Draft.addClause_eq_some hx
      exact absurd hexit (Nat.ne_of_gt h2)
  refine hb.clause (fun d ways h2 h hc => (catchBody.layOut_shown _ d ways hcatch h2 (.of_closed h) hc).1) ?_
  exact fun _ hexit => absurd hexit (Nat.ne_of_gt hm)

/-- The body and the handler write their own nodes. -/
lemma writes_layOutTry (hstart : (d.tryStart c catchNode fin).Tidy J) (hbody : body.Orderly J)
    (hcatch : catchBody.Orderly J) (ways : List Way) :
    (d.tryStart c catchNode fin).Writes J (Stmt.layOutTry c body catchNode catchBody fin d ways).draft
      (body.census ++ catchNode.elim [] fun _ => catchBody.census) := by
  unfold Stmt.layOutTry
  extract_lets catcher b
  have hb := body.writes_layOut { c with handler := some (catcher.getD (d.finisher c catchNode)) } _ ways hstart
    hbody (Draft.before_of_closed Draft.current_tryStart)
  refine Stmt.writes_layOutClause hb (fun d ways hd hclosed => ?_) (Draft.isSome_addClause ..)
  exact catchBody.writes_layOut _ d ways hd hcatch (Draft.before_of_closed hclosed)

/-- A node that was added between two drafts, the node `m` apart. -/
def Draft.AddedBut (d : Draft) (m : Nat) (d' : Draft) (n : Nat) : Prop := d.Added d' n ∧ n ≠ m

open Stmt (layOutTry)

/-- The edges that lead out of the body and the `catch` clause. -/
lemma leaves_layOutTry (hd : d.Sourced ways) (hbody : body.Admits E L) (hcatch : catchBody.Admits E L) {k : Layout}
    (hk : k = layOutTry c body catchNode catchBody fin d ways) (he : e ∈ k.draft.edges.toList)
    (hs : d.AddedBut (d.finisher c catchNode) k.draft e.source)
    (ht : ¬ d.AddedBut (d.finisher c catchNode) k.draft e.target) :
    e.target = d.finisher c catchNode ∨ (e.kind = .exception ∧ e.source = d.size ∧ catchNode.isSome = true) ∨
      (e.target = exitNode ∧ ∃ p, E e.kind p ∧ Plays k.draft.nodes e.source p) := by
  have hgrown := grown_layOutTry c body catchNode catchBody fin d ways
  have hshown := shown_layOutTry c catchNode fin ways hd.two_le hbody hcatch
  rw [← hk] at hgrown hshown
  have hle := d.le_finisher c catchNode
  have hsize : (d.tryStart c catchNode fin).size = d.finisher c catchNode + 1 := Draft.size_tryStart
  have hlt := hgrown.grows.size_le
  -- In front of the body only the handlers have edges, to the handler around the statement.
  have hstart : e ∈ (d.tryStart c catchNode fin).edges.toList → e.kind = .exception ∧ e.source = d.size ∧
      catchNode.isSome = true := by
    intro he
    rw [Draft.tryStart, Draft.edges_addNode, Draft.edges_addClause, List.mem_append, List.mem_append] at he
    rcases he with (he | he) | he
    · exact absurd (hd.edges e he) (Nat.not_lt.2 hs.1.1)
    · cases catchNode with
      | none => cases he
      | some ast =>
        obtain ⟨x, -, rfl⟩ := List.mem_map.1 he
        exact ⟨rfl, rfl, rfl⟩
    · obtain ⟨x, -, rfl⟩ := List.mem_map.1 he
      exact absurd rfl hs.2
  by_cases hexit : e.target = exitNode
  · rcases hshown.shows.exits e he hexit with he | hout
    · exact .inr (.inl (hstart he))
    · exact .inr (.inr ⟨hexit, hout⟩)
  · obtain ⟨new, heq, hnew⟩ := hgrown.grows.edges
    rw [heq, List.mem_append] at he
    rcases he with he | he
    · exact .inr (.inl (hstart he))
    · refine .inl ?_
      rcases (hnew e he).target with hin | hexit' | hfin | hcatcher
      · exact absurd ⟨⟨by omega, hin.2⟩, by omega⟩ ht
      · exact absurd hexit' hexit
      · exact hfin
      · obtain ⟨heq, hlt'⟩ := Draft.addClause_eq_some hcatcher
        exact absurd ⟨⟨Nat.le_of_eq heq.symm, by omega⟩, Nat.ne_of_lt hlt'⟩ ht

/-- Edges that come later lead out of the body and the `catch` clause to the `finally` clause, or they are jumps. -/
lemma leaves_later {k : Layout} (hk : k = layOutTry c body catchNode catchBody fin d ways)
    (h : ((Stmt.tryCatch node body catchNode catchBody (some fin) finallyBody).layOut c d ways).Rests final d)
    (he : e ∈ final.edges.toList) (hs : d.AddedBut (d.finisher c catchNode) k.draft e.source) :
    e ∈ k.draft.edges.toList ∨ e.target = d.finisher c catchNode ∨ ∃ j ∈ k.jumps, j.way.source = e.source := by
  rw [layOut_tryFinally, ← hk] at h
  extract_lets _ f at h
  have hf : f.Grown c.Reaches (· ∈ [Way.plain (d.finisher c catchNode)])
      (k.draft.connect k.outs (d.finisher c catchNode) false).close := finallyBody.layOut_grown c _ _
  have hle : k.draft.size ≤ f.draft.size := hf.grows.size_le
  -- Ways from the `finally` clause come from its handler or from nodes after the body.
  have hnot : ∀ w : Way, w.source = e.source → ¬ (w ∈ [Way.plain (d.finisher c catchNode)] ∨
      (k.draft.connect k.outs (d.finisher c catchNode) false).close.Added f.draft w.source) := by
    rintro w hw (hmem | hnew)
    · rw [List.mem_singleton.1 hmem] at hw
      exact hs.2 hw.symm
    · exact absurd hs.1.2 (Nat.not_lt.2 (hw ▸ hnew.1))
  obtain ⟨later, heq, hlater⟩ := h.edges
  obtain ⟨new, heq', hnew⟩ := hf.grows.edges
  rw [heq, List.mem_append] at he
  rcases he with he | he
  · rw [Draft.edges_close, heq', Draft.edges_close, Draft.edges_connect, List.mem_append, List.mem_append] at he
    rcases he with (he | he) | he
    · exact .inl he
    · obtain ⟨w, -, rfl⟩ := List.mem_map.1 he
      exact .inr (.inl rfl)
    · rcases (hnew e he).source with hin | ⟨w, hw, hws, -⟩
      · exact absurd hs.1.2 (Nat.not_lt.2 hin.1)
      · exact absurd (.inl hw) (hnot w hws)
  · rcases (hlater e he).source with hin | ⟨w, hw | hw | ⟨j, hj, rfl⟩, hws, -⟩
    · exact absurd hs.1.2 (Nat.not_lt.2 (Nat.le_trans hle hin.1))
    · exact absurd (hws ▸ hw) (Nat.not_lt.2 hs.1.1)
    · exact absurd (hf.outs w hw) (hnot w hws)
    · rcases List.mem_append.1 hj with hj | hj
      · exact .inr (.inr ⟨j, hj, hws⟩)
      · exact absurd (hf.jumps j hj) (hnot j.way hws)

/-- The draft of a `try` statement up to its `finally` clause is part of the finished one. -/
lemma extends_layOutTry
    (h : ((Stmt.tryCatch node body catchNode catchBody (some fin) finallyBody).layOut c d ways).Rests final d) :
    (layOutTry c body catchNode catchBody fin d ways).draft.close.Extends final := by
  rw [layOut_tryFinally] at h
  extract_lets k f at h
  have hinto : k.draft.close.Extends (k.draft.connect k.outs (d.finisher c catchNode) false).close :=
    ((Draft.Extends.refl k.draft.close).connect k.outs (d.finisher c catchNode) false).close
  have hf := finallyBody.layOut_grown c (k.draft.connect k.outs (d.finisher c catchNode) false).close
    [.plain (d.finisher c catchNode)]
  exact (hinto.trans hf.grows (fun _ _ => .inl trivial) fun _ _ => .inl trivial).close.trans h
    (fun _ _ => .inl trivial) fun _ _ => .inl trivial

/-- The roles of the handlers, of the body and of the `catch` clause are written one after the other. -/
lemma writes_try (c : Context) (catchNode : Option Nat) (fin : Nat) (ways : List Way) (h : d.close.Tidy J)
    (hbody : body.Orderly J) (hcatch : catchBody.Orderly J) :
    d.close.Writes J (layOutTry c body catchNode catchBody fin d ways).draft.close
      (catchNode.toList.map (.handler, ·) ++ [(.handler, fin)] ++
        (body.census ++ catchNode.elim [] fun _ => catchBody.census)) := by
  have hstart := ((Draft.Writes.refl h).addClause c catchNode).addNode c (show NodeKind.handler ≠ .block by decide) fin
  exact (hstart.trans (writes_layOutTry hstart.tidy hbody hcatch ways)).close

/-- Nodes that play the roles in `w` and that control leaves for the `finally` clause or past it: exceptions from in
front of the `catch` clause do so, edges to the exit as `E` says, and jumps as `L` says. -/
structure Fence (E : EdgeKind → Role → Prop) (L : Nat → Prop) (final : Draft) (catchNode : Option Nat) (fin : Nat)
    (w : List Role) (R : Nat → Prop) : Prop where
  of_plays : ∀ n p, Plays final.nodes n p → p ∈ w → p ≠ (.handler, fin) → R n
  plays : ∀ n p, R n → Plays final.nodes n p → p ∈ w
  leaves : ∀ e ∈ final.edges.toList, R e.source → ¬ R e.target →
    Plays final.nodes e.target (.handler, fin) ∨
      (e.kind = .exception ∧ ∃ ast, catchNode = some ast ∧ Plays final.nodes e.source (.handler, ast)) ∨
      (e.target = exitNode ∧ ∃ p, E e.kind p ∧ Plays final.nodes e.source p) ∨
      ∃ i, L i ∧ Plays final.nodes e.source (.block, i)

/-- The body and the `catch` clause of a `try` statement with a `finally` clause are fenced in. -/
theorem Stmt.Rests.fence (hfinal : final.Finished J)
    (h : (Stmt.tryCatch node body catchNode catchBody (some fin) finallyBody).Rests final)
    (hbody : body.Orderly J ∧ body.Admits E L) (hcatch : catchBody.Orderly J ∧ catchBody.Admits E L) :
    ∃ R, Fence E L final catchNode fin (catchNode.toList.map (.handler, ·) ++ [(.handler, fin)] ++
        (body.census ++ catchNode.elim [] fun _ => catchBody.census)) R := by
  obtain ⟨c, d, ways, hd, h⟩ := h
  obtain ⟨k, hk⟩ : ∃ k, k = layOutTry c body catchNode catchBody fin d ways := ⟨_, rfl⟩
  have hstart := d.grows_tryStart c catchNode fin
  have hgrown := grown_layOutTry c body catchNode catchBody fin d ways
  have hshown := shown_layOutTry c catchNode fin ways hd.two_le hbody.2 hcatch.2
  have hkf := extends_layOutTry h
  rw [← hk] at hgrown hshown hkf
  have hsk : (d.tryStart c catchNode fin).Extends k.draft.close :=
    (hgrown.grows.mono (fun _ _ => .inl trivial) fun _ _ => trivial).close
  have hsf : (d.tryStart c catchNode fin).Extends final := hsk.trans hkf (fun _ => .inl) fun _ => .inl
  have hdk : d.close.Extends k.draft.close := hstart.trans hsk (fun _ => .inl) fun _ => .inl
  have htidy : d.close.Tidy J :=
    (hdk.trans hkf (fun _ => .inl) fun _ => .inl).tidy_of_closed rfl hfinal.tidy
  have hwrites := writes_try c catchNode fin ways htidy hbody.1 hcatch.1
  rw [← hk] at hwrites
  have hfinisher : final.nodes[d.finisher c catchNode]? = some ⟨.handler, fin, []⟩ := by
    rw [hsf.getElem?_of_closed Draft.current_tryStart (by rw [Draft.size_tryStart]; exact Nat.lt_succ_self _)]
    exact Draft.nodes_finisher
  have hplays : Plays final.nodes (d.finisher c catchNode) (.handler, fin) := ⟨_, hfinisher, by simp [Node.roles]⟩
  refine ⟨d.AddedBut (d.finisher c catchNode) k.draft, ⟨fun n p hn hp hne => ?_, fun n p hn hp => ?_,
    fun e he hs ht => ?_⟩⟩
  · have hadded : d.close.Added k.draft.close n := hfinal.added hdk hkf rfl hwrites hp hn
    refine ⟨hadded, ?_⟩
    rintro rfl
    obtain ⟨x, hx, hxp⟩ := hn
    cases hfinisher.symm.trans hx
    exact hne (by simpa [Node.roles] using hxp)
  · exact hfinal.written hdk hkf rfl hwrites hn.1 hp
  · rcases leaves_later hk h he hs with he | hm | ⟨j, hj, hjs⟩
    · rcases leaves_layOutTry hd hbody.2 hcatch.2 hk he hs ht with hm | ⟨hkind, hsource, hsome⟩ | ⟨hexit, p, hE, hp⟩
      · exact .inl (hm ▸ hplays)
      · obtain ⟨ast, rfl⟩ := Option.isSome_iff_exists.1 hsome
        refine .inr (.inl ⟨hkind, ast, rfl, ?_⟩)
        rw [hsource]
        exact hsf.plays ⟨_, Draft.nodes_catcher, by simp [Node.roles]⟩
      · exact .inr (.inr (.inl ⟨hexit, p, hE, hkf.plays hp⟩))
    · exact .inl (hm ▸ hplays)
    · obtain ⟨i, hi, hp⟩ := hshown.jumps j hj
      exact .inr (.inr (.inr ⟨i, hi, hjs ▸ hkf.plays hp⟩))

end Flow

open Mend.Flow (Stmt Draft Graph Edge Role Plays)

namespace Syntax.Ast

variable {a : Ast} {f i t fin : Nat}

/-- A node in the body or in the `catch` clause of a `try` statement. -/
def Guarded (a : Ast) (t i : Nat) : Prop :=
  ∃ field part, (field = "body" ∨ field = "handler") ∧ a.child? t field = some part ∧ a.contains part i = true

/-- How an edge out of the body or the `catch` clause gets past the `finally` clause: a return leads straight to the
exit, and so do exceptions in the body of a `try` statement without clauses; a `break` or `continue` leads straight
to the construct that it leaves; and exceptions from in front of the `catch` clause go to the handler around the
statement. -/
def Bypasses (a : Ast) (nodes : Array Flow.Node) (t : Nat) (e : Edge) : Prop :=
  (e.kind = .exception ∧ ∃ clause, a.child? t "handler" = some clause ∧ Plays nodes e.source (.handler, clause)) ∨
    (e.target = Flow.exitNode ∧ ∃ p, a.Unhandled (a.Guarded t) e.kind p ∧ Plays nodes e.source p) ∨
    ∃ i, a.IsHop (a.Guarded t) i ∧ Plays nodes e.source (.block, i)

/-- The skeleton of a `try` statement. -/
lemma stmt_try (hk : a.kind t = "try_statement") (label : Option String) :
    a.stmt t label = .tryCatch t (a.stmt? (a.child? t "body") none)
      (a.child? t "handler") (a.stmt? ((a.child? t "handler").bind (a.child? · "body")) none)
      (a.child? t "finalizer") (a.stmt? ((a.child? t "finalizer").bind (a.child? · "body")) none) := by
  rw [stmt_eq, assembled]
  simp only [hk]

/-- What lies in the finalizer is not guarded by it. -/
lemma not_guarded_of_finalizer (hfin : a.child? t "finalizer" = some fin) (hi : a.contains fin i = true) :
    ¬ a.Guarded t i := by
  rintro ⟨field, part, hfield, hpart, hin⟩
  refine apart_of_child? hpart hfin ?_ i hin hi
  rcases hfield with rfl | rfl <;> decide

/-- What a `try` guards lies below it. -/
lemma contains_of_guarded (h : a.Guarded t i) : a.contains t i = true := by
  obtain ⟨field, part, -, hpart, hi⟩ := h
  exact contains_of_child? hpart hi

/-- The skeletons of the body and of the `catch` clause. -/
lemma admits_guarded (a : Ast) (t : Nat) :
    (a.stmt? (a.child? t "body") none).Admits (a.Unhandled (a.Guarded t)) (a.IsHop (a.Guarded t)) ∧
      (a.stmt? ((a.child? t "handler").bind (a.child? · "body")) none).Admits (a.Unhandled (a.Guarded t))
        (a.IsHop (a.Guarded t)) := by
  constructor
  · exact admits_stmt? fun j hj => admits_stmt fun k hk => ⟨_, j, .inl rfl, hj, hk⟩
  · refine admits_stmt? fun j hj => admits_stmt fun k hk => ?_
    obtain ⟨clause, hclause, hj⟩ := Option.bind_eq_some_iff.1 hj
    exact ⟨_, clause, .inr rfl, hclause, contains_of_child? hj hk⟩

/-- What a `try` statement with a `finally` clause stands for in front of the body of the clause. -/
lemma census_try (hk : a.kind t = "try_statement") (hfin : a.child? t "finalizer" = some fin) :
    ∃ w, (a.stmt t none).census = (a.child? t "handler").toList.map (.handler, ·) ++ [(.handler, fin)] ++
        ((a.stmt? (a.child? t "body") none).census ++ (a.child? t "handler").elim [] fun _ =>
          (a.stmt? ((a.child? t "handler").bind (a.child? · "body")) none).census) ++ w ∧
      ∀ p ∈ w, ¬ a.Guarded t p.2 := by
  refine ⟨(a.stmt? (a.child? fin "body") none).census, ?_, fun p hp => ?_⟩
  · rw [stmt_try hk, hfin, Stmt.census]
    simp
  · rw [census_stmt?] at hp
    obtain ⟨body, hbody, hp⟩ := List.mem_flatMap.1 hp
    exact not_guarded_of_finalizer hfin (contains_of_child? (Option.mem_toList.1 hbody) (contains_of_mem_census hp))

/-- What a node of a graph plays inside a statement is part of what the function stands for. -/
lemma mem_census_skeleton_of_plays {name : String} (ht : f < t) {n : Nat} {r : Role}
    (hn : Plays (Graph.ofStmt f name (a.skeleton f)).nodes n r) (hr : a.contains t r.2 = true) :
    r ∈ (a.skeleton f).census := by
  have hne : ∀ kind, r ≠ (kind, f) := by
    rintro kind rfl
    exact absurd (contains_iff.1 hr).1 (Nat.not_le.2 ht)
  have hmem := (Flow.census_ofStmt a f name).mem_iff.1 (Draft.mem_census.2 ⟨n, hn⟩)
  simpa [hne] using hmem

/-- What a node of a graph plays inside a statement that is laid out is part of what the statement stands for. -/
lemma mem_census_of_plays {name : String} (ht : LaidOut a f t) {n : Nat} {r : Role}
    (hn : Plays (Graph.ofStmt f name (a.skeleton f)).nodes n r) (hr : a.contains t r.2 = true) :
    r ∈ (a.stmt t none).census :=
  ht.mem_census (mem_census_skeleton_of_plays (Flow.lt_of_laidOut ht) hn hr) hr

/-- The nodes of the body and the `catch` clause in the graph of a function, and what leads out of them. -/
lemma exists_enclosure (name : String) (ht : LaidOut a f t) (hk : a.kind t = "try_statement")
    (hfin : a.child? t "finalizer" = some fin) {g : Graph} (hg : g = Graph.ofStmt f name (a.skeleton f)) :
    ∃ R : Nat → Prop, (∀ n r, Plays g.nodes n r → a.Guarded t r.2 → R n) ∧
      (∀ n r, R n → Plays g.nodes n r → a.contains t r.2 = true) ∧
      ∀ e ∈ g.edges.toList, R e.source → ¬ R e.target →
        Plays g.nodes e.target (.handler, fin) ∨ a.Bypasses g.nodes t e := by
  subst hg
  obtain ⟨label, hrests⟩ := (Stmt.Rests.passes _).laidOut (Flow.rests_skeleton a f) ht
  obtain ⟨w, hcensus, hw⟩ := census_try hk hfin
  obtain ⟨hbody, hcatch⟩ := a.admits_guarded t
  rw [stmt_try hk, hfin] at hrests
  obtain ⟨R, hR⟩ := hrests.fence (finished_skeleton a f)
    ⟨orderly_stmt? fun j _ => orderly_stmt a j none, hbody⟩ ⟨orderly_stmt? fun j _ => orderly_stmt a j none, hcatch⟩
  refine ⟨R, fun n r hn hr => ?_, fun n r hn hr => ?_, hR.leaves⟩
  · have hmem := mem_census_of_plays ht hn (contains_of_guarded hr)
    rw [hcensus, List.mem_append] at hmem
    refine hR.of_plays n r hn (hmem.resolve_right fun h => hw r h hr) ?_
    rintro rfl
    exact not_guarded_of_finalizer hfin (contains_self a fin) hr
  · have hmem := List.mem_append_left w (hR.plays n r hn hr)
    rw [← hcensus] at hmem
    exact contains_of_mem_census hmem

/-- A `finally` clause stands on every way out of the body and the `catch` clause of its `try` statement, but for those
that get past it. -/
theorem finally_of_walk {g : Graph} (hg : g ∈ Flow.graphs a) (ht : Reached a g.function t)
    (hk : a.kind t = "try_statement") (hfin : a.child? t "finalizer" = some fin) {m v : Nat} {p q : Role}
    (hm : Plays g.nodes m p) (hp : a.Guarded t p.2) (hv : Plays g.nodes v q) (hq : a.contains t q.2 = false)
    {path : List Edge} (hpath : g.IsWalk m path v) :
    ∃ e ∈ path, Plays g.nodes e.target (.handler, fin) ∨
      ((∀ r, Plays g.nodes e.target r → ¬ a.Guarded t r.2) ∧ a.Bypasses g.nodes t e) := by
  obtain ⟨f, name, rfl⟩ := Flow.mem_graphs hg
  have htp := contains_of_guarded hp
  have hlaid := ht.laidOut (mem_census_skeleton_of_plays (Flow.lt_of_reached ht) hm htp) htp
  obtain ⟨R, hguarded, hinside, hleaves⟩ := exists_enclosure name hlaid hk hfin rfl
  have hend : ¬ R v := fun h => by simp [hinside v q h hv] at hq
  rcases hpath.enters (P := (¬ R ·)) hend with ⟨hno, -⟩ | ⟨_, e, _, rfl, he, hs, hout, -⟩
  · exact absurd (hguarded m p hm hp) hno
  · refine ⟨e, by simp, (hleaves e he (not_not.1 hs) hout).imp_right fun h => ⟨fun r hr hg => ?_, h⟩⟩
    exact hout (hguarded _ r hr hg)

/-- The program
`function f() { try { while (x) try { if (y) break; try { a(); } return; } catch (e) {} finally { b(); } } catch (o) {} }`. -/
def leakyTry : Ast :=
  .ofForest
    "function f() { try { while (x) try { if (y) break; try { a(); } return; } catch (e) {} finally { b(); } } catch (o) {} }" <|
    .cons ⟨"program", none, "", 0, 120, 1⟩
      (.cons ⟨"function_declaration", none, "", 0, 120, 1⟩
        (.cons ⟨"identifier", some "name", "f", 9, 10, 1⟩ .nil
          (.cons ⟨"formal_parameters", some "parameters", "", 10, 12, 1⟩ .nil
            (.cons ⟨"statement_block", some "body", "", 13, 120, 1⟩
              (.cons ⟨"try_statement", none, "", 15, 118, 1⟩
                (.cons ⟨"statement_block", some "body", "", 19, 105, 1⟩
                  (.cons ⟨"while_statement", none, "", 21, 103, 1⟩
                    (.cons ⟨"parenthesized_expression", some "condition", "", 27, 30, 1⟩
                      (.cons ⟨"identifier", none, "x", 28, 29, 1⟩ .nil .nil)
                      (.cons ⟨"try_statement", some "body", "", 31, 103, 1⟩
                        (.cons ⟨"statement_block", some "body", "", 35, 73, 1⟩
                          (.cons ⟨"if_statement", none, "", 37, 50, 1⟩
                            (.cons ⟨"parenthesized_expression", some "condition", "", 40, 43, 1⟩
                              (.cons ⟨"identifier", none, "y", 41, 42, 1⟩ .nil .nil)
                              (.cons ⟨"break_statement", some "consequence", "", 44, 50, 1⟩ .nil .nil))
                            (.cons ⟨"try_statement", none, "", 51, 63, 1⟩
                              (.cons ⟨"statement_block", some "body", "", 55, 63, 1⟩
                                (.cons ⟨"expression_statement", none, "", 57, 61, 1⟩
                                  (.cons ⟨"call_expression", none, "", 57, 60, 1⟩
                                    (.cons ⟨"identifier", some "function", "a", 57, 58, 1⟩ .nil
                                      (.cons ⟨"arguments", some "arguments", "", 58, 60, 1⟩ .nil .nil)) .nil) .nil) .nil)
                              (.cons ⟨"return_statement", none, "", 64, 71, 1⟩ .nil .nil)))
                          (.cons ⟨"catch_clause", some "handler", "", 74, 86, 1⟩
                            (.cons ⟨"identifier", some "parameter", "e", 81, 82, 1⟩ .nil
                              (.cons ⟨"statement_block", some "body", "", 84, 86, 1⟩ .nil .nil))
                            (.cons ⟨"finally_clause", some "finalizer", "", 87, 103, 1⟩
                              (.cons ⟨"statement_block", some "body", "", 95, 103, 1⟩
                                (.cons ⟨"expression_statement", none, "", 97, 101, 1⟩
                                  (.cons ⟨"call_expression", none, "", 97, 100, 1⟩
                                    (.cons ⟨"identifier", some "function", "b", 97, 98, 1⟩ .nil
                                      (.cons ⟨"arguments", some "arguments", "", 98, 100, 1⟩ .nil .nil)) .nil) .nil) .nil) .nil))) .nil)) .nil)
                  (.cons ⟨"catch_clause", some "handler", "", 106, 118, 1⟩
                    (.cons ⟨"identifier", some "parameter", "o", 113, 114, 1⟩ .nil
                      (.cons ⟨"statement_block", some "body", "", 116, 118, 1⟩ .nil .nil)) .nil)) .nil) .nil))) .nil) .nil

/-- The graph of the function. -/
def leakyGraph : Graph := .ofStmt 1 "f" (leakyTry.skeleton 1)

/-- The way from the call to the head of the loop, through both clauses. -/
def wayThroughFinally : List Edge :=
  [⟨8, 9, .unconditional, none, none, false⟩, ⟨9, 4, .exception, none, none, false⟩,
    ⟨4, 5, .unconditional, none, none, false⟩, ⟨5, 10, .unconditional, none, none, false⟩,
    ⟨10, 3, .unconditional, none, none, true⟩]

/-- Its `try` with the finalizer is reached. -/
lemma reached_leakyTry : Reached leakyTry 1 10 := by
  have hblock : Reached leakyTry 1 4 := .entry (by decide +kernel)
  have houter : Reached leakyTry 1 5 := hblock.part (by decide +kernel)
  have hbody : Reached leakyTry 1 6 := houter.part (by decide +kernel)
  have hloop : Reached leakyTry 1 7 := hbody.part (by decide +kernel)
  exact hloop.part (by decide +kernel)

/-- A walk that leaves what the `try` guards, and how it passes the finalizer. -/
theorem finally_of_walk_leakyTry :
    leakyGraph ∈ Flow.graphs leakyTry ∧ Reached leakyTry 1 10 ∧ leakyTry.kind 10 = "try_statement" ∧
      leakyTry.child? 10 "finalizer" = some 26 ∧ Plays leakyGraph.nodes 8 (.block, 18) ∧
      leakyTry.Guarded 10 18 ∧ Plays leakyGraph.nodes 3 (.branch, 7) ∧ leakyTry.contains 10 7 = false ∧
      leakyGraph.IsWalk 8 wayThroughFinally 3 ∧
      ∃ e ∈ wayThroughFinally, Plays leakyGraph.nodes e.target (.handler, 26) ∨
        ((∀ r, Plays leakyGraph.nodes e.target r → ¬ leakyTry.Guarded 10 r.2) ∧
          leakyTry.Bypasses leakyGraph.nodes 10 e) := by
  have hg : leakyGraph ∈ Flow.graphs leakyTry := by decide +kernel
  have hk : leakyTry.kind 10 = "try_statement" := by decide +kernel
  have hfin : leakyTry.child? 10 "finalizer" = some 26 := by decide +kernel
  have hm : Plays leakyGraph.nodes 8 (.block, 18) := by decide +kernel
  have hguarded : leakyTry.Guarded 10 18 := ⟨"body", 11, .inl rfl, by decide +kernel, by decide +kernel⟩
  have hv : Plays leakyGraph.nodes 3 (.branch, 7) := by decide +kernel
  have hout : leakyTry.contains 10 7 = false := by decide +kernel
  have hwalk : leakyGraph.IsWalk 8 wayThroughFinally 3 := by decide +kernel
  exact ⟨hg, reached_leakyTry, hk, hfin, hm, hguarded, hv, hout, hwalk,
    finally_of_walk hg reached_leakyTry hk hfin hm hguarded hv hout hwalk⟩

/-- A walk with a role of the node that it starts from and one of the node that it leads to. -/
structure Passage where
  first : Nat
  opening : Role
  path : List Edge
  last : Nat
  closing : Role

/-- The ways past the `finally` clause: by the return, by the `break`, by an exception in the `try` statement without
clauses, and by one from in front of the `catch` clause. -/
def waysPast : List Passage :=
  [⟨9, (.block, 22), [⟨9, 1, .unconditional, none, none, false⟩], 1, (.exit, 1)⟩,
    ⟨7, (.block, 15), [⟨7, 1, .unconditional, none, none, false⟩], 1, (.exit, 1)⟩,
    ⟨8, (.block, 18), [⟨8, 1, .exception, none, none, false⟩], 1, (.exit, 1)⟩,
    ⟨8, (.block, 18), [⟨8, 9, .unconditional, none, none, false⟩, ⟨9, 4, .exception, none, none, false⟩,
      ⟨4, 2, .exception, none, none, false⟩], 2, (.handler, 32)⟩]

/-- Walks lead from the body of the statement out of it without coming to its `finally` clause. -/
theorem finally_bypassed_of_leakyTry :
    leakyGraph ∈ Flow.graphs leakyTry ∧ Reached leakyTry 1 10 ∧ leakyTry.kind 10 = "try_statement" ∧
      leakyTry.child? 10 "finalizer" = some 26 ∧ leakyTry.child? 10 "body" = some 11 ∧
      ∀ w ∈ waysPast, Plays leakyGraph.nodes w.first w.opening ∧ leakyTry.contains 11 w.opening.2 = true ∧
        Plays leakyGraph.nodes w.last w.closing ∧ leakyTry.contains 10 w.closing.2 = false ∧
        leakyGraph.IsWalk w.first w.path w.last ∧ ∀ e ∈ w.path, ¬ Plays leakyGraph.nodes e.target (.handler, 26) := by
  refine ⟨by decide +kernel, reached_leakyTry, ?_⟩
  decide +kernel

end Syntax.Ast

end Mend
