import Mend.Proofs.Flow.Growth
import Mend.Proofs.Flow.Jumps

/-!
# Control leads on

Every node of a graph but the exit has an edge to somewhere (`leadsOn`), unless it is the block of a
`continue` that names a label in front of another label: the statement behind the first label is then no
loop, and nobody picks up the `continue`s that are meant for it (`noWayOn_of_nestedLabels`).

While a statement is laid out, a node without an edge waits among the ways out or the jumps under way.
`Draft.Flows` keeps account of those that wait; it composes along the primitives of the builder, and
`Stmt.layOut_settled` follows them through a statement. For jumps the account says which frame they head for
(`Jump.Heads`): loops pick up breaks and continues, everything else breaks only.
-/

namespace Mend.Flow

open Syntax (Ast)

/-- The sources of some ways. -/
def Sources (ways : List Way) (n : Nat) : Prop := ∃ w ∈ ways, w.source = n

/-- No ways have no source. -/
@[simp] lemma sources_nil (n : Nat) : Sources [] n ↔ False := by simp [Sources]

/-- The sources of ways are those of the first and of the others. -/
@[simp] lemma sources_cons (w : Way) (ways : List Way) (n : Nat) :
    Sources (w :: ways) n ↔ w.source = n ∨ Sources ways n := by simp [Sources]

/-- The sources of ways taken together. -/
@[simp] lemma sources_append (v w : List Way) (n : Nat) :
    Sources (v ++ w) n ↔ Sources v n ∨ Sources w n := by simp [Sources, or_and_right, exists_or]

/-- A plain way comes from its node. -/
@[simp] lemma source_plain (n : Nat) : (Way.plain n).source = n := rfl

/-- A guarded way comes from its node. -/
@[simp] lemma source_guarded (n : Nat) (kind : EdgeKind) (condition : Option Nat) :
    (Way.guarded n kind condition).source = n := rfl

namespace Draft

/-- An edge leaves a node. -/
def Leaves (d : Draft) (n : Nat) : Prop := ∃ e ∈ d.edges.toList, e.source = n

/-- A node is a block that ends in a statement with the property `S` and takes no other. -/
def EndsIn (S : Nat → Prop) (d : Draft) (n : Nat) : Prop :=
  d.current ≠ some n ∧
    ∃ x k, d.nodes[n]? = some x ∧ x.kind = .block ∧ x.statements.getLast? = some k ∧ S k

/-- A draft that came from another. -/
abbrev Extends (d d' : Draft) : Prop := d.Grows (fun _ => True) (fun _ => True) d'

/-- The block that takes the next statement is one, with an edge to the handler in force. -/
def OpensBlock (c : Context) (d : Draft) : Prop :=
  ∀ n, d.current = some n → (∃ x, d.nodes[n]? = some x ∧ x.kind = .block) ∧
    (c.handler.isSome = true → d.Leaves n)

variable {S : Nat → Prop} {W P Q R : Nat → Prop} {d d' d'' : Draft} {c : Context} {n : Nat}
  {ways : List Way}

/-- A draft extends itself. -/
lemma Extends.refl (d : Draft) : d.Extends d := Grows.refl _ _ d

/-- Closing a block extends a draft. -/
lemma extends_close (d : Draft) : d.Extends d.close := (Extends.refl d).close

/-- What is extended twice is extended. -/
lemma Extends.andThen (h : d.Extends d') (h' : d'.Extends d'') : d.Extends d'' :=
  h.trans h' (fun _ => .inl) fun _ => .inl

/-- Connecting ways extends a draft. -/
lemma Extends.connect (h : d.Extends d') (ways : List Way) (n : Nat) (b : Bool) :
    d.Extends (d'.connect ways n b) :=
  Grows.connect h ways b (.inl trivial) fun _ _ => .inl trivial

/-- A node that is left is left later on. -/
lemma Extends.leaves (h : d.Extends d') (hn : d.Leaves n) : d'.Leaves n := by
  obtain ⟨new, he, -⟩ := h.edges
  obtain ⟨e, hmem, hs⟩ := hn
  exact ⟨e, by rw [he]; exact List.mem_append_left _ hmem, hs⟩

/-- A block that ends where control strays still ends there. -/
lemma Extends.endsIn (h : d.Extends d') (hn : d.EndsIn S n) : d'.EndsIn S n := by
  obtain ⟨hc, x, k, hx, hk, hlast, hS⟩ := hn
  have hlt : n < d.size := (Array.getElem?_eq_some_iff.1 hx).1
  obtain ⟨more, hm, hopen⟩ := h.kept n hlt
  rw [hopen hc] at hm
  refine ⟨fun hn => ?_, x, k, by simpa [hx] using hm, hk, hlast, hS⟩
  rcases h.current n hn with hold | hnew
  · exact hc hold
  · exact absurd hlt (Nat.not_lt.2 hnew.1)

/-- Between two drafts: the new nodes, and the old ones in `W`, have an edge to somewhere, or they wait in `P`
for one, or they are blocks that end in a statement with the property `S`. -/
structure Flows (S W : Nat → Prop) (d d' : Draft) (P : Nat → Prop) : Prop where
  extend : d.Extends d'
  leadsOn : ∀ n, d.Added d' n ∨ W n → d'.Leaves n ∨ P n ∨ d'.EndsIn S n

namespace Flows

/-- Where nothing is added every node is as before. -/
lemma refl (S W : Nat → Prop) (d : Draft) : d.Flows S W d W where
  extend := .refl d
  leadsOn n hn := by
    rcases hn with hn | hn
    · exact absurd hn.2 (Nat.not_lt.2 hn.1)
    · exact .inr (.inl hn)

/-- What is laid out in two steps: what waits after the first is taken up by the second or goes on waiting. -/
lemma trans (h : d.Flows S W d' P) (h' : d'.Flows S Q d'' R) (hP : ∀ n, P n → Q n ∨ R n) :
    d.Flows S W d'' R where
  extend := h.extend.trans h'.extend (fun _ => .inl) fun _ => .inl
  leadsOn n hn := by
    by_cases hnew : d'.Added d'' n
    · exact h'.leadsOn n (.inl hnew)
    · have hold : d.Added d' n ∨ W n := by
        refine hn.imp_left fun hn => ⟨hn.1, ?_⟩
        by_contra hle
        exact hnew ⟨Nat.not_lt.1 hle, hn.2⟩
      rcases h.leadsOn n hold with hl | hp | he
      · exact .inl (h'.extend.leaves hl)
      · rcases hP n hp with hq | hr
        · exact h'.leadsOn n (.inr hq)
        · exact .inr (.inl hr)
      · exact .inr (.inr (h'.extend.endsIn he))

/-- More nodes may wait. -/
lemma mono (h : d.Flows S W d' P) (hP : ∀ n, P n → R n) : d.Flows S W d' R :=
  h.trans (refl S R d') fun n hn => .inr (hP n hn)

/-- What waits need wait no longer if it leads on. -/
lemma settle (h : d.Flows S W d' P) (hP : ∀ n, P n → d'.Leaves n ∨ R n ∨ d'.EndsIn S n) :
    d.Flows S W d' R where
  extend := h.extend
  leadsOn n hn := by
    rcases h.leadsOn n hn with hl | hp | he
    · exact .inl hl
    · exact hP n hp
    · exact .inr (.inr he)

/-- Closing a block changes nothing. -/
lemma close (h : d.Flows S W d' P) : d.Flows S W d'.close P where
  extend := h.extend.close
  leadsOn n hn := (h.leadsOn n hn).imp_right fun h => h.imp_right fun he => ⟨nofun, he.2⟩

/-- What is connected waits no longer. -/
lemma connect (h : d.Flows S W d' P) (ways : List Way) (t : Nat) (b : Bool)
    (hP : ∀ n, P n → Sources ways n ∨ R n) : d.Flows S W (d'.connect ways t b) R := by
  refine h.trans (Q := Sources ways) ⟨?_, fun n hn => ?_⟩ hP
  · exact (Extends.refl d').connect ways t b
  · rcases hn with hn | ⟨w, hw, rfl⟩
    · exact absurd hn.2 (Nat.not_lt.2 hn.1)
    · exact .inl ⟨w.toEdge t b, by simpa using .inr ⟨w, hw, rfl⟩, rfl⟩

/-- A new node waits. -/
lemma addNode (h : d.Flows S W d' P) (c : Context) (kind : NodeKind) (ast : Nat) (hP : ∀ n, P n → R n)
    (hnew : R d'.size) : d.Flows S W (d'.addNode c kind ast).1 R := by
  refine h.trans (Q := P) ⟨?_, fun n hn => ?_⟩ fun n hn => .inl hn
  · exact (Grows.refl _ _ d').addNode kind ast fun _ _ => .inl trivial
  · rcases hn with hn | hn
    · have := hn.2
      rw [size_addNode] at this
      rw [Nat.le_antisymm (Nat.le_of_lt_succ this) hn.1]
      exact .inr (.inl hnew)
    · exact .inr (.inl (hP n hn))

/-- A target waits, and what is connected to it does no longer. -/
lemma addTarget (h : d.Flows S W d' P) (c : Context) (kind : NodeKind) (ast : Nat) (ways : List Way)
    (hP : ∀ n, P n → Sources ways n ∨ R n) (hnew : R d'.size) :
    d.Flows S W (d'.addTarget c kind ast ways).1 R := by
  rw [addTarget_fst]
  exact (h.close.addNode c kind ast (R := fun n => Sources ways n ∨ R n) hP (.inr hnew)).connect ways _ _
    fun _ => id

/-- A plain statement takes up the ways it is given. -/
lemma plain (h : d.Flows S W d' P) (c : Context) (ast : Nat) (ways : List Way)
    (hP : ∀ n, P n → Sources ways n ∨ R n) (hR : ∀ n, Sources (d'.plain c ast ways).2 n → R n) :
    d.Flows S W (d'.plain c ast ways).1 R := by
  refine h.trans (Q := P) ⟨((Grows.refl _ _ d').plain ast (fun _ _ => .inl trivial)
    fun _ _ => .inl trivial).1, fun n hn => ?_⟩ fun n hn => .inl hn
  cases hb : d'.openBlock? ways with
  | some block =>
    rw [plain_of_openBlock?_eq_some d' c ast ways hb] at hR hn ⊢
    rcases hn with hn | hn
    · rw [Added, size_append] at hn
      exact absurd hn.2 (Nat.not_lt.2 hn.1)
    · exact .inr (.inl ((hP n hn).elim (hR n) id))
  | none =>
    rw [plain_of_openBlock?_eq_none d' c ast ways hb] at hR hn ⊢
    rcases hn with hn | hn
    · have hlt := hn.2
      rw [size_reopen, size_connect, size_append, size_addNode] at hlt
      rw [Nat.le_antisymm (Nat.le_of_lt_succ hlt) hn.1]
      exact .inr (.inl (hR _ (by simp)))
    · rcases hP n hn with ⟨w, hw, rfl⟩ | hr
      · refine .inl ⟨w.toEdge d'.size false, ?_, rfl⟩
        rw [edges_reopen, edges_connect]
        exact List.mem_append_right _ (List.mem_map_of_mem hw)
      · exact .inr (.inl hr)

/-- So does a plain statement that may be missing. -/
lemma plain? (h : d.Flows S W d' P) (c : Context) (part : Option Nat) (ways : List Way)
    (hP : ∀ n, P n → Sources ways n ∨ R n) (hR : ∀ n, Sources (d'.plain? c part ways).2 n → R n) :
    d.Flows S W (d'.plain? c part ways).1 R := by
  cases part with
  | none => exact h.mono fun n hn => (hP n hn).elim (hR n) id
  | some ast => exact h.plain c ast ways hP hR

end Flows

/-- Where no block is open a plain statement opens one. -/
lemma OpensBlock.of_closed (h : d.current = none) : d.OpensBlock c := by
  intro n hn
  cases h.symm.trans hn

/-- The ways out of a statement leave the block that ends in it. -/
lemma plain_spec (h : d.OpensBlock c) (ast : Nat) (ways : List Way) :
    (d.plain c ast ways).1.OpensBlock c ∧ ∀ w ∈ (d.plain c ast ways).2,
      (∃ x, (d.plain c ast ways).1.nodes[w.source]? = some x ∧ x.kind = .block ∧
        x.statements.getLast? = some ast) ∧
      (c.handler.isSome = true → (d.plain c ast ways).1.Leaves w.source) := by
  cases hb : d.openBlock? ways with
  | some block =>
    rw [plain_of_openBlock?_eq_some d c ast ways hb]
    obtain ⟨hcurrent, way, rfl, hsource, -⟩ := openBlock?_eq_some d ways hb
    obtain ⟨⟨x, hx, hk⟩, hhandler⟩ := h block hcurrent
    have hy : (d.append block ast).nodes[block]? = some (x.extend [ast]) := by
      rw [getElem?_append, if_pos rfl, hx]
      rfl
    constructor
    · intro n hn
      cases hcurrent.symm.trans hn
      exact ⟨⟨_, hy, hk⟩, hhandler⟩
    · intro w hw
      rw [List.mem_singleton.1 hw, hsource]
      exact ⟨⟨_, hy, hk, by simp [Node.extend]⟩, hhandler⟩
  | none =>
    rw [plain_of_openBlock?_eq_none d c ast ways hb]
    generalize hdraft : ((((d.addNode c .block ast).1.append d.size ast).connect ways d.size false).reopen
      d.size) = d'
    have hy : d'.nodes[d.size]? = some ⟨.block, ast, [ast]⟩ := by
      rw [← hdraft, nodes_reopen, nodes_connect, getElem?_append, if_pos rfl, nodes_addNode]
      simp [size, Node.extend]
    have hhandler : c.handler.isSome = true → d'.Leaves d.size := by
      intro hc
      obtain ⟨handler, hc⟩ := Option.isSome_iff_exists.1 hc
      refine ⟨⟨d.size, handler, .exception, none, none, false⟩, ?_, rfl⟩
      rw [← hdraft, edges_reopen, edges_connect, edges_append, edges_addNode]
      simp [handlerEdges, hc]
    constructor
    · intro n hn
      rw [← hdraft] at hn
      cases hn
      exact ⟨⟨_, hy, rfl⟩, hhandler⟩
    · intro w hw
      rw [List.mem_singleton.1 hw]
      exact ⟨⟨_, hy, rfl, rfl⟩, hhandler⟩

end Draft

/-- A jump is on its way to a frame that takes it; a `continue` that is on its way to a frame which is not that
of a loop waits at the end of a block, and has the property `S`. -/
def Jump.Heads (S : Nat → Prop) (frames : List Frame) (d : Draft) (j : Jump) : Prop :=
  j.depth < frames.length ∧
    ∃ frame label, frames[frames.length - 1 - j.depth]? = some frame ∧
      frame.accepts j.isContinue label = true ∧
      (j.isContinue = true → frame.isLoop = false → d.EndsIn S j.way.source)

/-- The ways and jumps that a layout leaves open. -/
def Layout.Pending (l : Layout) (n : Nat) : Prop := Sources l.outs n ∨ Sources (l.jumps.map (·.way)) n

/-- In a layout every new node leads on, and so do the sources of the ways in. -/
structure Layout.Settled (S : Nat → Prop) (c : Context) (d : Draft) (ways : List Way) (l : Layout) :
    Prop where
  flows : d.Flows S (Sources ways) l.draft l.Pending
  jumps : ∀ j ∈ l.jumps, j.Heads S c.frames l.draft
  opens : l.draft.OpensBlock c

/-- Where no block is open, laying out a statement leaves no node without a way on. -/
def Stmt.Settles (S : Nat → Prop) (c : Context) (s : Stmt) : Prop :=
  ∀ (d : Draft) (ways : List Way), d.current = none → (s.layOut c d ways).Settled S c d ways

/-- The same of clauses, entered from `branch`, too, if one of them is the default. -/
def Clauses.Settle (S : Nat → Prop) (c : Context) (selector : Option Nat) (s : Clauses) : Prop :=
  ∀ (d : Draft) (branch : Nat) (falling : List Way),
    let l := s.layOut c branch selector d falling
    d.Flows S (fun n => Sources falling n ∨ (s.hasDefault = true ∧ n = branch)) l.draft l.Pending ∧
      ∀ j ∈ l.jumps, j.Heads S c.frames l.draft

section

variable {S : Nat → Prop} {c : Context} {d d' : Draft} {ways : List Way} {l k : Layout} {j : Jump}
  {frames : List Frame} {frame : Frame}

/-- A jump heads for the same frame later on. -/
lemma Jump.Heads.later (h : j.Heads S frames d) (hd : d.Extends d') : j.Heads S frames d' := by
  obtain ⟨hlt, fr, label, hfr, haccepts, hends⟩ := h
  exact ⟨hlt, fr, label, hfr, haccepts, fun hc hl => hd.endsIn (hends hc hl)⟩

/-- A jump that the innermost frame lets pass is on its way to a frame further out. -/
lemma Jump.Heads.pass (h : j.Heads S (frame :: frames) d) (hne : j.depth ≠ frames.length) :
    j.Heads S frames d := by
  obtain ⟨hlt, fr, label, hfr, haccepts, hends⟩ := h
  rw [List.length_cons] at hlt hfr
  have hlt' : j.depth < frames.length := by omega
  refine ⟨hlt', fr, label, ?_, haccepts, hends⟩
  rwa [show frames.length + 1 - 1 - j.depth = frames.length - 1 - j.depth + 1 by omega,
    List.getElem?_cons_succ] at hfr

/-- A jump that the innermost frame takes is meant for it. -/
lemma Jump.Heads.take (h : j.Heads S (frame :: frames) d) (heq : j.depth = frames.length) :
    (∃ label, frame.accepts j.isContinue label = true) ∧
      (j.isContinue = true → frame.isLoop = false → d.EndsIn S j.way.source) := by
  obtain ⟨hlt, fr, label, hfr, haccepts, hends⟩ := h
  rw [List.length_cons, heq, Nat.add_sub_cancel, Nat.sub_self, List.getElem?_cons_zero] at hfr
  cases hfr
  exact ⟨⟨label, haccepts⟩, hends⟩

/-- The jumps that are under way are taken as breaks or as continues, or they go further. -/
lemma sources_jumps (l : Layout) (depth n : Nat) (h : Sources (l.jumps.map (·.way)) n) :
    Sources (l.breaks depth) n ∨ Sources (l.continues depth) n ∨
      Sources ((l.passing depth).map (·.way)) n := by
  obtain ⟨w, hw, rfl⟩ := h
  obtain ⟨j, hj, rfl⟩ := List.mem_map.1 hw
  by_cases hdepth : j.depth = depth
  · cases hc : j.isContinue with
    | false => exact .inl ⟨_, Layout.mem_breaks.2 ⟨j, hj, hdepth, hc, rfl⟩, rfl⟩
    | true => exact .inr (.inl ⟨_, Layout.mem_continues.2 ⟨j, hj, hdepth, hc, rfl⟩, rfl⟩)
  · exact .inr (.inr ⟨_, List.mem_map_of_mem (Layout.mem_passing.2 ⟨hj, hdepth⟩), rfl⟩)

/-- The jumps that the innermost frame lets pass, in a draft that came after. -/
lemma heads_passing (h : ∀ j ∈ l.jumps, j.Heads S (frame :: frames) l.draft)
    (hd : l.draft.Extends d') : ∀ j ∈ l.passing frames.length, j.Heads S frames d' := by
  intro j hj
  obtain ⟨hj, hne⟩ := Layout.mem_passing.1 hj
  exact ((h j hj).pass hne).later hd

/-- The end of a loop whose body goes back to the node in front of it. -/
lemma Layout.Settled.loop {head : Nat} {label : Option String} {into out : Way}
    (hbody : l.Settled S (c.enter ⟨label, true, true⟩) d' [into]) (hinto : into.source = head)
    (hhead : d.Flows S (Sources ways) d' (· = head)) :
    Layout.Settled S c d ways
      ⟨((l.draft.connect l.outs head true).connect (l.continues c.frames.length) head true).close,
        out :: l.breaks c.frames.length, l.passing c.frames.length⟩ where
  flows := by
    have hl := hhead.trans hbody.flows fun n hn => .inl (by simp [hinto, hn])
    have houts := hl.connect l.outs head true fun n => id
    refine (houts.connect (l.continues c.frames.length) head true fun n hn => ?_).close
    rcases sources_jumps l c.frames.length n hn with hn | hn | hn
    · exact .inr (.inl (by simp [hn]))
    · exact .inl hn
    · exact .inr (.inr hn)
  jumps := heads_passing hbody.jumps
    (((Draft.Extends.refl l.draft).connect _ _ _).connect _ _ _).close
  opens := .of_closed rfl

/-- The node of a clause waits. -/
lemma Draft.Flows.addClause {W P : Nat → Prop} (h : d.Flows S W d' P) (c : Context) (clause : Option Nat) :
    d.Flows S W (d'.addClause c clause).1 fun n => P n ∨ (d'.addClause c clause).2 = some n := by
  cases clause with
  | none => exact h.mono fun n => .inl
  | some ast => exact h.addNode c .handler ast (fun n => .inl) (.inr rfl)

/-- The jumps of two layouts, one made after the other. -/
lemma heads_append (hl : ∀ j ∈ l.jumps, j.Heads S frames l.draft)
    (hk : ∀ j ∈ k.jumps, j.Heads S frames k.draft) (hlk : l.draft.Extends k.draft) :
    ∀ j ∈ l.jumps ++ k.jumps, j.Heads S frames k.draft := by
  intro j hj
  rcases List.mem_append.1 hj with hj | hj
  · exact (hl j hj).later hlk
  · exact hk j hj

/-- What a layout leaves open is taken up by the one after it. -/
lemma Draft.Flows.follow {W V : Nat → Prop} (hl : d.Flows S W l.draft l.Pending)
    (hk : l.draft.Flows S V k.draft k.Pending) (hV : ∀ n, Sources l.outs n → V n) :
    d.Flows S W k.draft (Layout.Pending ⟨k.draft, k.outs, l.jumps ++ k.jumps⟩) := by
  refine hl.trans (hk.mono fun n hn => ?_) fun n hn => ?_
  · simp only [Layout.Pending, List.map_append, sources_append] at hn ⊢
    exact hn.imp_right .inr
  · simp only [Layout.Pending, List.map_append, sources_append] at hn ⊢
    exact hn.imp (hV n) fun hn => .inr (.inl hn)

/-- The body of a clause, behind what was laid out before it. -/
lemma Draft.Flows.clause {W X : Nat → Prop} {body : Stmt} {clause : Option Nat}
    (h : d.Flows S W l.draft fun n => l.Pending n ∨ clause = some n ∨ X n)
    (hjumps : ∀ j ∈ l.jumps, j.Heads S c.frames l.draft)
    (hbody : body.Settles S c) :
    d.Flows S W (body.layOutClause c l clause).draft
        (fun n => (body.layOutClause c l clause).Pending n ∨ X n) ∧
      ∀ j ∈ (body.layOutClause c l clause).jumps, j.Heads S c.frames (body.layOutClause c l clause).draft := by
  cases clause with
  | none => exact ⟨h.mono fun n hn => hn.imp_right fun hn => hn.resolve_left nofun, hjumps⟩
  | some m =>
    have hk := hbody l.draft.close [.plain m] rfl
    generalize hlaid : body.layOut c l.draft.close [.plain m] = k at hk
    simp only [Stmt.layOutClause, hlaid]
    refine ⟨h.close.trans (hk.flows.mono fun n hn => .inl ?_) fun n hn => ?_,
      heads_append (l := ⟨l.draft.close, l.outs, l.jumps⟩) (fun j hj => ?_) hk.jumps hk.flows.extend⟩
    · simp only [Layout.Pending, List.map_append, sources_append] at hn ⊢
      exact hn.imp .inr .inr
    · simp only [Layout.Pending, List.map_append, sources_append] at hn ⊢
      rcases hn with hn | hn | hn
      · exact .inr (.inl (hn.imp .inl .inl))
      · cases hn
        exact .inl (by simp)
      · exact .inr (.inr hn)
    · exact (hjumps j hj).later (Draft.extends_close _)

/-- Inside a clause its node waits as the way in. -/
lemma Draft.Flows.into {W X : Nat → Prop} (h : d.Flows S W l.draft fun n => l.Pending n ∨ X n)
    (clause : Option Nat) :
    d.Flows S W (l.into clause).draft fun n => (l.into clause).Pending n ∨ X n := by
  cases clause with
  | none => exact h
  | some m =>
    refine h.connect l.outs m false fun n hn => ?_
    rcases hn with (hn | hn) | hn
    · exact .inl hn
    · exact .inr (.inl (.inr hn))
    · exact .inr (.inr hn)

/-- The jumps of a layout head for the same frames inside a clause. -/
lemma heads_into (h : ∀ j ∈ l.jumps, j.Heads S frames l.draft) (clause : Option Nat) :
    ∀ j ∈ (l.into clause).jumps, j.Heads S frames (l.into clause).draft := by
  cases clause with
  | none => exact h
  | some m =>
    exact fun j hj => (h j hj).later ((Draft.Extends.refl l.draft).connect _ _ _)

end

section

variable {S : Nat → Prop} {c : Context} {d : Draft} {ways : List Way} {node : Nat} {label : Option String}
  {condition : Option Nat} {body : Stmt}

/-- A `break` or `continue` that obeys the rule. -/
lemma settled_jump {isContinue : Bool} (hd : d.OpensBlock c)
    (hs : (Stmt.jump node isContinue label).Obeys (.straying S) c.frames) :
    ((Stmt.jump node isContinue label).layOut c d ways).Settled S c d ways := by
  have hstart := Draft.Flows.refl S (Sources ways) d
  have hp := hstart.plain c node ways (R := Sources (d.plain c node ways).2) (fun n => .inl) fun n => id
  rw [Stmt.layOut]
  cases ht : c.target? isContinue label with
  | none => exact ⟨hp.close.mono fun n => .inl, fun _ h => absurd h List.not_mem_nil, .of_closed rfl⟩
  | some depth =>
    obtain ⟨i, hi, rfl⟩ := Option.map_eq_some_iff.1 ht
    obtain ⟨hlt, haccepts, hfirst⟩ := List.findIdx?_eq_some_iff_getElem.1 hi
    have hfind : c.frames.find? (·.accepts isContinue label) = some c.frames[i] :=
      List.find?_eq_some_iff_getElem.2 ⟨haccepts, i, hlt, rfl, fun j hj => by simpa using hfirst j hj⟩
    refine ⟨hp.close.mono fun n hn => .inr ?_, fun j hj => ?_, .of_closed rfl⟩
    · obtain ⟨w, hw, hs⟩ := hn
      exact ⟨w, List.mem_map.2 ⟨_, List.mem_map_of_mem hw, rfl⟩, hs⟩
    · obtain ⟨w, hw, rfl⟩ := List.mem_map.1 hj
      refine ⟨by dsimp only; omega, c.frames[i], label, ?_, haccepts, fun hc hl =>
        ⟨(Option.some_ne_none _).symm, ?_⟩⟩
      · dsimp only
        rw [show c.frames.length - 1 - (c.frames.length - 1 - i) = i by omega]
        exact List.getElem?_eq_getElem hlt
      · obtain ⟨x, hx, hk, hlast⟩ := ((Draft.plain_spec hd node ways).2 w hw).1
        exact ⟨x, node, hx, hk, hlast, hs _ hfind hc hl⟩

/-- An `if` statement. -/
lemma settled_branch {onTrue onFalse : Stmt} (hTrue : onTrue.Settles S c) (hFalse : onFalse.Settles S c) :
    ((Stmt.branch node condition onTrue onFalse).layOut c d ways).Settled S c d ways := by
  have hstart := Draft.Flows.refl S (Sources ways) d
  have hb := hstart.addTarget c .branch node ways (R := (· = d.size)) (fun n => .inl) rfl
  rw [layOut_branch]
  extract_lets t f
  have ht : t.Settled S c _ _ := hTrue _ _ (Draft.current_addTarget ..)
  have hf : f.Settled S c _ _ := hFalse _ _ rfl
  have hbt := hb.trans ht.flows fun n hn => .inl (by simp [hn])
  refine ⟨(hbt.close.trans (hf.flows.mono fun n hn => ?_) fun n hn => .inr ?_).close, fun j hj => ?_,
    .of_closed rfl⟩
  · simp only [Layout.Pending, List.map_append, sources_append] at hn ⊢
    exact hn.imp .inr .inr
  · simp only [Layout.Pending, List.map_append, sources_append] at hn ⊢
    exact hn.imp .inl .inl
  · rcases List.mem_append.1 hj with hj | hj
    · exact ((ht.jumps j hj).later (Draft.extends_close _)).later hf.flows.extend |>.later
        (Draft.extends_close _)
    · exact (hf.jumps j hj).later (Draft.extends_close _)

/-- A `do` loop. -/
lemma settled_doLoop (hbody : body.Settles S (c.enter ⟨label, true, true⟩)) :
    ((Stmt.doLoop node label condition body).layOut c d ways).Settled S c d ways := by
  have hstart := Draft.Flows.refl S (Sources ways) d
  have hb := hstart.addTarget c .loopHead node ways (R := (· = d.size)) (fun n => .inl) rfl
  rw [layOut_doLoop]
  extract_lets l test
  have hl : l.Settled S (c.enter ⟨label, true, true⟩) _ _ := hbody _ _ (Draft.current_addTarget ..)
  have hbl := hb.trans hl.flows fun n hn => .inl (by simp [hn])
  have htest := hbl.addTarget c .branch (condition.getD node) l.outs
    (R := fun n => n = test ∨ Sources (l.jumps.map (·.way)) n)
    (fun n hn => hn.elim .inl fun hn => .inr (.inr hn)) (.inl rfl)
  have hcontinues := htest.connect (l.continues c.frames.length) test false
    (R := fun n => n = test ∨ Sources (l.breaks c.frames.length) n ∨
      Sources ((l.passing c.frames.length).map (·.way)) n) fun n hn => by
      rcases hn with hn | hn
      · exact .inr (.inl hn)
      · rcases sources_jumps l c.frames.length n hn with hn | hn | hn
        · exact .inr (.inr (.inl hn))
        · exact .inl hn
        · exact .inr (.inr (.inr hn))
  refine ⟨(hcontinues.connect _ d.size true fun n hn => .inr ?_).close, ?_, .of_closed rfl⟩
  · rcases hn with rfl | hn | hn
    · exact .inl (by simp)
    · exact .inl (by simp [hn])
    · exact .inr hn
  · have hgrows : l.draft.Extends (l.draft.addTarget c .branch (condition.getD node) l.outs).1 :=
      (Draft.Grows.refl _ _ _).addTarget .branch _ (fun _ _ => .inl trivial) fun _ _ => .inl trivial
    exact heads_passing hl.jumps ((hgrows.connect _ _ _).connect _ _ _).close

/-- A `for` loop with three parts. -/
lemma settled_forLoop {start step : Option Nat} (hbody : body.Settles S (c.enter ⟨label, true, true⟩)) :
    ((Stmt.forLoop node label start condition step body).layOut c d ways).Settled S c d ways := by
  have hstart := Draft.Flows.refl S (Sources ways) d
  rw [layOut_forLoop]
  extract_lets p head l q
  have hp : d.Flows S (Sources ways) p.1 (Sources p.2) :=
    hstart.plain? c start ways (fun n => .inl) fun n => id
  have hb := hp.addTarget c (if condition.isSome then .branch else .loopHead) node p.2 (R := (· = head))
    (fun n => .inl) rfl
  have hl : l.Settled S (c.enter ⟨label, true, true⟩) _ _ := hbody _ _ (Draft.current_addTarget ..)
  have hbl := hb.trans hl.flows fun n hn => .inl (by split <;> simp [hn])
  have hq : d.Flows S (Sources ways) q.1 fun n => Sources q.2 n ∨ Sources (l.breaks c.frames.length) n ∨
      Sources ((l.passing c.frames.length).map (·.way)) n := by
    refine hbl.close.plain? c step _ (fun n hn => ?_) fun n => .inl
    rw [sources_append]
    rcases hn with hn | hn
    · exact .inl (.inl hn)
    · rcases sources_jumps l c.frames.length n hn with hn | hn | hn
      · exact .inr (.inr (.inl hn))
      · exact .inl (.inr hn)
      · exact .inr (.inr (.inr hn))
  refine ⟨(hq.connect q.2 head true fun n hn => ?_).close, ?_, .of_closed rfl⟩
  · rcases hn with hn | hn | hn
    · exact .inl hn
    · exact .inr (.inl (by simp [hn]))
    · exact .inr (.inr hn)
  · have hgrows : l.draft.Extends q.1 :=
      ((Draft.Grows.refl _ _ _).close.plain? step (fun _ _ => .inl trivial) fun _ _ => .inl trivial).1
    exact heads_passing hl.jumps (hgrows.connect _ _ _).close

/-- A `switch`. -/
lemma settled_switch {selector : Option Nat} {clauses : Clauses}
    (hclauses : clauses.Settle S (c.enter ⟨none, false, true⟩) selector) :
    ((Stmt.switch node selector clauses).layOut c d ways).Settled S c d ways := by
  have hstart := Draft.Flows.refl S (Sources ways) d
  have hb := hstart.addTarget c .branch node ways (R := (· = d.size)) (fun n => .inl) rfl
  rw [layOut_switch]
  extract_lets l
  obtain ⟨hl, hjumps⟩ := hclauses (d.addTarget c .branch node ways).1 d.size []
  have hbl : d.Flows S (Sources ways) l.draft fun n =>
      l.Pending n ∨ (clauses.hasDefault = false ∧ n = d.size) := by
    refine hb.trans (hl.mono fun n => .inl) fun n hn => ?_
    cases hdefault : clauses.hasDefault with
    | true => exact .inl (.inr ⟨rfl, hn⟩)
    | false => exact .inr (.inr ⟨rfl, hn⟩)
  refine ⟨(hbl.settle fun n hn => ?_).close, heads_passing hjumps (Draft.extends_close _),
    .of_closed rfl⟩
  simp only [Layout.Pending, sources_append]
  rcases hn with (hn | hn) | ⟨hdefault, hn⟩
  · exact .inr (.inl (.inl (.inl (.inl hn))))
  · rcases sources_jumps l c.frames.length n hn with hn | ⟨w, hw, rfl⟩ | hn
    · exact .inr (.inl (.inl (.inr hn)))
    · -- No `continue` is meant for a `switch` statement.
      obtain ⟨j, hj, hdepth, hc, rfl⟩ := Layout.mem_continues.1 hw
      obtain ⟨⟨label, haccepts⟩, -⟩ := (hjumps j hj).take hdepth
      rw [hc] at haccepts
      cases label <;> cases haccepts
    · exact .inr (.inl (.inr hn))
  · exact .inr (.inl (.inl (.inl (.inr (by simp [hdefault, hn])))))

/-- A `try` with its clauses. -/
lemma settled_tryCatch {catchNode finallyNode : Option Nat} {catchBody finallyBody : Stmt}
    (hbody : ∀ handler, body.Settles S { c with handler })
    (hcatch : ∀ handler, catchBody.Settles S { c with handler }) (hfinally : finallyBody.Settles S c) :
    ((Stmt.tryCatch node body catchNode catchBody finallyNode finallyBody).layOut c d ways).Settled S c d
      ways := by
  have hstart := Draft.Flows.refl S (Sources ways) d
  rw [layOut_tryCatch]
  extract_lets catcher finisher b k f
  have hclauses := (hstart.close.addClause c catchNode).addClause c finallyNode
  have hclosed : finisher.1.current = none := by
    rw [Draft.current_addClause, Draft.current_addClause, Draft.current_close]
  have hb : b.Settled S { c with handler := some ((catcher.2.or finisher.2).getD exitNode) } _ _ :=
    hbody _ _ _ hclosed
  have hbt : d.Flows S (Sources ways) b.draft fun n =>
      b.Pending n ∨ catcher.2 = some n ∨ finisher.2 = some n := by
    refine hclauses.trans (hb.flows.mono fun n => .inl) fun n hn => ?_
    rcases hn with (hn | hn) | hn
    · exact .inl hn
    · exact .inr (.inr (.inl hn))
    · exact .inr (.inr (.inr hn))
  obtain ⟨hk, hkjumps⟩ := hbt.clause (c := { c with handler := finisher.2.or c.handler }) hb.jumps
    (hcatch _)
  have hinto := (hk.into finisher.2).mono (R := fun n =>
    (k.into finisher.2).Pending n ∨ finisher.2 = some n ∨ False) fun n hn => hn.imp_right .inl
  obtain ⟨hl, hljumps⟩ := hinto.clause (c := c) (heads_into hkjumps finisher.2) hfinally
  exact ⟨(hl.mono fun n hn => hn.resolve_right id).close,
    fun j hj => (hljumps j hj).later (Draft.extends_close _), .of_closed rfl⟩

/-- A statement with a label. -/
lemma settled_labelled (hbody : body.Settles S (c.enter ⟨label, false, false⟩)) :
    ((Stmt.labelled node label body).layOut c d ways).Settled S c d ways := by
  have hstart := Draft.Flows.refl S (Sources ways) d
  rw [layOut_labelled]
  extract_lets l
  have hl : l.Settled S (c.enter ⟨label, false, false⟩) _ _ := hbody _ _ rfl
  have hflows := (hstart.close.trans hl.flows fun n => .inl).close
  refine ⟨hflows.settle fun n hn => ?_, heads_passing hl.jumps (Draft.extends_close _), .of_closed rfl⟩
  rcases hn with hn | hn
  · exact .inr (.inl (.inl (by simp [hn])))
  · rcases sources_jumps l c.frames.length n hn with hn | ⟨w, hw, rfl⟩ | hn
    · exact .inr (.inl (.inl (by simp [hn])))
    · -- Nobody picks up the `continue`s that are meant for the statement.
      obtain ⟨j, hj, hdepth, hc, rfl⟩ := Layout.mem_continues.1 hw
      obtain ⟨-, hends⟩ := (hl.jumps j hj).take hdepth
      exact .inr (.inr ⟨nofun, (hends hc rfl).2⟩)
    · exact .inr (.inl (.inr hn))

end

mutual

/-- Laying out a statement leaves no node without a way on, blocks that end in a stray `continue` apart. -/
theorem Stmt.layOut_settled (S : Nat → Prop) (c : Context) (d : Draft) (ways : List Way) (s : Stmt)
    (hs : s.Obeys (.straying S) c.frames) (hd : d.OpensBlock c) :
    (s.layOut c d ways).Settled S c d ways := by
  have hstart := Draft.Flows.refl S (Sources ways) d
  match s with
  | .skip => exact ⟨hstart.mono fun n => .inl, nofun, hd⟩
  | .seq first rest =>
    have hf := first.layOut_settled S c d ways hs.1 hd
    have hr := rest.layOut_settled S c (first.layOut c d ways).draft (first.layOut c d ways).outs hs.2 hf.opens
    rw [Stmt.layOut]
    exact ⟨hf.flows.follow hr.flows fun n => id, heads_append hf.jumps hr.jumps hr.flows.extend, hr.opens⟩
  | .plain node =>
    exact ⟨hstart.plain c node ways (fun n => .inl) fun n => .inl, nofun, (Draft.plain_spec hd node ways).1⟩
  | .ret node =>
    rw [Stmt.layOut]
    have hp := hstart.plain c node ways (R := Sources (d.plain c node ways).2) (fun n => .inl) fun n => id
    exact ⟨(hp.connect _ exitNode false fun n => .inl).close, nofun, .of_closed rfl⟩
  | .throw node =>
    have hp := hstart.plain c node ways (R := Sources (d.plain c node ways).2) (fun n => .inl) fun n => id
    rw [Stmt.layOut]
    refine ⟨?_, nofun, .of_closed rfl⟩
    cases hh : c.handler.isSome with
    | true =>
      -- The block that throws has an edge to the handler already.
      have hled := hp.settle (R := fun _ => False) fun n ⟨w, hw, hs⟩ =>
        .inl (hs ▸ ((Draft.plain_spec hd node ways).2 w hw).2 hh)
      exact (hled.connect _ exitNode false nofun).close
    | false =>
      refine (hp.connect _ exitNode false fun n ⟨w, hw, hs⟩ => .inl ?_).close
      exact ⟨_, List.mem_map_of_mem hw, hs⟩
  | .jump node isContinue label => exact settled_jump hd hs
  | .branch node condition onTrue onFalse =>
    exact settled_branch (fun d ways h => onTrue.layOut_settled S c d ways hs.1 (.of_closed h))
      fun d ways h => onFalse.layOut_settled S c d ways hs.2 (.of_closed h)
  | .whileLoop node label condition body =>
    have hb := hstart.addTarget c .branch node ways (R := (· = d.size)) (fun n => .inl) rfl
    have hl := body.layOut_settled S (c.enter ⟨label, true, true⟩) (d.addTarget c .branch node ways).1
      [.guarded d.size .onTrue condition] hs (.of_closed (Draft.current_addTarget ..))
    rw [layOut_whileLoop]
    exact hl.loop rfl hb
  | .doLoop node label condition body =>
    exact settled_doLoop fun d ways h => body.layOut_settled S _ d ways hs (.of_closed h)
  | .forLoop node label start condition step body =>
    exact settled_forLoop fun d ways h => body.layOut_settled S _ d ways hs (.of_closed h)
  | .forEach node label iterated body =>
    have hb := hstart.addTarget c .branch node ways (R := (· = d.size)) (fun n => .inl) rfl
    have hl := body.layOut_settled S (c.enter ⟨label, true, true⟩) (d.addTarget c .branch node ways).1
      [.guarded d.size .onTrue iterated] hs (.of_closed (Draft.current_addTarget ..))
    rw [layOut_forEach]
    exact hl.loop rfl hb
  | .switch node selector clauses =>
    exact settled_switch fun d branch falling => clauses.layOut_settled S _ branch selector d falling hs
  | .tryCatch node body catchNode catchBody finallyNode finallyBody =>
    exact settled_tryCatch (fun _ d ways h => body.layOut_settled S _ d ways hs.1 (.of_closed h))
      (fun _ d ways h => catchBody.layOut_settled S _ d ways hs.2.1 (.of_closed h))
      fun d ways h => finallyBody.layOut_settled S c d ways hs.2.2 (.of_closed h)
  | .labelled node label body =>
    exact settled_labelled fun d ways h => body.layOut_settled S _ d ways hs (.of_closed h)
termination_by structural s

/-- The clauses of a switch, by induction, with every statement inside them. -/
theorem Clauses.layOut_settled (S : Nat → Prop) (c : Context) (branch : Nat) (selector : Option Nat)
    (d : Draft) (falling : List Way) (s : Clauses) (hs : s.Obeys (.straying S) c.frames) :
    let l := s.layOut c branch selector d falling
    d.Flows S (fun n => Sources falling n ∨ (s.hasDefault = true ∧ n = branch)) l.draft l.Pending ∧
      ∀ j ∈ l.jumps, j.Heads S c.frames l.draft := by
  have hstart := Draft.Flows.refl S (fun n => Sources falling n ∨ (s.hasDefault = true ∧ n = branch)) d
  match s with
  | .nil =>
    rw [Clauses.layOut]
    exact ⟨hstart.mono fun n hn => .inl (hn.resolve_right fun h => nomatch h.1), nofun⟩
  | .onCase value body rest =>
    have hb := body.layOut_settled S c d.close (falling ++ [⟨branch, .onCase, selector, value⟩]) hs.1
      (.of_closed rfl)
    obtain ⟨hr, hrjumps⟩ := rest.layOut_settled S c branch selector
      (body.layOut c d.close (falling ++ [⟨branch, .onCase, selector, value⟩])).draft
      (body.layOut c d.close (falling ++ [⟨branch, .onCase, selector, value⟩])).outs hs.2
    rw [Clauses.layOut]
    refine ⟨(hstart.close.trans hb.flows fun n hn => .inl ?_).follow hr fun n => .inl,
      heads_append hb.jumps hrjumps hr.extend⟩
    rw [sources_append]
    exact hn.imp_right fun hn => by simp [hn.2]
  | .onDefault body rest =>
    have hb := body.layOut_settled S c d.close (falling ++ [.guarded branch .onDefault selector]) hs.1
      (.of_closed rfl)
    obtain ⟨hr, hrjumps⟩ := rest.layOut_settled S c branch selector
      (body.layOut c d.close (falling ++ [.guarded branch .onDefault selector])).draft
      (body.layOut c d.close (falling ++ [.guarded branch .onDefault selector])).outs hs.2
    rw [Clauses.layOut]
    refine ⟨(hstart.close.trans hb.flows fun n hn => .inl ?_).follow hr fun n => .inl,
      heads_append hb.jumps hrjumps hr.extend⟩
    rw [sources_append]
    exact hn.imp_right fun hn => by simp [hn.2]
  | .gap rest => exact hs.1.elim
termination_by structural s

end

/-- In the graphs of a program whose `switch` statements hold clauses only, every node but the exit has an edge
to somewhere, or it is a block that ends in a stray `continue`. -/
theorem leadsOn {a : Ast} (hclauses : a.SwitchesHoldClauses) {g : Graph} (hg : g ∈ graphs a) {n : Nat}
    (hn : n < g.nodes.size) (hexit : n ≠ exitNode) :
    (∃ e ∈ g.edges.toList, e.source = n) ∨
      ∃ x k, g.nodes[n]? = some x ∧ x.kind = .block ∧ x.statements.getLast? = some k ∧ a.IsStray k := by
  obtain ⟨f, name, rfl⟩ := mem_graphs hg
  have hl := (a.skeleton f).layOut_settled a.IsStray ⟨none, []⟩ (.start f) [.plain entryNode]
    (Ast.obeys_skeleton hclauses f) (.of_closed rfl)
  have hflows := hl.flows.connect _ exitNode false (R := fun _ => False) fun n hn => by
    rcases hn with hn | ⟨w, hw, -⟩
    · exact .inl hn
    · -- A jump that is still under way would head for a frame, and there is none.
      obtain ⟨j, hj, -⟩ := List.mem_map.1 hw
      exact absurd (hl.jumps j hj).1 (Nat.not_lt_zero _)
  have hleads := hflows.leadsOn n <| by
    match n with
    | 0 => exact .inr (by simp [entryNode])
    | 1 => exact absurd rfl hexit
    | n + 2 => exact .inl ⟨by simp [Draft.start, Draft.size], hn⟩
  rcases hleads with hleaves | hno | ⟨-, hends⟩
  · exact .inl hleaves
  · exact hno.elim
  · exact .inr hends

/-- The program `a: b: while (c) { continue a; }`. -/
def nestedLabels : Ast :=
  .ofForest "a: b: while (c) { continue a; }" <|
    .cons ⟨"program", none, "", 0, 31, 1⟩
      (.cons ⟨"labeled_statement", none, "", 0, 31, 1⟩
        (.cons ⟨"statement_identifier", some "label", "a", 0, 1, 1⟩ .nil
          (.cons ⟨"labeled_statement", some "body", "", 3, 31, 1⟩
            (.cons ⟨"statement_identifier", some "label", "b", 3, 4, 1⟩ .nil
              (.cons ⟨"while_statement", some "body", "", 6, 31, 1⟩
                (.cons ⟨"parenthesized_expression", some "condition", "", 12, 15, 1⟩
                  (.cons ⟨"identifier", none, "c", 13, 14, 1⟩ .nil .nil)
                  (.cons ⟨"statement_block", some "body", "", 16, 31, 1⟩
                    (.cons ⟨"continue_statement", none, "", 18, 29, 1⟩
                      (.cons ⟨"statement_identifier", some "label", "a", 27, 28, 1⟩ .nil .nil) .nil)
                    .nil)) .nil)) .nil)) .nil) .nil

/-- The graph of the program is made of the loop and the block of the `continue`. -/
def nestedLabelsGraph : Graph := .ofStmt 0 Syntax.scriptName (nestedLabels.skeleton 0)

/-- Behind the outer of two labels the jump to the loop leads nowhere. -/
theorem leadsOn_nestedLabels :
    nestedLabels.SwitchesHoldClauses ∧ nestedLabelsGraph ∈ graphs nestedLabels ∧
      2 < nestedLabelsGraph.nodes.size ∧
      ((∃ e ∈ nestedLabelsGraph.edges.toList, e.source = 2) ∨
        ∃ x k, nestedLabelsGraph.nodes[2]? = some x ∧ x.kind = .block ∧ x.statements.getLast? = some k ∧
          nestedLabels.IsStray k) := by
  have hclauses : nestedLabels.SwitchesHoldClauses := by
    intro i body hk hbody
    have hno : ∀ j < nestedLabels.size, nestedLabels.kind j ≠ "switch_statement" := by decide +kernel
    have hlt := Ast.child?_bounds hbody
    exact absurd hk (hno i (by omega))
  have hg : nestedLabelsGraph ∈ graphs nestedLabels := by decide +kernel
  have hn : 2 < nestedLabelsGraph.nodes.size := by decide +kernel
  exact ⟨hclauses, hg, hn, leadsOn hclauses hg hn (by decide)⟩

/-- No edge leaves the block of the `continue`. -/
theorem noWayOn_of_nestedLabels :
    nestedLabelsGraph ∈ graphs nestedLabels ∧ 3 < nestedLabelsGraph.nodes.size ∧ 3 ≠ exitNode ∧
      ∀ e ∈ nestedLabelsGraph.edges.toList, e.source ≠ 3 := by
  decide +kernel

end Mend.Flow
