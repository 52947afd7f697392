import Mend.Proofs.Flow.LeadsOn
import Mend.Proofs.Flow.Placement

/-!
# Edges to the exit

Where the edges to the exit come from that laying out a statement adds: from returns, from whatever has the exit
for its handler, and from the bodies of `try` statements that have no clauses (`Stmt.Admits`). A `throw` leads to
the exit only where there is no handler. The jumps under way leave the blocks of `break` and `continue` statements
(`Stmt.layOut_shown`).
-/

namespace Mend.Flow

mutual

/-- Of a return, `E` holds; of what a `try` statement without clauses does not catch, too; of jumps, `L` holds. -/
def Stmt.Admits (E : EdgeKind → Role → Prop) (L : Nat → Prop) : Stmt → Prop
  | .skip | .plain _ | .throw _ => True
  | .ret node => E .unconditional (.block, node)
  | .jump node _ _ => L node
  | .seq first rest => first.Admits E L ∧ rest.Admits E L
  | .branch _ _ onTrue onFalse => onTrue.Admits E L ∧ onFalse.Admits E L
  | .whileLoop _ _ _ body | .doLoop _ _ _ body | .forLoop _ _ _ _ _ body | .forEach _ _ _ body
  | .labelled _ _ body => body.Admits E L
  | .switch _ _ clauses => clauses.Admits E L
  | .tryCatch _ body catchNode catchBody finallyNode finallyBody =>
    (catchNode = none → finallyNode = none → ∀ p ∈ body.census, E .exception p) ∧
      body.Admits E L ∧ catchBody.Admits E L ∧ finallyBody.Admits E L

/-- The same of the statements in clauses. -/
def Clauses.Admits (E : EdgeKind → Role → Prop) (L : Nat → Prop) : Clauses → Prop
  | .nil => True
  | .onCase _ body rest | .onDefault body rest => body.Admits E L ∧ rest.Admits E L
  | .gap rest => rest.Admits E L

end

/-- Where exceptions go to the exit, `E` holds of the roles. -/
def Context.Lets (c : Context) (E : EdgeKind → Role → Prop) (w : List Role) : Prop :=
  c.handler.getD exitNode = exitNode → ∀ p ∈ w, E .exception p

variable {E : EdgeKind → Role → Prop} {L : Nat → Prop} {c : Context} {d d' d'' : Draft} {kind : NodeKind}
  {ast : Nat} {ways : List Way} {v w : List Role}

/-- What lets the more through lets the fewer through. -/
lemma Context.Lets.mono (h : c.Lets E w) (hv : v ⊆ w) : c.Lets E v := fun hc p hp => h hc p (hv hp)

/-- On the way from `d` to `d'`, edges to the exit were added as `E` says. -/
structure Draft.Shows (E : EdgeKind → Role → Prop) (d d' : Draft) : Prop where
  two_le : 2 ≤ d.size
  extend : d.Extends d'
  exits : ∀ e ∈ d'.edges.toList, e.target = exitNode →
    e ∈ d.edges.toList ∨ ∃ p, E e.kind p ∧ Plays d'.nodes e.source p

namespace Draft

namespace Shows

/-- A draft of two nodes shows itself. -/
lemma refl (h : 2 ≤ d.size) : d.Shows E d := ⟨h, .refl d, fun _ he _ => .inl he⟩

/-- The later draft has its entry and exit as well. -/
lemma two_le' (h : d.Shows E d') : 2 ≤ d'.size := Nat.le_trans h.two_le h.extend.size_le

/-- Showing is transitive. -/
lemma trans (h : d.Shows E d') (h' : d'.Shows E d'') : d.Shows E d'' where
  two_le := h.two_le
  extend := h.extend.trans h'.extend (fun _ => .inl) fun _ => .inl
  exits e he hexit := by
    rcases h'.exits e he hexit with he | hnew
    · rcases h.exits e he hexit with he | ⟨p, hE, hp⟩
      · exact .inl he
      · exact .inr ⟨p, hE, h'.extend.plays hp⟩
    · exact .inr hnew

/-- Closing the block adds no edge to show. -/
lemma close (h : d.Shows E d') : d.Shows E d'.close := ⟨h.two_le, h.extend.close, h.exits⟩

/-- Edges to another node than the entry and exit need no showing. -/
lemma connect (h : d.Shows E d') (ways : List Way) {n : Nat} (hn : 2 ≤ n) (b : Bool) :
    d.Shows E (d'.connect ways n b) where
  two_le := h.two_le
  extend := h.extend.connect ways n b
  exits e he hexit := by
    rw [edges_connect, List.mem_append] at he
    rcases he with he | he
    · exact h.exits e he hexit
    · obtain ⟨w, -, rfl⟩ := List.mem_map.1 he
      exact absurd hexit (Nat.ne_of_gt hn)

/-- Ways are connected to the exit. -/
lemma exit (h : d.Shows E d') {ways : List Way}
    (hways : ∀ w ∈ ways, ∃ p, E w.kind p ∧ Plays d'.nodes w.source p) :
    d.Shows E (d'.connect ways exitNode false) where
  two_le := h.two_le
  extend := h.extend.connect ways exitNode false
  exits e he hexit := by
    rw [edges_connect, List.mem_append] at he
    rcases he with he | he
    · exact h.exits e he hexit
    · obtain ⟨w, hw, rfl⟩ := List.mem_map.1 he
      exact .inr (hways w hw)

/-- The edge to the handler of a node that plays a role. -/
lemma of_addNode (h : d.Shows E d') {p : Role} (hc : c.Lets E [p]) (hd : d'.Extends d'')
    (hp : Plays d''.nodes d'.size p)
    (hedges : ∀ e ∈ d''.edges.toList, e ∈ d'.edges.toList ∨ e ∈ handlerEdges c d'.size ∨ e.target = d'.size) :
    d.Shows E d'' := by
  refine h.trans ⟨h.two_le', hd, fun e he hexit => ?_⟩
  rcases hedges e he with he | he | he
  · exact .inl he
  · obtain ⟨x, hx, rfl⟩ := List.mem_map.1 he
    cases hexit
    refine .inr ⟨p, hc ?_ p (List.mem_singleton_self p), hp⟩
    rw [Option.mem_toList.1 hx]
    rfl
  · exact absurd (hexit.symm.trans he) (Nat.ne_of_lt h.two_le')

/-- A new target is shown if the context lets its node through. -/
lemma addTarget (h : d.Shows E d') (hk : kind ≠ .block) (hc : c.Lets E [(kind, ast)]) :
    d.Shows E (d'.addTarget c kind ast ways).1 := by
  refine h.of_addNode hc ?_ (Grows.plays_addTarget (.refl (fun _ => True) (fun _ => True) _) hk) fun e he => ?_
  · exact (Grows.refl _ _ d').addTarget kind ast (fun _ _ => .inl trivial) fun _ _ => .inl trivial
  · rw [addTarget_fst, edges_connect, edges_addNode, List.mem_append, List.mem_append] at he
    rcases he with (he | he) | he
    · exact .inl he
    · exact .inr (.inl he)
    · obtain ⟨w, -, rfl⟩ := List.mem_map.1 he
      exact .inr (.inr rfl)

/-- The node of a clause is shown if the context lets its handler through. -/
lemma addClause (h : d.Shows E d') (clause : Option Nat) (hc : c.Lets E (clause.toList.map (.handler, ·))) :
    d.Shows E (d'.addClause c clause).1 := by
  cases clause with
  | none => exact h
  | some ast =>
    refine h.of_addNode (p := (.handler, ast)) hc ?_ ?_ fun e he => ?_
    · exact (Grows.refl _ _ d').addNode .handler ast fun _ _ => .inl trivial
    · exact ⟨⟨.handler, ast, []⟩, by simp [Draft.addClause, size], by simp [Node.roles]⟩
    · rw [Draft.addClause, Option.elim_some, edges_addNode, List.mem_append] at he
      exact he.imp_right .inl

/-- A block for one statement is shown if the context lets it through. -/
lemma plain (h : d.Shows E d') (ways : List Way) (hc : c.Lets E [(.block, ast)]) :
    d.Shows E (d'.plain c ast ways).1 := by
  cases hb : d'.openBlock? ways with
  | some block =>
    rw [plain_of_openBlock?_eq_some d' c ast ways hb]
    refine h.trans ⟨h.two_le', ?_, fun e he _ => .inl he⟩
    exact (Grows.refl _ _ d').append ast (.inl (openBlock?_eq_some d' ways hb).1)
  | none =>
    have hd : d'.Extends (d'.plain c ast ways).1 :=
      ((Grows.refl _ _ d').plain ast (fun _ _ => .inl trivial) fun _ _ => .inl trivial).1
    rw [plain_of_openBlock?_eq_none d' c ast ways hb] at hd ⊢
    refine h.of_addNode hc hd ?_ fun e he => ?_
    · refine ⟨⟨.block, ast, [ast]⟩, ?_, by simp [Node.roles]⟩
      rw [nodes_reopen, nodes_connect, getElem?_append, if_pos rfl, nodes_addNode]
      simp [size, Node.extend]
    · rw [edges_reopen, edges_connect, edges_append, edges_addNode, List.mem_append, List.mem_append] at he
      rcases he with (he | he) | he
      · exact .inl he
      · exact .inr (.inl he)
      · obtain ⟨w, -, rfl⟩ := List.mem_map.1 he
        exact .inr (.inr rfl)

/-- The same for a part that may be missing. -/
lemma plain? (h : d.Shows E d') (part : Option Nat) (ways : List Way)
    (hc : c.Lets E (part.toList.map (.block, ·))) : d.Shows E (d'.plain? c part ways).1 := by
  cases part with
  | none => exact h
  | some ast => exact h.plain ways hc

end Shows

/-- A plain statement is left without condition. -/
lemma kind_plain (d : Draft) (c : Context) (ast : Nat) (ways : List Way) :
    ∀ w ∈ (d.plain c ast ways).2, w.kind = .unconditional := by
  intro w hw
  cases hb : d.openBlock? ways with
  | some block =>
    rw [plain_of_openBlock?_eq_some d c ast ways hb] at hw
    obtain ⟨-, way, rfl, -, hkind⟩ := openBlock?_eq_some d ways hb
    rw [List.mem_singleton.1 hw, hkind]
  | none =>
    rw [plain_of_openBlock?_eq_none d c ast ways hb] at hw
    rw [List.mem_singleton.1 hw]
    rfl

/-- The ways out of a statement that control passes through leave the block that holds it. -/
lemma plays_plain (h : d.OpensBlock c) (ast : Nat) (ways : List Way) :
    ∀ w ∈ (d.plain c ast ways).2, Plays (d.plain c ast ways).1.nodes w.source (.block, ast) := by
  intro w hw
  obtain ⟨⟨x, hx, hk, hlast⟩, -⟩ := (plain_spec h ast ways).2 w hw
  refine ⟨x, hx, ?_⟩
  rw [Node.roles, if_pos hk]
  exact List.mem_map_of_mem (List.mem_of_getLast? hlast)

end Draft

/-- A jump leaves a block that holds a statement with the property `L`. -/
def Jump.Stems (L : Nat → Prop) (d : Draft) (j : Jump) : Prop :=
  ∃ k, L k ∧ Plays d.nodes j.way.source (.block, k)

/-- A jump stems from the same block in every later draft. -/
lemma Jump.Stems.later {j : Jump} (h : j.Stems L d) (hd : d.Extends d') : j.Stems L d' := by
  obtain ⟨k, hk, hp⟩ := h
  exact ⟨k, hk, hd.plays hp⟩

/-- A layout with edges to the exit as `E` says, and with jumps as `L` says. -/
structure Layout.Shown (E : EdgeKind → Role → Prop) (L : Nat → Prop) (d : Draft) (l : Layout) : Prop where
  shows : d.Shows E l.draft
  jumps : ∀ j ∈ l.jumps, j.Stems L l.draft

/-- Where no block is open, laying out a statement adds edges to the exit as `E` says. -/
def Stmt.Show (E : EdgeKind → Role → Prop) (L : Nat → Prop) (c : Context) (s : Stmt) : Prop :=
  ∀ (d : Draft) (ways : List Way), 2 ≤ d.size → d.current = none → c.Lets E s.census →
    (s.layOut c d ways).Shown E L d

namespace Layout.Shown

variable {l k : Layout} {body : Stmt}

/-- What is shown from a later draft on is shown from an earlier one. -/
lemma before (h : d.Shows E d') (hl : l.Shown E L d') : l.Shown E L d := ⟨h.trans hl.shows, hl.jumps⟩

/-- What comes after picks up jumps. -/
lemma after (hl : l.Shown E L d) (h : l.draft.Shows E d') (outs : List Way) {jumps : List Jump}
    (hjumps : jumps ⊆ l.jumps) : Layout.Shown E L d ⟨d', outs, jumps⟩ :=
  ⟨hl.shows.trans h, fun j hj => (hl.jumps j (hjumps hj)).later h.extend⟩

/-- Two layouts in a row show what both do, with the jumps of both. -/
lemma append (hl : l.Shown E L d) (hk : k.Shown E L l.draft) (outs : List Way) :
    Layout.Shown E L d ⟨k.draft, outs, l.jumps ++ k.jumps⟩ where
  shows := hl.shows.trans hk.shows
  jumps := List.forall_mem_append.2 ⟨fun j hj => (hl.jumps j hj).later hk.shows.extend, hk.jumps⟩

/-- A layout shows its own draft. -/
lemma here (hl : l.Shown E L d) : l.draft.Shows E l.draft := .refl hl.shows.two_le'

/-- Closing the block after a layout changes nothing shown. -/
lemma close (hl : l.Shown E L d) (outs : List Way) : Layout.Shown E L d ⟨l.draft.close, outs, l.jumps⟩ :=
  hl.after hl.here.close outs (List.Subset.refl _)

/-- Leading a layout into a clause adds no edge to the exit. -/
lemma into (hl : l.Shown E L d) {clause : Option Nat} (hn : ∀ n, clause = some n → 2 ≤ n) :
    (l.into clause).Shown E L d := by
  cases clause with
  | none => exact hl
  | some n => exact hl.after (hl.here.connect _ (hn n rfl) false) [] (List.Subset.refl _)

/-- A clause laid out behind a layout is shown with it. -/
lemma clause (hl : l.Shown E L d) {clause : Option Nat} (hbody : body.Show E L c)
    (hc : clause.isSome = true → c.Lets E body.census) : (body.layOutClause c l clause).Shown E L d := by
  cases clause with
  | none => exact hl
  | some n => exact (hl.close []).append (hbody l.draft.close [.plain n] hl.shows.two_le' rfl (hc rfl)) _

end Layout.Shown

section

variable {node : Nat} {label : Option String} {condition : Option Nat} {body : Stmt}

/-- A loop with its test at the head is shown. -/
lemma shown_headLoop {frame : Frame} {way : Way} (hbody : body.Show E L (c.enter frame)) (h2 : 2 ≤ d.size)
    (hc : c.Lets E ((.branch, node) :: body.census)) (depth : Nat) (outs : List Way) :
    let l := body.layOut (c.enter frame) (d.addTarget c .branch node ways).1 [way]
    Layout.Shown E L d
      ⟨((l.draft.connect l.outs d.size true).connect (l.continues depth) d.size true).close, outs,
        l.passing depth⟩ := by
  have hb : d.Shows E (d.addTarget c .branch node ways).1 :=
    (Draft.Shows.refl h2).addTarget (by decide) (hc.mono (by simp))
  have hl := hbody _ [way] hb.two_le' (Draft.current_addTarget ..)
    (Context.Lets.mono (c := c) hc (List.subset_cons_self _ _))
  have hl := hl.before hb
  exact hl.after ((hl.here.connect _ h2 true).connect _ h2 true).close outs (Layout.passing_subset _ _)

/-- A `for` loop is shown. -/
lemma shown_forLoop {start step : Option Nat} (hbody : body.Show E L (c.enter ⟨label, true, true⟩))
    (h2 : 2 ≤ d.size) (hc : c.Lets E (Stmt.forLoop node label start condition step body).census) :
    ((Stmt.forLoop node label start condition step body).layOut c d ways).Shown E L d := by
  rw [layOut_forLoop]
  extract_lets p head l q
  have hbodyCensus : c.Lets E body.census :=
    hc.mono fun p hp => List.mem_append_right _ (List.mem_cons_of_mem _ (List.mem_append_left _ hp))
  have hstepCensus : c.Lets E (step.toList.map (.block, ·)) :=
    hc.mono fun p hp => List.mem_append_right _ (List.mem_cons_of_mem _ (List.mem_append_right _ hp))
  have hp : d.Shows E p.1 := (Draft.Shows.refl h2).plain? start ways (hc.mono (List.subset_append_left _ _))
  have hb : d.Shows E (p.1.addTarget c (if condition.isSome then .branch else .loopHead) node p.2).1 :=
    hp.addTarget (by split <;> decide) (hc.mono (by simp [Stmt.census]))
  have hl : l.Shown E L d :=
    .before hb (hbody _ _ hb.two_le' (Draft.current_addTarget ..) hbodyCensus)
  have hq : l.draft.Shows E q.1 := hl.here.close.plain? step (l.outs ++ l.continues c.frames.length) hstepCensus
  exact hl.after (hq.connect _ hp.two_le' true).close _ (Layout.passing_subset _ _)

/-- A `try` statement with its clauses is shown. -/
lemma shown_tryCatch {catchNode finallyNode : Option Nat} {catchBody finallyBody : Stmt}
    (hbody : ∀ handler, body.Show E L { c with handler }) (hcatch : ∀ handler, catchBody.Show E L { c with handler })
    (hfinally : finallyBody.Show E L c) (h2 : 2 ≤ d.size)
    (hbare : catchNode = none → finallyNode = none → ∀ p ∈ body.census, E .exception p)
    (hc : c.Lets E (Stmt.tryCatch node body catchNode catchBody finallyNode finallyBody).census) :
    ((Stmt.tryCatch node body catchNode catchBody finallyNode finallyBody).layOut c d ways).Shown E L d := by
  rw [layOut_tryCatch]
  extract_lets catcher finisher b k f
  have hcatchSome : catcher.2.isSome = catchNode.isSome := Draft.isSome_addClause ..
  have hfinallySome : finisher.2.isSome = finallyNode.isSome := Draft.isSome_addClause ..
  obtain ⟨hgrows, hcatcher⟩ := (Draft.extends_close d).addClause (c := c) catchNode fun _ _ => .inl trivial
  obtain ⟨-, hfinisher⟩ := hgrows.addClause (c := c) finallyNode fun _ _ => .inl trivial
  have hcatcher : ∀ n, catcher.2 = some n → 2 ≤ n := fun n hn => Nat.le_trans h2 (hcatcher n hn).1
  have hfinisher : ∀ n, finisher.2 = some n → 2 ≤ n := fun n hn => Nat.le_trans h2 (hfinisher n hn).1
  have hstart : d.Shows E finisher.1 :=
    ((Draft.Shows.refl h2).close.addClause catchNode (hc.mono (by simp [Stmt.census]))).addClause finallyNode
      (hc.mono (by simp [Stmt.census]))
  have hclosed : finisher.1.current = none := by
    rw [Draft.current_addClause, Draft.current_addClause, Draft.current_close]
  -- The handler is the exit only where there are no clauses.
  have hb : b.Shown E L finisher.1 := by
    refine hbody _ _ _ hstart.two_le' hclosed fun hexit => ?_
    cases hx : catcher.2.or finisher.2 with
    | none =>
      obtain ⟨hnone, hnone'⟩ := Option.or_eq_none_iff.1 hx
      rw [hnone] at hcatchSome
      rw [hnone'] at hfinallySome
      exact hbare (by simpa using hcatchSome.symm) (by simpa using hfinallySome.symm)
    | some n =>
      have hn : 2 ≤ n := (Option.or_eq_some_iff.1 hx).elim (hcatcher n) fun h => hfinisher n h.2
      rw [hx] at hexit
      exact absurd hexit (Nat.ne_of_gt hn)
  have hk : k.Shown E L d := by
    refine (hb.before hstart).clause (hcatch _) fun hsome hexit => ?_
    cases hx : finisher.2 with
    | none =>
      rw [hx] at hexit
      rw [hcatchSome] at hsome
      obtain ⟨n, hn⟩ := Option.isSome_iff_exists.1 hsome
      exact fun p hp => hc hexit p (by simp [Stmt.census, hn, hp])
    | some n =>
      rw [hx] at hexit
      exact absurd hexit (Nat.ne_of_gt (hfinisher n hx))
  refine ((hk.into hfinisher).clause hfinally fun hsome => ?_).close _
  rw [hfinallySome] at hsome
  obtain ⟨n, hn⟩ := Option.isSome_iff_exists.1 hsome
  exact hc.mono fun p hp => by simp [Stmt.census, hn, hp]

end

mutual

/-- Laying out a statement adds edges to the exit as `E` says, and its jumps are as `L` says. -/
theorem Stmt.layOut_shown (c : Context) (d : Draft) (ways : List Way) (s : Stmt) (hs : s.Admits E L)
    (h2 : 2 ≤ d.size) (hd : d.OpensBlock c) (hc : c.Lets E s.census) :
    (s.layOut c d ways).Shown E L d ∧ (s.layOut c d ways).draft.OpensBlock c := by
  have hstart : d.Shows E d := .refl h2
  match s with
  | .skip => exact ⟨⟨hstart, nofun⟩, hd⟩
  | .seq first rest =>
    obtain ⟨hf, hfopen⟩ := first.layOut_shown c d ways hs.1 h2 hd (hc.mono (List.subset_append_left _ _))
    obtain ⟨hr, hropen⟩ := rest.layOut_shown c _ (first.layOut c d ways).outs hs.2 hf.shows.two_le' hfopen
      (hc.mono (List.subset_append_right _ _))
    rw [Stmt.layOut]
    exact ⟨hf.append hr _, hropen⟩
  | .plain node => exact ⟨⟨hstart.plain ways hc, nofun⟩, (Draft.plain_spec hd node ways).1⟩
  | .ret node =>
    refine ⟨⟨((hstart.plain ways hc).exit fun w hw => ⟨(.block, node), ?_, ?_⟩).close, nofun⟩, .of_closed rfl⟩
    · rw [Draft.kind_plain d c node ways w hw]
      exact hs
    · exact Draft.plays_plain hd node ways w hw
  | .throw node =>
    refine ⟨⟨((hstart.plain ways hc).exit fun w hw => ⟨(.block, node), ?_⟩).close, nofun⟩, .of_closed rfl⟩
    split at hw
    · cases hw
    · next hhandler =>
      obtain ⟨v, hv, rfl⟩ := List.mem_map.1 hw
      refine ⟨hc ?_ _ (List.mem_singleton_self _), Draft.plays_plain hd node ways v hv⟩
      cases hh : c.handler with
      | none => rfl
      | some h => simp [hh] at hhandler
  | .jump node isContinue label =>
    rw [Stmt.layOut]
    cases c.target? isContinue label with
    | none => exact ⟨⟨(hstart.plain ways hc).close, nofun⟩, .of_closed rfl⟩
    | some depth =>
      refine ⟨⟨(hstart.plain ways hc).close, fun j hj => ?_⟩, .of_closed rfl⟩
      obtain ⟨w, hw, rfl⟩ := List.mem_map.1 hj
      exact ⟨node, hs, Draft.plays_plain hd node ways w hw⟩
  | .branch node condition onTrue onFalse =>
    have hb : d.Shows E (d.addTarget c .branch node ways).1 :=
      hstart.addTarget (by decide) (hc.mono (by simp [Stmt.census]))
    rw [layOut_branch]
    extract_lets t f
    obtain ⟨ht, -⟩ := onTrue.layOut_shown c (d.addTarget c .branch node ways).1
      [.guarded d.size .onTrue condition] hs.1 hb.two_le' (.of_closed (Draft.current_addTarget ..))
      (hc.mono (by simp [Stmt.census]))
    have ht : t.Shown E L d := .before hb ht
    obtain ⟨hf, -⟩ := onFalse.layOut_shown c t.draft.close [.guarded d.size .onFalse condition] hs.2
      ht.shows.two_le' (.of_closed rfl) (hc.mono (by simp [Stmt.census]))
    exact ⟨((ht.close []).append hf []).close _, .of_closed rfl⟩
  | .whileLoop node label condition body =>
    rw [layOut_whileLoop]
    exact ⟨shown_headLoop (fun d ways h2 h hc => (body.layOut_shown _ d ways hs h2 (.of_closed h) hc).1) h2 hc _ _,
      .of_closed rfl⟩
  | .doLoop node label condition body =>
    have hb : d.Shows E (d.addTarget c .loopHead node ways).1 :=
      hstart.addTarget (by decide) (hc.mono (by simp [Stmt.census]))
    obtain ⟨hl, -⟩ := body.layOut_shown (c.enter ⟨label, true, true⟩) (d.addTarget c .loopHead node ways).1
      [.plain d.size] hs hb.two_le' (.of_closed (Draft.current_addTarget ..))
      (Context.Lets.mono (c := c) hc (by simp [Stmt.census]))
    rw [layOut_doLoop]
    extract_lets l test
    have hl : l.Shown E L d := .before hb hl
    have htest : l.draft.Shows E (l.draft.addTarget c .branch (condition.getD node) l.outs).1 :=
      hl.here.addTarget (by decide) (hc.mono (by simp [Stmt.census]))
    exact ⟨hl.after ((htest.connect _ hl.shows.two_le' false).connect _ h2 true).close _
      (Layout.passing_subset _ _), .of_closed rfl⟩
  | .forLoop node label start condition step body =>
    exact ⟨shown_forLoop (fun d ways h2 h hc => (body.layOut_shown _ d ways hs h2 (.of_closed h) hc).1) h2 hc,
      by rw [layOut_forLoop]; exact .of_closed rfl⟩
  | .forEach node label iterated body =>
    rw [layOut_forEach]
    exact ⟨shown_headLoop (fun d ways h2 h hc => (body.layOut_shown _ d ways hs h2 (.of_closed h) hc).1) h2 hc _ _,
      .of_closed rfl⟩
  | .switch node selector clauses =>
    have hb : d.Shows E (d.addTarget c .branch node ways).1 :=
      hstart.addTarget (by decide) (hc.mono (by simp [Stmt.census]))
    have hl := clauses.layOut_shown (c.enter ⟨none, false, true⟩) d.size selector
      (d.addTarget c .branch node ways).1 [] hs hb.two_le' (Context.Lets.mono (c := c) hc (by simp [Stmt.census]))
    rw [layOut_switch]
    exact ⟨(Layout.Shown.before hb hl).after hl.here.close _ (Layout.passing_subset _ _), .of_closed rfl⟩
  | .tryCatch node body catchNode catchBody finallyNode finallyBody =>
    exact ⟨shown_tryCatch
      (fun _ d ways h2 h hc => (body.layOut_shown _ d ways hs.2.1 h2 (.of_closed h) hc).1)
      (fun _ d ways h2 h hc => (catchBody.layOut_shown _ d ways hs.2.2.1 h2 (.of_closed h) hc).1)
      (fun d ways h2 h hc => (finallyBody.layOut_shown c d ways hs.2.2.2 h2 (.of_closed h) hc).1) h2 hs.1 hc,
      by rw [layOut_tryCatch]; exact .of_closed rfl⟩
  | .labelled node label body =>
    obtain ⟨hl, -⟩ := body.layOut_shown (c.enter ⟨label, false, false⟩) d.close ways hs h2 (.of_closed rfl) hc
    rw [layOut_labelled]
    exact ⟨(Layout.Shown.before hstart.close hl).after hl.here.close _ (Layout.passing_subset _ _),
      .of_closed rfl⟩
termination_by structural s

/-- The clauses of a `switch` are shown. -/
theorem Clauses.layOut_shown (c : Context) (branch : Nat) (selector : Option Nat) (d : Draft)
    (falling : List Way) (s : Clauses) (hs : s.Admits E L) (h2 : 2 ≤ d.size) (hc : c.Lets E s.census) :
    (s.layOut c branch selector d falling).Shown E L d := by
  have hstart : d.Shows E d := .refl h2
  match s with
  | .nil => exact ⟨hstart, nofun⟩
  | .onCase value body rest =>
    obtain ⟨hb, -⟩ := body.layOut_shown c d.close (falling ++ [⟨branch, .onCase, selector, value⟩]) hs.1 h2
      (.of_closed rfl) (hc.mono (List.subset_append_left _ _))
    have hr := rest.layOut_shown c branch selector _
      (body.layOut c d.close (falling ++ [⟨branch, .onCase, selector, value⟩])).outs hs.2 hb.shows.two_le'
      (hc.mono (List.subset_append_right _ _))
    rw [Clauses.layOut]
    exact (Layout.Shown.before hstart.close hb).append hr _
  | .onDefault body rest =>
    obtain ⟨hb, -⟩ := body.layOut_shown c d.close (falling ++ [.guarded branch .onDefault selector]) hs.1 h2
      (.of_closed rfl) (hc.mono (List.subset_append_left _ _))
    have hr := rest.layOut_shown c branch selector _
      (body.layOut c d.close (falling ++ [.guarded branch .onDefault selector])).outs hs.2 hb.shows.two_le'
      (hc.mono (List.subset_append_right _ _))
    rw [Clauses.layOut]
    exact (Layout.Shown.before hstart.close hb).append hr _
  | .gap rest =>
    rw [Clauses.layOut]
    exact rest.layOut_shown c branch selector d [] hs h2 hc
termination_by structural s

end

end Mend.Flow

namespace Mend.Syntax.Ast

open Mend.Flow (Stmt Clauses Role EdgeKind)

variable {a : Ast} {i : Nat} {label : Option String} {S : Nat → Prop} {E : EdgeKind → Role → Prop} {L : Nat → Prop}

/-- A `try` statement without clauses, with its body. -/
def IsBareTry (a : Ast) (i body : Nat) : Prop :=
  a.kind i = "try_statement" ∧ a.child? i "body" = some body ∧ a.child? i "handler" = none ∧
    a.child? i "finalizer" = none

/-- What leads to the exit among the nodes in `S`, a handler around them or not: a return, and an exception in the
body of a `try` statement without clauses. -/
def Unhandled (a : Ast) (S : Nat → Prop) (kind : EdgeKind) (p : Role) : Prop :=
  (kind = .unconditional ∧ p.1 = .block ∧ a.kind p.2 = "return_statement" ∧ S p.2) ∨
    (kind = .exception ∧ ∃ i body, S i ∧ a.IsBareTry i body ∧ a.contains body p.2 = true)

/-- A `break` or `continue` among the nodes in `S`. -/
def IsHop (a : Ast) (S : Nat → Prop) (i : Nat) : Prop :=
  (a.kind i = "break_statement" ∨ a.kind i = "continue_statement") ∧ S i

/-- A statement that may be missing is admitted if it is when present. -/
lemma admits_stmt? {o : Option Nat} (h : ∀ j, o = some j → (a.stmt j label).Admits E L) :
    (a.stmt? o label).Admits E L :=
  stmt?_of (P := (·.Admits E L)) trivial h

/-- Statements in a row are admitted if each is. -/
lemma admits_ofList {l : List Stmt} (h : ∀ s ∈ l, s.Admits E L) : (Stmt.ofList l).Admits E L := by
  induction l with
  | nil => trivial
  | cons s l ih => exact ⟨h s List.mem_cons_self, ih fun t ht => h t (List.mem_cons_of_mem _ ht)⟩

/-- The statements of a clause are admitted if each part is. -/
lemma admits_clauseStmt {c : Nat} (h : ∀ j ∈ a.clauseParts c, (a.stmt j none).Admits E L) :
    (a.clauseStmt c).Admits E L :=
  clauseStmt_of (P := (·.Admits E L)) (fun _ => admits_ofList) trivial h

/-- The clauses of a `switch` are admitted if the statements of each are. -/
lemma admits_clauses {l : List Nat}
    (h : ∀ clause ∈ l, a.isClause clause = true → (a.clauseStmt clause).Admits E L) :
    (l.foldr a.addClause .nil).Admits E L :=
  clauses_of (P := (·.Admits E L)) (Q := (·.Admits E L)) trivial (fun _ _ _ => And.intro) (fun _ _ => And.intro)
    (fun _ _ _ _ => id) h

/-- The skeleton of a statement leads to the exit by what is unhandled in it, and jumps from its jumps. -/
lemma admits_stmt (h : ∀ j, a.contains i j = true → S j) : (a.stmt i label).Admits (a.Unhandled S) (a.IsHop S) := by
  induction i using laidParts_induction (a := a) generalizing label with
  | h i ih =>
    have hself : S i := h i (contains_self a i)
    have ih : ∀ j ∈ a.laidParts i, ∀ label, (a.stmt j label).Admits (a.Unhandled S) (a.IsHop S) := fun j hj label =>
      ih j hj fun k hk => h k (contains_trans (contains_of_mem_laidParts hj) hk)
    unfold laidParts partsWith at ih
    rw [stmt_eq, assembled]
    split
    all_goals rename_i hk
    all_goals simp only [hk] at ih
    · apply admits_ofList
      intro s hs
      obtain ⟨j, hj, rfl⟩ := List.mem_map.1 hs
      exact ih j hj none
    · exact ⟨admits_stmt? fun j hj => ih j (List.mem_append_left _ (Option.mem_toList.2 hj)) none,
        admits_stmt? fun j hj => ih j (List.mem_append_right _ (Option.mem_toList.2 hj)) none⟩
    iterate 4 exact admits_stmt? fun j hj => ih j (Option.mem_toList.2 hj) none
    · apply admits_clauses
      intro clause hclause hkind
      apply admits_clauseStmt
      intro j hj
      exact ih j (List.mem_flatMap.2 ⟨clause, List.mem_filter.2 ⟨hclause, hkind⟩, hj⟩) none
    · refine ⟨fun hcatch hfinally p hp => ?_, admits_stmt? fun j hj => ih j ?_ none,
        admits_stmt? fun j hj => ih j ?_ none, admits_stmt? fun j hj => ih j ?_ none⟩
      · rw [census_stmt?] at hp
        obtain ⟨body, hbody, hp⟩ := List.mem_flatMap.1 hp
        exact .inr ⟨rfl, i, body, hself, ⟨hk, Option.mem_toList.1 hbody, hcatch, hfinally⟩, contains_of_mem_census hp⟩
      · exact List.mem_append_left _ (List.mem_append_left _ (Option.mem_toList.2 hj))
      · exact List.mem_append_left _ (List.mem_append_right _ (Option.mem_toList.2 hj))
      · exact List.mem_append_right _ (Option.mem_toList.2 hj)
    · split
      · exact admits_stmt? fun j hj => ih j (Option.mem_toList.2 hj) _
      · exact admits_stmt? fun j hj => ih j (Option.mem_toList.2 hj) none
    · exact .inl ⟨rfl, rfl, hk, hself⟩
    · trivial
    · exact ⟨.inl hk, hself⟩
    · exact ⟨.inr hk, hself⟩
    · trivial

end Mend.Syntax.Ast
