import Mend.Proofs.Flow.Coverage
import Mend.Proofs.Flow.Growth
import Mend.Proofs.Flow.Jumps

/-!
# Statements in a finished graph

A statement stands in a finished draft (`Stmt.Stands`) if the draft went on from where the statement was laid
out. Nothing that comes later leads into the nodes of the statement: further edges lead to new nodes, or to
nodes that were there before. So control enters the statement by the ways into it only (`Placed.source`), and
on a walk to one of its nodes the last edge that is not inside the statement is one of those ways
(`Placed.leaves`).

Where a statement stands, the statements that it is made of stand too: one lemma per construct. A whole
function is followed from the outside to the inside.
-/

namespace Mend.Flow

/-- A walk along the edges of a graph. -/
def Graph.IsWalk (g : Graph) : Nat → List Edge → Nat → Prop
  | u, [], v => u = v
  | u, e :: path, v => e ∈ g.edges.toList ∧ e.source = u ∧ g.IsWalk e.target path v

/-- Whether edges make a walk. -/
def Graph.decideIsWalk (g : Graph) : (u : Nat) → (path : List Edge) → (v : Nat) → Decidable (g.IsWalk u path v)
  | u, [], v => inferInstanceAs (Decidable (u = v))
  | u, e :: path, v =>
    @instDecidableAnd _ _ (inferInstanceAs (Decidable (e ∈ g.edges.toList)))
      (@instDecidableAnd _ _ (inferInstanceAs (Decidable (e.source = u))) (g.decideIsWalk e.target path v))

instance (g : Graph) (u : Nat) (path : List Edge) (v : Nat) : Decidable (g.IsWalk u path v) :=
  g.decideIsWalk u path v

/-- The last time that a walk leaves a node is by an edge of this kind. -/
def LeavesBy (path : List Edge) (b : Nat) (kind : EdgeKind) : Prop :=
  ∃ before e after, path = before ++ e :: after ∧ e.source = b ∧ e.kind = kind ∧ ∀ e' ∈ after, e'.source ≠ b

/-- A walk to a set of nodes stays in it, or enters it for the last time. -/
lemma Graph.IsWalk.enters {g : Graph} {P : Nat → Prop} {u v : Nat} {path : List Edge}
    (h : g.IsWalk u path v) (hv : P v) :
    (P u ∧ ∀ e ∈ path, P e.source) ∨ ∃ before e after, path = before ++ e :: after ∧
      e ∈ g.edges.toList ∧ ¬ P e.source ∧ P e.target ∧ ∀ e' ∈ after, P e'.source := by
  induction path generalizing u with
  | nil =>
    cases h
    exact .inl ⟨hv, nofun⟩
  | cons e path ih =>
    obtain ⟨he, rfl, h⟩ := h
    rcases ih h with ⟨ht, hpath⟩ | ⟨before, e', after, rfl, he', hs, ht, hafter⟩
    · by_cases hs : P e.source
      · exact .inl ⟨hs, List.forall_mem_cons.2 ⟨hs, hpath⟩⟩
      · exact .inr ⟨[], e, path, rfl, he, hs, ht, hpath⟩
    · exact .inr ⟨e :: before, e', after, rfl, he', hs, ht, hafter⟩

namespace Draft

/-- The entry, the exit and the node that exceptions go to are there, and edges lead to nodes. -/
structure Sound (d : Draft) (handler : Option Nat) : Prop where
  two_le : 2 ≤ d.size
  handled : ∀ n, handler = some n → n < d.size
  targets : ∀ e ∈ d.edges.toList, e.target < d.size

/-- On the way from `d'` to `d''` nothing leads into what was added between `d` and `d'`. -/
abbrev Spares (d d' d'' : Draft) : Prop := d'.Grows (· < d.size) (fun _ => True) d''

/-- What was added between `d` and `d'` stands in a draft that went on from there. -/
structure Placed (final : Draft) (c : Context) (d d' : Draft) : Prop where
  sound : d.Sound c.handler
  later : d.Spares d' final

variable {final d d' d₁ d₂ : Draft} {c c' : Context} {handler : Option Nat} {W : Way → Prop}

namespace Sound

/-- What a context reaches is there. -/
lemma reaches (h : d.Sound c.handler) {n : Nat} (hn : c.Reaches n) : n < d.size := by
  rcases hn with rfl | hn
  · exact h.two_le
  · exact h.handled n hn

/-- The handler in force is there already. -/
lemma old (h : d.Sound handler) : ∀ n, handler = some n → n < d.size ∨ d₁.Added d₂ n :=
  fun n hn => .inl (h.handled n hn)

/-- A draft that grows stays sound. -/
lemma grow (h : d.Sound handler) (hg : d.Grows (· < d.size) W d') : d'.Sound handler where
  two_le := Nat.le_trans h.two_le hg.size_le
  handled n hn := Nat.lt_of_lt_of_le (h.handled n hn) hg.size_le
  targets e he := by
    obtain ⟨new, heq, hnew⟩ := hg.edges
    rw [heq, List.mem_append] at he
    rcases he with he | he
    · exact Nat.lt_of_lt_of_le (h.targets e he) hg.size_le
    · rcases (hnew e he).target with ht | ht
      · exact ht.2
      · exact Nat.lt_of_lt_of_le ht hg.size_le

/-- A draft is sound for another handler that is there. -/
lemma handledBy {other : Option Nat} (h : d.Sound handler) (hother : ∀ n, other = some n → n < d.size) :
    d.Sound other :=
  ⟨h.two_le, hother, h.targets⟩

/-- Closing a block keeps a draft sound. -/
lemma close (h : d.Sound handler) : d.close.Sound handler := ⟨h.two_le, h.handled, h.targets⟩

/-- So does adding a target. -/
lemma addTarget (h : d.Sound c.handler) (kind : NodeKind) (ast : Nat) (ways : List Way) :
    (d.addTarget c kind ast ways).1.Sound c.handler :=
  h.grow ((Grows.refl _ (fun _ => True) d).addTarget kind ast h.old fun _ _ => .inl trivial)

/-- So does laying out a plain statement that may be missing. -/
lemma plain? (h : d.Sound c.handler) (part : Option Nat) (ways : List Way) :
    (d.plain? c part ways).1.Sound c.handler :=
  h.grow ((Grows.refl _ (fun _ => True) d).plain? part h.old fun _ _ => .inl trivial).1

/-- So does adding the node of a clause, which may then be a handler. -/
lemma addClause (h : d.Sound c.handler) (clause : Option Nat) :
    (d.addClause c clause).1.Sound c.handler ∧
      ∀ n, (d.addClause c clause).2 = some n → n < (d.addClause c clause).1.size := by
  obtain ⟨hg, hn⟩ := (Grows.refl _ (fun _ => True) d).addClause clause h.old
  exact ⟨h.grow hg, fun n h => (hn n h).2⟩

/-- With the nodes of its clauses a `try` statement has the handlers of its body and of its `catch` clause. -/
lemma clauses (h : d.Sound c.handler) (catchNode finallyNode : Option Nat) :
    let catcher := d.addClause c catchNode
    let finisher := catcher.1.addClause c finallyNode
    finisher.1.Sound c.handler ∧ finisher.1.Sound (some ((catcher.2.or finisher.2).getD exitNode)) ∧
      finisher.1.Sound (finisher.2.or c.handler) := by
  intro catcher finisher
  obtain ⟨hc, hcatcher⟩ := h.addClause catchNode
  obtain ⟨hf, hfinisher⟩ := hc.addClause finallyNode
  refine ⟨hf, hf.handledBy ?_, hf.handledBy fun n hn => ?_⟩
  · rintro n ⟨⟩
    cases hx : catcher.2.or finisher.2 with
    | none => exact hf.two_le
    | some m =>
      rcases Option.or_eq_some_iff.1 hx with hm | ⟨-, hm⟩
      · exact Nat.lt_of_lt_of_le (hcatcher m hm) (Draft.size_le_addClause catcher.1 c finallyNode)
      · exact hfinisher m hm
  · rcases Option.or_eq_some_iff.1 hn with hn | ⟨-, hn⟩
    · exact hfinisher n hn
    · exact hf.handled n hn

/-- Laying something out spares what was laid out before. -/
lemma spares (h : d.Sound c.handler) (hg : d₁.Grows c.Reaches W d₂) : d.Spares d₁ d₂ :=
  hg.mono (fun _ ht => .inl (h.reaches ht)) fun _ _ => trivial

/-- So does laying out a statement. -/
lemma layOut (h : d.Sound c.handler) (s : Stmt) (ways : List Way) :
    (s.layOut c d ways).draft.Sound c.handler :=
  h.grow (h.spares (s.layOut_grown c d ways).grows)

end Sound

/-- What spares some nodes spares fewer of them. -/
lemma Spares.widen (h : d.Spares d₁ d₂) (hle : d.size ≤ d'.size) : d'.Spares d₁ d₂ :=
  h.mono (fun _ ht => .inl (Nat.lt_of_lt_of_le ht hle)) fun _ => id

/-- What spares a draft in two steps spares it. -/
lemma Spares.trans {d₃ : Draft} (h : d.Spares d₁ d₂) (h' : d.Spares d₂ d₃) : d.Spares d₁ d₃ :=
  Grows.trans h h' (fun _ => .inl) fun _ => .inl

/-- Something inside of what stands in a draft stands there, too. -/
lemma Placed.inside (h : final.Placed c d d') (hsound : d₁.Sound c'.handler) (hle : d.size ≤ d₁.size)
    (hd : d₁.Spares d₂ d') : final.Placed c' d₁ d₂ where
  sound := hsound
  later := hd.trans (Spares.widen h.later hle)

/-- Edges to what stands in a draft come from within, or by a way into it. -/
lemma Placed.source (h : final.Placed c d d') (hd : d.Grows c.Reaches W d') {e : Edge}
    (he : e ∈ final.edges.toList) (ht : d.Added d' e.target) :
    d.Added d' e.source ∨ ∃ w, W w ∧ w.source = e.source ∧ w.kind = e.kind := by
  obtain ⟨new, hnew, hjoins⟩ := hd.edges
  obtain ⟨more, hmore, hlater⟩ := h.later.edges
  rw [hmore, hnew, List.mem_append, List.mem_append] at he
  rcases he with (he | he) | he
  · exact absurd (h.sound.targets e he) (Nat.not_lt.2 ht.1)
  · refine (hjoins e he).source.imp_right fun ⟨w, hw, hs, hk⟩ => ⟨w, hw, hs, hk.resolve_right fun hexit => ?_⟩
    have := ht.1
    have := h.sound.two_le
    rw [hexit, exitNode] at *
    omega
  · rcases (hlater e he).target with hnew | hold
    · exact absurd ht.2 (Nat.not_lt.2 hnew.1)
    · exact absurd hold (Nat.not_lt.2 ht.1)

/-- On a walk to what stands in a draft and can be entered from one node by one kind of edge only, the last edge
that leaves the node is of that kind. -/
lemma Placed.leaves (h : final.Placed c d d') (hd : d.Grows c.Reaches W d') {b : Nat} {kind : EdgeKind}
    (hW : ∀ w, W w → w.source = b ∧ w.kind = kind) (hb : b < d.size) {g : Graph} (hg : g.edges = final.edges)
    {m : Nat} (hm : d.Added d' m) {path : List Edge} (hpath : g.IsWalk entryNode path m) :
    LeavesBy path b kind := by
  rcases hpath.enters hm with ⟨hentry, -⟩ | ⟨before, e, after, rfl, he, hs, ht, hafter⟩
  · exact absurd (Nat.lt_of_lt_of_le Nat.two_pos h.sound.two_le) (Nat.not_lt.2 hentry.1)
  · rw [hg] at he
    obtain ⟨w, hw, hsource, hkind⟩ := (h.source hd he ht).resolve_left hs
    obtain ⟨rfl, rfl⟩ := hW w hw
    refine ⟨before, e, after, rfl, hsource.symm, hkind.symm, fun e' he' heq => ?_⟩
    exact absurd hb (Nat.not_lt.2 (heq ▸ (hafter e' he').1))

end Draft

open Draft (Grows Placed)

variable {final d : Draft} {c : Context} {ways : List Way} {node : Nat} {label : Option String}
  {condition : Option Nat} {body first rest onTrue onFalse : Stmt} {l : Layout}

/-- The parts of a sequence are placed where the sequence is. -/
lemma placed_seq (h : final.Placed c d ((Stmt.seq first rest).layOut c d ways).draft) :
    final.Placed c d (first.layOut c d ways).draft ∧
      final.Placed c (first.layOut c d ways).draft
        (rest.layOut c (first.layOut c d ways).draft (first.layOut c d ways).outs).draft := by
  have hf := first.layOut_grown c d ways
  have hr := rest.layOut_grown c (first.layOut c d ways).draft (first.layOut c d ways).outs
  rw [Stmt.layOut] at h
  constructor
  · exact h.inside h.sound (Nat.le_refl _) (h.sound.spares hr.grows)
  · exact h.inside (h.sound.layOut first ways) hf.grows.size_le (.refl _ _ _)

/-- The branches of an `if` are placed where it is. -/
lemma placed_branch (h : final.Placed c d ((Stmt.branch node condition onTrue onFalse).layOut c d ways).draft) :
    let head := (d.addTarget c .branch node ways).1
    let t := onTrue.layOut c head [.guarded d.size .onTrue condition]
    final.Placed c head t.draft ∧
      final.Placed c t.draft.close
        (onFalse.layOut c t.draft.close [.guarded d.size .onFalse condition]).draft := by
  intro head t
  have ht := (onTrue.layOut_grown c head [.guarded d.size .onTrue condition]).grows.size_le
  have hf := onFalse.layOut_grown c t.draft.close [.guarded d.size .onFalse condition]
  have hhead : head.Sound c.handler := h.sound.addTarget .branch node ways
  have hle : d.size ≤ head.size := by simp [head]
  rw [layOut_branch] at h
  constructor
  · refine h.inside hhead hle ?_
    exact ((Grows.refl _ _ t.draft).close.trans (hhead.spares hf.grows) (fun _ => .inl) fun _ => .inl).close
  · exact h.inside (hhead.layOut onTrue _).close (Nat.le_trans hle ht) (.close (.refl _ _ _))

/-- The body of a `do` loop is placed where the loop is. -/
lemma placed_doLoop (h : final.Placed c d ((Stmt.doLoop node label condition body).layOut c d ways).draft) :
    let head := (d.addTarget c .loopHead node ways).1
    let l := body.layOut (c.enter ⟨label, true, true⟩) head [.plain d.size]
    final.Placed (c.enter ⟨label, true, true⟩) head l.draft ∧
      final.Placed c l.draft ((l.draft.addTarget c .branch (condition.getD node) l.outs).1.connect
        (l.continues c.frames.length) l.draft.size false) := by
  intro head l
  have hl := (body.layOut_grown (c.enter ⟨label, true, true⟩) head [.plain d.size]).grows.size_le
  have hhead : head.Sound c.handler := h.sound.addTarget .loopHead node ways
  have hlt : d.size < head.size := by simp [head]
  rw [layOut_doLoop] at h
  constructor
  · refine h.inside hhead (Nat.le_of_lt hlt) ?_
    have htest : head.Spares l.draft (l.draft.addTarget c .branch (condition.getD node) l.outs).1 :=
      (Grows.refl _ _ _).addTarget .branch _ hhead.old fun _ _ => .inl trivial
    have hcontinues := htest.connect (l.continues c.frames.length) false (n := l.draft.size)
      (.inr ⟨Nat.le_refl _, by simp⟩) fun _ _ => .inl trivial
    exact (hcontinues.connect _ true (.inl hlt) fun _ _ => .inl trivial).close
  · have hbody : l.draft.Sound c.handler := hhead.layOut (c := c.enter ⟨label, true, true⟩) body _
    refine h.inside hbody (Nat.le_trans (Nat.le_of_lt hlt) hl) ?_
    exact ((Grows.refl (· < l.draft.size) _ _).connect _ true (.inl (Nat.lt_of_lt_of_le hlt hl))
      fun _ _ => .inl trivial).close

/-- A statement of a program of which every jump lands stands in a finished draft. -/
def Stmt.Stands (final : Draft) (s : Stmt) : Prop :=
  ∃ c d ways, s.Obeys .landing c.frames ∧ final.Placed c d (s.layOut c d ways).draft

/-- Clauses of a `switch` statement stand in a finished draft. -/
def Clauses.Stand (final : Draft) (s : Clauses) : Prop :=
  ∃ c branch selector d falling, s.Obeys .landing c.frames ∧
    final.Placed c d (s.layOut c branch selector d falling).draft

namespace Stmt.Stands

/-- The parts of a sequence stand in the finished graph. -/
lemma seq (h : (Stmt.seq first rest).Stands final) : first.Stands final ∧ rest.Stands final := by
  obtain ⟨c, d, ways, hs, hp⟩ := h
  obtain ⟨hf, hr⟩ := placed_seq hp
  exact ⟨⟨c, _, _, hs.1, hf⟩, ⟨c, _, _, hs.2, hr⟩⟩

/-- So do the branches of an `if`. -/
lemma branch (h : (Stmt.branch node condition onTrue onFalse).Stands final) :
    onTrue.Stands final ∧ onFalse.Stands final := by
  obtain ⟨c, d, ways, hs, hp⟩ := h
  obtain ⟨ht, hf⟩ := placed_branch hp
  exact ⟨⟨c, _, _, hs.1, ht⟩, ⟨c, _, _, hs.2, hf⟩⟩

/-- The end of a loop that goes back to the node in front of it spares the body. -/
lemma spares_loop (l : Layout) {depth head : Nat} (hhead : head < d.size) :
    d.Spares l.draft
      ((l.draft.connect l.outs head true).connect (l.continues depth) head true).close :=
  (((Grows.refl (· < d.size) _ l.draft).connect _ true (.inl hhead) fun _ _ => .inl trivial).connect _ true
    (.inl hhead) fun _ _ => .inl trivial).close

/-- So does the body of a `while` loop. -/
lemma whileLoop (h : (Stmt.whileLoop node label condition body).Stands final) : body.Stands final := by
  obtain ⟨c, d, ways, hs, hp⟩ := h
  have hhead := hp.sound.addTarget .branch node ways
  rw [layOut_whileLoop] at hp
  exact ⟨c.enter ⟨label, true, true⟩, _, _, hs, hp.inside hhead (by simp) (spares_loop _ (by simp))⟩

/-- So does the body of a `do` loop. -/
lemma doLoop (h : (Stmt.doLoop node label condition body).Stands final) : body.Stands final := by
  obtain ⟨c, d, ways, hs, hp⟩ := h
  exact ⟨_, _, _, hs, (placed_doLoop hp).1⟩

/-- So does the body of a `for` loop with three parts. -/
lemma forLoop {start step : Option Nat}
    (h : (Stmt.forLoop node label start condition step body).Stands final) : body.Stands final := by
  obtain ⟨c, d, ways, hs, hp⟩ := h
  rw [layOut_forLoop] at hp
  extract_lets p head l q at hp
  have hstart : d.size ≤ p.1.size := Draft.size_le_plain? d c start ways
  have hhead := (hp.sound.plain? start ways).addTarget (if condition.isSome then .branch else .loopHead) node p.2
  have hle : d.size ≤ (p.1.addTarget c (if condition.isSome then .branch else .loopHead) node p.2).1.size := by
    rw [Draft.size_addTarget]
    exact Nat.le_succ_of_le hstart
  have hbody : Draft.Spares _ l.draft q.1 :=
    ((Grows.refl _ _ l.draft).close.plain? step hhead.old fun _ _ => .inl trivial).1
  have hlt : head < (p.1.addTarget c (if condition.isSome then .branch else .loopHead) node p.2).1.size := by
    simp [head]
  have hback := (hbody.connect q.2 true (.inl hlt) fun _ _ => .inl trivial).close
  exact ⟨c.enter ⟨label, true, true⟩, _, _, hs, hp.inside hhead hle hback⟩

/-- So does the body of a `for` loop over something. -/
lemma forEach {iterated : Option Nat} (h : (Stmt.forEach node label iterated body).Stands final) :
    body.Stands final := by
  obtain ⟨c, d, ways, hs, hp⟩ := h
  have hhead := hp.sound.addTarget .branch node ways
  rw [layOut_forEach] at hp
  exact ⟨c.enter ⟨label, true, true⟩, _, _, hs, hp.inside hhead (by simp) (spares_loop _ (by simp))⟩

/-- So do the clauses of a `switch`. -/
lemma switch {selector : Option Nat} {clauses : Clauses} (h : (Stmt.switch node selector clauses).Stands final) :
    clauses.Stand final := by
  obtain ⟨c, d, ways, hs, hp⟩ := h
  have hhead := hp.sound.addTarget .branch node ways
  rw [layOut_switch] at hp
  exact ⟨c.enter ⟨none, false, true⟩, _, _, _, _, hs, hp.inside hhead (by simp) (.close (.refl _ _ _))⟩

/-- So does a statement with a label. -/
lemma labelled (h : (Stmt.labelled node label body).Stands final) : body.Stands final := by
  obtain ⟨c, d, ways, hs, hp⟩ := h
  have hclose := hp.sound.close
  rw [layOut_labelled] at hp
  exact ⟨c.enter ⟨label, false, false⟩, _, _, hs, hp.inside hclose (Nat.le_refl _) (.close (.refl _ _ _))⟩

/-- The body of a clause spares what was laid out before it. -/
lemma spares_layOutClause (h : d.Sound c.handler) (clause : Option Nat) :
    d.Spares l.draft (body.layOutClause c l clause).draft := by
  cases clause with
  | none => exact .refl _ _ _
  | some n =>
    exact (Grows.refl _ _ _).close.trans (h.spares (body.layOut_grown c l.draft.close [.plain n]).grows)
      (fun _ => .inl) fun _ => .inl

/-- Going on inside a clause spares what was there before. -/
lemma spares_into {clause : Option Nat} (h : ∀ n, clause = some n → n < d.size) :
    d.Spares l.draft (l.into clause).draft := by
  cases clause with
  | none => exact .refl _ _ _
  | some n => exact (Grows.refl (· < d.size) _ _).connect _ false (.inl (h n rfl)) fun _ _ => .inl trivial

/-- The body of a clause stands in the draft if the clause is there. -/
lemma of_layOutClause {clause : Option Nat} (h : final.Placed c l.draft (body.layOutClause c l clause).draft)
    (hs : body.Obeys .landing c.frames) (hclause : clause.isSome = true) : body.Stands final := by
  obtain ⟨n, rfl⟩ := Option.isSome_iff_exists.1 hclause
  exact ⟨c, _, _, hs, h.inside h.sound.close (Nat.le_refl _) (.refl _ _ _)⟩

/-- So do the body of a `try` and the bodies of the clauses that are there. -/
lemma tryCatch {catchNode finallyNode : Option Nat} {catchBody finallyBody : Stmt}
    (h : (Stmt.tryCatch node body catchNode catchBody finallyNode finallyBody).Stands final) :
    body.Stands final ∧ (catchNode.isSome = true → catchBody.Stands final) ∧
      (finallyNode.isSome = true → finallyBody.Stands final) := by
  obtain ⟨c, d, ways, hs, hp⟩ := h
  rw [layOut_tryCatch] at hp
  extract_lets catcher finisher b k f at hp
  obtain ⟨-, hfinisher⟩ := (hp.sound.close.addClause catchNode).1.addClause finallyNode
  have hsize : d.size ≤ finisher.1.size :=
    Nat.le_trans (Draft.size_le_addClause d.close c catchNode) (Draft.size_le_addClause catcher.1 c finallyNode)
  let inner : Context := { c with handler := some ((catcher.2.or finisher.2).getD exitNode) }
  let outer : Context := { c with handler := finisher.2.or c.handler }
  obtain ⟨hf, hinner, houter⟩ : finisher.1.Sound c.handler ∧ finisher.1.Sound inner.handler ∧
    finisher.1.Sound outer.handler := hp.sound.close.clauses catchNode finallyNode
  have hbsize : finisher.1.size ≤ b.draft.size := (body.layOut_grown inner finisher.1 ways).grows.size_le
  have hb : b.draft.Sound outer.handler := (hinner.layOut (c := inner) body ways).handledBy fun n hn =>
    Nat.lt_of_lt_of_le (houter.handled n hn) hbsize
  have hki : finisher.1.Spares k.draft (k.into finisher.2).draft := spares_into hfinisher
  have hif : finisher.1.Spares (k.into finisher.2).draft f.draft.close :=
    (spares_layOutClause hf finisher.2).close
  refine ⟨?_, fun hcatch => ?_, fun hfinally => ?_⟩
  · have hbody : finisher.1.Spares b.draft k.draft := spares_layOutClause (c := outer) houter catcher.2
    exact ⟨inner, _, _, hs.1, hp.inside hinner hsize (hbody.trans (hki.trans hif))⟩
  · have hplaced : final.Placed outer b.draft k.draft :=
      hp.inside hb (Nat.le_trans hsize hbsize) ((hki.trans hif).widen hbsize)
    exact of_layOutClause hplaced hs.2.1 ((Draft.isSome_addClause d.close c catchNode).trans hcatch)
  · have hbk : b.draft.Spares b.draft k.draft := spares_layOutClause (c := outer) hb catcher.2
    have hksize := Nat.le_trans hbsize hbk.size_le
    have hisize := Nat.le_trans hksize hki.size_le
    have hi : (k.into finisher.2).draft.Sound c.handler :=
      ((hb.grow hbk).grow (hki.widen hksize)).handledBy fun n hn =>
        Nat.lt_of_lt_of_le (hf.handled n hn) hisize
    have hplaced : final.Placed c (k.into finisher.2).draft f.draft :=
      hp.inside hi (Nat.le_trans hsize hisize) (.close (.refl _ _ _))
    exact of_layOutClause hplaced hs.2.2 ((Draft.isSome_addClause catcher.1 c finallyNode).trans hfinally)

end Stmt.Stands

/-- A clause and those behind it. -/
lemma stands_clause {branch : Nat} {selector : Option Nat} {others : Clauses}
    (hbody : body.Obeys .landing c.frames) (hothers : others.Obeys .landing c.frames)
    (h : final.Placed c d (others.layOut c branch selector (body.layOut c d.close ways).draft
      (body.layOut c d.close ways).outs).draft) : body.Stands final ∧ others.Stand final := by
  have hb := body.layOut_grown c d.close ways
  have ho := others.layOut_grown c branch selector (body.layOut c d.close ways).draft
    (body.layOut c d.close ways).outs
  constructor
  · exact ⟨c, _, _, hbody, h.inside h.sound.close (Nat.le_refl _) (h.sound.spares ho.grows)⟩
  · exact ⟨c, _, _, _, _, hothers, h.inside (h.sound.close.layOut body ways) hb.grows.size_le (.refl _ _ _)⟩

namespace Clauses.Stand

variable {others : Clauses}

/-- So do the body of a `case` clause and the clauses behind it. -/
lemma onCase {value : Option Nat} (h : (Clauses.onCase value body others).Stand final) :
    body.Stands final ∧ others.Stand final := by
  obtain ⟨c, branch, selector, d, falling, hs, hp⟩ := h
  rw [Clauses.layOut] at hp
  exact stands_clause hs.1 hs.2 hp

/-- So do the body of the `default` clause and the clauses behind it. -/
lemma onDefault (h : (Clauses.onDefault body others).Stand final) :
    body.Stands final ∧ others.Stand final := by
  obtain ⟨c, branch, selector, d, falling, hs, hp⟩ := h
  rw [Clauses.layOut] at hp
  exact stands_clause hs.1 hs.2 hp

/-- So do the clauses behind a comment. -/
lemma gap (h : (Clauses.gap others).Stand final) : others.Stand final := by
  obtain ⟨c, branch, selector, d, falling, hs, hp⟩ := h
  rw [Clauses.layOut] at hp
  exact ⟨c, _, _, _, _, hs.2, hp⟩

end Clauses.Stand

/-! Roles in a finished draft. -/

/-- A node plays a role. -/
def Plays (nodes : Array Node) (n : Nat) (p : Role) : Prop := ∃ x, nodes[n]? = some x ∧ p ∈ x.roles

instance (nodes : Array Node) (n : Nat) (p : Role) : Decidable (Plays nodes n p) :=
  decidable_of_iff (nodes[n]?.any (p ∈ ·.roles)) (by
    rw [Option.any_eq_true]
    simp [Plays])

/-- Further statements of a block come behind the roles it has. -/
lemma Node.roles_extend (x : Node) (more : List Nat) : ∃ l, (x.extend more).roles = x.roles ++ l := by
  by_cases hk : x.kind = .block
  · exact ⟨more.map (.block, ·), by simp [roles, extend, hk]⟩
  · exact ⟨[], by simp [roles, extend, hk]⟩

namespace Draft

variable {T T' : Nat → Prop} {W W' : Way → Prop} {J : Nat → Prop} {d d' final : Draft} {c : Context}
  {m n : Nat} {p : Role} {w : List Role}

/-- The census lists what the nodes of a draft play. -/
lemma mem_census : p ∈ d.census ↔ ∃ n, Plays d.nodes n p := by
  rw [census, List.mem_flatMap]
  constructor
  · rintro ⟨x, hx, hp⟩
    obtain ⟨n, hn⟩ := List.mem_iff_getElem?.1 hx
    exact ⟨n, x, by simpa using hn, hp⟩
  · rintro ⟨n, x, hx, hp⟩
    exact ⟨x, List.mem_iff_getElem?.2 ⟨n, by simpa using hx⟩, hp⟩

/-- No role is played twice, neither by one node nor by two. -/
lemma nodup_census_iff : d.census.Nodup ↔ (∀ (n : Nat) (x : Node), d.nodes[n]? = some x → x.roles.Nodup) ∧
    ∀ m n p, m < n → Plays d.nodes m p → Plays d.nodes n p → False := by
  rw [census, List.nodup_flatMap, List.pairwise_iff_getElem]
  refine and_congr ?_ ?_
  · constructor
    · intro h n x hx
      exact h x (List.mem_iff_getElem?.2 ⟨n, by simpa using hx⟩)
    · intro h x hx
      obtain ⟨n, hn⟩ := List.mem_iff_getElem?.1 hx
      exact h n x (by simpa using hn)
  · constructor
    · rintro h m n p hlt ⟨x, hx, hpx⟩ ⟨y, hy, hpy⟩
      obtain ⟨hm, rfl⟩ := Array.getElem?_eq_some_iff.1 hx
      obtain ⟨hn, rfl⟩ := Array.getElem?_eq_some_iff.1 hy
      exact h m n hm hn hlt hpx hpy
    · intro h m n hm hn hlt p hpx hpy
      exact h m n p hlt ⟨_, Array.getElem?_eq_getElem hm, hpx⟩ ⟨_, Array.getElem?_eq_getElem hn, hpy⟩

/-- In a census without repetitions every role is played by one node. -/
lemma eq_of_plays (h : d.census.Nodup) (hm : Plays d.nodes m p) (hn : Plays d.nodes n p) : m = n := by
  obtain ⟨-, hapart⟩ := nodup_census_iff.1 h
  rcases Nat.lt_trichotomy m n with hlt | heq | hlt
  · exact (hapart m n p hlt hm hn).elim
  · exact heq
  · exact (hapart n m p hlt hn hm).elim

/-- A node that grows keeps its roles and gets more behind them. -/
lemma Grows.roles (h : d.Grows T W d') {x : Node} (hx : d.nodes[n]? = some x) :
    ∃ y l, d'.nodes[n]? = some y ∧ y.roles = x.roles ++ l := by
  obtain ⟨more, hmore, -⟩ := h.kept n (Array.getElem?_eq_some_iff.1 hx).1
  obtain ⟨l, hl⟩ := x.roles_extend more
  exact ⟨_, l, by rw [hmore, hx]; rfl, hl⟩

/-- A role is played on as the draft grows. -/
lemma Grows.plays (h : d.Grows T W d') (hn : Plays d.nodes n p) : Plays d'.nodes n p := by
  obtain ⟨x, hx, hp⟩ := hn
  obtain ⟨y, l, hy, hl⟩ := h.roles hx
  exact ⟨y, hy, hl ▸ List.mem_append_left l hp⟩

/-- A census without repetitions had none before. -/
lemma Grows.nodup_census (h : d.Grows T W d') (hd' : d'.census.Nodup) : d.census.Nodup := by
  rw [nodup_census_iff] at *
  constructor
  · intro n x hx
    obtain ⟨y, l, hy, hl⟩ := h.roles hx
    have hnodup := hd'.1 n y hy
    rw [hl] at hnodup
    exact hnodup.of_append_left
  · exact fun m n p hlt hm hn => hd'.2 m n p hlt (h.plays hm) (h.plays hn)

/-- A draft without an open block is a part of every draft that went on from it. -/
lemma Grows.getElem?_of_closed (h : d.Grows T W d') (hclosed : d.current = none) (hn : n < d.size) :
    d'.nodes[n]? = d.nodes[n]? := by
  obtain ⟨more, hmore, hopen⟩ := h.kept n hn
  rw [hmore, hopen (by simp [hclosed])]
  simp

/-- A draft with no open block was tidy if what grew from it is. -/
lemma Grows.tidy_of_closed (h : d.Grows T W d') (hclosed : d.current = none) (hd' : d'.Tidy J) : d.Tidy J where
  ascending n x hx :=
    hd'.ascending n x ((h.getElem?_of_closed hclosed (Array.getElem?_eq_some_iff.1 hx).1).trans hx)
  jumpsLast n x hx :=
    hd'.jumpsLast n x ((h.getElem?_of_closed hclosed (Array.getElem?_eq_some_iff.1 hx).1).trans hx)
  current n hn := by simp [hclosed] at hn
  flowsOn s hs := by simp [opened, hclosed] at hs

/-- A finished draft is tidy, and plays every role once. -/
structure Finished (J : Nat → Prop) (final : Draft) : Prop where
  tidy : final.Tidy J
  nodup : final.census.Nodup

/-- The roles that were written between two drafts are played by the nodes added between them. -/
lemma Finished.added (hfinal : final.Finished J) (h : d.Grows T W d') (hlater : d'.Grows T' W' final)
    (hclosed : d.current = none) (hw : d.Writes J d' w) (hp : p ∈ w) (hn : Plays final.nodes n p) :
    d.Added d' n := by
  have hnodup := hlater.nodup_census hfinal.nodup
  rw [hw.census.nodup_iff, List.nodup_append'] at hnodup
  obtain ⟨m, y, hy, hpy⟩ := mem_census.1 (hw.census.mem_iff.2 (List.mem_append_right _ hp))
  cases eq_of_plays hfinal.nodup (hlater.plays ⟨y, hy, hpy⟩) hn
  refine ⟨Nat.not_lt.1 fun hlt => ?_, (Array.getElem?_eq_some_iff.1 hy).1⟩
  rw [h.getElem?_of_closed hclosed hlt] at hy
  exact hnodup.2.2 (mem_census.2 ⟨n, y, hy, hpy⟩) hp

/-- What stands in the finished graph grew into it. -/
lemma Placed.grows (h : final.Placed c d d') (hd : d.Grows T W d') :
    d.Grows (fun _ => True) (fun _ => True) final :=
  (hd.mono (fun _ _ => .inl trivial) fun _ _ => trivial).trans h.later (fun _ _ => .inl trivial)
    fun _ _ => .inl trivial

/-- A walk from the entry of a finished graph to the node that plays a role. -/
structure Visit (J : Nat → Prop) (final : Draft) (path : List Edge) (p : Role) : Prop where
  finished : final.Finished J
  walk : ∃ (g : Graph) (n : Nat), g.edges = final.edges ∧ Plays final.nodes n p ∧ g.IsWalk entryNode path n

/-- A walk to a role of a statement with one way into it takes this way the last time it leaves its source. -/
lemma Visit.leaves {s : Stmt} {w : Way} {path : List Edge} (hv : final.Visit J path p)
    (h : final.Placed c d (s.layOut c d [w]).draft) (hclosed : d.current = none) (hs : s.Orderly J)
    (hw : w.source < d.size) (hp : p ∈ s.census) : LeavesBy path w.source w.kind := by
  obtain ⟨g, n, hg, hn, hpath⟩ := hv.walk
  have hgrows := (s.layOut_grown c d [w]).grows
  have htidy := (h.grows hgrows).tidy_of_closed hclosed hv.finished.tidy
  have hwrites := s.writes_layOut c d [w] htidy hs (before_of_closed hclosed)
  have hadded := hv.finished.added hgrows h.later hclosed hwrites hp hn
  refine h.leaves hgrows (fun v hv => ?_) hw hg hadded hpath
  rw [List.mem_singleton.1 hv]
  exact ⟨rfl, rfl⟩

/-- A node that ways lead to plays its role. -/
lemma Grows.plays_addTarget {kind : NodeKind} {ast : Nat} {ways : List Way}
    (h : (d.addTarget c kind ast ways).1.Grows T W final) (hk : kind ≠ .block) :
    Plays final.nodes d.size (kind, ast) :=
  h.plays ⟨⟨kind, ast, []⟩, by simp [size], by simp [Node.roles, hk]⟩

/-- The branch of an `if` statement is the first node that was added for it. -/
lemma Placed.plays_branch {node : Nat} {condition : Option Nat} {onTrue onFalse : Stmt} {ways : List Way}
    (h : final.Placed c d ((Stmt.branch node condition onTrue onFalse).layOut c d ways).draft) :
    Plays final.nodes d.size (.branch, node) := by
  have hgrows := (onTrue.layOut_grown c (d.addTarget c .branch node ways).1
    [.guarded d.size .onTrue condition]).grows
  exact ((placed_branch h).1.grows hgrows).plays_addTarget (by decide)

end Draft

end Mend.Flow
