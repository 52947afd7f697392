import Mend.Proofs.Flow.Descent
import Mend.Proofs.Flow.Growth

/-!
# What leads out of a statement

Once a statement is laid out, it rests: edges that come later leave its nodes by its ways out and its jumps only
(`Layout.Rests`). Where a statement rests in a finished draft, so does all that it is made of
(`Stmt.Rests.passes`): each construct connects what its parts leave open, and leaves the rest alone.
-/

namespace Mend.Flow

/-- The entry and the exit are there, edges leave nodes, and so do the ways that are connected next. -/
structure Draft.Sourced (d : Draft) (ways : List Way) : Prop where
  two_le : 2 ≤ d.size
  edges : ∀ e ∈ d.edges.toList, e.source < d.size
  ways : ∀ w ∈ ways, w.source < d.size

/-- The ways that a layout which went on from `d` leaves open, and those that come from before. -/
def Layout.Owes (l : Layout) (d : Draft) (w : Way) : Prop :=
  w.source < d.size ∨ w ∈ l.outs ∨ ∃ j ∈ l.jumps, j.way = w

/-- A layout that went on from `d` rests in a finished draft: edges that came later leave its nodes by its ways
out and its jumps only. -/
def Layout.Rests (final d : Draft) (l : Layout) : Prop := l.draft.Grows (fun _ => True) (l.Owes d) final

/-- The jumps of a layout come from nodes of its draft. -/
lemma Layout.Grown.jumps_lt {T : Nat → Prop} {W : Way → Prop} {d : Draft} {l : Layout} (hl : l.Grown T W d)
    (hW : ∀ w, W w → w.source < d.size) : ∀ j ∈ l.jumps, j.way.source < l.draft.size :=
  fun j hj => (hl.jumps j hj).elim (fun hw => Nat.lt_of_lt_of_le (hW _ hw) hl.grows.size_le) And.right

/-- A layout went on to another, which leaves open nothing that was settled. -/
abbrev Layout.GoesOn (d : Draft) (l k : Layout) : Prop := k.Grown (fun _ => True) (l.Owes d) l.draft

variable {final d d' : Draft} {T : Nat → Prop} {W : Way → Prop} {c : Context} {ways : List Way} {l k : Layout}

namespace Draft.Sourced

/-- Other ways that leave nodes of the draft may be connected next. -/
lemma withWays (h : d.Sourced ways) {other : List Way} (hother : ∀ w ∈ other, w.source < d.size) : d.Sourced other :=
  ⟨h.two_le, h.edges, hother⟩

/-- Closing the block changes nothing about the ways. -/
lemma close (h : d.Sourced ways) : d.close.Sourced ways := ⟨h.two_le, h.edges, h.ways⟩

/-- A draft grown from a sourced one is sourced with the ways it leaves open. -/
lemma grow (h : d.Sourced ways) (hg : d.Grows T W d') (hW : ∀ w, W w → w.source < d.size) {outs : List Way}
    (houts : ∀ w ∈ outs, W w ∨ d.Added d' w.source) : d'.Sourced outs where
  two_le := Nat.le_trans h.two_le hg.size_le
  edges e he := by
    obtain ⟨new, heq, hnew⟩ := hg.edges
    rw [heq, List.mem_append] at he
    rcases he with he | he
    · exact Nat.lt_of_lt_of_le (h.edges e he) hg.size_le
    · rcases (hnew e he).source with hs | ⟨w, hw, hs, -⟩
      · exact hs.2
      · exact hs ▸ Nat.lt_of_lt_of_le (hW w hw) hg.size_le
  ways w hw := (houts w hw).elim (fun hw => Nat.lt_of_lt_of_le (hW w hw) hg.size_le) And.right

/-- A new target leaves by a way of its own. -/
lemma addTarget (h : d.Sourced ways) (kind : NodeKind) (ast : Nat) {w : Way} (hw : w.source = d.size) :
    (d.addTarget c kind ast ways).1.Sourced [w] := by
  have hg : d.Grows (fun _ => True) (· ∈ ways) (d.addTarget c kind ast ways).1 :=
    (Grows.refl _ _ d).addTarget kind ast (fun _ _ => .inl trivial) fun _ => .inl
  exact h.grow hg h.ways (new_of_mem_singleton hw ⟨Nat.le_refl _, by simp⟩)

end Draft.Sourced

namespace Layout

/-- A layout goes on to itself. -/
lemma goesOn_refl (d : Draft) (l : Layout) : l.GoesOn d l where
  grows := .refl _ _ _
  outs _ hw := .inl (.inr (.inl hw))
  jumps j hj := .inl (.inr (.inr ⟨j, hj, rfl⟩))

/-- What was left open before is still open. -/
lemma goesOn_append (outs : List Way) (jumps : List Jump) (houts : ∀ w ∈ outs, w.source < d.size)
    (hjumps : ∀ j ∈ jumps, j.way.source < d.size) :
    l.GoesOn d ⟨l.draft, outs ++ l.outs, jumps ++ l.jumps⟩ where
  grows := .refl _ _ _
  outs := List.forall_mem_append.2 ⟨fun w hw => .inl (.inl (houts w hw)), (l.goesOn_refl d).outs⟩
  jumps := List.forall_mem_append.2 ⟨fun j hj => .inl (.inl (hjumps j hj)), (l.goesOn_refl d).jumps⟩

/-- What a layout that rests went on from rests, too. -/
lemma Rests.inside (h : k.Rests final d) (hl : l.GoesOn d' k) (hle : d.size ≤ d'.size) : l.Rests final d' := by
  refine hl.grows.trans h (fun _ => .inl) fun w hw => ?_
  rcases hw with hw | hw | ⟨j, hj, rfl⟩
  · exact .inl (.inl (Nat.lt_of_lt_of_le hw hle))
  · exact hl.outs w hw
  · exact hl.jumps j hj

end Layout

/-- A statement rests in a finished draft. -/
def Stmt.Rests (final : Draft) (s : Stmt) : Prop :=
  ∃ c d ways, d.Sourced ways ∧ (s.layOut c d ways).Rests final d

/-- Clauses of a `switch` statement rest in a finished draft. -/
def Clauses.Rest (final : Draft) (s : Clauses) : Prop :=
  ∃ c branch selector d falling, d.Sourced falling ∧ branch < d.size ∧
    (s.layOut c branch selector d falling).Rests final d

variable {node : Nat} {label : Option String} {condition : Option Nat} {body first rest onTrue onFalse : Stmt}

namespace Stmt.Rests

/-- Statements in a row that rest, rest each. -/
lemma seq (h : (Stmt.seq first rest).Rests final) : first.Rests final ∧ rest.Rests final := by
  obtain ⟨c, d, ways, hd, h⟩ := h
  rw [Stmt.layOut] at h
  have hf := first.layOut_grown c d ways
  have hr := rest.layOut_grown c (first.layOut c d ways).draft (first.layOut c d ways).outs
  have hrefl := (first.layOut c d ways).goesOn_refl d
  constructor
  · exact ⟨c, _, _, hd, h.inside (hrefl.andThen hr (fun _ _ => .inl trivial) hrefl.outs) (Nat.le_refl _)⟩
  · exact ⟨c, _, _, hd.grow hf.grows hd.ways hf.outs,
      h.inside (Layout.goesOn_append [] _ (List.forall_mem_nil _) (hf.jumps_lt hd.ways)) hf.grows.size_le⟩

/-- A branch that rests, rests with both its arms. -/
lemma branch (h : (Stmt.branch node condition onTrue onFalse).Rests final) :
    onTrue.Rests final ∧ onFalse.Rests final := by
  obtain ⟨c, d, ways, hd, h⟩ := h
  rw [layOut_branch] at h
  extract_lets t f at h
  have hhead : (d.addTarget c .branch node ways).1.Sourced [.guarded d.size .onTrue condition] :=
    hd.addTarget .branch node rfl
  have hlt : d.size < (d.addTarget c .branch node ways).1.size := by simp
  have ht : t.Grown c.Reaches (· ∈ [.guarded d.size .onTrue condition]) _ := onTrue.layOut_grown c _ _
  constructor
  · exact ⟨c, _, _, hhead, h.inside (((t.goesOn_refl _).orElse (fun d ways => onFalse.layOut_grown c d ways)
      (fun _ _ => .inl trivial) (.inl (.inl hlt))).close) (Nat.le_of_lt hlt)⟩
  · have hend := hhead.grow ht.grows hhead.ways ht.outs
    have hle := ht.grows.size_le
    have hfalse : ∀ w ∈ [Way.guarded d.size .onFalse condition], w.source < t.draft.size := by
      intro w hw
      rw [List.mem_singleton.1 hw]
      exact Nat.lt_of_lt_of_le hlt hle
    exact ⟨c, t.draft.close, _, hend.close.withWays hfalse,
      h.inside (Layout.goesOn_append _ _ hend.ways (ht.jumps_lt hhead.ways)).close
        (Nat.le_trans (Nat.le_of_lt hlt) hle)⟩

/-- A `while` loop that rests, rests with its body. -/
lemma whileLoop (h : (Stmt.whileLoop node label condition body).Rests final) : body.Rests final := by
  obtain ⟨c, d, ways, hd, h⟩ := h
  rw [layOut_whileLoop] at h
  have hlt : d.size < (d.addTarget c .branch node ways).1.size := by simp
  exact ⟨c.enter ⟨label, true, true⟩, _, _, hd.addTarget .branch node rfl,
    h.inside ((Layout.goesOn_refl _ _).loop (.inl trivial) (.inl (.inl hlt))) (Nat.le_of_lt hlt)⟩

/-- A `do` loop that rests, rests with its body. -/
lemma doLoop (h : (Stmt.doLoop node label condition body).Rests final) : body.Rests final := by
  obtain ⟨c, d, ways, hd, h⟩ := h
  rw [layOut_doLoop] at h
  exact ⟨c.enter ⟨label, true, true⟩, _, _, hd.addTarget .loopHead node rfl,
    h.inside ((Layout.goesOn_refl _ _).test (fun _ _ => .inl trivial) (.inl trivial)) (by simp)⟩

/-- A `for` loop that rests, rests with its body. -/
lemma forLoop {start step : Option Nat} (h : (Stmt.forLoop node label start condition step body).Rests final) :
    body.Rests final := by
  obtain ⟨c, d, ways, hd, h⟩ := h
  rw [layOut_forLoop] at h
  extract_lets p head l q at h
  obtain ⟨hp, hpo⟩ := (Draft.Grows.refl (fun _ => True) (· ∈ ways) d).plain? start
    (fun _ _ => .inl trivial) fun _ => .inl
  have hlt : head < (p.1.addTarget c (if condition.isSome then .branch else .loopHead) node p.2).1.size := by
    simp [head]
  have hle : d.size ≤ (p.1.addTarget c (if condition.isSome then .branch else .loopHead) node p.2).1.size :=
    Nat.le_trans hp.size_le (Nat.le_of_lt hlt)
  refine ⟨c.enter ⟨label, true, true⟩, _, _, (hd.grow hp hd.ways hpo).addTarget _ node (by split <;> rfl),
    h.inside ((l.goesOn_refl _).step (fun _ _ => .inl trivial) (.inl trivial) fun w hw => ?_) hle⟩
  split at hw
  · rw [List.mem_singleton.1 hw]
    exact .inl (.inl hlt)
  · cases hw

/-- A loop over members that rests, rests with its body. -/
lemma forEach {iterated : Option Nat} (h : (Stmt.forEach node label iterated body).Rests final) :
    body.Rests final := by
  obtain ⟨c, d, ways, hd, h⟩ := h
  rw [layOut_forEach] at h
  have hlt : d.size < (d.addTarget c .branch node ways).1.size := by simp
  exact ⟨c.enter ⟨label, true, true⟩, _, _, hd.addTarget .branch node rfl,
    h.inside ((Layout.goesOn_refl _ _).loop (.inl trivial) (.inl (.inl hlt))) (Nat.le_of_lt hlt)⟩

/-- A `switch` statement that rests, rests with its clauses. -/
lemma switch {selector : Option Nat} {clauses : Clauses} (h : (Stmt.switch node selector clauses).Rests final) :
    clauses.Rest final := by
  obtain ⟨c, d, ways, hd, h⟩ := h
  rw [layOut_switch] at h
  have hlt : d.size < (d.addTarget c .branch node ways).1.size := by simp
  have hhead : (d.addTarget c .branch node ways).1.Sourced [.plain d.size] := hd.addTarget .branch node rfl
  refine ⟨c.enter ⟨none, false, true⟩, _, _, _, [], hhead.withWays (by simp), hlt,
    h.inside ((Layout.goesOn_refl _ _).leave _ _ fun w hw => ?_) (Nat.le_of_lt hlt)⟩
  split at hw
  · cases hw
  · rw [List.mem_singleton.1 hw]
    exact .inl (.inl hlt)

/-- A labelled statement that rests, rests with what it labels. -/
lemma labelled (h : (Stmt.labelled node label body).Rests final) : body.Rests final := by
  obtain ⟨c, d, ways, hd, h⟩ := h
  rw [layOut_labelled] at h
  refine ⟨c.enter ⟨label, false, false⟩, _, _, hd.close, h.inside ?_ (Nat.le_refl _)⟩
  simpa using (Layout.goesOn_refl d.close _).leave c.frames.length [] (List.forall_mem_nil _)

/-- A clause laid out in a layout that rests, rests with it. -/
lemma of_layOutClause {clause : Option Nat} (h : (body.layOutClause c l clause).Rests final l.draft)
    (hl : l.draft.Sourced l.outs) (hjumps : ∀ j ∈ l.jumps, j.way.source < l.draft.size)
    (hclause : ∀ n, clause = some n → n < l.draft.size) (hsome : clause.isSome = true) : body.Rests final := by
  obtain ⟨n, rfl⟩ := Option.isSome_iff_exists.1 hsome
  refine ⟨c, l.draft.close, [.plain n], hl.close.withWays fun w hw => ?_,
    h.inside (Layout.goesOn_append _ _ hl.ways hjumps) (Nat.le_refl _)⟩
  rw [List.mem_singleton.1 hw]
  exact hclause n rfl

/-- A `try` statement that rests, rests with its body and the clauses it has. -/
lemma tryCatch {catchNode finallyNode : Option Nat} {catchBody finallyBody : Stmt}
    (h : (Stmt.tryCatch node body catchNode catchBody finallyNode finallyBody).Rests final) :
    body.Rests final ∧ (catchNode.isSome = true → catchBody.Rests final) ∧
      (finallyNode.isSome = true → finallyBody.Rests final) := by
  obtain ⟨c, d, ways, hd, h⟩ := h
  rw [layOut_tryCatch] at h
  extract_lets catcher finisher b k f at h
  obtain ⟨hc, hcatcher⟩ := (Draft.Grows.refl (fun _ => True) (· ∈ ways) d).close.addClause catchNode
    fun _ _ => .inl trivial
  obtain ⟨hf, hfinisher⟩ := hc.addClause finallyNode fun _ _ => .inl trivial
  have hcatcher : ∀ n, catcher.2 = some n → n < finisher.1.size := fun n hn =>
    Nat.lt_of_lt_of_le (hcatcher n hn).2 (Draft.size_le_addClause catcher.1 c finallyNode)
  have hfinisher : ∀ n, finisher.2 = some n → n < finisher.1.size := fun n hn => (hfinisher n hn).2
  have hsize : d.size ≤ finisher.1.size := hf.size_le
  have hstart : finisher.1.Sourced ways := hd.grow hf hd.ways fun _ => .inl
  have hb : b.Grown _ (· ∈ ways) finisher.1 := body.layOut_grown _ finisher.1 ways
  have hbsize : finisher.1.size ≤ b.draft.size := hb.grows.size_le
  -- What comes after the body takes its ways out, and ways from the nodes of the clauses.
  have hk : ∀ {W d'}, b.Grown (fun _ => True) W d' → (∀ n, catcher.2 = some n → W (.plain n)) →
      k.Grown (fun _ => True) W d' := fun hb hW =>
    hb.clause (fun n hn => .inl (hW n hn)) (fun d ways => catchBody.layOut_grown _ d ways) fun _ _ => .inl trivial
  have hend : ∀ {W d'}, k.Grown (fun _ => True) W d' → (∀ n, finisher.2 = some n → W (.plain n)) →
      Layout.Grown (fun _ => True) W d' ⟨f.draft.close, f.outs, f.jumps⟩ := fun hk hW =>
    ((hk.into fun _ _ => .inl trivial).clause (fun n hn => .inl (hW n hn))
      (fun d ways => finallyBody.layOut_grown c d ways) fun _ _ => .inl trivial).close
  refine ⟨?_, fun hcatch => ?_, fun hfinally => ?_⟩
  · refine ⟨_, finisher.1, ways, hstart, h.inside (hend (hk (b.goesOn_refl _) ?_) ?_) hsize⟩
    · exact fun n hn => .inl (hcatcher n hn)
    · exact fun n hn => .inl (hfinisher n hn)
  · have hrests : k.Rests final b.draft := by
      refine h.inside (hend (k.goesOn_refl _) fun n hn => .inl ?_) (Nat.le_trans hsize hbsize)
      exact Nat.lt_of_lt_of_le (hfinisher n hn) hbsize
    exact of_layOutClause hrests (hstart.grow hb.grows hstart.ways hb.outs) (hb.jumps_lt hstart.ways)
      (fun n hn => Nat.lt_of_lt_of_le (hcatcher n hn) hbsize)
      ((Draft.isSome_addClause d.close c catchNode).trans hcatch)
  · have hb' : b.Grown (fun _ => True) (·.source < finisher.1.size) finisher.1 :=
      hb.after (.refl _ _ _) (fun _ _ => .inl trivial) fun w hw => .inl (hstart.ways w hw)
    have hi : (k.into finisher.2).Grown (fun _ => True) (·.source < finisher.1.size) finisher.1 :=
      (hk hb' hcatcher).into fun _ _ => .inl trivial
    have hrests : f.Rests final (k.into finisher.2).draft :=
      h.inside (f.goesOn_refl _).close (Nat.le_trans hsize hi.grows.size_le)
    exact of_layOutClause hrests (hstart.grow hi.grows (fun _ => id) hi.outs) (hi.jumps_lt fun _ => id)
      (fun n hn => Nat.lt_of_lt_of_le (hfinisher n hn) hi.grows.size_le)
      ((Draft.isSome_addClause catcher.1 c finallyNode).trans hfinally)

end Stmt.Rests

/-- A clause and those behind it. -/
lemma rests_clause {branch : Nat} {selector : Option Nat} {falling : List Way} {entry : Way} {others : Clauses}
    (hd : d.Sourced falling) (hbranch : branch < d.size) (hentry : entry.source = branch)
    (h : let l := body.layOut c d.close (falling ++ [entry])
      let r := others.layOut c branch selector l.draft l.outs
      Layout.Rests final d ⟨r.draft, r.outs, l.jumps ++ r.jumps⟩) :
    body.Rests final ∧ others.Rest final := by
  extract_lets l r at h
  have hways : d.close.Sourced (falling ++ [entry]) :=
    hd.close.withWays (List.forall_mem_append.2 ⟨hd.ways, by simpa [hentry] using hbranch⟩)
  have hl : l.Grown c.Reaches (· ∈ falling ++ [entry]) d.close := body.layOut_grown c _ _
  have hr : r.Grown c.Reaches (fun w => w ∈ l.outs ∨ w.source = branch) l.draft :=
    others.layOut_grown c branch selector _ _
  have hle : d.size ≤ l.draft.size := hl.grows.size_le
  have hrefl := l.goesOn_refl d.close
  constructor
  · refine ⟨c, d.close, _, hways, h.inside (hrefl.andThen hr (fun _ _ => .inl trivial) fun w hw => ?_) (Nat.le_refl _)⟩
    exact hw.elim (hrefl.outs w) fun hw => .inl (.inl (hw ▸ hbranch))
  · exact ⟨c, branch, selector, l.draft, l.outs, hways.grow hl.grows hways.ways hl.outs,
      Nat.lt_of_lt_of_le hbranch hle,
      h.inside (Layout.goesOn_append [] _ (List.forall_mem_nil _) (hl.jumps_lt hways.ways)) hle⟩

namespace Clauses.Rest

variable {others : Clauses}

/-- A case that rests, rests with its statements and the clauses behind it. -/
lemma onCase {value : Option Nat} (h : (Clauses.onCase value body others).Rest final) :
    body.Rests final ∧ others.Rest final := by
  obtain ⟨c, branch, selector, d, falling, hd, hbranch, h⟩ := h
  rw [Clauses.layOut] at h
  exact rests_clause hd hbranch rfl h

/-- A default clause that rests, rests with its statements and the clauses behind it. -/
lemma onDefault (h : (Clauses.onDefault body others).Rest final) : body.Rests final ∧ others.Rest final := by
  obtain ⟨c, branch, selector, d, falling, hd, hbranch, h⟩ := h
  rw [Clauses.layOut] at h
  exact rests_clause hd hbranch rfl h

/-- What is no clause leaves the clauses behind it at rest. -/
lemma gap (h : (Clauses.gap others).Rest final) : others.Rest final := by
  obtain ⟨c, branch, selector, d, falling, hd, hbranch, h⟩ := h
  rw [Clauses.layOut] at h
  exact ⟨c, branch, selector, d, [], hd.withWays (by simp), hbranch, h⟩

end Clauses.Rest

/-- What rests in a draft rests there with all that it is made of. -/
lemma Stmt.Rests.passes (final : Draft) : Passes (Stmt.Rests final) (Clauses.Rest final) where
  seq := seq
  branch := branch
  whileLoop := whileLoop
  doLoop := doLoop
  forLoop := forLoop
  forEach := forEach
  switch := switch
  tryCatch := tryCatch
  labelled := labelled
  onCase := Clauses.Rest.onCase
  onDefault := Clauses.Rest.onDefault
  gap := Clauses.Rest.gap

/-- The skeleton of a function rests in its graph. -/
lemma rests_skeleton (a : Syntax.Ast) (f : Nat) :
    let l := (a.skeleton f).layOut ⟨none, []⟩ (.start f) [.plain entryNode]
    (a.skeleton f).Rests (l.draft.close.connect l.outs exitNode false) := by
  intro l
  refine ⟨⟨none, []⟩, .start f, [.plain entryNode], ⟨Nat.le_refl 2, nofun, fun w hw => ?_⟩, ?_⟩
  · rw [List.mem_singleton.1 hw]
    exact Nat.two_pos
  · exact (Draft.Grows.refl _ _ _).close.connect _ false (.inl trivial) fun w hw => .inl (.inr (.inl hw))

end Mend.Flow
