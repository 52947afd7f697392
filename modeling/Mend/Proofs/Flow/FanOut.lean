import Mend.Proofs.Flow.Forks

/-!
# Branches fan out

From a branch node lead just the ways that its decision opens, and such ways lead from nowhere else
(`fansOut_of_mem_graphs`). Laying out a statement adds its decisions to the account of the draft
(`Stmt.layOut_forks`): each construct hands on the ways that it opens, to its parts, to the nodes that it adds and to
whatever comes behind it. Only jumps are ever lost, and they take no way that a decision opens, for they come out
of blocks. Falling through is interrupted by what is no clause, so that `switch` statements must hold clauses only.
-/

namespace Mend.Flow

open Syntax (Ast)

variable {sites sites' : List (Nat × Decision)} {d d' : Draft} {c : Context} {ways ways' held mid : List Way}

/-- A layout of the decisions in `sites`. Its jumps take no way that a decision opened. -/
structure Layout.Forks (sites : List (Nat × Decision)) (d : Draft) (ways : List Way) (l : Layout) : Prop where
  forks : d.Forks sites ways l.draft l.left
  jumps : ∀ j ∈ l.jumps, j.way.kind = .unconditional

/-- Laid out anywhere, a statement decides what it says. -/
def Stmt.Fork (c : Context) (s : Stmt) : Prop :=
  ∀ (d : Draft) (ways : List Way), (s.layOut c d ways).Forks s.decisions d ways

/-- The same of clauses. The ways into them wait from the start. -/
def Clauses.Fork (c : Context) (selector : Option Nat) (s : Clauses) : Prop :=
  ∀ (branch : Nat) (d : Draft) (falling : List Way),
    (s.layOut c branch selector d falling).Forks s.decisions d (falling ++ s.entries branch selector)

section

variable {l r : Layout} {depth : Nat} {body : Stmt}

/-- A frame picks up the jumps that are meant for it, which is to say that they wait elsewhere. -/
lemma Draft.Forks.pickUp (h : d.Forks sites ways d' (mid ++ l.jumps.map (·.way) ++ held))
    (hjumps : ∀ j ∈ l.jumps, j.way.kind = .unconditional) (depth : Nat) :
    d.Forks sites ways d'
      (mid ++ l.continues depth ++ (held ++ l.breaks depth ++ (l.passing depth).map (·.way))) := by
  have hall : ∀ w, w ∈ l.continues depth ∨ w ∈ l.breaks depth ∨ w ∈ (l.passing depth).map (·.way) →
      w ∈ l.jumps.map (·.way) := by
    rintro w (hw | hw | hw)
    · obtain ⟨j, hj, -, -, rfl⟩ := Layout.mem_continues.1 hw
      exact List.mem_map_of_mem hj
    · obtain ⟨j, hj, -, -, rfl⟩ := Layout.mem_breaks.1 hw
      exact List.mem_map_of_mem hj
    · exact List.map_subset _ (Layout.passing_subset l depth) hw
  have hnone : ∀ ways : List Way, ways ⊆ l.jumps.map (·.way) → conditional ways = [] := by
    refine fun ways hways => conditional_eq_nil fun w hw => ?_
    obtain ⟨j, hj, rfl⟩ := List.mem_map.1 (hways hw)
    rw [hjumps j hj]
    rfl
  refine h.settle ?_ fun w hw => ?_
  · have hcontinues := hnone (l.continues depth) fun w hw => hall w (.inl hw)
    have hbreaks := hnone (l.breaks depth) fun w hw => hall w (.inr (.inl hw))
    have hpassing := hnone ((l.passing depth).map (·.way)) fun w hw => hall w (.inr (.inr hw))
    simp only [conditional_append, hnone _ (List.Subset.refl _), hcontinues, hbreaks, hpassing, List.append_nil]
    exact .refl _
  · have := hall w
    simp only [List.mem_append] at hw ⊢
    tauto

namespace Layout.Forks

/-- A layout without jumps decides what its draft does. -/
lemma quiet (h : d.Forks sites ways d' held) : Layout.Forks sites d ways ⟨d', held, []⟩ :=
  ⟨by simpa [left] using h, List.forall_mem_nil _⟩

/-- What was laid out second left the ways in `outs` and the jumps of the first alone. -/
lemma join {outs : List Way} (h : d.Forks sites ways r.draft (r.left ++ (outs ++ l.jumps.map (·.way))))
    (hl : ∀ j ∈ l.jumps, j.way.kind = .unconditional) (hr : ∀ j ∈ r.jumps, j.way.kind = .unconditional) :
    Layout.Forks sites d ways ⟨r.draft, outs ++ r.outs, l.jumps ++ r.jumps⟩ where
  forks := by
    refine h.perm (List.perm_iff_count.2 fun w => ?_)
    simp only [left, List.map_append, List.count_append]
    omega
  jumps := List.forall_mem_append.2 ⟨hl, hr⟩

/-- Further decisions behind the ways out, or behind some of the ways that wait. -/
lemma follow (h : d.Forks sites ways l.draft (mid ++ l.jumps.map (·.way)))
    (hjumps : ∀ j ∈ l.jumps, j.way.kind = .unconditional) (hr : r.Forks sites' l.draft mid) :
    Layout.Forks (sites ++ sites') d ways ⟨r.draft, r.outs, l.jumps ++ r.jumps⟩ := by
  have hboth : d.Forks (sites ++ sites') ways r.draft (r.left ++ ([] ++ l.jumps.map (·.way))) := h.andThen hr.forks
  exact join hboth hjumps hr.jumps

/-- Closing the block changes no decision. -/
lemma close (h : l.Forks sites d ways) : Layout.Forks sites d ways ⟨l.draft.close, l.outs, l.jumps⟩ :=
  ⟨h.forks.close, h.jumps⟩

/-- The body of a clause, behind what was laid out before it. -/
lemma clause {clause : Option Nat} (hl : l.Forks sites d ways) (hbody : body.Fork c)
    (hn : ∀ n ∈ clause, Undecided l.draft.nodes n) :
    (body.layOutClause c l clause).Forks (sites ++ clause.elim [] fun _ => body.decisions) d ways := by
  cases clause with
  | none =>
    rw [Option.elim_none, List.append_nil]
    exact hl
  | some n =>
    have hk := hbody l.draft.close [.plain n]
    have hboth : d.Forks _ ways _ (_ ++ l.left) := Draft.Forks.andThen (hl.forks.close.enter (hn n rfl)) hk.forks
    exact join hboth hl.jumps hk.jumps

/-- Leading a layout into a clause changes no decision. -/
lemma into (hl : l.Forks sites d ways) (clause : Option Nat) : (l.into clause).Forks sites d ways := by
  cases clause with
  | none => exact hl
  | some n => exact ⟨hl.forks.connect n false, hl.jumps⟩

/-- Decisions taken before a layout come before its own. -/
lemma before (h : d.Forks sites ways d' mid) (hl : l.Forks sites' d' mid) : l.Forks (sites ++ sites') d ways :=
  ⟨h.trans hl.forks, hl.jumps⟩

/-- The end of a loop without a test behind the body. -/
lemma loop (h : d.Forks sites ways l.draft (l.left ++ held)) (hjumps : ∀ j ∈ l.jumps, j.way.kind = .unconditional)
    (depth head : Nat) : Layout.Forks sites d ways
      ⟨((l.draft.connect l.outs head true).connect (l.continues depth) head true).close, held ++ l.breaks depth,
        l.passing depth⟩ where
  forks := by
    have hpicked := h.pickUp hjumps depth
    rw [List.append_assoc] at hpicked
    exact ((hpicked.connect head true).connect head true).close
  jumps j hj := hjumps j (passing_subset l depth hj)

/-- The end of a construct that only picks up breaks. -/
lemma leave (h : d.Forks sites ways l.draft (l.left ++ held)) (hjumps : ∀ j ∈ l.jumps, j.way.kind = .unconditional)
    (depth : Nat) :
    Layout.Forks sites d ways ⟨l.draft.close, l.outs ++ held ++ l.breaks depth, l.passing depth⟩ where
  forks := by
    have hlost : ∀ w ∈ l.continues depth, w.kind = .unconditional := fun w hw => by
      obtain ⟨j, hj, -, -, rfl⟩ := mem_continues.1 hw
      exact hjumps j hj
    have hpicked := (h.pickUp hjumps depth).perm (List.perm_append_comm.append_right _)
    rw [List.append_assoc] at hpicked
    have hkept := (hpicked.drop hlost).close
    simpa only [left, List.append_assoc] using hkept
  jumps j hj := hjumps j (passing_subset l depth hj)

end Layout.Forks

/-! Constructs. -/

variable {node : Nat} {label : Option String} {condition : Option Nat}

/-- A branch decides, and so do its arms. -/
lemma forks_branch {onTrue onFalse : Stmt} (hTrue : onTrue.Fork c) (hFalse : onFalse.Fork c) :
    (Stmt.branch node condition onTrue onFalse).Fork c := by
  intro d ways
  rw [layOut_branch]
  extract_lets t f
  have ht : t.Forks onTrue.decisions _ [.guarded d.size .onTrue condition] := hTrue _ _
  have hf : f.Forks onFalse.decisions t.draft.close [.guarded d.size .onFalse condition] := hFalse _ _
  have hfork : d.Forks [(node, .test condition)] ways _
      ([.guarded d.size .onTrue condition] ++ [.guarded d.size .onFalse condition]) :=
    d.forks_target c node (.test condition) ways
  -- Each branch takes over its own way; what comes out of the first waits until the second is laid out.
  have htrue : d.Forks _ ways t.draft.close ([.guarded d.size .onFalse condition] ++ t.left) :=
    (hfork.andThen ht.forks).close.perm List.perm_append_comm
  have hboth := htrue.andThen hf.forks
  rw [List.append_assoc] at hboth
  exact (Layout.Forks.join hboth ht.jumps hf.jumps).close

/-- A loop with its test in front. -/
lemma forks_headLoop {frame : Frame} (hbody : body.Fork (c.enter frame)) (d : Draft) (ways : List Way) (depth : Nat) :
    let l := body.layOut (c.enter frame) (d.addTarget c .branch node ways).1 [.guarded d.size .onTrue condition]
    Layout.Forks ((node, .test condition) :: body.decisions) d ways
      ⟨((l.draft.connect l.outs d.size true).connect (l.continues depth) d.size true).close,
        .guarded d.size .onFalse condition :: l.breaks depth, l.passing depth⟩ := by
  intro l
  have hl : l.Forks body.decisions _ _ := hbody _ _
  have hfork : d.Forks [(node, .test condition)] ways _
      ([.guarded d.size .onTrue condition] ++ [.guarded d.size .onFalse condition]) :=
    d.forks_target c node (.test condition) ways
  exact Layout.Forks.loop (hfork.andThen hl.forks) hl.jumps depth d.size

/-- A `do` loop decides behind its body. -/
lemma forks_doLoop (hbody : body.Fork (c.enter ⟨label, true, true⟩)) :
    (Stmt.doLoop node label condition body).Fork c := by
  intro d ways
  rw [layOut_doLoop]
  extract_lets l test
  have hl : l.Forks body.decisions _ [.plain d.size] := hbody _ _
  have hhead := (Draft.Forks.start d ways).addTarget c (by decide : NodeKind.loopHead ≠ .branch) node
  have htest : d.Forks _ ways _ ([] ++ l.jumps.map (·.way) ++ Decision.ways test (.test condition)) :=
    ((hhead.trans hl.forks).forkTarget c (condition.getD node) (.test condition)).perm List.perm_append_comm
  have hpicked : d.Forks _ ways _ ([.guarded test .onTrue condition] ++
      (.guarded test .onFalse condition :: l.breaks c.frames.length ++ (l.passing c.frames.length).map (·.way))) :=
    (htest.pickUp hl.jumps c.frames.length).connect test false
  exact ⟨(hpicked.connect d.size true).close, fun j hj => hl.jumps j (Layout.passing_subset l _ hj)⟩

/-- A `for` loop decides at its head. -/
lemma forks_forLoop {start step : Option Nat} (hbody : body.Fork (c.enter ⟨label, true, true⟩)) :
    (Stmt.forLoop node label start condition step body).Fork c := by
  intro d ways
  rw [layOut_forLoop]
  extract_lets p head l q
  have hl : l.Forks body.decisions _ [if condition.isSome then .guarded head .onTrue condition else .plain head] :=
    hbody _ _
  have hp : d.Forks [] ways p.1 (p.2 ++ []) := (Draft.Forks.start d ways).plain? c start
  -- The head opens a way into the body and, if it is a branch, another one out of the loop.
  have hhead : d.Forks (if condition.isSome then [(node, .test condition)] else []) ways
      (p.1.addTarget c (if condition.isSome then .branch else .loopHead) node p.2).1
      ([if condition.isSome then .guarded head .onTrue condition else .plain head] ++
        if condition.isSome then [.guarded head .onFalse condition] else []) := by
    cases condition with
    | none => exact hp.addTarget c (by decide : NodeKind.loopHead ≠ .branch) node
    | some i => exact hp.forkTarget c node (.test (some i))
  have hpicked := (hhead.andThen hl.forks).pickUp hl.jumps c.frames.length
  have hstep : d.Forks _ ways q.1 (q.2 ++ _) := hpicked.close.plain? c step
  exact ⟨(hstep.connect head true).close, fun j hj => hl.jumps j (Layout.passing_subset l _ hj)⟩

/-- A labelled statement decides what it labels does. -/
lemma forks_labelled (hbody : body.Fork (c.enter ⟨label, false, false⟩)) :
    (Stmt.labelled node label body).Fork c := by
  intro d ways
  rw [layOut_labelled]
  extract_lets l
  have hl : l.Forks body.decisions d.close ways := hbody _ _
  have hclosed := (Draft.Forks.refl d ways).close.trans hl.forks
  rw [← List.append_nil l.left] at hclosed
  have hleave := Layout.Forks.leave hclosed hl.jumps c.frames.length
  rw [List.append_nil] at hleave
  exact hleave

/-- A `try` statement decides what its parts do. -/
lemma forks_tryCatch {catchNode finallyNode : Option Nat} {catchBody finallyBody : Stmt}
    (hbody : ∀ handler, body.Fork { c with handler }) (hcatch : ∀ handler, catchBody.Fork { c with handler })
    (hfinally : finallyBody.Fork c) :
    (Stmt.tryCatch node body catchNode catchBody finallyNode finallyBody).Fork c := by
  intro d ways
  rw [layOut_tryCatch]
  extract_lets catcher finisher b k f
  have hcatcher : d.Forks [] ways catcher.1 ways := (Draft.Forks.refl d ways).close.addClause c catchNode
  have hfinisher : d.Forks [] ways finisher.1 ways := hcatcher.addClause c finallyNode
  have hextend : catcher.1.Extends finisher.1 :=
    ((Draft.Extends.refl catcher.1).addClause finallyNode fun _ _ => .inl trivial).1
  have hb : b.Forks body.decisions finisher.1 ways := hbody _ _ _
  have hk : k.Forks _ finisher.1 ways := hb.clause (hcatch _) fun n hn =>
    hb.forks.extend.undecided (hextend.undecided (Draft.undecided_addClause hn))
  have hi := hk.into finisher.2
  have hf : f.Forks _ finisher.1 ways := hi.clause hfinally fun n hn =>
    hi.forks.extend.undecided (Draft.undecided_addClause hn)
  rw [Draft.elim_addClause, Draft.elim_addClause] at hf
  exact (Layout.Forks.before hfinisher hf).close

/-- A `switch` statement decides at its head, and so do its clauses. -/
lemma forks_switch {selector : Option Nat} {clauses : Clauses}
    (hclauses : clauses.Fork (c.enter ⟨none, false, true⟩) selector) :
    (Stmt.switch node selector clauses).Fork c := by
  intro d ways
  rw [layOut_switch]
  extract_lets l
  have hl : l.Forks clauses.decisions _ (clauses.entries d.size selector) := hclauses _ _ []
  have hfork := d.forks_target c node (.select selector clauses.values clauses.defaults) ways
  exact Layout.Forks.leave ((hfork.perm (clauses.ways_perm d.size selector)).andThen hl.forks) hl.jumps _

/-- A clause decides what its statements do, and the clauses behind it. -/
lemma forks_onClause {branch : Nat} {selector : Option Nat} {entry : Way} {others : Clauses} {falling : List Way}
    (hbody : body.Fork c) (hothers : others.Fork c selector) :
    let l := body.layOut c d.close (falling ++ [entry])
    let r := others.layOut c branch selector l.draft l.outs
    Layout.Forks (body.decisions ++ others.decisions) d (falling ++ entry :: others.entries branch selector)
      ⟨r.draft, r.outs, l.jumps ++ r.jumps⟩ := by
  intro l r
  have hl : l.Forks body.decisions d.close (falling ++ [entry]) := hbody _ _
  have hr : r.Forks others.decisions l.draft (l.outs ++ others.entries branch selector) := hothers _ _ _
  have hstart : d.Forks [] (falling ++ entry :: others.entries branch selector) d.close
      (falling ++ [entry] ++ others.entries branch selector) := by simpa using (Draft.Forks.refl d _).close
  refine Layout.Forks.follow ((hstart.andThen hl.forks).perm ?_) hl.jumps hr
  rw [Layout.left, List.append_assoc, List.append_assoc]
  exact List.perm_append_comm.append_left _

/-- A `return` decides nothing. -/
lemma forks_ret : (Stmt.ret node).Fork c := fun d ways =>
  ((Layout.Forks.quiet (d.forks_plain c node ways)).into (some exitNode)).close

/-- A `throw` decides nothing. -/
lemma forks_throw : (Stmt.throw node).Fork c := by
  intro d ways
  have hplain := d.forks_plain c node ways
  rw [← List.append_nil (d.plain c node ways).2] at hplain
  refine .quiet ((hplain.drop (Draft.kind_plain d c node ways)).thrown (fun w hw => ?_) exitNode false).close
  split at hw
  · cases hw
  · obtain ⟨v, -, rfl⟩ := List.mem_map.1 hw
    rfl

/-- A jump decides nothing. -/
lemma forks_jump {isContinue : Bool} : (Stmt.jump node isContinue label).Fork c := by
  intro d ways
  have hplain := (d.forks_plain c node ways).close
  rw [Stmt.layOut, Stmt.decisions]
  cases c.target? isContinue label with
  | none => exact .quiet hplain
  | some depth =>
    refine ⟨by simpa [Layout.left, Function.comp_def] using hplain, fun j hj => ?_⟩
    obtain ⟨w, hw, rfl⟩ := List.mem_map.1 hj
    exact Draft.kind_plain d c node ways w hw

end

mutual

/-- Laid out anywhere, a statement decides what it says, as long as `switch` statements hold clauses only. -/
theorem Stmt.layOut_forks {R : Rules} (hgap : ¬R.gap) {frames : List Frame} (c : Context) (s : Stmt)
    (hs : s.Obeys R frames) : s.Fork c := by
  match s with
  | .skip => exact fun d ways => .quiet (.refl d ways)
  | .seq first rest =>
    intro d ways
    have hf := first.layOut_forks hgap c hs.1 d ways
    have hr := rest.layOut_forks hgap c hs.2 (first.layOut c d ways).draft (first.layOut c d ways).outs
    rw [Stmt.layOut]
    exact .follow hf.forks hf.jumps hr
  | .plain node => exact fun d ways => .quiet (d.forks_plain c node ways)
  | .ret _ => exact forks_ret
  | .throw _ => exact forks_throw
  | .jump _ _ _ => exact forks_jump
  | .branch _ _ onTrue onFalse =>
    exact forks_branch (onTrue.layOut_forks hgap c hs.1) (onFalse.layOut_forks hgap c hs.2)
  | .whileLoop node label condition body =>
    intro d ways
    rw [layOut_whileLoop]
    exact forks_headLoop (body.layOut_forks hgap _ hs) d ways _
  | .doLoop _ _ _ body => exact forks_doLoop (body.layOut_forks hgap _ hs)
  | .forLoop _ _ _ _ _ body => exact forks_forLoop (body.layOut_forks hgap _ hs)
  | .forEach node label iterated body =>
    intro d ways
    rw [layOut_forEach]
    exact forks_headLoop (body.layOut_forks hgap _ hs) d ways _
  | .switch _ _ clauses => exact forks_switch (clauses.layOut_forks hgap _ _ hs)
  | .tryCatch _ body _ catchBody _ finallyBody =>
    exact forks_tryCatch (fun _ => body.layOut_forks hgap _ hs.1) (fun _ => catchBody.layOut_forks hgap _ hs.2.1)
      (finallyBody.layOut_forks hgap c hs.2.2)
  | .labelled _ _ body => exact forks_labelled (body.layOut_forks hgap _ hs)
termination_by structural s

/-- Clauses laid out anywhere decide what they say. -/
theorem Clauses.layOut_forks {R : Rules} (hgap : ¬R.gap) {frames : List Frame} (c : Context) (selector : Option Nat)
    (s : Clauses) (hs : s.Obeys R frames) : s.Fork c selector := by
  intro branch d falling
  match s with
  | .nil =>
    rw [Clauses.entries, List.append_nil]
    exact .quiet (.refl d falling)
  | .onCase value body rest =>
    rw [Clauses.layOut]
    exact forks_onClause (body.layOut_forks hgap c hs.1) (rest.layOut_forks hgap c selector hs.2)
  | .onDefault body rest =>
    rw [Clauses.layOut]
    exact forks_onClause (body.layOut_forks hgap c hs.1) (rest.layOut_forks hgap c selector hs.2)
  | .gap rest => exact (hgap hs.1).elim
termination_by structural s

end

end Mend.Flow
