import Mend.Proofs.Flow.Throws

/-!
# Exception edges

In the graph of a function, the exceptions of every node go where the nesting of the `try` statements has them go
(`throws_of_mem_graphs`). Laying out a skeleton that stands under a catcher, the handler in force stands for the
catcher, and a block that is left open takes statements under it (`Stmt.layOut_fits`). No block stays open across
the border of a clause, where another catcher comes into force; and the ways that are connected later are of other
kinds than exceptions.
-/

namespace Mend.Flow

open Syntax (Ast Source Token)

variable {K : Nat → Option Catcher} {T : Nat → Prop} {k : Option Catcher} {c : Context} {d d' : Draft} {ast n : Nat}
  {ways : List Way} {x : Node}

/-- A layout in which exceptions go where they should. -/
structure Layout.Fits (K : Nat → Option Catcher) (T : Nat → Prop) (d : Draft) (l : Layout) : Prop where
  extend : d.Extends l.draft
  fits : l.draft.Fits K T
  outs : Quiet l.outs
  jumps : Quiet (l.jumps.map (·.way))

/-- Under the catcher `k`, a statement is laid out with its exceptions where they should go. -/
def Stmt.Fit (K : Nat → Option Catcher) (T : Nat → Prop) (c : Context) (k : Option Catcher) (s : Stmt) : Prop :=
  ∀ (d : Draft) (ways : List Way), d.Fits K T → Handles d.nodes c.handler k → d.Opens K T k → Quiet ways →
    (s.layOut c d ways).Fits K T d ∧ (s.layOut c d ways).draft.Opens K T k

namespace Layout.Fits

variable {l r : Layout} {depth : Nat} {outs : List Way} {jumps : List Jump} {body : Stmt}

/-- A layout that fits from a later draft on fits from an earlier one. -/
lemma before (hd : d.Extends d') (hl : l.Fits K T d') : l.Fits K T d :=
  ⟨hd.andThen hl.extend, hl.fits, hl.outs, hl.jumps⟩

/-- What comes after picks up jumps. -/
lemma after (hl : l.Fits K T d) (hd : l.draft.Extends d') (hfits : d'.Fits K T) (houts : Quiet outs)
    (hjumps : jumps ⊆ l.jumps) : Layout.Fits K T d ⟨d', outs, jumps⟩ where
  extend := hl.extend.andThen hd
  fits := hfits
  outs := houts
  jumps w hw := by
    obtain ⟨j, hj, rfl⟩ := List.mem_map.1 hw
    exact hl.jumps _ (List.mem_map_of_mem (hjumps hj))

/-- A layout that fits still does with its block closed and fewer jumps. -/
lemma close (hl : l.Fits K T d) (houts : Quiet outs) (hjumps : jumps ⊆ l.jumps) :
    Layout.Fits K T d ⟨l.draft.close, outs, jumps⟩ :=
  hl.after (Draft.extends_close l.draft) hl.fits.close houts hjumps

/-- Two layouts that fit, fit in a row. -/
lemma append (hl : l.Fits K T d) (hr : r.Fits K T l.draft) (houts : Quiet outs) :
    Layout.Fits K T d ⟨r.draft, outs, l.jumps ++ r.jumps⟩ where
  extend := hl.extend.andThen hr.extend
  fits := hr.fits
  outs := houts
  jumps := by
    rw [List.map_append]
    exact quiet_append.2 ⟨hl.jumps, hr.jumps⟩

/-- The breaks of a layout that fits are quiet. -/
lemma breaks (hl : l.Fits K T d) (depth : Nat) : Quiet (l.breaks depth) := by
  intro w hw
  obtain ⟨j, hj, -, -, rfl⟩ := mem_breaks.1 hw
  exact hl.jumps _ (List.mem_map_of_mem hj)

/-- The continues of a layout that fits are quiet. -/
lemma continues (hl : l.Fits K T d) (depth : Nat) : Quiet (l.continues depth) := by
  intro w hw
  obtain ⟨j, hj, -, -, rfl⟩ := mem_continues.1 hw
  exact hl.jumps _ (List.mem_map_of_mem hj)

/-- A layout that fits still does when it leads into a clause. -/
lemma into (hl : l.Fits K T d) (clause : Option Nat) : (l.into clause).Fits K T d := by
  cases clause with
  | none => exact hl
  | some n =>
    exact hl.after ((Draft.Extends.refl l.draft).connect l.outs n false) (hl.fits.connect hl.outs n false) quiet_nil
      (List.Subset.refl _)

/-- Behind a draft that is closed, a body fits under any catcher. -/
lemma behind_close (hbody : body.Fit K T c k) (h : d.Fits K T) (hhandles : Handles d.nodes c.handler k)
    (hways : Quiet ways) : (body.layOut c d.close ways).Fits K T d :=
  .before (Draft.extends_close d) (hbody d.close ways h.close hhandles (Draft.opens_of_closed rfl) hways).1

/-- A body behind the node that leads into it. -/
lemma behind_target {kind : NodeKind} {node : Nat} {into : List Way} (hbody : body.Fit K T c k) (h : d.Fits K T)
    (hhandles : Handles d.nodes c.handler k) (hnode : K node = k) (hways : Quiet ways) (hinto : Quiet into) :
    (body.layOut c (d.addTarget c kind node ways).1 into).Fits K T d := by
  have hd := d.extends_addTarget c kind node ways
  exact .before hd (hbody _ into (h.addTarget hhandles hnode hways) (handles_later hhandles hd)
    (Draft.opens_of_closed (Draft.current_addTarget ..)) hinto).1

/-- The body of a clause, behind what was laid out before it. -/
lemma clause (hl : l.Fits K T d) (hbody : body.Fit K T c k) (hhandles : Handles l.draft.nodes c.handler k)
    (clause : Option Nat) : (body.layOutClause c l clause).Fits K T d := by
  cases clause with
  | none => exact hl
  | some n =>
    have hr : (body.layOut c l.draft.close [.plain n]).Fits K T l.draft :=
      behind_close hbody hl.fits hhandles (quiet_plain n)
    exact hl.append hr (quiet_append.2 ⟨hl.outs, hr.outs⟩)

end Layout.Fits

namespace Draft.Fits

/-- A statement that lays out nothing fits. -/
lemma skip (h : d.Fits K T) (hways : Quiet ways) : Layout.Fits K T d ⟨d, ways, []⟩ := ⟨.refl d, h, hways, quiet_nil⟩

/-- A statement that control passes through, and that is no `throw`. -/
lemma plain (h : d.Fits K T) (hhandles : Handles d.nodes c.handler k) (hopen : d.Opens K T k)
    (hast : K ast = k ∧ ¬T ast) (hways : Quiet ways) :
    Layout.Fits K T d ⟨(d.plain c ast ways).1, (d.plain c ast ways).2, []⟩ ∧ (d.plain c ast ways).1.Opens K T k := by
  obtain ⟨d₁, b, hd, h₁, hcurrent, hb, more, way, hmore, -, hkind, heq⟩ := h.exists_block hhandles hopen hast.1 hways
  have hd' : d.Extends (d₁.append b ast) := Grows.append hd ast (.inl hcurrent)
  obtain ⟨happend, hb'⟩ := h₁.append hcurrent hb hast.2
  rw [heq]
  refine ⟨⟨hd'.connect more b false, happend.connect hmore b false, ?_, quiet_nil⟩, fun b' hcurrent' => ?_⟩
  · exact quiet_singleton (by rw [hkind]; decide)
  · cases hcurrent.symm.trans hcurrent'
    exact hb'

/-- A block for a part that may be missing fits. -/
lemma plain? (h : d.Fits K T) (hhandles : Handles d.nodes c.handler k) (hopen : d.Opens K T k) {part : Option Nat}
    (hpart : ∀ n ∈ part, K n = k ∧ ¬T n) (hways : Quiet ways) :
    Layout.Fits K T d ⟨(d.plain? c part ways).1, (d.plain? c part ways).2, []⟩ := by
  cases part with
  | none => exact h.skip hways
  | some ast => exact (h.plain hhandles hopen (hpart ast rfl) hways).1

/-- A `throw` leads to the exit where there is no handler. -/
lemma layOut_throw (h : d.Fits K T) (hhandles : Handles d.nodes c.handler k) (hopen : d.Opens K T k)
    (hast : K ast = k) (hT : T ast) (hways : Quiet ways) : ((Stmt.throw ast).layOut c d ways).Fits K T d := by
  obtain ⟨d₁, b, hd, h₁, hcurrent, hb, more, way, hmore, rfl, -, heq⟩ := h.exists_block hhandles hopen hast hways
  have hd' : d.Extends (d₁.append way.source ast) := Grows.append hd ast (.inl hcurrent)
  rw [Stmt.layOut, heq]
  exact ⟨((hd'.connect more way.source false).connect _ exitNode false).close,
    (h₁.throw (handles_later hhandles hd) hcurrent hb hT hmore).close, quiet_nil, quiet_nil⟩

end Draft.Fits

/-! ### Constructs -/

section

variable {node : Nat} {label : Option String} {condition : Option Nat} {body : Stmt} {l : Layout}
  (h : d.Fits K T) (hhandles : Handles d.nodes c.handler k) (hways : Quiet ways)

include h hhandles hways

/-- A loop with its test at the head fits. -/
lemma fits_headLoop {frame : Frame} {into out : Way} (hbody : body.Fit K T (c.enter frame) k) (hnode : K node = k)
    (hinto : Quiet [into]) (hout : Quiet [out]) (depth : Nat) :
    let l := body.layOut (c.enter frame) (d.addTarget c .branch node ways).1 [into]
    Layout.Fits K T d
      ⟨((l.draft.connect l.outs d.size true).connect (l.continues depth) d.size true).close, out :: l.breaks depth,
        l.passing depth⟩ := by
  intro l
  have hl : l.Fits K T d := .behind_target hbody h hhandles hnode hways hinto
  refine hl.after ?_ ?_ ?_ (Layout.passing_subset l depth)
  · exact (((Draft.Extends.refl l.draft).connect _ _ _).connect _ _ _).close
  · exact ((hl.fits.connect hl.outs _ _).connect (hl.continues depth) _ _).close
  · exact quiet_append.2 ⟨hout, hl.breaks depth⟩

/-- A `do` loop fits. -/
lemma fits_doLoop (hbody : body.Fit K T (c.enter ⟨label, true, true⟩) k) (hnode : K node = k)
    (hcondition : K (condition.getD node) = k) :
    ((Stmt.doLoop node label condition body).layOut c d ways).Fits K T d := by
  rw [layOut_doLoop]
  extract_lets l test
  have hl : l.Fits K T d := .behind_target hbody h hhandles hnode hways (quiet_plain d.size)
  have htest : (l.draft.addTarget c .branch (condition.getD node) l.outs).1.Fits K T :=
    hl.fits.addTarget (handles_later hhandles hl.extend) hcondition hl.outs
  have hback : Quiet [.guarded test .onTrue condition] := quiet_guarded (by decide) test condition
  refine hl.after ?_ ?_ ?_ (Layout.passing_subset l _)
  · exact (((l.draft.extends_addTarget c .branch (condition.getD node) l.outs).connect _ _ _).connect _ _ _).close
  · exact ((htest.connect (hl.continues _) _ _).connect hback _ _).close
  · exact quiet_append.2 ⟨quiet_guarded (by decide) test condition, hl.breaks _⟩

/-- A `for` loop fits. -/
lemma fits_forLoop {start step : Option Nat} (hbody : body.Fit K T (c.enter ⟨label, true, true⟩) k)
    (hopen : d.Opens K T k) (hnode : K node = k) (hstart : ∀ n ∈ start, K n = k ∧ ¬T n)
    (hstep : ∀ n ∈ step, K n = k ∧ ¬T n) :
    ((Stmt.forLoop node label start condition step body).layOut c d ways).Fits K T d := by
  rw [layOut_forLoop]
  extract_lets p head l q
  have hp : Layout.Fits K T d ⟨p.1, p.2, []⟩ := h.plain? hhandles hopen hstart hways
  have hinto : Quiet [if condition.isSome then .guarded head .onTrue condition else .plain head] := by
    split
    · exact quiet_guarded (by decide) head condition
    · exact quiet_plain head
  have hl : l.Fits K T p.1 :=
    .behind_target hbody hp.fits (handles_later hhandles hp.extend) hnode hp.outs hinto
  have hl : l.Fits K T d := .before hp.extend hl
  have hq : Layout.Fits K T l.draft.close ⟨q.1, q.2, []⟩ :=
    hl.fits.close.plain? (handles_later hhandles hl.extend.close) (Draft.opens_of_closed rfl) hstep
      (quiet_append.2 ⟨hl.outs, hl.continues _⟩)
  refine hl.after ?_ ?_ ?_ (Layout.passing_subset l _)
  · have hd : l.draft.Extends q.1 := (Draft.extends_close l.draft).andThen hq.extend
    exact (hd.connect _ _ _).close
  · exact (hq.fits.connect hq.outs _ _).close
  · refine quiet_append.2 ⟨?_, hl.breaks _⟩
    split
    · exact quiet_guarded (by decide) head condition
    · exact quiet_nil

/-- A `try` statement fits, its body under its own clauses. -/
lemma fits_tryCatch {catchNode finallyNode : Option Nat} {catchBody finallyBody : Stmt}
    (hbody : ∀ handler, body.Fit K T { c with handler } (some ((catchNode.or finallyNode).elim .exit .clause)))
    (hcatch : ∀ handler, catchBody.Fit K T { c with handler } ((finallyNode.map .clause).or k))
    (hfinally : finallyBody.Fit K T c k) (hcatchNode : ∀ n ∈ catchNode, K n = k)
    (hfinallyNode : ∀ n ∈ finallyNode, K n = k) :
    ((Stmt.tryCatch node body catchNode catchBody finallyNode finallyBody).layOut c d ways).Fits K T d := by
  rw [layOut_tryCatch]
  extract_lets catcher finisher b r f
  obtain ⟨hcatcher, -⟩ := (Draft.extends_close d).addClause (c := c) catchNode fun _ _ => .inl trivial
  obtain ⟨hfinisher, -⟩ := (Draft.Extends.refl catcher.1).addClause (c := c) finallyNode fun _ _ => .inl trivial
  have hstart : finisher.1.Fits K T :=
    (h.close.addClause hhandles hcatchNode).addClause (handles_later hhandles hcatcher) hfinallyNode
  have hd : d.Extends finisher.1 := Draft.Extends.andThen hcatcher hfinisher
  have hclosed : finisher.1.current = none := by
    rw [Draft.current_addClause, Draft.current_addClause, Draft.current_close]
  -- The clauses have their nodes before the body is laid out, and what is laid out later leaves them as they are.
  have hcatcher := handles_later (handles_addClause d.close c catchNode) hfinisher
  have hfinisher := handles_addClause catcher.1 c finallyNode
  have htarget := handles_or hcatcher hfinisher
  rw [← Option.map_or] at htarget
  obtain ⟨hb, -⟩ : b.Fits K T finisher.1 ∧ _ :=
    hbody _ _ _ hstart (handles_getD htarget) (Draft.opens_of_closed hclosed) hways
  have hhandles := handles_later hhandles hd
  have hr : r.Fits K T finisher.1 :=
    hb.clause (hcatch _) (handles_or (handles_later hfinisher hb.extend) (handles_later hhandles hb.extend)) catcher.2
  have hr := hr.into finisher.2
  have hf : f.Fits K T finisher.1 := hr.clause hfinally (handles_later hhandles hr.extend) finisher.2
  exact (hf.before hd).close hf.outs (List.Subset.refl _)

end

mutual

/-- Laying out a statement under the catcher `k`, exceptions go where they should. -/
theorem Stmt.layOut_fits {k : Option Catcher} (c : Context) (d : Draft) (ways : List Way) (s : Stmt)
    (hs : s.Under K T k) (h : d.Fits K T) (hhandles : Handles d.nodes c.handler k) (hopen : d.Opens K T k)
    (hways : Quiet ways) :
    (s.layOut c d ways).Fits K T d ∧ (s.layOut c d ways).draft.Opens K T k := by
  match s with
  | .skip => exact ⟨h.skip hways, hopen⟩
  | .seq first rest =>
    -- The rest stands under the same catcher, so it may go on in a block that the first statement left open.
    obtain ⟨hf, hfopen⟩ := first.layOut_fits c d ways hs.1 h hhandles hopen hways
    obtain ⟨hr, hropen⟩ := rest.layOut_fits c _ (first.layOut c d ways).outs hs.2 hf.fits
      (handles_later hhandles hf.extend) hfopen hf.outs
    rw [Stmt.layOut]
    exact ⟨hf.append hr hr.outs, hropen⟩
  | .plain node => exact h.plain hhandles hopen hs hways
  | .ret node =>
    obtain ⟨hp, -⟩ := h.plain hhandles hopen hs hways
    refine ⟨hp.after ?_ (hp.fits.connect hp.outs exitNode false).close quiet_nil (List.Subset.refl _),
      Draft.opens_of_closed rfl⟩
    exact ((Draft.Extends.refl _).connect _ exitNode false).close
  | .throw node => exact ⟨h.layOut_throw hhandles hopen hs.1 hs.2 hways, Draft.opens_of_closed rfl⟩
  | .jump node isContinue label =>
    obtain ⟨hp, -⟩ := h.plain hhandles hopen hs hways
    rw [Stmt.layOut]
    cases c.target? isContinue label with
    | none => exact ⟨hp.close hp.outs (List.Subset.refl _), Draft.opens_of_closed rfl⟩
    | some depth =>
      refine ⟨⟨hp.extend.close, hp.fits.close, quiet_nil, ?_⟩, Draft.opens_of_closed rfl⟩
      rw [List.map_map, Function.comp_def, List.map_id']
      exact hp.outs
  | .branch node condition onTrue onFalse =>
    rw [layOut_branch]
    extract_lets t f
    have ht : t.Fits K T d := .behind_target (fun d ways => onTrue.layOut_fits c d ways hs.2.1) h hhandles hs.1 hways
      (quiet_guarded (by decide) d.size condition)
    have hf : f.Fits K T t.draft := .behind_close (fun d ways => onFalse.layOut_fits c d ways hs.2.2) ht.fits
      (handles_later hhandles ht.extend) (quiet_guarded (by decide) d.size condition)
    exact ⟨(ht.append hf quiet_nil).close (quiet_append.2 ⟨ht.outs, hf.outs⟩) (List.Subset.refl _),
      Draft.opens_of_closed rfl⟩
  | .whileLoop node label condition body =>
    rw [layOut_whileLoop]
    exact ⟨fits_headLoop h hhandles hways (fun d ways => body.layOut_fits _ d ways hs.2) hs.1
      (quiet_guarded (by decide) d.size condition) (quiet_guarded (by decide) d.size condition) _,
      Draft.opens_of_closed rfl⟩
  | .doLoop node label condition body =>
    refine ⟨fits_doLoop h hhandles hways (fun d ways => body.layOut_fits _ d ways hs.2.2) hs.1 hs.2.1, ?_⟩
    rw [layOut_doLoop]
    exact Draft.opens_of_closed rfl
  | .forLoop node label start condition step body =>
    obtain ⟨hnode, hstart, hstep, hs⟩ := hs
    refine ⟨fits_forLoop h hhandles hways (fun d ways => body.layOut_fits _ d ways hs) hopen hnode hstart hstep, ?_⟩
    rw [layOut_forLoop]
    exact Draft.opens_of_closed rfl
  | .forEach node label iterated body =>
    rw [layOut_forEach]
    exact ⟨fits_headLoop h hhandles hways (fun d ways => body.layOut_fits _ d ways hs.2) hs.1
      (quiet_guarded (by decide) d.size iterated) (quiet_guarded (by decide) d.size iterated) _,
      Draft.opens_of_closed rfl⟩
  | .switch node selector clauses =>
    have hd := d.extends_addTarget c .branch node ways
    have hb : (d.addTarget c .branch node ways).1.Fits K T := h.addTarget hhandles hs.1 hways
    have hl := clauses.layOut_fits (c.enter ⟨none, false, true⟩) d.size selector
      (d.addTarget c .branch node ways).1 [] hs.2 hb (handles_later hhandles hd) quiet_nil
    rw [layOut_switch]
    refine ⟨(hl.before hd).close ?_ (Layout.passing_subset _ _), Draft.opens_of_closed rfl⟩
    refine quiet_append.2 ⟨quiet_append.2 ⟨hl.outs, ?_⟩, hl.breaks _⟩
    split
    · exact quiet_nil
    · exact quiet_guarded (by decide) d.size selector
  | .tryCatch node body catchNode catchBody finallyNode finallyBody =>
    obtain ⟨hcatchNode, hfinallyNode, hbody, hcatch, hfinally⟩ := hs
    refine ⟨fits_tryCatch h hhandles hways (fun _ d ways => body.layOut_fits _ d ways hbody)
      (fun _ d ways => catchBody.layOut_fits _ d ways hcatch)
      (fun d ways => finallyBody.layOut_fits c d ways hfinally) hcatchNode hfinallyNode, ?_⟩
    rw [layOut_tryCatch]
    exact Draft.opens_of_closed rfl
  | .labelled node label body =>
    rw [layOut_labelled]
    have hl : (body.layOut (c.enter ⟨label, false, false⟩) d.close ways).Fits K T d :=
      .behind_close (fun d ways => body.layOut_fits _ d ways hs) h hhandles hways
    exact ⟨hl.close (quiet_append.2 ⟨hl.outs, hl.breaks _⟩) (Layout.passing_subset _ _), Draft.opens_of_closed rfl⟩
termination_by structural s

/-- The clauses of a `switch` fit. -/
theorem Clauses.layOut_fits {k : Option Catcher} (c : Context) (branch : Nat) (selector : Option Nat) (d : Draft)
    (falling : List Way) (s : Clauses) (hs : s.Under K T k) (h : d.Fits K T) (hhandles : Handles d.nodes c.handler k)
    (hfalling : Quiet falling) : (s.layOut c branch selector d falling).Fits K T d := by
  match s with
  | .nil => exact h.skip hfalling
  | .onCase value body rest =>
    have hb : (body.layOut c d.close (falling ++ [⟨branch, .onCase, selector, value⟩])).Fits K T d :=
      .behind_close (fun d ways => body.layOut_fits c d ways hs.1) h hhandles
        (quiet_append.2 ⟨hfalling, quiet_singleton nofun⟩)
    have hr := rest.layOut_fits c branch selector _
      (body.layOut c d.close (falling ++ [⟨branch, .onCase, selector, value⟩])).outs hs.2 hb.fits
      (handles_later hhandles hb.extend) hb.outs
    rw [Clauses.layOut]
    exact hb.append hr hr.outs
  | .onDefault body rest =>
    have hb : (body.layOut c d.close (falling ++ [.guarded branch .onDefault selector])).Fits K T d :=
      .behind_close (fun d ways => body.layOut_fits c d ways hs.1) h hhandles
        (quiet_append.2 ⟨hfalling, quiet_guarded (by decide) branch selector⟩)
    have hr := rest.layOut_fits c branch selector _
      (body.layOut c d.close (falling ++ [.guarded branch .onDefault selector])).outs hs.2 hb.fits
      (handles_later hhandles hb.extend) hb.outs
    rw [Clauses.layOut]
    exact hb.append hr hr.outs
  | .gap rest =>
    rw [Clauses.layOut]
    exact rest.layOut_fits c branch selector d [] hs h hhandles quiet_nil
termination_by structural s

end

/-- The draft at the start fits. -/
lemma Draft.fits_start (K : Nat → Option Catcher) (T : Nat → Prop) (f : Nat) : (Draft.start f).Fits K T := by
  refine ⟨Nat.le_refl 2, nofun, fun n x hn hx => ?_⟩
  have hlt := (Array.getElem?_eq_some_iff.1 hx).1
  exact absurd hlt (Nat.not_lt.2 hn)

/-- In the graph of a skeleton that nothing stands around, exceptions go where they should. -/
lemma throws_ofStmt {s : Stmt} (hs : s.Under K T none) (f : Nat) (name : String)
    (hx : (Graph.ofStmt f name s).nodes[n]? = some x) (hn : 2 ≤ n) :
    x.Throws K T (Graph.ofStmt f name s).nodes (thrown (Graph.ofStmt f name s).edges n) := by
  obtain ⟨hl, -⟩ := s.layOut_fits ⟨none, []⟩ (.start f) [.plain entryNode] hs (Draft.fits_start K T f) .none
    (Draft.opens_of_closed rfl) (quiet_plain entryNode)
  exact (hl.fits.connect hl.outs exitNode false).throws n x hn hx

/-- A graph is that of the program or of a function. -/
lemma function_of_mem_graphs {a : Ast} {g : Graph} (h : g ∈ graphs a) :
    a.root? = some g.function ∨ a.isFunction g.function = true := by
  unfold graphs at h
  split at h
  · cases h
  · next root hroot =>
    rcases List.mem_cons.1 h with rfl | h
    · exact .inl hroot
    · obtain ⟨f, hf, rfl⟩ := List.mem_map.1 h
      exact .inr (List.mem_filter.1 hf).2

section Graphs

variable {s : Source} {simplify : Bool} {g : Graph}

/-- The exceptions of every node but the entry and the exit go where the nesting of the `try` statements has them
go, each by the one edge. What protects a node catches them, unless an inner `finally` clause does. -/
theorem throws_of_mem_graphs (hs : s.IsScript) (hgrammar : s.tree.FollowsGrammar)
    (hg : g ∈ graphs (s.read simplify)) (hx : g.nodes[n]? = some x) (hentry : n ≠ entryNode) (hexit : n ≠ exitNode) :
    x.Throws ((s.read simplify).catcher? g.function) ((s.read simplify).IsThrow g.function) g.nodes
        (thrown g.edges n) ∧
      ∀ t, (s.read simplify).enclosingTry? x.ast = some t → ¬(s.read simplify).InInnerCatch t x.ast →
        ∃ m, ((s.read simplify).bodyCatcher t).IsAt g.nodes m ∧ thrown g.edges n = [m] := by
  have hfunction := function_of_mem_graphs hg
  obtain ⟨f, name, rfl⟩ := mem_graphs hg
  have hn : 2 ≤ n := by
    unfold entryNode at hentry
    unfold exitNode at hexit
    omega
  have hthrows := throws_ofStmt (Ast.under_skeleton (Ast.followsRules_read hgrammar simplify) f) f name hx hn
  refine ⟨hthrows, fun t ht hno => hthrows.of_eq_some (Ast.catcher?_of_enclosingTry? ?_ ht hno)⟩
  rcases hfunction with hroot | hfun
  · have h0 : f = 0 := by
      rw [Ast.root?] at hroot
      split at hroot
      · cases hroot
      · exact (Option.some.inj hroot).symm
    refine .inr ⟨h0 ▸ Ast.parent?_zero _, ?_⟩
    rw [h0, (hs.read simplify).kind_zero]
    decide
  · exact .inl hfun

end Graphs

/-- The program `try { try { a; } catch (e) { throw e; } finally { b; } } catch (f) {}`, punctuation left out. -/
def nestedTry : Source :=
  ⟨"try { try { a; } catch (e) { throw e; } finally { b; } } catch (f) {}",
    .cons (.clean "program" none 0 69)
      (.cons (.clean "try_statement" none 0 69)
        (.cons (.clean "statement_block" (some "body") 4 56)
          (.cons (.clean "try_statement" none 6 54)
            (.cons (.clean "statement_block" (some "body") 10 16)
              (.cons (.clean "expression_statement" none 12 14)
                (.cons (.clean "identifier" none 12 13) .nil .nil) .nil)
              (.cons (.clean "catch_clause" (some "handler") 17 39)
                (.cons (.clean "identifier" (some "parameter") 24 25) .nil
                  (.cons (.clean "statement_block" (some "body") 27 39)
                    (.cons (.clean "throw_statement" none 29 37)
                      (.cons (.clean "identifier" none 35 36) .nil .nil) .nil) .nil))
                (.cons (.clean "finally_clause" (some "finalizer") 40 54)
                  (.cons (.clean "statement_block" (some "body") 48 54)
                    (.cons (.clean "expression_statement" none 50 52)
                      (.cons (.clean "identifier" none 50 51) .nil .nil) .nil) .nil) .nil))) .nil)
          (.cons (.clean "catch_clause" (some "handler") 57 69)
            (.cons (.clean "identifier" (some "parameter") 64 65) .nil
              (.cons (.clean "statement_block" (some "body") 67 69) .nil .nil)) .nil)) .nil) .nil⟩

/-- The graph of that program. -/
def nestedGraph : Graph := .ofStmt 0 Syntax.scriptName ((nestedTry.read false).skeleton 0)

/-- The inner `throw` goes to the inner `finally` clause, and what stands there to the outer `catch` clause. -/
theorem throws_of_mem_graphs_nestedTry : nestedTry.IsScript ∧ nestedTry.tree.FollowsGrammar ∧
    nestedGraph ∈ graphs (nestedTry.read false) ∧ nestedGraph.nodes[6]? = some ⟨.block, 10, [10]⟩ ∧
    Node.Throws ((nestedTry.read false).catcher? 0) ((nestedTry.read false).IsThrow 0) nestedGraph.nodes
      ⟨.block, 10, [10]⟩ [4] ∧
    nestedGraph.nodes[7]? = some ⟨.block, 14, [14]⟩ ∧ (nestedTry.read false).enclosingTry? 14 = some 1 ∧
    ¬(nestedTry.read false).InInnerCatch 1 14 ∧
    ∃ m, ((nestedTry.read false).bodyCatcher 1).IsAt nestedGraph.nodes m ∧ thrown nestedGraph.edges 7 = [m] := by
  have hs : nestedTry.IsScript := ⟨_, _, rfl, rfl, rfl⟩
  have hgrammar : nestedTry.tree.FollowsGrammar := by decide +kernel
  have hg : nestedGraph ∈ graphs (nestedTry.read false) := List.mem_cons_self
  have hthrow : nestedGraph.nodes[6]? = some ⟨.block, 10, [10]⟩ := by decide +kernel
  have hlast : nestedGraph.nodes[7]? = some ⟨.block, 14, [14]⟩ := by decide +kernel
  have htry : (nestedTry.read false).enclosingTry? 14 = some 1 := by decide +kernel
  have hno : ¬(nestedTry.read false).InInnerCatch 1 14 := by decide +kernel
  have htargets : thrown nestedGraph.edges 6 = [4] := by decide +kernel
  obtain ⟨hthrows, -⟩ := throws_of_mem_graphs hs hgrammar hg hthrow (by decide) (by decide)
  obtain ⟨-, hprotected⟩ := throws_of_mem_graphs hs hgrammar hg hlast (by decide) (by decide)
  rw [htargets] at hthrows
  exact ⟨hs, hgrammar, hg, hthrow, hthrows, hlast, htry, hno, hprotected 1 htry hno⟩

end Mend.Flow
