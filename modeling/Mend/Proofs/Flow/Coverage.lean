import Mend.Proofs.Flow.Draft
import Mend.Proofs.Flow.Skeleton
import Mend.Proofs.Syntax.Roles

/-!
# Every statement is represented once

A graph represents the statements of its function, each of them once, but for those behind a comment that opens
an `else` clause: there the comment is taken for the branch (`graphs_represent`, `graphs_miss_commentedElse`).
Laying out a
statement writes its census: what the nodes stand for afterwards is what they stood for before and the roles
of the statement (`Stmt.writes_layOut`). The statement may go on in the block that is still open, which is
why the blocks stay in order only if that block holds nothing from behind it (`Draft.Before`) and no jump
(`Draft.Tidy`). That the census of a function names no role twice is a matter of its tree
(`Ast.nodup_census_skeleton`).
-/

namespace Mend.Flow

open Syntax (Ast)

/-- The roles that a flow node plays: a block stands for its statements, any other node for its syntax
node. -/
def Node.roles (x : Node) : List Role :=
  if x.kind = .block then x.statements.map (.block, ·) else [(x.kind, x.ast)]

/-- The roles that the nodes of a graph play. -/
def Graph.census (g : Graph) : List Role := g.nodes.toList.flatMap Node.roles

namespace Draft

/-- The roles that the nodes of a draft play. -/
def census (d : Draft) : List Role := d.nodes.toList.flatMap Node.roles

/-- The statements of the block that takes the next one. -/
def opened (d : Draft) : List Nat := (d.current.bind (d.nodes[·]?)).elim [] (·.statements)

/-- Blocks list their statements in ascending order, and a jump is the last of its block; the block that takes the
next statement has none. `J` holds of jumps. -/
structure Tidy (J : Nat → Prop) (d : Draft) : Prop where
  ascending : ∀ (n : Nat) (x : Node), d.nodes[n]? = some x → x.statements.Pairwise (· < ·)
  jumpsLast : ∀ (n : Nat) (x : Node), d.nodes[n]? = some x → ∀ s ∈ x.statements.dropLast, ¬ J s
  current : ∀ n, d.current = some n → ∃ x, d.nodes[n]? = some x ∧ x.kind = .block
  flowsOn : ∀ s ∈ d.opened, ¬ J s

/-- On the way from `d` to `d'` the roles in `written` were added. -/
structure Writes (J : Nat → Prop) (d d' : Draft) (written : List Role) : Prop where
  tidy : d'.Tidy J
  census : d'.census.Perm (d.census ++ written)
  opened : ∀ s ∈ d'.opened, s ∈ d.opened ∨ ∃ p ∈ written, p.2 = s

variable {J : Nat → Prop} {d d' d'' : Draft} {c : Context} {kind : NodeKind} {ast n : Nat}
  {ways : List Way} {w v : List Role}

/-- Closing a block keeps a draft tidy. -/
lemma Tidy.close (h : d.Tidy J) : d.close.Tidy J where
  ascending := h.ascending
  jumpsLast := h.jumpsLast
  current := nofun
  flowsOn := nofun

/-- So does connecting ways. -/
lemma Tidy.connect (h : d.Tidy J) (ways : List Way) (n : Nat) (b : Bool) :
    (d.connect ways n b).Tidy J where
  ascending := h.ascending
  jumpsLast := h.jumpsLast
  current := h.current
  flowsOn := h.flowsOn

/-- A new node leaves the open block as it is. -/
lemma opened_addNode (h : d.Tidy J) : (d.addNode c kind ast).1.opened = d.opened := by
  unfold opened
  rw [current_addNode, nodes_addNode]
  cases hc : d.current with
  | none => rfl
  | some n =>
    obtain ⟨x, hx, -⟩ := h.current n hc
    have hn := (Array.getElem?_eq_some_iff.1 hx).1
    rw [Option.bind_some, Option.bind_some, Array.getElem?_push_lt hn, ← Array.getElem?_eq_getElem hn]

/-- A new node holds no statements yet. -/
lemma Tidy.addNode (h : d.Tidy J) (c : Context) (kind : NodeKind) (ast : Nat) :
    (d.addNode c kind ast).1.Tidy J where
  ascending n x hx := by
    rw [nodes_addNode, Array.getElem?_push] at hx
    split at hx
    · cases hx
      exact .nil
    · exact h.ascending n x hx
  jumpsLast n x hx := by
    rw [nodes_addNode, Array.getElem?_push] at hx
    split at hx
    · cases hx
      nofun
    · exact h.jumpsLast n x hx
  current n hn := by
    rw [current_addNode] at hn
    obtain ⟨x, hx, hk⟩ := h.current n hn
    have hn := (Array.getElem?_eq_some_iff.1 hx).1
    refine ⟨x, ?_, hk⟩
    rw [nodes_addNode, Array.getElem?_push_lt hn, ← Array.getElem?_eq_getElem hn, hx]
  flowsOn := by
    rw [opened_addNode h]
    exact h.flowsOn

/-- A new node plays its own role. -/
lemma census_addNode (d : Draft) (c : Context) (kind : NodeKind) (ast : Nat) :
    (d.addNode c kind ast).1.census = d.census ++ Node.roles ⟨kind, ast, []⟩ := by
  simp [census]

/-- A further statement of a block is one role more. -/
lemma census_append {x : Node} (hx : d.nodes[n]? = some x) (hk : x.kind = .block) (ast : Nat) :
    (d.append n ast).census.Perm (d.census ++ [(.block, ast)]) := by
  obtain ⟨hn, hx⟩ := Array.getElem?_eq_some_iff.1 hx
  have hl : n < d.nodes.toList.length := hn
  have hx : d.nodes.toList[n] = x := hx
  have hroles : Node.roles (x.extend [ast]) = x.roles ++ [(.block, ast)] := by
    simp [Node.roles, Node.extend, hk]
  have hsplit : d.nodes.toList = d.nodes.toList.take n ++ x :: d.nodes.toList.drop (n + 1) := by
    rw [← hx, List.getElem_cons_drop, List.take_append_drop]
  have hnew : (d.append n ast).nodes.toList =
      d.nodes.toList.take n ++ x.extend [ast] :: d.nodes.toList.drop (n + 1) := by
    rw [append, Array.toList_modify, List.modify_eq_take_cons_drop hl, hx]
    rfl
  unfold census
  rw [hnew]
  conv_rhs => rw [hsplit]
  simp only [List.flatMap_append, List.flatMap_cons, hroles, List.append_assoc]
  exact (List.perm_append_comm.append_left _).append_left _

/-- The open block holds what it was given. -/
lemma opened_of_current {x : Node} (hn : d.current = some n) (hx : d.nodes[n]? = some x) :
    d.opened = x.statements := by
  simp [opened, hn, hx]

/-- What holds of the nodes after a statement was added to the end of the open block. -/
lemma Tidy.append_close (h : d.Tidy J) (hn : d.current = some n) (hbefore : ∀ s ∈ d.opened, s < ast) :
    (d.append n ast).close.Tidy J where
  ascending m y hy := by
    rw [nodes_close, getElem?_append] at hy
    split at hy
    · next hm =>
      subst hm
      obtain ⟨x, hx, rfl⟩ := Option.map_eq_some_iff.1 hy
      rw [opened_of_current hn hx] at hbefore
      refine List.pairwise_append.2 ⟨h.ascending m x hx, List.pairwise_singleton _ _, ?_⟩
      intro s hs t ht
      rw [List.mem_singleton.1 ht]
      exact hbefore s hs
    · exact h.ascending m y hy
  jumpsLast m y hy := by
    rw [nodes_close, getElem?_append] at hy
    split at hy
    · next hm =>
      subst hm
      obtain ⟨x, hx, rfl⟩ := Option.map_eq_some_iff.1 hy
      have hflows := h.flowsOn
      rw [opened_of_current hn hx] at hflows
      simpa [Node.extend] using hflows
    · exact h.jumpsLast m y hy
  current := nofun
  flowsOn := nofun

/-- A further statement goes into the open block. -/
lemma opened_append (hn : d.current = some n) : ∀ s ∈ (d.append n ast).opened, s ∈ d.opened ∨ s = ast := by
  intro s hs
  cases hx : d.nodes[n]? with
  | none => simp [opened, hn, getElem?_append, hx] at hs
  | some x =>
    have hy : (d.append n ast).nodes[n]? = some (x.extend [ast]) := by
      rw [getElem?_append, if_pos rfl, hx]
      rfl
    rw [opened_of_current (by simpa using hn) hy] at hs
    rw [opened_of_current hn hx]
    simpa [Node.extend] using hs

/-- A statement that comes later in the file and is no jump keeps the draft tidy. -/
lemma Tidy.append (h : d.Tidy J) (hn : d.current = some n) (hbefore : ∀ s ∈ d.opened, s < ast)
    (hJ : ¬ J ast) : (d.append n ast).Tidy J where
  ascending := (h.append_close hn hbefore).ascending
  jumpsLast := (h.append_close hn hbefore).jumpsLast
  current m hm := by
    obtain ⟨x, hx, hk⟩ := h.current m hm
    rw [getElem?_append, hx]
    split
    · exact ⟨_, rfl, hk⟩
    · exact ⟨x, rfl, hk⟩
  flowsOn s hs := by
    rcases opened_append hn s hs with hs | rfl
    · exact h.flowsOn s hs
    · exact hJ

/-- Nothing is written by nothing. -/
lemma Writes.refl (h : d.Tidy J) : d.Writes J d [] where
  tidy := h
  census := by simp
  opened s hs := .inl hs

/-- What is written in two steps is written one after the other. -/
lemma Writes.trans (h : d.Writes J d' w) (h' : d'.Writes J d'' v) : d.Writes J d'' (w ++ v) where
  tidy := h'.tidy
  census := by
    rw [← List.append_assoc]
    exact h'.census.trans (h.census.append_right v)
  opened s hs := by
    rcases h'.opened s hs with hs | ⟨p, hp, rfl⟩
    · rcases h.opened s hs with hs | ⟨p, hp, rfl⟩
      · exact .inl hs
      · exact .inr ⟨p, List.mem_append_left _ hp, rfl⟩
    · exact .inr ⟨p, List.mem_append_right _ hp, rfl⟩

/-- The order does not matter. -/
lemma Writes.perm (h : d.Writes J d' w) (hp : w.Perm v) : d.Writes J d' v where
  tidy := h.tidy
  census := h.census.trans (hp.append_left _)
  opened s hs := (h.opened s hs).imp_right fun ⟨p, hw, hs⟩ => ⟨p, hp.mem_iff.1 hw, hs⟩

/-- Closing a block writes nothing. -/
lemma Writes.close (h : d.Writes J d' w) : d.Writes J d'.close w where
  tidy := h.tidy.close
  census := h.census
  opened := nofun

/-- Connecting ways writes nothing. -/
lemma Writes.connect (h : d.Writes J d' w) (ways : List Way) (n : Nat) (b : Bool) :
    d.Writes J (d'.connect ways n b) w where
  tidy := h.tidy.connect ways n b
  census := h.census
  opened := h.opened

/-- A new node that is no block writes its role. -/
lemma Writes.addNode (h : d.Writes J d' w) (c : Context) (hk : kind ≠ .block) (ast : Nat) :
    d.Writes J (d'.addNode c kind ast).1 (w ++ [(kind, ast)]) := by
  refine h.trans ⟨h.tidy.addNode c kind ast, ?_, fun s hs => .inl ?_⟩
  · rw [census_addNode]
    simp [Node.roles, hk]
  · rwa [opened_addNode h.tidy] at hs

/-- So does a target. -/
lemma Writes.addTarget (h : d.Writes J d' w) (c : Context) (hk : kind ≠ .block) (ast : Nat)
    (ways : List Way) : d.Writes J (d'.addTarget c kind ast ways).1 (w ++ [(kind, ast)]) := by
  rw [addTarget_fst]
  exact (h.close.addNode c hk ast).connect ways d'.size false

/-- The open block lists nothing that comes after what is to be written. -/
def Before (d : Draft) (written : List Role) : Prop := ∀ s ∈ d.opened, ∀ p ∈ written, s < p.2

/-- No statement is open before anything when no block is. -/
lemma before_of_closed (h : d.current = none) : d.Before w := by
  intro s hs
  rw [opened, h] at hs
  cases hs

/-- What comes before all of them comes before some of them. -/
lemma Before.mono (h : d.Before w) (hv : v ⊆ w) : d.Before v := fun s hs p hp => h s hs p (hv hp)

/-- A block without statements was added, and takes the next statement. -/
lemma Writes.openBlock (h : d.Tidy J) (c : Context) (ast : Nat) :
    d.Writes J ((d.addNode c .block ast).1.reopen d.size) [] := by
  have hnew : ((d.addNode c .block ast).1.reopen d.size).nodes[d.size]? = some ⟨.block, ast, []⟩ := by
    simp [size]
  have hopened : ((d.addNode c .block ast).1.reopen d.size).opened = [] :=
    opened_of_current (current_reopen _ _) hnew
  have htidy := h.addNode c .block ast
  refine ⟨⟨htidy.ascending, htidy.jumpsLast, ?_, ?_⟩, ?_, ?_⟩
  · intro n hn
    cases hn
    exact ⟨_, hnew, rfl⟩
  · rw [hopened]
    exact fun _ h => absurd h List.not_mem_nil
  · change (d.addNode c .block ast).1.census.Perm _
    rw [census_addNode]
    simp [Node.roles]
  · rw [hopened]
    exact fun _ h => absurd h List.not_mem_nil

/-- A statement is added to the end of a block: of the open one, or of a new one. -/
lemma plain_cases (h : d.Tidy J) (c : Context) (ast : Nat) (ways : List Way) :
    ∃ d₁ n, d.Writes J d₁ [] ∧ d₁.current = some n ∧
      ∃ more, (d.plain c ast ways).1 = (d₁.append n ast).connect more n false := by
  cases hb : d.openBlock? ways with
  | some block =>
    rw [plain_of_openBlock?_eq_some d c ast ways hb]
    refine ⟨d, block, .refl h, (openBlock?_eq_some d ways hb).1, [], ?_⟩
    simp only [connect, List.map_nil, Array.append_empty]
  | none =>
    rw [plain_of_openBlock?_eq_none d c ast ways hb]
    exact ⟨_, d.size, .openBlock h c ast, current_reopen _ _, ways, rfl⟩

/-- A plain statement writes its role, behind what the open block holds. -/
lemma writes_plain_close (h : d.Tidy J) (c : Context) (ways : List Way)
    (hbefore : ∀ s ∈ d.opened, s < ast) : d.Writes J (d.plain c ast ways).1.close [(.block, ast)] := by
  obtain ⟨d₁, n, h₁, hn, more, heq⟩ := plain_cases h c ast ways
  obtain ⟨x, hx, hk⟩ := h₁.tidy.current n hn
  have hbefore₁ : ∀ s ∈ d₁.opened, s < ast := by
    intro s hs
    rcases h₁.opened s hs with hs | ⟨p, hp, -⟩
    · exact hbefore s hs
    · cases hp
  rw [heq]
  exact h₁.trans ⟨(h₁.tidy.append_close hn hbefore₁).connect more n false, census_append hx hk ast, nofun⟩

/-- If it is no jump, the block may stay open. -/
lemma writes_plain (h : d.Tidy J) (c : Context) (ways : List Way)
    (hbefore : ∀ s ∈ d.opened, s < ast) (hJ : ¬ J ast) :
    d.Writes J (d.plain c ast ways).1 [(.block, ast)] := by
  obtain ⟨d₁, n, h₁, hn, more, heq⟩ := plain_cases h c ast ways
  obtain ⟨x, hx, hk⟩ := h₁.tidy.current n hn
  have hbefore₁ : ∀ s ∈ d₁.opened, s < ast := by
    intro s hs
    rcases h₁.opened s hs with hs | ⟨p, hp, -⟩
    · exact hbefore s hs
    · cases hp
  rw [heq]
  refine h₁.trans ⟨(h₁.tidy.append hn hbefore₁ hJ).connect more n false, census_append hx hk ast, ?_⟩
  intro s hs
  exact (opened_append hn s hs).imp_right fun hs => ⟨_, List.mem_singleton_self _, hs.symm⟩

/-- A plain statement that may be missing writes its role if it is there. -/
lemma writes_plain?_close (h : d.Tidy J) (c : Context) (part : Option Nat) (ways : List Way)
    (hbefore : ∀ s ∈ d.opened, ∀ t, part = some t → s < t) :
    d.Writes J (d.plain? c part ways).1.close (part.toList.map (.block, ·)) := by
  cases part with
  | none => exact (Writes.refl h).close
  | some t => exact writes_plain_close h c ways fun s hs => hbefore s hs t rfl

/-- The node of a clause writes its role. -/
lemma Writes.addClause (h : d.Writes J d' w) (c : Context) (clause : Option Nat) :
    d.Writes J (d'.addClause c clause).1 (w ++ clause.toList.map (.handler, ·)) := by
  cases clause with
  | none => simpa [Draft.addClause] using h
  | some n => exact h.addNode c (by decide) n

end Draft

mutual

/-- A skeleton whose statements come in ascending order, none of them a jump but where it says so. -/
def Stmt.Orderly (J : Nat → Prop) : Stmt → Prop
  | .skip | .ret _ | .throw _ | .jump .. => True
  | .seq first rest => first.Orderly J ∧ rest.Orderly J ∧
      ∀ p ∈ first.census, ∀ q ∈ rest.census, p.2 < q.2
  | .plain node => ¬ J node
  | .branch _ _ onTrue onFalse => onTrue.Orderly J ∧ onFalse.Orderly J
  | .whileLoop _ _ _ body | .doLoop _ _ _ body | .forLoop _ _ _ _ _ body | .forEach _ _ _ body
  | .labelled _ _ body => body.Orderly J
  | .switch _ _ clauses => clauses.Orderly J
  | .tryCatch _ body _ catchBody _ finallyBody =>
    body.Orderly J ∧ catchBody.Orderly J ∧ finallyBody.Orderly J

/-- Clauses of which each holds an orderly skeleton. -/
def Clauses.Orderly (J : Nat → Prop) : Clauses → Prop
  | .nil => True
  | .onCase _ body rest | .onDefault body rest => body.Orderly J ∧ rest.Orderly J
  | .gap rest => rest.Orderly J

end

open Draft (Writes)

/-- The body of a clause writes what it writes if the clause is there. -/
lemma Stmt.writes_layOutClause {J : Nat → Prop} {d : Draft} {w : List Role} {c : Context} {body : Stmt}
    {l : Layout} {node clause : Option Nat} (h : d.Writes J l.draft w)
    (hbody : ∀ (d' : Draft) ways, d'.Tidy J → d'.current = none →
      d'.Writes J (body.layOut c d' ways).draft body.census) (hnode : clause.isSome = node.isSome) :
    d.Writes J (body.layOutClause c l clause).draft (w ++ node.elim [] fun _ => body.census) := by
  cases clause with
  | none =>
    cases node with
    | none => simpa [layOutClause] using h
    | some _ => cases hnode
  | some n =>
    cases node with
    | none => cases hnode
    | some _ => exact h.close.trans (hbody _ _ h.tidy.close rfl)

/-- Going on inside a clause writes nothing. -/
lemma Layout.writes_into {J : Nat → Prop} {d : Draft} {w : List Role} {l : Layout}
    (h : d.Writes J l.draft w) (clause : Option Nat) : d.Writes J (l.into clause).draft w := by
  cases clause with
  | none => exact h
  | some n => exact h.connect _ _ _

mutual

/-- A statement laid out is written once, role by role, behind what the open block holds already. -/
theorem Stmt.writes_layOut {J : Nat → Prop} (c : Context) (d : Draft) (ways : List Way) (s : Stmt)
    (hd : d.Tidy J) (hs : s.Orderly J) (hbefore : d.Before s.census) :
    d.Writes J (s.layOut c d ways).draft s.census := by
  have hstart : d.Writes J d [] := .refl hd
  match s with
  | .skip => exact hstart
  | .seq first rest =>
    obtain ⟨hfirst, hrest, hapart⟩ := hs
    rw [Stmt.layOut]
    have hf := first.writes_layOut c d ways hd hfirst (hbefore.mono (List.subset_append_left _ _))
    refine hf.trans (rest.writes_layOut c _ _ hf.tidy hrest fun t ht q hq => ?_)
    rcases hf.opened t ht with ht | ⟨p, hp, rfl⟩
    · exact hbefore t ht q (List.mem_append_right _ hq)
    · exact hapart p hp q hq
  | .plain node =>
    exact Draft.writes_plain hd c ways (fun t ht => hbefore t ht _ (List.mem_singleton_self _)) hs
  | .ret node =>
    rw [Stmt.layOut]
    have hp := Draft.writes_plain_close hd c ways fun t ht => hbefore t ht _ (List.mem_singleton_self _)
    exact hp.connect _ _ _
  | .throw node =>
    rw [Stmt.layOut]
    have hp := Draft.writes_plain_close hd c ways fun t ht => hbefore t ht _ (List.mem_singleton_self _)
    exact hp.connect _ _ _
  | .jump node isContinue label =>
    have hp := Draft.writes_plain_close hd c ways fun t ht => hbefore t ht _ (List.mem_singleton_self _)
    rw [Stmt.layOut]
    cases c.target? isContinue label with
    | none => exact hp
    | some depth => exact hp
  | .branch node condition onTrue onFalse =>
    rw [layOut_branch]
    extract_lets t f
    have hb := hstart.addTarget c (show NodeKind.branch ≠ .block by decide) node ways
    have ht := onTrue.writes_layOut c _ [.guarded d.size .onTrue condition] hb.tidy hs.1
      (Draft.before_of_closed (Draft.current_addTarget _ _ _ _ _))
    have hf := onFalse.writes_layOut c t.draft.close [.guarded d.size .onFalse condition]
      ht.tidy.close hs.2 (Draft.before_of_closed rfl)
    exact hb.trans (ht.close.trans hf).close
  | .whileLoop node label condition body =>
    rw [layOut_whileLoop]
    have hb := hstart.addTarget c (show NodeKind.branch ≠ .block by decide) node ways
    have hl := body.writes_layOut (c.enter ⟨label, true, true⟩) _ [.guarded d.size .onTrue condition]
      hb.tidy hs (Draft.before_of_closed (Draft.current_addTarget _ _ _ _ _))
    exact ((hb.trans hl).connect _ _ _).connect _ _ _ |>.close
  | .doLoop node label condition body =>
    rw [layOut_doLoop]
    have hb := hstart.addTarget c (show NodeKind.loopHead ≠ .block by decide) node ways
    have hl := body.writes_layOut (c.enter ⟨label, true, true⟩) _ [.plain d.size]
      hb.tidy hs (Draft.before_of_closed (Draft.current_addTarget _ _ _ _ _))
    have htest := (hb.trans hl).addTarget c (show NodeKind.branch ≠ .block by decide) (condition.getD node)
      (body.layOut (c.enter ⟨label, true, true⟩) (d.addTarget c .loopHead node ways).1
        [.plain d.size]).outs
    exact ((htest.connect _ _ _).connect _ _ _).close
  | .forLoop node label start condition step body =>
    rw [layOut_forLoop]
    extract_lets p head l q
    have hkind : (if condition.isSome then NodeKind.branch else .loopHead) ≠ .block := by
      split <;> decide
    have hp : d.Writes J p.1.close _ := Draft.writes_plain?_close hd c start ways fun t ht s hs =>
      hbefore t ht (.block, s) (List.mem_append_left _ (by simpa using hs))
    have hb := hp.addTarget c hkind node p.2
    have hl := body.writes_layOut (c.enter ⟨label, true, true⟩) _
      [if condition.isSome then .guarded head .onTrue condition else .plain head]
      hb.tidy hs (Draft.before_of_closed (Draft.current_addTarget _ _ _ _ _))
    have hq : l.draft.close.Writes J q.1.close _ := Draft.writes_plain?_close hl.tidy.close c step _ nofun
    refine (((hb.trans hl).close.trans hq).connect q.2 head true).perm (.of_eq ?_)
    simp [Stmt.census]
  | .forEach node label iterated body =>
    rw [layOut_forEach]
    have hb := hstart.addTarget c (show NodeKind.branch ≠ .block by decide) node ways
    have hl := body.writes_layOut (c.enter ⟨label, true, true⟩) _ [.guarded d.size .onTrue iterated]
      hb.tidy hs (Draft.before_of_closed (Draft.current_addTarget _ _ _ _ _))
    exact ((hb.trans hl).connect _ _ _).connect _ _ _ |>.close
  | .switch node selector clauses =>
    rw [layOut_switch]
    have hb := hstart.addTarget c (show NodeKind.branch ≠ .block by decide) node ways
    have hl := clauses.writes_layOut (c.enter ⟨none, false, true⟩) d.size selector _ [] hb.tidy hs
    exact (hb.trans hl).close
  | .tryCatch node body catchNode catchBody finallyNode finallyBody =>
    rw [layOut_tryCatch]
    extract_lets catcher finisher b k f
    have hclauses := (hstart.close.addClause c catchNode).addClause c finallyNode
    have hclosed : finisher.1.current = none := by
      rw [Draft.current_addClause, Draft.current_addClause, Draft.current_close]
    have hb := body.writes_layOut { c with handler := some ((catcher.2.or finisher.2).getD exitNode) }
      finisher.1 ways hclauses.tidy hs.1 (Draft.before_of_closed hclosed)
    have hk := Stmt.writes_layOutClause (hclauses.trans hb)
      (fun d' ways hd' hclosed => catchBody.writes_layOut { c with handler := finisher.2.or c.handler } d'
        ways hd' hs.2.1 (Draft.before_of_closed hclosed)) (Draft.isSome_addClause d.close c catchNode)
    have hf := Stmt.writes_layOutClause (Layout.writes_into hk finisher.2)
      (fun d' ways hd' hclosed => finallyBody.writes_layOut c d' ways hd' hs.2.2
        (Draft.before_of_closed hclosed)) (Draft.isSome_addClause catcher.1 c finallyNode)
    refine hf.close.perm (.of_eq ?_)
    simp [Stmt.census]
  | .labelled node label body =>
    rw [layOut_labelled]
    have hl := body.writes_layOut (c.enter ⟨label, false, false⟩) d.close ways hd.close hs
      (Draft.before_of_closed rfl)
    exact (hstart.close.trans hl).close
termination_by structural s

/-- The clauses of a switch write their census, with every statement inside them. -/
theorem Clauses.writes_layOut {J : Nat → Prop} (c : Context) (branch : Nat) (selector : Option Nat)
    (d : Draft) (falling : List Way) (s : Clauses) (hd : d.Tidy J) (hs : s.Orderly J) :
    d.Writes J (s.layOut c branch selector d falling).draft s.census := by
  have hstart : d.Writes J d [] := .refl hd
  match s with
  | .nil => exact hstart
  | .onCase value body rest =>
    rw [Clauses.layOut]
    have hb := body.writes_layOut c d.close (falling ++ [⟨branch, .onCase, selector, value⟩]) hd.close
      hs.1 (Draft.before_of_closed rfl)
    exact (hstart.close.trans hb).trans (rest.writes_layOut c branch selector _ _ hb.tidy hs.2)
  | .onDefault body rest =>
    rw [Clauses.layOut]
    have hb := body.writes_layOut c d.close (falling ++ [.guarded branch .onDefault selector]) hd.close
      hs.1 (Draft.before_of_closed rfl)
    exact (hstart.close.trans hb).trans (rest.writes_layOut c branch selector _ _ hb.tidy hs.2)
  | .gap rest =>
    rw [Clauses.layOut]
    exact rest.writes_layOut c branch selector d [] hd hs
termination_by structural s

end

/-- A list of statements is orderly if they are and come one behind the other. -/
lemma Stmt.orderly_ofList {J : Nat → Prop} {l : List Stmt} (h : ∀ s ∈ l, s.Orderly J)
    (hl : l.Pairwise fun s t => ∀ p ∈ s.census, ∀ q ∈ t.census, p.2 < q.2) :
    (Stmt.ofList l).Orderly J := by
  induction l with
  | nil => trivial
  | cons s l ih =>
    rw [List.pairwise_cons] at hl
    refine ⟨h s List.mem_cons_self, ih (fun t ht => h t (List.mem_cons_of_mem _ ht)) hl.2, ?_⟩
    intro p hp q hq
    rw [census_ofList, List.mem_flatMap] at hq
    obtain ⟨t, ht, hq⟩ := hq
    exact hl.1 t ht p hp q hq

end Mend.Flow

namespace Mend.Syntax.Ast

open Mend.Flow (Stmt Clauses Graph Role Draft)

variable {a : Ast} {i j c f : Nat} {label : Option String}

/-- Statements after which control does not simply go on. -/
def IsJump (a : Ast) (i : Nat) : Prop :=
  a.kind i ∈ ["return_statement", "throw_statement", "break_statement", "continue_statement"]

/-- What stands for a child comes before what stands for a later one. -/
lemma census_lt_census {c' : Nat} {p q : Role} (hc : c ∈ a.children i) (hc' : c' ∈ a.children i)
    (hlt : c < c') (hp : p ∈ (a.stmt c none).census) (hq : q ∈ (a.stmt c' none).census) :
    p.2 < q.2 := by
  have hlast := last_lt_of_mem_children hc hc' hlt
  have hp := contains_iff.1 (contains_of_mem_census hp)
  have hq := contains_iff.1 (contains_of_mem_census hq)
  omega

/-- So is the part of a statement that may be missing. -/
lemma orderly_stmt? {o : Option Nat} {J : Nat → Prop}
    (h : ∀ j, o = some j → (a.stmt j label).Orderly J) : (a.stmt? o label).Orderly J :=
  stmt?_of (P := (·.Orderly J)) trivial h

/-- So is the statement of a clause. -/
lemma orderly_clauseStmt {J : Nat → Prop} (h : ∀ j ∈ a.clauseParts c, (a.stmt j none).Orderly J) :
    (a.clauseStmt c).Orderly J := by
  apply Stmt.orderly_ofList
  · intro s hs
    obtain ⟨j, hj, rfl⟩ := List.mem_map.1 hs
    split
    · trivial
    · next hf => exact h j (List.mem_filter.2 ⟨hj, by simpa using hf⟩)
  · rw [List.pairwise_map]
    refine (pairwise_children a c).imp_of_mem fun hj hk hlt p hp q hq => ?_
    split at hp
    · cases hp
    · split at hq
      · cases hq
      · exact census_lt_census hj hk hlt hp hq

/-- So are the clauses of a switch. -/
lemma orderly_clauses {J : Nat → Prop} {l : List Nat}
    (h : ∀ clause ∈ l, a.isClause clause = true → (a.clauseStmt clause).Orderly J) :
    (l.foldr a.addClause .nil).Orderly J :=
  clauses_of (P := (·.Orderly J)) (Q := (·.Orderly J)) trivial (fun _ _ _ => And.intro) (fun _ _ => And.intro)
    (fun _ _ _ _ => id) h

/-- Every statement of a program is orderly. -/
lemma orderly_stmt (a : Ast) (i : Nat) (label : Option String) :
    (a.stmt i label).Orderly a.IsJump := by
  induction i using laidParts_induction (a := a) generalizing label with
  | h i ih =>
    unfold laidParts partsWith at ih
    rw [stmt_eq, assembled]
    split
    all_goals rename_i hk
    all_goals simp only [hk] at ih
    · apply Stmt.orderly_ofList
      · intro s hs
        obtain ⟨j, hj, rfl⟩ := List.mem_map.1 hs
        exact ih j hj none
      · rw [List.pairwise_map]
        exact (pairwise_children a i).imp_of_mem fun hj hk hlt p hp q hq =>
          census_lt_census hj hk hlt hp hq
    · exact ⟨orderly_stmt? fun j hj => ih j (List.mem_append_left _ (Option.mem_toList.2 hj)) none,
        orderly_stmt? fun j hj => ih j (List.mem_append_right _ (Option.mem_toList.2 hj)) none⟩
    iterate 4 exact orderly_stmt? fun j hj => ih j (Option.mem_toList.2 hj) none
    · apply orderly_clauses
      intro clause hclause hkind
      apply orderly_clauseStmt
      intro j hj
      exact ih j (List.mem_flatMap.2 ⟨clause, List.mem_filter.2 ⟨hclause, hkind⟩, hj⟩) none
    · refine ⟨orderly_stmt? fun j hj => ih j ?_ none, orderly_stmt? fun j hj => ih j ?_ none,
        orderly_stmt? fun j hj => ih j ?_ none⟩
      · exact List.mem_append_left _ (List.mem_append_left _ (Option.mem_toList.2 hj))
      · exact List.mem_append_left _ (List.mem_append_right _ (Option.mem_toList.2 hj))
      · exact List.mem_append_right _ (Option.mem_toList.2 hj)
    · have hbody : ∀ l, (a.stmt? (a.child? i "body") l).Orderly a.IsJump := fun l =>
        orderly_stmt? fun j hj => ih j (Option.mem_toList.2 hj) l
      split
      · exact hbody _
      · exact hbody none
    iterate 4 trivial
    · simp_all [Stmt.Orderly, IsJump]

/-- The children of a node as a sequence of statements. -/
lemma orderly_children (a : Ast) (i : Nat) :
    (Stmt.ofList ((a.children i).map (a.stmt · none))).Orderly a.IsJump := by
  apply Stmt.orderly_ofList
  · intro s hs
    obtain ⟨j, -, rfl⟩ := List.mem_map.1 hs
    exact orderly_stmt a j none
  · rw [List.pairwise_map]
    exact (pairwise_children a i).imp_of_mem fun hj hk hlt p hp q hq => census_lt_census hj hk hlt hp hq

end Mend.Syntax.Ast

namespace Mend.Flow

open Syntax (Ast Source Token)

variable {a : Ast} {g : Graph} {f : Nat}

/-- The graph of a function represents its statements, but for those behind a comment: each statement, each
initializer and increment of a `for` statement and each `catch` or `finally` clause once, in the way that
`Ast.roles` says, and in no other way. It represents nothing that stands behind a comment. Blocks list
statements in the order of the text, and only the last of them is a jump. -/
structure Graph.Represents (g : Graph) (a : Ast) : Prop where
  once : ∀ i, a.Reached g.function i → ¬a.BehindComment g.function i → ∀ p ∈ a.roles i, g.census.count p = 1
  only : ∀ i, a.Reached g.function i → ∀ p ∈ g.census, p.2 = i → p ∈ a.roles i
  missing : ∀ i, a.BehindComment g.function i → ∀ p ∈ g.census, a.contains i p.2 = false
  ascending : ∀ (n : Nat) (x : Node), g.nodes[n]? = some x → x.statements.Pairwise (· < ·)
  jumpsLast : ∀ (n : Nat) (x : Node), g.nodes[n]? = some x → ∀ s ∈ x.statements.dropLast, ¬ a.IsJump s

/-- The first draft of a function is tidy. -/
lemma Draft.tidy_start (J : Nat → Prop) (f : Nat) : (Draft.start f).Tidy J := by
  have hnodes : ∀ (n : Nat) (x : Node), (Draft.start f).nodes[n]? = some x → x.statements = [] := by
    intro n x hx
    match n with
    | 0 | 1 => cases hx; rfl
    | n + 2 => simp [Draft.start] at hx
  refine ⟨fun n x hx => ?_, fun n x hx => ?_, nofun, nofun⟩
  · rw [hnodes n x hx]
    exact .nil
  · rw [hnodes n x hx]
    nofun

/-- Laying out a function writes the census of its skeleton. -/
lemma writes_skeleton (a : Ast) (f : Nat) (ways : List Way) :
    (Draft.start f).Writes a.IsJump ((a.skeleton f).layOut ⟨none, []⟩ (.start f) ways).draft.close
      (a.skeleton f).census := by
  have hstart := Draft.tidy_start a.IsJump f
  have horderly : ∀ s : Stmt, s.Orderly a.IsJump → (Draft.start f).Writes a.IsJump
      (s.layOut ⟨none, []⟩ (.start f) ways).draft.close s.census := fun s hs =>
    (s.writes_layOut _ _ ways hstart hs (Draft.before_of_closed rfl)).close
  unfold Ast.skeleton
  split
  · split
    · split
      · exact horderly _ (Ast.orderly_stmt a _ none)
      · rw [Stmt.layOut]
        exact Draft.writes_plain_close hstart _ ways fun _ h => absurd h List.not_mem_nil
    · exact horderly .skip trivial
  · exact horderly _ (Ast.orderly_children a f)

/-- The finished graph has the entry, the exit and what the skeleton says. -/
lemma census_ofStmt (a : Ast) (f : Nat) (name : String) :
    (Graph.ofStmt f name (a.skeleton f)).census.Perm
      ((.entry, f) :: (.exit, f) :: (a.skeleton f).census) :=
  (writes_skeleton a f [.plain entryNode]).census

/-- The statements of a function come behind it. -/
lemma lt_of_mem_entryParts {i : Nat} (h : i ∈ a.entryParts f) : f < i := by
  unfold Ast.entryParts at h
  split at h
  · exact (Ast.child?_bounds (Option.filter_eq_some_iff.1 (Option.mem_toList.1 h)).1).1
  · exact (Ast.mem_children h).1

/-- Control comes to statements inside the function only. -/
lemma lt_of_reached {i : Nat} (h : a.Reached f i) : f < i := by
  induction h with
  | entry h => exact lt_of_mem_entryParts h
  | part _ hj ih => exact Nat.lt_trans ih (Ast.lt_of_mem_parts hj)

/-- What stands behind a comment is inside the function. -/
lemma lt_of_behindComment {i : Nat} (h : a.BehindComment f i) : f < i := by
  obtain ⟨k, e, hk, -, he, -, hin⟩ := h
  obtain ⟨clause, hclause, hmem, -⟩ := Ast.elseBranch?_eq_some he
  have hlt := lt_of_reached hk
  have hclauselt := (Ast.child?_bounds hclause).1
  have helt := (Ast.mem_children hmem).1
  have hle := (Ast.contains_iff.1 hin).1
  omega

/-- Statements inside the function only are laid out. -/
lemma lt_of_laidOut {i : Nat} (h : a.LaidOut f i) : f < i := by
  induction h with
  | entry h => exact lt_of_mem_entryParts h
  | part _ hj ih => exact Nat.lt_trans ih (Ast.lt_of_mem_laidParts hj)

/-- There is a graph for the script and for every function. -/
lemma exists_graph (hf : a.root? = some f ∨ (f < a.size ∧ a.isFunction f = true)) :
    ∃ g ∈ graphs a, g.function = f := by
  have hsize : a.size ≠ 0 := by
    rcases hf with hf | ⟨hf, -⟩
    · intro h0
      simp [Ast.root?, h0] at hf
    · omega
  have hroot : a.root? = some 0 := if_neg hsize
  simp only [graphs, hroot]
  rcases hf with hf | ⟨hlt, hf⟩
  · cases hroot.symm.trans hf
    exact ⟨_, List.mem_cons_self, rfl⟩
  · exact ⟨_, List.mem_cons_of_mem _ (List.mem_map_of_mem (List.mem_filter.2
      ⟨Ast.mem_ids.2 hlt, hf⟩)), rfl⟩

/-- Within a statement of the function nothing is the entry or the exit. -/
lemma mem_census_of_inside {name : String} {i : Nat} (hlt : f < i) {p : Role}
    (hp : p ∈ (Graph.ofStmt f name (a.skeleton f)).census) (hpi : a.contains i p.2 = true) :
    p ∈ (a.skeleton f).census := by
  have hle := (Ast.contains_iff.1 hpi).1
  rw [(census_ofStmt a f name).mem_iff, List.mem_cons, List.mem_cons] at hp
  rcases hp with rfl | rfl | hp
  · exact absurd hle (Nat.not_le_of_lt hlt)
  · exact absurd hle (Nat.not_le_of_lt hlt)
  · exact hp

/-- The graph of a skeleton represents the function. -/
lemma represents_ofStmt (a : Ast) (f : Nat) (name : String) :
    (Graph.ofStmt f name (a.skeleton f)).Represents a := by
  have hwrites := writes_skeleton a f [.plain entryNode]
  refine ⟨?_, ?_, ?_, hwrites.tidy.ascending, hwrites.tidy.jumpsLast⟩
  · intro i hi hno p hp
    have hlaid := hi.laidOut_or.resolve_right hno
    have hlt := lt_of_reached hi
    have hpi := (Ast.contains_iff.1 (Ast.contains_of_mem_roles hp)).1
    rw [(census_ofStmt a f name).count_eq, List.count_cons_of_ne, List.count_cons_of_ne]
    · exact List.count_eq_one_of_mem (Ast.nodup_census_skeleton a f)
        (hlaid.census_subset (Ast.mem_census_stmt.2 (.inl hp)))
    all_goals
      rintro rfl
      exact absurd hpi (Nat.not_le_of_lt hlt)
  · intro i hi p hp hpi
    have hself : a.contains i p.2 = true := hpi ▸ Ast.contains_self a i
    have hp := mem_census_of_inside (lt_of_reached hi) hp hself
    exact Ast.mem_roles_of_mem_census ((hi.laidOut hp hself).mem_census hp hself) hpi
  · intro i hi p hp
    rw [Bool.eq_false_iff]
    intro hpi
    have hp := mem_census_of_inside (lt_of_behindComment hi) hp hpi
    rw [hi.not_contains hp] at hpi
    cases hpi

/-- There is a graph for the script and for every function. Each represents the statements of its function, every
one of them once, but for those behind a comment that opens an `else` clause. -/
theorem graphs_represent (a : Ast) :
    (∀ f, a.root? = some f ∨ (f < a.size ∧ a.isFunction f = true) → ∃ g ∈ graphs a, g.function = f) ∧
      ∀ g ∈ graphs a, g.Represents a := by
  refine ⟨fun f hf => exists_graph hf, fun g hg => ?_⟩
  obtain ⟨f, name, rfl⟩ := mem_graphs hg
  exact represents_ofStmt a f name

/-- The program `if (a) b(); else <!-- c` with `d();` on the next line. -/
def commentedElse : Source :=
  ⟨"if (a) b(); else <!-- c\nd();", .cons (.clean "program" none 0 28)
    (.cons (.clean "if_statement" none 0 28)
      (.cons (.clean "parenthesized_expression" (some "condition") 3 6)
        (.cons (.clean "identifier" none 4 5) .nil .nil)
      (.cons (.clean "expression_statement" (some "consequence") 7 11)
        (.cons (.clean "call_expression" none 7 10)
          (.cons (.clean "identifier" (some "function") 7 8) .nil
            (.cons (.clean "arguments" (some "arguments") 8 10) .nil .nil)) .nil)
      (.cons (.clean "else_clause" (some "alternative") 12 28)
        (.cons (.clean "html_comment" none 17 23) .nil
          (.cons { Token.clean "expression_statement" none 24 28 with row := 1 }
            (.cons { Token.clean "call_expression" none 24 27 with row := 1 }
              (.cons { Token.clean "identifier" (some "function") 24 25 with row := 1 } .nil
                (.cons { Token.clean "arguments" (some "arguments") 25 27 with row := 1 } .nil .nil)) .nil)
            .nil)) .nil))) .nil) .nil⟩

/-- Control comes to `d();`, and no graph represents it. -/
theorem graphs_miss_commentedElse :
    let a := commentedElse.read false
    commentedElse.tree.FollowsGrammar ∧ a.text 10 = "d();" ∧ a.Reached 0 10 ∧ a.roles 10 = [(.block, 10)] ∧
      (∃ g ∈ graphs a, g.function = 0) ∧ ∀ g ∈ graphs a, g.census.count (.block, 10) = 0 := by
  intro a
  have hif : a.Reached 0 1 := .entry (by decide +kernel)
  exact ⟨by decide +kernel, by decide +kernel, hif.part (by decide +kernel), by decide +kernel,
    by decide +kernel, by decide +kernel⟩

end Mend.Flow
