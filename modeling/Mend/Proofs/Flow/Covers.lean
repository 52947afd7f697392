import Mend.Proofs.Flow.Descent
import Mend.Proofs.Flow.Placement
import Mend.Sentinel.Guard

/-!
# What guards cover agrees with the graph

An `if` statement covers its branches, and what follows it if it has no alternative and its consequence always
exits. In the graph this means that control comes to what is covered only after it has left the branch of the
statement by the edge for the outcome (`leavesBy_of_mem_covers`).

The statements of a function stand in its graph (`LaidOut.stands`), so that a branch is entered by its own edge
only. Control does not come out of a statement that always exits (`outs_of_alwaysExits`); what follows an early
exit in a row of statements is entered by the edge for a condition that failed (`leaves_of_row`).

The body of a `do` loop is another matter: the condition of the loop counts among what follows an early exit that
has no braces around it, but a `continue` in the early exit leads there, too (`not_leavesBy_of_bareLoop`).
-/

namespace Mend

namespace Flow

variable {final : Draft} {c : Context}

/-- What stands in a draft stands there with all that it is made of. -/
lemma Stmt.Stands.passes (final : Draft) : Passes (Stmt.Stands final) (Clauses.Stand final) where
  seq := seq
  branch := branch
  whileLoop := whileLoop
  doLoop := doLoop
  forLoop := forLoop
  forEach := forEach
  switch := switch
  tryCatch := tryCatch
  labelled := labelled
  onCase := Clauses.Stand.onCase
  onDefault := Clauses.Stand.onDefault
  gap := Clauses.Stand.gap

/-- Each of the statements in a row that obeys the rules does so. -/
lemma Stmt.Obeys.of_mem_ofList {R : Rules} {frames : List Frame} {l : List Stmt} {s : Stmt}
    (h : (Stmt.ofList l).Obeys R frames) (hs : s ∈ l) : s.Obeys R frames := by
  induction l with
  | nil => cases hs
  | cons t l ih =>
    rcases List.mem_cons.1 hs with rfl | hs
    · exact h.1
    · exact ih h.2 hs

/-- What is left of orderly statements in a row is orderly. -/
lemma Stmt.Orderly.drop {J : Nat → Prop} {l : List Stmt} (k : List Stmt) (h : (Stmt.ofList (k ++ l)).Orderly J) :
    (Stmt.ofList l).Orderly J := by
  induction k with
  | nil => exact h
  | cons s k ih => exact ih h.2.1

/-- Control does not come out of a sequence if it does not come out of the last part. -/
lemma Stmt.outs_ofList {l : List Stmt} {s : Stmt} (h : l.getLast? = some s)
    (hs : ∀ d ways, (s.layOut c d ways).outs = []) (d : Draft) (ways : List Way) :
    ((Stmt.ofList l).layOut c d ways).outs = [] := by
  induction l generalizing d ways with
  | nil => cases h
  | cons t l ih =>
    rw [Stmt.ofList, Stmt.layOut]
    cases l with
    | nil =>
      cases h
      exact hs d ways
    | cons t' l => exact ih (by simpa using h) _ _

/-- A jump that lands has a frame to go to. -/
lemma Context.exists_target (c : Context) {node : Nat} {isContinue : Bool} {label : Option String}
    (h : Rules.landing.jump node isContinue label c.frames) : ∃ depth, c.target? isContinue label = some depth := by
  have hsome : (c.frames.findIdx? (·.accepts isContinue label)).isSome = true := by
    rw [List.findIdx?_isSome]
    exact h
  obtain ⟨k, hk⟩ := Option.isSome_iff_exists.1 hsome
  exact ⟨_, by rw [target?, hk]; rfl⟩

end Flow

open Mend.Flow (Stmt Clauses Draft Context Layout Role Plays LeavesBy)

namespace Syntax.Ast

variable {a : Ast} {f i j : Nat} {label : Option String} {final : Draft}

/-- Control does not come out of a statement that always exits, as every jump lands. -/
lemma outs_of_alwaysExits {c : Context} (h : a.alwaysExits i = true) (label : Option String)
    (hs : (a.stmt i label).Obeys .landing c.frames) (d : Draft) (ways : List Flow.Way) :
    ((a.stmt i label).layOut c d ways).outs = [] := by
  induction i using laidParts_induction (a := a) generalizing label d ways with
  | h i ih =>
    unfold alwaysExits at h
    unfold laidParts partsWith at ih
    rw [stmt_eq, assembled] at hs ⊢
    split at h
    all_goals rename_i hk
    all_goals simp only [hk] at ih hs ⊢
    · rw [Stmt.layOut]
    · rw [Stmt.layOut]
    · obtain ⟨depth, hdepth⟩ := c.exists_target hs
      simp only [Stmt.layOut, hdepth]
    · obtain ⟨depth, hdepth⟩ := c.exists_target hs
      simp only [Stmt.layOut, hdepth]
    · split at h
      · next last hlast =>
        refine Stmt.outs_ofList (by rw [List.getLast?_map, hlast]; rfl) (fun d ways => ?_) d ways
        have hmem : last ∈ a.children i := List.mem_of_getLast? hlast
        exact ih last hmem h none (hs.of_mem_ofList (List.mem_map_of_mem hmem)) d ways
      · cases h
    · split at h
      · next consequence clause hc ha =>
        split at h
        · next otherwise ho =>
          rw [Bool.and_eq_true] at h
          simp only [hc, ha, Option.bind_some, ho, Option.toList_some] at ih hs ⊢
          have ht := ih consequence (by simp) h.1 none hs.1
          have hf := ih otherwise (by simp) h.2 none hs.2
          rw [Flow.layOut_branch]
          simp only [stmt?, Option.elim_some, ht, hf, List.append_nil]
        · cases h
      · cases h
    · cases h

/-- The skeleton of an `if` statement. -/
lemma stmt_if (hk : a.kind i = "if_statement") (label : Option String) :
    a.stmt i label = .branch i (a.condition? i) (a.stmt? (a.child? i "consequence") none)
      (a.stmt? ((a.child? i "alternative").bind a.firstChild?) none) := by
  rw [stmt_eq, assembled]
  simp only [hk]

/-- An early exit is an `if` statement. -/
lemma kind_of_isEarlyExit (h : a.isEarlyExit i = true) : a.kind i = "if_statement" := by
  simp only [isEarlyExit, Bool.and_eq_true, beq_iff_eq] at h
  exact h.1.1

/-- Control comes out of an early exit by the condition failing only. -/
lemma layOut_earlyExit {c : Context} (h : a.isEarlyExit i = true) (hs : (a.stmt i label).Obeys .landing c.frames)
    (d : Draft) (ways : List Flow.Way) :
    ((a.stmt i label).layOut c d ways).draft.current = none ∧
      ((a.stmt i label).layOut c d ways).outs = [.guarded d.size .onFalse (a.condition? i)] ∧
      d.size < ((a.stmt i label).layOut c d ways).draft.size := by
  simp only [isEarlyExit, Bool.and_eq_true, beq_iff_eq, Option.isNone_iff_eq_none, Option.any_eq_true] at h
  obtain ⟨⟨hk, halternative⟩, consequence, hc, hexits⟩ := h
  rw [stmt_if hk] at hs ⊢
  have hconsequence : a.stmt? (a.child? i "consequence") none = a.stmt consequence none := by rw [hc]; rfl
  have halternative : a.stmt? ((a.child? i "alternative").bind a.firstChild?) none = .skip := by
    rw [halternative]
    rfl
  rw [hconsequence, halternative] at hs ⊢
  rw [Flow.layOut_branch]
  have ht := outs_of_alwaysExits hexits none hs.1
  refine ⟨rfl, by simp only [ht]; rfl, ?_⟩
  have hsize := ((a.stmt consequence none).layOut_grown c (d.addTarget c .branch i ways).1
    [.guarded d.size .onTrue (a.condition? i)]).grows.size_le
  rw [Draft.size_addTarget] at hsize
  exact hsize

/-! Statements of a function in its graph. -/

/-- What is laid out stands in the final draft. -/
lemma LaidOut.stands (hf : (a.skeleton f).Stands final) (h : LaidOut a f i) :
    ∃ label, (a.stmt i label).Stands final :=
  (Stmt.Stands.passes final).laidOut hf h

/-- The skeleton of a function of which every jump lands stands in the graph. -/
lemma stands_skeleton (h : (a.skeleton f).Obeys .landing []) :
    let l := (a.skeleton f).layOut ⟨none, []⟩ (.start f) [.plain Flow.entryNode]
    (a.skeleton f).Stands (l.draft.close.connect l.outs Flow.exitNode false) := by
  intro l
  refine ⟨⟨none, []⟩, .start f, [.plain Flow.entryNode], h, ⟨Nat.le_refl 2, nofun, nofun⟩, ?_⟩
  exact (Draft.Grows.refl (· < 2) _ _).close.connect _ false (.inl (by decide)) fun _ _ => .inl trivial

/-- Each role in the census of a statement is played by something laid out. -/
lemma exists_of_mem_census {p : Role} (hi : LaidOut a f i) (hp : p ∈ (a.stmt i label).census) :
    ∃ k, LaidOut a f k ∧ p ∈ a.roles k := by
  induction i using laidParts_induction (a := a) generalizing label with
  | h i ih =>
    rcases mem_census_stmt.1 hp with hp | ⟨j, hj, hp⟩
    · exact ⟨i, hi, hp⟩
    · exact ih j hj (hi.part hj) hp

/-- What follows in a list when something else comes first. -/
lemma exists_append_of_mem_takeWhile {x y : Nat} {l : List Nat} (hx : x ∈ l.takeWhile (· != y)) (hy : y ∈ l) :
    ∃ k m, l = k ++ x :: m ∧ y ∈ m := by
  obtain ⟨k, m, hkm⟩ := List.append_of_mem hx
  have hl := List.takeWhile_append_dropWhile (p := (· != y)) (l := l)
  rw [hkm, List.append_assoc, List.cons_append] at hl
  refine ⟨k, _, hl.symm, List.mem_append_right m ?_⟩
  rw [← hl, ← List.cons_append, ← List.append_assoc, List.mem_append] at hy
  refine hy.resolve_left fun hy => ?_
  rw [← hkm] at hy
  simpa using List.all_eq_true.1 List.all_takeWhile y hy

/-- The guard of a cover is the node it was found at. -/
lemma guard_of_coverOf? {up below : Nat} {cover : Cover} (h : a.coverOf? up below = some cover) :
    cover.guard = up := by
  unfold coverOf? at h
  split at h
  · split at h <;> cases h <;> rfl
  · split at h <;> cases h <;> rfl
  · split at h <;> cases h
    rfl
  · cases h

/-- How a guard comes to cover a node. -/
lemma mem_covers {n : Nat} {cover : Cover} (h : cover ∈ a.covers n) (hif : a.kind cover.guard = "if_statement") :
    ∃ up below, below ∈ a.children up ∧ a.contains below n = true ∧ a.isFunction up = false ∧
      ((cover.guard = up ∧ ((a.field? below = some "consequence" ∧ cover.outcome = true) ∨
        (a.field? below = some "alternative" ∧ cover.outcome = false))) ∨
      (cover.outcome = false ∧ a.isEarlyExit cover.guard = true ∧
        ∃ k l, a.children up = k ++ cover.guard :: l ∧ below ∈ l)) := by
  obtain ⟨⟨up, below⟩, hstep, hcover⟩ := List.mem_flatMap.1 h
  obtain ⟨hbelow, hn⟩ := mem_ascent (List.takeWhile_subset _ hstep)
  have hup : a.isFunction up = false := by
    simpa using List.all_eq_true.1 List.all_takeWhile _ hstep
  refine ⟨up, below, hbelow, hn, hup, ?_⟩
  rcases List.mem_append.1 hcover with hcover | hcover
  · rw [Option.mem_toList] at hcover
    have hguard := guard_of_coverOf? hcover
    rw [hguard] at hif
    simp only [coverOf?, hif] at hcover
    refine .inl ⟨hguard, ?_⟩
    split at hcover
    · next hfield =>
      cases hcover
      exact .inl ⟨hfield, rfl⟩
    · next hfield =>
      cases hcover
      exact .inr ⟨hfield, rfl⟩
    · cases hcover
  · obtain ⟨guard, hguard, rfl⟩ := List.mem_map.1 hcover
    obtain ⟨hguard, hexit⟩ := List.mem_filter.1 hguard
    exact .inr ⟨rfl, hexit, exists_append_of_mem_takeWhile hguard hbelow⟩

section

variable {path : List Flow.Edge} {guard below up b : Nat} {k l : List Nat} {p : Role}

/-- A walk to a branch of an `if` statement leaves the statement by the edge to that branch. -/
lemma leaves_of_branch (hv : final.Visit a.IsJump path p) (hb : Plays final.nodes b (.branch, guard))
    (hf : (a.skeleton f).Stands final) (hguard : LaidOut a f guard) (hk : a.kind guard = "if_statement")
    (hbelow : below ∈ a.children guard) (hp : p ∈ (a.skeleton f).census) (hpb : a.contains below p.2 = true) :
    (a.field? below = some "consequence" → LeavesBy path b .onTrue) ∧
      (a.field? below = some "alternative" → LeavesBy path b .onFalse) := by
  obtain ⟨label, c, d, ways, -, hplaced⟩ := hguard.stands hf
  rw [stmt_if hk] at hplaced
  cases Draft.eq_of_plays hv.finished.nodup hb hplaced.plays_branch
  obtain ⟨ht, hf⟩ := Flow.placed_branch hplaced
  rcases mem_census_stmt.1 (hguard.mem_census hp (contains_of_mem_children hbelow hpb)) with hrole | ⟨j, hj, hp⟩
  · simp only [roles, hk, List.mem_singleton] at hrole
    rw [hrole, contains_iff] at hpb
    exact absurd hpb.1 (Nat.not_le.2 (mem_children hbelow).1)
  have hpj := contains_of_mem_census hp
  simp only [laidParts, partsWith, hk, List.mem_append, Option.mem_toList] at hj
  rcases hj with hj | hj
  · cases eq_of_contains hbelow (mem_children_of_child? hj) hpb hpj
    rw [hj] at ht
    refine ⟨fun _ => ?_, fun hfield => ?_⟩
    · have hsize : d.size < (d.addTarget c .branch guard ways).1.size := by simp
      exact hv.leaves ht (by simp) (orderly_stmt a below none) hsize hp
    · exact absurd (hfield.symm.trans (field?_of_child? hj)) (by decide)
  · obtain ⟨clause, hclause, hfirst⟩ := Option.bind_eq_some_iff.1 hj
    cases eq_of_contains hbelow (mem_children_of_child? hclause) hpb (contains_of_firstChild? hfirst hpj)
    rw [hj] at hf
    refine ⟨fun hfield => ?_, fun _ => ?_⟩
    · exact absurd (hfield.symm.trans (field?_of_child? hclause)) (by decide)
    · have hsize := ((a.stmt? (a.child? guard "consequence") none).layOut_grown c
        (d.addTarget c .branch guard ways).1 [.guarded d.size .onTrue (a.condition? guard)]).grows.size_le
      rw [Draft.size_addTarget] at hsize
      exact hv.leaves hf rfl (orderly_stmt a j none) hsize hp

/-- A walk to something after an early exit leaves the `if` statement by its condition failing. -/
lemma leaves_of_row {F : Nat → Stmt} (hv : final.Visit a.IsJump path p)
    (hb : Plays final.nodes b (.branch, guard)) (hexit : a.isEarlyExit guard = true)
    (h : (Stmt.ofList ((k ++ guard :: l).map F)).Stands final)
    (hs : (Stmt.ofList ((k ++ guard :: l).map F)).Orderly a.IsJump) (hguard : F guard = a.stmt guard none)
    (hbelow : below ∈ l) (hp : p ∈ (F below).census) : LeavesBy path b .onFalse := by
  rw [List.map_append, List.map_cons] at h hs
  obtain ⟨c, d, ways, hobeys, hplaced⟩ := (Stmt.Stands.passes final).drop _ h
  obtain ⟨hfirst, hrest⟩ := Flow.placed_seq hplaced
  rw [hguard] at hobeys hfirst hrest
  obtain ⟨hclosed, houts, hlt⟩ := layOut_earlyExit hexit hobeys.1 d ways
  rw [stmt_if (kind_of_isEarlyExit hexit)] at hfirst
  cases Draft.eq_of_plays hv.finished.nodup hb hfirst.plays_branch
  rw [houts] at hrest
  refine hv.leaves hrest hclosed (hs.drop _).2.1 hlt ?_
  rw [Stmt.census_ofList, List.flatMap_map]
  exact List.mem_flatMap.2 ⟨below, hbelow, hp⟩

/-- A walk to a later child leaves an early exit before it by its other arm. -/
lemma leaves_of_children (hv : final.Visit a.IsJump path p) (hb : Plays final.nodes b (.branch, guard))
    (hexit : a.isEarlyExit guard = true) (hsplit : a.children up = k ++ guard :: l) (hbelow : below ∈ l)
    (h : (Stmt.ofList ((a.children up).map (a.stmt · none))).Stands final)
    (hp : p ∈ (Stmt.ofList ((a.children up).map (a.stmt · none))).census) (hpb : a.contains below p.2 = true) :
    LeavesBy path b .onFalse := by
  have hbelow' : below ∈ a.children up := by simp [hsplit, hbelow]
  have hs := orderly_children a up
  rw [Stmt.census_ofList, List.flatMap_map] at hp
  have hp := mem_census_of_contains (pairwise_apart_children a up) hbelow' hp hpb
  rw [hsplit] at h hs
  exact leaves_of_row hv hb hexit h hs rfl hbelow hp

/-- The same among the statements of a clause. -/
lemma leaves_of_clause (hv : final.Visit a.IsJump path p) (hb : Plays final.nodes b (.branch, guard))
    (hexit : a.isEarlyExit guard = true) (hsplit : a.children up = k ++ guard :: l) (hbelow : below ∈ l)
    (h : (a.clauseStmt up).Stands final) (hguard : guard ∈ a.clauseParts up)
    (hp : p ∈ (a.clauseStmt up).census) (hpb : a.contains below p.2 = true) : LeavesBy path b .onFalse := by
  have hpart : ∀ c ∈ a.clauseParts up,
      (if a.field? c == some "value" then Stmt.skip else a.stmt c none) = a.stmt c none := fun c hc =>
    if_neg (by simpa using (List.mem_filter.1 hc).2)
  have hs : (a.clauseStmt up).Orderly a.IsJump := orderly_clauseStmt fun j _ => orderly_stmt a j none
  rw [census_clauseStmt] at hp
  obtain ⟨j, hj, hp⟩ := List.mem_flatMap.1 hp
  have hbelow' : below ∈ a.children up := by simp [hsplit, hbelow]
  cases eq_of_contains hbelow' (List.mem_filter.1 hj).1 hpb (contains_of_mem_census hp)
  unfold clauseStmt at h hs
  rw [hsplit] at h hs
  refine leaves_of_row hv hb hexit h hs (hpart guard hguard) hbelow ?_
  rw [hpart below hj]
  exact hp

/-- A walk to the condition of a `do` loop that is an early exit and holds no `continue` leaves the `if` statement
by its condition failing. -/
lemma leaves_of_doLoop {test : Nat} (hv : final.Visit a.IsJump path (.branch, test))
    (hb : Plays final.nodes b (.branch, guard)) (hexit : a.isEarlyExit guard = true)
    (hno : ∀ k, a.contains guard k = true → a.kind k ≠ "continue_statement")
    (h : (Stmt.doLoop i label (some test) (a.stmt guard none)).Stands final) : LeavesBy path b .onFalse := by
  obtain ⟨c, d, ways, hobeys, hplaced⟩ := h
  obtain ⟨hbody, htest⟩ := Flow.placed_doLoop hplaced
  have hjumps := Stmt.jumps_layOut (R := .breaking) (c.enter ⟨label, true, true⟩)
    (d.addTarget c .loopHead i ways).1 [.plain d.size] (a.stmt guard none) (obeys_breaking hno)
  obtain ⟨-, houts, hlt⟩ := layOut_earlyExit (c := c.enter ⟨label, true, true⟩) hexit hobeys
    (d.addTarget c .loopHead i ways).1 [.plain d.size]
  generalize hl : (a.stmt guard none).layOut (c.enter ⟨label, true, true⟩) (d.addTarget c .loopHead i ways).1
    [.plain d.size] = l at hbody htest hjumps houts hlt
  have hcontinues : l.continues c.frames.length = [] := by
    rw [List.eq_nil_iff_forall_not_mem]
    intro w hw
    obtain ⟨j, hj, -, hc, -⟩ := Layout.mem_continues.1 hw
    obtain ⟨_, _, _, hbreak⟩ := hjumps j hj
    cases hc.symm.trans hbreak
  rw [← hl, stmt_if (kind_of_isEarlyExit hexit)] at hbody
  cases Draft.eq_of_plays hv.finished.nodup hb hbody.plays_branch
  -- The ways into the condition are those out of the body, as no `continue` leads to it.
  rw [hcontinues, Option.getD_some] at htest
  have hgrows : l.draft.Grows c.Reaches (· ∈ l.outs)
      ((l.draft.addTarget c .branch test l.outs).1.connect [] l.draft.size false) :=
    ((Draft.Grows.refl _ _ _).addTarget .branch test (Flow.handled_of c) fun w => .inl).connect [] false
      (.inr ⟨Nat.le_refl _, by simp⟩) nofun
  have hplays : Plays final.nodes l.draft.size (.branch, test) :=
    htest.later.plays ⟨⟨.branch, test, []⟩, by simp [Draft.size], by simp [Flow.Node.roles]⟩
  obtain ⟨g, m, hg, hm, hpath⟩ := hv.walk
  cases Draft.eq_of_plays hv.finished.nodup hm hplays
  refine htest.leaves hgrows (fun w hw => ?_) hlt hg ⟨Nat.le_refl _, by simp⟩ hpath
  rw [houts, List.mem_singleton] at hw
  rw [hw]
  exact ⟨rfl, rfl⟩

/-- A role of a `do` loop is that of its condition, or it holds whatever the loop does. -/
lemma test_of_mem_roles (hk : a.kind i = "do_statement") (hp : p ∈ a.roles i) (hj : a.contains i j = true)
    (hno : a.contains p.2 j = false) : ∃ test, a.condition? i = some test ∧ p = (.branch, test) := by
  simp only [roles, hk, List.mem_cons, List.not_mem_nil, or_false] at hp
  rcases hp with rfl | rfl
  · cases hno.symm.trans hj
  · cases hc : a.condition? i with
    | none =>
      rw [hc] at hno
      cases hno.symm.trans hj
    | some test => exact ⟨test, rfl, rfl⟩

/-- What a clause with a statement of a `switch` statement in it stands for. -/
lemma clause_of_mem_laidParts (hk : a.kind i = "switch_statement") (hj : j ∈ a.laidParts i)
    (h : (a.stmt i label).Stands final) :
    ∃ clause, j ∈ a.clauseParts clause ∧ (a.clauseStmt clause).Stands final ∧
      ∀ p ∈ (a.stmt i none).census, p ∉ a.roles i → a.contains clause p.2 = true →
        p ∈ (a.clauseStmt clause).census := by
  simp only [laidParts, partsWith, hk, List.mem_flatMap, List.mem_filter] at hj
  obtain ⟨clause, ⟨hclause, hkind⟩, hj⟩ := hj
  rw [stmt_eq, assembled] at h
  simp only [hk] at h
  refine ⟨clause, hj, (Stmt.Stands.passes final).clause h.switch hclause hkind, fun p hp hrole hcontains => ?_⟩
  obtain ⟨s, hs, hp⟩ := (mem_census_stmt.1 hp).resolve_left hrole
  simp only [laidParts, partsWith, hk, List.mem_flatMap, List.mem_filter] at hs
  obtain ⟨clause', ⟨hclause', -⟩, hs⟩ := hs
  cases hbody : a.child? i "body" with
  | none => simp [hbody] at hclause
  | some body =>
    rw [hbody, Option.elim_some] at hclause hclause'
    cases eq_of_contains hclause hclause' hcontains
      (contains_of_mem_children (List.mem_filter.1 hs).1 (contains_of_mem_census hp))
    rw [census_clauseStmt]
    exact List.mem_flatMap.2 ⟨s, hs, hp⟩

/-- A statement from which control goes on to what comes after it by the ways out of it only: it stands in a row of
statements, or is all of a `do` loop and holds no `continue`. -/
def InRow (a : Ast) (function i : Nat) : Prop :=
  i ∈ a.entryParts function ∨ ∃ j, Reached a function j ∧ i ∈ a.parts j ∧
    (a.kind j = "statement_block" ∨ a.kind j = "switch_statement" ∨
      a.kind j = "do_statement" ∧ ∀ k, a.contains i k = true → a.kind k ≠ "continue_statement")

/-- A walk to what an early exit covers leaves the `if` statement by its condition failing. -/
lemma leaves_of_earlyExit (hv : final.Visit a.IsJump path p) (hb : Plays final.nodes b (.branch, guard))
    (hexit : a.isEarlyExit guard = true) (hsplit : a.children up = k ++ guard :: l) (hbelow : below ∈ l)
    (hf : (a.skeleton f).Stands final) (hup : a.isFunction up = false) (hrow : a.InRow f guard)
    (hbranch : (Flow.NodeKind.branch, guard) ∈ (a.skeleton f).census) (hp : p ∈ (a.skeleton f).census) (hpb : a.contains below p.2 = true) (hguard : a.contains p.2 guard = false) :
    LeavesBy path b .onFalse := by
  have hchild : guard ∈ a.children up := by simp [hsplit]
  have hbelow' : below ∈ a.children up := by simp [hsplit, hbelow]
  have hparent : ∀ j, guard ∈ a.children j → j = up := fun j hj => by
    rw [← parent?_eq_some_iff] at hj hchild
    exact Option.some.inj (hj.symm.trans hchild)
  rcases hrow with hentry | ⟨j, hj, hpart, hkind⟩
  · obtain ⟨hchildf, hskel⟩ := skeleton_of_mem_entryParts hentry
    cases hparent f hchildf
    rcases hskel with ⟨hfunction, -⟩ | heq
    · cases hup.symm.trans hfunction
    · rw [heq] at hf hp
      exact leaves_of_children hv hb hexit hsplit hbelow hf hp hpb
  -- The `if` statement has a branch, so what is around it is laid out, and with it as a part.
  have hj := hj.laidOut hbranch (contains_of_mem_parts hpart)
  have hpart : guard ∈ a.laidParts j := (mem_laidParts_or hpart).resolve_right fun h => by
    rw [h.1] at hkind
    exact absurd hkind (by simp)
  obtain ⟨label, hstands⟩ := hj.stands hf
  have hjup : a.contains j up = true := by
    refine (contains_child_or_parent hchild (contains_self a guard) (contains_of_mem_laidParts hpart)).resolve_left ?_
    intro hcontains
    exact absurd (contains_iff.1 hcontains).1 (Nat.not_le.2 (lt_of_mem_laidParts hpart))
  have hcensus := hj.mem_census hp (contains_trans hjup (contains_of_mem_children hbelow' hpb))
  rcases hkind with hk | hk | ⟨hk, hno⟩
  · have hblock : ∀ label, a.stmt j label = .ofList ((a.children j).map (a.stmt · none)) := fun label => by
      rw [stmt_eq, assembled]
      simp only [hk]
    simp only [laidParts, partsWith, hk] at hpart
    cases hparent j hpart
    rw [hblock] at hstands hcensus
    exact leaves_of_children hv hb hexit hsplit hbelow hstands hcensus hpb
  · have hnorole : p ∉ a.roles j := by
      simp only [roles, hk, List.mem_singleton]
      rintro rfl
      exact Bool.eq_false_iff.1 hguard (contains_of_mem_laidParts hpart)
    obtain ⟨clause, hpart, hstands, hclause⟩ := clause_of_mem_laidParts hk hpart hstands
    cases hparent clause (List.mem_filter.1 hpart).1
    have hcensus := hclause p hcensus hnorole (contains_of_mem_children hbelow' hpb)
    exact leaves_of_clause hv hb hexit hsplit hbelow hstands hpart hcensus hpb
  · simp only [laidParts, partsWith, hk, Option.mem_toList] at hpart
    cases hparent j (mem_children_of_child? hpart)
    have hne : guard ≠ below := by
      rintro rfl
      have hnodup := nodup_children a up
      rw [hsplit] at hnodup
      exact (List.nodup_cons.1 hnodup.of_append_right).1 hbelow
    have hnopart : ¬ ∃ s ∈ a.laidParts up, p ∈ (a.stmt s none).census := by
      simp only [laidParts, partsWith, hk, hpart, Option.toList_some, List.mem_singleton]
      rintro ⟨s, rfl, hp⟩
      exact hne (eq_of_contains hchild hbelow' (contains_of_mem_census hp) hpb)
    obtain ⟨test, hcondition, rfl⟩ := test_of_mem_roles hk
      ((mem_census_stmt.1 hcensus).resolve_right hnopart) (contains_child hchild) hguard
    rw [stmt_eq, assembled] at hstands
    simp only [hk, hpart, hcondition] at hstands
    exact leaves_of_doLoop hv hb hexit hno hstands

end

/-- Branches stand for statements and for the conditions of `do` loops. -/
lemma branch_mem_roles (h : (Flow.NodeKind.branch, i) ∈ a.roles j) :
    i = j ∨ (a.kind j = "do_statement" ∧ a.condition? j = some i) := by
  unfold roles at h
  split at h
  all_goals rename_i hk
  · cases h
  · cases h
  iterate 4 exact .inl (Prod.mk.inj (List.mem_singleton.1 h)).2
  · cases hc : a.condition? j with
    | none => exact .inl (by simpa [hc] using h)
    | some c => exact .inr ⟨hk, by simpa [hc, eq_comm] using h⟩
  · simp only [List.mem_append, List.mem_cons, List.mem_map] at h
    rcases h with ⟨_, -, h⟩ | h | ⟨_, -, h⟩
    · cases h
    · exact .inl (Prod.mk.inj h).2
    · cases h
  · simp at h
  · simp at h

/-- Each role in the census of a function belongs below one of its children. -/
lemma exists_child_of_mem_census_skeleton {p : Role} (hp : p ∈ (a.skeleton f).census) :
    ∃ c ∈ a.children f, a.contains c p.2 = true := by
  rw [census_skeleton, List.mem_append, List.mem_map, List.mem_flatMap] at hp
  rcases hp with ⟨body, hbody, rfl⟩ | ⟨j, hj, hp⟩
  · unfold expressionBody? at hbody
    split at hbody
    · have hchild := (Option.filter_eq_some_iff.1 (Option.mem_toList.1 hbody)).1
      exact ⟨body, mem_children_of_child? hchild, contains_self a body⟩
    · cases hbody
  · exact ⟨j, (skeleton_of_mem_entryParts hj).1, contains_of_mem_census hp⟩

/-- The draft of a finished graph, with the block that was open last closed. -/
lemma finished_skeleton (a : Ast) (f : Nat) :
    let l := (a.skeleton f).layOut ⟨none, []⟩ (.start f) [.plain Flow.entryNode]
    (l.draft.close.connect l.outs Flow.exitNode false).Finished a.IsJump := by
  intro l
  refine ⟨(Flow.writes_skeleton a f [.plain Flow.entryNode]).tidy.connect _ _ _, ?_⟩
  refine (Flow.census_ofStmt a f "").nodup_iff.2 ?_
  have hnot : ∀ kind, (kind, f) ∉ (a.skeleton f).census := by
    intro kind hmem
    obtain ⟨c, hc, hcontains⟩ := exists_child_of_mem_census_skeleton hmem
    exact absurd (contains_iff.1 hcontains).1 (Nat.not_le.2 (mem_children hc).1)
  refine List.nodup_cons.2 ⟨?_, List.nodup_cons.2 ⟨hnot _, nodup_census_skeleton a f⟩⟩
  rw [List.mem_cons]
  rintro (h | h)
  · cases h
  · exact hnot _ h

/-- An `if` statement that has a branch in the graph is a statement of the function, or the condition of a `do`
loop. -/
lemma laidOut_of_branch (h : (Flow.NodeKind.branch, i) ∈ (a.skeleton f).census) :
    LaidOut a f i ∨ ∃ j, LaidOut a f j ∧ a.kind j = "do_statement" ∧ a.condition? j = some i := by
  rw [census_skeleton, List.mem_append, List.mem_map, List.mem_flatMap] at h
  rcases h with ⟨_, -, h⟩ | ⟨k, hk, h⟩
  · cases h
  · obtain ⟨j, hj, hrole⟩ := exists_of_mem_census (.entry hk) h
    rcases branch_mem_roles hrole with rfl | hdo
    · exact .inl hj
    · exact .inr ⟨j, hj, hdo⟩

/-- The condition of a `do` loop has no statements in it. -/
lemma not_contains_of_condition {p : Role} (hj : LaidOut a f j) (hk : a.kind j = "do_statement")
    (hc : a.condition? j = some i) (hp : p ∈ (a.skeleton f).census) (hi : a.contains i p.2 = true) :
    a.contains p.2 i = true := by
  obtain ⟨d, hd, hdi⟩ := condition?_eq_some hc
  rcases mem_census_stmt.1 (hj.mem_census hp (contains_of_child? hd (contains_trans hdi hi))) with h | ⟨s, hs, h⟩
  · simp only [roles, hk, hc, Option.getD_some, List.mem_cons, List.not_mem_nil, or_false] at h
    rcases h with rfl | rfl
    · exact contains_of_child? hd hdi
    · exact contains_self a i
  · simp only [laidParts, partsWith, hk, Option.mem_toList] at hs
    exact (apart_of_child? hd hs (by decide) p.2 (contains_trans hdi hi) (contains_of_mem_census h)).elim

/-- What an `if` statement covers agrees with the flow graph: on every walk from the entry to a node that stands
for something in the covered part, the last edge that leaves the branch of the `if` statement is the one for the
outcome. The statement covers one of its own branches, or it is an early exit in a row of statements. -/
theorem leavesBy_of_mem_covers {g : Flow.Graph} (hg : g ∈ Flow.graphs a)
    (hjumps : (a.skeleton g.function).Obeys .landing []) {n : Nat} {cover : Cover} (hcover : cover ∈ a.covers n)
    (hif : a.kind cover.guard = "if_statement")
    (hrow : a.contains cover.guard n = true ∨ a.InRow g.function cover.guard) {b : Nat}
    (hb : Plays g.nodes b (.branch, cover.guard)) {m : Nat} {p : Role} (hm : Plays g.nodes m p)
    (hn : a.contains p.2 n = true) (hguard : a.contains p.2 cover.guard = false) {path : List Flow.Edge}
    (hpath : g.IsWalk Flow.entryNode path m) :
    LeavesBy path b (if cover.outcome then .onTrue else .onFalse) := by
  obtain ⟨f, name, rfl⟩ := Flow.mem_graphs hg
  have hstands := stands_skeleton hjumps
  have hv := Draft.Visit.mk (finished_skeleton a f) ⟨_, m, rfl, hm, hpath⟩
  have hcensus : ∀ k q, Plays (Flow.Graph.ofStmt f name (a.skeleton f)).nodes k q →
      q = (.entry, f) ∨ q = (.exit, f) ∨ q ∈ (a.skeleton f).census := fun k q hk => by
    simpa using (Flow.census_ofStmt a f name).mem_iff.1 (Draft.mem_census.2 ⟨k, hk⟩)
  have hbranch : (Flow.NodeKind.branch, cover.guard) ∈ (a.skeleton f).census := by
    simpa using hcensus b _ hb
  have hp : p ∈ (a.skeleton f).census := by
    obtain ⟨c, hc, hcguard⟩ := exists_child_of_mem_census_skeleton hbranch
    have hfguard := contains_of_mem_children hc hcguard
    rcases hcensus m p hm with rfl | rfl | hp
    · cases hguard.symm.trans hfguard
    · cases hguard.symm.trans hfguard
    · exact hp
  obtain ⟨up, below, hbelow, hbn, hup, ⟨rfl, hfield⟩ | ⟨hout, hexit, k, l, hsplit, hl⟩⟩ := mem_covers hcover hif
  · have hpb : a.contains below p.2 = true :=
      (contains_child_or_parent hbelow hbn hn).resolve_right (Bool.eq_false_iff.1 hguard)
    rcases laidOut_of_branch hbranch with hlaid | ⟨j, hj, hk, hc⟩
    · obtain ⟨htrue, hfalse⟩ := leaves_of_branch hv hb hstands hlaid hif hbelow hp hpb
      rcases hfield with ⟨hfield, hout⟩ | ⟨hfield, hout⟩
      · rw [hout]
        exact htrue hfield
      · rw [hout]
        exact hfalse hfield
    · exact absurd (not_contains_of_condition hj hk hc hp (contains_of_mem_children hbelow hpb))
        (Bool.eq_false_iff.1 hguard)
  · have hchild : cover.guard ∈ a.children up := by simp [hsplit]
    have hpb : a.contains below p.2 = true := (contains_child_or_parent hbelow hbn hn).resolve_right fun h =>
      Bool.eq_false_iff.1 hguard (contains_trans h (contains_child hchild))
    have hrow : a.InRow f cover.guard := hrow.resolve_left fun hguardn => by
      have hnodup := nodup_children a up
      rw [hsplit] at hnodup
      cases eq_of_contains hchild hbelow hguardn hbn
      exact (List.nodup_cons.1 hnodup.of_append_right).1 hl
    rw [hout]
    exact leaves_of_earlyExit hv hb hexit hsplit hl hstands hup hrow hbranch hp hpb hguard

/-- The program `while (c) { if (!x) continue; x.y; }`. -/
def skippingLoop : Ast :=
  .ofForest "while (c) { if (!x) continue; x.y; }" <|
    .cons ⟨"program", none, "", 0, 36, 1⟩
      (.cons ⟨"while_statement", none, "", 0, 36, 1⟩
        (.cons ⟨"parenthesized_expression", some "condition", "", 6, 9, 1⟩
          (.cons ⟨"identifier", none, "c", 7, 8, 1⟩ .nil .nil)
          (.cons ⟨"statement_block", some "body", "", 10, 36, 1⟩
            (.cons ⟨"if_statement", none, "", 12, 29, 1⟩
              (.cons ⟨"parenthesized_expression", some "condition", "", 15, 19, 1⟩
                (.cons ⟨"unary_expression", none, "!", 16, 18, 1⟩
                  (.cons ⟨"identifier", some "argument", "x", 17, 18, 1⟩ .nil .nil) .nil)
                (.cons ⟨"continue_statement", some "consequence", "", 20, 29, 1⟩ .nil .nil))
              (.cons ⟨"expression_statement", none, "", 30, 34, 1⟩
                (.cons ⟨"member_expression", none, "", 30, 33, 1⟩
                  (.cons ⟨"identifier", some "object", "x", 30, 31, 1⟩ .nil
                    (.cons ⟨"property_identifier", some "property", "y", 32, 33, 1⟩ .nil .nil)) .nil)
                .nil)) .nil)) .nil) .nil

/-- The way through the loop to `x.y`. -/
def wayToMember : List Flow.Edge :=
  [⟨0, 2, .unconditional, none, none, false⟩, ⟨2, 3, .onTrue, some 3, none, false⟩,
    ⟨3, 5, .onFalse, some 7, none, false⟩]

/-- The graph of the program. -/
def skippingGraph : Flow.Graph := .ofStmt 0 scriptName (skippingLoop.skeleton 0)

/-- A walk that leaves the early exit in a loop by its other arm. -/
theorem leavesBy_of_mem_covers_skippingLoop :
    (⟨5, false⟩ : Cover) ∈ skippingLoop.covers 11 ∧ Plays skippingGraph.nodes 5 (.block, 10) ∧
      skippingGraph.IsWalk Flow.entryNode wayToMember 5 ∧ LeavesBy wayToMember 3 .onFalse := by
  have hcover : (⟨5, false⟩ : Cover) ∈ skippingLoop.covers 11 := by decide +kernel
  have hplays : Plays skippingGraph.nodes 5 (.block, 10) := by decide +kernel
  have hwalk : skippingGraph.IsWalk Flow.entryNode wayToMember 5 := by decide +kernel
  have hloop : Reached skippingLoop 0 1 := .entry (by decide +kernel)
  have hblock : Reached skippingLoop 0 4 := hloop.part (by decide +kernel)
  have hrow : skippingLoop.InRow 0 5 := .inr ⟨4, hblock, by decide +kernel, .inl (by decide +kernel)⟩
  refine ⟨hcover, hplays, hwalk, ?_⟩
  exact leavesBy_of_mem_covers (g := skippingGraph) (by decide +kernel)
    (show (skippingLoop.skeleton 0).Obeys .landing [] by decide +kernel) hcover (by decide +kernel) (.inr hrow)
    (by decide +kernel) hplays (by decide +kernel) (by decide +kernel) hwalk

/-- The program `do if (!x) continue; while (x.y);`. -/
def bareLoop : Ast :=
  .ofForest "do if (!x) continue; while (x.y);" <|
    .cons ⟨"program", none, "", 0, 33, 1⟩
      (.cons ⟨"do_statement", none, "", 0, 33, 1⟩
        (.cons ⟨"if_statement", some "body", "", 3, 20, 1⟩
          (.cons ⟨"parenthesized_expression", some "condition", "", 6, 10, 1⟩
            (.cons ⟨"unary_expression", none, "!", 7, 9, 1⟩
              (.cons ⟨"identifier", some "argument", "x", 8, 9, 1⟩ .nil .nil) .nil)
            (.cons ⟨"continue_statement", some "consequence", "", 11, 20, 1⟩ .nil .nil))
          (.cons ⟨"parenthesized_expression", some "condition", "", 27, 32, 1⟩
            (.cons ⟨"member_expression", none, "", 28, 31, 1⟩
              (.cons ⟨"identifier", some "object", "x", 28, 29, 1⟩ .nil
                (.cons ⟨"property_identifier", some "property", "y", 30, 31, 1⟩ .nil .nil)) .nil)
            .nil)) .nil) .nil

/-- The graph of the program. -/
def bareGraph : Flow.Graph := .ofStmt 0 scriptName (bareLoop.skeleton 0)

/-- The way to the condition of the loop that takes the `continue`. -/
def wayOverContinue : List Flow.Edge :=
  [⟨0, 2, .unconditional, none, none, false⟩, ⟨2, 3, .unconditional, none, none, false⟩,
    ⟨3, 4, .onTrue, some 4, none, false⟩, ⟨4, 5, .unconditional, none, none, false⟩]

/-- The `if` statement covers the condition of the loop, but control comes to it by the `continue`, too. -/
theorem not_leavesBy_of_bareLoop :
    bareGraph ∈ Flow.graphs bareLoop ∧ (bareLoop.skeleton 0).Obeys .landing [] ∧
      (⟨2, false⟩ : Cover) ∈ bareLoop.covers 9 ∧ bareLoop.kind 2 = "if_statement" ∧
      Plays bareGraph.nodes 3 (.branch, 2) ∧ Plays bareGraph.nodes 5 (.branch, 8) ∧
      bareLoop.contains 8 9 = true ∧ bareLoop.contains 8 2 = false ∧
      bareGraph.IsWalk Flow.entryNode wayOverContinue 5 ∧ ¬ LeavesBy wayOverContinue 3 .onFalse := by
  have hedges : ∀ e ∈ wayOverContinue, e.source = 3 → e.kind = .onTrue := by decide
  refine ⟨by decide +kernel, by decide +kernel, by decide +kernel, by decide +kernel, by decide +kernel,
    by decide +kernel, by decide +kernel, by decide +kernel, by decide +kernel, ?_⟩
  rintro ⟨before, e, after, hway, hs, hk, -⟩
  cases hk.symm.trans (hedges e (by simp [hway]) hs)

end Syntax.Ast

end Mend
