import Mend.Proofs.Flow.Departure
import Mend.Proofs.Flow.Placement

/-!
# An order that only back edges go against

The nodes of a statement can be put in a row in which every edge that closes no loop leads to a later place
(`Draft.Ordered`). It is not the order in which they were added: the handlers of a `try` statement come
before its body, but control comes to them from the body. What is laid out in turn is put in a row one after
the other (`Draft.Orders.trans`), since nothing leads back to what was there before but to the exit and the
handler in force. A `try` statement takes its body, the catch clause and the finally clause in this order, the
node of a clause in front of what the clause holds (`Layout.Row`). Hence a walk that comes back to where it began
takes a back edge (`acyclic_ofStmt`).
-/

namespace Mend.Flow

/-- An edge that closes no loop leads from the one node to the other. -/
def Draft.Forward (d : Draft) (x y : Nat) : Prop :=
  ∃ e ∈ d.edges.toList, e.isBack = false ∧ e.source = x ∧ e.target = y

/-- No such edge leads from a node in the list to itself or to one before it. -/
structure Draft.Ordered (d : Draft) (order : List Nat) : Prop where
  pairwise : order.Pairwise fun x y => ¬ d.Forward y x
  irrefl : ∀ x ∈ order, ¬ d.Forward x x

/-- The nodes that were added between `d` and `d'` can be put in such an order. -/
def Draft.Orders (d d' : Draft) : Prop := ∃ order, (∀ n, n ∈ order ↔ d.Added d' n) ∧ d'.Ordered order

namespace Draft

variable {d d' d'' : Draft} {c : Context} {T : Nat → Prop} {W : Way → Prop} {ways : List Way}
  {order later : List Nat} {n x y : Nat}

/-- Connecting ways adds the forward edges from their sources, unless they close a loop. -/
lemma forward_connect {b : Bool} : (d.connect ways n b).Forward x y ↔
    d.Forward x y ∨ (b = false ∧ n = y ∧ ∃ w ∈ ways, w.source = x) := by
  simp only [Forward, edges_connect, List.mem_append, List.mem_map]
  constructor
  · rintro ⟨e, he | ⟨w, hw, rfl⟩, hb, hs, ht⟩
    · exact .inl ⟨e, he, hb, hs, ht⟩
    · exact .inr ⟨hb, ht, w, hw, hs⟩
  · rintro (⟨e, he, hb, hs, ht⟩ | ⟨hb, ht, w, hw, hs⟩)
    · exact ⟨e, .inl he, hb, hs, ht⟩
    · exact ⟨w.toEdge n b, .inr ⟨w, hw, rfl⟩, hb, hs, ht⟩

/-- Ways that are connected to a new node later could have been connected at once. -/
lemma connect_addTarget (kind : NodeKind) (ast : Nat) (more : List Way) :
    (d.addTarget c kind ast ways).1.connect more d.size false = (d.addTarget c kind ast (ways ++ more)).1 := by
  rw [addTarget_fst, addTarget_fst]
  simp [connect]

/-- A new node adds a forward edge to the handler in force at most. -/
lemma forward_addNode {kind : NodeKind} {ast : Nat} : (d.addNode c kind ast).1.Forward x y ↔
    d.Forward x y ∨ (d.size = x ∧ c.handler = some y) := by
  simp only [Forward, edges_addNode, List.mem_append, handlerEdges, List.mem_map, Option.mem_toList]
  constructor
  · rintro ⟨e, he | ⟨h, hh, rfl⟩, hb, hs, ht⟩
    · exact .inl ⟨e, he, hb, hs, ht⟩
    · exact .inr ⟨hs, ht ▸ hh⟩
  · rintro (⟨e, he, hb, hs, ht⟩ | ⟨rfl, hh⟩)
    · exact ⟨e, .inl he, hb, hs, ht⟩
    · exact ⟨_, .inr ⟨y, hh, rfl⟩, rfl, rfl, rfl⟩

/-- Forward edges leave nodes that are there. -/
lemma Sourced.lt_of_forward (h : d.Sourced ways) (hxy : d.Forward x y) : x < d.size := by
  obtain ⟨e, he, -, rfl, -⟩ := hxy
  exact h.edges e he

/-- A further edge leaves a new node or stands for a way, and enters a new node or one in `T`. -/
lemma Grows.forward (hg : d.Grows T W d') (h : d'.Forward x y) : d.Forward x y ∨
    ((d.Added d' x ∨ ∃ w, W w ∧ w.source = x) ∧ (d.Added d' y ∨ T y)) := by
  obtain ⟨e, he, hb, rfl, rfl⟩ := h
  obtain ⟨new, heq, hnew⟩ := hg.edges
  rw [heq, List.mem_append] at he
  rcases he with he | he
  · exact .inl ⟨e, he, hb, rfl, rfl⟩
  · exact .inr ⟨(hnew e he).source.imp_right fun ⟨w, hw, hs, _⟩ => ⟨w, hw, hs⟩, (hnew e he).target⟩

namespace Ordered

/-- Two rows can be put one behind the other if no edge leads back into the first. -/
lemma append (h : d.Ordered order) (h' : d.Ordered later)
    (hcross : ∀ x ∈ order, ∀ y ∈ later, ¬ d.Forward y x) : d.Ordered (order ++ later) where
  pairwise := List.pairwise_append.2 ⟨h.pairwise, h'.pairwise, hcross⟩
  irrefl := List.forall_mem_append.2 ⟨h.irrefl, h'.irrefl⟩

/-- A node that has no edge to itself is a row of its own. -/
lemma singleton (h : ¬ d.Forward n n) : d.Ordered [n] where
  pairwise := List.pairwise_singleton _ _
  irrefl := List.forall_mem_singleton.2 h

/-- Nodes that nothing new leads to stay in order. -/
lemma grow (h : d.Ordered order) (hg : d.Grows T W d') (hT : ∀ x ∈ order, x < d.size ∧ ¬ T x) :
    d'.Ordered order := by
  have hold : ∀ x ∈ order, ∀ y, d'.Forward y x → d.Forward y x := by
    intro x hx y hyx
    obtain ⟨hlt, hnot⟩ := hT x hx
    rcases hg.forward hyx with hyx | ⟨-, hnew | ht⟩
    · exact hyx
    · exact absurd hlt (Nat.not_lt.2 hnew.1)
    · exact absurd ht hnot
  exact ⟨h.pairwise.imp_of_mem fun hx _ hnot hyx => hnot (hold _ hx _ hyx),
    fun x hx hxx => h.irrefl x hx (hold x hx x hxx)⟩

/-- What is added later comes behind what was there. -/
lemma glue (h : d.Ordered order) (h' : d'.Ordered later) (hs : d.Sourced ways) (hg : d.Grows T W d')
    (hT : ∀ x ∈ order, x < d.size ∧ ¬ T x) (hlater : ∀ y ∈ later, d.size ≤ y) :
    d'.Ordered (order ++ later) := by
  refine (h.grow hg hT).append h' fun x hx y hy hyx => ?_
  obtain ⟨hlt, hnot⟩ := hT x hx
  rcases hg.forward hyx with hyx | ⟨-, hnew | ht⟩
  · exact absurd (hs.lt_of_forward hyx) (Nat.not_lt.2 (hlater y hy))
  · exact absurd hlt (Nat.not_lt.2 hnew.1)
  · exact absurd ht hnot

/-- Along an edge that closes no loop the places increase. -/
lemma idxOf_lt (h : d.Ordered order) (hx : x ∈ order) (hy : y ∈ order) (hxy : d.Forward x y) :
    order.idxOf x < order.idxOf y := by
  have hxlt := List.idxOf_lt_length_iff.2 hx
  have hylt := List.idxOf_lt_length_iff.2 hy
  rcases Nat.lt_trichotomy (order.idxOf x) (order.idxOf y) with hlt | heq | hgt
  · exact hlt
  · obtain rfl := (List.idxOf_inj hx).1 heq
    exact absurd hxy (h.irrefl x hx)
  · have hnot := List.pairwise_iff_getElem.1 h.pairwise _ _ hylt hxlt hgt
    rw [List.getElem_idxOf, List.getElem_idxOf] at hnot
    exact absurd hxy hnot

end Ordered

namespace Orders

/-- Where no node was added there is nothing to order. -/
lemma of_size_eq (h : d'.size = d.size) : d.Orders d' := by
  refine ⟨[], fun n => ?_, List.Pairwise.nil, nofun⟩
  simp only [Added, h, List.not_mem_nil, false_iff]
  omega

/-- A single node that was added is in order if it has no edge to itself. -/
lemma of_size_succ (h : d'.size = d.size + 1) (hnot : ¬ d'.Forward d.size d.size) : d.Orders d' := by
  refine ⟨[d.size], fun n => ?_, .singleton hnot⟩
  simp only [Added, h, List.mem_singleton]
  omega

/-- What is laid out later comes later in the row. -/
lemma trans (h : d.Orders d') (h' : d'.Orders d'') (hs : d'.Sourced ways) (hg : d'.Grows T W d'')
    (hT : ∀ x, T x → x < d.size) (hle : d.size ≤ d'.size) : d.Orders d'' := by
  obtain ⟨order, hmem, ho⟩ := h
  obtain ⟨later, hmem', ho'⟩ := h'
  have hle' := hg.size_le
  refine ⟨order ++ later, fun n => ?_, ho.glue ho' hs hg (fun x hx => ?_) fun y hy => ((hmem' y).1 hy).1⟩
  · rw [List.mem_append, hmem, hmem', Added, Added, Added]
    omega
  · obtain ⟨hge, hlt⟩ := (hmem x).1 hx
    exact ⟨hlt, fun ht => absurd (hT x ht) (Nat.not_lt.2 hge)⟩

/-- Closing a block keeps the row. -/
lemma close (h : d.Orders d') : d.Orders d'.close := by
  obtain ⟨order, hmem, ho⟩ := h
  exact ⟨order, hmem, ho.pairwise, ho.irrefl⟩

/-- Edges that close a loop do not count. -/
lemma connectBack (h : d.Orders d') (ways : List Way) (n : Nat) : d.Orders (d'.connect ways n true) := by
  obtain ⟨order, hmem, ho⟩ := h
  have hback : ∀ {x y}, (d'.connect ways n true).Forward x y → d'.Forward x y := fun h =>
    (forward_connect.1 h).resolve_right fun h => Bool.noConfusion h.1
  exact ⟨order, hmem, ho.pairwise.imp fun hnot h => hnot (hback h), fun x hx h => ho.irrefl x hx (hback h)⟩

/-- Nor do edges out of what was added. -/
lemma connectOut (h : d.Orders d') (ways : List Way) (hn : n < d.size) :
    d.Orders (d'.connect ways n false) := by
  obtain ⟨order, hmem, ho⟩ := h
  have hg : d'.Grows (· = n) (fun _ => True) (d'.connect ways n false) :=
    (Grows.refl _ _ d').connect ways false (.inl rfl) fun _ _ => .inl trivial
  refine ⟨order, hmem, ho.grow hg fun x hx => ?_⟩
  obtain ⟨hge, hlt⟩ := (hmem x).1 hx
  exact ⟨hlt, by omega⟩

end Orders

/-- What was laid out from `d` on is in order, and `ways` lead on from there. -/
structure Lined (handler : Option Nat) (d d' : Draft) (ways : List Way) : Prop where
  start : d.Sound handler
  sound : d'.Sound handler
  sourced : d'.Sourced ways
  size_le : d.size ≤ d'.size
  orders : d.Orders d'

namespace Lined

variable {handler : Option Nat}

/-- A sound draft lines up with itself. -/
lemma refl (hd : d.Sound handler) (hs : d.Sourced ways) : Lined handler d d ways :=
  ⟨hd, hd, hs, Nat.le_refl _, .of_size_eq rfl⟩

/-- Closing a block keeps the line. -/
lemma close (h : Lined handler d d' ways) : Lined handler d d'.close ways :=
  ⟨h.start, h.sound.close, h.sourced.close, h.size_le, h.orders.close⟩

/-- So does going on with other ways out of what is there. -/
lemma withWays (h : Lined handler d d' ways) {other : List Way} (hother : ∀ w ∈ other, w.source < d'.size) :
    Lined handler d d' other :=
  ⟨h.start, h.sound, h.sourced.withWays hother, h.size_le, h.orders⟩

/-- What is laid out next lines up behind what is there. -/
lemma step (h : Lined c.handler d d' ways) (hg : d'.Grows c.Reaches (· ∈ ways) d'') (ho : d'.Orders d'')
    {outs : List Way} (houts : ∀ w ∈ outs, w ∈ ways ∨ d'.Added d'' w.source) : Lined c.handler d d'' outs where
  start := h.start
  sound := h.sound.grow (h.sound.spares hg)
  sourced := h.sourced.grow hg h.sourced.ways houts
  size_le := Nat.le_trans h.size_le hg.size_le
  orders := h.orders.trans ho h.sourced hg (fun _ => h.start.reaches) h.size_le

/-- A new node leads to the handler in force, not to itself. -/
lemma not_forward_addNode (h : Lined c.handler d d' ways) (kind : NodeKind) (ast : Nat) :
    ¬ ((d'.addNode c kind ast).1.connect ways d'.size false).Forward d'.size d'.size := by
  rw [forward_connect, forward_addNode]
  rintro ((hold | ⟨-, hh⟩) | ⟨-, -, w, hw, hws⟩)
  · exact absurd (h.sourced.lt_of_forward hold) (Nat.lt_irrefl _)
  · exact absurd (h.sound.handled _ hh) (Nat.lt_irrefl _)
  · exact absurd (hws ▸ h.sourced.ways w hw) (Nat.lt_irrefl _)

/-- A target has no forward edge to itself. -/
lemma not_forward_addTarget (h : Lined c.handler d d' ways) (kind : NodeKind) (ast : Nat) :
    ¬ (d'.addTarget c kind ast ways).1.Forward d'.size d'.size := by
  rw [addTarget_fst]
  exact h.close.not_forward_addNode kind ast

/-- A target lines up behind what is there. -/
lemma addTarget (h : Lined c.handler d d' ways) (kind : NodeKind) (ast : Nat) {w : Way} (hw : w.source = d'.size) :
    Lined c.handler d (d'.addTarget c kind ast ways).1 [w] := by
  refine h.step ((Grows.refl _ _ d').addTarget kind ast (handled_of c) fun _ => .inl)
    (.of_size_succ (size_addTarget ..) (h.not_forward_addTarget kind ast)) ?_
  exact new_of_mem_singleton hw ⟨Nat.le_refl _, by simp⟩

/-- So does a plain statement. -/
lemma plain (h : Lined c.handler d d' ways) (ast : Nat) :
    Lined c.handler d (d'.plain c ast ways).1 (d'.plain c ast ways).2 := by
  obtain ⟨hg, houts⟩ := (Grows.refl c.Reaches (· ∈ ways) d').plain ast (handled_of c) fun _ => .inl
  refine h.step hg ?_ houts
  cases hb : d'.openBlock? ways with
  | some block =>
    rw [plain_of_openBlock?_eq_some _ _ _ _ hb]
    exact .of_size_eq (size_append ..)
  | none =>
    rw [plain_of_openBlock?_eq_none _ _ _ _ hb]
    exact .of_size_succ (by simp) (h.not_forward_addNode .block ast)

/-- So does a plain statement that may be missing. -/
lemma plain? (h : Lined c.handler d d' ways) (part : Option Nat) :
    Lined c.handler d (d'.plain? c part ways).1 (d'.plain? c part ways).2 := by
  cases part with
  | none => exact h
  | some ast => exact h.plain ast

end Lined

end Draft

/-- The nodes of a statement are in order wherever it is laid out. -/
def Stmt.LinesUp (s : Stmt) : Prop :=
  ∀ (c : Context) (d : Draft) (ways : List Way), d.Sound c.handler → d.Sourced ways →
    d.Orders (s.layOut c d ways).draft

/-- The same of clauses, entered from `branch`, too. -/
def Clauses.LineUp (s : Clauses) : Prop :=
  ∀ (c : Context) (branch : Nat) (selector : Option Nat) (d : Draft) (falling : List Way),
    d.Sound c.handler → d.Sourced falling → branch < d.size →
    d.Orders (s.layOut c branch selector d falling).draft

/-- The ways that a layout leaves open: those out and those of the jumps. -/
def Layout.left (l : Layout) : List Way := l.outs ++ l.jumps.map (·.way)

variable {c : Context} {d d' : Draft} {ways : List Way} {l : Layout} {node depth : Nat} {label : Option String}
  {condition : Option Nat} {body first rest onTrue onFalse : Stmt}

/-- The ways out of a statement are among those it leaves. -/
lemma Layout.mem_left_of_outs {w : Way} (h : w ∈ l.outs) : w ∈ l.left := List.mem_append_left _ h

/-- So are the ways that come back to the head of a loop. -/
lemma Layout.mem_left_of_latch {w : Way} (h : w ∈ l.outs ++ l.continues depth) : w ∈ l.left := by
  rcases List.mem_append.1 h with h | h
  · exact Layout.mem_left_of_outs h
  · obtain ⟨j, hj, -, -, rfl⟩ := Layout.mem_continues.1 h
    exact List.mem_append_right _ (List.mem_map_of_mem hj)

/-- The ways that a statement leaves are those it was given or come from its nodes. -/
lemma Layout.Grown.left {T : Nat → Prop} {W : Way → Prop} (h : l.Grown T W d) :
    ∀ w ∈ l.left, W w ∨ d.Added l.draft w.source := by
  refine List.forall_mem_append.2 ⟨h.outs, fun w hw => ?_⟩
  obtain ⟨j, hj, rfl⟩ := List.mem_map.1 hw
  exact h.jumps j hj

namespace Draft.Lined

/-- A statement that lines up does so behind what is there. -/
lemma layOut {s : Stmt} (h : d.Lined c.handler d' ways) (hs : s.LinesUp) :
    d.Lined c.handler (s.layOut c d' ways).draft (s.layOut c d' ways).left := by
  have hg := s.layOut_grown c d' ways
  exact h.step hg.grows (hs c d' ways h.sound h.sourced) hg.left

variable {handler : Option Nat}

/-- Only the ways out go on. -/
lemma outs (h : d.Lined handler d' l.left) : d.Lined handler d' l.outs :=
  h.withWays fun w hw => h.sourced.ways w (Layout.mem_left_of_outs hw)

/-- Only the ways back to the head go on. -/
lemma latch (h : d.Lined handler d' l.left) (depth : Nat) : d.Lined handler d' (l.outs ++ l.continues depth) :=
  h.withWays fun w hw => h.sourced.ways w (Layout.mem_left_of_latch hw)

end Draft.Lined

/-- Laying out a statement takes no node away. -/
lemma Stmt.size_le_layOut (c : Context) (d : Draft) (ways : List Way) (s : Stmt) :
    d.size ≤ (s.layOut c d ways).draft.size :=
  (s.layOut_grown c d ways).grows.size_le

/-- The body of a loop or a branch is in order behind the head. -/
lemma lined_behind {s : Stmt} (hd : d.Sound c.handler) (hs : d.Sourced ways) (kind : NodeKind) (node : Nat)
    {w : Way} (hw : w.source = d.size) (hbody : s.LinesUp) :
    let l := s.layOut c (d.addTarget c kind node ways).1 [w]
    d.Lined c.handler l.draft l.left ∧ d.size < l.draft.size := by
  refine ⟨((Draft.Lined.refl hd hs).addTarget kind node hw).layOut hbody, ?_⟩
  exact Nat.lt_of_lt_of_le (by simp) (s.size_le_layOut c _ _)

/-- One statement after the other. -/
lemma linesUp_seq (hf : first.LinesUp) (hr : rest.LinesUp) : (Stmt.seq first rest).LinesUp := by
  intro c d ways hd hs
  have hl := (Draft.Lined.refl hd hs).layOut hf
  rw [Stmt.layOut]
  exact (hl.outs.layOut hr).orders

/-- The two branches of an `if`, behind its head. -/
lemma linesUp_branch (ht : onTrue.LinesUp) (hf : onFalse.LinesUp) :
    (Stmt.branch node condition onTrue onFalse).LinesUp := by
  intro c d ways hd hs
  obtain ⟨hl, hlt⟩ := lined_behind hd hs .branch node (w := .guarded d.size .onTrue condition) rfl ht
  rw [layOut_branch]
  exact ((hl.close.withWays (List.forall_mem_singleton.2 hlt)).layOut hf).orders.close

/-- The body of a `while` loop, behind its head. -/
lemma linesUp_whileLoop (hbody : body.LinesUp) : (Stmt.whileLoop node label condition body).LinesUp := by
  intro c d ways hd hs
  obtain ⟨hl, -⟩ := lined_behind (c := c.enter ⟨label, true, true⟩) hd hs .branch node
    (w := .guarded d.size .onTrue condition) rfl hbody
  rw [layOut_whileLoop]
  exact ((hl.orders.connectBack _ _).connectBack _ _).close

/-- The body of a `do` loop, behind its head and before its test. -/
lemma linesUp_doLoop (hbody : body.LinesUp) : (Stmt.doLoop node label condition body).LinesUp := by
  intro c d ways hd hs
  obtain ⟨hl, -⟩ := lined_behind (c := c.enter ⟨label, true, true⟩) hd hs .loopHead node
    (w := .plain d.size) rfl hbody
  have ht := (hl.latch c.frames.length).addTarget .branch (condition.getD node)
    (w := .guarded _ .onTrue condition) rfl
  rw [layOut_doLoop]
  dsimp only
  rw [Draft.connect_addTarget]
  exact (ht.orders.connectBack _ _).close

/-- The start of a `for` loop, its head, its body and its step. -/
lemma linesUp_forLoop {start step : Option Nat} (hbody : body.LinesUp) :
    (Stmt.forLoop node label start condition step body).LinesUp := by
  intro c d ways hd hs
  rw [layOut_forLoop]
  extract_lets p head l q
  have hp := (Draft.Lined.refl hd hs).plain? start
  have hb := hp.addTarget (if condition.isSome then .branch else .loopHead) node
    (w := if condition.isSome then .guarded head .onTrue condition else .plain head) (by split <;> rfl)
  have hl := Draft.Lined.layOut (c := c.enter ⟨label, true, true⟩) hb hbody
  have hq := Draft.Lined.plain? (c := c) (hl.latch c.frames.length).close step
  exact (hq.orders.connectBack _ _).close

/-- The body of a `for` loop over something, behind its head. -/
lemma linesUp_forEach {iterated : Option Nat} (hbody : body.LinesUp) :
    (Stmt.forEach node label iterated body).LinesUp := by
  intro c d ways hd hs
  obtain ⟨hl, -⟩ := lined_behind (c := c.enter ⟨label, true, true⟩) hd hs .branch node
    (w := .guarded d.size .onTrue iterated) rfl hbody
  rw [layOut_forEach]
  exact ((hl.orders.connectBack _ _).connectBack _ _).close

/-- The clauses of a `switch`, behind its head. -/
lemma linesUp_switch {selector : Option Nat} {clauses : Clauses} (hclauses : clauses.LineUp) :
    (Stmt.switch node selector clauses).LinesUp := by
  intro c d ways hd hs
  have hb := (Draft.Lined.refl hd hs).addTarget .branch node (w := .plain d.size) rfl
  have hl := clauses.layOut_grown (c.enter ⟨none, false, true⟩) d.size selector
    (d.addTarget c .branch node ways).1 []
  have ho := hclauses (c.enter ⟨none, false, true⟩) d.size selector (d.addTarget c .branch node ways).1 []
    hb.sound (hb.sourced.withWays (List.forall_mem_nil _)) (by simp)
  rw [layOut_switch]
  exact (hb.orders.trans ho hb.sourced hl.grows (fun _ => hd.reaches) hb.size_le).close

/-- A statement with a label. -/
lemma linesUp_labelled (hbody : body.LinesUp) : (Stmt.labelled node label body).LinesUp := by
  intro c d ways hd hs
  have hl := Draft.Lined.layOut (c := c.enter ⟨label, false, false⟩) (Draft.Lined.refl hd hs).close hbody
  rw [layOut_labelled]
  exact hl.orders.close

/-- A clause of a `switch` statement and those behind it. -/
lemma lineUp_clause {branch : Nat} {selector : Option Nat} {falling : List Way} {entry : Way} {others : Clauses}
    (hentry : entry.source = branch) (hd : d.Sound c.handler) (hs : d.Sourced falling) (hb : branch < d.size)
    (hbody : body.LinesUp) (hothers : others.LineUp) :
    let l := body.layOut c d.close (falling ++ [entry])
    d.Orders (others.layOut c branch selector l.draft l.outs).draft := by
  intro l
  have hways : ∀ w ∈ falling ++ [entry], w.source < d.size :=
    List.forall_mem_append.2 ⟨hs.ways, List.forall_mem_singleton.2 (hentry ▸ hb)⟩
  have hl := ((Draft.Lined.refl hd hs).close.withWays hways).layOut hbody
  have hr := others.layOut_grown c branch selector l.draft l.outs
  exact hl.orders.trans (hothers c branch selector _ _ hl.sound hl.outs.sourced (Nat.lt_of_lt_of_le hb hl.size_le))
    hl.sourced hr.grows (fun _ => hd.reaches) hl.size_le

/-! The clauses of a `try` statement. -/

namespace Draft

variable {clause : Option Nat}

/-- The node of a clause is the one that was added for it. -/
lemma mem_addClause : n ∈ (d.addClause c clause).2.toList ↔ d.Added (d.addClause c clause).1 n := by
  cases clause with
  | none => simp only [addClause, Added, Option.elim_none, Option.toList_none, List.not_mem_nil, false_iff]; omega
  | some ast =>
    simp only [addClause, Added, Option.elim_some, Option.toList_some, List.mem_singleton, size_addNode]
    omega

/-- The node of a clause has a forward edge to the handler in force at most. -/
lemma forward_addClause (h : (d.addClause c clause).1.Forward x y) : d.Forward x y ∨ c.handler = some y := by
  cases clause with
  | none => exact .inl h
  | some ast => exact (forward_addNode.1 h).imp_right And.right

/-- The nodes of the clauses of a `try` statement lead to the handler in force only. -/
lemma Sound.forward_clauses {catchNode finallyNode : Option Nat} (hd : d.Sound c.handler) (hs : d.Sourced ways)
    (hn : d.size ≤ n) (h : ((d.addClause c catchNode).1.addClause c finallyNode).1.Forward n x) : x < d.size := by
  rcases forward_addClause h with h | h
  · rcases forward_addClause h with h | h
    · exact absurd (hs.lt_of_forward h) (Nat.not_lt.2 hn)
    · exact hd.handled x h
  · exact hd.handled x h

/-- Adding the nodes of both clauses keeps the ways out of what is there. -/
lemma Sourced.clauses (hs : d.Sourced ways) (c : Context) (catchNode finallyNode : Option Nat) :
    ((d.addClause c catchNode).1.addClause c finallyNode).1.Sourced ways := by
  obtain ⟨hc, -⟩ := (Grows.refl c.Reaches (· ∈ ways) d).addClause catchNode (handled_of c)
  obtain ⟨hf, -⟩ := hc.addClause finallyNode (handled_of c)
  exact hs.grow hf hs.ways fun w => .inl

/-- Nothing new leaves an old node that no way leads out of. -/
lemma Grows.forward_old (hg : d.Grows T W d') (hx : x < d.size) (hW : ∀ w, W w → w.source ≠ x)
    (h : d'.Forward x y) : d.Forward x y := by
  rcases hg.forward h with h | ⟨hnew | ⟨w, hw, hs⟩, -⟩
  · exact h
  · exact absurd hx (Nat.not_lt.2 hnew.1)
  · exact absurd hs (hW w hw)

/-- Going on inside a clause keeps a row that the clause is not in. -/
lemma Ordered.into (h : l.draft.Ordered order) (hn : ∀ n ∈ clause, n ∉ order) :
    (l.into clause).draft.Ordered order := by
  cases clause with
  | none => exact h
  | some n =>
    have hto : ∀ x ∈ order, ∀ y, (l.draft.connect l.outs n false).Forward y x → l.draft.Forward y x := by
      intro x hx y hyx
      exact (forward_connect.1 hyx).resolve_right fun hnew => hn n rfl (hnew.2.1 ▸ hx)
    exact ⟨h.pairwise.imp_of_mem fun hx _ hnot hyx => hnot (hto _ hx _ hyx),
      fun x hx hxx => h.irrefl x hx (hto x hx x hxx)⟩

/-- Behind what leads to a clause comes its node, and then its body. -/
lemma Ordered.layOutClause (h : l.draft.Ordered order) (hd : l.draft.Sound c.handler) (hs : l.draft.Sourced l.outs)
    (hlist : ∀ x ∈ order ++ clause.toList, x < l.draft.size ∧ ¬ c.Reaches x)
    (hclause : ∀ n ∈ clause, ∀ x ∈ order ++ clause.toList, ¬ l.draft.Forward n x) (hbody : body.LinesUp) :
    ∃ later, (∀ x, x ∈ later ↔ l.draft.Added (body.layOutClause c l clause).draft x) ∧
      (body.layOutClause c l clause).draft.Ordered (order ++ clause.toList ++ later) := by
  cases clause with
  | none =>
    refine ⟨[], fun x => ?_, by simpa [Stmt.layOutClause] using h⟩
    simp only [Stmt.layOutClause, Added, List.not_mem_nil, false_iff]
    omega
  | some n =>
    have hn := hclause n rfl
    have hnode : l.draft.close.Sourced [.plain n] :=
      hs.close.withWays (List.forall_mem_singleton.2 (hlist n (by simp)).1)
    obtain ⟨later, hmem, hlater⟩ := hbody c l.draft.close [.plain n] hd.close hnode
    have ho : l.draft.close.Ordered (order ++ [n]) := by
      refine Ordered.append (d := l.draft.close) ⟨h.pairwise, h.irrefl⟩ (.singleton (hn n (by simp))) ?_
      intro x hx y hy
      rw [List.mem_singleton.1 hy]
      exact hn x (List.mem_append_left _ hx)
    exact ⟨later, hmem, ho.glue hlater hnode (body.layOut_grown c l.draft.close [.plain n]).grows hlist
      fun y hy => ((hmem y).1 hy).1⟩

end Draft

/-- What a `try` statement added since `d` is in order, but for the nodes of the clauses in `pending`, out of which
nothing new leads. These were added up to `start`, and lead to what was there before. -/
structure Layout.Row (d start : Draft) (pending order : List Nat) (l : Layout) : Prop where
  size_le : d.size ≤ start.size
  idle : ∀ n x, d.size ≤ n → start.Forward n x → x < d.size
  nodup : pending.Nodup
  added : ∀ n ∈ pending, d.Added start n
  grown : l.Grown (· < start.size) (fun w => w.source < start.size ∧ w.source ∉ pending) start
  ordered : l.draft.Ordered order
  mem : ∀ n, n ∈ order ↔ d.Added l.draft n ∧ n ∉ pending

namespace Layout.Row

variable {start : Draft} {pending order : List Nat} {clause : Option Nat}

/-- Going on inside a clause that is still to come keeps the row. -/
lemma into (h : l.Row d start pending order) (hclause : ∀ n ∈ clause, n ∈ pending) :
    (l.into clause).Row d start pending order where
  size_le := h.size_le
  idle := h.idle
  nodup := h.nodup
  added := h.added
  grown := h.grown.into fun n hn => .inl (h.added n (hclause n hn)).2
  ordered := h.ordered.into fun n hn hmem => ((h.mem n).1 hmem).2 (hclause n hn)
  mem n := by
    rw [h.mem, Draft.Added, Draft.Added, Layout.size_into]

/-- The next clause takes its place behind what is in order so far. -/
lemma layOutClause (h : l.Row d start (clause.toList ++ pending) order) (hd : start.Sound c.handler)
    (hs : start.Sourced ways) (hreach : ∀ n, c.Reaches n → n < d.size ∨ n ∈ pending) (hbody : body.LinesUp) :
    ∃ order, (body.layOutClause c l clause).Row d start pending order := by
  obtain ⟨-, hnodup, hapart⟩ := List.nodup_append'.1 h.nodup
  obtain ⟨hclause, hadded⟩ := List.forall_mem_append.1 h.added
  have hstart := h.grown.grows.size_le
  have hlist : ∀ x ∈ order ++ clause.toList, d.Added l.draft x ∧ x ∉ pending := by
    intro x hx
    rcases List.mem_append.1 hx with hx | hx
    · obtain ⟨hnew, hnot⟩ := (h.mem x).1 hx
      exact ⟨hnew, fun hp => hnot (List.mem_append_right _ hp)⟩
    · exact ⟨(hclause x hx).widen hstart, fun hp => hapart hx hp⟩
  have hapartFrom : ∀ x ∈ order ++ clause.toList, x < l.draft.size ∧ ¬ c.Reaches x := by
    intro x hx
    obtain ⟨⟨hge, hlt⟩, hnot⟩ := hlist x hx
    exact ⟨hlt, fun hr => (hreach x hr).elim (Nat.not_lt.2 hge) hnot⟩
  -- So far nothing but its edge to the handler in force leaves the node of the clause.
  have hidle : ∀ n ∈ clause, ∀ x ∈ order ++ clause.toList, ¬ l.draft.Forward n x := by
    intro n hn x hx hnx
    have hn := Option.mem_toList.2 hn
    have hold := h.grown.grows.forward_old (hclause n hn).2
      (fun w hw heq => hw.2 (heq ▸ List.mem_append_left _ hn)) hnx
    exact absurd (h.idle n x (hclause n hn).1 hold) (Nat.not_lt.2 (hlist x hx).1.1)
  obtain ⟨later, hmem, ho⟩ := h.ordered.layOutClause (hd.grow h.grown.grows)
    (hs.grow h.grown.grows (fun w hw => hw.1) h.grown.outs) hapartFrom hidle hbody
  refine ⟨order ++ clause.toList ++ later, h.size_le, h.idle, hnodup, hadded, ?_, ho, fun n => ?_⟩
  · have hgrown := h.grown.after (T := (· < start.size))
      (W := fun w => w.source < start.size ∧ w.source ∉ pending) (.refl _ _ start) (fun _ => .inl)
      fun w hw => .inl ⟨hw.1, fun hp => hw.2 (List.mem_append_right _ hp)⟩
    refine hgrown.clause (fun n hn => .inl ?_) (fun d ways => body.layOut_grown c d ways) fun t ht =>
      .inl (hd.reaches ht)
    have hn := Option.mem_toList.2 hn
    exact ⟨(hclause n hn).2, fun hp => hapart hn hp⟩
  · have hle := h.size_le
    have hsize : l.draft.size ≤ (body.layOutClause c l clause).draft.size :=
      Stmt.size_le_layOutClause l clause fun d ways => body.layOut_grown c d ways
    have hn := hclause n
    have hp := hadded n
    have hnp := hlist n
    rw [List.mem_append] at hnp
    rw [List.mem_append, List.mem_append, h.mem, hmem, List.mem_append]
    grind [Draft.Added]

end Layout.Row

/-- The body of a `try`, its catch clause and its finally clause. -/
lemma linesUp_tryCatch {catchNode finallyNode : Option Nat} {catchBody finallyBody : Stmt} (hbody : body.LinesUp)
    (hcatch : catchBody.LinesUp) (hfinally : finallyBody.LinesUp) :
    (Stmt.tryCatch node body catchNode catchBody finallyNode finallyBody).LinesUp := by
  intro c d ways hd hs
  rw [layOut_tryCatch]
  extract_lets catcher finisher b k f
  let inner : Context := { c with handler := some ((catcher.2.or finisher.2).getD exitNode) }
  let outer : Context := { c with handler := finisher.2.or c.handler }
  obtain ⟨hstart, hinner, houter⟩ : finisher.1.Sound c.handler ∧ finisher.1.Sound inner.handler ∧
    finisher.1.Sound outer.handler := hd.close.clauses catchNode finallyNode
  have hsource : finisher.1.Sourced ways := hs.close.clauses c catchNode finallyNode
  have hcatcher : ∀ n, n ∈ catcher.2.toList ↔ d.Added catcher.1 n := fun n => Draft.mem_addClause
  have hfinisher : ∀ n, n ∈ finisher.2.toList ↔ catcher.1.Added finisher.1 n := fun n => Draft.mem_addClause
  have hc : d.size ≤ catcher.1.size := Draft.size_le_addClause d.close c catchNode
  have hf : catcher.1.size ≤ finisher.1.size := Draft.size_le_addClause catcher.1 c finallyNode
  have hpending : ∀ n, n ∈ catcher.2.toList ++ finisher.2.toList ↔ d.Added finisher.1 n := by
    intro n
    rw [List.mem_append, hcatcher, hfinisher, Draft.Added, Draft.Added, Draft.Added]
    omega
  have hnodup : (catcher.2.toList ++ finisher.2.toList).Nodup := by
    refine List.nodup_append'.2 ⟨Option.toList_nodup _, Option.toList_nodup _, fun n hn hn' => ?_⟩
    exact absurd ((hcatcher n).1 hn).2 (Nat.not_lt.2 ((hfinisher n).1 hn').1)
  have hb : b.Grown inner.Reaches (· ∈ ways) finisher.1 := body.layOut_grown inner finisher.1 ways
  -- The body comes first.
  obtain ⟨order, hmem, ho⟩ : finisher.1.Orders b.draft := hbody inner finisher.1 ways hinner hsource
  have hrow : b.Row d finisher.1 (catcher.2.toList ++ finisher.2.toList) order := by
    refine ⟨Nat.le_trans hc hf, fun n x hn => hd.close.forward_clauses hs.close hn, hnodup,
      fun n => (hpending n).1, ?_, ho, fun n => ?_⟩
    · refine hb.after (.refl _ _ _) (fun t ht => .inl (hinner.reaches ht)) fun w hw => .inl ⟨hsource.ways w hw, ?_⟩
      rw [hpending]
      exact fun h => absurd (hs.ways w hw) (Nat.not_lt.2 h.1)
    · have hsize := hb.grows.size_le
      rw [hmem, hpending, Draft.Added, Draft.Added, Draft.Added]
      omega
  -- Exceptions of the catch clause go to the finally clause, which comes last.
  obtain ⟨order', hrow'⟩ : ∃ order, k.Row d finisher.1 finisher.2.toList order := by
    refine hrow.layOutClause (c := outer) houter hsource (fun n hn => ?_) hcatch
    rcases hn with hn | hn
    · exact .inl (hd.reaches (.inl hn))
    · rcases Option.or_eq_some_iff.1 hn with hn | ⟨-, hn⟩
      · exact .inr (Option.mem_toList.2 hn)
      · exact .inl (hd.handled n hn)
  have hinto : (k.into finisher.2).Row d finisher.1 (finisher.2.toList ++ []) order' := by
    rw [List.append_nil]
    exact hrow'.into fun n => Option.mem_toList.2
  obtain ⟨row, hrow''⟩ : ∃ order, f.Row d finisher.1 [] order :=
    hinto.layOutClause hstart hsource (fun n hn => .inl (hd.reaches hn)) hfinally
  exact Draft.Orders.close ⟨row, fun n => by simpa using hrow''.mem n, hrow''.ordered⟩

mutual

/-- The nodes of every statement can be put in an order that only back edges go against. -/
theorem Stmt.linesUp (s : Stmt) : s.LinesUp := by
  match s with
  | .skip => exact fun c d ways hd hs => .of_size_eq rfl
  | .seq first rest => exact linesUp_seq first.linesUp rest.linesUp
  | .plain node => exact fun c d ways hd hs => ((Draft.Lined.refl hd hs).plain node).orders
  | .ret node =>
    intro c d ways hd hs
    exact (((Draft.Lined.refl hd hs).plain node).orders.connectOut _ hd.two_le).close
  | .throw node =>
    intro c d ways hd hs
    exact (((Draft.Lined.refl hd hs).plain node).orders.connectOut _ hd.two_le).close
  | .jump node isContinue label =>
    intro c d ways hd hs
    have ho := ((Draft.Lined.refl hd hs).plain node).orders.close
    rw [Stmt.layOut]
    cases c.target? isContinue label with
    | none => exact ho
    | some depth => exact ho
  | .branch node condition onTrue onFalse => exact linesUp_branch onTrue.linesUp onFalse.linesUp
  | .whileLoop node label condition body => exact linesUp_whileLoop body.linesUp
  | .doLoop node label condition body => exact linesUp_doLoop body.linesUp
  | .forLoop node label start condition step body => exact linesUp_forLoop body.linesUp
  | .forEach node label iterated body => exact linesUp_forEach body.linesUp
  | .switch node selector clauses => exact linesUp_switch clauses.lineUp
  | .tryCatch node body catchNode catchBody finallyNode finallyBody =>
    exact linesUp_tryCatch body.linesUp catchBody.linesUp finallyBody.linesUp
  | .labelled node label body => exact linesUp_labelled body.linesUp
termination_by structural s

/-- The clauses of a switch, by induction, with every statement inside them. -/
theorem Clauses.lineUp (s : Clauses) : s.LineUp := by
  match s with
  | .nil => exact fun c branch selector d falling hd hs hb => .of_size_eq rfl
  | .onCase value body rest =>
    intro c branch selector d falling hd hs hb
    rw [Clauses.layOut]
    exact lineUp_clause rfl hd hs hb body.linesUp rest.lineUp
  | .onDefault body rest =>
    intro c branch selector d falling hd hs hb
    rw [Clauses.layOut]
    exact lineUp_clause rfl hd hs hb body.linesUp rest.lineUp
  | .gap rest =>
    intro c branch selector d falling hd hs hb
    rw [Clauses.layOut]
    exact rest.lineUp c branch selector d [] hd (hs.withWays (List.forall_mem_nil _)) hb
termination_by structural s

end

/-! Walks without back edges. -/

/-- In the graph of a statement the entry comes first and the exit last. -/
lemma exists_rank (function : Nat) (name : String) (s : Stmt) : ∃ rank : Nat → Nat,
    ∀ e ∈ (Graph.ofStmt function name s).edges.toList, e.isBack = false → rank e.source < rank e.target := by
  let l := s.layOut ⟨none, []⟩ (.start function) [.plain entryNode]
  let final := l.draft.connect l.outs exitNode false
  have hd : (Draft.start function).Sound none := ⟨Nat.le_refl 2, nofun, nofun⟩
  have hs : (Draft.start function).Sourced [.plain entryNode] :=
    ⟨Nat.le_refl 2, nofun, List.forall_mem_singleton.2 Nat.two_pos⟩
  have hno : ∀ x y, ¬ (Draft.start function).Forward x y := by
    rintro x y ⟨e, he, -⟩
    cases he
  have hl : l.Grown _ (· ∈ [.plain entryNode]) _ := s.layOut_grown ⟨none, []⟩ (.start function) [.plain entryNode]
  have hg := hl.grows.connect l.outs false (.inl (.inl rfl)) hl.outs
  have hsource : final.Sourced [] := hs.grow hg hs.ways (List.forall_mem_nil _)
  have hsound : final.Sound none := hd.grow (hd.spares (c := ⟨none, []⟩) hg)
  obtain ⟨order, hmem, ho⟩ : (Draft.start function).Orders final :=
    (s.linesUp ⟨none, []⟩ _ _ hd hs).connectOut l.outs hd.two_le
  have hexit : ∀ y, ¬ final.Forward exitNode y := fun y hy =>
    hno exitNode y (hg.forward_old Nat.one_lt_two (List.forall_mem_singleton.2 Nat.zero_ne_one) hy)
  have hall : final.Ordered ([entryNode] ++ order ++ [exitNode]) := by
    have hentry : (Draft.start function).Ordered [entryNode] := .singleton (hno _ _)
    refine (hentry.glue ho hs hg (List.forall_mem_singleton.2 ⟨Nat.two_pos, ?_⟩) fun y hy => ((hmem y).1 hy).1).append
      (.singleton (hexit _)) fun x _ y hy => ?_
    · rintro (h | h) <;> cases h
    · rw [List.mem_singleton.1 hy]
      exact hexit x
  have hlisted : ∀ n < final.size, n ∈ [entryNode] ++ order ++ [exitNode] := by
    intro n hn
    have hstart : (Draft.start function).size = 2 := rfl
    simp only [List.mem_append, List.mem_singleton, hmem, Draft.Added, entryNode, exitNode]
    omega
  exact ⟨([entryNode] ++ order ++ [exitNode]).idxOf, fun e he hback =>
    hall.idxOf_lt (hlisted _ (hsource.edges e he)) (hlisted _ (hsound.targets e he)) ⟨e, he, hback, rfl, rfl⟩⟩

/-- A walk along edges that close no loop goes nowhere, or to a later place. -/
lemma Graph.IsWalk.rank_lt {g : Graph} {rank : Nat → Nat}
    (hrank : ∀ e ∈ g.edges.toList, e.isBack = false → rank e.source < rank e.target) {u v : Nat} {path : List Edge}
    (h : g.IsWalk u path v) (hpath : ∀ e ∈ path, e.isBack = false) : path = [] ∨ rank u < rank v := by
  induction path generalizing u with
  | nil => exact .inl rfl
  | cons e path ih =>
    obtain ⟨he, rfl, h⟩ := h
    obtain ⟨hback, hpath⟩ := List.forall_mem_cons.1 hpath
    have hlt := hrank e he hback
    rcases ih h hpath with rfl | hle
    · cases h
      exact .inr hlt
    · exact .inr (Nat.lt_trans hlt hle)

/-- Without its back edges the graph of a statement has no cycle. -/
theorem acyclic_ofStmt {function : Nat} {name : String} {s : Stmt} {n : Nat} {path : List Edge}
    (h : (Graph.ofStmt function name s).IsWalk n path n) (hpath : ∀ e ∈ path, e.isBack = false) : path = [] := by
  obtain ⟨rank, hrank⟩ := exists_rank function name s
  exact (h.rank_lt hrank hpath).resolve_right (Nat.lt_irrefl _)

end Mend.Flow
