import Mend.Proofs.Flow.Draft

/-!
# Graphs only grow

Laying out a statement adds nodes and edges to a draft and extends at most the block that was open.
`Grows T W d d'` says what was added on the way from `d` to `d'`: an edge leaves a new node, or a node
that a way in `W` led out of; it enters a new node, or a node in `T`. Growth composes (`Grows.trans`), so
that the primitives of the builder are enough to follow a whole statement (`Stmt.layOut_grown`): from
outside only the ways into a statement lead into its nodes, and to the outside lead only its ways out, its
jumps, and edges to the exit and to the handler in force.
-/

namespace Mend.Flow

/-- What can be said of an edge that was added when the nodes from `lo` up to `hi` were: it leaves one of
them or stands for a way in `W`, and it enters one of them or a node in `T`. A way from which something is
thrown to the exit loses its kind. -/
structure Edge.Joins (T : Nat → Prop) (W : Way → Prop) (lo hi : Nat) (e : Edge) : Prop where
  source : (lo ≤ e.source ∧ e.source < hi) ∨
    ∃ w, W w ∧ w.source = e.source ∧ (w.kind = e.kind ∨ e.target = exitNode)
  target : (lo ≤ e.target ∧ e.target < hi) ∨ T e.target

/-- An edge joins fewer nodes if it joins some of them. -/
lemma Edge.Joins.mono {T T' : Nat → Prop} {W W' : Way → Prop} {lo lo' hi hi' : Nat} {e : Edge}
    (h : e.Joins T W lo hi) (hlo : lo' ≤ lo) (hhi : hi ≤ hi')
    (hT : ∀ t, T t → T' t ∨ (lo' ≤ t ∧ t < hi'))
    (hW : ∀ w, W w → W' w ∨ (lo' ≤ w.source ∧ w.source < hi')) : e.Joins T' W' lo' hi' where
  source := by
    rcases h.source with hs | ⟨w, hw, he, hk⟩
    · exact .inl ⟨by omega, by omega⟩
    · rcases hW w hw with hw | hw
      · exact .inr ⟨w, hw, he, hk⟩
      · exact .inl (he ▸ hw)
  target := by
    rcases h.target with ht | ht
    · exact .inl ⟨by omega, by omega⟩
    · exact (hT _ ht).symm

/-- What was added is still there later. -/
lemma Draft.Added.widen {d d' d'' : Draft} {n : Nat} (h : d.Added d' n) (hle : d'.size ≤ d''.size) :
    d.Added d'' n :=
  ⟨h.1, Nat.lt_of_lt_of_le h.2 hle⟩

/-- On the way from `d` to `d'` nodes and edges were added, and at most the open block was extended. -/
structure Draft.Grows (T : Nat → Prop) (W : Way → Prop) (d d' : Draft) : Prop where
  size_le : d.size ≤ d'.size
  kept : ∀ n < d.size, ∃ more, d'.nodes[n]? = (d.nodes[n]?).map (·.extend more) ∧
    (d.current ≠ some n → more = [])
  current : ∀ n, d'.current = some n → d.current = some n ∨ d.Added d' n
  edges : ∃ new, d'.edges.toList = d.edges.toList ++ new ∧ ∀ e ∈ new, e.Joins T W d.size d'.size

namespace Draft.Grows

variable {T T' : Nat → Prop} {W W' : Way → Prop} {d d' d'' : Draft}

/-- A draft grows into itself. -/
lemma refl (T : Nat → Prop) (W : Way → Prop) (d : Draft) : d.Grows T W d where
  size_le := Nat.le_refl _
  kept n _ := ⟨[], by simp, fun _ => rfl⟩
  current n h := .inl h
  edges := ⟨[], by simp, by simp⟩

/-- Closing a block adds nothing. -/
lemma close (h : d.Grows T W d') : d.Grows T W d'.close where
  size_le := h.size_le
  kept := h.kept
  current n hn := by cases hn
  edges := h.edges

/-- Growth composes: what the second part joins to must be old to the whole, or new in the first. -/
lemma trans (h : d.Grows T W d') (h' : d'.Grows T' W' d'')
    (hT : ∀ t, T' t → T t ∨ d.Added d'' t) (hW : ∀ w, W' w → W w ∨ d.Added d' w.source) :
    d.Grows T W d'' where
  size_le := Nat.le_trans h.size_le h'.size_le
  kept n hn := by
    obtain ⟨more, hm, hopen⟩ := h.kept n hn
    obtain ⟨more', hm', hopen'⟩ := h'.kept n (Nat.lt_of_lt_of_le hn h.size_le)
    refine ⟨more ++ more', ?_, fun hc => ?_⟩
    · rw [hm', hm, Option.map_map]
      congr 1
      funext x
      exact x.extend_extend more more'
    · -- The block that is open in between is the one that was open before, or it is new.
      have hc' : d'.current ≠ some n := by
        intro heq
        rcases h.current n heq with hold | hnew
        · exact hc hold
        · exact absurd hn (Nat.not_lt.2 hnew.1)
      rw [hopen hc, hopen' hc', List.append_nil]
  current n hn := by
    have hle := h.size_le
    have hle' := h'.size_le
    rcases h'.current n hn with hold | hnew
    · rcases h.current n hold with hold | hnew
      · exact .inl hold
      · exact .inr ⟨hnew.1, Nat.lt_of_lt_of_le hnew.2 hle'⟩
    · exact .inr ⟨Nat.le_trans hle hnew.1, hnew.2⟩
  edges := by
    obtain ⟨new, he, hnew⟩ := h.edges
    obtain ⟨new', he', hnew'⟩ := h'.edges
    refine ⟨new ++ new', by rw [he', he, List.append_assoc], fun e hmem => ?_⟩
    rcases List.mem_append.1 hmem with hmem | hmem
    · exact (hnew e hmem).mono (Nat.le_refl _) h'.size_le (fun t => .inl) (fun w => .inl)
    · refine (hnew' e hmem).mono h.size_le (Nat.le_refl _) hT fun w hw => ?_
      exact (hW w hw).imp_right fun h => ⟨h.1, Nat.lt_of_lt_of_le h.2 h'.size_le⟩

/-- An edge may lead to more targets, and from more ways. -/
lemma mono (h : d.Grows T W d') (hT : ∀ t, T t → T' t ∨ d.Added d' t) (hW : ∀ w, W w → W' w) :
    d.Grows T' W' d' :=
  (refl T' W' d).trans h hT fun w hw => .inl (hW w hw)

variable {c : Context} {n : Nat} {ways : List Way}

/-- Ways are connected to what is there. -/
lemma connect (h : d.Grows T W d') (ways : List Way) (b : Bool) (hn : T n ∨ d.Added d' n)
    (hW : ∀ w ∈ ways, W w ∨ d.Added d' w.source) : d.Grows T W (d'.connect ways n b) where
  size_le := h.size_le
  kept := h.kept
  current := h.current
  edges := by
    obtain ⟨new, he, hnew⟩ := h.edges
    refine ⟨new ++ ways.map (·.toEdge n b), by simp [he], fun e hmem => ?_⟩
    rcases List.mem_append.1 hmem with hmem | hmem
    · exact hnew e hmem
    · obtain ⟨w, hw, rfl⟩ := List.mem_map.1 hmem
      refine ⟨?_, hn.symm⟩
      rcases hW w hw with hw | hw
      · exact .inr ⟨w, hw, rfl, .inl rfl⟩
      · exact .inl hw

/-- What is thrown to the exit may be of another kind than the way it takes. -/
lemma exit (h : d.Grows T W d') (ways : List Way) (hT : T exitNode)
    (hW : ∀ w ∈ ways, (∃ v, W v ∧ v.source = w.source) ∨ d.Added d' w.source) :
    d.Grows T W (d'.connect ways exitNode false) where
  size_le := h.size_le
  kept := h.kept
  current := h.current
  edges := by
    obtain ⟨new, he, hnew⟩ := h.edges
    refine ⟨new ++ ways.map (·.toEdge exitNode false), by simp [he], fun e hmem => ?_⟩
    rcases List.mem_append.1 hmem with hmem | hmem
    · exact hnew e hmem
    · obtain ⟨w, hw, rfl⟩ := List.mem_map.1 hmem
      refine ⟨?_, .inr hT⟩
      rcases hW w hw with ⟨v, hv, hs⟩ | hw
      · exact .inr ⟨v, hv, hs, .inr rfl⟩
      · exact .inl hw

/-- A node is added under a handler that is there. -/
lemma addNode (h : d.Grows T W d') (kind : NodeKind) (ast : Nat)
    (hT : ∀ x, c.handler = some x → T x ∨ d.Added d' x) : d.Grows T W (d'.addNode c kind ast).1 := by
  have hsize : (d'.addNode c kind ast).1.size = d'.size + 1 := size_addNode ..
  have hle := h.size_le
  refine ⟨by omega, fun m hm => ?_, fun m hm => ?_, ?_⟩
  · obtain ⟨more, hk, hopen⟩ := h.kept m hm
    refine ⟨more, ?_, hopen⟩
    rw [nodes_addNode, Array.getElem?_push_lt (Nat.lt_of_lt_of_le hm hle), ← hk]
    exact (Array.getElem?_eq_getElem _).symm
  · rw [current_addNode] at hm
    exact (h.current m hm).imp_right fun h => ⟨h.1, by have := h.2; omega⟩
  · obtain ⟨new, he, hnew⟩ := h.edges
    refine ⟨new ++ handlerEdges c d'.size, by simp [he], fun e hmem => ?_⟩
    rcases List.mem_append.1 hmem with hmem | hmem
    · exact (hnew e hmem).mono (Nat.le_refl _) (by omega) (fun _ => .inl) (fun _ => .inl)
    · obtain ⟨x, hx, rfl⟩ := List.mem_map.1 hmem
      refine ⟨.inl ⟨hle, by simp⟩, ?_⟩
      rcases hT x (Option.mem_toList.1 hx) with ht | ht
      · exact .inr ht
      · exact .inl ⟨ht.1, by have := ht.2; simp only [hsize]; omega⟩

/-- A target is added under a handler that is there. -/
lemma addTarget (h : d.Grows T W d') (kind : NodeKind) (ast : Nat)
    (hT : ∀ x, c.handler = some x → T x ∨ d.Added d' x)
    (hW : ∀ w ∈ ways, W w ∨ d.Added d' w.source) : d.Grows T W (d'.addTarget c kind ast ways).1 := by
  have hsize : (d'.close.addNode c kind ast).1.size = d'.size + 1 := by simp
  have hle := h.size_le
  rw [addTarget_fst]
  refine (h.close.addNode kind ast hT).connect ways false (.inr ⟨hle, by omega⟩) fun w hw => ?_
  exact (hW w hw).imp_right fun h => ⟨h.1, by have := h.2; omega⟩

/-- A statement is added to the open block or to a new one. -/
lemma append (h : d.Grows T W d') (ast : Nat) (hn : d'.current = some n ∨ d.size ≤ n) :
    d.Grows T W (d'.append n ast) where
  size_le := by
    rw [size_append]
    exact h.size_le
  kept m hm := by
    obtain ⟨more, hk, hopen⟩ := h.kept m hm
    rw [getElem?_append]
    split
    · next heq =>
      refine ⟨more ++ [ast], by rw [hk, Option.map_map]; congr 1; funext x; exact x.extend_extend _ _,
        fun hc => ?_⟩
      -- An old block takes the statement only if it was open from the start.
      rcases hn with hn | hn
      · rcases h.current n hn with hold | hnew
        · exact absurd (heq ▸ hold) hc
        · exact absurd hm (Nat.not_lt.2 (heq ▸ hnew.1))
      · exact absurd hm (Nat.not_lt.2 (heq ▸ hn))
    · exact ⟨more, hk, hopen⟩
  current m hm := by
    rw [current_append] at hm
    have := h.current m hm
    rwa [Added, size_append]
  edges := by
    rw [edges_append, size_append]
    exact h.edges

/-- The statement goes to the open block, or to a new one. -/
lemma plain (h : d.Grows T W d') (ast : Nat) (hT : ∀ x, c.handler = some x → T x ∨ d.Added d' x)
    (hW : ∀ w ∈ ways, W w ∨ d.Added d' w.source) :
    d.Grows T W (d'.plain c ast ways).1 ∧
      ∀ w ∈ (d'.plain c ast ways).2, W w ∨ d.Added (d'.plain c ast ways).1 w.source := by
  have hle := h.size_le
  cases ho : d'.openBlock? ways with
  | some block =>
    rw [plain_of_openBlock?_eq_some _ _ _ _ ho]
    refine ⟨h.append ast (.inl (openBlock?_eq_some _ _ ho).1), fun w hw => ?_⟩
    rw [Added, size_append]
    exact hW w hw
  | none =>
    rw [plain_of_openBlock?_eq_none _ _ _ _ ho]
    have hblock := (h.addNode .block ast hT).append ast (n := d'.size) (.inr hle)
    have hall := hblock.connect ways false (n := d'.size) (.inr ⟨hle, by simp⟩) fun w hw =>
      (hW w hw).imp_right fun h => ⟨h.1, by have := h.2; simp; omega⟩
    refine ⟨⟨hall.size_le, hall.kept, fun m hm => ?_, hall.edges⟩, fun w hw => ?_⟩
    · cases hm
      exact .inr ⟨hle, by simp⟩
    · rw [List.mem_singleton.1 hw]
      exact .inr ⟨hle, by simp [Way.plain]⟩

/-- A plain statement that may be missing is added, and its ways out are those given or new. -/
lemma plain? (h : d.Grows T W d') (part : Option Nat)
    (hT : ∀ x, c.handler = some x → T x ∨ d.Added d' x)
    (hW : ∀ w ∈ ways, W w ∨ d.Added d' w.source) :
    d.Grows T W (d'.plain? c part ways).1 ∧
      ∀ w ∈ (d'.plain? c part ways).2, W w ∨ d.Added (d'.plain? c part ways).1 w.source := by
  cases part with
  | none => exact ⟨h, hW⟩
  | some ast => exact h.plain ast hT hW

/-- The node of a clause is added. -/
lemma addClause (h : d.Grows T W d') (part : Option Nat)
    (hT : ∀ x, c.handler = some x → T x ∨ d.Added d' x) :
    d.Grows T W (d'.addClause c part).1 ∧
      ∀ n, (d'.addClause c part).2 = some n → d.Added (d'.addClause c part).1 n := by
  have hle := h.size_le
  cases part with
  | none => exact ⟨h, nofun⟩
  | some ast =>
    refine ⟨h.addNode _ _ hT, fun n hn => ?_⟩
    cases hn
    exact ⟨hle, by simp [Draft.addClause]⟩

end Draft.Grows

/-- No node goes away. -/
lemma Draft.size_le_plain? (d : Draft) (c : Context) (part : Option Nat) (ways : List Way) :
    d.size ≤ (d.plain? c part ways).1.size :=
  ((Grows.refl (fun _ => True) (fun _ => True) d).plain? part (fun _ _ => .inl trivial)
    fun _ _ => .inl trivial).1.size_le

/-- Nor does one when a clause is added. -/
lemma Draft.size_le_addClause (d : Draft) (c : Context) (part : Option Nat) :
    d.size ≤ (d.addClause c part).1.size :=
  ((Grows.refl (fun _ => True) (fun _ => True) d).addClause part fun _ _ => .inl trivial).1.size_le

/-- The old nodes that a statement may lead to. -/
def Context.Reaches (c : Context) (n : Nat) : Prop := n = exitNode ∨ c.handler = some n

/-- A layout that grew from `d`; its ways out and its jumps leave new nodes or are ways in `W`. -/
structure Layout.Grown (T : Nat → Prop) (W : Way → Prop) (d : Draft) (l : Layout) : Prop where
  grows : d.Grows T W l.draft
  outs : ∀ w ∈ l.outs, W w ∨ d.Added l.draft w.source
  jumps : ∀ j ∈ l.jumps, W j.way ∨ d.Added l.draft j.way.source

/-- What the layout of a statement adds is joined to the rest as `Layout.Grown` says. -/
def Stmt.Grows (c : Context) (s : Stmt) : Prop :=
  ∀ (d : Draft) (ways : List Way), (s.layOut c d ways).Grown c.Reaches (· ∈ ways) d

/-- The same of clauses, entered from `branch`, too. -/
def Clauses.Grow (c : Context) (selector : Option Nat) (s : Clauses) : Prop :=
  ∀ (d : Draft) (branch : Nat) (falling : List Way),
    (s.layOut c branch selector d falling).Grown c.Reaches (fun w => w ∈ falling ∨ w.source = branch) d

namespace Layout.Grown

variable {T T' : Nat → Prop} {W W' : Way → Prop} {d d' : Draft} {l k : Layout} {depth : Nat}

/-- What grew behind a draft that grew has grown from its beginning. -/
lemma after (hl : l.Grown T' W' d') (h : d.Grows T W d') (hT : ∀ t, T' t → T t ∨ d.Added d' t)
    (hW : ∀ w, W' w → W w ∨ d.Added d' w.source) : l.Grown T W d := by
  have hle := h.size_le
  have hle' := hl.grows.size_le
  have key : ∀ w, W' w ∨ d'.Added l.draft w.source → W w ∨ d.Added l.draft w.source := by
    rintro w (hw | hw)
    · exact (hW w hw).imp_right fun h => h.widen hle'
    · exact .inr ⟨Nat.le_trans hle hw.1, hw.2⟩
  exact ⟨h.trans hl.grows (fun t ht => (hT t ht).imp_right fun h => h.widen hle') hW,
    fun w hw => key w (hl.outs w hw), fun j hj => key j.way (hl.jumps j hj)⟩

/-- The breaks of a layout come from its ways and nodes. -/
lemma breaks (h : l.Grown T W d) (depth : Nat) :
    ∀ w ∈ l.breaks depth, W w ∨ d.Added l.draft w.source := by
  intro w hw
  obtain ⟨j, hj, -, -, rfl⟩ := Layout.mem_breaks.1 hw
  exact h.jumps j hj

/-- So do its continues. -/
lemma continues (h : l.Grown T W d) (depth : Nat) :
    ∀ w ∈ l.continues depth, W w ∨ d.Added l.draft w.source := by
  intro w hw
  obtain ⟨j, hj, -, -, rfl⟩ := Layout.mem_continues.1 hw
  exact h.jumps j hj

/-- So do the jumps that pass it. -/
lemma passing (h : l.Grown T W d) (depth : Nat) :
    ∀ j ∈ l.passing depth, W j.way ∨ d.Added l.draft j.way.source :=
  fun j hj => h.jumps j (Layout.mem_passing.1 hj).1

/-- The jumps of two layouts, one made after the other. -/
lemma jumps_append (hl : l.Grown T W d) (hk : k.Grown T W d) (hle : l.draft.size ≤ k.draft.size) :
    ∀ j ∈ l.jumps ++ k.jumps, W j.way ∨ d.Added k.draft j.way.source := by
  intro j hj
  rcases List.mem_append.1 hj with hj | hj
  · exact (hl.jumps j hj).imp_right fun h => h.widen hle
  · exact hk.jumps j hj

/-- So do the ways out of two layouts together. -/
lemma outs_append (hl : l.Grown T W d) (hk : k.Grown T W d) (hle : l.draft.size ≤ k.draft.size) :
    ∀ w ∈ l.outs ++ k.outs, W w ∨ d.Added k.draft w.source := by
  intro w hw
  rcases List.mem_append.1 hw with hw | hw
  · exact (hl.outs w hw).imp_right fun h => h.widen hle
  · exact hk.outs w hw

end Layout.Grown

section

variable {T : Nat → Prop} {W : Way → Prop} {d d' : Draft}

/-- The way out of a node that was added. -/
lemma new_of_mem_singleton {n : Nat} {x : Way} (hx : x.source = n) (hn : d.Added d' n) :
    ∀ w, w ∈ [x] → W w ∨ d.Added d' w.source := by
  intro w hw
  rw [List.mem_singleton.1 hw, hx]
  exact .inr hn

/-- A new way before ways that are old or new. -/
lemma new_of_mem_cons {n : Nat} {x : Way} {l : List Way} (hx : x.source = n) (hn : d.Added d' n)
    (hl : ∀ w ∈ l, W w ∨ d.Added d' w.source) : ∀ w ∈ x :: l, W w ∨ d.Added d' w.source := by
  intro w hw
  rcases List.mem_cons.1 hw with rfl | hw
  · exact .inr (hx ▸ hn)
  · exact hl w hw

/-- What the handler in force reaches is reached by the context. -/
lemma handled_of (c : Context) : ∀ x, c.handler = some x → c.Reaches x ∨ d.Added d' x :=
  fun _ h => .inl (.inr h)

end

namespace Layout.Grown

variable {T : Nat → Prop} {W : Way → Prop} {c : Context} {d : Draft} {l : Layout} {head depth node : Nat}
  {condition : Option Nat} {body : Stmt}

/-- What is laid out next takes the ways out. -/
lemma andThen {T' : Nat → Prop} {W' : Way → Prop} {r : Layout} (hl : l.Grown T W d) (hr : r.Grown T' W' l.draft)
    (hT : ∀ t, T' t → T t ∨ d.Added l.draft t) (hW : ∀ w, W' w → W w ∨ d.Added l.draft w.source) :
    Layout.Grown T W d ⟨r.draft, r.outs, l.jumps ++ r.jumps⟩ := by
  have hr' := hr.after hl.grows hT hW
  exact ⟨hr'.grows, hr'.outs, hl.jumps_append hr' hr.grows.size_le⟩

/-- What is laid out behind a way of its own. -/
lemma orElse {s : Stmt} {w : Way} (hl : l.Grown T W d) (hs : s.Grows c)
    (hT : ∀ t, c.Reaches t → T t ∨ d.Added l.draft t) (hw : W w ∨ d.Added l.draft w.source) :
    let k := s.layOut c l.draft.close [w]
    Layout.Grown T W d ⟨k.draft, l.outs ++ k.outs, l.jumps ++ k.jumps⟩ := by
  intro k
  have hk : k.Grown c.Reaches (· ∈ [w]) l.draft.close := hs l.draft.close [w]
  have hk' := hk.after hl.grows.close hT fun v hv => by
    rw [List.mem_singleton.1 hv]
    exact hw
  exact ⟨hk'.grows, hl.outs_append hk' hk.grows.size_le, hl.jumps_append hk' hk.grows.size_le⟩

/-- Closing the open block of a layout adds nothing. -/
lemma close (hl : l.Grown T W d) : Layout.Grown T W d ⟨l.draft.close, l.outs, l.jumps⟩ :=
  ⟨hl.grows.close, hl.outs, hl.jumps⟩

/-- The end of a loop whose body goes back to the node in front of it. -/
lemma loop {out : Way} (hl : l.Grown T W d) (hhead : T head ∨ d.Added l.draft head)
    (hout : W out ∨ d.Added l.draft out.source) :
    Layout.Grown T W d
      ⟨((l.draft.connect l.outs head true).connect (l.continues depth) head true).close,
        out :: l.breaks depth, l.passing depth⟩ where
  grows := ((hl.grows.connect _ true hhead hl.outs).connect _ true hhead (hl.continues depth)).close
  outs := List.forall_mem_cons.2 ⟨hout, hl.breaks depth⟩
  jumps := hl.passing depth

/-- The end of a loop with its test behind the body. -/
lemma test (hl : l.Grown T W d) (hT : ∀ x, c.handler = some x → T x ∨ d.Added l.draft x)
    (hhead : T head ∨ d.Added l.draft head) :
    Layout.Grown T W d
      ⟨(((l.draft.addTarget c .branch (condition.getD node) l.outs).1.connect
          (l.continues depth) l.draft.size false).connect
          [.guarded l.draft.size .onTrue condition] head true).close,
        .guarded l.draft.size .onFalse condition :: l.breaks depth, l.passing depth⟩ := by
  have htest := hl.grows.addTarget .branch (condition.getD node) hT hl.outs
  have hsize : (l.draft.addTarget c .branch (condition.getD node) l.outs).1.size =
    l.draft.size + 1 := by simp
  have hle : l.draft.size ≤ (l.draft.addTarget c .branch (condition.getD node) l.outs).1.size := by
    omega
  have hnew : d.Added (l.draft.addTarget c .branch (condition.getD node) l.outs).1 l.draft.size :=
    ⟨hl.grows.size_le, by omega⟩
  have hcontinues := htest.connect (l.continues depth) false (.inr hnew) fun w hw =>
    (hl.continues depth w hw).imp_right fun h => h.widen hle
  have hback := hcontinues.connect [.guarded l.draft.size .onTrue condition] true
    (hhead.imp_right fun h => h.widen hle) (new_of_mem_singleton rfl hnew)
  refine ⟨hback.close, ?_, ?_⟩
  · exact new_of_mem_cons rfl hnew fun w hw => (hl.breaks depth w hw).imp_right fun h => h.widen hle
  · exact fun j hj => (hl.passing depth j hj).imp_right fun h => h.widen hle

/-- The end of a loop with a step behind the body. -/
lemma step {part : Option Nat} {outs : List Way} (hl : l.Grown T W d)
    (hT : ∀ x, c.handler = some x → T x ∨ d.Added l.draft x) (hhead : T head ∨ d.Added l.draft head)
    (houts : ∀ w ∈ outs, W w ∨ d.Added l.draft w.source) :
    let q := l.draft.close.plain? c part (l.outs ++ l.continues depth)
    Layout.Grown T W d
      ⟨(q.1.connect q.2 head true).close, outs ++ l.breaks depth, l.passing depth⟩ := by
  intro q
  have hlatch : ∀ w ∈ l.outs ++ l.continues depth, W w ∨ d.Added l.draft w.source :=
    List.forall_mem_append.2 ⟨hl.outs, hl.continues depth⟩
  obtain ⟨hq, hqo⟩ := hl.grows.close.plain? part hT hlatch
  have hle : l.draft.size ≤ q.1.size := Draft.size_le_plain? l.draft.close c part _
  refine ⟨(hq.connect _ true (hhead.imp_right fun h => h.widen hle) hqo).close, ?_, ?_⟩
  · refine List.forall_mem_append.2 ⟨fun w hw => ?_, fun w hw => ?_⟩
    · exact (houts w hw).imp_right fun h => h.widen hle
    · exact (hl.breaks depth w hw).imp_right fun h => h.widen hle
  · exact fun j hj => (hl.passing depth j hj).imp_right fun h => h.widen hle

/-- The end of a construct that only picks up breaks. -/
lemma leave (hl : l.Grown T W d) (depth : Nat) (outs : List Way)
    (houts : ∀ w ∈ outs, W w ∨ d.Added l.draft w.source) :
    Layout.Grown T W d ⟨l.draft.close, l.outs ++ outs ++ l.breaks depth, l.passing depth⟩ where
  grows := hl.grows.close
  outs := List.forall_mem_append.2 ⟨List.forall_mem_append.2 ⟨hl.outs, houts⟩, hl.breaks depth⟩
  jumps := hl.passing depth

/-- Going on inside a clause adds nothing. -/
lemma into {clause : Option Nat} (hl : l.Grown T W d)
    (hn : ∀ n, clause = some n → T n ∨ d.Added l.draft n) :
    (l.into clause).Grown T W d := by
  cases clause with
  | none => exact hl
  | some n => exact ⟨hl.grows.connect _ false (hn n rfl) hl.outs, nofun, hl.jumps⟩

/-- The body of a clause, behind what was laid out before it. -/
lemma clause {clause : Option Nat} (hl : l.Grown T W d)
    (hn : ∀ n, clause = some n → W (.plain n) ∨ d.Added l.draft n)
    (hbody : body.Grows c) (hT : ∀ t, c.Reaches t → T t ∨ d.Added l.draft t) :
    (body.layOutClause c l clause).Grown T W d := by
  cases clause with
  | none => exact hl
  | some n => exact hl.orElse hbody hT (hn n rfl)

end Layout.Grown

/-- Laying out a clause takes no node away. -/
lemma Stmt.size_le_layOutClause {c : Context} {body : Stmt} (l : Layout) (clause : Option Nat)
    (hbody : body.Grows c) : l.draft.size ≤ (body.layOutClause c l clause).draft.size := by
  cases clause with
  | none => exact Nat.le_refl _
  | some n => exact (hbody l.draft.close [.plain n]).grows.size_le

section

variable {c : Context} {d : Draft} {ways : List Way} {node : Nat} {label : Option String}
  {condition : Option Nat} {body : Stmt}

/-- An `if` statement. -/
lemma grown_branch {onTrue onFalse : Stmt} (hTrue : onTrue.Grows c) (hFalse : onFalse.Grows c) :
    ((Stmt.branch node condition onTrue onFalse).layOut c d ways).Grown c.Reaches (· ∈ ways) d := by
  have hrefl := Draft.Grows.refl c.Reaches (· ∈ ways) d
  have hb := hrefl.addTarget .branch node (handled_of c) fun w => .inl
  have hhead : d.Added (d.addTarget c .branch node ways).1 d.size := ⟨Nat.le_refl _, by simp⟩
  have ht := hTrue (d.addTarget c .branch node ways).1 [.guarded d.size .onTrue condition]
  have ht' := ht.after hb (fun t => .inl) (new_of_mem_singleton rfl hhead)
  rw [layOut_branch]
  exact (ht'.orElse hFalse (fun t => .inl) (.inr (hhead.widen ht.grows.size_le))).close

/-- A `do` loop. -/
lemma grown_doLoop (hbody : body.Grows (c.enter ⟨label, true, true⟩)) :
    ((Stmt.doLoop node label condition body).layOut c d ways).Grown c.Reaches (· ∈ ways) d := by
  have hrefl := Draft.Grows.refl c.Reaches (· ∈ ways) d
  have hb := hrefl.addTarget .loopHead node (handled_of c) fun w => .inl
  have hhead : d.Added (d.addTarget c .loopHead node ways).1 d.size := ⟨Nat.le_refl _, by simp⟩
  have hl := hbody (d.addTarget c .loopHead node ways).1 [.plain d.size]
  have hl' := hl.after hb (fun t => .inl) (new_of_mem_singleton rfl hhead)
  rw [layOut_doLoop]
  exact hl'.test (handled_of c) (.inr (hhead.widen hl.grows.size_le))

/-- A `for` loop with three parts. -/
lemma grown_forLoop {start step : Option Nat} (hbody : body.Grows (c.enter ⟨label, true, true⟩)) :
    ((Stmt.forLoop node label start condition step body).layOut c d ways).Grown c.Reaches (· ∈ ways) d := by
  have hrefl := Draft.Grows.refl c.Reaches (· ∈ ways) d
  rw [layOut_forLoop]
  extract_lets p head l q
  obtain ⟨hp, hpo⟩ := hrefl.plain? start (handled_of c) fun w => .inl
  have hb := hp.addTarget (if condition.isSome then .branch else .loopHead) node (handled_of c) hpo
  have hhead : d.Added (p.1.addTarget c (if condition.isSome then .branch else .loopHead) node
    p.2).1 head := ⟨hp.size_le, by simp [head]⟩
  have hl := hbody
    (p.1.addTarget c (if condition.isSome then .branch else .loopHead) node p.2).1
    [if condition.isSome then .guarded head .onTrue condition else .plain head]
  have hl' := hl.after hb (fun t => .inl) (new_of_mem_singleton (by split <;> rfl) hhead)
  have hhead' := hhead.widen hl.grows.size_le
  refine hl'.step (handled_of c) (.inr hhead') fun w hw => ?_
  split at hw
  · exact new_of_mem_singleton rfl hhead' w hw
  · cases hw

/-- A `switch`. -/
lemma grown_switch {selector : Option Nat} {clauses : Clauses}
    (hclauses : clauses.Grow (c.enter ⟨none, false, true⟩) selector) :
    ((Stmt.switch node selector clauses).layOut c d ways).Grown c.Reaches (· ∈ ways) d := by
  have hrefl := Draft.Grows.refl c.Reaches (· ∈ ways) d
  have hb := hrefl.addTarget .branch node (handled_of c) fun w => .inl
  have hhead : d.Added (d.addTarget c .branch node ways).1 d.size := ⟨Nat.le_refl _, by simp⟩
  have hl := hclauses (d.addTarget c .branch node ways).1 d.size []
  have hl' := hl.after hb (fun t => .inl) fun w hw => .inr (hw.resolve_left (by simp) ▸ hhead)
  rw [layOut_switch]
  refine hl'.leave _ _ fun w hw => ?_
  split at hw
  · cases hw
  · exact new_of_mem_singleton rfl (hhead.widen hl.grows.size_le) w hw

/-- A `try` with its clauses. -/
lemma grown_tryCatch {catchNode finallyNode : Option Nat} {catchBody finallyBody : Stmt}
    (hbody : ∀ handler, body.Grows { c with handler }) (hcatch : ∀ handler, catchBody.Grows { c with handler })
    (hfinally : finallyBody.Grows c) :
    ((Stmt.tryCatch node body catchNode catchBody finallyNode finallyBody).layOut c d ways).Grown c.Reaches
      (· ∈ ways) d := by
  have hrefl := Draft.Grows.refl c.Reaches (· ∈ ways) d
  rw [layOut_tryCatch]
  extract_lets catcher finisher b k f
  obtain ⟨hc, hcatcher⟩ := hrefl.close.addClause catchNode (handled_of c)
  obtain ⟨hf, hfinisher⟩ := hc.addClause finallyNode (handled_of c)
  have hcatcher := fun n hn => (hcatcher n hn).widen (Draft.size_le_addClause catcher.1 c finallyNode)
  -- Inside the body exceptions go to one of the new nodes, or to the exit if there is none.
  have hb := hbody (some ((catcher.2.or finisher.2).getD exitNode)) finisher.1 ways
  have hb' := hb.after hf (fun t ht => by
    rcases ht with ht | ht
    · exact .inl (.inl ht)
    · rw [Option.some.injEq] at ht
      cases hx : catcher.2.or finisher.2 with
      | none => exact .inl (.inl (by rw [← ht, hx]; rfl))
      | some n =>
        rw [hx, Option.getD_some] at ht
        rcases Option.or_eq_some_iff.1 hx with hn | ⟨-, hn⟩
        · exact .inr (ht ▸ hcatcher n hn)
        · exact .inr (ht ▸ hfinisher n hn)) fun w => .inl
  have hfinisher := fun n hn => (hfinisher n hn).widen hb.grows.size_le
  have hk : k.Grown c.Reaches (· ∈ ways) d :=
    hb'.clause (fun n hn => .inr ((hcatcher n hn).widen hb.grows.size_le)) (hcatch _) fun t ht => by
      rcases ht with ht | ht
      · exact .inl (.inl ht)
      · rcases Option.or_eq_some_iff.1 ht with hn | ⟨-, hn⟩
        · exact .inr (hfinisher t hn)
        · exact .inl (.inr hn)
  have hkle : b.draft.size ≤ k.draft.size := Stmt.size_le_layOutClause b catcher.2 (hcatch _)
  have hfinisher := fun n hn => (hfinisher n hn).widen hkle
  have hi := hk.into fun n hn => .inr (hfinisher n hn)
  refine (hi.clause (fun n hn => .inr ?_) hfinally fun t => .inl).close
  exact (hfinisher n hn).widen (Nat.le_of_eq (Layout.size_into _ _).symm)

/-- The body of a clause of a `switch` statement and the clauses after it. -/
lemma Layout.Grown.follow {branch : Nat} {entry : Way} {falling : List Way} {l r : Layout}
    (hentry : entry.source = branch) (hl : l.Grown c.Reaches (· ∈ falling ++ [entry]) d.close)
    (hr : r.Grown c.Reaches (fun w => w ∈ l.outs ∨ w.source = branch) l.draft) :
    Layout.Grown c.Reaches (fun w => w ∈ falling ∨ w.source = branch) d
      ⟨r.draft, r.outs, l.jumps ++ r.jumps⟩ := by
  have hl' := hl.after (Draft.Grows.refl c.Reaches (fun w => w ∈ falling ∨ w.source = branch) d).close
    (fun t => .inl) fun w hw => by
      rcases List.mem_append.1 hw with hw | hw
      · exact .inl (.inl hw)
      · exact .inl (.inr (by rw [List.mem_singleton.1 hw, hentry]))
  exact hl'.andThen hr (fun t => .inl) fun w hw => hw.elim (hl'.outs w) fun hw => .inl (.inr hw)

end

mutual

/-- What a statement adds to a graph is joined to the rest by its ways in, its ways out and jumps, and
edges to the exit and the handler only. -/
theorem Stmt.layOut_grown (c : Context) (d : Draft) (ways : List Way) (s : Stmt) :
    (s.layOut c d ways).Grown c.Reaches (· ∈ ways) d := by
  have hrefl := Draft.Grows.refl c.Reaches (· ∈ ways) d
  have hways : ∀ w ∈ ways, w ∈ ways ∨ d.Added d w.source := fun w => .inl
  match s with
  | .skip => exact ⟨hrefl, fun w => .inl, nofun⟩
  | .seq first rest =>
    have hf := first.layOut_grown c d ways
    rw [Stmt.layOut]
    exact hf.andThen (rest.layOut_grown c _ _) (fun t => .inl) hf.outs
  | .plain node =>
    obtain ⟨hg, ho⟩ := hrefl.plain node (handled_of c) hways
    exact ⟨hg, ho, nofun⟩
  | .ret node =>
    obtain ⟨hg, ho⟩ := hrefl.plain node (handled_of c) hways
    exact ⟨(hg.connect _ false (.inl (.inl rfl)) ho).close, nofun, nofun⟩
  | .throw node =>
    obtain ⟨hg, ho⟩ := hrefl.plain node (handled_of c) hways
    refine ⟨(hg.exit _ (.inl rfl) fun w hw => ?_).close, nofun, nofun⟩
    split at hw
    · cases hw
    · obtain ⟨v, hv, rfl⟩ := List.mem_map.1 hw
      exact (ho v hv).imp_left fun h => ⟨v, h, rfl⟩
  | .jump node isContinue label =>
    obtain ⟨hg, ho⟩ := hrefl.plain node (handled_of c) hways
    rw [Stmt.layOut]
    cases c.target? isContinue label with
    | none => exact ⟨hg.close, ho, nofun⟩
    | some depth =>
      refine ⟨hg.close, nofun, fun j hj => ?_⟩
      obtain ⟨w, hw, rfl⟩ := List.mem_map.1 hj
      exact ho w hw
  | .branch node condition onTrue onFalse =>
    exact grown_branch (fun d ways => onTrue.layOut_grown c d ways) fun d ways => onFalse.layOut_grown c d ways
  | .whileLoop node label condition body =>
    have hb := hrefl.addTarget .branch node (handled_of c) hways
    have hhead : d.Added (d.addTarget c .branch node ways).1 d.size := ⟨Nat.le_refl _, by simp⟩
    have hl := body.layOut_grown (c.enter ⟨label, true, true⟩) (d.addTarget c .branch node ways).1
      [.guarded d.size .onTrue condition]
    have hl' := hl.after hb (fun t => .inl) (new_of_mem_singleton rfl hhead)
    rw [layOut_whileLoop]
    exact hl'.loop (.inr (hhead.widen hl.grows.size_le)) (.inr (hhead.widen hl.grows.size_le))
  | .doLoop node label condition body => exact grown_doLoop fun d ways => body.layOut_grown _ d ways
  | .forLoop node label start condition step body =>
    exact grown_forLoop fun d ways => body.layOut_grown _ d ways
  | .forEach node label iterated body =>
    have hb := hrefl.addTarget .branch node (handled_of c) hways
    have hhead : d.Added (d.addTarget c .branch node ways).1 d.size := ⟨Nat.le_refl _, by simp⟩
    have hl := body.layOut_grown (c.enter ⟨label, true, true⟩) (d.addTarget c .branch node ways).1
      [.guarded d.size .onTrue iterated]
    have hl' := hl.after hb (fun t => .inl) (new_of_mem_singleton rfl hhead)
    rw [layOut_forEach]
    exact hl'.loop (.inr (hhead.widen hl.grows.size_le)) (.inr (hhead.widen hl.grows.size_le))
  | .switch node selector clauses =>
    exact grown_switch fun d branch falling => clauses.layOut_grown _ branch selector d falling
  | .tryCatch node body catchNode catchBody finallyNode finallyBody =>
    exact grown_tryCatch (fun _ d ways => body.layOut_grown _ d ways)
      (fun _ d ways => catchBody.layOut_grown _ d ways) fun d ways => finallyBody.layOut_grown c d ways
  | .labelled node label body =>
    have hl := body.layOut_grown (c.enter ⟨label, false, false⟩) d.close ways
    have hl' := hl.after hrefl.close (fun t => .inl) hways
    rw [layOut_labelled]
    simpa using hl'.leave c.frames.length [] (List.forall_mem_nil _)
termination_by structural s

/-- The clauses of a switch, by induction, with every statement inside them. -/
theorem Clauses.layOut_grown (c : Context) (branch : Nat) (selector : Option Nat) (d : Draft)
    (falling : List Way) (s : Clauses) :
    (s.layOut c branch selector d falling).Grown c.Reaches
      (fun w => w ∈ falling ∨ w.source = branch) d := by
  have hrefl := Draft.Grows.refl c.Reaches (fun w => w ∈ falling ∨ w.source = branch) d
  match s with
  | .nil => exact ⟨hrefl, fun w hw => .inl (.inl hw), nofun⟩
  | .onCase value body rest =>
    rw [Clauses.layOut]
    exact .follow rfl (body.layOut_grown c d.close (falling ++ [⟨branch, .onCase, selector, value⟩]))
      (rest.layOut_grown c branch selector _ _)
  | .onDefault body rest =>
    rw [Clauses.layOut]
    exact .follow rfl (body.layOut_grown c d.close (falling ++ [.guarded branch .onDefault selector]))
      (rest.layOut_grown c branch selector _ _)
  | .gap rest =>
    have hr := rest.layOut_grown c branch selector d []
    rw [Clauses.layOut]
    exact hr.after hrefl (fun t => .inl) fun w hw => .inl (hw.imp_left (by simp))
termination_by structural s

end

end Mend.Flow
