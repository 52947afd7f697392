import Mathlib.Data.List.Count
import Mend.Proofs.Flow.BackEdges
import Mend.Proofs.Flow.Decisions
import Mend.Proofs.Flow.Exits

/-!
# An account of the ways that decisions open

A way that a decision opens may wait for long until it is connected: at the end of an empty body, behind a `switch`
statement, as one of many ways into what comes next. So the account is kept over all ways at once, those that are
connected and those that wait. On the way from one draft to the next, what is added to them are the ways of the
decisions laid out in between (`Draft.Forks`); connecting a way leaves the account as it is. The ways that wait may
be handed on in parts (`Draft.Forks.andThen`), and there is one lemma for each primitive of the builder.
-/

namespace Mend.Flow

/-- Whether ways of this kind are opened by decisions. -/
def EdgeKind.isConditional : EdgeKind → Bool
  | onTrue | onFalse | onCase | onDefault => true
  | unconditional | exception => false

/-- The way that an edge connects. -/
def Edge.way (e : Edge) : Way := ⟨e.source, e.kind, e.condition, e.caseValue⟩

/-- The ways that decisions opened. -/
def conditional (ways : List Way) : List Way := ways.filter (·.kind.isConditional)

/-- A branch node, with the syntax node that it stands for and what it decides. -/
structure Fork where
  node : Nat
  ast : Nat
  decision : Decision

/-- What a branch node decides, without its number. -/
def Fork.site (k : Fork) : Nat × Decision := (k.ast, k.decision)

/-- A branch node without what it decides. -/
def Fork.branch (k : Fork) : Nat × Nat := (k.node, k.ast)

/-- The ways that a branch node opens. -/
def Fork.ways (k : Fork) : List Way := k.decision.ways k.node

/-- The branch nodes with the syntax nodes they stand for, in the order of their numbers. -/
def branches (nodes : Array Node) : List (Nat × Nat) :=
  (List.range nodes.size).filterMap fun n => (nodes[n]?).bind fun x =>
    if x.kind = .branch then some (n, x.ast) else none

/-- A node that decides nothing. -/
def Undecided (nodes : Array Node) (n : Nat) : Prop := ∃ x, nodes[n]? = some x ∧ x.kind ≠ .branch

variable {sites sites' : List (Nat × Decision)} {nodes : Array Node} {d d' d'' : Draft} {c : Context}
  {kind : NodeKind} {ast n : Nat} {ways ways' held mid : List Way}

/-- No ways are conditional. -/
@[simp] lemma conditional_nil : conditional [] = [] := rfl

/-- The conditional ways of two lists are those of either. -/
@[simp] lemma conditional_append (v w : List Way) : conditional (v ++ w) = conditional v ++ conditional w :=
  List.filter_append ..

/-- Ways without a condition are not among them. -/
lemma conditional_eq_nil (h : ∀ w ∈ ways, w.kind.isConditional = false) : conditional ways = [] :=
  List.filter_eq_nil_iff.2 fun w hw => by simp [h w hw]

/-- The ways of a decision come from it and are conditional. -/
lemma Decision.of_mem_ways {k : Decision} {w : Way} (h : w ∈ k.ways n) :
    w.source = n ∧ w.kind.isConditional = true := by
  cases k with
  | test condition =>
    rw [ways, List.mem_pair] at h
    rcases h with rfl | rfl <;> exact ⟨rfl, rfl⟩
  | select selector values defaults =>
    rw [ways, List.mem_append, List.mem_map] at h
    rcases h with ⟨value, -, rfl⟩ | h
    · exact ⟨rfl, rfl⟩
    · rw [List.eq_of_mem_replicate h]
      exact ⟨rfl, rfl⟩

/-- So all of them are kept. -/
lemma conditional_ways (k : Decision) (n : Nat) : conditional (k.ways n) = k.ways n :=
  List.filter_eq_self.2 fun _ hw => (Decision.of_mem_ways hw).2

/-- A new node is listed if it decides something. -/
lemma branches_push (nodes : Array Node) (x : Node) :
    branches (nodes.push x) = branches nodes ++ if x.kind = .branch then [(nodes.size, x.ast)] else [] := by
  unfold branches
  rw [Array.size_push, List.range_succ, List.filterMap_append]
  congr 1
  · refine List.filterMap_congr fun n hn => ?_
    rw [Array.getElem?_push_lt (List.mem_range.1 hn), ← Array.getElem?_eq_getElem]
  · split <;> simp [*]

/-- Further statements of a block decide nothing. -/
lemma branches_congr {nodes' : Array Node} (hsize : nodes'.size = nodes.size)
    (h : ∀ n : Nat, ∃ more, nodes'[n]? = (nodes[n]?).map (·.extend more)) : branches nodes' = branches nodes := by
  unfold branches
  rw [hsize]
  refine List.filterMap_congr fun n _ => ?_
  obtain ⟨more, hmore⟩ := h n
  rw [hmore]
  cases nodes[n]? <;> rfl

namespace Draft

/-- The ways that are connected. -/
def connected (d : Draft) : List Way := d.edges.toList.map Edge.way

/-- No way goes straight on from a node that decides something. -/
def Straight (d : Draft) (ways : List Way) : Prop :=
  ∀ w ∈ d.connected ++ ways, w.kind = .unconditional → Undecided d.nodes w.source

/-- On the way from `d` to `d'`, the decisions in `sites` were laid out in this order. The ways `ways` waited to be
connected at the beginning and `ways'` wait at the end. -/
structure Forks (sites : List (Nat × Decision)) (d : Draft) (ways : List Way) (d' : Draft) (ways' : List Way) :
    Prop where
  extend : d.Extends d'
  account : ∃ new : List Fork, new.map Fork.site = sites ∧
    Flow.branches d'.nodes = Flow.branches d.nodes ++ new.map Fork.branch ∧
    (conditional (d'.connected ++ ways')).Perm (conditional (d.connected ++ ways) ++ new.flatMap Fork.ways)
  straight : d.Straight ways → d'.Straight ways'

/-- What is connected is connected from then on. -/
lemma connected_connect (d : Draft) (ways : List Way) (n : Nat) (b : Bool) :
    (d.connect ways n b).connected = d.connected ++ ways := by
  simp [connected, Function.comp_def, Edge.way, Way.toEdge]

/-- A new node is connected to the handler in force at most. -/
lemma connected_addNode (d : Draft) (c : Context) (kind : NodeKind) (ast : Nat) :
    (d.addNode c kind ast).1.connected = d.connected ++ (handlerEdges c d.size).map Edge.way := by
  rw [connected, edges_addNode, List.map_append]
  rfl

/-- The edge to a handler is an exception. -/
lemma kind_of_mem_handlerEdges {w : Way} (h : w ∈ (handlerEdges c n).map Edge.way) : w.kind = .exception := by
  obtain ⟨e, he, rfl⟩ := List.mem_map.1 h
  obtain ⟨m, -, rfl⟩ := List.mem_map.1 he
  rfl

/-- A node that decides nothing goes on deciding nothing. -/
lemma Extends.undecided (h : d.Extends d') (hn : Undecided d.nodes n) : Undecided d'.nodes n := by
  obtain ⟨x, hx, hk⟩ := hn
  obtain ⟨more, hmore⟩ := h.getElem? hx
  exact ⟨_, hmore, hk⟩

/-- A new node extends a draft. -/
lemma extends_addNode (d : Draft) (c : Context) (kind : NodeKind) (ast : Nat) : d.Extends (d.addNode c kind ast).1 :=
  Grows.addNode (.refl _ _ d) kind ast fun _ _ => .inl trivial

/-- It adds no conditional way. -/
lemma conditional_addNode (d : Draft) (c : Context) (kind : NodeKind) (ast : Nat) :
    conditional (d.addNode c kind ast).1.connected = conditional d.connected := by
  have hhandler : conditional ((handlerEdges c d.size).map Edge.way) = [] := conditional_eq_nil fun w hw => by
    rw [kind_of_mem_handlerEdges hw]
    rfl
  rw [connected_addNode, conditional_append, hhandler, List.append_nil]

/-- It keeps what is connected without a condition. -/
lemma straight_addNode (c : Context) (kind : NodeKind) (ast : Nat) (h : d.Straight ways) :
    (d.addNode c kind ast).1.Straight ways := by
  intro w hw hk
  rw [connected_addNode, List.append_assoc] at hw
  have hold : w ∈ d.connected ++ ways := by
    rcases List.mem_append.1 hw with hw | hw
    · exact List.mem_append_left _ hw
    · rcases List.mem_append.1 hw with hw | hw
      · cases hk.symm.trans (kind_of_mem_handlerEdges hw)
      · exact List.mem_append_right _ hw
  exact (extends_addNode d c kind ast).undecided (h w hold hk)

/-- A further statement of a block decides nothing. -/
lemma branches_append (d : Draft) (n ast : Nat) :
    Flow.branches (d.append n ast).nodes = Flow.branches d.nodes := by
  refine branches_congr (size_append ..) fun m => ?_
  rw [getElem?_append]
  split
  · exact ⟨_, rfl⟩
  · exact ⟨[], by simp⟩

/-- Nor does a node come to decide something by it. -/
lemma undecided_append {m : Nat} (n ast : Nat) (h : Undecided d.nodes m) : Undecided (d.append n ast).nodes m := by
  obtain ⟨x, hx, hk⟩ := h
  rw [Undecided, getElem?_append, hx]
  split
  · exact ⟨_, rfl, hk⟩
  · exact ⟨x, rfl, hk⟩

/-- A new node decides something only if it is a branch. -/
lemma undecided_addNode (d : Draft) (c : Context) (hk : kind ≠ .branch) (ast : Nat) :
    Undecided (d.addNode c kind ast).1.nodes d.size :=
  ⟨⟨kind, ast, []⟩, by rw [nodes_addNode, size, Array.getElem?_push_size], hk⟩

/-- The node of a clause decides nothing. -/
lemma undecided_addClause {clause : Option Nat} (hn : n ∈ (d.addClause c clause).2) :
    Undecided (d.addClause c clause).1.nodes n := by
  cases clause with
  | none => cases hn
  | some ast =>
    cases hn
    exact d.undecided_addNode c (by decide) ast

/-- Something is added for a clause if there is one. -/
lemma elim_addClause {α : Type} (d : Draft) (c : Context) (clause : Option Nat) (l : List α) :
    ((d.addClause c clause).2.elim [] fun _ => l) = clause.elim [] fun _ => l := by
  cases clause <;> rfl

namespace Forks

/-- Nothing is decided where nothing is added. -/
lemma refl (d : Draft) (ways : List Way) : d.Forks [] ways d ways where
  extend := .refl d
  account := ⟨[], rfl, by simp, by simp⟩
  straight := id

/-- All ways are to be handed on. -/
lemma start (d : Draft) (ways : List Way) : d.Forks [] ways d (ways ++ []) := by
  rw [List.append_nil]
  exact refl d ways

/-- What is laid out next takes over the ways in `mid`; those in `held` wait in the meantime. -/
lemma andThen (h : d.Forks sites ways d' (mid ++ held)) (h' : d'.Forks sites' mid d'' ways') :
    d.Forks (sites ++ sites') ways d'' (ways' ++ held) where
  extend := Extends.andThen h.extend h'.extend
  account := by
    obtain ⟨new, hsites, hbranches, hways⟩ := h.account
    obtain ⟨new', hsites', hbranches', hways'⟩ := h'.account
    refine ⟨new ++ new', by rw [List.map_append, hsites, hsites'],
      by rw [hbranches', hbranches, List.map_append, List.append_assoc], List.perm_iff_count.2 fun w => ?_⟩
    have hcount := hways.count_eq w
    have hcount' := hways'.count_eq w
    simp only [conditional_append, List.count_append, List.flatMap_append] at hcount hcount' ⊢
    omega
  straight hstraight w hw hk := by
    have hmid := h.straight hstraight
    unfold Straight at hmid
    rw [← List.append_assoc] at hw hmid
    rcases List.mem_append.1 hw with hw | hw
    · exact h'.straight (fun v hv => hmid v (List.mem_append_left _ hv)) w hw hk
    · exact h'.extend.undecided (hmid w (List.mem_append_right _ hw) hk)

/-- Ways that wait may change places, and those that no decision opened may get lost. -/
lemma settle (h : d.Forks sites ways d' held) (hways : (conditional ways').Perm (conditional held))
    (hsub : ways' ⊆ held) : d.Forks sites ways d' ways' where
  extend := h.extend
  account := by
    obtain ⟨new, hsites, hbranches, hperm⟩ := h.account
    refine ⟨new, hsites, hbranches, .trans ?_ hperm⟩
    rw [conditional_append, conditional_append]
    exact hways.append_left _
  straight hstraight w hw := by
    refine h.straight hstraight w ?_
    rw [List.mem_append] at hw ⊢
    exact hw.imp_right fun h => hsub h

/-- The order of the ways that go on does not matter. -/
lemma perm (h : d.Forks sites ways d' held) (hperm : ways'.Perm held) : d.Forks sites ways d' ways' :=
  h.settle (hperm.filter _) hperm.subset

/-- Closing a block decides nothing. -/
lemma close (h : d.Forks sites ways d' held) : d.Forks sites ways d'.close held :=
  ⟨Grows.close h.extend, h.account, h.straight⟩

/-- Ways that are connected go on no longer. -/
lemma connect (h : d.Forks sites ways d' (mid ++ held)) (n : Nat) (b : Bool) :
    d.Forks sites ways (d'.connect mid n b) held where
  extend := h.extend.connect mid n b
  account := by
    rw [connected_connect, List.append_assoc]
    exact h.account
  straight hstraight := by
    unfold Straight
    rw [connected_connect, List.append_assoc]
    exact h.straight hstraight

/-- A way on from a node that decides nothing. -/
lemma enter (h : d.Forks sites ways d' held) (hn : Undecided d'.nodes n) :
    d.Forks sites ways d' (.plain n :: held) where
  extend := h.extend
  account := by
    rw [← List.singleton_append, ← List.append_assoc, conditional_append, conditional_append,
      conditional_eq_nil (List.forall_mem_singleton.2 rfl), List.append_nil, ← conditional_append]
    exact h.account
  straight hstraight w hw := by
    rcases List.mem_append.1 hw with hw | hw
    · exact h.straight hstraight w (List.mem_append_left _ hw)
    · rcases List.mem_cons.1 hw with rfl | hw
      · exact fun _ => hn
      · exact h.straight hstraight w (List.mem_append_right _ hw)

/-- Nothing waits in the meantime. -/
lemma trans (h : d.Forks sites ways d' mid) (h' : d'.Forks sites' mid d'' ways') :
    d.Forks (sites ++ sites') ways d'' ways' := by
  rw [← List.append_nil mid] at h
  simpa using h.andThen h'

/-- A node that decides nothing is added. -/
lemma addNode (h : d.Forks sites ways d' held) (c : Context) (hk : kind ≠ .branch) (ast : Nat) :
    d.Forks sites ways (d'.addNode c kind ast).1 held := by
  rw [← List.append_nil sites]
  refine h.trans ⟨extends_addNode d' c kind ast, ⟨[], rfl, ?_, ?_⟩, straight_addNode c kind ast⟩
  · rw [nodes_addNode, branches_push, if_neg hk, List.map_nil]
  · rw [conditional_append, conditional_addNode, List.flatMap_nil, List.append_nil, conditional_append]

/-- A branch node is added, and opens its ways. -/
lemma fork (h : d.Forks sites ways d' held) (c : Context) (ast : Nat) (k : Decision) :
    d.Forks (sites ++ [(ast, k)]) ways (d'.addNode c .branch ast).1 (k.ways d'.size ++ held) := by
  refine h.trans ⟨extends_addNode d' c .branch ast, ⟨[⟨d'.size, ast, k⟩], rfl, ?_, ?_⟩, fun hstraight w hw hk => ?_⟩
  · rw [nodes_addNode, branches_push, if_pos rfl]
    rfl
  · simp only [conditional_append, conditional_addNode, conditional_ways, List.flatMap_singleton, Fork.ways,
      List.append_assoc]
    exact List.perm_append_comm.append_left _
  · rcases List.mem_append.1 hw with hw | hw
    · exact straight_addNode c .branch ast hstraight w (List.mem_append_left _ hw) hk
    · rcases List.mem_append.1 hw with hw | hw
      · exact absurd (Decision.of_mem_ways hw).2 (by rw [hk]; decide)
      · exact straight_addNode c .branch ast hstraight w (List.mem_append_right _ hw) hk

/-- A node that control goes straight on from. -/
lemma addTarget (h : d.Forks sites ways d' (mid ++ held)) (c : Context) (hk : kind ≠ .branch) (ast : Nat) :
    d.Forks sites ways (d'.addTarget c kind ast mid).1 (.plain d'.size :: held) := by
  rw [addTarget_fst]
  exact ((h.close.addNode c hk ast).connect d'.size false).enter (d'.close.undecided_addNode c hk ast)

/-- A branch node that some ways lead into. -/
lemma forkTarget (h : d.Forks sites ways d' (mid ++ held)) (c : Context) (ast : Nat) (k : Decision) :
    d.Forks (sites ++ [(ast, k)]) ways (d'.addTarget c .branch ast mid).1 (k.ways d'.size ++ held) := by
  rw [addTarget_fst]
  refine Forks.connect ?_ d'.size false
  exact (h.close.fork c ast k).perm (by simpa using List.perm_append_comm_assoc mid (k.ways d'.size) held)

/-- A block has one more statement. -/
lemma append (h : d.Forks sites ways d' held) (hextend : d.Extends (d'.append n ast)) :
    d.Forks sites ways (d'.append n ast) held where
  extend := hextend
  account := by
    rw [branches_append]
    exact h.account
  straight hstraight w hw hk := undecided_append n ast (h.straight hstraight w hw hk)

/-- A statement goes to the open block, or to a new one. -/
lemma plain (h : d.Forks sites ways d' (mid ++ held)) (c : Context) (ast : Nat) :
    d.Forks sites ways (d'.plain c ast mid).1 ((d'.plain c ast mid).2 ++ held) := by
  have hextend : d.Extends (d'.plain c ast mid).1 :=
    (h.extend.plain ast (fun _ _ => .inl trivial) fun _ _ => .inl trivial).1
  cases hb : d'.openBlock? mid with
  | some block =>
    rw [plain_of_openBlock?_eq_some _ _ _ _ hb] at hextend ⊢
    exact h.append hextend
  | none =>
    rw [plain_of_openBlock?_eq_none _ _ _ _ hb] at hextend ⊢
    have hblock := h.addNode c (by decide : NodeKind.block ≠ .branch) ast
    have hnew : Undecided (d'.addNode c .block ast).1.nodes d'.size := d'.undecided_addNode c (by decide) ast
    have hfilled := (hblock.append (hblock.extend.append ast (.inr h.extend.size_le))).connect d'.size false
    have hopen : d.Forks sites ways ((((d'.addNode c .block ast).1.append d'.size ast).connect mid d'.size
        false).reopen d'.size) held := ⟨hextend, hfilled.account, hfilled.straight⟩
    exact hopen.enter (undecided_append d'.size ast hnew)

/-- A plain statement decides nothing. -/
lemma plain? (h : d.Forks sites ways d' (mid ++ held)) (c : Context) (part : Option Nat) :
    d.Forks sites ways (d'.plain? c part mid).1 ((d'.plain? c part mid).2 ++ held) := by
  cases part with
  | none => exact h
  | some ast => exact h.plain c ast

/-- The node of a clause decides nothing. -/
lemma addClause (h : d.Forks sites ways d' held) (c : Context) (clause : Option Nat) :
    d.Forks sites ways (d'.addClause c clause).1 held := by
  cases clause with
  | none => exact h
  | some ast => exact h.addNode c (by decide) ast

/-- Ways that no decision opened get lost. -/
lemma drop (h : d.Forks sites ways d' (mid ++ held)) (hmid : ∀ w ∈ mid, w.kind = .unconditional) :
    d.Forks sites ways d' held := by
  have hnone : conditional mid = [] := conditional_eq_nil fun w hw => by rw [hmid w hw]; rfl
  refine h.settle ?_ (List.subset_append_right _ _)
  rw [conditional_append, hnone, List.nil_append]

/-- Something is thrown. -/
lemma thrown (h : d.Forks sites ways d' held) (hmid : ∀ w ∈ mid, w.kind = .exception) (n : Nat) (b : Bool) :
    d.Forks sites ways (d'.connect mid n b) held := by
  have hnone : conditional mid = [] := conditional_eq_nil fun w hw => by rw [hmid w hw]; rfl
  refine ⟨h.extend.connect mid n b, ?_, fun hstraight w hw hk => h.straight hstraight w ?_ hk⟩
  · rw [connected_connect]
    simpa [hnone] using h.account
  · rw [connected_connect, List.append_assoc, List.mem_append, List.mem_append] at hw
    rcases hw with hw | hw | hw
    · exact List.mem_append_left _ hw
    · cases hk.symm.trans (hmid w hw)
    · exact List.mem_append_right _ hw

end Forks

/-- A statement that control only passes through. -/
lemma forks_plain (d : Draft) (c : Context) (ast : Nat) (ways : List Way) :
    d.Forks [] ways (d.plain c ast ways).1 (d.plain c ast ways).2 := by
  simpa using (Forks.start d ways).plain c ast

/-- A branch node that all ways lead into. -/
lemma forks_target (d : Draft) (c : Context) (ast : Nat) (k : Decision) (ways : List Way) :
    d.Forks [(ast, k)] ways (d.addTarget c .branch ast ways).1 (k.ways d.size) := by
  simpa using (Forks.start d ways).forkTarget c ast k

end Draft

end Mend.Flow
