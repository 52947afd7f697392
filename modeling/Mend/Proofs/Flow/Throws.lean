import Mend.Proofs.Flow.Catchers
import Mend.Proofs.Flow.Exits

/-!
# Where exceptions go

The exceptions of a flow node go to the clause that catches them. If nothing does, they go nowhere, but for those of
a block that ends in a `throw`, which go to the exit (`Node.Throws`).

A node gets its edge when it is added, from the handler in force, so that the handler has to stand for the catcher
that the node is under (`Handles`). A block takes statements later than that; they have to stand under the same
catcher as its first one, and a `throw` has to be the last (`Draft.IsOpen`). Under these conditions, what the
primitives of the builder do to a draft leaves the exceptions of its nodes where they should go (`Draft.Fits`).
-/

namespace Mend.Flow

/-- The targets of the exception edges of a node. -/
def thrown (edges : Array Edge) (n : Nat) : List Nat :=
  (edges.toList.filter fun e => e.kind == .exception && e.source == n).map (·.target)

/-- The node of a catcher. -/
def Catcher.IsAt (nodes : Array Node) (n : Nat) : Catcher → Prop
  | clause ast => Plays nodes n (.handler, ast)
  | exit => n = exitNode

/-- A block that ends in a statement with the property `T`. -/
def Node.EndsIn (T : Nat → Prop) (x : Node) : Prop := x.kind = .block ∧ ∃ s, x.statements.getLast? = some s ∧ T s

/-- The handler in force stands for a catcher. -/
abbrev Handles (nodes : Array Node) (handler : Option Nat) (k : Option Catcher) : Prop :=
  Option.Rel (fun n k => Catcher.IsAt nodes n k) handler k

/-- Where the exceptions of a node go. `K` says what catches them, and `T` which statements are a `throw`. -/
inductive Node.Throws (K : Nat → Option Catcher) (T : Nat → Prop) (nodes : Array Node) (x : Node) :
    List Nat → Prop where
  /-- Something catches them, and there is one edge to it. -/
  | caught {k : Catcher} {m : Nat} : K x.ast = some k → k.IsAt nodes m → Throws K T nodes x [m]
  /-- Nothing catches what the block throws, and there is one edge to the exit. -/
  | out : K x.ast = none → x.EndsIn T → Throws K T nodes x [exitNode]
  | quiet : K x.ast = none → ¬x.EndsIn T → Throws K T nodes x []

/-- Ways that no exception takes. -/
def Quiet (ways : List Way) : Prop := ∀ w ∈ ways, w.kind ≠ .exception

namespace Draft

/-- A draft in which exceptions go where they should. -/
structure Fits (K : Nat → Option Catcher) (T : Nat → Prop) (d : Draft) : Prop where
  two_le : 2 ≤ d.size
  sources : ∀ e ∈ d.edges.toList, e.kind = .exception → e.source < d.size
  throws : ∀ n x, 2 ≤ n → d.nodes[n]? = some x → x.Throws K T d.nodes (thrown d.edges n)

/-- A block that takes statements under the catcher `k`. -/
def IsOpen (K : Nat → Option Catcher) (T : Nat → Prop) (k : Option Catcher) (d : Draft) (b : Nat) : Prop :=
  2 ≤ b ∧ ∃ x, d.nodes[b]? = some x ∧ x.kind = .block ∧ K x.ast = k ∧ ¬x.EndsIn T

/-- The block that takes the next statement, if there is one, takes it under the catcher `k`. -/
def Opens (K : Nat → Option Catcher) (T : Nat → Prop) (k : Option Catcher) (d : Draft) : Prop :=
  ∀ b, d.current = some b → d.IsOpen K T k b

end Draft

variable {K : Nat → Option Catcher} {T : Nat → Prop} {k : Option Catcher} {handler : Option Nat} {c : Context}
  {d d' : Draft} {kind : NodeKind} {ast b n : Nat} {ways v w : List Way} {x : Node}

/-- No ways at all are quiet. -/
@[simp] lemma quiet_nil : Quiet [] := nofun

/-- Ways in a row are quiet iff both parts are. -/
lemma quiet_append : Quiet (v ++ w) ↔ Quiet v ∧ Quiet w := List.forall_mem_append

/-- A single way of another kind is quiet. -/
lemma quiet_singleton {way : Way} (h : way.kind ≠ .exception) : Quiet [way] := List.forall_mem_singleton.2 h

/-- A plain way is quiet. -/
lemma quiet_plain (n : Nat) : Quiet [.plain n] := quiet_singleton nofun

/-- A guarded way of another kind is quiet. -/
lemma quiet_guarded {edge : EdgeKind} (h : edge ≠ .exception) (n : Nat) (condition : Option Nat) :
    Quiet [.guarded n edge condition] := quiet_singleton h

/-- What catches stays where it is in every later draft. -/
lemma Catcher.IsAt.later {k : Catcher} (h : k.IsAt d.nodes n) (hd : d.Extends d') : k.IsAt d'.nodes n := by
  cases k with
  | clause ast => exact hd.plays h
  | exit => exact h

/-- What a node throws to stays so in every later draft. -/
lemma Node.Throws.later {l : List Nat} (h : x.Throws K T d.nodes l) (hd : d.Extends d') :
    x.Throws K T d'.nodes l := by
  cases h with
  | caught hk hm => exact .caught hk (hm.later hd)
  | out hk hx => exact .out hk hx
  | quiet hk hx => exact .quiet hk hx

/-- A handler stays the handler in every later draft. -/
lemma handles_later (h : Handles d.nodes handler k) (hd : d.Extends d') : Handles d'.nodes handler k := by
  cases h with
  | none => exact .none
  | some hm => exact .some (hm.later hd)

/-- The inner handler wins over the outer one, in the draft and in the tree. -/
lemma handles_or {nodes : Array Node} {handler' : Option Nat} {k' : Option Catcher} (h : Handles nodes handler k)
    (h' : Handles nodes handler' k') : Handles nodes (handler.or handler') (k.or k') := by
  cases h with
  | none => exact h'
  | some hm => exact .some hm

/-- Without a clause, exceptions go to the exit. -/
lemma handles_getD {nodes : Array Node} {clause : Option Nat} (h : Handles nodes handler (clause.map .clause)) :
    Handles nodes (some (handler.getD exitNode)) (some (clause.elim .exit .clause)) := by
  cases clause with
  | none =>
    cases h
    exact .some rfl
  | some ast =>
    cases h with
    | some hm => exact .some hm

/-- The node added for a clause handles what the clause catches. -/
lemma handles_addClause (d : Draft) (c : Context) (clause : Option Nat) :
    Handles (d.addClause c clause).1.nodes (d.addClause c clause).2 (clause.map .clause) := by
  cases clause with
  | none => exact .none
  | some ast => exact .some ⟨⟨.handler, ast, []⟩, by simp [Draft.addClause, Draft.size], by simp [Node.roles]⟩

/-- Exceptions go to the handler that stands for the catcher. -/
lemma Node.throws_of_handles {nodes : Array Node} (h : Handles nodes handler k)
    (hast : K x.ast = k) (hx : ¬x.EndsIn T) : x.Throws K T nodes handler.toList := by
  cases h with
  | none => exact .quiet hast hx
  | some hm => exact .caught hast hm

/-- A node with something to catch it throws there, once. -/
lemma Node.Throws.of_eq_some {nodes : Array Node} {l : List Nat} (h : x.Throws K T nodes l) {k : Catcher}
    (hk : K x.ast = some k) : ∃ m, k.IsAt nodes m ∧ l = [m] := by
  cases h with
  | caught hk' hm =>
    cases hk.symm.trans hk'
    exact ⟨_, hm, rfl⟩
  | out hk' _ => cases hk.symm.trans hk'
  | quiet hk' _ => cases hk.symm.trans hk'

/-- A node without statements ends in none. -/
lemma Node.not_endsIn_of_nil (h : x.statements = []) : ¬x.EndsIn T := by
  rintro ⟨-, s, hs, -⟩
  rw [h] at hs
  cases hs

/-- A block just extended ends in the statement added. -/
lemma Node.endsIn_extend (h : x.kind = .block) : (x.extend [ast]).EndsIn T ↔ T ast := by
  rw [EndsIn, extend]
  simp [h]

/-- A block that takes a statement which is no `throw`. -/
lemma Node.Throws.extend {nodes : Array Node} {l : List Nat} (h : x.Throws K T nodes l) (hx : ¬x.EndsIn T)
    (hquiet : ¬(x.extend [ast]).EndsIn T) : (x.extend [ast]).Throws K T nodes l := by
  cases h with
  | caught hk hm => exact .caught hk hm
  | out _ hends => exact absurd hends hx
  | quiet hk _ => exact .quiet hk hquiet

/-- A block that takes a `throw`. -/
lemma Node.Throws.throw {nodes : Array Node} {l : List Nat} (h : x.Throws K T nodes l) (hx : ¬x.EndsIn T)
    (hends : (x.extend [ast]).EndsIn T) (hhandles : Handles nodes handler (K x.ast)) :
    (x.extend [ast]).Throws K T nodes (l ++ if handler.isSome then [] else [exitNode]) := by
  cases h with
  | caught hk hm =>
    rw [hk] at hhandles
    cases hhandles
    exact .caught hk hm
  | out _ hends => exact absurd hends hx
  | quiet hk _ =>
    rw [hk] at hhandles
    cases hhandles
    exact .out hk hends

/-- Connecting adds the exceptions among the ways to those thrown. -/
lemma thrown_connect (d : Draft) (ways : List Way) (t : Nat) (b : Bool) (n : Nat) :
    thrown (d.connect ways t b).edges n =
      thrown d.edges n ++ (ways.filter fun w => w.kind == .exception && w.source == n).map fun _ => t := by
  rw [thrown, Draft.edges_connect, List.filter_append, List.map_append, List.filter_map, List.map_map]
  rfl

/-- Connecting quiet ways throws nothing new. -/
lemma thrown_connect_of_quiet (h : Quiet ways) (d : Draft) (t : Nat) (b : Bool) (n : Nat) :
    thrown (d.connect ways t b).edges n = thrown d.edges n := by
  rw [thrown_connect, List.filter_eq_nil_iff.2 ?_, List.map_nil, List.append_nil]
  intro w hw
  simp [h w hw]

/-- A new node throws to the handler in force, and no other node throws anything new. -/
lemma thrown_addNode (d : Draft) (c : Context) (kind : NodeKind) (ast n : Nat) :
    thrown (d.addNode c kind ast).1.edges n = thrown d.edges n ++ if n = d.size then c.handler.toList else [] := by
  rw [thrown, Draft.edges_addNode, List.filter_append, List.map_append, thrown]
  congr 1
  cases hc : c.handler with
  | none => simp [Draft.handlerEdges, hc]
  | some m =>
    by_cases hn : n = d.size
    · simp [Draft.handlerEdges, hc, hn]
    · simp [Draft.handlerEdges, hc, hn, Ne.symm hn]

namespace Draft

/-- Reopening a block made since still extends the draft. -/
lemma Extends.reopen (h : d.Extends d') (hle : d.size ≤ n) (hlt : n < d'.size) : d.Extends (d'.reopen n) where
  size_le := h.size_le
  kept := h.kept
  current m hm := by
    cases hm
    exact .inr ⟨hle, hlt⟩
  edges := h.edges

/-- The block appended to is extended by the statement. -/
lemma getElem?_append_self (hx : d.nodes[b]? = some x) (ast : Nat) :
    (d.append b ast).nodes[b]? = some (x.extend [ast]) := by
  rw [getElem?_append, if_pos rfl, hx, Option.map_some]

namespace Fits

/-- A node still to come throws nothing. -/
lemma thrown_eq_nil (h : d.Fits K T) (hn : d.size ≤ n) : thrown d.edges n = [] := by
  rw [thrown, List.map_eq_nil_iff, List.filter_eq_nil_iff]
  intro e he hthrown
  rw [Bool.and_eq_true, beq_iff_eq, beq_iff_eq] at hthrown
  exact absurd (h.sources e he hthrown.1) (Nat.not_lt.2 (hthrown.2 ▸ hn))

/-- Where one node and its exceptions change, nothing changes for the others. -/
lemma step (h : d.Fits K T) (hd : d.Extends d')
    (hsources : ∀ e ∈ d'.edges.toList, e.kind = .exception → e.source < d'.size)
    (hkept : ∀ n, n ≠ b → d'.nodes[n]? = d.nodes[n]? ∧ thrown d'.edges n = thrown d.edges n)
    (hb : ∀ x, d'.nodes[b]? = some x → x.Throws K T d'.nodes (thrown d'.edges b)) : d'.Fits K T where
  two_le := Nat.le_trans h.two_le hd.size_le
  sources := hsources
  throws n x hn hx := by
    by_cases hnb : n = b
    · rw [hnb] at hx ⊢
      exact hb x hx
    · rw [(hkept n hnb).1] at hx
      rw [(hkept n hnb).2]
      exact (h.throws n x hn hx).later hd

/-- Closing the block changes no edge. -/
lemma close (h : d.Fits K T) : d.close.Fits K T := ⟨h.two_le, h.sources, h.throws⟩

/-- Reopening a block changes no edge. -/
lemma reopen (h : d.Fits K T) (b : Nat) : (d.reopen b).Fits K T := ⟨h.two_le, h.sources, h.throws⟩

/-- Quiet edges leave what is thrown as it was. -/
lemma connect (h : d.Fits K T) (hways : Quiet ways) (t : Nat) (isBack : Bool) :
    (d.connect ways t isBack).Fits K T where
  two_le := h.two_le
  sources e he hexception := by
    rw [edges_connect, List.mem_append] at he
    rcases he with he | he
    · exact h.sources e he hexception
    · obtain ⟨w, hw, rfl⟩ := List.mem_map.1 he
      exact absurd hexception (hways w hw)
  throws n x hn hx := by
    rw [thrown_connect_of_quiet hways]
    exact h.throws n x hn hx

/-- A new node gets its edge from the handler in force. -/
lemma addNode (h : d.Fits K T) (hhandles : Handles d.nodes c.handler k) (hast : K ast = k) :
    (d.addNode c kind ast).1.Fits K T := by
  have hd : d.Extends (d.addNode c kind ast).1 := (Extends.refl d).addNode kind ast fun _ _ => .inl trivial
  refine h.step (b := d.nodes.size) hd (fun e he hexception => ?_) (fun n hn => ⟨?_, ?_⟩) fun x hx => ?_
  · rw [size_addNode]
    rw [edges_addNode, List.mem_append] at he
    rcases he with he | he
    · exact Nat.lt_succ_of_lt (h.sources e he hexception)
    · obtain ⟨m, -, rfl⟩ := List.mem_map.1 he
      exact Nat.lt_succ_self d.size
  · rw [nodes_addNode, Array.getElem?_push, if_neg hn]
  · rw [thrown_addNode, size, if_neg hn, List.append_nil]
  · rw [nodes_addNode, Array.getElem?_push, if_pos rfl] at hx
    cases hx
    rw [thrown_addNode, size, if_pos rfl, h.thrown_eq_nil (Nat.le_refl d.nodes.size), List.nil_append]
    exact (Node.throws_of_handles hhandles hast (Node.not_endsIn_of_nil rfl)).later hd

/-- A new target throws to the handler of its statement. -/
lemma addTarget (h : d.Fits K T) (hhandles : Handles d.nodes c.handler k) (hast : K ast = k) (hways : Quiet ways) :
    (d.addTarget c kind ast ways).1.Fits K T := by
  rw [addTarget_fst]
  exact (h.close.addNode hhandles hast).connect hways d.size false

/-- The node of a clause throws to the handler around it. -/
lemma addClause (h : d.Fits K T) (hhandles : Handles d.nodes c.handler k) {clause : Option Nat}
    (hclause : ∀ n ∈ clause, K n = k) : (d.addClause c clause).1.Fits K T := by
  cases clause with
  | none => exact h
  | some ast => exact h.addNode hhandles (hclause ast rfl)

/-- A statement that is no `throw` leaves the block open, and its exceptions where they go. -/
lemma append (h : d.Fits K T) (hcurrent : d.current = some b) (hb : d.IsOpen K T k b) (hast : ¬T ast) :
    (d.append b ast).Fits K T ∧ (d.append b ast).IsOpen K T k b := by
  obtain ⟨h2, x, hx, hblock, hk, hends⟩ := hb
  have hd : d.Extends (d.append b ast) := (Extends.refl d).append ast (.inl hcurrent)
  have hnew := getElem?_append_self hx ast
  have hquiet : ¬(x.extend [ast]).EndsIn T := fun h => hast ((Node.endsIn_extend hblock).1 h)
  refine ⟨h.step (b := b) hd ?_ (fun n hn => ⟨?_, rfl⟩) fun y hy => ?_, h2, x.extend [ast], hnew, hblock, hk,
    hquiet⟩
  · rw [size_append]
    exact h.sources
  · rw [getElem?_append, if_neg hn]
  · cases hnew.symm.trans hy
    exact ((h.throws b x h2 hx).later hd).extend hends hquiet

/-- Without a handler, a `throw` leads from its block to the exit. -/
lemma throw (h : d.Fits K T) (hhandles : Handles d.nodes handler k) (hcurrent : d.current = some b)
    (hb : d.IsOpen K T k b) (hast : T ast) (hways : Quiet ways) :
    (((d.append b ast).connect ways b false).connect
      (if handler.isSome then [] else [.guarded b .exception none]) exitNode false).Fits K T := by
  obtain ⟨h2, x, hx, hblock, rfl, hends⟩ := hb
  -- Where a handler is in force, the block has its edge already, and none is added.
  generalize hthrown : (if handler.isSome then [] else [Way.guarded b .exception none]) = out
  have happend : d.Extends (d.append b ast) := (Extends.refl d).append ast (.inl hcurrent)
  have hd := (happend.connect ways b false).connect out exitNode false
  have hnew := getElem?_append_self hx ast
  have hlt : b < d.size := (Array.getElem?_eq_some_iff.1 hx).1
  refine h.step (b := b) hd (fun e he hexception => ?_) (fun n hn => ⟨?_, ?_⟩) fun y hy => ?_
  · rw [size_connect, size_connect, size_append]
    rw [edges_connect, edges_connect, List.mem_append, List.mem_append] at he
    rcases he with (he | he) | he
    · exact h.sources e he hexception
    · obtain ⟨w, hw, rfl⟩ := List.mem_map.1 he
      exact absurd hexception (hways w hw)
    · obtain ⟨w, hw, rfl⟩ := List.mem_map.1 he
      rw [← hthrown] at hw
      split at hw
      · cases hw
      · rw [List.mem_singleton.1 hw]
        exact hlt
  · rw [nodes_connect, nodes_connect, getElem?_append, if_neg hn]
  · rw [thrown_connect, thrown_connect_of_quiet hways, ← hthrown]
    cases handler with
    | none => simp [Way.guarded, Ne.symm hn, edges_append]
    | some m => simp [edges_append]
  · cases hnew.symm.trans hy
    have hthrows := ((h.throws b x h2 hx).later hd).throw hends ((Node.endsIn_extend hblock).2 hast)
      (handles_later hhandles hd)
    rw [thrown_connect, thrown_connect_of_quiet hways, ← hthrown]
    cases handler with
    | none => simpa [Way.guarded] using hthrows
    | some m => simpa using hthrows

/-- A statement that control passes through goes to the end of a block that is open. -/
lemma exists_block (h : d.Fits K T) (hhandles : Handles d.nodes c.handler k) (hopen : d.Opens K T k)
    (hast : K ast = k) (hways : Quiet ways) :
    ∃ d₁ b, d.Extends d₁ ∧ d₁.Fits K T ∧ d₁.current = some b ∧ d₁.IsOpen K T k b ∧
      ∃ more way, Quiet more ∧ way.source = b ∧ way.kind = .unconditional ∧
        d.plain c ast ways = ((d₁.append b ast).connect more b false, [way]) := by
  cases ho : d.openBlock? ways with
  | some block =>
    obtain ⟨hcurrent, way, rfl, hsource, hkind⟩ := openBlock?_eq_some d ways ho
    refine ⟨d, block, .refl d, h, hcurrent, hopen block hcurrent, [], way, quiet_nil, hsource, hkind, ?_⟩
    rw [plain_of_openBlock?_eq_some d c ast _ ho, Draft.connect, List.map_nil, Array.append_empty]
  | none =>
    have hd : d.Extends (d.addNode c .block ast).1 := (Extends.refl d).addNode .block ast fun _ _ => .inl trivial
    have hnew : (d.addNode c .block ast).1.nodes[d.size]? = some ⟨.block, ast, []⟩ := by simp [size]
    refine ⟨(d.addNode c .block ast).1.reopen d.size, d.size, ?_, (h.addNode hhandles hast).reopen d.size, rfl,
      ⟨h.two_le, _, hnew, rfl, hast, Node.not_endsIn_of_nil rfl⟩, ways, .plain d.size, hways, rfl, rfl, ?_⟩
    · exact hd.reopen (Nat.le_refl d.size) (by rw [size_addNode]; exact Nat.lt_succ_self d.size)
    · rw [plain_of_openBlock?_eq_none d c ast ways ho]
      rfl

end Fits

/-- With no block open there is nothing to say. -/
lemma opens_of_closed (h : d.current = none) : d.Opens K T k := by
  intro b hb
  cases h.symm.trans hb

/-- A new target extends the draft. -/
lemma extends_addTarget (d : Draft) (c : Context) (kind : NodeKind) (ast : Nat) (ways : List Way) :
    d.Extends (d.addTarget c kind ast ways).1 :=
  (Grows.refl _ _ d).addTarget kind ast (fun _ _ => .inl trivial) fun _ _ => .inl trivial

end Draft

end Mend.Flow
