import Mend.Proofs.Digest.Encoding
import Mend.Proofs.Digest.Outline

/-!
# Digests identify subtrees

The nodes may have their turns in any order that puts children before their parents
(`ChildrenFirst`). A node's turn then finds the subtrees below it finished and nothing changes it later,
so that the finished table solves one equation for each node (`settled_build`). What stands below a node
is unfolded from its children's numbers (`Unfolds`), and the equations leave no choice: the table holds at
a node what `Subtree.ofRoots` reads off the unfolded tree (`Unfolds.map_at`), whatever the order was.

Both digests are the hash of a message (`Reads`); they differ in what they see of a label. Where the
hash does not collide on the messages of two tables (`NoCollision`), equal digests stand over equal trees,
by induction over both trees at once (`Unfolds.digests_eq_iff`).
-/

namespace Mend.Digest

open Syntax (Ast Node)

/-- An order in which every one of `count` nodes has one turn, after all its children. -/
structure ChildrenFirst (count : Nat) (view : Nat → View) (order : List Nat) : Prop where
  perm : order.Perm (List.range count)
  before : ∀ i < count, ∀ c ∈ (view i).children, order.idxOf c < order.idxOf i

/-- The kind and the label of a node. -/
def View.face (v : View) : String × String := (v.kind, v.label)

/-- Numbers of nodes and what they unfold to: a forest of kinds and labels. -/
inductive Unfolds (view : Nat → View) : List Nat → Forest (String × String) → Prop where
  | nil : Unfolds view [] .nil
  | cons {i : Nat} {is : List Nat} {kids rest : Forest (String × String)} :
    Unfolds view (view i).children kids →
    Unfolds view is rest →
    Unfolds view (i :: is) (.cons (view i).face kids rest)

/-- A table in which every entry is made of the entries of its children. -/
structure Table.Settled (count : Nat) (view : Nat → View) (t : Table) : Prop where
  child_lt : ∀ i < count, ∀ c ∈ (view i).children, c < count
  at_eq : ∀ i < count, t.at i = .ofNode (view i) ((view i).children.map t.at)

variable {count count' : Nat} {view view' : Nat → View} {order order' : List Nat} {t t' : Table}

namespace ChildrenFirst

/-- An order with children first visits exactly the nodes there are. -/
lemma mem_iff (h : ChildrenFirst count view order) {i : Nat} : i ∈ order ↔ i < count :=
  h.perm.mem_iff.trans List.mem_range

/-- An order with children first visits no node twice. -/
lemma nodup (h : ChildrenFirst count view order) : order.Nodup := h.perm.nodup_iff.2 List.nodup_range

/-- The children of a node are among those visited. -/
lemma lt_of_mem_children (h : ChildrenFirst count view order) {i c : Nat} (hi : i < count)
    (hc : c ∈ (view i).children) : c < count := by
  have hlast := List.idxOf_lt_length_iff.2 (h.mem_iff.2 hi)
  exact h.mem_iff.1 (List.idxOf_lt_length_iff.1 (Nat.lt_trans (h.before i hi c hc) hlast))

/-- What holds of a node as soon as it holds of its children holds of every node. -/
lemma induction (h : ChildrenFirst count view order) {P : Nat → Prop}
    (step : ∀ i < count, (∀ c ∈ (view i).children, P c) → P i) : ∀ i < count, P i := by
  suffices hall : ∀ n, ∀ i < count, order.idxOf i < n → P i from
    fun i hi => hall _ i hi (Nat.lt_succ_self _)
  intro n
  induction n with
  | zero => exact fun i _ hlt => absurd hlt (Nat.not_lt_zero _)
  | succ n ih =>
    intro i hi hlt
    apply step i hi
    intro c hc
    have := h.before i hi c hc
    exact ih c (h.lt_of_mem_children hi hc) (by omega)

/-- At its turn a node has its children behind it and itself not before it. -/
lemma split (h : ChildrenFirst count view order) {i : Nat} (hi : i < count) :
    ∃ before after, order = before ++ i :: after ∧ i ∉ after ∧
      ∀ c ∈ (view i).children, c ∉ i :: after := by
  obtain ⟨before, after, heq⟩ := List.append_of_mem (h.mem_iff.2 hi)
  have hnodup := h.nodup
  rw [heq, List.nodup_append] at hnodup
  obtain ⟨-, hlater, hapart⟩ := hnodup
  refine ⟨before, after, heq, (List.nodup_cons.1 hlater).1, fun c hc => ?_⟩
  have hnot : i ∉ before := fun hm => hapart i hm i List.mem_cons_self rfl
  have hlt := h.before i hi c hc
  rw [heq, List.idxOf_append, List.idxOf_append, if_neg hnot, List.idxOf_cons_self] at hlt
  by_cases hmem : c ∈ before
  · exact fun hm => hapart c hmem c hm rfl
  · rw [if_neg hmem] at hlt
    omega

end ChildrenFirst

namespace Table

/-- Filling a table keeps its size. -/
lemma size_foldl_fill (l : List Nat) (t : Table) : (l.foldl (fill view) t).size = t.size := by
  induction l generalizing t with
  | nil => rfl
  | cons i l ih => rw [List.foldl_cons, ih, size_fill]

/-- A table has an entry for each node. -/
@[simp] lemma size_build : (build count view order).size = count := by
  rw [build, size_foldl_fill, Array.size_replicate]

/-- An entry changes at its own turn only. -/
lemma at_foldl_fill {l : List Nat} {j : Nat} (h : j ∉ l) : (l.foldl (fill view) t).at j = t.at j := by
  induction l generalizing t with
  | nil => rfl
  | cons i l ih =>
    rw [List.foldl_cons, ih fun hm => h (List.mem_cons_of_mem _ hm)]
    exact at_fill_of_ne fun heq => h (heq ▸ List.mem_cons_self)

/-- A table built with children first is settled everywhere. -/
lemma settled_build (h : ChildrenFirst count view order) : Settled count view (build count view order) := by
  refine ⟨fun _ hi _ => h.lt_of_mem_children hi, fun i hi => ?_⟩
  obtain ⟨before, after, heq, hafter, hbelow⟩ := h.split hi
  have hstep : ∀ j, j ∉ i :: after →
      (build count view order).at j = (before.foldl (fill view) (Array.replicate count .unknown)).at j :=
    fun j hj => by rw [build, heq, List.foldl_append, at_foldl_fill hj]
  rw [List.map_congr_left fun c hc => hstep c (hbelow c hc), build, heq, List.foldl_append,
    List.foldl_cons, at_foldl_fill hafter, at_fill_self]
  rwa [size_foldl_fill, Array.size_replicate]

end Table

namespace Unfolds

variable {is js : List Nat} {f g : Forest (String × String)}

/-- Nodes that all unfold do so together. -/
lemma exists_of_forall (h : ∀ i ∈ is, ∃ kids, Unfolds view (view i).children kids) :
    ∃ f, Unfolds view is f := by
  induction is with
  | nil => exact ⟨_, .nil⟩
  | cons i is ih =>
    obtain ⟨kids, hk⟩ := h i List.mem_cons_self
    obtain ⟨rest, hr⟩ := ih fun j hj => h j (List.mem_cons_of_mem _ hj)
    exact ⟨_, .cons hk hr⟩

/-- Every node unfolds to a tree. -/
lemma exists_single (h : ChildrenFirst count view order) {i : Nat} (hi : i < count) :
    ∃ f, Unfolds view [i] f := by
  obtain ⟨kids, hk⟩ := h.induction (P := fun i => ∃ kids, Unfolds view (view i).children kids)
    (fun _ _ => exists_of_forall) i hi
  exact ⟨_, .cons hk .nil⟩

/-- A settled table holds what the unfolded trees say. -/
lemma map_at (hset : Table.Settled count view t) (hf : Unfolds view is f)
    (his : ∀ i ∈ is, i < count) : is.map t.at = Subtree.ofRoots f := by
  induction hf with
  | nil => rfl
  | cons _ _ ihk ihr =>
    obtain ⟨hi, his⟩ := List.forall_mem_cons.1 his
    rw [List.map_cons, hset.at_eq _ hi, ihk (hset.child_lt _ hi), ihr his]
    rfl

/-- The size entered for a node is that of its tree. -/
lemma size_at (hset : Table.Settled count view t) {i : Nat} (hi : i < count)
    (hf : Unfolds view [i] f) : (t.at i).size = f.size := by
  have hsum := Subtree.sum_size_ofRoots f
  rw [← hf.map_at hset (by simpa using hi)] at hsum
  exact Nat.succ.inj hsum

/-- The height entered for a node is that of its tree. -/
lemma height_at (hset : Table.Settled count view t) {i : Nat} (hi : i < count)
    (hf : Unfolds view [i] f) : (t.at i).height = f.height := by
  have hmax := Subtree.max_height_ofRoots f
  rw [← hf.map_at hset (by simpa using hi)] at hmax
  exact (Nat.zero_max _).symm.trans hmax

end Unfolds

/-- What the shape digest sees of a node: the labels of names and literals are left out. -/
def withoutName (x : String × String) : String × String :=
  (x.1, if namingKinds.contains x.1 then "" else x.2)

/-- What is hashed for a node by a digest that sees `seen` of its kind and label. -/
def message (digest : Subtree → UInt64) (seen : String × String → String × String) (view : Nat → View)
    (t : Table) (i : Nat) : ByteArray :=
  encode (seen (view i).face).1 (seen (view i).face).2 ((view i).children.map fun c => digest (t.at c))

/-- Everything that is hashed for a table. -/
def messages (count : Nat) (view : Nat → View) (t : Table) : List ByteArray :=
  (List.range count).flatMap fun i =>
    [message (·.exact) id view t i, message (·.shape) withoutName view t i]

/-- No kind and no label of a tree holds the character that ends them in a message. -/
def AllNulFree (count : Nat) (view : Nat → View) : Prop :=
  ∀ i < count, NulFree (view i).kind ∧ NulFree (view i).label

instance (count : Nat) (view : Nat → View) : Decidable (AllNulFree count view) :=
  inferInstanceAs (Decidable (∀ i < count, NulFree (view i).kind ∧ NulFree (view i).label))

/-- The hash tells these messages apart. -/
def NoCollision (l : List ByteArray) : Prop :=
  ∀ m ∈ l, ∀ m' ∈ l, Blake3.hash m = Blake3.hash m' → m = m'

instance (l : List ByteArray) : Decidable (NoCollision l) :=
  inferInstanceAs (Decidable (∀ m ∈ l, ∀ m' ∈ l, Blake3.hash m = Blake3.hash m' → m = m'))

/-- A digest that is a hash of what it sees of the kind and the label, and of the same digests below. -/
structure Reads (digest : Subtree → UInt64) (seen : String × String → String × String) : Prop where
  ofNode : ∀ v below, digest (.ofNode v below) =
    Blake3.hash (encode (seen v.face).1 (seen v.face).2 (below.map digest))
  nulFree : ∀ x : String × String, NulFree x.1 → NulFree x.2 → NulFree (seen x).1 ∧ NulFree (seen x).2
  mem_messages : ∀ {count view t}, ∀ i < count, message digest seen view t i ∈ messages count view t

/-- The messages hashed: two for each node, exact and of the shape. -/
lemma mem_messages {m : ByteArray} : m ∈ messages count view t ↔
    ∃ i < count, m = message (·.exact) id view t i ∨ m = message (·.shape) withoutName view t i := by
  simp [messages]

/-- The exact digest reads the whole view. -/
lemma reads_exact : Reads (·.exact) id where
  ofNode _ _ := rfl
  nulFree _ hk hl := ⟨hk, hl⟩
  mem_messages i hi := mem_messages.2 ⟨i, hi, .inl rfl⟩

/-- The shape digest reads the view without its names. -/
lemma reads_shape : Reads (·.shape) withoutName where
  ofNode _ _ := rfl
  nulFree x hk hl := by
    refine ⟨hk, ?_⟩
    unfold withoutName
    split
    · exact List.not_mem_nil
    · exact hl
  mem_messages i hi := mem_messages.2 ⟨i, hi, .inr rfl⟩

section Digests

variable {digest : Subtree → UInt64} {seen : String × String → String × String} {i j : Nat}

/-- The digest entered for a node is the hash of its message. -/
lemma Reads.digest_at (hr : Reads digest seen) (hset : Table.Settled count view t) (hi : i < count) :
    digest (t.at i) = Blake3.hash (message digest seen view t i) := by
  rw [hset.at_eq i hi, hr.ofNode, List.map_map]
  rfl

/-- Nodes have one message if they look alike and the digests below them agree. -/
lemma Reads.message_eq_iff (hr : Reads digest seen)
    (hn : NulFree (view i).kind ∧ NulFree (view i).label)
    (hn' : NulFree (view' j).kind ∧ NulFree (view' j).label) :
    message digest seen view t i = message digest seen view' t' j ↔
      seen (view i).face = seen (view' j).face ∧
        ((view i).children.map fun c => digest (t.at c)) =
          (view' j).children.map fun c => digest (t'.at c) := by
  have hs := hr.nulFree (view i).face hn.1 hn.2
  have hs' := hr.nulFree (view' j).face hn'.1 hn'.2
  constructor
  · intro h
    obtain ⟨hkind, hlabel, hbelow⟩ := encode_injective hs.1 hs'.1 hs.2 hs'.2 h
    exact ⟨Prod.ext hkind hlabel, hbelow⟩
  · rintro ⟨hface, hbelow⟩
    rw [message, message, hface, hbelow]

/-- Two nodes have one digest if and only if they have one message. -/
lemma Reads.digest_eq_iff (hr : Reads digest seen) (hset : Table.Settled count view t)
    (hset' : Table.Settled count' view' t')
    (hc : NoCollision (messages count view t ++ messages count' view' t')) (hi : i < count)
    (hj : j < count') : digest (t.at i) = digest (t'.at j) ↔
      message digest seen view t i = message digest seen view' t' j := by
  rw [hr.digest_at hset hi, hr.digest_at hset' hj]
  constructor
  · exact hc _ (List.mem_append_left _ (hr.mem_messages i hi)) _
      (List.mem_append_right _ (hr.mem_messages j hj))
  · exact congrArg _

/-- Two lists of nodes have the same digests if and only if they unfold to forests that look alike. -/
lemma Unfolds.digests_eq_iff (hr : Reads digest seen) (hset : Table.Settled count view t)
    (hset' : Table.Settled count' view' t')
    (hn : AllNulFree count view) (hn' : AllNulFree count' view')
    (hc : NoCollision (messages count view t ++ messages count' view' t')) {is js : List Nat}
    {f g : Forest (String × String)} (hf : Unfolds view is f) (hg : Unfolds view' js g)
    (his : ∀ i ∈ is, i < count) (hjs : ∀ j ∈ js, j < count') :
    (is.map fun i => digest (t.at i)) = (js.map fun j => digest (t'.at j)) ↔ f.map seen = g.map seen := by
  induction hf generalizing js g with
  | nil =>
    cases hg with
    | nil => exact iff_of_true rfl rfl
    | cons => exact iff_of_false (by simp) (by simp [Forest.map])
  | @cons i is kids rest _ _ ihk ihr =>
    cases hg with
    | nil => exact iff_of_false (by simp) (by simp [Forest.map])
    | @cons j js kids' rest' hk' hr' =>
      obtain ⟨hi, his⟩ := List.forall_mem_cons.1 his
      obtain ⟨hj, hjs⟩ := List.forall_mem_cons.1 hjs
      -- The node's own digest says how it looks and what is below it, the others say what is beside it.
      rw [List.map_cons, List.map_cons, List.cons.injEq, hr.digest_eq_iff hset hset' hc hi hj,
        hr.message_eq_iff (hn i hi) (hn' j hj), ihk hk' (hset.child_lt i hi) (hset'.child_lt j hj),
        ihr hr' his hjs, Forest.map, Forest.map, Forest.cons.injEq, and_assoc]

/-- One node of each tree. -/
lemma Unfolds.digest_eq_iff (hr : Reads digest seen) (hset : Table.Settled count view t)
    (hset' : Table.Settled count' view' t')
    (hn : AllNulFree count view) (hn' : AllNulFree count' view')
    (hc : NoCollision (messages count view t ++ messages count' view' t')) (hi : i < count)
    (hj : j < count') {f g : Forest (String × String)} (hf : Unfolds view [i] f)
    (hg : Unfolds view' [j] g) : digest (t.at i) = digest (t'.at j) ↔ f.map seen = g.map seen := by
  have hone := hf.digests_eq_iff hr hset hset' hn hn' hc hg (by simpa using hi) (by simpa using hj)
  rwa [List.map_singleton, List.map_singleton, List.singleton_inj] at hone

end Digests

/-- Every order fills the table alike. -/
lemma Table.build_eq_build (h : ChildrenFirst count view order) (h' : ChildrenFirst count view order') :
    Table.build count view order' = Table.build count view order := by
  have hat : ∀ i < count, (Table.build count view order').at i = (Table.build count view order).at i := by
    intro i hi
    obtain ⟨f, hf⟩ := Unfolds.exists_single h hi
    have hlt : ∀ j ∈ [i], j < count := by simpa using hi
    have hone := (hf.map_at (Table.settled_build h') hlt).trans
      (hf.map_at (Table.settled_build h) hlt).symm
    exact (List.cons.inj hone).1
  apply Array.ext
  · rw [Table.size_build, Table.size_build]
  · intro i hi hi'
    rw [Table.size_build] at hi
    simpa [Table.at, hi] using hat i hi

/-- Two nodes have one exact digest if and only if their subtrees are equal, and one shape digest if and
only if they are equal but for the labels of names and literals. The order of the turns does not matter,
and the size and the height are those of the subtree. -/
theorem digests_identify (h : ChildrenFirst count view order) (h' : ChildrenFirst count' view' order')
    (hn : AllNulFree count view) (hn' : AllNulFree count' view')
    (hc : NoCollision (messages count view (.build count view order) ++
      messages count' view' (.build count' view' order'))) :
    (∀ other, ChildrenFirst count view other →
      Table.build count view other = Table.build count view order) ∧
    (∀ i < count, ∃ f, Unfolds view [i] f ∧ ((Table.build count view order).at i).size = f.size ∧
      ((Table.build count view order).at i).height = f.height) ∧
    ∀ i < count, ∀ j < count', ∀ f g, Unfolds view [i] f → Unfolds view' [j] g →
      (((Table.build count view order).at i).exact = ((Table.build count' view' order').at j).exact ↔
        f = g) ∧
      (((Table.build count view order).at i).shape = ((Table.build count' view' order').at j).shape ↔
        f.map withoutName = g.map withoutName) := by
  have hset := Table.settled_build h
  have hset' := Table.settled_build h'
  refine ⟨fun _ => Table.build_eq_build h, fun i hi => ?_, fun i hi j hj f g hf hg => ?_⟩
  · obtain ⟨f, hf⟩ := Unfolds.exists_single h hi
    exact ⟨f, hf, hf.size_at hset hi, hf.height_at hset hi⟩
  · have hexact := hf.digest_eq_iff reads_exact hset hset' hn hn' hc hi hj hg
    rw [Forest.map_id, Forest.map_id] at hexact
    exact ⟨hexact, hf.digest_eq_iff reads_shape hset hset' hn hn' hc hi hj hg⟩

/-- A statement that names something: the statement and the name. -/
def naming (name : String) : Nat → View
  | 0 => ⟨"expression_statement", "", [1]⟩
  | _ => ⟨"identifier", name, []⟩

/-- Two names of one kind differ in their exact digests and share their shape. -/
theorem digests_identify_naming :
    ((Table.build 2 (naming "a") [1, 0]).at 0).exact ≠ ((Table.build 2 (naming "b") [1, 0]).at 0).exact ∧
    ((Table.build 2 (naming "a") [1, 0]).at 0).shape = ((Table.build 2 (naming "b") [1, 0]).at 0).shape := by
  have htree : ∀ name, Unfolds (naming name) [0]
      (.cons ("expression_statement", "") (.cons ("identifier", name) .nil .nil) .nil) :=
    fun _ => .cons (.cons .nil .nil) .nil
  obtain ⟨-, -, hdigests⟩ := @digests_identify 2 2 (naming "a") (naming "b") [1, 0] [1, 0]
    ⟨by decide, by decide⟩ ⟨by decide, by decide⟩ (by decide) (by decide) (by decide +kernel)
  obtain ⟨hexact, hshape⟩ := hdigests 0 (by decide) 0 (by decide) _ _ (htree "a") (htree "b")
  exact ⟨fun heq => absurd (hexact.1 heq) (by decide), hshape.2 (by decide)⟩

section Program

variable {a b : Ast}

/-- What the digests see of the nodes of a program. -/
def viewOf (a : Ast) (i : Nat) : View := ⟨a.kind i, a.label i, a.children i⟩

/-- The order in which the nodes of a program have their turns. -/
lemma childrenFirst_postorder (a : Ast) : ChildrenFirst a.size (viewOf a) a.postorder where
  perm := by
    refine (List.perm_ext_iff_of_nodup (Forest.nodup_postorder _ _) List.nodup_range).2 fun i => ?_
    rw [Forest.mem_postorder, List.mem_range, Ast.size_eq]
    omega
  before i hi c hc := by
    obtain ⟨x, kids, hx⟩ := Ast.exists_sub? hi
    rw [viewOf, Ast.children_of_sub? hx] at hc
    have hmem := Forest.mem_rootNumbers hc
    have := Forest.idxOf_postorder_lt (n := 0) (j := c) hx (by omega) (by omega)
    rwa [Nat.zero_add] at this

/-- The roots of a forest unfold to its outline where the views are those of its nodes. -/
lemma unfolds_rootNumbers {f : Forest Node} {n : Nat}
    (h : ∀ k x kids, f.sub? k = some (x, kids) → viewOf a (n + k) =
      ⟨x.kind, x.label, kids.rootNumbers (n + k + 1)⟩) :
    Unfolds (viewOf a) (f.rootNumbers n) (f.map Node.face) := by
  induction f generalizing n with
  | nil => exact .nil
  | cons x kids rest ihk ihr =>
    have hroot := h 0 x kids rfl
    rw [Nat.add_zero] at hroot
    rw [Forest.rootNumbers, Forest.map, show x.face = (viewOf a n).face by rw [hroot]; rfl]
    refine .cons ?_ (ihr fun k y below hk => ?_)
    · rw [hroot]
      refine ihk fun k y below hk => ?_
      rw [show n + 1 + k = n + (k + 1) by omega]
      exact h _ y below (Forest.sub?_of_kids hk)
    · rw [show n + 1 + kids.size + k = n + (1 + kids.size + k) by omega]
      exact h _ y below (Forest.sub?_of_rest x hk)

/-- The view of a node, read off its subtree. -/
lemma viewOf_of_sub? {i : Nat} {x : Node} {kids : Forest Node} (h : a.tree.sub? i = some (x, kids)) :
    viewOf a i = ⟨x.kind, x.label, kids.rootNumbers (i + 1)⟩ := by
  rw [viewOf, Ast.kind_of_sub? h, Ast.label_of_sub? h, Ast.children_of_sub? h]

/-- A node unfolds to the outline of its subtree. -/
lemma unfolds_of_sub? {i : Nat} {x : Node} {kids : Forest Node} (h : a.tree.sub? i = some (x, kids)) :
    Unfolds (viewOf a) [i] (.cons x.face (kids.map Node.face) .nil) := by
  have hview := viewOf_of_sub? h
  rw [show x.face = (viewOf a i).face by rw [hview]; rfl]
  refine .cons ?_ .nil
  rw [hview]
  refine unfolds_rootNumbers fun k y below hk => viewOf_of_sub? ?_
  rw [Forest.sub?_below h (Forest.lt_of_sub? hk), hk]

/-- Two programs are told apart if the hash does not collide on what is hashed for them. -/
theorem tellsApart_of_noCollision (hn : AllNulFree a.size (viewOf a))
    (hn' : AllNulFree b.size (viewOf b))
    (hc : NoCollision (messages a.size (viewOf a) (.ofAst a) ++ messages b.size (viewOf b) (.ofAst b))) :
    TellsApart a b := by
  intro s hs d hd heq
  obtain ⟨x, kids, hx⟩ := Ast.exists_sub? hs
  obtain ⟨y, below, hy⟩ := Ast.exists_sub? hd
  have htree := ((unfolds_of_sub? hx).digest_eq_iff reads_exact
    (Table.settled_build (childrenFirst_postorder a)) (Table.settled_build (childrenFirst_postorder b))
    hn hn' hc hs hd (unfolds_of_sub? hy)).1 heq
  rw [Forest.map_id, Forest.map_id] at htree
  obtain ⟨hface, hkids, -⟩ := Forest.cons.inj htree
  rw [Ast.outline_of_sub? hx, Ast.outline_of_sub? hy, hface, hkids]

end Program

end Mend.Digest
