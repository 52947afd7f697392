import Mend.Proofs.Matching.Safe

/-!
# What is paired stays paired

A step of the matching pairs free nodes or does nothing. So whatever the phases do from one matching to a
later one is pairing nodes, one pair after the other (`Linked`). Hence no phase takes a pair apart
(`Linked.keeps`) or changes a table's size, and a node that is not up for pairing keeps its partner or
stays free (`Linked.toRepaired?_eq`). In particular the pairs that the first phase finds on its way are pairs
of the matching (`keeps_later`).
-/

namespace Mend.Matching

variable {m m' m'' : Matching} {t : Trees} {ι : Type} {s d x : Nat} {P Q : Nat → Nat → Prop}

/-- The second matching has all pairs of the first. -/
def Keeps (m m' : Matching) : Prop := ∀ s d, m.toRepaired? s = some d → m'.toRepaired? s = some d

/-- Every mapping keeps its own links. -/
lemma Keeps.refl (m : Matching) : Keeps m m := fun _ _ h => h

/-- Keeping links is transitive. -/
lemma Keeps.trans (h : Keeps m m') (h' : Keeps m' m'') : Keeps m m'' :=
  fun s d hp => h' s d (h s d hp)

/-- Who is free in the end was free before. -/
lemma Keeps.toRepaired?_eq_none (h : Keeps m m') {s : Nat} (hs : m'.toRepaired? s = none) :
    m.toRepaired? s = none := by
  cases hp : m.toRepaired? s with
  | none => rfl
  | some d => exact absurd (hs.symm.trans (h s d hp)) (Option.some_ne_none d).symm

/-- A node free afterwards was free before. -/
lemma Keeps.toBuggy?_eq_none (h : Keeps m m') {d : Nat} (hd : m'.toBuggy? d = none) :
    m.toBuggy? d = none := by
  cases hp : m.toBuggy? d with
  | none => rfl
  | some s =>
    have hp := m'.toRepaired?_eq_some_iff.1 (h s d (m.toRepaired?_eq_some_iff.2 hp))
    exact absurd (hd.symm.trans hp) (Option.some_ne_none s).symm

/-- A pass whose every step keeps the links keeps them as a whole. -/
lemma keeps_foldl {f : Matching → ι → Matching} (h : ∀ m x, Keeps m (f m x)) (l : List ι)
    (m : Matching) : Keeps m (l.foldl f m) := by
  induction l generalizing m with
  | nil => exact .refl m
  | cons x l ih => exact (h m x).trans (ih (f m x))

/-- Linking two nodes keeps the links there are. -/
lemma keeps_link (m : Matching) (s d : Nat) : Keeps m (m.link s d) := by
  by_cases hf : m.isFree s d = true
  · intro x y hp
    have hne : x ≠ s := by
      rintro rfl
      rw [(isFree_iff.1 hf).2.2.1] at hp
      cases hp
    rw [toRepaired?_link hf, if_neg hne, hp]
  · rw [link_of_not_isFree hf]
    exact .refl m

/-- The second matching comes from the first by pairing nodes that `P` allows to pair. -/
inductive Linked (P : Nat → Nat → Prop) (m : Matching) : Matching → Prop
  | refl : Linked P m m
  | link {m' : Matching} {s d : Nat} (h : Linked P m m') (hp : P s d) : Linked P m (m'.link s d)

/-- Any two nodes may be paired. -/
def AnyPair : Nat → Nat → Prop := fun _ _ => True

namespace Linked

/-- Two passes that only link such pairs do so one after the other. -/
lemma trans (h : Linked P m m') (h' : Linked P m' m'') : Linked P m m'' := by
  induction h' with
  | refl => exact h
  | link _ hp ih => exact ih.link hp

/-- A pass that only links such pairs only links pairs of any wider sort. -/
lemma mono (hPQ : ∀ s d, P s d → Q s d) (h : Linked P m m') : Linked Q m m' := by
  induction h with
  | refl => exact .refl
  | link _ hp ih => exact ih.link (hPQ _ _ hp)

/-- Whatever a pass links, it only links. -/
lemma any (h : Linked P m m') : Linked AnyPair m m' := h.mono fun _ _ _ => trivial

/-- A pass that only links keeps the links there are. -/
lemma keeps (h : Linked P m m') : Keeps m m' := by
  induction h with
  | refl => exact .refl m
  | link _ _ ih => exact ih.trans (keeps_link _ _ _)

/-- Linking never changes how many nodes the original has. -/
lemma forward_size (h : Linked P m m') : m'.forward.size = m.forward.size := by
  induction h with
  | refl => rfl
  | link _ _ ih => rw [forward_size_link, ih]

/-- Linking never changes how many nodes the repaired tree has. -/
lemma backward_size (h : Linked P m m') : m'.backward.size = m.backward.size := by
  induction h with
  | refl => rfl
  | link _ _ ih => rw [backward_size_link, ih]

/-- A node that may not be paired is as it was. -/
lemma toRepaired?_eq (h : Linked P m m') (hx : ∀ d, ¬ P x d) : m'.toRepaired? x = m.toRepaired? x := by
  induction h with
  | refl => rfl
  | @link m' s d _ hp ih =>
    rw [← ih]
    by_cases hf : m'.isFree s d = true
    · rw [toRepaired?_link hf, if_neg]
      rintro rfl
      exact hx d hp
    · rw [link_of_not_isFree hf]

/-- Steps that pair nodes, one after the other. -/
lemma foldl {f : Matching → ι → Matching} {l : List ι} (h : ∀ x ∈ l, ∀ m, Linked P m (f m x))
    (m : Matching) : Linked P m (l.foldl f m) := by
  induction l generalizing m with
  | nil => exact .refl
  | cons x l ih =>
    have hrest := ih (fun y hy => h y (List.mem_cons_of_mem x hy)) (f m x)
    exact (h x List.mem_cons_self m).trans hrest

/-- Linking two subtrees links their nodes pairwise. -/
lemma linkSubtrees {size : Nat} (h : ∀ k < size, P (s + k) (d + k)) (m : Matching) :
    Linked P m (m.linkSubtrees s d size) :=
  .foldl (fun k hk _ => .link .refl (h k (List.mem_range.1 hk))) m

end Linked

/-- Linking two subtrees keeps the links there are. -/
lemma keeps_linkSubtrees (m : Matching) (s d size : Nat) : Keeps m (m.linkSubtrees s d size) :=
  (Linked.linkSubtrees (P := AnyPair) (fun _ _ => trivial) m).keeps

namespace Trees

/-- Linking a twin only links. -/
lemma linked_linkTwin (t : Trees) (m : Matching) (s : Nat) : Linked AnyPair m (t.linkTwin m s) := by
  rcases linkTwin_cases t m s with ⟨d, -, -, -, he⟩ | ⟨-, he⟩
  · rw [he]
    exact .linkSubtrees (fun _ _ => trivial) m
  · rw [he]
    exact .refl

/-- Linking a twin keeps the links there are. -/
lemma keeps_linkTwin (t : Trees) (m : Matching) (s : Nat) : Keeps m (t.linkTwin m s) :=
  (t.linked_linkTwin m s).keeps

/-- The top-down phase only links. -/
lemma linked_topDown (t : Trees) (m : Matching) : Linked AnyPair m (t.topDown m) :=
  .foldl (fun s _ m => t.linked_linkTwin m s) m

/-- Linking the roots links no other pair. -/
lemma linked_linkRoots (t : Trees) (m : Matching) :
    Linked (fun s d => s = 0 ∧ d = 0) m (t.linkRoots m) := by
  unfold linkRoots
  split
  · next s d hs hd =>
    split
    · exact .link .refl ⟨(root?_eq_some hs).1, (root?_eq_some hd).1⟩
    · exact .refl
  · exact .refl

/-- Linking anchors only links. -/
lemma linked_linkAnchors (t : Trees) (m : Matching) : Linked AnyPair m (t.linkAnchors m) :=
  .foldl (fun _ _ _ => .link .refl trivial) m

/-- Linking an inner node only links. -/
lemma linked_linkInner (t : Trees) (m : Matching) (s : Nat) : Linked AnyPair m (t.linkInner m s) := by
  rcases linkInner_cases t m s with ⟨c, -, -, -, -, he⟩ | ⟨-, he⟩
  · rw [he]
    exact .link .refl trivial
  · rw [he]
    exact .refl

/-- Recovery of an equal child only links nodes below that child. -/
lemma linked_recoverEqual (t : Trees) (d : Nat) (m : Matching) {c : Nat} (hc : ∀ k e, P (c + k) e) :
    Linked P m (t.recoverEqual d m c) := by
  rcases recoverEqual_cases t d m c with ⟨e, -, -, -, he⟩ | ⟨-, he⟩
  · rw [he]
    exact .linkSubtrees (fun k _ => hc k _) m
  · rw [he]
    exact .refl

/-- Recovery of a child of one label links no other child. -/
lemma linked_recoverAlike (t : Trees) (d : Nat) (m : Matching) {c : Nat} (hc : ∀ e, P c e) :
    Linked P m (t.recoverAlike d m c) := by
  rcases recoverAlike_cases t d m c with ⟨e, -, -, -, -, he⟩ | ⟨-, he⟩
  · rw [he]
    exact .link .refl (hc e)
  · rw [he]
    exact .refl

/-- Recovery of the only child of a kind links no other child. -/
lemma linked_recoverLone (t : Trees) (old new : List Nat) (m : Matching) {c : Nat} (hc : ∀ e, P c e) :
    Linked P m (t.recoverLone old new m c) := by
  rcases recoverLone_cases t old new m c with ⟨y, e, -, -, -, he⟩ | ⟨-, he⟩
  · rw [he]
    exact .link .refl (hc e)
  · rw [he]
    exact .refl

/-- The turn of a node in the last phase pairs nodes behind it. -/
lemma linked_recoverBelow (t : Trees) (m : Matching) (s : Nat) :
    Linked (fun x _ => s < x) m (t.recoverBelow m s) := by
  have hlt : ∀ (m : Matching), ∀ c ∈ t.freeOld m s, s < c :=
    fun m c hc => (Syntax.Ast.mem_children (mem_freeOld.1 hc).1).1
  unfold recoverBelow
  cases m.toRepaired? s with
  | none => exact .refl
  | some d =>
    dsimp only
    have hequal : Linked (fun x _ => s < x) m ((t.freeOld m s).foldl (t.recoverEqual d) m) :=
      .foldl (fun c hc m' => t.linked_recoverEqual d m' fun k _ => Nat.lt_add_right k (hlt m c hc)) m
    refine hequal.trans ?_
    generalize (t.freeOld m s).foldl (t.recoverEqual d) m = m
    have halike : Linked (fun x _ => s < x) m ((t.freeOld m s).foldl (t.recoverAlike d) m) :=
      .foldl (fun c hc m' => t.linked_recoverAlike d m' fun _ => hlt m c hc) m
    refine halike.trans ?_
    generalize (t.freeOld m s).foldl (t.recoverAlike d) m = m
    exact .foldl (fun c hc m' => t.linked_recoverLone _ _ m' fun _ => hlt m c hc) m

/-- The bottom-up phase only links. -/
lemma linked_bottomUp (t : Trees) (m : Matching) : Linked AnyPair m (t.bottomUp m) :=
  .foldl (fun s _ m => t.linked_linkInner m s) m

/-- Recovery only links. -/
lemma linked_recover (t : Trees) (m : Matching) : Linked AnyPair m (t.recover m) :=
  .foldl (fun s _ m => (t.linked_recoverBelow m s).any) m

/-- The phases behind the first pair further nodes. -/
lemma linked_later (t : Trees) (m : Matching) :
    Linked AnyPair m (t.recover (t.bottomUp (t.linkAnchors (t.linkRoots m)))) :=
  (t.linked_linkRoots m).any.trans <| (t.linked_linkAnchors _).trans <|
    (t.linked_bottomUp _).trans (t.linked_recover _)

/-- What the phases before the last pair. -/
lemma linked_earlier (t : Trees) (m : Matching) :
    Linked AnyPair m (t.bottomUp (t.linkAnchors (t.linkRoots (t.topDown m)))) :=
  (t.linked_topDown m).trans <| (t.linked_linkRoots _).any.trans <|
    (t.linked_linkAnchors _).trans (t.linked_bottomUp _)

/-- The phases behind the first keep what it has paired. -/
lemma keeps_later (t : Trees) (m : Matching) :
    Keeps m (t.recover (t.bottomUp (t.linkAnchors (t.linkRoots m)))) := (t.linked_later m).keeps

/-- Two programs that are not empty are matched in all phases. -/
lemma matching_of_pos (ha : 0 < t.buggy.size) (hb : 0 < t.repaired.size) :
    t.matching = t.recover (t.bottomUp (t.linkAnchors (t.linkRoots
      (t.topDown (.empty t.buggy.size t.repaired.size))))) := by
  have hne : (t.buggy.isEmpty || t.repaired.isEmpty) = false := by
    simpa [Syntax.Ast.isEmpty] using And.intro (Nat.ne_of_gt ha) (Nat.ne_of_gt hb)
  rw [matching, hne]
  rfl

/-- Nothing is paired, or the last phase has had its turn. -/
lemma matching_cases (t : Trees) : t.matching = .empty t.buggy.size t.repaired.size ∨
    ∃ m, Linked AnyPair (.empty t.buggy.size t.repaired.size) m ∧ t.matching = t.recover m := by
  unfold matching
  dsimp only
  split
  · exact .inl rfl
  · exact .inr ⟨_, t.linked_earlier _, rfl⟩

/-- Subtrees that are in order already, the tallest first. -/
lemma matching_eq {l : List Nat}
    (hl : (t.buggy.ids.filter fun s => leastHeight ≤ (t.old s).height) = l)
    (hs : l.Pairwise fun x y => (t.old y).height ≤ (t.old x).height) :
    t.matching =
      let start := Matching.empty t.buggy.size t.repaired.size
      if t.buggy.isEmpty || t.repaired.isEmpty then start
      else t.recover (t.bottomUp (t.linkAnchors (t.linkRoots (l.foldl t.linkTwin start)))) := by
  have htall : t.tallestFirst = l := by
    rw [tallestFirst, hl]
    exact List.mergeSort_of_pairwise (by simpa using hs)
  rw [matching, topDown, htall]

end Trees

/-- A matching with a place for every node of two trees. -/
structure Sized (t : Trees) (m : Matching) : Prop where
  forward_size : m.forward.size = t.buggy.size
  backward_size : m.backward.size = t.repaired.size

namespace Sized

/-- The mapping at the start has the sizes of the two trees. -/
lemma start (t : Trees) : Sized t (.empty t.buggy.size t.repaired.size) :=
  ⟨(fits_empty t).forward_size, (fits_empty t).backward_size⟩

/-- Linking keeps the sizes. -/
lemma linked (h : Sized t m) (hl : Linked P m m') : Sized t m' :=
  ⟨hl.forward_size.trans h.forward_size, hl.backward_size.trans h.backward_size⟩

/-- With the sizes right, a pair is free iff both nodes exist and neither is linked. -/
lemma isFree_iff (h : Sized t m) : m.isFree s d = true ↔
    s < t.buggy.size ∧ d < t.repaired.size ∧ m.toRepaired? s = none ∧ m.toBuggy? d = none := by
  rw [Matching.isFree_iff, h.forward_size, h.backward_size]

end Sized

end Mend.Matching
