import Mend.Proofs.Digest.Outline
import Mend.Proofs.Matching.Link
import Mend.Proofs.Selection

/-!
# The matching never breaks off

Every phase is a fold of one small step over nodes. A step is `Safe` if it keeps what fits the two trees
and its checked form does not break off; then so does a fold of safe steps (`Safe.foldl`), and from phase
to phase the whole matching (`safe_matching`).

Three steps pair nodes without looking at them again. In `linkInner` nothing happens in between. In
`recoverAlike` the children that are left in the list are still free, because the list names none twice
(`alike_foldl`). In `recoverLone` the children of the two sides are moreover the only ones of their kind,
so that two pairs never meet in a node (`lone_foldl`).
-/

namespace Mend.Matching

open Digest (TellsApart)
open Syntax (Ast)

variable {t : Trees} {ι : Type} {s d : Nat}

/-- A step that keeps what fits, and whose checked form does not break off. -/
def Safe (t : Trees) (step? : Matching → Option Matching) (step : Matching → Matching) : Prop :=
  ∀ m, Fits t m → step? m = some (step m) ∧ Fits t (step m)

/-- Doing nothing is safe. -/
lemma Safe.refl (t : Trees) : Safe t some id := fun _ h => ⟨rfl, h⟩

/-- Two safe passes in a row are safe. -/
lemma Safe.comp {f? g? : Matching → Option Matching} {f g : Matching → Matching}
    (hf : Safe t f? f) (hg : Safe t g? g) : Safe t (fun m => f? m >>= g?) (fun m => g (f m)) := by
  intro m hm
  obtain ⟨he, hfit⟩ := hf m hm
  dsimp only
  rw [he]
  exact hg _ hfit

/-- A pass over a list is safe if each of its steps is. -/
lemma Safe.foldl {f? : Matching → ι → Option Matching} {f : Matching → ι → Matching} {l : List ι}
    (h : ∀ x ∈ l, Safe t (f? · x) (f · x)) : Safe t (l.foldlM f? ·) (l.foldl f ·) := by
  induction l with
  | nil => exact Safe.refl t
  | cons x l ih =>
    simp only [List.foldlM_cons, List.foldl_cons]
    exact (h x List.mem_cons_self).comp (ih fun y hy => h y (List.mem_cons_of_mem _ hy))

/-- Linking a free pair of one kind is safe. -/
lemma safe_link {m : Matching} (hm : Fits t m) (hf : m.isFree s d = true)
    (hk : t.buggy.kind s = t.repaired.kind d) :
    m.link? s d = some (m.link s d) ∧ Fits t (m.link s d) :=
  ⟨if_pos hf, hm.link hk⟩

/-- Two nodes of one kind can be paired behind a look at their partners. -/
lemma safe_linkFree (hs : s < t.buggy.size) (hd : d < t.repaired.size)
    (hk : t.buggy.kind s = t.repaired.kind d) : Safe t (·.linkFree? s d) (·.link s d) := by
  intro m hm
  by_cases hfree : m.toRepaired? s = none ∧ m.toBuggy? d = none
  · have hf := hm.isFree_iff.2 ⟨hs, hd, hfree⟩
    simp only [linkFree?, hfree.1, hfree.2, Option.isNone_none, Bool.and_self, if_true]
    exact safe_link hm hf hk
  · have hf : ¬ m.isFree s d = true := fun h => hfree (hm.isFree_iff.1 h).2.2
    simp only [link_of_not_isFree hf]
    refine ⟨if_neg ?_, hm⟩
    simpa using hfree

namespace Trees

variable {a b : Ast}

/-- Nodes of one digest have one outline below them. -/
lemma outline_of_sameDigest (h : TellsApart a b) (hs : s < a.size) (hd : d < b.size)
    (he : (Trees.of a b).sameDigest s d = true) : a.outline.sub? s = b.outline.sub? d :=
  h s hs d hd (beq_iff_eq.1 he)

/-- Equal subtrees can be paired node by node: the places on either side are those of nodes, and each
time of one kind. -/
lemma safe_linkSubtrees (h : TellsApart a b) (hs : s < a.size) (hd : d < b.size)
    (he : (Trees.of a b).sameDigest s d = true) :
    Safe (Trees.of a b) (·.linkSubtrees? s d ((Trees.of a b).old s).size)
      (·.linkSubtrees s d ((Trees.of a b).old s).size) := by
  have ho := outline_of_sameDigest h hs hd he
  obtain ⟨x, kids, hx⟩ := Ast.exists_sub? hs
  obtain ⟨y, below, hy⟩ := Ast.exists_sub? hd
  have hsize : ((Trees.of a b).old s).size = kids.size + 1 := Digest.size_at_ofAst hx
  have hkids := Ast.size_eq_of_outline ho hx hy
  rw [hsize]
  apply Safe.foldl
  intro k hk
  have hk : k < kids.size + 1 := List.mem_range.1 hk
  have hsk : s + k < a.size := by
    have := Ast.add_lt_size hx
    omega
  have hdk : d + k < b.size := by
    have := Ast.add_lt_size hy
    omega
  exact safe_linkFree hsk hdk (Ast.kind_eq_of_outline (Ast.outline_add ho hx (by omega)) hsk).1

/-! ## Equal subtrees, roots, named declarations -/

/-- The twins of a node: free nodes of its digest, tall enough. -/
lemma mem_twins {m : Matching} : d ∈ t.twins m s ↔ d < t.repaired.size ∧
    leastHeight ≤ (t.new d).height ∧ t.sameDigest s d = true ∧ m.toBuggy? d = none := by
  simp only [twins, List.mem_filter, Ast.mem_ids, Bool.and_eq_true, Option.isNone_iff_eq_none,
    decide_eq_true_eq, and_assoc]

/-- The nodes tall enough are all visited. -/
lemma mem_tallestFirst : s ∈ t.tallestFirst ↔ s < t.buggy.size ∧ leastHeight ≤ (t.old s).height := by
  simp only [tallestFirst, List.mem_mergeSort, List.mem_filter, Ast.mem_ids, decide_eq_true_eq]

/-- The nodes are visited from the tallest down. -/
lemma pairwise_tallestFirst (t : Trees) :
    t.tallestFirst.Pairwise fun x y => (t.old y).height ≤ (t.old x).height := by
  have hsorted := @List.pairwise_mergeSort _ (fun x y => decide ((t.old y).height ≤ (t.old x).height))
    (by simpa using fun _ _ _ h h' => Nat.le_trans h' h) (by simpa using fun _ _ => Nat.le_total _ _)
    (t.buggy.ids.filter fun s => leastHeight ≤ (t.old s).height)
  exact hsorted.imp of_decide_eq_true

/-- A buggy subtree is paired with one of its twins, or nothing happens. -/
lemma linkTwin_cases (t : Trees) (m : Matching) (s : Nat) :
    (∃ d ∈ t.twins m s, m.toRepaired? s = none ∧
      t.linkTwin? m s = m.linkSubtrees? s d (t.old s).size ∧
      t.linkTwin m s = m.linkSubtrees s d (t.old s).size) ∨
    (t.linkTwin? m s = some m ∧ t.linkTwin m s = m) := by
  unfold linkTwin? linkTwin
  cases hs : m.toRepaired? s with
  | some d => exact .inr ⟨rfl, rfl⟩
  | none =>
    cases hd : best? (fun x y => t.rank m s x < t.rank m s y) (t.twins m s) with
    | some d => exact .inl ⟨d, mem_of_best? hd, rfl, rfl, rfl⟩
    | none => exact .inr ⟨rfl, rfl⟩

/-- The top-down phase is safe. -/
lemma safe_topDown (h : TellsApart a b) : Safe (of a b) (of a b).topDown? (of a b).topDown := by
  apply Safe.foldl
  intro s hs m hm
  dsimp only
  have hs := (mem_tallestFirst.1 hs).1
  rcases linkTwin_cases (of a b) m s with ⟨d, hd, -, he?, he⟩ | ⟨he?, he⟩
  · rw [he?, he]
    obtain ⟨hlt, -, hsame, -⟩ := mem_twins.1 hd
    exact safe_linkSubtrees h hs hlt hsame m hm
  · rw [he?, he]
    exact ⟨rfl, hm⟩

/-- The root is the first node. -/
lemma root?_eq_some {a : Ast} {i : Nat} (h : a.root? = some i) : i = 0 ∧ i < a.size := by
  unfold Ast.root? at h
  split at h
  · cases h
  · cases h
    omega

/-- Linking the roots is safe. -/
lemma safe_linkRoots (t : Trees) : Safe t t.linkRoots? t.linkRoots := by
  intro m hm
  unfold linkRoots? linkRoots
  cases hs : t.buggy.root? with
  | none => exact ⟨rfl, hm⟩
  | some s =>
    cases hd : t.repaired.root? with
    | none => exact ⟨rfl, hm⟩
    | some d =>
      dsimp only
      by_cases hk : t.buggy.kind s = t.repaired.kind d
      · rw [if_pos (by simpa using hk), if_pos (by simpa using hk)]
        exact safe_linkFree (root?_eq_some hs).2 (root?_eq_some hd).2 hk m hm
      · rw [if_neg (by simpa using hk), if_neg (by simpa using hk)]
        exact ⟨rfl, hm⟩

/-- The anchors of a tree: free nodes of an anchor kind, under their name. -/
lemma mem_anchorsOf {a : Ast} {free : Nat → Bool} {key : Anchor} {i : Nat} :
    (key, i) ∈ anchorsOf a free ↔ i < a.size ∧ anchorKinds.contains (a.kind i) = true ∧
      free i = true ∧ a.kind i = key.kind ∧ nameText? a i = some key.name := by
  simp only [anchorsOf, List.mem_filterMap, Ast.mem_ids]
  constructor
  · rintro ⟨j, hj, heq⟩
    split at heq
    · next hanchor =>
      obtain ⟨name, hname, hpair⟩ := Option.map_eq_some_iff.1 heq
      cases hpair
      exact ⟨hj, (Bool.and_eq_true_iff.1 hanchor).1, (Bool.and_eq_true_iff.1 hanchor).2, rfl, hname⟩
    · cases heq
  · rintro ⟨hi, hanchor, hfree, hkind, hname⟩
    refine ⟨i, hi, ?_⟩
    rw [if_pos (Bool.and_eq_true_iff.2 ⟨hanchor, hfree⟩), hname, hkind]
    rfl

/-- The only anchor under a key is one of the anchors. -/
lemma mem_of_only? {anchors : List (Anchor × Nat)} {key : Anchor} {i : Nat}
    (h : only? anchors key = some i) : (key, i) ∈ anchors := by
  simp only [only?] at h
  split at h
  · next key' j hf =>
    cases h
    have hmem : (key', i) ∈ anchors.filter (·.1 == key) := by rw [hf]; exact List.mem_cons_self
    obtain ⟨hin, hkey⟩ := List.mem_filter.1 hmem
    exact beq_iff_eq.1 hkey ▸ hin
  · cases h

/-- Unique anchors are nodes of one kind. -/
lemma mem_uniqueAnchors {m : Matching} (h : (s, d) ∈ t.uniqueAnchors m) :
    s < t.buggy.size ∧ d < t.repaired.size ∧ t.buggy.kind s = t.repaired.kind d := by
  simp only [uniqueAnchors, List.mem_filterMap] at h
  obtain ⟨⟨key, s'⟩, hold, heq⟩ := h
  split at heq
  · next hnew =>
    cases heq
    obtain ⟨hs, -, -, hks, -⟩ := mem_anchorsOf.1 hold
    obtain ⟨hd, -, -, hkd, -⟩ := mem_anchorsOf.1 (mem_of_only? hnew)
    exact ⟨hs, hd, hks.trans hkd.symm⟩
  · cases heq

/-- Linking anchors is safe. -/
lemma safe_linkAnchors (t : Trees) : Safe t t.linkAnchors? t.linkAnchors := by
  intro m hm
  refine Safe.foldl (fun p hp => ?_) m hm
  obtain ⟨hs, hd, hk⟩ := mem_uniqueAnchors hp
  exact safe_linkFree hs hd hk

/-! ## From the leaves upwards -/

/-- A candidate is a free node of the same kind. -/
lemma mem_candidates {m : Matching} {c : Candidate} (h : c ∈ t.candidates m s) :
    c.node < t.repaired.size ∧ t.buggy.kind s = t.repaired.kind c.node ∧
      m.toBuggy? c.node = none := by
  simp only [candidates, List.mem_map, List.mem_filter, Ast.mem_ids, Bool.and_eq_true, beq_iff_eq,
    Option.isNone_iff_eq_none] at h
  obtain ⟨d, ⟨hd, ⟨hk, hfree⟩, -⟩, rfl⟩ := h
  exact ⟨hd, hk.symm, hfree⟩

/-- An inner node is paired with one of its candidates, or nothing happens. -/
lemma linkInner_cases (t : Trees) (m : Matching) (s : Nat) :
    (∃ c ∈ t.candidates m s, c.isEnough = true ∧ m.toRepaired? s = none ∧
      t.linkInner? m s = m.link? s c.node ∧ t.linkInner m s = m.link s c.node) ∨
    (t.linkInner? m s = some m ∧ t.linkInner m s = m) := by
  unfold linkInner? linkInner
  cases hs : m.toRepaired? s with
  | some d => exact .inr ⟨rfl, rfl⟩
  | none =>
    cases (t.buggy.children s).isEmpty with
    | true => exact .inr ⟨rfl, rfl⟩
    | false =>
      cases hc : best? Candidate.beats ((t.candidates m s).filter (·.isEnough)) with
      | some c =>
        obtain ⟨hmem, henough⟩ := List.mem_filter.1 (mem_of_best? hc)
        exact .inl ⟨c, hmem, henough, rfl, rfl, rfl⟩
      | none => exact .inr ⟨rfl, rfl⟩

/-- The bottom-up phase is safe. -/
lemma safe_bottomUp (t : Trees) : Safe t t.bottomUp? t.bottomUp := by
  apply Safe.foldl
  intro s hs m hm
  dsimp only
  have hs := t.buggy.isClosed.postorder s hs
  rcases linkInner_cases t m s with ⟨c, hc, -, hfree, he?, he⟩ | ⟨he?, he⟩
  · rw [he?, he]
    obtain ⟨hlt, hk, hd⟩ := mem_candidates hc
    exact safe_link hm (hm.isFree_iff.2 ⟨hs, hlt, hfree, hd⟩) hk
  · rw [he?, he]
    exact ⟨rfl, hm⟩

/-! ## Below paired nodes -/

/-- The free children on the original side. -/
lemma mem_freeOld {m : Matching} {c : Nat} :
    c ∈ t.freeOld m s ↔ c ∈ t.buggy.children s ∧ m.toRepaired? c = none := by
  simp [freeOld]

/-- The free children on the repaired side. -/
lemma mem_freeNew {m : Matching} {c : Nat} :
    c ∈ t.freeNew m d ↔ c ∈ t.repaired.children d ∧ m.toBuggy? c = none := by
  simp [freeNew]

/-- No free child is listed twice. -/
lemma nodup_freeOld (m : Matching) : (t.freeOld m s).Nodup := (t.buggy.nodup_children s).filter _

/-- A child is paired with an equal free child of `d`, or nothing happens. -/
lemma recoverEqual_cases (t : Trees) (d : Nat) (m : Matching) (c : Nat) :
    (∃ e ∈ t.freeNew m d, t.sameDigest c e = true ∧
      t.recoverEqual? d m c = m.linkSubtrees? c e (t.old c).size ∧
      t.recoverEqual d m c = m.linkSubtrees c e (t.old c).size) ∨
    (t.recoverEqual? d m c = some m ∧ t.recoverEqual d m c = m) := by
  unfold recoverEqual? recoverEqual
  cases he : (t.freeNew m d).find? (t.sameDigest c) with
  | some e => exact .inl ⟨e, List.mem_of_find?_eq_some he, List.find?_some he, rfl, rfl⟩
  | none => exact .inr ⟨rfl, rfl⟩

/-- A child is paired with a free child of `d` of its kind and label, or nothing happens. -/
lemma recoverAlike_cases (t : Trees) (d : Nat) (m : Matching) (c : Nat) :
    (∃ e ∈ t.freeNew m d, t.buggy.kind c = t.repaired.kind e ∧ t.buggy.label c = t.repaired.label e ∧
      t.recoverAlike? d m c = m.link? c e ∧ t.recoverAlike d m c = m.link c e) ∨
    (t.recoverAlike? d m c = some m ∧ t.recoverAlike d m c = m) := by
  unfold recoverAlike? recoverAlike
  cases he : (t.freeNew m d).find? (fun e => t.repaired.kind e == t.buggy.kind c &&
      t.repaired.label e == t.buggy.label c && t.sameName c e) with
  | some e =>
    have hp := List.find?_some he
    simp only [Bool.and_eq_true, beq_iff_eq] at hp
    exact .inl ⟨e, List.mem_of_find?_eq_some he, hp.1.1.symm, hp.1.2.symm, rfl, rfl⟩
  | none => exact .inr ⟨rfl, rfl⟩

/-- A child is paired with a child of `d`, both alone with their kind, or nothing happens. -/
lemma recoverLone_cases (t : Trees) (old new : List Nat) (m : Matching) (c : Nat) :
    (∃ y e, old.filter (t.buggy.kind · == t.buggy.kind c) = [y] ∧
      new.filter (t.repaired.kind · == t.buggy.kind c) = [e] ∧
      t.recoverLone? old new m c = m.link? c e ∧ t.recoverLone old new m c = m.link c e) ∨
    (t.recoverLone? old new m c = some m ∧ t.recoverLone old new m c = m) := by
  unfold recoverLone? recoverLone
  dsimp only
  generalize old.filter (t.buggy.kind · == t.buggy.kind c) = olds
  generalize new.filter (t.repaired.kind · == t.buggy.kind c) = news
  match olds, news with
  | [y], [e] =>
    cases hn : t.sameName c e with
    | true => exact .inl ⟨y, e, rfl, rfl, by simp [hn], by simp [hn]⟩
    | false => exact .inr ⟨by simp [hn], by simp [hn]⟩
  | [], _ => exact .inr ⟨rfl, rfl⟩
  | _ :: _ :: _, _ => exact .inr ⟨rfl, rfl⟩
  | [_], [] => exact .inr ⟨rfl, rfl⟩
  | [_], _ :: _ :: _ => exact .inr ⟨rfl, rfl⟩

/-- The first pass below two paired nodes. -/
lemma safe_recoverEqual (h : TellsApart a b) {l : List Nat} (hl : ∀ c ∈ l, c < a.size) :
    Safe (of a b) (l.foldlM ((of a b).recoverEqual? d) ·) (l.foldl ((of a b).recoverEqual d) ·) := by
  apply Safe.foldl
  intro c hc m hm
  dsimp only
  rcases recoverEqual_cases (of a b) d m c with ⟨e, hmem, hsame, he?, he⟩ | ⟨he?, he⟩
  · rw [he?, he]
    have hlt := (Ast.mem_children (mem_freeNew.1 hmem).1).2
    exact safe_linkSubtrees h (hl c hc) hlt hsame m hm
  · rw [he?, he]
    exact ⟨rfl, hm⟩

/-- The second pass: as long as the children that are left are free, each can be paired unseen. -/
lemma alike_foldl {l : List Nat} {m : Matching} (hm : Fits t m) (hl : l.Nodup)
    (hfree : ∀ c ∈ l, c < t.buggy.size ∧ m.toRepaired? c = none) :
    l.foldlM (t.recoverAlike? d) m = some (l.foldl (t.recoverAlike d) m) ∧
      Fits t (l.foldl (t.recoverAlike d) m) := by
  induction l generalizing m with
  | nil => exact ⟨rfl, hm⟩
  | cons c l ih =>
    obtain ⟨hnot, hl⟩ := List.nodup_cons.1 hl
    obtain ⟨hc, hcfree⟩ := hfree c List.mem_cons_self
    have hrest : ∀ x ∈ l, x < t.buggy.size ∧ m.toRepaired? x = none :=
      fun x hx => hfree x (List.mem_cons_of_mem _ hx)
    rw [List.foldlM_cons, List.foldl_cons]
    rcases recoverAlike_cases t d m c with ⟨e, hmem, hk, -, he?, he⟩ | ⟨he?, he⟩
    · obtain ⟨hchild, hefree⟩ := mem_freeNew.1 hmem
      have hf := hm.isFree_iff.2 ⟨hc, (Ast.mem_children hchild).2, hcfree, hefree⟩
      obtain ⟨hlink, hfit⟩ := safe_link hm hf hk
      rw [he?, he, hlink]
      refine ih hfit hl fun x hx => ⟨(hrest x hx).1, ?_⟩
      -- The list names no child twice, so `c` is not among those that are left.
      rw [toRepaired?_link hf, if_neg (fun hxc : x = c => hnot (hxc ▸ hx))]
      exact (hrest x hx).2
    · rw [he?, he]
      exact ih hm hl hrest

/-- The third pass: a child and its partner are both alone with their kind, so that no other child of
the list can get the same partner. -/
lemma lone_foldl {l old new : List Nat} {m : Matching} (hm : Fits t m) (hl : l.Nodup)
    (hsub : ∀ c ∈ l, c ∈ old) (hnew : ∀ e ∈ new, e < t.repaired.size)
    (hfree : ∀ c ∈ l, c < t.buggy.size ∧ m.toRepaired? c = none ∧
      ∀ y e, old.filter (t.buggy.kind · == t.buggy.kind c) = [y] →
        new.filter (t.repaired.kind · == t.buggy.kind c) = [e] → m.toBuggy? e = none) :
    l.foldlM (t.recoverLone? old new) m = some (l.foldl (t.recoverLone old new) m) ∧
      Fits t (l.foldl (t.recoverLone old new) m) := by
  induction l generalizing m with
  | nil => exact ⟨rfl, hm⟩
  | cons c l ih =>
    obtain ⟨hnot, hl⟩ := List.nodup_cons.1 hl
    obtain ⟨hc, hcfree, hpartner⟩ := hfree c List.mem_cons_self
    have hsub' : ∀ x ∈ l, x ∈ old := fun x hx => hsub x (List.mem_cons_of_mem _ hx)
    have hrest := fun x (hx : x ∈ l) => hfree x (List.mem_cons_of_mem _ hx)
    rw [List.foldlM_cons, List.foldl_cons]
    rcases recoverLone_cases t old new m c with ⟨y, e, hold, hnewk, he?, he⟩ | ⟨he?, he⟩
    · have hin : e ∈ new.filter (t.repaired.kind · == t.buggy.kind c) := hnewk ▸ List.mem_cons_self
      obtain ⟨hmem, hk⟩ := List.mem_filter.1 hin
      have hk : t.buggy.kind c = t.repaired.kind e := (beq_iff_eq.1 hk).symm
      have hf := hm.isFree_iff.2 ⟨hc, hnew e hmem, hcfree, hpartner y e hold hnewk⟩
      obtain ⟨hlink, hfit⟩ := safe_link hm hf hk
      rw [he?, he, hlink]
      refine ih hfit hl hsub' fun x hx => ⟨(hrest x hx).1, ?_, fun y' e' hy' he' => ?_⟩
      · rw [toRepaired?_link hf, if_neg (fun hxc : x = c => hnot (hxc ▸ hx))]
        exact (hrest x hx).2.1
      · rw [toBuggy?_link hf, if_neg ?_]
        · exact (hrest x hx).2.2 y' e' hy' he'
        -- If `x` had the same partner, it would be of the kind of `c`, which `c` has for itself.
        rintro rfl
        have hin' : e' ∈ new.filter (t.repaired.kind · == t.buggy.kind x) := he' ▸ List.mem_cons_self
        have hkind : t.buggy.kind x = t.buggy.kind c :=
          (beq_iff_eq.1 (List.mem_filter.1 hin').2).symm.trans hk.symm
        have hcy : c ∈ [y] := hold ▸ List.mem_filter.2 ⟨hsub c List.mem_cons_self, by simp⟩
        have hxy : x ∈ [y] := hold ▸ List.mem_filter.2 ⟨hsub' x hx, by simp [hkind]⟩
        rw [List.mem_singleton] at hcy hxy
        exact hnot (hcy.trans hxy.symm ▸ hx)
    · rw [he?, he]
      exact ih hm hl hsub' hrest

/-- Recovery below one pair is safe. -/
lemma safe_recoverBelow (h : TellsApart a b) (s : Nat) :
    Safe (of a b) ((of a b).recoverBelow? · s) ((of a b).recoverBelow · s) := by
  intro m hm
  dsimp only
  have hlt : ∀ (m : Matching), ∀ c ∈ (of a b).freeOld m s, c < a.size :=
    fun m c hc => (Ast.mem_children (mem_freeOld.1 hc).1).2
  unfold recoverBelow? recoverBelow
  cases hd : m.toRepaired? s with
  | none => exact ⟨rfl, hm⟩
  | some d =>
    dsimp only
    obtain ⟨he, hm⟩ := safe_recoverEqual (d := d) h (hlt m) m hm
    dsimp only at he hm
    rw [he, Option.bind_eq_bind, Option.bind_some]
    generalize ((of a b).freeOld m s).foldl ((of a b).recoverEqual d) m = m at hm ⊢
    obtain ⟨he, hm⟩ := alike_foldl (d := d) hm (nodup_freeOld m) fun c hc =>
      ⟨hlt m c hc, (mem_freeOld.1 hc).2⟩
    rw [he, Option.bind_some]
    generalize ((of a b).freeOld m s).foldl ((of a b).recoverAlike d) m = m at hm ⊢
    refine lone_foldl hm (nodup_freeOld m) (fun c hc => hc)
      (fun e he => (Ast.mem_children (mem_freeNew.1 he).1).2)
      fun c hc => ⟨hlt m c hc, (mem_freeOld.1 hc).2, fun y e _ he => ?_⟩
    have hin : e ∈ ((of a b).freeNew m d).filter ((of a b).repaired.kind · == (of a b).buggy.kind c) :=
      he ▸ List.mem_cons_self
    exact (mem_freeNew.1 (List.mem_filter.1 hin).1).2

/-- Recovery is safe. -/
lemma safe_recover (h : TellsApart a b) : Safe (of a b) (of a b).recover? (of a b).recover :=
  Safe.foldl fun s _ => safe_recoverBelow h s

/-- The checked matching comes to its end with the matching itself, which fits the trees. -/
theorem safe_matching (h : TellsApart a b) :
    (of a b).matching? = some (of a b).matching ∧ Fits (of a b) (of a b).matching := by
  have hstart := fits_empty (of a b)
  unfold matching? matching
  dsimp only
  cases (of a b).buggy.isEmpty || (of a b).repaired.isEmpty with
  | true => exact ⟨rfl, hstart⟩
  | false =>
    have hsafe := (safe_topDown h).comp <| (safe_linkRoots _).comp <| (safe_linkAnchors _).comp <|
      (safe_bottomUp _).comp <| safe_recover h
    exact hsafe _ hstart

end Trees

end Mend.Matching
