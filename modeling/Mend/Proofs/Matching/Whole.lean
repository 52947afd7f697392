import Mend.Proofs.Matching.Keeps
import Mend.Proofs.Matching.Labels
import Mend.Proofs.Matching.Siblings
import Mend.Proofs.Syntax.Ancestry

/-!
# Equal subtrees are paired as wholes

The first phase pairs equal subtrees node by node and skips what is not free. Nothing is ever skipped.
The subtrees have their turns the tallest first, and of two subtrees with a node in common the taller
contains the other (`Digest.contains_of_height_le`). As long as whatever is paired lies in subtrees that are
paired as wholes and are at least as tall as the one whose turn it is (`Tall`), a subtree whose root is
free is free throughout (`Tall.isFree`), and pairing it keeps the invariant (`Tall.linkTwin`).

The later phases keep all pairs, so the subtrees stay paired as wholes (`Whole`), and what stands below
their roots has its parent and its order: it is unchanged (`links_whole`). And if of two equal
subtrees the one had its turn while the other was free, the one did not stay free
(`not_removed_and_inserted`).
-/

namespace Mend.Matching

open Digest (TellsApart Table)
open Syntax (Ast)

variable {a b : Ast} {m m' : Matching} {s d : Nat}

/-- Two equal subtrees, every node of the one paired with the node at its place in the other. -/
structure Whole (a b : Ast) (m : Matching) (s d : Nat) : Prop where
  lt_size : s < a.size
  lt_size' : d < b.size
  outline_eq : a.outline.sub? s = b.outline.sub? d
  paired : ∀ k < ((Table.ofAst a).at s).size, m.toRepaired? (s + k) = some (d + k)

namespace Whole

/-- A whole pair stays whole while links are kept. -/
lemma keeps (hw : Whole a b m s d) (h : Keeps m m') : Whole a b m' s d where
  lt_size := hw.lt_size
  lt_size' := hw.lt_size'
  outline_eq := hw.outline_eq
  paired k hk := h _ _ (hw.paired k hk)

/-- The two ends of a whole pair have one digest. -/
lemma digest_eq (hw : Whole a b m s d) : (Table.ofAst a).at s = (Table.ofAst b).at d :=
  Digest.at_eq_of_outline hw.outline_eq hw.lt_size

/-- Each node below a whole pair is linked to the one in its place. -/
lemma toRepaired?_eq (hw : Whole a b m s d) {x : Nat} (hx : a.contains s x = true) :
    m.toRepaired? x = some (d + (x - s)) := by
  rw [Digest.contains_iff_lt_size hw.lt_size] at hx
  have hp := hw.paired (x - s) (by omega)
  rwa [Nat.add_sub_cancel' hx.1] at hp

/-- The same, seen from the repaired side. -/
lemma toBuggy?_eq (hw : Whole a b m s d) {y : Nat} (hy : b.contains d y = true) :
    m.toBuggy? y = some (s + (y - d)) := by
  rw [Digest.contains_iff_lt_size hw.lt_size', ← hw.digest_eq] at hy
  have hp := hw.paired (y - d) (by omega)
  rwa [Nat.add_sub_cancel' hy.1, m.toRepaired?_eq_some_iff] at hp

/-- Partners stand in the one subtree and the other. -/
lemma contains_partner (hw : Whole a b m s d) {x y : Nat} (hx : a.contains s x = true)
    (hp : m.toRepaired? x = some y) : b.contains d y = true := by
  rw [hw.toRepaired?_eq hx, Option.some.injEq] at hp
  rw [Digest.contains_iff_lt_size hw.lt_size] at hx
  rw [Digest.contains_iff_lt_size hw.lt_size', ← hw.digest_eq]
  omega

/-- Nodes in the same place below a whole pair have one outline. -/
lemma outline_add (hw : Whole a b m s d) {k : Nat} (hk : k < ((Table.ofAst a).at s).size) :
    a.outline.sub? (s + k) = b.outline.sub? (d + k) := by
  obtain ⟨x, kids, hx⟩ := Ast.exists_sub? hw.lt_size
  rw [Digest.size_at_ofAst hx] at hk
  exact Ast.outline_add hw.outline_eq hx (by omega)

/-- Parent and child at two places of the one subtree are parent and child in the other. -/
lemma parent_add (hw : Whole a b m s d) {j k : Nat} (hk : k < ((Table.ofAst a).at s).size)
    (hp : a.parent? (s + k) = some (s + j)) : b.parent? (d + k) = some (d + j) := by
  have hchild := Ast.parent?_eq_some_iff.1 hp
  obtain ⟨hlt, hsize⟩ := Ast.mem_children hchild
  obtain ⟨i, rfl⟩ := Nat.exists_eq_add_of_lt (Nat.lt_of_add_lt_add_left hlt)
  rw [show s + (j + i + 1) = s + j + (i + 1) by omega] at hchild
  rw [show d + (j + i + 1) = d + j + (i + 1) by omega, Ast.parent?_eq_some_iff]
  exact (Ast.add_mem_children (hw.outline_add (by omega)) (by omega)).1 hchild

/-- What stands below the root of such a subtree has its parent in it. -/
lemma exists_parent (hw : Whole a b m s d) {k : Nat} (h0 : 0 < k)
    (hk : k < ((Table.ofAst a).at s).size) : ∃ j < k, a.parent? (s + k) = some (s + j) := by
  have hin : a.contains s (s + k) = true := (Digest.contains_iff_lt_size hw.lt_size).2 (by omega)
  have habove : s ∈ a.ancestors (s + k) := Ast.mem_ancestors.2 ⟨hin, by omega⟩
  cases hp : a.parent? (s + k) with
  | none =>
    rw [Ast.ancestors_of_root hp] at habove
    cases habove
  | some p =>
    have hlt := (Ast.mem_children (Ast.parent?_eq_some_iff.1 hp)).1
    rw [Ast.ancestors_of_parent? hp] at habove
    have hle : s ≤ p := by
      rcases List.mem_cons.1 habove with rfl | hmem
      · exact Nat.le_refl s
      · exact Nat.le_of_lt (Ast.lt_of_mem_ancestors hmem)
    obtain ⟨j, rfl⟩ := Nat.exists_eq_add_of_le hle
    exact ⟨j, by omega, rfl⟩

/-- What stands below the root of such a subtree is unchanged. -/
lemma pairChange_eq (hw : Whole a b m s d) {k : Nat} (h0 : 0 < k)
    (hk : k < ((Table.ofAst a).at s).size) :
    pairChange a b m (outOfOrder a b m) (s + k) (d + k) = .unchanged := by
  obtain ⟨j, hj, hp⟩ := hw.exists_parent h0 hk
  have hchild := Ast.parent?_eq_some_iff.1 hp
  have hlabel := (Ast.kind_eq_of_outline (hw.outline_add hk) (Ast.mem_children hchild).2).2
  have hparent : sameParent a b m (s + k) (d + k) = true := by
    simp only [sameParent, hp, hw.parent_add hk hp, hw.paired j (by omega), beq_self_eq_true]
  have horder : s + k ∉ outOfOrder a b m := by
    refine not_mem_outOfOrder fun sp dp _ hsp c hc c' hc' hlt e e' he he' => ?_
    -- The siblings have the same parent, and the whole subtree is paired place by place.
    obtain rfl : s + j = sp := Option.some.inj (hp.symm.trans (Ast.parent?_eq_some_iff.2 hsp))
    have hroot : a.contains s (s + j) = true :=
      (Digest.contains_iff_lt_size hw.lt_size).2 (by omega)
    rw [hw.toRepaired?_eq (Ast.contains_trans hroot (Ast.contains_child hc)), Option.some.injEq] at he
    rw [hw.toRepaired?_eq (Ast.contains_trans hroot (Ast.contains_child hc')), Option.some.injEq] at he'
    have := (Ast.mem_children hc).1
    omega
  simp [pairChange, hlabel, hparent, horder]

end Whole

/-- Whatever is paired lies in subtrees that are paired as wholes and at least `height` tall. -/
structure Tall (a b : Ast) (height : Nat) (m : Matching) : Prop where
  fits : Fits (Trees.of a b) m
  exists_whole : ∀ x y, m.toRepaired? x = some y →
    ∃ s d, Whole a b m s d ∧ a.contains s x = true ∧ height ≤ ((Table.ofAst a).at s).height

namespace Tall

variable {height : Nat}

/-- Nothing is linked at the start. -/
lemma start (a b : Ast) (height : Nat) : Tall a b height (.empty a.size b.size) where
  fits := fits_empty (Trees.of a b)
  exists_whole x y hp := by simp at hp

/-- What holds at one height holds at any lower one. -/
lemma mono {height' : Nat} (ht : Tall a b height m) (hle : height' ≤ height) : Tall a b height' m where
  fits := ht.fits
  exists_whole x y hp := by
    obtain ⟨s, d, hw, hx, htall⟩ := ht.exists_whole x y hp
    exact ⟨s, d, hw, hx, Nat.le_trans hle htall⟩

/-- Below a free root that is no taller everything is free. -/
lemma toRepaired?_eq_none (ht : Tall a b height m) (hs : s < a.size)
    (hle : ((Table.ofAst a).at s).height ≤ height) (hfree : m.toRepaired? s = none) {x : Nat}
    (hx : a.contains s x = true) : m.toRepaired? x = none := by
  cases hp : m.toRepaired? x with
  | none => rfl
  | some y =>
    obtain ⟨s', d', hw, hx', htall⟩ := ht.exists_whole x y hp
    have hin := Digest.contains_of_height_le hs hx' hx (Nat.le_trans hle htall)
    rw [hw.toRepaired?_eq hin] at hfree
    cases hfree

/-- Nothing below a free node of that height is linked. -/
lemma toBuggy?_eq_none (ht : Tall a b height m) (hd : d < b.size)
    (hle : ((Table.ofAst b).at d).height ≤ height) (hfree : m.toBuggy? d = none) {y : Nat}
    (hy : b.contains d y = true) : m.toBuggy? y = none := by
  cases hp : m.toBuggy? y with
  | none => rfl
  | some x =>
    have hxy := m.toRepaired?_eq_some_iff.2 hp
    obtain ⟨s', d', hw, hx, htall⟩ := ht.exists_whole x y hxy
    rw [hw.digest_eq] at htall
    have hin := Digest.contains_of_height_le hd (hw.contains_partner hx hxy) hy (Nat.le_trans hle htall)
    rw [hw.toBuggy?_eq hin] at hfree
    cases hfree

/-- Two equal subtrees with free roots are free throughout. -/
lemma isFree (ht : Tall a b height m) (hs : s < a.size) (hd : d < b.size)
    (ho : a.outline.sub? s = b.outline.sub? d) (hle : ((Table.ofAst a).at s).height ≤ height)
    (hfree : m.toRepaired? s = none) (hfree' : m.toBuggy? d = none) :
    ∀ k < ((Table.ofAst a).at s).size, m.isFree (s + k) (d + k) = true := by
  intro k hk
  have hdigest := Digest.at_eq_of_outline ho hs
  have hx : a.contains s (s + k) = true := (Digest.contains_iff_lt_size hs).2 (by omega)
  have hy : b.contains d (d + k) = true := (Digest.contains_iff_lt_size hd).2 (by rw [← hdigest]; omega)
  exact ht.fits.isFree_iff.2 ⟨Ast.lt_size_of_contains hx hs, Ast.lt_size_of_contains hy hd,
    ht.toRepaired?_eq_none hs hle hfree hx, ht.toBuggy?_eq_none hd (hdigest ▸ hle) hfree' hy⟩

end Tall

/-- Free subtrees that are equal are paired as wholes. -/
lemma whole_linkSubtrees (hs : s < a.size) (hd : d < b.size)
    (ho : a.outline.sub? s = b.outline.sub? d)
    (hfree : ∀ k < ((Table.ofAst a).at s).size, m.isFree (s + k) (d + k) = true) :
    Whole a b (m.linkSubtrees s d ((Table.ofAst a).at s).size) s d where
  lt_size := hs
  lt_size' := hd
  outline_eq := ho
  paired k hk := by
    rw [(linkSubtrees_spec hfree).1, if_pos (by omega), Nat.add_sub_cancel_left]

namespace Tall

variable {height : Nat}

/-- A turn of the first phase for a subtree that is no taller than those before. -/
lemma linkTwin (h : TellsApart a b) (ht : Tall a b height m) (hs : s < a.size)
    (hle : ((Table.ofAst a).at s).height ≤ height) :
    Tall a b ((Table.ofAst a).at s).height ((Trees.of a b).linkTwin m s) := by
  rcases Trees.linkTwin_cases (Trees.of a b) m s with ⟨d, hd, hfree, -, he⟩ | ⟨-, he⟩
  · obtain ⟨hlt, -, hsame, hfree'⟩ := Trees.mem_twins.1 hd
    have ho := Trees.outline_of_sameDigest h hs hlt hsame
    have hwhole := whole_linkSubtrees hs hlt ho (ht.isFree hs hlt ho hle hfree hfree')
    change _ = m.linkSubtrees s d ((Table.ofAst a).at s).size at he
    rw [he]
    refine ⟨(Trees.safe_linkSubtrees h hs hlt hsame m ht.fits).2, fun x y hp => ?_⟩
    by_cases hx : a.contains s x = true
    · exact ⟨s, d, hwhole, hx, Nat.le_refl _⟩
    · rw [(linkSubtrees_spec (ht.isFree hs hlt ho hle hfree hfree')).1,
        if_neg (fun hin => hx ((Digest.contains_iff_lt_size hs).2 hin))] at hp
      obtain ⟨s', d', hw, hx', htall⟩ := ht.exists_whole x y hp
      exact ⟨s', d', hw.keeps (keeps_linkSubtrees m s d _), hx', Nat.le_trans hle htall⟩
  · rw [he]
    exact ht.mono hle

/-- Turns in the order of height: at each of them the subtrees before are at least as tall. -/
lemma foldl (h : TellsApart a b) {l : List Nat} (hl : ∀ s ∈ l, s < a.size)
    (hsorted : l.Pairwise fun x y => ((Table.ofAst a).at y).height ≤ ((Table.ofAst a).at x).height)
    (hlow : ∀ s ∈ l, height ≤ ((Table.ofAst a).at s).height) :
    Tall a b height (l.foldl (Trees.of a b).linkTwin (.empty a.size b.size)) := by
  induction l using List.reverseRecOn generalizing height with
  | nil => exact start a b height
  | append_singleton l s ih =>
    obtain ⟨hbefore, -, hacross⟩ := List.pairwise_append.1 hsorted
    have hs : s ∈ l ++ [s] := List.mem_append_right _ (List.mem_singleton_self s)
    have ht := ih (fun x hx => hl x (List.mem_append_left _ hx)) hbefore
      fun x hx => hacross x hx s (List.mem_singleton_self s)
    rw [List.foldl_append, List.foldl_cons, List.foldl_nil]
    exact (ht.linkTwin h (hl s hs) (Nat.le_refl _)).mono (hlow s hs)

end Tall

namespace Trees

/-- The matching that the first phase has made when `s` has its turn. -/
def AtTurn (t : Trees) (m : Matching) (s : Nat) : Prop :=
  ∃ before after, t.tallestFirst = before ++ s :: after ∧
    m = before.foldl t.linkTwin (.empty t.buggy.size t.repaired.size)

/-- The first phase, with the matching `m` so far, pairs the subtrees at `s` and `d`. -/
structure Links (t : Trees) (m : Matching) (s d : Nat) : Prop where
  atTurn : t.AtTurn m s
  free : m.toRepaired? s = none
  best : best? (fun x y => t.rank m s x < t.rank m s y) (t.twins m s) = some d

/-- Every node that is visited has its turn. -/
lemma exists_atTurn {t : Trees} (h : s ∈ t.tallestFirst) : ∃ m, t.AtTurn m s := by
  obtain ⟨before, after, heq⟩ := List.append_of_mem h
  exact ⟨_, before, after, heq, rfl⟩

/-- At its turn, a node that links links its whole subtree. -/
lemma Links.linkTwin_eq {t : Trees} (hl : t.Links m s d) :
    t.linkTwin m s = m.linkSubtrees s d (t.old s).size := by
  unfold linkTwin
  rw [hl.free, hl.best]
  rfl

namespace AtTurn

/-- A node at its turn is one of those visited. -/
lemma mem_tallestFirst {t : Trees} (h : t.AtTurn m s) : s ∈ t.tallestFirst := by
  obtain ⟨before, after, heq, -⟩ := h
  rw [heq]
  exact List.mem_append_right _ List.mem_cons_self

/-- At the turn of a node, only subtrees at least as tall as its own are linked. -/
lemma tall (h : TellsApart a b) (hm : (of a b).AtTurn m s) :
    Tall a b ((Table.ofAst a).at s).height m := by
  obtain ⟨before, after, heq, rfl⟩ := hm
  have hsorted := (of a b).pairwise_tallestFirst
  have hlt : ∀ x ∈ (of a b).tallestFirst, x < a.size := fun x hx => (Trees.mem_tallestFirst.1 hx).1
  rw [heq] at hsorted hlt
  obtain ⟨hbefore, -, hacross⟩ := List.pairwise_append.1 hsorted
  exact Tall.foldl h (fun x hx => hlt x (List.mem_append_left _ hx)) hbefore
    fun x hx => hacross x hx s List.mem_cons_self

/-- What is paired after the turn of `s` is paired in the end. -/
lemma keeps (hm : (of a b).AtTurn m s) (hb : 0 < b.size) :
    Keeps ((of a b).linkTwin m s) (of a b).matching := by
  have hs := (Trees.mem_tallestFirst.1 hm.mem_tallestFirst).1
  obtain ⟨before, after, heq, rfl⟩ := hm
  have hrest := keeps_foldl (of a b).keeps_linkTwin after
    ((of a b).linkTwin (before.foldl (of a b).linkTwin (.empty a.size b.size)) s)
  rw [matching_of_pos (Nat.zero_lt_of_lt hs) hb]
  have htop : (of a b).topDown (.empty a.size b.size) = after.foldl (of a b).linkTwin
      ((of a b).linkTwin (before.foldl (of a b).linkTwin (.empty a.size b.size)) s) := by
    rw [topDown, heq, List.foldl_append, List.foldl_cons]
  rw [← htop] at hrest
  exact hrest.trans (keeps_later _ _)

end AtTurn

end Trees

/-- The nodes below a node are numbered right behind it. -/
lemma mem_descendants {n : Nat} (hs : s < a.size) :
    n ∈ a.descendants s ↔ ∃ k, 0 < k ∧ k < ((Table.ofAst a).at s).size ∧ n = s + k := by
  obtain ⟨x, kids, hx⟩ := Ast.exists_sub? hs
  rw [Ast.descendants_of_sub? hx, List.mem_range'_1, Digest.size_at_ofAst hx]
  constructor
  · exact fun hn => ⟨n - s, by omega, by omega, by omega⟩
  · rintro ⟨k, h0, hk, rfl⟩
    omega

namespace Trees.Links

/-- Twins that are linked have one outline. -/
lemma outline_eq (h : TellsApart a b) (hl : (Trees.of a b).Links m s d) :
    s < a.size ∧ d < b.size ∧ a.outline.sub? s = b.outline.sub? d := by
  have hs := (mem_tallestFirst.1 hl.atTurn.mem_tallestFirst).1
  obtain ⟨hd, -, hsame, -⟩ := mem_twins.1 (mem_of_best? hl.best)
  exact ⟨hs, hd, outline_of_sameDigest h hs hd hsame⟩

/-- No node of the two subtrees has a partner. -/
lemma isFree (h : TellsApart a b) (hl : (Trees.of a b).Links m s d) :
    ∀ k < ((of a b).old s).size, m.isFree (s + k) (d + k) = true := by
  obtain ⟨hs, hd, ho⟩ := hl.outline_eq h
  obtain ⟨-, -, -, hfree⟩ := mem_twins.1 (mem_of_best? hl.best)
  exact (hl.atTurn.tall h).isFree hs hd ho (Nat.le_refl _) hl.free hfree

/-- Twins that are linked are linked as a whole. -/
lemma whole (h : TellsApart a b) (hl : (Trees.of a b).Links m s d) :
    Whole a b ((of a b).linkTwin m s) s d := by
  obtain ⟨hs, hd, ho⟩ := hl.outline_eq h
  rw [hl.linkTwin_eq]
  exact whole_linkSubtrees hs hd ho (hl.isFree h)

/-- They still are at the end. -/
lemma whole_matching (h : TellsApart a b) (hl : (Trees.of a b).Links m s d) :
    Whole a b (of a b).matching s d :=
  (hl.whole h).keeps (hl.atTurn.keeps (Nat.zero_lt_of_lt (hl.outline_eq h).2.1))

end Trees.Links

/-- When the first phase pairs two subtrees, every node of either is free, so that all are paired. In the
end every node below the two roots is still paired with the node at its place, and unchanged. -/
theorem links_whole (h : TellsApart a b) (hl : (Trees.of a b).Links m s d) :
    (Trees.of a b).linkTwin m s = m.linkSubtrees s d ((Trees.of a b).old s).size ∧
    (∀ k < ((Trees.of a b).old s).size, m.isFree (s + k) (d + k) = true ∧
      ((Trees.of a b).linkTwin m s).toRepaired? (s + k) = some (d + k)) ∧
    ∃ c, classify a b = .ok c ∧
      (∀ n ∈ a.descendants s, c.matching.toRepaired? n = some (d + (n - s)) ∧
        d + (n - s) ∈ b.descendants d ∧ c.buggy.change n = .unchanged) ∧
      ∀ n ∈ b.descendants d, c.matching.toBuggy? n = some (s + (n - d)) ∧
        s + (n - d) ∈ a.descendants s ∧ c.repaired.change n = .unchanged := by
  have hw := hl.whole_matching h
  have hfit := (Trees.safe_matching h).2
  refine ⟨hl.linkTwin_eq, fun k hk => ⟨hl.isFree h k hk, (hl.whole h).paired k hk⟩, _, classify_eq h,
    fun n hn => ?_, fun n hn => ?_⟩
  · obtain ⟨k, h0, hk, rfl⟩ := (mem_descendants hw.lt_size).1 hn
    have hp := hw.paired k hk
    rw [Nat.add_sub_cancel_left, buggy_change_classifiedBy a b _ (hfit.lt_size hp).1, hp]
    exact ⟨hp, (mem_descendants hw.lt_size').2 ⟨k, h0, hw.digest_eq ▸ hk, rfl⟩, hw.pairChange_eq h0 hk⟩
  · obtain ⟨k, h0, hk, rfl⟩ := (mem_descendants hw.lt_size').1 hn
    rw [← hw.digest_eq] at hk
    have hp := hw.paired k hk
    have hback := (Matching.toRepaired?_eq_some_iff _).1 hp
    rw [Nat.add_sub_cancel_left, repaired_change_classifiedBy a b _ (hfit.lt_size hp).2, hback]
    exact ⟨hback, (mem_descendants hw.lt_size).2 ⟨k, h0, hk, rfl⟩, hw.pairChange_eq h0 hk⟩

/-- The call of `callOf`, behind an empty statement. -/
def laterCallOf (argument : String) : Ast :=
  .ofForest (";f(" ++ argument ++ ")") <|
    .cons ⟨"program", none, "", 0, 5, 1⟩
      (.cons ⟨"empty_statement", none, "", 0, 1, 1⟩ .nil
        (.cons ⟨"call_expression", none, "", 1, 5, 1⟩
          (.cons ⟨"identifier", some "function", "f", 1, 2, 1⟩ .nil
            (.cons ⟨"identifier", some "arguments", argument, 3, 4, 1⟩ .nil .nil)) .nil)) .nil

/-- The digests tell the nodes of the two calls apart. -/
lemma tellsApart_laterCallOf : TellsApart (callOf "x") (laterCallOf "x") := by decide +kernel

/-- The call is paired as a whole where a statement was put before it. -/
theorem links_whole_laterCallOf : TellsApart (callOf "x") (laterCallOf "x") ∧
    ∃ m, (Trees.of (callOf "x") (laterCallOf "x")).Links m 1 2 ∧
      ∃ c, classify (callOf "x") (laterCallOf "x") = .ok c ∧
        ∀ n ∈ [2, 3], c.matching.toRepaired? n = some (2 + (n - 1)) ∧ c.buggy.change n = .unchanged := by
  have htallest : (Trees.of (callOf "x") (laterCallOf "x")).tallestFirst = [0] ++ 1 :: [] :=
    (List.mergeSort_of_pairwise (by decide +kernel)).trans (by decide +kernel)
  have hl : (Trees.of (callOf "x") (laterCallOf "x")).Links _ 1 2 :=
    ⟨⟨[0], [], htallest, rfl⟩, by decide +kernel, by decide +kernel⟩
  obtain ⟨-, -, c, hc, hbelow, -⟩ := links_whole tellsApart_laterCallOf hl
  exact ⟨tellsApart_laterCallOf, _, hl, c, hc, fun n hn => ⟨(hbelow n hn).1, (hbelow n hn).2.2⟩⟩

/-- A subtree that is tall enough for the first phase does not stay free beside an equal one. -/
lemma not_free_of_outline_eq (h : TellsApart a b) (hs : s < a.size) (hd : d < b.size)
    (ho : a.outline.sub? s = b.outline.sub? d) (htall : leastHeight ≤ ((Trees.of a b).old s).height)
    (hfree : (Trees.of a b).matching.toRepaired? s = none) :
    (Trees.of a b).matching.toBuggy? d ≠ none := by
  intro hfree'
  obtain ⟨m, hm⟩ := Trees.exists_atTurn (Trees.mem_tallestFirst.2 ⟨hs, htall⟩)
  have hkeeps := (Trees.keeps_linkTwin _ m s).trans (hm.keeps (Nat.zero_lt_of_lt hd))
  have hdigest : (Trees.of a b).old s = (Trees.of a b).new d := Digest.at_eq_of_outline ho hs
  -- At the turn of `s` both are free, so there is a twin to pair it with.
  have htwin : d ∈ (Trees.of a b).twins m s := by
    refine Trees.mem_twins.2 ⟨hd, hdigest ▸ htall, ?_, hkeeps.toBuggy?_eq_none hfree'⟩
    exact beq_iff_eq.2 (congrArg (·.exact) hdigest)
  obtain ⟨e, he⟩ := exists_best? _ htwin
  have hl : (Trees.of a b).Links m s e := ⟨hm, hkeeps.toRepaired?_eq_none hfree, he⟩
  have hroot := (hl.whole_matching h).toRepaired?_eq (Ast.contains_self a s)
  rw [hfree] at hroot
  cases hroot

/-- Of two equal subtrees that are tall enough for the first phase, the one is not removed with the other
inserted. -/
theorem not_removed_and_inserted (h : TellsApart a b) : ∃ c, classify a b = .ok c ∧
    ∀ s < a.size, ∀ d < b.size, c.buggy.change s = .removed → c.repaired.change d = .inserted →
      ∀ x kids, a.outline.sub? s = some (x, kids) → b.outline.sub? d = some (x, kids) →
        kids.height + 1 < leastHeight := by
  have hc := consistent_classifiedBy (Trees.safe_matching h).2
  refine ⟨_, classify_eq h, fun s hs d hd hremoved hinserted x kids hx hy => ?_⟩
  have hheight : ((Trees.of a b).old s).height = kids.height + 1 := Digest.height_of_outline hx
  by_contra hnot
  exact not_free_of_outline_eq h hs hd (hx.trans hy.symm) (by omega) ((hc.removed_iff s hs).1 hremoved)
    ((hc.inserted_iff d hd).1 hinserted)

/-- A call that moved behind another statement is not both removed and inserted. -/
theorem not_removed_and_inserted_laterCallOf : TellsApart (callOf "x") (laterCallOf "x") ∧
    ∃ c, classify (callOf "x") (laterCallOf "x") = .ok c ∧
      ¬ (c.buggy.change 1 = .removed ∧ c.repaired.change 2 = .inserted) := by
  obtain ⟨c, hc, hnot⟩ := not_removed_and_inserted tellsApart_laterCallOf
  refine ⟨tellsApart_laterCallOf, c, hc, fun ⟨hremoved, hinserted⟩ => ?_⟩
  exact absurd (hnot 1 (by decide) 2 (by decide) hremoved hinserted _ _ rfl rfl) (by decide)

end Mend.Matching
