import Mend.Proofs.Matching.Keeps
import Mend.Proofs.Matching.Labels

/-!
# No obvious pair is left below partners

The last phase has a turn for every buggy node, in preorder. In its turn, a child that is still free when
the children are compared in kind and label is paired if a free child of the partner resembles it
(`toRepaired?_recoverAlike_ne_none`), so that afterwards no two free children resemble each other
(`settled_recoverBelow`). A turn pairs nodes behind the one whose turn it is: that one has its partner
before its turn or never, and later turns leave it settled, for who is free later was free before
(`Settled.later`). So in the end all nodes are settled (`settled_matching`).
-/

namespace Mend.Matching

open Digest (TellsApart)
open Syntax (Ast)

variable {a b : Ast} {t : Trees} {m m' : Matching} {s d c e : Nat}

/-- A buggy and a repaired node of one kind and label; if they are declarations, of one name. -/
structure Resembles (a b : Ast) (c e : Nat) : Prop where
  kind_eq : a.kind c = b.kind e
  label_eq : a.label c = b.label e
  name_eq : anchorKinds.contains (a.kind c) = true → nameText? a c = nameText? b e

/-- Of the free children of a node and its partner no two resemble each other. -/
def Settled (t : Trees) (m : Matching) (s : Nat) : Prop :=
  ∀ d, m.toRepaired? s = some d → ∀ c ∈ t.buggy.children s, ∀ e ∈ t.repaired.children d,
    m.toRepaired? c = none → m.toBuggy? e = none → ¬ Resembles t.buggy t.repaired c e

lemma Settled.later (h : Settled t m s) (hk : Keeps m m') (hs : m'.toRepaired? s = m.toRepaired? s) :
    Settled t m' s := by
  intro d hd c hc e he hcfree hefree
  exact h d (hs ▸ hd) c hc e he (hk.toRepaired?_eq_none hcfree) (hk.toBuggy?_eq_none hefree)

namespace Trees

lemma sameName_iff : t.sameName c e = true ↔
    (anchorKinds.contains (t.buggy.kind c) = true → nameText? t.buggy c = nameText? t.repaired e) := by
  unfold sameName
  cases anchorKinds.contains (t.buggy.kind c) <;> simp

/-- A free child that resembles a free child of `d` is paired. -/
lemma toRepaired?_recoverAlike_ne_none (hm : Sized t m) (hc : c < t.buggy.size)
    (hfree : m.toRepaired? c = none) (he : e ∈ t.freeNew m d) (hr : Resembles t.buggy t.repaired c e) :
    (t.recoverAlike d m c).toRepaired? c ≠ none := by
  have hlike : (t.repaired.kind e == t.buggy.kind c && t.repaired.label e == t.buggy.label c &&
      t.sameName c e) = true := by
    rw [hr.kind_eq, hr.label_eq, sameName_iff.2 hr.name_eq, beq_self_eq_true, beq_self_eq_true]
    rfl
  unfold recoverAlike
  cases hfind : (t.freeNew m d).find? (fun e => t.repaired.kind e == t.buggy.kind c &&
      t.repaired.label e == t.buggy.label c && t.sameName c e) with
  | none => exact absurd hlike (List.find?_eq_none.1 hfind e he)
  | some f =>
    obtain ⟨hchild, hffree⟩ := mem_freeNew.1 (List.mem_of_find?_eq_some hfind)
    have hf := hm.isFree_iff.2 ⟨hc, (Ast.mem_children hchild).2, hfree, hffree⟩
    rw [toRepaired?_link hf, if_pos rfl]
    exact Option.some_ne_none f

/-- After the pass over its free children, of two that resemble each other one is paired. -/
lemma not_free_of_resembles (hm : Sized t m) (hc : c ∈ t.freeOld m s) (he : e ∈ t.repaired.children d)
    (hr : Resembles t.buggy t.repaired c e)
    (hcfree : ((t.freeOld m s).foldl (t.recoverAlike d) m).toRepaired? c = none) :
    ((t.freeOld m s).foldl (t.recoverAlike d) m).toBuggy? e ≠ none := by
  intro hefree
  have hlt := (Ast.mem_children (mem_freeOld.1 hc).1).2
  have hstep : ∀ (c : Nat) (m : Matching), Linked AnyPair m (t.recoverAlike d m c) :=
    fun _ m => t.linked_recoverAlike d m fun _ => trivial
  obtain ⟨before, after, heq⟩ := List.append_of_mem hc
  rw [heq, List.foldl_append, List.foldl_cons] at hcfree hefree
  have hbefore : Linked AnyPair m (before.foldl (t.recoverAlike d) m) := .foldl (fun c _ => hstep c) m
  generalize before.foldl (t.recoverAlike d) m = m' at hcfree hefree hbefore
  have hafter : Keeps (t.recoverAlike d m' c) (after.foldl (t.recoverAlike d) (t.recoverAlike d m' c)) :=
    (Linked.foldl (fun c _ => hstep c) _).keeps
  -- Both are free when the child has its turn, as they are free in the end.
  have hturn := (hstep c m').keeps.trans hafter
  refine toRepaired?_recoverAlike_ne_none (hm.linked hbefore) hlt (hturn.toRepaired?_eq_none hcfree)
    (mem_freeNew.2 ⟨he, hturn.toBuggy?_eq_none hefree⟩) hr (hafter.toRepaired?_eq_none hcfree)

/-- The turn of a node settles it. -/
lemma settled_recoverBelow (hm : Sized t m) : Settled t (t.recoverBelow m s) s := by
  intro d hd c hc e he hcfree hefree hr
  have hs : m.toRepaired? s = some d :=
    ((t.linked_recoverBelow m s).toRepaired?_eq fun _ => Nat.lt_irrefl s).symm.trans hd
  unfold recoverBelow at hcfree hefree
  simp only [hs] at hcfree hefree
  have hequal : Linked AnyPair m ((t.freeOld m s).foldl (t.recoverEqual d) m) :=
    .foldl (fun _ _ m' => t.linked_recoverEqual d m' fun _ _ => trivial) m
  have hm := hm.linked hequal
  generalize (t.freeOld m s).foldl (t.recoverEqual d) m = m at hm hcfree hefree
  have halike : Linked AnyPair m ((t.freeOld m s).foldl (t.recoverAlike d) m) :=
    .foldl (fun _ _ m' => t.linked_recoverAlike d m' fun _ => trivial) m
  have hlone : ∀ (old new l : List Nat) (m : Matching), Linked AnyPair m (l.foldl (t.recoverLone old new) m) :=
    fun old new l m => .foldl (fun _ _ m' => t.linked_recoverLone old new m' fun _ => trivial) m
  have hcfree := (hlone _ _ _ _).keeps.toRepaired?_eq_none hcfree
  have hefree := (hlone _ _ _ _).keeps.toBuggy?_eq_none hefree
  have hcold : c ∈ t.freeOld m s := mem_freeOld.2 ⟨hc, halike.keeps.toRepaired?_eq_none hcfree⟩
  exact not_free_of_resembles hm hcold he hr hcfree hefree

/-- After the turns of the first nodes, these are settled. -/
lemma settled_foldl (hm : Sized t m) (n : Nat) :
    ∀ s < n, Settled t ((List.range n).foldl t.recoverBelow m) s := by
  induction n with
  | zero => exact fun s hs => absurd hs (Nat.not_lt_zero s)
  | succ n ih =>
    intro s hs
    have hbefore : Linked AnyPair m ((List.range n).foldl t.recoverBelow m) :=
      .foldl (fun s _ m => (t.linked_recoverBelow m s).any) m
    rw [List.range_succ, List.foldl_append, List.foldl_cons, List.foldl_nil]
    rcases Nat.lt_or_eq_of_le (Nat.le_of_lt_succ hs) with hlt | rfl
    · have hturn := t.linked_recoverBelow ((List.range n).foldl t.recoverBelow m) n
      exact (ih s hlt).later hturn.keeps (hturn.toRepaired?_eq fun _ => Nat.not_lt.2 (Nat.le_of_lt hlt))
    · exact settled_recoverBelow (hm.linked hbefore)

lemma settled_matching (t : Trees) (s : Nat) : Settled t t.matching s := by
  rcases t.matching_cases with he | ⟨m, hm, he⟩
  · intro d hd
    rw [he, toRepaired?_empty] at hd
    cases hd
  · intro d hd c hc
    have hs := Nat.lt_trans (Ast.mem_children hc).1 (Ast.mem_children hc).2
    rw [he] at hd ⊢
    exact settled_foldl ((Sized.start t).linked hm) _ s hs d hd c hc

end Trees

/-- Below two partners there are no free children of one kind and label, and of one name if they are
declarations: no such node is removed and inserted again. -/
theorem not_removed_and_inserted_below (h : TellsApart a b) : ∃ c, classify a b = .ok c ∧
    ∀ s d, c.matching.toRepaired? s = some d → ∀ x ∈ a.children s, ∀ y ∈ b.children d,
      a.kind x = b.kind y → a.label x = b.label y →
      (anchorKinds.contains (a.kind x) = true → nameText? a x = nameText? b y) →
      ¬ (c.matching.toRepaired? x = none ∧ c.matching.toBuggy? y = none) ∧
      ¬ (c.buggy.change x = .removed ∧ c.repaired.change y = .inserted) := by
  have hc := consistent_classifiedBy (Trees.safe_matching h).2
  refine ⟨_, classify_eq h, fun s d hp x hx y hy hkind hlabel hname => ?_⟩
  have hfree : ¬ ((Trees.of a b).matching.toRepaired? x = none ∧
      (Trees.of a b).matching.toBuggy? y = none) := fun ⟨hxfree, hyfree⟩ =>
    Trees.settled_matching (Trees.of a b) s d hp x hx y hy hxfree hyfree ⟨hkind, hlabel, hname⟩
  refine ⟨hfree, fun ⟨hremoved, hinserted⟩ => hfree ⟨?_, ?_⟩⟩
  · exact (hc.removed_iff x (Ast.mem_children hx).2).1 hremoved
  · exact (hc.inserted_iff y (Ast.mem_children hy).2).1 hinserted

/-- A statement that stays, behind one that is new, is not removed and inserted again. -/
theorem not_removed_and_inserted_below_statements :
    TellsApart (statements ["x", "y"]) (statements ["z", "x"]) ∧
    ∃ c, classify (statements ["x", "y"]) (statements ["z", "x"]) = .ok c ∧
      c.matching.toRepaired? 0 = some 0 ∧
      1 ∈ (statements ["x", "y"]).children 0 ∧ 2 ∈ (statements ["z", "x"]).children 0 ∧
      (statements ["x", "y"]).kind 1 = (statements ["z", "x"]).kind 2 ∧
      (statements ["x", "y"]).label 1 = (statements ["z", "x"]).label 2 ∧
      ¬ (c.buggy.change 1 = .removed ∧ c.repaired.change 2 = .inserted) := by
  have htell : TellsApart (statements ["x", "y"]) (statements ["z", "x"]) := by decide +kernel
  obtain ⟨c, hc, hnone⟩ := not_removed_and_inserted_below htell
  have hpair : c.matching.toRepaired? 0 = some 0 := by
    rw [classify_eq htell] at hc
    cases hc
    change (Trees.of _ _).matching.toRepaired? 0 = some 0
    rw [Trees.matching_eq (l := [0]) (by decide +kernel) (List.pairwise_singleton _ 0)]
    decide +kernel
  have hkind : (statements ["x", "y"]).kind 1 = (statements ["z", "x"]).kind 2 := by decide +kernel
  have hlabel : (statements ["x", "y"]).label 1 = (statements ["z", "x"]).label 2 := by decide +kernel
  have hleaf : ¬ anchorKinds.contains ((statements ["x", "y"]).kind 1) = true := by decide +kernel
  exact ⟨htell, c, hc, hpair, by decide +kernel, by decide +kernel, hkind, hlabel,
    (hnone 0 0 hpair 1 (by decide +kernel) 2 (by decide +kernel) hkind hlabel
      fun h => absurd h hleaf).2⟩

end Mend.Matching
