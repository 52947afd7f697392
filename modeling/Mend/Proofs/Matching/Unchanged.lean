import Mathlib.Data.List.Sort
import Mend.Proofs.Matching.Keeps
import Mend.Proofs.Matching.Labels
import Mend.Proofs.Matching.Siblings

/-!
# Unchanged throughout means equal

Two programs with one outline are matched node by node: the root is the tallest subtree and its only twin
is the other root, so the first step of the first phase pairs everything, and nothing is left for the
later ones (`toRepaired?_matching`). A program of one node is too low for the first phase and gets its
partner as a root.

Conversely, where every label says unchanged, the children of a node and of its partner are each
other's partners, in the same order (`map_partner_children`), and from the leaves upwards partners have
one outline (`outline_eq_of_partner`). The two directions meet in `unchanged_iff_outline_eq`.
-/

namespace Mend.Matching

open Digest (TellsApart)
open Syntax (Ast)

variable {a b : Ast} {m : Matching} {t : Trees} {s d : Nat}

namespace Trees

/-! ## Programs with one outline -/

/-- With every original node linked, linking the roots changes nothing. -/
lemma linkRoots_of_full (h : ∀ s < m.forward.size, m.toRepaired? s ≠ none) : t.linkRoots m = m := by
  unfold linkRoots
  split
  · split
    · exact link_of_full h
    · rfl
  · rfl

/-- Where every buggy node has a partner, the later phases leave the matching alone. -/
lemma later_of_full (t : Trees) (h : ∀ s < m.forward.size, m.toRepaired? s ≠ none) :
    t.recover (t.bottomUp (t.linkAnchors m)) = m := by
  have hlink : ∀ s d, m.link s d = m := fun s d => link_of_full h
  have hlinks : ∀ s d size, m.linkSubtrees s d size = m := fun s d => linkSubtrees_of_full h
  have hanchors : t.linkAnchors m = m := List.foldl_fixed' (fun p => hlink p.1 p.2) _
  have hinner : t.bottomUp m = m := by
    refine List.foldl_fixed' (fun s => ?_) _
    rcases linkInner_cases t m s with ⟨c, -, -, -, -, he⟩ | ⟨-, he⟩
    · rw [he, hlink]
    · exact he
  have hrecover : t.recover m = m := by
    refine List.foldl_fixed' (fun s => ?_) _
    unfold recoverBelow
    cases m.toRepaired? s with
    | none => rfl
    | some d =>
      have hequal : ∀ c, t.recoverEqual d m c = m := fun c => by
        rcases recoverEqual_cases t d m c with ⟨e, -, -, -, he⟩ | ⟨-, he⟩
        · rw [he, hlinks]
        · exact he
      have halike : ∀ c, t.recoverAlike d m c = m := fun c => by
        rcases recoverAlike_cases t d m c with ⟨e, -, -, -, -, he⟩ | ⟨-, he⟩
        · rw [he, hlink]
        · exact he
      have hlone : ∀ old new c, t.recoverLone old new m c = m := fun old new c => by
        rcases recoverLone_cases t old new m c with ⟨y, e, -, -, -, he⟩ | ⟨-, he⟩
        · rw [he, hlink]
        · exact he
      dsimp only
      rw [List.foldl_fixed' hequal, List.foldl_fixed' halike, List.foldl_fixed' (hlone _ _)]
  rw [hanchors, hinner, hrecover]

/-- With every original node linked, linking a twin changes nothing. -/
lemma linkTwin_of_full (h : ∀ s < m.forward.size, m.toRepaired? s ≠ none) (s : Nat) :
    t.linkTwin m s = m := by
  rcases linkTwin_cases t m s with ⟨d, -, -, -, he⟩ | ⟨-, he⟩
  · rw [he, linkSubtrees_of_full h]
  · exact he

variable {x : Syntax.Node} {kids : Forest Syntax.Node}

/-- Every node but the root is lower than the root. -/
lemma height_old_lt (hT : a.tree = .cons x kids .nil) {s : Nat} (hs : s < a.size) (h0 : s ≠ 0) :
    ((of a b).old s).height < ((of a b).old 0).height := by
  have hsize := Ast.size_of_root hT
  refine Digest.height_lt_of_contains (by omega) ?_ h0
  rw [Ast.contains_iff, Ast.last_of_sub? (Ast.sub?_of_root hT)]
  omega

/-- A root that is tall enough is visited first. -/
lemma tallestFirst_eq_cons (hT : a.tree = .cons x kids .nil)
    (htall : leastHeight ≤ ((of a b).old 0).height) :
    ∃ rest, (of a b).tallestFirst = 0 :: rest := by
  have hpos : 0 < a.size := by
    have := Ast.size_of_root hT
    omega
  have hmem : 0 ∈ (of a b).tallestFirst := mem_tallestFirst.2 ⟨hpos, htall⟩
  have hsorted := (of a b).pairwise_tallestFirst
  have hlt : ∀ s ∈ (of a b).tallestFirst, s < a.size := fun s hs => (mem_tallestFirst.1 hs).1
  cases hl : (of a b).tallestFirst with
  | nil =>
    rw [hl] at hmem
    simp at hmem
  | cons s rest =>
    rw [hl] at hmem hsorted hlt
    refine ⟨rest, ?_⟩
    rcases List.mem_cons.1 hmem with h0 | h0
    · rw [← h0]
    · -- A first subtree other than the root would be at least as tall.
      have hle := (List.pairwise_cons.1 hsorted).1 0 h0
      by_contra hne
      have hs0 : s ≠ 0 := fun h => hne (by rw [h])
      have := height_old_lt (b := b) hT (hlt s List.mem_cons_self) hs0
      omega

/-- The only twin of the root is the other root, so that both programs are paired as wholes. -/
lemma linkTwin_root (h : TellsApart a b) (ho : a.outline = b.outline)
    (hT : a.tree = .cons x kids .nil) (htall : leastHeight ≤ ((of a b).old 0).height) :
    (of a b).linkTwin (.empty a.size b.size) 0 =
      (Matching.empty a.size b.size).linkSubtrees 0 0 a.size := by
  have hroot := Ast.sub?_of_root hT
  have hsize := Ast.size_of_root hT
  have hsizes := Ast.size_congr ho
  have hpos : 0 < a.size := by omega
  -- A twin has the size of the whole program, which leaves no number before it.
  have honly : ∀ d ∈ (of a b).twins (.empty a.size b.size) 0, d = 0 := by
    intro d hd
    obtain ⟨hlt, -, hsame, -⟩ := mem_twins.1 hd
    change d < b.size at hlt
    obtain ⟨y, below, hy⟩ := Ast.exists_sub? hlt
    have hkids := Ast.size_eq_of_outline (outline_of_sameDigest h hpos hlt hsame) hroot hy
    have := Ast.add_lt_size hy
    omega
  have hdigest : (of a b).old 0 = (of a b).new 0 := Digest.at_eq_of_outline (by rw [ho]) hpos
  have hmem : 0 ∈ (of a b).twins (.empty a.size b.size) 0 :=
    mem_twins.2 ⟨hsizes ▸ hpos, hdigest ▸ htall, beq_iff_eq.2 (congrArg (·.exact) hdigest),
      toBuggy?_empty _ _ _⟩
  obtain ⟨d, hd⟩ := exists_best?
    (fun x y => decide ((of a b).rank (.empty a.size b.size) 0 x <
      (of a b).rank (.empty a.size b.size) 0 y)) hmem
  have h0 := honly d (mem_of_best? hd)
  subst h0
  have hold : ((of a b).old 0).size = a.size := (Digest.size_at_ofAst hroot).trans hsize.symm
  unfold linkTwin
  rw [hd, hold]
  simp only [toRepaired?_empty, Option.isSome_none, Bool.false_eq_true, if_false]

/-- A program of one node is too low for the first phase. -/
lemma topDown_of_low (hT : a.tree = .cons x kids .nil)
    (hlow : ¬ leastHeight ≤ ((of a b).old 0).height) : (of a b).topDown m = m := by
  have hnone : (of a b).tallestFirst = [] := by
    refine List.eq_nil_iff_forall_not_mem.2 fun s hs => ?_
    obtain ⟨hlt, hs⟩ := mem_tallestFirst.1 hs
    rcases Nat.eq_zero_or_pos s with rfl | hpos
    · exact hlow hs
    · have := height_old_lt (b := b) hT hlt (by omega)
      omega
  rw [topDown, hnone, List.foldl_nil]

/-- A tree with nodes has the first as its root. -/
lemma root?_of_pos (h : 0 < a.size) : a.root? = some 0 := if_neg (by omega)

/-- The roots of two programs of one kind are paired if they are free. -/
lemma toRepaired?_linkRoots (hf : m.isFree 0 0 = true) (ha : 0 < a.size) (hb : 0 < b.size)
    (hk : a.kind 0 = b.kind 0) : ((of a b).linkRoots m).toRepaired? 0 = some 0 := by
  have hold : (of a b).buggy.root? = some 0 := root?_of_pos ha
  have hnew : (of a b).repaired.root? = some 0 := root?_of_pos hb
  have hkind : (of a b).buggy.kind 0 = (of a b).repaired.kind 0 := hk
  unfold linkRoots
  rw [hold, hnew]
  simp only [hkind, beq_self_eq_true, if_true]
  rw [toRepaired?_link hf, if_pos rfl]

/-- After the first two phases every node of a program is paired with itself in a program of the same
outline. -/
lemma toRepaired?_linkRoots_topDown (ha : a.IsArena) (h : TellsApart a b)
    (ho : a.outline = b.outline) {s : Nat} (hs : s < a.size) :
    ((of a b).linkRoots ((of a b).topDown (.empty a.size b.size))).toRepaired? s = some s := by
  have hsizes := Ast.size_congr ho
  rcases ha.cases with hT | ⟨x, kids, hT⟩
  · rw [Ast.size_eq, hT] at hs
    exact absurd hs (Nat.not_lt_zero s)
  by_cases htall : leastHeight ≤ ((of a b).old 0).height
  · have hall : ∀ s < a.size,
        ((Matching.empty a.size b.size).linkSubtrees 0 0 a.size).toRepaired? s = some s := by
      intro s hs
      rw [(linkSubtrees_spec fun k hk => isFree_empty.2 (by omega)).1, if_pos (by omega)]
      congr 1
      omega
    have hfull : ∀ s < ((Matching.empty a.size b.size).linkSubtrees 0 0 a.size).forward.size,
        ((Matching.empty a.size b.size).linkSubtrees 0 0 a.size).toRepaired? s ≠ none := by
      intro s hs
      rw [forward_size_linkSubtrees, Matching.empty, Array.size_replicate] at hs
      rw [hall s hs]
      exact Option.some_ne_none s
    obtain ⟨rest, hrest⟩ := tallestFirst_eq_cons hT htall
    rw [topDown, hrest, List.foldl_cons, linkTwin_root h ho hT htall,
      List.foldl_fixed' (linkTwin_of_full hfull), linkRoots_of_full hfull]
    exact hall s hs
  · have h0 : s = 0 := by
      by_contra h0
      obtain ⟨y, below, hy⟩ := Ast.exists_sub? hs
      have hheight : ((of a b).old s).height = below.height + 1 := Digest.height_at_ofAst hy
      have := height_old_lt (b := b) hT hs h0
      simp only [leastHeight] at htall
      omega
    subst h0
    rw [topDown_of_low hT htall]
    exact toRepaired?_linkRoots (isFree_empty.2 (by omega)) hs (by omega)
      (Ast.kind_eq_of_outline (by rw [ho]) hs).1

/-- Every node of a program is matched with itself in a program of the same outline. -/
lemma toRepaired?_matching (ha : a.IsArena) (h : TellsApart a b) (ho : a.outline = b.outline)
    {s : Nat} (hs : s < a.size) : (of a b).matching.toRepaired? s = some s := by
  have hpos : 0 < b.size := Ast.size_congr ho ▸ Nat.zero_lt_of_lt hs
  have hfit := (safe_linkRoots (of a b) _ (safe_topDown h _ (fits_empty (of a b))).2).2
  have hfirst : ∀ s < a.size, _ := fun s hs => toRepaired?_linkRoots_topDown ha h ho hs
  rw [matching_of_pos (Nat.zero_lt_of_lt hs) hpos, later_of_full]
  · exact hfirst s hs
  · intro s hs
    rw [hfit.forward_size] at hs
    exact fun hnone => Option.some_ne_none s ((hfirst s hs).symm.trans hnone)

end Trees

/-- With every node matched with itself in a program of the same outline, every pair is unchanged. -/
lemma pairChange_of_outline_eq (ho : a.outline = b.outline)
    (hm : ∀ s < a.size, m.toRepaired? s = some s) (hs : s < a.size) :
    pairChange a b m (outOfOrder a b m) s s = .unchanged := by
  have hlabel : a.label s = b.label s := (Ast.kind_eq_of_outline (by rw [ho]) hs).2
  have hparent : sameParent a b m s s = true := by
    unfold sameParent
    rw [← Ast.parent?_congr ho]
    cases hp : a.parent? s with
    | none => rfl
    | some p => simp [hm p (a.isClosed.parent s p hp)]
  have horder : s ∉ outOfOrder a b m := by
    refine not_mem_outOfOrder fun sp dp _ _ c hc c' hc' hlt e e' he he' => ?_
    rw [hm c (Ast.mem_children hc).2, Option.some.injEq] at he
    rw [hm c' (Ast.mem_children hc').2, Option.some.injEq] at he'
    omega
  simp [pairChange, hlabel, hparent, horder]

/-! ## Programs without a change -/

/-- An unchanged pair has one label, linked parents and its place. -/
lemma pairChange_eq_unchanged {moved : List Nat} (h : pairChange a b m moved s d = .unchanged) :
    a.label s = b.label d ∧ sameParent a b m s d = true ∧ s ∉ moved := by
  unfold pairChange at h
  split at h
  · cases h
  · next hlabel =>
    split at h
    · cases h
    · next hmoved =>
      simp only [Bool.or_eq_true, Bool.not_eq_true', List.contains_iff_mem, not_or,
        Bool.not_eq_false] at hmoved
      exact ⟨not_not.1 hlabel, hmoved.1, hmoved.2⟩

/-- Two nodes have the same parent iff both have none or the parents are linked. -/
lemma sameParent_iff : sameParent a b m s d = true ↔
    (a.parent? s = none ∧ b.parent? d = none) ∨
      ∃ sp dp, a.parent? s = some sp ∧ b.parent? d = some dp ∧ m.toRepaired? sp = some dp := by
  unfold sameParent
  cases a.parent? s <;> cases b.parent? d <;> simp

/-- A matching of all nodes that leaves every pair as it was. -/
structure Unchanged (a b : Ast) (m : Matching) : Prop where
  exists_partner : ∀ s < a.size, ∃ d, m.toRepaired? s = some d
  exists_origin : ∀ d < b.size, ∃ s, m.toRepaired? s = some d
  label_eq : ∀ s d, m.toRepaired? s = some d → a.label s = b.label d
  sameParent : ∀ s d, m.toRepaired? s = some d → sameParent a b m s d = true
  in_order : ∀ s < a.size, s ∉ outOfOrder a b m

namespace Unchanged

variable (hu : Unchanged a b m) (hfit : Fits (Trees.of a b) m)

include hu

/-- The partner of a child stands below the partner of its parent. -/
lemma parent?_partner {c e sp dp : Nat} (hc : c ∈ a.children sp) (he : m.toRepaired? c = some e)
    (hp : m.toRepaired? sp = some dp) : b.parent? e = some dp := by
  have hcp := Ast.parent?_eq_some_iff.2 hc
  rcases sameParent_iff.1 (hu.sameParent c e he) with ⟨hnone, -⟩ | ⟨sp', dp', hsp, hdp, hpair⟩
  · simp [hcp] at hnone
  · rw [hcp, Option.some.injEq] at hsp
    rw [← hsp, hp] at hpair
    rw [hdp, hpair]

/-- The partners of the children, in order, are the children of the partner. -/
lemma map_partner_children {sp dp : Nat} (hp : m.toRepaired? sp = some dp) :
    (a.children sp).map (fun c => (m.toRepaired? c).getD 0) = b.children dp := by
  have hpartner : ∀ c ∈ a.children sp, ∃ e, m.toRepaired? c = some e ∧ b.parent? e = some dp := by
    intro c hc
    obtain ⟨e, he⟩ := hu.exists_partner c (Ast.mem_children hc).2
    exact ⟨e, he, hu.parent?_partner hc he hp⟩
  -- Both lists increase, so it is enough that they have the same members.
  refine List.Pairwise.eq_of_mem_iff (r := (· < ·)) ?_ (b.pairwise_children dp) fun e => ?_
  · rw [List.pairwise_map]
    refine (a.pairwise_children sp).imp_of_mem fun hc hc' hlt => ?_
    obtain ⟨e, he, hep⟩ := hpartner _ hc
    obtain ⟨e', he', hep'⟩ := hpartner _ hc'
    rw [he, he', Option.getD_some, Option.getD_some]
    exact partner_lt_of_not_mem_outOfOrder hp hc he hep hc' he' hep'
      (hu.in_order _ (Ast.mem_children hc).2) (hu.in_order _ (Ast.mem_children hc').2) hlt
  · rw [List.mem_map]
    constructor
    · rintro ⟨c, hc, rfl⟩
      obtain ⟨e, he, hep⟩ := hpartner c hc
      rw [he, Option.getD_some]
      exact Ast.parent?_eq_some_iff.1 hep
    · intro he
      obtain ⟨c, hc⟩ := hu.exists_origin e (Ast.mem_children he).2
      have hep := Ast.parent?_eq_some_iff.2 he
      rcases sameParent_iff.1 (hu.sameParent c e hc) with ⟨-, hnone⟩ | ⟨sp', dp', hsp, hdp, hpair⟩
      · simp [hep] at hnone
      · rw [hep, Option.some.injEq] at hdp
        rw [← hdp, m.toRepaired?_eq_some_iff, m.toRepaired?_eq_some_iff.1 hp,
          Option.some.injEq] at hpair
        refine ⟨c, ?_, by rw [hc, Option.getD_some]⟩
        rw [hpair]
        exact Ast.parent?_eq_some_iff.1 hsp

include hfit

/-- Linked nodes have one outline. -/
lemma outline_eq_of_partner (hp : m.toRepaired? s = some d) :
    a.outline.sub? s = b.outline.sub? d := by
  -- From the last node to the first: children come after their parents.
  induction hn : a.size - s using Nat.strong_induction_on generalizing s d with
  | _ n ih =>
    obtain ⟨hs, hd⟩ := hfit.lt_size hp
    obtain ⟨x, kids, hx⟩ := Forest.exists_sub? (f := a.outline) (by rwa [Ast.size_outline])
    obtain ⟨y, below, hy⟩ := Forest.exists_sub? (f := b.outline) (by rwa [Ast.size_outline])
    have hface : x = y := by
      have hkind : a.kind s = b.kind d := hfit.kind_eq s d hp
      rw [Ast.face_of_outline hx, Ast.face_of_outline hy, hkind, hu.label_eq s d hp]
    have hkids : kids = below := by
      refine Forest.trees_injective (List.map_injective_iff.2 (Option.some_injective _) ?_)
      rw [← Ast.map_children_outline hx, ← Ast.map_children_outline hy,
        ← hu.map_partner_children hp, List.map_map]
      refine List.map_congr_left fun c hc => ?_
      obtain ⟨hlt, hlt'⟩ := Ast.mem_children hc
      obtain ⟨e, he⟩ := hu.exists_partner c hlt'
      change s < a.size at hs
      rw [Function.comp_apply, he, Option.getD_some]
      exact ih _ (by omega) he rfl
    rw [hx, hy, hface, hkids]

end Unchanged

/-- All labels say unchanged just if the matching leaves everything as it was. -/
lemma unchanged_classifiedBy (hfit : Fits (Trees.of a b) m)
    (ha : ∀ s < a.size, (classifiedBy a b m).buggy.change s = .unchanged)
    (hb : ∀ d < b.size, (classifiedBy a b m).repaired.change d = .unchanged) : Unchanged a b m := by
  have hpartner : ∀ s < a.size, ∃ d, m.toRepaired? s = some d := by
    intro s hs
    have hc := ha s hs
    rw [buggy_change_classifiedBy a b m hs] at hc
    cases hp : m.toRepaired? s with
    | none =>
      rw [hp] at hc
      cases hc
    | some d => exact ⟨d, rfl⟩
  have hpair : ∀ s d, m.toRepaired? s = some d →
      pairChange a b m (outOfOrder a b m) s d = .unchanged := by
    intro s d hp
    have hc := ha s (hfit.lt_size hp).1
    rwa [buggy_change_classifiedBy a b m (hfit.lt_size hp).1, hp] at hc
  exact {
    exists_partner := hpartner
    exists_origin := by
      intro d hd
      have hc := hb d hd
      rw [repaired_change_classifiedBy a b m hd] at hc
      cases hp : m.toBuggy? d with
      | none =>
        rw [hp] at hc
        cases hc
      | some s => exact ⟨s, m.toRepaired?_eq_some_iff.2 hp⟩
    label_eq := fun s d hp => (pairChange_eq_unchanged (hpair s d hp)).1
    sameParent := fun s d hp => (pairChange_eq_unchanged (hpair s d hp)).2.1
    in_order := by
      intro s hs
      obtain ⟨d, hp⟩ := hpartner s hs
      exact (pairChange_eq_unchanged (hpair s d hp)).2.2 }

/-- Programs that a matching leaves as they were have one outline: their roots are partners. -/
lemma Unchanged.outline_eq (hu : Unchanged a b m) (hfit : Fits (Trees.of a b) m) (ha : a.IsArena)
    (hb : b.IsArena) : a.outline = b.outline := by
  have hempty : ∀ {c : Ast}, c.tree = .nil → c.size = 0 := fun hT => by
    rw [Ast.size_eq, hT, Forest.size]
  rcases ha.cases with hT | ⟨x, kids, hT⟩
  · rcases hb.cases with hT' | ⟨y, below, hT'⟩
    · rw [Ast.outline, Ast.outline, hT, hT']
    · have hsize := Ast.size_of_root hT'
      obtain ⟨s, hs⟩ := hu.exists_origin 0 (by omega)
      have hlt : s < a.size := (hfit.lt_size hs).1
      rw [hempty hT] at hlt
      exact absurd hlt (Nat.not_lt_zero s)
  · have hsize := Ast.size_of_root hT
    obtain ⟨d, hd⟩ := hu.exists_partner 0 (by omega)
    have hlt : d < b.size := (hfit.lt_size hd).2
    have h0 : d = 0 := by
      by_contra h0
      obtain ⟨p, hp⟩ := hb.exists_parent? hlt h0
      rcases sameParent_iff.1 (hu.sameParent 0 d hd) with ⟨-, hnone⟩ | ⟨sp, -, hsp, -⟩
      · simp [hp] at hnone
      · simp [Ast.parent?_zero] at hsp
    subst h0
    have ho := hu.outline_eq_of_partner hfit hd
    rcases hb.cases with hT' | ⟨y, below, hT'⟩
    · rw [hempty hT'] at hlt
      exact absurd hlt (Nat.not_lt_zero 0)
    · rw [Ast.outline, Ast.outline, hT, hT'] at ho ⊢
      simp only [Forest.map, Forest.sub?, Option.some.injEq, Prod.mk.injEq] at ho
      rw [Forest.map, Forest.map, ho.1, ho.2]
      rfl

/-- Comparing two programs finds every node unchanged if and only if the programs have the same kinds
and labels in the same tree. -/
theorem unchanged_iff_outline_eq (ha : a.IsArena) (hb : b.IsArena) (h : TellsApart a b) :
    ∃ c, classify a b = .ok c ∧ c.buggy.toAst = a ∧ c.repaired.toAst = b ∧
      (((∀ s < a.size, c.buggy.change s = .unchanged) ∧
          ∀ d < b.size, c.repaired.change d = .unchanged) ↔
        a.outline = b.outline) := by
  have hfit := (Trees.safe_matching h).2
  refine ⟨_, classify_eq h, rfl, rfl, fun ⟨hbuggy, hrepaired⟩ => ?_, fun ho => ⟨?_, ?_⟩⟩
  · exact (unchanged_classifiedBy hfit hbuggy hrepaired).outline_eq hfit ha hb
  · intro s hs
    rw [buggy_change_classifiedBy a b _ hs, Trees.toRepaired?_matching ha h ho hs]
    exact pairChange_of_outline_eq ho (fun s hs => Trees.toRepaired?_matching ha h ho hs) hs
  · intro d hd
    have hs : d < a.size := by rwa [Ast.size_congr ho]
    have hp := Trees.toRepaired?_matching ha h ho hs
    rw [repaired_change_classifiedBy a b _ hd, (Matching.toRepaired?_eq_some_iff _).1 hp]
    exact pairChange_of_outline_eq ho (fun s hs => Trees.toRepaired?_matching ha h ho hs) hs

/-- A call whose argument was renamed is not unchanged throughout. -/
theorem unchanged_iff_outline_eq_callOf :
    (callOf "x").IsArena ∧ (callOf "y").IsArena ∧ TellsApart (callOf "x") (callOf "y") ∧
      ∃ c, classify (callOf "x") (callOf "y") = .ok c ∧
        ¬ ((∀ s < (callOf "x").size, c.buggy.change s = .unchanged) ∧
          ∀ d < (callOf "y").size, c.repaired.change d = .unchanged) := by
  have hx : (callOf "x").IsArena := Nat.le_refl 1
  have hy : (callOf "y").IsArena := Nat.le_refl 1
  have h : TellsApart (callOf "x") (callOf "y") := by decide +kernel
  obtain ⟨c, hc, -, -, hiff⟩ := unchanged_iff_outline_eq hx hy h
  exact ⟨hx, hy, h, c, hc, fun hall => absurd (hiff.1 hall) (by decide)⟩

end Mend.Matching
