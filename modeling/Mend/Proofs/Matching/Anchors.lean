import Mathlib.Data.List.Nodup
import Mend.Proofs.Matching.Keeps
import Mend.Proofs.Matching.Labels
import Mend.Proofs.Syntax.Names

/-!
# Declarations that are alone with their name find each other

Two declarations of one kind and name, each alone with them in its program, are `Counterparts`. As long as no
pair has one of two nodes without the other, the two are paired with each other or both free
(`Linked.paired_or_free`). The first phase pairs nodes of the same outline only (`linked_topDown_of`), and these
are declarations of one name (`Counterparts.eq_iff_of_outline`); the roots are no declarations; and among the
declarations that are listed by kind and name, no other stands where one of the two does
(`Counterparts.eq_iff_of_mem_uniqueAnchors`). So the two are paired when the list has been gone through, and
stay so (`paired_of_declaring`).
-/

namespace Mend.Matching

open Digest (TellsApart Table)
open Syntax (Ast Source opensBracket)
open Trees (Anchor anchorsOf only? mem_anchorsOf mem_of_only?)

variable {a b : Ast} {m m' : Matching} {kind name : String} {s d i x y : Nat} {free : Nat → Bool}

/-- A node is free after a step that does not pair it. -/
lemma isFree_link (h : m.isFree x y = true) (hs : s ≠ x) (hd : d ≠ y) :
    (m.link s d).isFree x y = true := by
  by_cases hf : m.isFree s d = true
  · rw [isFree_iff] at h ⊢
    rwa [forward_size_link, backward_size_link, toRepaired?_link hf, toBuggy?_link hf, if_neg hs.symm,
      if_neg hd.symm]
  · rwa [link_of_not_isFree hf]

/-- Where no pair has only one of two nodes, they stay free until they are paired with each other. -/
lemma Linked.paired_or_free (h : Linked (fun s d => s = x ↔ d = y) m m')
    (hm : m.toRepaired? x = some y ∨ m.isFree x y = true) :
    m'.toRepaired? x = some y ∨ m'.isFree x y = true := by
  induction h with
  | refl => exact hm
  | @link m' s d _ hp ih =>
    rcases ih with hpaired | hfree
    · exact .inl (keeps_link m' s d x y hpaired)
    · by_cases hs : s = x
      · obtain rfl := hp.1 hs
        obtain rfl := hs
        exact .inl (by rw [toRepaired?_link hfree, if_pos rfl])
      · exact .inr (isFree_link hfree hs (mt hp.2 hs))

/-- Two free nodes that a list pairs with each other and with nothing else are paired when it has been gone
through. -/
lemma toRepaired?_foldl_link {f : Matching → Nat × Nat → Matching} {l : List (Nat × Nat)}
    (hf : ∀ m p, f m p = m.link p.1 p.2) (hmem : (x, y) ∈ l) (hl : ∀ p ∈ l, p.1 = x ↔ p.2 = y)
    (hfree : m.isFree x y = true) : (l.foldl f m).toRepaired? x = some y := by
  obtain ⟨before, after, rfl⟩ := List.append_of_mem hmem
  have hbefore : Linked (fun s d => s = x ↔ d = y) m (before.foldl f m) :=
    .foldl (fun p hp m => hf m p ▸ .link .refl (hl p (List.mem_append_left _ hp))) m
  rw [List.foldl_append, List.foldl_cons]
  generalize before.foldl f m = m' at hbefore ⊢
  apply keeps_foldl (fun m p => hf m p ▸ keeps_link m p.1 p.2) after
  rw [hf]
  rcases hbefore.paired_or_free (.inr hfree) with hpaired | hfree
  · exact keeps_link m' x y x y hpaired
  · rw [toRepaired?_link hfree, if_pos rfl]

namespace Trees

/-- The first phase pairs nodes of the same outline. -/
lemma linked_topDown_of (h : TellsApart a b) (m : Matching) :
    Linked (fun s d => s < a.size ∧ d < b.size ∧ a.outline.sub? s = b.outline.sub? d) m
      ((of a b).topDown m) := by
  refine .foldl (fun s hmem m => ?_) m
  rcases linkTwin_cases (of a b) m s with ⟨d, htwin, -, -, he⟩ | ⟨-, he⟩
  · have hs : s < a.size := (mem_tallestFirst.1 hmem).1
    obtain ⟨hd, -, hsame, -⟩ : d < b.size ∧ _ := mem_twins.1 htwin
    have ho := outline_of_sameDigest h hs hd hsame
    obtain ⟨x, kids, hx⟩ := Ast.exists_sub? hs
    obtain ⟨y, below, hy⟩ := Ast.exists_sub? hd
    rw [he]
    refine .linkSubtrees (fun k hk => ?_) m
    change k < ((Table.ofAst a).at s).size at hk
    rw [Digest.size_at_ofAst hx] at hk
    have hlt := Ast.add_lt_size hx
    have hlt' := Ast.add_lt_size hy
    rw [← Ast.size_eq_of_outline ho hx hy] at hlt'
    exact ⟨by omega, by omega, Ast.outline_add ho hx (by omega)⟩
  · rw [he]
    exact .refl

/-! ## The list of named declarations -/

/-- No anchor is listed twice. -/
lemma nodup_anchorsOf (a : Ast) (free : Nat → Bool) : (anchorsOf a free).Nodup := by
  refine List.Nodup.filterMap (fun i j p hi hj => ?_) List.nodup_range
  have hsecond : ∀ i, p ∈ (if anchorKinds.contains (a.kind i) && free i then
      (nameText? a i).map fun name => ((⟨a.kind i, name⟩ : Anchor), i) else none) → p.2 = i := by
    intro i hp
    split at hp
    · obtain ⟨name, -, rfl⟩ := Option.map_eq_some_iff.1 hp
      rfl
    · cases hp
  rw [← hsecond i hi, hsecond j hj]

/-- An entry that no other has the key of is found under it. -/
lemma only?_eq_some {anchors : List (Anchor × Nat)} {key : Anchor} (hnodup : anchors.Nodup)
    (h : ∀ i, (key, i) ∈ anchors ↔ i = x) : only? anchors key = some x := by
  have hfilter : anchors.filter (·.1 == key) = [(key, x)] := by
    rw [← List.perm_singleton, List.perm_ext_iff_of_nodup (hnodup.filter _) (List.nodup_singleton _)]
    rintro ⟨key', i⟩
    rw [List.mem_filter, List.mem_singleton, Prod.mk.injEq, beq_iff_eq]
    constructor
    · rintro ⟨hmem, rfl⟩
      exact ⟨rfl, (h i).1 hmem⟩
    · rintro ⟨rfl, rfl⟩
      exact ⟨(h i).2 rfl, rfl⟩
  rw [only?, hfilter]

/-- A pair of anchors is unique iff each is the only one under its key. -/
lemma mem_uniqueAnchors_iff {t : Trees} : (s, d) ∈ t.uniqueAnchors m ↔
    ∃ key, (key, s) ∈ anchorsOf t.buggy (fun s => (m.toRepaired? s).isNone) ∧
      (∃ i, only? (anchorsOf t.buggy fun s => (m.toRepaired? s).isNone) key = some i) ∧
      only? (anchorsOf t.repaired fun d => (m.toBuggy? d).isNone) key = some d := by
  simp only [uniqueAnchors, List.mem_filterMap]
  constructor
  · rintro ⟨⟨key, s'⟩, hold, heq⟩
    split at heq
    · next i d' hi hd =>
      cases heq
      exact ⟨key, hold, ⟨i, hi⟩, hd⟩
    · cases heq
  · rintro ⟨key, hold, ⟨i, hi⟩, hd⟩
    refine ⟨(key, s), hold, ?_⟩
    simp only [hi, hd]

end Trees

/-! ## Two declarations -/

/-- Two declarations of one kind, each the only one in its program with the leaf `name` for its name. -/
structure Counterparts (a b : Ast) (kind name : String) (x y : Nat) : Prop where
  named : a.Named
  named' : b.Named
  anchor : anchorKinds.contains kind = true
  declaring_eq : a.declaring kind name = [x]
  declaring_eq' : b.declaring kind name = [y]

section

variable (ha : a.Named) (hkind : anchorKinds.contains kind = true) (hx : a.declaring kind name = [x])

include ha hkind hx

/-- What is listed under the kind and name of a declaration that is alone with them is the declaration. -/
lemma mem_anchorsOf_of_declaring :
    (⟨kind, name⟩, i) ∈ anchorsOf a free ↔ i = x ∧ free i = true := by
  have hmem : ∀ i, i ∈ a.declaring kind name ↔ i = x := fun i => by rw [hx, List.mem_singleton]
  obtain ⟨-, hkindx, hnamex⟩ := Ast.mem_declaring.1 ((hmem x).2 rfl)
  obtain ⟨-, hopens⟩ := (ha.leafName?_eq_some_iff (by rwa [hkindx])).1 hnamex
  rw [mem_anchorsOf, ← hmem, Ast.mem_declaring]
  constructor
  · rintro ⟨hi, hanchor, hfree, hkindi, hname⟩
    exact ⟨⟨hi, hkindi, (ha.leafName?_eq_some_iff hanchor).2 ⟨hname, hopens⟩⟩, hfree⟩
  · rintro ⟨⟨hi, hkindi, hname⟩, hfree⟩
    have hanchor : anchorKinds.contains (a.kind i) = true := by rwa [hkindi]
    exact ⟨hi, hanchor, hfree, hkindi, ((ha.leafName?_eq_some_iff hanchor).1 hname).1⟩

/-- The only declaration of a name is the only anchor of its key. -/
lemma only?_of_declaring (hfree : free x = true) : (⟨kind, name⟩, x) ∈ anchorsOf a free ∧
    only? (anchorsOf a free) ⟨kind, name⟩ = some x := by
  have hlisted : ∀ i, (⟨kind, name⟩, i) ∈ anchorsOf a free ↔ i = x := by
    intro i
    rw [mem_anchorsOf_of_declaring ha hkind hx, and_iff_left_iff_imp]
    rintro rfl
    exact hfree
  exact ⟨(hlisted x).2 rfl, Trees.only?_eq_some (Trees.nodup_anchorsOf a free) hlisted⟩

/-- A declaration is not the root. -/
lemma ne_zero_of_declaring : x ≠ 0 := by
  rintro rfl
  have hmem : 0 ∈ a.declaring kind name := hx ▸ List.mem_singleton_self 0
  rw [← (Ast.mem_declaring.1 hmem).2.1, ha.root] at hkind
  cases hkind

/-- It is listed under no other key. -/
lemma key_eq_of_declaring {key : Anchor} (h : (key, x) ∈ anchorsOf a free) : key = ⟨kind, name⟩ := by
  have hmem : x ∈ a.declaring kind name := hx ▸ List.mem_singleton_self x
  obtain ⟨-, hkindx, hnamex⟩ := Ast.mem_declaring.1 hmem
  obtain ⟨hname, -⟩ := (ha.leafName?_eq_some_iff (by rwa [hkindx])).1 hnamex
  obtain ⟨-, -, -, hkey, hname'⟩ := mem_anchorsOf.1 h
  obtain ⟨kind', name'⟩ := key
  rw [hkindx] at hkey
  rw [hname, Option.some.injEq] at hname'
  rw [hkey, hname']

end

namespace Counterparts

variable (h : Counterparts a b kind name x y)

include h

/-- Both declarations are nodes of their trees. -/
lemma lt_size : x < a.size ∧ y < b.size := by
  have hx : x ∈ a.declaring kind name := h.declaring_eq ▸ List.mem_singleton_self x
  have hy : y ∈ b.declaring kind name := h.declaring_eq' ▸ List.mem_singleton_self y
  exact ⟨(Ast.mem_declaring.1 hx).1, (Ast.mem_declaring.1 hy).1⟩

/-- Of nodes with the same outline both are the declarations or none. -/
lemma eq_iff_of_outline (hs : s < a.size) (hd : d < b.size) (ho : a.outline.sub? s = b.outline.sub? d) :
    s = x ↔ d = y := by
  rw [← List.mem_singleton, ← h.declaring_eq, ← List.mem_singleton (a := d), ← h.declaring_eq',
    Ast.mem_declaring, Ast.mem_declaring, ← (Ast.kind_eq_of_outline ho hs).1]
  by_cases hkind : a.kind s = kind
  · rw [Ast.Named.leafName?_of_outline h.named h.named' ho hs (hkind ▸ h.anchor)]
    simp only [hs, hd]
  · simp only [hkind, false_and, and_false]

/-- No pair of the list has one of the two declarations without the other. -/
lemma eq_iff_of_mem_uniqueAnchors (hmem : (s, d) ∈ (Trees.of a b).uniqueAnchors m) : s = x ↔ d = y := by
  obtain ⟨key, hold, -, hnew⟩ := Trees.mem_uniqueAnchors_iff.1 hmem
  have hnew := mem_of_only? hnew
  constructor
  · rintro rfl
    obtain rfl := key_eq_of_declaring h.named h.anchor h.declaring_eq hold
    exact ((mem_anchorsOf_of_declaring h.named' h.anchor h.declaring_eq').1 hnew).1
  · rintro rfl
    obtain rfl := key_eq_of_declaring h.named' h.anchor h.declaring_eq' hnew
    exact ((mem_anchorsOf_of_declaring h.named h.anchor h.declaring_eq).1 hold).1

/-- If the two are free, they are a pair of the list. -/
lemma mem_uniqueAnchors (hfree : m.isFree x y = true) : (x, y) ∈ (Trees.of a b).uniqueAnchors m := by
  obtain ⟨-, -, hx, hy⟩ := isFree_iff.1 hfree
  obtain ⟨hold, honly⟩ : _ ∧ only? (anchorsOf a fun s => (m.toRepaired? s).isNone) ⟨kind, name⟩ = some x :=
    only?_of_declaring h.named h.anchor h.declaring_eq (Option.isNone_iff_eq_none.2 hx)
  obtain ⟨-, honly'⟩ : _ ∧ only? (anchorsOf b fun d => (m.toBuggy? d).isNone) ⟨kind, name⟩ = some y :=
    only?_of_declaring h.named' h.anchor h.declaring_eq' (Option.isNone_iff_eq_none.2 hy)
  exact Trees.mem_uniqueAnchors_iff.2 ⟨⟨kind, name⟩, hold, ⟨x, honly⟩, honly'⟩

/-- Until the list is gone through the two are paired with each other or free. -/
lemma paired_or_free (htell : TellsApart a b) :
    let m := (Trees.of a b).linkRoots ((Trees.of a b).topDown (.empty a.size b.size))
    m.toRepaired? x = some y ∨ m.isFree x y = true := by
  have hfirst := (Trees.linked_topDown_of htell (.empty a.size b.size)).mono
    fun s d ⟨hs, hd, ho⟩ => h.eq_iff_of_outline hs hd ho
  have hroots := ((Trees.of a b).linked_linkRoots ((Trees.of a b).topDown (.empty a.size b.size))).mono
    fun s d ⟨hs, hd⟩ => show s = x ↔ d = y by
      have hx := ne_zero_of_declaring h.named h.anchor h.declaring_eq
      have hy := ne_zero_of_declaring h.named' h.anchor h.declaring_eq'
      omega
  exact (hfirst.trans hroots).paired_or_free (.inr (isFree_empty.2 h.lt_size))

/-- When the list has been gone through, they are paired. -/
lemma toRepaired?_linkAnchors (hm : m.toRepaired? x = some y ∨ m.isFree x y = true) :
    ((Trees.of a b).linkAnchors m).toRepaired? x = some y := by
  rcases hm with hpaired | hfree
  · exact ((Trees.of a b).linked_linkAnchors m).keeps x y hpaired
  · exact toRepaired?_foldl_link (fun _ _ => rfl) (h.mem_uniqueAnchors hfree)
      (fun _ => h.eq_iff_of_mem_uniqueAnchors) hfree

/-- The declarations are linked in the end. -/
lemma toRepaired?_matching (htell : TellsApart a b) : (Trees.of a b).matching.toRepaired? x = some y := by
  have hx : 0 < a.size := Nat.zero_lt_of_lt h.lt_size.1
  have hy : 0 < b.size := Nat.zero_lt_of_lt h.lt_size.2
  rw [Trees.matching_of_pos hx hy]
  apply ((Trees.of a b).linked_recover _).keeps
  apply ((Trees.of a b).linked_bottomUp _).keeps
  exact h.toRepaired?_linkAnchors (h.paired_or_free htell)

end Counterparts

/-- If each of two programs has only one declaration of a kind whose name is the leaf `name`, these two are
paired. -/
theorem paired_of_declaring {s s' : Source} {simplify simplify' : Bool} (hs : s.NamesDeclarations)
    (hs' : s'.NamesDeclarations) (h : TellsApart (s.read simplify) (s'.read simplify'))
    (hkind : kind ∈ anchorKinds) (hx : (s.read simplify).declaring kind name = [x])
    (hy : (s'.read simplify').declaring kind name = [y]) :
    ∃ c, classify (s.read simplify) (s'.read simplify') = .ok c ∧
      c.matching.toRepaired? x = some y ∧ c.matching.toBuggy? y = some x := by
  have hpair := Counterparts.toRepaired?_matching ⟨Ast.named_read hs simplify,
    Ast.named_read hs' simplify', List.contains_iff_mem.2 hkind, hx, hy⟩ h
  exact ⟨_, classify_eq h, hpair, (Matching.toRepaired?_eq_some_iff _).1 hpair⟩

/-- A text like `var f=x,g=y`, with one-letter names and values. -/
def bindings (texts : List String) : Source :=
  let part (role : String) (start : Nat) (rest : Syntax.Concrete) : Syntax.Concrete :=
    .cons (.clean "identifier" (some role) start (start + 1)) .nil rest
  let declarator (i : Nat) (rest : Syntax.Concrete) : Syntax.Concrete :=
    .cons (.clean "variable_declarator" none (4 * i + 4) (4 * i + 7))
      (part "name" (4 * i + 4) (part "value" (4 * i + 6) .nil)) rest
  ⟨"var " ++ ",".intercalate texts, .cons (.clean "program" none 0 (4 * texts.length + 3))
    (.cons (.clean "variable_declaration" none 0 (4 * texts.length + 3))
      ((List.range texts.length).foldr declarator .nil) .nil) .nil⟩

/-- A binding gets a new value, and another one before it. -/
theorem paired_of_declaring_bindings :
    (bindings ["f=x"]).NamesDeclarations ∧ (bindings ["g=z", "f=y"]).NamesDeclarations ∧
    TellsApart ((bindings ["f=x"]).read false) ((bindings ["g=z", "f=y"]).read false) ∧
    ((bindings ["f=x"]).read false).declaring "variable_declarator" "f" = [2] ∧
    ((bindings ["g=z", "f=y"]).read false).declaring "variable_declarator" "f" = [5] ∧
    ∃ c, classify ((bindings ["f=x"]).read false) ((bindings ["g=z", "f=y"]).read false) = .ok c ∧
      c.matching.toRepaired? 2 = some 5 := by
  have hs : (bindings ["f=x"]).NamesDeclarations := by decide +kernel
  have hs' : (bindings ["g=z", "f=y"]).NamesDeclarations := by decide +kernel
  have htell : TellsApart ((bindings ["f=x"]).read false) ((bindings ["g=z", "f=y"]).read false) := by
    decide +kernel
  have hx : ((bindings ["f=x"]).read false).declaring "variable_declarator" "f" = [2] := by decide +kernel
  have hy : ((bindings ["g=z", "f=y"]).read false).declaring "variable_declarator" "f" = [5] := by
    decide +kernel
  obtain ⟨c, hc, hpair, -⟩ := paired_of_declaring hs hs' htell (by decide) hx hy
  exact ⟨hs, hs', htell, hx, hy, c, hc, hpair⟩

end Mend.Matching
