import Mathlib.Data.List.Find
import Mend.Matching.Trees
import Mend.Proofs.Syntax.Roles

/-!
# The names of declarations

A declaration begins with its name, decorators and comments apart (`beginsWithName`). The name is a leaf, or it
is a pattern or computed and then opens with a bracket, which no leaf does. `Source.NamesDeclarations` says
so of the parser's tree. It stays so in the program that is read (`named_read`), and there the name can be
told without looking at roles: it is the first child that does not stand ahead of names
(`exists_name`). So declarations with the same outline have the same leaf for a name, or both have none
(`Named.leafName?_of_outline`).
-/

namespace Mend.Syntax

open Matching (anchorKinds nameText?)

/-! ## Names in the parser's tree -/

/-- The kinds of node that stand ahead of the name of a declaration. -/
def aheadKinds : List String := "decorator" :: extraKinds

/-- The kinds of name that are no leaf. -/
def bracketedKinds : List String := ["object_pattern", "array_pattern", "computed_property_name"]

/-- Whether the first part that does not stand ahead of names is a name. -/
def beginsWithName : List Part → Bool
  | [] => false
  | x :: parts =>
    if aheadKinds.contains x.kind then x.role != some "name" && beginsWithName parts
    else x.role == some "name" && (leafKinds ++ bracketedKinds).contains x.kind

/-- Whether a text begins with an opening bracket. -/
def opensBracket (text : String) : Bool := ['[', '\x7b'].any fun c => text.toList.head? == some c

/-- Whether the text of a node that may be a name opens with a bracket just if it is no leaf. -/
def bracketFits (kind text : String) : Bool :=
  !(leafKinds ++ bracketedKinds).contains kind || opensBracket text == !leafKinds.contains kind

/-- What the grammar says of names: the root of a parser's tree is no declaration, declarations begin with their
names, and of the names those that are no leaves open with a bracket. -/
structure Source.NamesDeclarations (s : Source) : Prop where
  root : ∀ t ∈ s.tree.roots, t.kind = "program"
  begins : s.tree.everywhere (fun t kids =>
    !anchorKinds.contains t.kind || beginsWithName ((Concrete.namedRoots kids).map Token.part)) = true
  brackets : s.tree.everywhere (fun t _ =>
    bracketFits t.kind ((Text.slice? s.text t.start t.stop).getD "")) = true

instance (s : Source) : Decidable s.NamesDeclarations :=
  decidable_of_iff (_ ∧ _ ∧ _)
    ⟨fun ⟨root, begins, brackets⟩ => ⟨root, begins, brackets⟩, fun h => ⟨h.root, h.begins, h.brackets⟩⟩

/-! ## Names in what is read -/

variable {source : String} {simplify : Bool} {f : Concrete}

lemma not_leaf_anchorKinds : ∀ kind, anchorKinds.contains kind = true → leafKinds.contains kind = false := by
  simp only [List.contains_iff_mem]
  decide

/-- What is left out or unwrapped is no name and does not stand ahead of one. -/
lemma kind_ne_of_beginsWithName {x : Part} {parts : List Part}
    (h : beginsWithName (x :: parts) = true) :
    x.kind ≠ "empty_statement" ∧ x.kind ≠ "parenthesized_expression" := by
  have hnot : ∀ kind ∈ ["empty_statement", "parenthesized_expression"],
      aheadKinds.contains kind = false ∧ (leafKinds ++ bracketedKinds).contains kind = false := by decide
  have hmem : x.kind ∉ ["empty_statement", "parenthesized_expression"] := by
    intro hx
    obtain ⟨hahead, hname⟩ := hnot x.kind hx
    rw [beginsWithName, hahead, hname, Bool.and_false] at h
    cases h
  simpa using hmem

/-- The parts of a declaration still begin with its name when they are read. -/
lemma beginsWithName_readForest (h : beginsWithName ((Concrete.namedRoots f).map Token.part) = true) :
    beginsWithName ((readForest source simplify f .all).roots.map Node.part) = true := by
  induction f with
  | nil => cases h
  | cons t kids rest _ ih =>
    rw [namedRoots_cons] at h
    cases hnamed : t.named with
    | false =>
      rw [hnamed] at h
      rw [readForest_of_skips (by rw [Pick.skips, hnamed]; rfl)]
      exact ih h
    | true =>
      rw [hnamed, if_pos rfl, List.singleton_append, List.map_cons] at h
      obtain ⟨hempty, hparentheses⟩ := kind_ne_of_beginsWithName h
      by_cases hcomment : t.kind = "comment"
      · rw [readForest_of_skips (by simp [Pick.skips, hcomment])]
        have hahead : aheadKinds.contains t.part.kind = true := by
          rw [Token.part_kind, hcomment]
          decide
        rw [beginsWithName, if_pos hahead] at h
        exact ih (Bool.and_eq_true_iff.1 h).2
      · have hskips : Pick.all.skips simplify t = false := by
          simp_all [Pick.skips]
        have hwrapper : ¬ (simplify && isWrapper t kids) = true := by
          simp_all [isWrapper]
        rw [readForest_all hskips, Forest.roots_append, readTree, if_neg hwrapper, List.map_append]
        change beginsWithName (t.part :: (readForest source simplify rest .all).roots.map Node.part) = true
        rw [beginsWithName] at h ⊢
        split
        · next hahead =>
          rw [if_pos hahead, Bool.and_eq_true] at h
          exact Bool.and_eq_true_iff.2 ⟨h.1, ih h.2⟩
        · next hahead => rwa [if_neg hahead] at h

lemma kind_of_mem_roots_readForest_inner (h : ∀ t ∈ f.roots, t.kind = "program") (role : Option String) :
    ∀ x ∈ (readForest source simplify f (.inner role)).roots, x.kind = "program" := by
  induction f with
  | nil => exact nofun
  | cons t kids rest _ ih =>
    cases hskips : (Pick.inner role).skips simplify t with
    | true =>
      rw [readForest_of_skips hskips]
      exact ih fun u hu => h u (List.mem_cons_of_mem t hu)
    | false =>
      have hkind := h t List.mem_cons_self
      have hwrapper : ¬ (simplify && isWrapper t kids) = true := by simp [isWrapper, hkind]
      rw [readForest_inner hskips, readTree, if_neg hwrapper]
      intro x hx
      rw [List.mem_singleton.1 hx, hkind]

namespace Ast

variable {a b : Ast} {i j : Nat} {kind name : String}

lemma text_of_sub? {x : Node} {kids : Forest Node} (h : a.tree.sub? i = some (x, kids)) :
    a.text i = x.textIn a.source := by
  obtain ⟨e, he, rfl, -, -⟩ := row?_of_sub? h
  rw [text, he]
  rfl

/-- The root is no declaration, declarations begin with their names, and names that are no leaves open with a
bracket. -/
structure Named (a : Ast) : Prop where
  root : anchorKinds.contains (a.kind 0) = false
  begins : ∀ i, anchorKinds.contains (a.kind i) = true →
    beginsWithName ((a.children i).map a.part) = true
  brackets : ∀ i, bracketFits (a.kind i) (a.text i) = true
  text_eq_label : ∀ i, leafKinds.contains (a.kind i) = true → a.text i = a.label i

/-- A program that is read from a tree that names its declarations names them. -/
lemma named_read {s : Source} (h : s.NamesDeclarations) (simplify : Bool) : (s.read simplify).Named where
  root := by
    by_cases h0 : 0 < (s.read simplify).size
    · obtain ⟨x, kids, hs⟩ := exists_sub? h0
      have hroot := kind_of_mem_roots_readForest_inner h.root none x (Forest.mem_roots_of_sub? hs)
      rw [kind_of_sub? hs, hroot]
      decide
    · rw [kind_eq_empty h0]
      decide
  begins i hi := by
    by_cases hlt : i < (s.read simplify).size
    · obtain ⟨x, kids, hs⟩ := exists_sub? hlt
      rw [kind_of_sub? hs] at hi
      have hread : (readForest s.text simplify s.tree (.inner none)).everywhere (fun x kids =>
          !anchorKinds.contains x.kind || beginsWithName (kids.roots.map Node.part)) = true := by
        refine everywhere_readForest_of (fun t kids role ht _ => ?_) h.begins (.inner none)
        cases hanchor : anchorKinds.contains t.kind with
        | false => rfl
        | true =>
          rw [hanchor] at ht
          rw [if_neg (by rw [not_leaf_anchorKinds _ hanchor]; exact Bool.false_ne_true)]
          exact beginsWithName_readForest ht
      have hx := Forest.everywhere_sub? hread hs
      rwa [hi, Bool.not_true, Bool.false_or, ← map_part_children hs] at hx
    · rw [kind_eq_empty hlt] at hi
      exact absurd hi (by decide)
  brackets i := by
    by_cases hlt : i < (s.read simplify).size
    · obtain ⟨x, kids, hs⟩ := exists_sub? hlt
      rw [kind_of_sub? hs, text_of_sub? hs]
      have hread : (readForest s.text simplify s.tree (.inner none)).everywhere (fun x _ =>
          bracketFits x.kind (x.textIn s.text)) = true :=
        everywhere_readForest_of (fun t kids role ht _ => ht) h.brackets (.inner none)
      exact Forest.everywhere_sub? hread hs
    · rw [kind_eq_empty hlt]
      rfl
  text_eq_label i := text_eq_label_of_read s simplify

/-! ## The leaf that names a declaration -/

/-- The name of a declaration that is named by a leaf. -/
def leafName? (a : Ast) (i : Nat) : Option String :=
  ((a.child? i "name").filter fun n => leafKinds.contains (a.kind n)).map a.text

/-- The nodes of a kind that have a leaf with the text `name` for their name. -/
def declaring (a : Ast) (kind name : String) : List Nat :=
  a.ids.filter fun i => a.kind i == kind && a.leafName? i == some name

lemma mem_declaring : i ∈ a.declaring kind name ↔
    i < a.size ∧ a.kind i = kind ∧ a.leafName? i = some name := by
  simp only [declaring, List.mem_filter, mem_ids, Bool.and_eq_true, beq_iff_eq]

/-- The first of some nodes that is a name is the first that does not stand ahead of names. -/
lemma find?_of_beginsWithName {l : List Nat} (h : beginsWithName (l.map a.part) = true) :
    ∃ n, l.find? (fun c => a.field? c == some "name") = some n ∧
      l.find? (fun c => !aheadKinds.contains (a.kind c)) = some n ∧
      (leafKinds ++ bracketedKinds).contains (a.kind n) = true := by
  induction l with
  | nil => cases h
  | cons c l ih =>
    rw [List.map_cons, beginsWithName] at h
    rw [List.find?_cons, List.find?_cons]
    change (if aheadKinds.contains (a.kind c) then a.field? c != some "name" && beginsWithName (l.map a.part)
      else a.field? c == some "name" && (leafKinds ++ bracketedKinds).contains (a.kind c)) = true at h
    split at h
    · next hahead =>
      rw [Bool.and_eq_true, bne_iff_ne] at h
      rw [beq_false_of_ne h.1, hahead]
      exact ih h.2
    · next hahead =>
      rw [Bool.and_eq_true] at h
      rw [h.1, Bool.eq_false_iff.2 hahead]
      exact ⟨c, rfl, rfl, h.2⟩

namespace Named

/-- The name of a declaration is its first child that does not stand ahead of names. -/
lemma exists_name (h : a.Named) (hi : anchorKinds.contains (a.kind i) = true) :
    ∃ n, a.child? i "name" = some n ∧
      (a.children i).find? (fun c => !aheadKinds.contains (a.kind c)) = some n ∧
      (leafKinds ++ bracketedKinds).contains (a.kind n) = true :=
  find?_of_beginsWithName (h.begins i hi)

/-- The names that open with no bracket are those that are leaves. -/
lemma leafName?_eq_some_iff (h : a.Named) (hi : anchorKinds.contains (a.kind i) = true) :
    a.leafName? i = some name ↔ nameText? a i = some name ∧ opensBracket name = false := by
  obtain ⟨n, hn, -, hkind⟩ := h.exists_name hi
  have hfits := h.brackets n
  rw [bracketFits, hkind, Bool.not_true, Bool.false_or, beq_iff_eq] at hfits
  rw [leafName?, nameText?, hn]
  cases hleaf : leafKinds.contains (a.kind n) with
  | true =>
    rw [hleaf] at hfits
    simp only [Option.filter_some, hleaf, if_true, Option.map_some, Option.some.injEq, iff_self_and]
    rintro rfl
    exact hfits
  | false =>
    rw [hleaf] at hfits
    simp only [Option.filter_some, hleaf, Option.map_some, Option.some.injEq]
    constructor
    · nofun
    · rintro ⟨rfl, hnot⟩
      rw [hfits] at hnot
      cases hnot

/-- Declarations with the same outline are named by the same leaf, or both by none. -/
lemma leafName?_of_outline (ha : a.Named) (hb : b.Named) (h : a.outline.sub? i = b.outline.sub? j)
    (hi : i < a.size) (hanchor : anchorKinds.contains (a.kind i) = true) :
    a.leafName? i = b.leafName? j := by
  obtain ⟨n, hn, hfirst, -⟩ := ha.exists_name hanchor
  obtain ⟨n', hn', hfirst', -⟩ := hb.exists_name ((kind_eq_of_outline h hi).1 ▸ hanchor)
  obtain ⟨places, hchildren, hchildren', hplaces⟩ := exists_places h hi
  have hsame : places.find? ((fun c => !aheadKinds.contains (a.kind c)) ∘ (i + ·)) =
      places.find? ((fun c => !aheadKinds.contains (b.kind c)) ∘ (j + ·)) := by
    refine List.find?_congr fun k hk => ?_
    have hlt := (mem_children (hchildren ▸ List.mem_map_of_mem hk)).2
    rw [Function.comp, Function.comp, (kind_eq_of_outline (hplaces k hk) hlt).1]
  rw [hchildren, List.find?_map] at hfirst
  rw [hchildren', List.find?_map, ← hsame] at hfirst'
  -- The two names are the children at one place.
  obtain ⟨k, hk, rfl⟩ := Option.map_eq_some_iff.1 hfirst
  obtain rfl : j + k = n' := by
    rw [hk] at hfirst'
    exact Option.some.inj hfirst'
  have ho := hplaces k (List.mem_of_find?_eq_some hk)
  obtain ⟨hkind, hlabel⟩ := kind_eq_of_outline ho (child?_bounds hn).2
  rw [leafName?, leafName?, hn, hn', Option.filter_some, Option.filter_some, hkind]
  split
  · next hleaf =>
    rw [Option.map_some, Option.map_some, ha.text_eq_label _ (hkind ▸ hleaf), hb.text_eq_label _ hleaf,
      hlabel]
  · rfl

end Named

end Ast

end Mend.Syntax
