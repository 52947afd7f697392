import Mathlib.Data.List.Basic
import Mend.Proofs.Syntax.Arena
import Mend.Syntax.Source

/-!
# What is read

Reading keeps the order of the file: the nodes of a program start where nodes of the parser's tree start,
in the same order (`sublist_starts`). Below its root nothing else is read, so that every program that is
read has one root or no node (`isArena_read`). The label of a leaf is the text it covers
(`label_eq_text`).

`IsParse` says that a program is what reading some text without faults gives. In the parser's tree no
node starts before one that precedes it (`Concrete.InOrder`), and so it is in the program
(`IsParse.start_le`).
-/

namespace Mend

universe u

/-- Two forests in preorder, one after the other. -/
lemma Forest.preorder_append {α : Type u} (f g : Forest α) :
    (f ++ g).preorder = f.preorder ++ g.preorder := by
  change (f.append g).preorder = _
  induction f with
  | nil => rfl
  | cons x kids rest _ ihr => simp [append, preorder, ihr]

/-- Numbering keeps the contents in preorder. -/
lemma Forest.map_head_number {α : Type u} (f : Forest α) (parent : Option Nat) (n : Nat) :
    (f.number parent n).map (·.head) = f.preorder := by
  induction f generalizing parent n with
  | nil => rfl
  | cons x kids rest ihk ihr => simp [number, preorder, ihk, ihr]

namespace Syntax

variable {source : String} {simplify : Bool} {t : Token} {f kids rest : Concrete} {pick : Pick}

/-- What is read of one tree of a forest, in the role `role`. -/
def readTree (source : String) (simplify : Bool) (t : Token) (kids : Concrete) (role : Option String) :
    Forest Node :=
  if simplify && isWrapper t kids then readForest source simplify kids (.inner role)
  else
    .cons ⟨t.kind, role, labelOf source t kids, t.start, t.stop, t.row + 1⟩
      (if leafKinds.contains t.kind then .nil else readForest source simplify kids .all) .nil

/-- A tree that is skipped reads to nothing. -/
lemma readForest_of_skips (h : pick.skips simplify t = true) :
    readForest source simplify (.cons t kids rest) pick = readForest source simplify rest pick := by
  rw [readForest, if_pos h]

/-- A tree that is kept reads in front of the rest. -/
lemma readForest_all (h : Pick.all.skips simplify t = false) :
    readForest source simplify (.cons t kids rest) .all =
      readTree source simplify t kids t.field ++ readForest source simplify rest .all := by
  rw [readForest, if_neg (by simp [h])]
  rfl

/-- An inner reading reads the first tree it keeps, in the role given. -/
lemma readForest_inner {role : Option String} (h : (Pick.inner role).skips simplify t = false) :
    readForest source simplify (.cons t kids rest) (.inner role) =
      readTree source simplify t kids role := by
  rw [readForest, if_neg (by simp [h])]
  rfl

/-- At most one tree is picked inside parentheses. -/
lemma length_roots_readForest_inner (source : String) (simplify : Bool) (f : Concrete)
    (role : Option String) : (readForest source simplify f (.inner role)).roots.length ≤ 1 := by
  induction f generalizing role with
  | nil => exact Nat.zero_le 1
  | cons t kids rest ihk ihr =>
    cases hs : (Pick.inner role).skips simplify t with
    | true =>
      rw [readForest_of_skips hs]
      exact ihr role
    | false =>
      rw [readForest_inner hs, readTree]
      split
      · exact ihk role
      · exact Nat.le_refl 1

/-- What is read is an arena. -/
lemma isArena_read (s : Source) (simplify : Bool) : (s.read simplify).IsArena :=
  length_roots_readForest_inner s.text simplify s.tree none

/-- A source that parses has no fault and gives what is read. -/
lemma Source.parse_eq_ok {s : Source} {side : Side} {a : Ast} (h : s.parse side simplify = .ok a) :
    s.tree.fault? = none ∧ a = s.read simplify := by
  rw [parse] at h
  split at h
  · cases h
  · next hfault =>
    cases h
    exact ⟨hfault, rfl⟩

/-- What is read starts where nodes of the parser's tree start, in the same order. -/
lemma sublist_starts (source : String) (simplify : Bool) (f : Concrete) (pick : Pick) :
    ((readForest source simplify f pick).preorder.map (·.start)).Sublist (f.preorder.map (·.start)) := by
  induction f generalizing pick with
  | nil => exact .refl _
  | cons t kids rest ihk ihr =>
    have htree : ∀ role, ((readTree source simplify t kids role).preorder.map (·.start)).Sublist
        (t.start :: kids.preorder.map (·.start)) := by
      intro role
      rw [readTree]
      split
      · exact (ihk (.inner role)).cons t.start
      · simp only [Forest.preorder, List.append_nil, List.map_cons]
        refine .cons_cons t.start ?_
        split
        · exact List.nil_sublist _
        · exact ihk .all
    have hright : (rest.preorder.map (·.start)).Sublist
        ((t.start :: kids.preorder.map (·.start)) ++ rest.preorder.map (·.start)) :=
      List.sublist_append_right _ _
    rw [Forest.preorder, List.map_cons, List.map_append, ← List.cons_append]
    cases hs : pick.skips simplify t with
    | true =>
      rw [readForest_of_skips hs]
      exact (ihr pick).trans hright
    | false =>
      cases pick with
      | all =>
        rw [readForest_all hs, Forest.preorder_append, List.map_append]
        exact (htree t.field).append (ihr .all)
      | inner role =>
        rw [readForest_inner hs]
        exact (htree role).trans (List.sublist_append_left _ _)

/-- The text that a node covers in a source. -/
def Node.textIn (source : String) (x : Node) : String := (Text.slice? source x.start x.stop).getD ""

/-- The leaves that are read carry their text. -/
lemma label_of_mem_readForest {x : Node} (h : x ∈ (readForest source simplify f pick).preorder)
    (hleaf : leafKinds.contains x.kind = true) : x.label = x.textIn source := by
  induction f generalizing pick with
  | nil => cases h
  | cons t kids rest ihk ihr =>
    have htree : ∀ role, x ∈ (readTree source simplify t kids role).preorder →
        x.label = x.textIn source := by
      intro role hx
      rw [readTree] at hx
      split at hx
      · exact ihk hx
      · simp only [Forest.preorder, List.append_nil, List.mem_cons] at hx
        rcases hx with rfl | hx
        · exact if_pos hleaf
        · split at hx
          · cases hx
          · exact ihk hx
    cases hs : pick.skips simplify t with
    | true => exact ihr (readForest_of_skips hs ▸ h)
    | false =>
      cases pick with
      | all =>
        rw [readForest_all hs, Forest.preorder_append, List.mem_append] at h
        rcases h with h | h
        · exact htree t.field h
        · exact ihr h
      | inner role => exact htree role (readForest_inner hs ▸ h)

/-- A token without faults for a grammar rule, in the first line. -/
def Token.clean (kind : String) (field : Option String) (start stop : Nat) : Token :=
  ⟨kind, field, start, stop, 0, true, false, false, false⟩

/-- A text of one statement about a name, such as `throw e`, with the name at `name`. -/
def Source.statement (kind text : String) (name : Nat) : Source :=
  ⟨text, .cons (.clean "program" none 0 (name + 1))
    (.cons (.clean kind none 0 (name + 1))
      (.cons (.clean "identifier" none name (name + 1)) .nil .nil) .nil) .nil⟩

/-- No node of a parser's tree starts before one that precedes it in preorder. -/
def Concrete.InOrder (f : Concrete) : Prop := (f.preorder.map (·.start)).Pairwise (· ≤ ·)

instance (f : Concrete) : Decidable f.InOrder :=
  inferInstanceAs (Decidable ((f.preorder.map (·.start)).Pairwise (· ≤ ·)))

namespace Ast

variable {a : Ast} {i j : Nat} {e : Forest.Entry Node}

/-- A row holds the node at its place in preorder. -/
lemma getElem?_preorder (h : a.row? i = some e) : a.tree.preorder[i]? = some e.head := by
  rw [← Forest.map_head_number a.tree none 0, List.getElem?_map, ← row?_eq, h]
  rfl

/-- Every node has its row. -/
lemma exists_row? (h : i < a.size) : ∃ e, a.row? i = some e := ⟨_, Array.getElem?_eq_getElem h⟩

/-- The label of a leaf is its text. -/
lemma text_eq_label_of_read (s : Source) (simplify : Bool)
    (hleaf : leafKinds.contains ((s.read simplify).kind i) = true) :
    (s.read simplify).text i = (s.read simplify).label i := by
  by_cases hi : i < (s.read simplify).size
  · obtain ⟨e, he⟩ := exists_row? hi
    rw [kind, he] at hleaf
    rw [text, label, he]
    exact (label_of_mem_readForest (List.mem_of_getElem? (getElem?_preorder he)) hleaf).symm
  · rw [text, label, row?_eq_none (Nat.le_of_not_lt hi)]
    rfl

/-- A program that reading some text without faults gives. -/
def IsParse (a : Ast) : Prop :=
  ∃ (s : Source) (side : Side) (simplify : Bool),
    Concrete.InOrder s.tree ∧ s.parse side simplify = .ok a

namespace IsParse

/-- A parsed tree is what is read of some source. -/
lemma exists_read (h : a.IsParse) :
    ∃ (s : Source) (simplify : Bool), Concrete.InOrder s.tree ∧ a = s.read simplify := by
  obtain ⟨s, side, simplify, hs, ha⟩ := h
  exact ⟨s, simplify, hs, (Source.parse_eq_ok ha).2⟩

/-- A parsed tree is an arena. -/
lemma isArena (h : a.IsParse) : a.IsArena := by
  obtain ⟨s, simplify, -, rfl⟩ := h.exists_read
  exact isArena_read s simplify

/-- No node starts before one that precedes it. -/
lemma start_le (h : a.IsParse) (hij : i ≤ j) (hj : j < a.size) : a.start i ≤ a.start j := by
  rcases Nat.eq_or_lt_of_le hij with rfl | hij
  · exact Nat.le_refl _
  obtain ⟨s, simplify, hs, rfl⟩ := h.exists_read
  have hpairs : ((s.read simplify).tree.preorder.map (·.start)).Pairwise (· ≤ ·) :=
    hs.sublist (sublist_starts s.text simplify s.tree (.inner none))
  obtain ⟨e, he⟩ := exists_row? (Nat.lt_trans hij hj)
  obtain ⟨e', he'⟩ := exists_row? hj
  rw [start, start, he, he']
  obtain ⟨hi, hx⟩ := List.getElem?_eq_some_iff.1 (getElem?_preorder he)
  obtain ⟨hj, hy⟩ := List.getElem?_eq_some_iff.1 (getElem?_preorder he')
  rw [List.pairwise_map, List.pairwise_iff_getElem] at hpairs
  simpa only [hx, hy, Option.elim_some] using hpairs i j hi hj hij

/-- The text of a leaf is its label. -/
lemma text_eq_label (h : a.IsParse) (hleaf : leafKinds.contains (a.kind i) = true) :
    a.text i = a.label i := by
  obtain ⟨s, simplify, -, rfl⟩ := h.exists_read
  exact text_eq_label_of_read s simplify hleaf

end IsParse

end Ast

end Syntax

end Mend
