import Mathlib.Data.List.Basic
import Mathlib.Data.List.Find
import Mend.Proofs.Comparison
import Mend.Proofs.Syntax.Reading

/-!
# Comments are not read

`Source.withoutComments` is a source whose tree has lost its comments, the text being as it was. Reading it
gives the program that reading the source gives, node by node and place by place
(`Source.parse_withoutComments`), as long as the comments make no difference to what counts as a pair of
parentheses around one node (`Concrete.wrapsAlike`). They do make a difference in `(/* c */ a)`: the
comment is a second node between the parentheses (`Source.parse_ne_of_commentInside`).
-/

namespace Mend.Syntax

variable {f kids rest : Concrete} {t u : Token} {field : String}

namespace Concrete

/-- The tree without the comments. -/
def withoutComments : Concrete → Concrete
  | .nil => .nil
  | .cons t kids rest =>
    if t.kind = "comment" then withoutComments rest
    else .cons t (withoutComments kids) (withoutComments rest)

/-- No comment stands in a role that labels are read from: as an operator, or as the keyword of a
declaration. -/
def CommentsAside (f : Concrete) : Prop :=
  ∀ t ∈ f.preorder, t.kind = "comment" → t.field ≠ some "operator" ∧ t.field ≠ some "kind"

instance (f : Concrete) : Decidable f.CommentsAside :=
  inferInstanceAs (Decidable (∀ t ∈ f.preorder,
    t.kind = "comment" → t.field ≠ some "operator" ∧ t.field ≠ some "kind"))

/-- Whether every node is a pair of parentheses around one node exactly if it is one without the
comments. -/
def wrapsAlike : Concrete → Bool
  | .nil => true
  | .cons t kids rest =>
    isWrapper t (withoutComments kids) == isWrapper t kids && wrapsAlike kids && wrapsAlike rest

/-- Parentheses wrap alike at the first root, below it and behind it. -/
lemma wrapsAlike_cons : wrapsAlike (.cons t kids rest) = true ↔
    isWrapper t kids.withoutComments = isWrapper t kids ∧ kids.wrapsAlike = true ∧
      rest.wrapsAlike = true := by
  simp [wrapsAlike, and_assoc]

/-- A named root of the rest is one of the whole forest. -/
lemma mem_namedRoots_cons (h : u ∈ rest.namedRoots) : u ∈ namedRoots (.cons t kids rest) := by
  simp only [namedRoots, Forest.roots, List.mem_filter, List.mem_cons] at h ⊢
  exact ⟨.inr h.1, h.2⟩

/-- The roots without the comments. -/
lemma roots_withoutComments (f : Concrete) :
    f.withoutComments.roots = f.roots.filter (·.kind ≠ "comment") := by
  induction f with
  | nil => rfl
  | cons t kids rest _ ihr =>
    by_cases hc : t.kind = "comment"
    · simpa [withoutComments, Forest.roots, hc] using ihr
    · simpa [withoutComments, Forest.roots, hc] using ihr

/-- The named roots without the comments. -/
lemma namedRoots_withoutComments (f : Concrete) :
    f.withoutComments.namedRoots = f.namedRoots.filter (·.kind ≠ "comment") := by
  rw [namedRoots, namedRoots, roots_withoutComments, List.filter_filter, List.filter_filter]
  exact List.filter_congr fun t _ => Bool.and_comm _ _

/-- A root is one of the tokens. -/
lemma mem_preorder_of_mem_roots (h : t ∈ f.roots) : t ∈ f.preorder := by
  induction f with
  | nil => cases h
  | cons u kids rest _ ihr =>
    rcases List.mem_cons.1 h with rfl | h
    · exact List.mem_cons_self
    · exact List.mem_cons_of_mem _ (List.mem_append_right _ (ihr h))

/-- Comments stand aside below the first root. -/
lemma CommentsAside.below (h : CommentsAside (.cons t kids rest)) : kids.CommentsAside :=
  fun u hu => h u (List.mem_cons_of_mem _ (List.mem_append_left _ hu))

/-- Comments stand aside behind the first root. -/
lemma CommentsAside.right (h : CommentsAside (.cons t kids rest)) : rest.CommentsAside :=
  fun u hu => h u (List.mem_cons_of_mem _ (List.mem_append_right _ hu))

/-- A role that no comment has is found alike. -/
lemma kindInRole_withoutComments (h : ∀ t ∈ f.roots, t.kind = "comment" → t.field ≠ some field) :
    kindInRole field f.withoutComments = kindInRole field f := by
  have hfind : f.withoutComments.roots.find? (fun t => t.field == some field) =
      f.roots.find? fun t => t.field == some field := by
    rw [roots_withoutComments, List.find?_filter]
    refine List.find?_congr fun t ht => ?_
    by_cases hc : t.kind = "comment"
    · simp [hc, h t ht hc]
    · simp [hc, Bool.beq_eq_decide_eq]
  rw [kindInRole, kindInRole, hfind]

/-- Where comments stand aside, they change no label. -/
lemma CommentsAside.labelOf_eq (h : f.CommentsAside) (source : String) (t : Token) :
    labelOf source t f.withoutComments = labelOf source t f := by
  have hroots := fun u hu => h u (mem_preorder_of_mem_roots hu)
  rw [labelOf, labelOf, kindInRole_withoutComments fun u hu hc => (hroots u hu hc).1,
    kindInRole_withoutComments fun u hu hc => (hroots u hu hc).2]

/-- The one node between parentheses that wrap it with and without comments is no comment. -/
lemma not_comment_of_isWrapper (h : isWrapper t kids = true)
    (hwithout : isWrapper t kids.withoutComments = true) :
    ∀ u ∈ kids.namedRoots, u.kind ≠ "comment" := by
  simp only [isWrapper, Bool.and_eq_true, beq_iff_eq] at h hwithout
  have hlength : (kids.namedRoots.filter (·.kind ≠ "comment")).length = kids.namedRoots.length := by
    rw [← namedRoots_withoutComments, hwithout.2, h.2]
  intro u hu
  simpa using List.length_filter_eq_length_iff.1 hlength u hu

end Concrete

open Concrete

/-- Reading passes over comments, whichever trees are picked: the one tree that is picked inside
parentheses must not be a comment itself. -/
lemma readForest_withoutComments {source : String} {simplify : Bool} {f : Concrete} {pick : Pick}
    (haside : f.CommentsAside) (hwraps : simplify = true → f.wrapsAlike = true)
    (hpick : ∀ field, pick = .inner field → ∀ t ∈ f.namedRoots, t.kind ≠ "comment") :
    readForest source simplify f.withoutComments pick = readForest source simplify f pick := by
  induction f generalizing pick with
  | nil => rfl
  | cons t kids rest ihk ihr =>
    have hkids : simplify = true → wrapsAlike kids = true := fun hs => (wrapsAlike_cons.1 (hwraps hs)).2.1
    have hrest : readForest source simplify (withoutComments rest) pick =
        readForest source simplify rest pick :=
      ihr haside.right (fun hs => (wrapsAlike_cons.1 (hwraps hs)).2.2) fun field hp u hu =>
        hpick field hp u (mem_namedRoots_cons hu)
    by_cases hc : t.kind = "comment"
    · have hs : pick.skips simplify t = true := by
        cases pick with
        | all => simp [Pick.skips, hc]
        | inner field =>
          -- What is picked is the first node of the grammar, and that is not this one.
          cases hn : t.named with
          | true => exact absurd hc (hpick field rfl t (by simp [namedRoots, Forest.roots, hn]))
          | false => simp [Pick.skips, hn]
      rw [withoutComments, if_pos hc, hrest, readForest_of_skips hs]
    · have htree : ∀ role, readTree source simplify t (withoutComments kids) role =
          readTree source simplify t kids role := by
        intro role
        have hall : readForest source simplify (withoutComments kids) .all =
          readForest source simplify kids .all := ihk haside.below hkids fun _ h => by cases h
        rw [readTree, readTree, haside.below.labelOf_eq, hall]
        cases hs : simplify with
        | false => rfl
        | true =>
          subst hs
          have hwrapper := (wrapsAlike_cons.1 (hwraps rfl)).1
          rw [hwrapper]
          cases hw : isWrapper t kids with
          | false => rfl
          | true =>
            exact ihk haside.below hkids fun _ _ => not_comment_of_isWrapper hw (hwrapper.trans hw)
      rw [withoutComments, if_neg hc]
      cases hs : pick.skips simplify t with
      | true => rw [readForest_of_skips hs, readForest_of_skips hs, hrest]
      | false =>
        cases pick with
        | all => rw [readForest_all hs, readForest_all hs, htree, hrest]
        | inner role => rw [readForest_inner hs, readForest_inner hs, htree]

/-- A tree has no fault iff its root has no error. -/
lemma Concrete.fault?_cons_eq_none : Concrete.fault? (.cons t kids rest) = none ↔ t.hasError = false := by
  simp [Concrete.fault?]

/-- A source whose tree has lost its comments. -/
def Source.withoutComments (s : Source) : Source := { s with tree := Concrete.withoutComments s.tree }

namespace Source

variable {s : Source} {simplify : Bool}

/-- Where they stand aside and parentheses wrap alike, comments change nothing that is read. -/
lemma read_withoutComments (hs : s.IsScript) (haside : CommentsAside s.tree)
    (hwraps : simplify = true → wrapsAlike s.tree = true) :
    s.withoutComments.read simplify = s.read simplify := by
  obtain ⟨t, kids, hT, -, hkind⟩ := hs
  have hroot : ∀ role, Pick.inner none = .inner role →
      ∀ u ∈ namedRoots s.tree, u.kind ≠ "comment" := by
    intro _ _ u hu
    rw [hT] at hu
    rw [List.mem_singleton.1 (List.mem_filter.1 hu).1, hkind]
    decide
  rw [read, read, withoutComments, readForest_withoutComments haside hwraps hroot]

/-- A text without faults is read as the same program, node by node and place by place, when its comments
are taken out of the parser's tree. -/
theorem parse_withoutComments (side : Side) (hs : s.IsScript) (hfault : Concrete.fault? s.tree = none)
    (haside : CommentsAside s.tree) (hwraps : simplify = true → wrapsAlike s.tree = true) :
    ∃ a, s.parse side simplify = .ok a ∧ s.withoutComments.parse side simplify = .ok a := by
  have hwithout : Concrete.fault? s.withoutComments.tree = none := by
    obtain ⟨t, kids, hT, -, hkind⟩ := hs
    have hc : t.kind ≠ "comment" := by rw [hkind]; decide
    rw [withoutComments, hT, Concrete.withoutComments, if_neg hc, fault?_cons_eq_none]
    rwa [hT, fault?_cons_eq_none] at hfault
  refine ⟨s.read simplify, ?_, ?_⟩
  · rw [parse, hfault]
  · rw [parse, hwithout, read_withoutComments hs haside hwraps]

/-- The text `/* d */ (a /* c */ + b);`. -/
def commented : Source :=
  ⟨"/* d */ (a /* c */ + b);", .cons (.clean "program" none 0 24)
    (.cons (.clean "comment" none 0 7) .nil
      (.cons (.clean "expression_statement" none 8 24)
        (.cons (.clean "parenthesized_expression" none 8 23)
          (.cons (.clean "binary_expression" none 9 22)
            (.cons (.clean "identifier" (some "left") 9 10) .nil
              (.cons (.clean "comment" none 11 18) .nil
                (.cons { Token.clean "+" (some "operator") 19 20 with named := false } .nil
                  (.cons (.clean "identifier" (some "right") 21 22) .nil .nil)))) .nil) .nil) .nil)) .nil⟩

/-- The comments before a statement and beside an operator are not read, and the parentheses go. -/
theorem parse_withoutComments_commented :
    commented.IsScript ∧ Concrete.fault? commented.tree = none ∧ CommentsAside commented.tree ∧
      wrapsAlike commented.tree = true ∧
      ∃ a, commented.parse .buggy true = .ok a ∧
        commented.withoutComments.parse .buggy true = .ok a := by
  have hs : commented.IsScript := ⟨_, _, rfl, rfl, rfl⟩
  have haside : CommentsAside commented.tree := by decide
  have hwraps : wrapsAlike commented.tree = true := by decide
  exact ⟨hs, rfl, haside, hwraps, parse_withoutComments .buggy hs rfl haside fun _ => hwraps⟩

/-- The text `(/* c */ a);`. -/
def commentInside : Source :=
  ⟨"(/* c */ a);", .cons (.clean "program" none 0 12)
    (.cons (.clean "expression_statement" none 0 12)
      (.cons (.clean "parenthesized_expression" none 0 11)
        (.cons (.clean "comment" none 1 8) .nil (.cons (.clean "identifier" none 9 10) .nil .nil)) .nil)
      .nil) .nil⟩

/-- A comment between parentheses keeps them from being simplified away. -/
theorem parse_ne_of_commentInside :
    commentInside.IsScript ∧ Concrete.fault? commentInside.tree = none ∧
      CommentsAside commentInside.tree ∧
      ∃ a b, commentInside.parse .buggy true = .ok a ∧
        commentInside.withoutComments.parse .buggy true = .ok b ∧
        a.kind 2 = "parenthesized_expression" ∧ b.kind 2 = "identifier" :=
  ⟨⟨_, _, rfl, rfl, rfl⟩, rfl, by decide, _, _, rfl, rfl, by decide, by decide⟩

end Source

end Mend.Syntax
