import Mathlib.Data.List.Find
import Mend.Proofs.Matching.Keeps
import Mend.Proofs.Matching.Labels
import Mend.Proofs.Syntax.Placeless
import Mend.Proofs.Syntax.Reading

/-!
# Layout does not show

A comparison reads places in two ways. Of several equal subtrees it takes the one that starts first; as the
nodes of a program start in preorder, that is the one with the least number, wherever the nodes start
(`rank_lt_iff`). And it knows declarations by the text of their name, which is the label of the name where
the name is a leaf. Names that are patterns or computed are not leaves; their text may hold blanks and
comments, and `KeepsNames` says that it is the same.

`Trees.Alike` collects what the phases see of two trees: alike programs, read from texts, whose names are
kept, are no different to any of them (`Trees.Alike.matching`), and they are labelled alike
(`classify_layout`).
-/

namespace Mend

/-- Of two lists of one length, the last entries do not decide if the first list has the larger one. -/
lemma append_singleton_lt_iff {x y : List Nat} {m n : Nat} (hlength : x.length = y.length) (h : n ≤ m) :
    x ++ [m] < y ++ [n] ↔ x < y := by
  induction x generalizing y with
  | nil =>
    rw [List.length_nil, eq_comm, List.length_eq_zero_iff] at hlength
    subst hlength
    simp only [List.nil_append, List.cons_lt_cons_iff, List.not_lt_nil, and_false, or_false, iff_false]
    omega
  | cons a x ih =>
    cases y with
    | nil => simp at hlength
    | cons b y =>
      rw [List.length_cons, List.length_cons, Nat.add_right_cancel_iff] at hlength
      rw [List.cons_append, List.cons_append, List.cons_lt_cons_iff, List.cons_lt_cons_iff, ih hlength]

namespace Matching

open Digest (TellsApart)
open Syntax (Ast Concrete Source leafKinds)

variable {a b a' b' : Ast} {i s d : Nat}

/-- A program has the names of another where they are told by their text: the declarations whose name is
no leaf have the same text of the name. -/
def KeepsNames (a b : Ast) : Prop :=
  ∀ i < a.size, anchorKinds.contains (a.kind i) = true → ∀ n ∈ a.child? i "name",
    leafKinds.contains (a.kind n) = true ∨ a.text n = b.text n

instance (a b : Ast) : Decidable (KeepsNames a b) :=
  @Nat.decidableBallLT a.size _ fun _ _ => inferInstanceAs (Decidable (_ → _))

/-- Where names keep their texts, an anchor has the same name in either layout. -/
lemma nameText?_congr (ha : a.IsParse) (hb : b.IsParse) (h : a.Alike b) (hnames : KeepsNames a b)
    (hi : anchorKinds.contains (a.kind i) = true) : nameText? a i = nameText? b i := by
  rw [nameText?, nameText?, ← h.child?]
  cases hn : a.child? i "name" with
  | none => rfl
  | some n =>
    have hsize : i < a.size := by
      have := Ast.child?_bounds hn
      omega
    rw [Option.map_some, Option.map_some]
    congr 1
    rcases hnames i hsize hi n hn with hleaf | htext
    · rw [ha.text_eq_label hleaf, hb.text_eq_label (h.kind n ▸ hleaf), h.label]
    · exact htext

namespace Trees

variable {t u : Trees} {m : Matching}

/-- So the same anchors are named the same. -/
lemma anchorsOf_congr (h : a.Alike b) (hnames : ∀ i, anchorKinds.contains (a.kind i) = true →
    nameText? a i = nameText? b i) (isFree : Nat → Bool) : anchorsOf a isFree = anchorsOf b isFree := by
  rw [anchorsOf, anchorsOf, h.ids]
  refine List.filterMap_congr fun i _ => ?_
  rw [← h.kind]
  cases hi : anchorKinds.contains (a.kind i) with
  | false => rfl
  | true => rw [hnames i hi]

/-- Two trees with digests that no phase of the matching tells from two others. -/
structure Alike (t u : Trees) : Prop where
  buggy : t.buggy.Alike u.buggy
  repaired : t.repaired.Alike u.repaired
  old : ∀ s, t.old s = u.old s
  new : ∀ d, t.new d = u.new d
  postorder : t.buggy.postorder = u.buggy.postorder
  oldName : ∀ s, anchorKinds.contains (t.buggy.kind s) = true →
    nameText? t.buggy s = nameText? u.buggy s
  newName : ∀ d, anchorKinds.contains (t.repaired.kind d) = true →
    nameText? t.repaired d = nameText? u.repaired d
  start_le : ∀ d e, d ≤ e → e < t.repaired.size → t.repaired.start d ≤ t.repaired.start e
  start_le' : ∀ d e, d ≤ e → e < t.repaired.size → u.repaired.start d ≤ u.repaired.start e

/-- What speaks against a pair of equal subtrees, the position apart. -/
def standing (t : Trees) (m : Matching) (s d : Nat) : List Nat := (t.rank m s d).dropLast

/-- Only the last entry of the rank of a twin is a place in the file. -/
lemma rank_eq (t : Trees) (m : Matching) (s d : Nat) :
    t.rank m s d = t.standing m s d ++ [t.repaired.start d] := rfl

/-- Four entries come before it. -/
lemma length_standing (t : Trees) (m : Matching) (s d : Nat) : (t.standing m s d).length = 4 := rfl

/-- Of two candidates the later one goes first only for what speaks for it, never for its position. -/
lemma rank_lt_iff {d e : Nat} (h : t.repaired.start e ≤ t.repaired.start d) :
    t.rank m s d < t.rank m s e ↔ t.standing m s d < t.standing m s e := by
  rw [rank_eq, rank_eq]
  exact append_singleton_lt_iff (by rw [length_standing, length_standing]) h

namespace Alike

variable (h : t.Alike u)

include h

/-- Digests do not depend on the layout. -/
lemma sameDigest (s d : Nat) : t.sameDigest s d = u.sameDigest s d := by
  rw [Trees.sameDigest, Trees.sameDigest, h.old, h.new]

/-- Whether parents are paired does not either. -/
lemma parentsPaired (m : Matching) (s d : Nat) : t.parentsPaired m s d = u.parentsPaired m s d := by
  rw [Trees.parentsPaired, Trees.parentsPaired, h.buggy.parent?, h.repaired.parent?]

/-- Anchors of one kind agree in name in both layouts. -/
lemma sameName (hkind : t.repaired.kind d = t.buggy.kind s) : t.sameName s d = u.sameName s d := by
  rw [Trees.sameName, Trees.sameName, ← h.buggy.kind]
  cases hs : anchorKinds.contains (t.buggy.kind s) with
  | false => rfl
  | true => rw [h.oldName s hs, h.newName d (hkind ▸ hs)]

/-! ### Equal subtrees -/

/-- How a twin stands is told without the layout. -/
lemma standing (m : Matching) (s d : Nat) : t.standing m s d = u.standing m s d := by
  simp only [Trees.standing, rank, h.parentsPaired, h.buggy.parent?, h.repaired.parent?, h.buggy.kind,
    h.repaired.kind, h.buggy.siblingIndex?, h.repaired.siblingIndex?, h.old, h.new, List.dropLast]

/-- Subtrees are tried in the same order. -/
lemma tallestFirst : t.tallestFirst = u.tallestFirst := by
  simp only [Trees.tallestFirst, h.buggy.ids, h.old]

/-- The same subtrees are possible partners. -/
lemma twins (m : Matching) (s : Nat) : t.twins m s = u.twins m s := by
  simp only [Trees.twins, h.repaired.ids, h.new, h.sameDigest]

/-- The same twin is linked. -/
lemma linkTwin : t.linkTwin = u.linkTwin := by
  funext m s
  have hbest : best? (fun x y => t.rank m s x < t.rank m s y) (t.twins m s) =
      best? (fun x y => u.rank m s x < u.rank m s y) (t.twins m s) := by
    refine best?_congr ((List.pairwise_lt_range.filter _).imp_of_mem fun hd he hlt => ?_)
    have he := List.mem_range.1 (List.mem_filter.1 he).1
    rw [decide_eq_decide, rank_lt_iff (h.start_le _ _ (Nat.le_of_lt hlt) he),
      rank_lt_iff (h.start_le' _ _ (Nat.le_of_lt hlt) he), h.standing, h.standing]
  rw [Trees.linkTwin, Trees.linkTwin, hbest, h.twins, h.old]

/-- The first phase links the same pairs. -/
lemma topDown : t.topDown = u.topDown := by
  funext m
  rw [Trees.topDown, Trees.topDown, h.tallestFirst, h.linkTwin]

/-! ### Roots and named declarations -/

/-- The second phase links the same pairs. -/
lemma linkRoots : t.linkRoots = u.linkRoots := by
  funext m
  simp only [Trees.linkRoots, h.buggy.root?, h.repaired.root?, h.buggy.kind, h.repaired.kind]

/-- The same anchors have a name of their own. -/
lemma uniqueAnchors (m : Matching) : t.uniqueAnchors m = u.uniqueAnchors m := by
  rw [Trees.uniqueAnchors, Trees.uniqueAnchors, anchorsOf_congr h.buggy h.oldName,
    anchorsOf_congr h.repaired h.newName]

/-- The third phase links the same pairs. -/
lemma linkAnchors : t.linkAnchors = u.linkAnchors := by
  funext m
  rw [Trees.linkAnchors, Trees.linkAnchors, h.uniqueAnchors]

/-! ### From the leaves upwards -/

/-- An inner node has the same candidates. -/
lemma candidates (m : Matching) (s : Nat) : t.candidates m s = u.candidates m s := by
  have hancestors : t.repaired.ancestors = u.repaired.ancestors := funext h.repaired.ancestors
  simp only [Trees.candidates, nodesAround, h.buggy.descendants, hancestors, h.buggy.parent?,
    h.repaired.ids, h.repaired.kind, h.buggy.kind, h.repaired.parent?, h.repaired.descendants]

/-- It is linked with the same one. -/
lemma linkInner : t.linkInner = u.linkInner := by
  funext m s
  rw [Trees.linkInner, Trees.linkInner, h.buggy.children, h.candidates]

/-- The fourth phase links the same pairs. -/
lemma bottomUp : t.bottomUp = u.bottomUp := by
  funext m
  rw [Trees.bottomUp, Trees.bottomUp, h.postorder, h.linkInner]

/-! ### Below paired nodes -/

/-- The same old children are free. -/
lemma freeOld (m : Matching) (s : Nat) : t.freeOld m s = u.freeOld m s := by
  rw [Trees.freeOld, Trees.freeOld, h.buggy.children]

/-- The same new children are free. -/
lemma freeNew (m : Matching) (d : Nat) : t.freeNew m d = u.freeNew m d := by
  rw [Trees.freeNew, Trees.freeNew, h.repaired.children]

/-- Children that are equal are paired alike. -/
lemma recoverEqual (d : Nat) : t.recoverEqual d = u.recoverEqual d := by
  funext m c
  have hdigest : t.sameDigest c = u.sameDigest c := funext (h.sameDigest c)
  rw [Trees.recoverEqual, Trees.recoverEqual, h.freeNew, hdigest, h.old]

/-- Children of one kind and label are paired alike. -/
lemma recoverAlike (d : Nat) : t.recoverAlike d = u.recoverAlike d := by
  funext m c
  have halike : (fun e => t.repaired.kind e == t.buggy.kind c && t.repaired.label e == t.buggy.label c &&
        t.sameName c e) =
      fun e => u.repaired.kind e == u.buggy.kind c && u.repaired.label e == u.buggy.label c &&
        u.sameName c e := by
    funext e
    rw [← h.repaired.kind, ← h.buggy.kind, ← h.repaired.label, ← h.buggy.label]
    cases hk : t.repaired.kind e == t.buggy.kind c with
    | false => rfl
    | true => rw [h.sameName (beq_iff_eq.1 hk)]
  rw [Trees.recoverAlike, Trees.recoverAlike, h.freeNew, halike]

/-- Lone children of a kind are paired alike. -/
lemma recoverLone (old new : List Nat) : t.recoverLone old new = u.recoverLone old new := by
  funext m c
  have hold : old.filter (t.buggy.kind · == t.buggy.kind c) =
      old.filter (u.buggy.kind · == u.buggy.kind c) := by
    simp only [h.buggy.kind]
  have hnew : new.filter (t.repaired.kind · == t.buggy.kind c) =
      new.filter (u.repaired.kind · == u.buggy.kind c) := by
    simp only [h.buggy.kind, h.repaired.kind]
  simp only [Trees.recoverLone, ← hold, ← hnew]
  split
  · next e _ hlone =>
    have he : e ∈ new.filter (t.repaired.kind · == t.buggy.kind c) := hlone ▸ List.mem_singleton_self e
    rw [h.sameName (beq_iff_eq.1 (List.mem_filter.1 he).2)]
  · rfl

/-- Recovery below a pair adds the same pairs. -/
lemma recoverBelow : t.recoverBelow = u.recoverBelow := by
  funext m s
  rw [Trees.recoverBelow, Trees.recoverBelow]
  simp only [h.freeOld, h.freeNew, h.recoverEqual, h.recoverAlike, h.recoverLone]

/-- The last phase links the same pairs. -/
lemma recover : t.recover = u.recover := by
  funext m
  rw [Trees.recover, Trees.recover, h.buggy.ids, h.recoverBelow]

/-- Alike trees are matched alike. -/
lemma matching : t.matching = u.matching := by
  rw [Trees.matching, Trees.matching, h.buggy.size, h.repaired.size, h.buggy.isEmpty, h.repaired.isEmpty,
    h.topDown, h.linkRoots, h.linkAnchors, h.bottomUp, h.recover]

end Alike

/-- Programs that are alike, with their names, are no different to the matching. -/
lemma alike_of (ha : a.IsParse) (ha' : a'.IsParse) (hb : b.IsParse) (hb' : b'.IsParse) (hold : a.Alike a')
    (hnew : b.Alike b') (hnames : KeepsNames a a') (hnames' : KeepsNames b b') :
    (Trees.of a b).Alike (Trees.of a' b') where
  buggy := hold
  repaired := hnew
  old s := congrArg (·.at s) (hold.ofAst ha.isArena ha'.isArena)
  new d := congrArg (·.at d) (hnew.ofAst hb.isArena hb'.isArena)
  postorder := hold.postorder ha.isArena ha'.isArena
  oldName _ := nameText?_congr ha ha' hold hnames
  newName _ := nameText?_congr hb hb' hnew hnames'
  start_le _ _ hde he := hb.start_le hde he
  start_le' _ _ hde he := hb'.start_le hde (hnew.size ▸ he)

end Trees

/-! ### Labels -/

section Labels

variable {m : Matching} (hold : a.Alike a') (hnew : b.Alike b')

include hold hnew

/-- The same nodes are out of order. -/
lemma outOfOrder_congr (m : Matching) : outOfOrder a b m = outOfOrder a' b' m := by
  have hkept : keptChildren a b m = keptChildren a' b' m := by
    funext sp dp
    simp only [keptChildren, hold.children, hnew.parent?, hnew.siblingIndex?]
  rw [outOfOrder, outOfOrder, hkept]

/-- A pair gets the same label. -/
lemma pairChange_congr (m : Matching) (moved : List Nat) :
    pairChange a b m moved = pairChange a' b' m moved := by
  funext s d
  have hparent : sameParent a b m s d = sameParent a' b' m s d := by
    rw [sameParent, sameParent, hold.parent?, hnew.parent?]
  rw [pairChange, pairChange, hparent, hold.label, hnew.label]

end Labels

/-- What a comparison says: who is whose partner, and the labels of both sides. -/
def Classified.verdict (c : Classified) : Matching × Array Change × Array Change :=
  (c.matching, c.buggy.changes, c.repaired.changes)

/-- Classified by one matching, both layouts get the same verdict. -/
lemma verdict_classifiedBy (hold : a.Alike a') (hnew : b.Alike b') (m : Matching) :
    (classifiedBy a b m).verdict = (classifiedBy a' b' m).verdict := by
  simp only [Classified.verdict, classifiedBy, Revision.relabel, outOfOrder_congr hold hnew,
    pairChange_congr hold hnew, hold.size, hnew.size]

/-- The checks of a classification come out the same. -/
lemma violation?_congr {c c' : Classified} (hold : c.buggy.toAst.Alike c'.buggy.toAst)
    (hnew : c.repaired.toAst.Alike c'.repaired.toAst) (h : c.verdict = c'.verdict) :
    c.violation? = c'.violation? := by
  simp only [Classified.verdict, Prod.mk.injEq] at h
  obtain ⟨hm, hb, hr⟩ := h
  have hbuggy : c.buggy.change = c'.buggy.change := by funext i; rw [Revision.change, Revision.change, hb]
  have hrepaired : c.repaired.change = c'.repaired.change := by
    funext i
    rw [Revision.change, Revision.change, hr]
  have hfirst : c.buggyViolation? = c'.buggyViolation? := by
    funext s
    rw [Classified.buggyViolation?, Classified.buggyViolation?, hm, hbuggy, hrepaired]
  have hsecond : c.repairedViolation? = c'.repairedViolation? := by
    funext d
    rw [Classified.repairedViolation?, Classified.repairedViolation?, hm, hrepaired]
  rw [Classified.violation?, Classified.violation?, hfirst, hsecond, hold.ids, hnew.ids]

/-- Programs that are alike, with their names, are matched and labelled alike, wherever their nodes
stand. -/
theorem classify_layout (ha : a.IsParse) (ha' : a'.IsParse) (hb : b.IsParse) (hb' : b'.IsParse)
    (hold : a.Alike a') (hnew : b.Alike b') (hnames : KeepsNames a a') (hnames' : KeepsNames b b') :
    (classify a b).map Classified.verdict = (classify a' b').map Classified.verdict := by
  have hmatching : (Trees.of a b).matching = (Trees.of a' b').matching :=
    (Trees.alike_of ha ha' hb hb' hold hnew hnames hnames').matching
  have hverdict := verdict_classifiedBy hold hnew (Trees.of a' b').matching
  have hviolation := violation?_congr hold hnew hverdict
  rw [classify, classify, hmatching, hviolation]
  split
  · rfl
  · exact congrArg Except.ok hverdict

/-- Digests tell a tree from another one in every layout. -/
lemma tellsApart_congr (h : TellsApart a b) (hnew : b.Alike b') (hb : b.IsArena) (hb' : b'.IsArena) :
    TellsApart a b' := by
  intro s hs d hd he
  rw [← hnew.ofAst hb hb'] at he
  exact (h s hs d (hnew.size ▸ hd) he).trans (hnew.sub?_outline d)

/-- A text such as `var {} = 1` with `inside` blanks in the pattern and `before` blanks before the
value. -/
def emptyPattern (text : String) (inside before : Nat) : Source :=
  let value := 8 + inside + before
  ⟨text, .cons (.clean "program" none 0 (value + 1))
    (.cons (.clean "variable_declaration" none 0 (value + 1))
      (.cons (.clean "variable_declarator" none 4 (value + 1))
        (.cons (.clean "object_pattern" (some "name") 4 (6 + inside)) .nil
          (.cons (.clean "number" (some "value") value (value + 1)) .nil .nil)) .nil) .nil) .nil⟩

/-- What is read of such a text. -/
def emptyPatternTree (text : String) (inside before : Nat) : Forest Syntax.Node :=
  let value := 8 + inside + before
  .cons ⟨"program", none, "", 0, value + 1, 1⟩
    (.cons ⟨"variable_declaration", none, "", 0, value + 1, 1⟩
      (.cons ⟨"variable_declarator", none, "", 4, value + 1, 1⟩
        (.cons ⟨"object_pattern", some "name", "", 4, 6 + inside, 1⟩ .nil
          (.cons ⟨"number", some "value", (Text.slice? text value (value + 1)).getD "",
            value, value + 1, 1⟩ .nil .nil)) .nil) .nil) .nil

/-- The program `text`, a declaration whose pattern has blanks inside and before the value. -/
def declaring (text : String) (inside before : Nat) : Ast :=
  .ofForest text (emptyPatternTree text inside before)

/-- It reads as such a program. -/
lemma isParse_declaring (text : String) (inside before : Nat) :
    (declaring text inside before).IsParse := by
  refine ⟨emptyPattern text inside before, .buggy, true, ?_, rfl⟩
  simp [Concrete.InOrder, emptyPattern, Forest.preorder, Syntax.Token.clean]
  omega

/-- A declaration. -/
def one : Ast := declaring "var {} = 1" 0 1

/-- The same with another value. -/
def two : Ast := declaring "var {} = 2" 0 1

/-- The same with one blank more before the value. -/
def twoApart : Ast := declaring "var {} =  2" 0 2

/-- The same with a blank inside the braces. -/
def twoInside : Ast := declaring "var { } = 2" 1 1

/-- A blank before the value does not show. -/
theorem classify_layout_twoApart :
    one.IsParse ∧ two.IsParse ∧ twoApart.IsParse ∧ two.Alike twoApart ∧ KeepsNames one one ∧
      KeepsNames two twoApart ∧
      (classify one two).map Classified.verdict = (classify one twoApart).map Classified.verdict := by
  have hone : one.IsParse := isParse_declaring _ 0 1
  have htwo : two.IsParse := isParse_declaring _ 0 1
  have hapart : twoApart.IsParse := isParse_declaring _ 0 2
  have hold : one.Alike one := Ast.alike_of_placeless_eq rfl
  have hnew : two.Alike twoApart := Ast.alike_of_placeless_eq rfl
  have hnames : KeepsNames one one := fun _ _ _ _ _ => .inr rfl
  have hnames' : KeepsNames two twoApart := by decide +kernel
  exact ⟨hone, htwo, hapart, hnew, hnames, hnames',
    classify_layout hone hone htwo hapart hold hnew hnames hnames'⟩

/-- The height of a digest is that of the subtree. -/
lemma height_at (a : Ast) (i : Nat) :
    ((Digest.Table.ofAst a).at i).height = (a.tree.sub? i).elim 0 (·.2.height + 1) := by
  by_cases hi : i < a.size
  · obtain ⟨x, kids, hx⟩ := Ast.exists_sub? hi
    rw [Digest.height_at_ofAst hx, hx, Option.elim_some]
  · rw [Forest.sub?_eq_none (a.size_eq ▸ Nat.le_of_not_lt hi), Digest.Table.at,
      Array.getElem?_eq_none (by rw [Digest.size_ofAst]; omega)]
    rfl

/-- A blank inside the pattern that a variable is declared by makes another declaration of it. -/
theorem classify_ne_of_twoInside :
    one.IsParse ∧ two.IsParse ∧ twoInside.IsParse ∧ two.Alike twoInside ∧
      ∃ c c', classify one two = .ok c ∧ classify one twoInside = .ok c' ∧
        c.buggy.change 2 = .unchanged ∧ c'.buggy.change 2 = .removed := by
  have htwo : two.IsParse := isParse_declaring _ 0 1
  have hinside : twoInside.IsParse := isParse_declaring _ 1 1
  have hnew : two.Alike twoInside := Ast.alike_of_placeless_eq rfl
  have happart : TellsApart one two := by decide +kernel
  have htall : (one.ids.filter fun s => leastHeight ≤ ((Digest.Table.ofAst one).at s).height) =
      [0, 1, 2] := by
    simp only [height_at]
    rfl
  have hsorted : [0, 1, 2].Pairwise fun x y =>
      ((Digest.Table.ofAst one).at y).height ≤ ((Digest.Table.ofAst one).at x).height := by
    simp only [height_at]
    decide
  have hmatching := fun b => Trees.matching_eq (t := Trees.of one b) htall hsorted
  refine ⟨isParse_declaring _ 0 1, htwo, hinside, hnew, _, _, classify_eq happart,
    classify_eq (tellsApart_congr happart hnew htwo.isArena hinside.isArena), ?_, ?_⟩
  · rw [hmatching]
    decide +kernel
  · rw [hmatching]
    decide +kernel

end Matching

end Mend
