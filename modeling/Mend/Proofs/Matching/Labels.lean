import Mend.Matching.Labels
import Mend.Proofs.Matching.Increasing
import Mend.Proofs.Matching.Safe

/-!
# Labels and matching say the same

`Consistent` is the contract of a classified pair of trees: every node has a label, the label tells whether
the node has a partner, and partners have one label. Labels read off a matching that fits the trees keep
it (`consistent_classifiedBy`), so that the final check finds nothing (`Consistent.violation?_eq_none`).

The main result is `classify_consistent`: two programs whose digests tell their subtrees apart are
classified, consistently, and without a number out of range on the way (`InBounds`).
-/

namespace Mend

open Syntax (Ast)

namespace Revision

/-- A tree labelled anew has the new changes. -/
lemma change_relabel (a : Ast) (f : Nat → Change) (i : Nat) :
    (relabel a f).change i = if i < a.size then f i else .unknown := by
  by_cases h : i < a.size
  · simp [relabel, change, h]
  · simp [relabel, change, h]

end Revision

namespace Matching

open Digest (TellsApart)

/-- What holds of two labelled trees and their matching. -/
structure Classified.Consistent (c : Classified) : Prop where
  lt_size : ∀ s d, c.matching.toRepaired? s = some d → s < c.buggy.size ∧ d < c.repaired.size
  inverse : ∀ s d, c.matching.toRepaired? s = some d ↔ c.matching.toBuggy? d = some s
  kind_eq : ∀ s d, c.matching.toRepaired? s = some d → c.buggy.kind s = c.repaired.kind d
  buggy_known : ∀ s < c.buggy.size, c.buggy.change s ≠ .unknown ∧ c.buggy.change s ≠ .inserted
  repaired_known : ∀ d < c.repaired.size,
    c.repaired.change d ≠ .unknown ∧ c.repaired.change d ≠ .removed
  removed_iff : ∀ s < c.buggy.size,
    c.buggy.change s = .removed ↔ c.matching.toRepaired? s = none
  inserted_iff : ∀ d < c.repaired.size,
    c.repaired.change d = .inserted ↔ c.matching.toBuggy? d = none
  pair_change : ∀ s d, c.matching.toRepaired? s = some d →
    c.buggy.change s = c.repaired.change d ∧
      c.buggy.change s ∈ [Change.unchanged, Change.updated, Change.moved]

/-! Marks for the nodes that stay in order. -/

/-- Marks at places of the row: they are set where they are asked for, and no others. -/
lemma foldlM_mark? {n : Nat} {places : List Nat} (h : ∀ i ∈ places, i < n) (p : Nat → Bool) :
    places.foldlM mark? ((List.range n).map p) = some ((List.range n).map fun i => p i || places.contains i) := by
  induction places generalizing p with
  | nil => simp
  | cons i places ih =>
    have hmark : mark? ((List.range n).map p) i = some ((List.range n).map fun j => p j || j == i) := by
      rw [mark?, if_pos (by simpa using h i List.mem_cons_self)]
      congr 1
      refine List.ext_getElem (by simp) fun j hj hj' => ?_
      rw [List.getElem_set, List.getElem_map, List.getElem_map, List.getElem_range]
      by_cases hij : i = j
      · simp [hij]
      · simp [hij, Ne.symm hij]
    rw [List.foldlM_cons, hmark, Option.bind_eq_bind, Option.bind_some,
      ih fun j hj => h j (List.mem_cons_of_mem _ hj)]
    simp only [List.contains_cons, Bool.or_assoc]

/-- Every place of a longest run is one of the row. -/
lemma inOrder?_eq (values : List Nat) :
    inOrder? values = some ((List.range values.length).map (longestIncreasing values).contains) := by
  have hstart : List.replicate values.length false = (List.range values.length).map fun _ => false := by
    rw [List.map_const', List.length_range]
  rw [inOrder?, hstart, foldlM_mark? fun i hi => lt_length_of_mem_longestIncreasing hi]
  simp only [Bool.false_or]

/-- A map that succeeds on every element succeeds as a whole. -/
lemma mapM_eq_some {α β : Type} {f : α → Option β} {g : α → β} {l : List α} (h : ∀ x ∈ l, f x = some (g x)) :
    l.mapM f = some (l.map g) := by
  induction l with
  | nil => rfl
  | cons x l ih =>
    rw [List.mapM_cons, h x List.mem_cons_self, ih fun y hy => h y (List.mem_cons_of_mem _ hy)]
    rfl

/-- Every kept child has a mark, and those without are out of order. -/
lemma outOfOrder?_eq (a b : Ast) (m : Matching) : outOfOrder? a b m = some (outOfOrder a b m) := by
  have hbelow : ∀ p ∈ m.pairs, outOfOrderBelow? a b m p.1 p.2 =
      some ((keptChildren a b m p.1 p.2).zipIdx.filterMap fun e =>
        if (longestIncreasing ((keptChildren a b m p.1 p.2).map (·.2))).contains e.2 then none
        else some e.1.1) := by
    intro p _
    unfold outOfOrderBelow?
    dsimp only
    generalize keptChildren a b m p.1 p.2 = kept
    rw [inOrder?_eq, Option.bind_eq_bind, Option.bind_some]
    rw [mapM_eq_some (g := fun e => (e.1.1, (longestIncreasing (kept.map (·.2))).contains e.2))]
    · refine congrArg some ?_
      rw [List.filterMap_map]
      rfl
    · rintro ⟨⟨c, place⟩, i⟩ he
      have hi : i < kept.length := (List.mem_zipIdx' he).1
      simp [hi]
  rw [outOfOrder?, mapM_eq_some hbelow]
  rfl

/-- No number that comes up in the matching of two trees is out of range: the tables of either tree lead
to nodes only, there are digests for every node, and whenever two nodes are paired they are there and
free. In the search for nodes out of order every place of a longest run is one of the row, and every child
has a mark. -/
structure Trees.InBounds (t : Trees) : Prop where
  buggy_closed : t.buggy.Closed
  repaired_closed : t.repaired.Closed
  buggyDigests_size : t.buggyDigests.size = t.buggy.size
  repairedDigests_size : t.repairedDigests.size = t.repaired.size
  matching?_eq : t.matching? = some t.matching
  outOfOrder?_eq : outOfOrder? t.buggy t.repaired t.matching = some (outOfOrder t.buggy t.repaired t.matching)

variable {a b : Ast} {m : Matching}

/-- Matching two trees stays within their tables. -/
lemma inBounds_of (h : TellsApart a b) : (Trees.of a b).InBounds where
  buggy_closed := a.isClosed
  repaired_closed := b.isClosed
  buggyDigests_size := Digest.size_ofAst a
  repairedDigests_size := Digest.size_ofAst b
  matching?_eq := (Trees.safe_matching h).1
  outOfOrder?_eq := outOfOrder?_eq a b _

/-- A linked node is unchanged, updated or moved. -/
lemma pairChange_mem (a b : Ast) (m : Matching) (moved : List Nat) (s d : Nat) :
    pairChange a b m moved s d ∈ [Change.unchanged, Change.updated, Change.moved] := by
  unfold pairChange
  split
  · simp
  · split <;> simp

/-- A linked node has no other change. -/
lemma pairChange_ne {moved : List Nat} {s d : Nat} {x : Change}
    (hx : x ∉ [Change.unchanged, Change.updated, Change.moved]) :
    pairChange a b m moved s d ≠ x :=
  fun h => hx (h ▸ pairChange_mem a b m moved s d)

/-- The label of a buggy node: that of its pair, or removed. -/
lemma buggy_change_classifiedBy (a b : Ast) (m : Matching) {s : Nat} (hs : s < a.size) :
    (classifiedBy a b m).buggy.change s = (m.toRepaired? s).elim .removed
      fun d => pairChange a b m (outOfOrder a b m) s d := by
  simp only [classifiedBy, Revision.change_relabel, if_pos hs]

/-- The label of a repaired node: that of its pair, or inserted. -/
lemma repaired_change_classifiedBy (a b : Ast) (m : Matching) {d : Nat} (hd : d < b.size) :
    (classifiedBy a b m).repaired.change d = (m.toBuggy? d).elim .inserted
      fun s => pairChange a b m (outOfOrder a b m) s d := by
  simp only [classifiedBy, Revision.change_relabel, if_pos hd]

/-- Labels that a matching says are consistent with it. -/
lemma consistent_classifiedBy (hm : Fits (Trees.of a b) m) : (classifiedBy a b m).Consistent where
  lt_size s d h := hm.lt_size h
  inverse s d := m.toRepaired?_eq_some_iff
  kind_eq s d h := hm.kind_eq s d h
  buggy_known s hs := by
    rw [buggy_change_classifiedBy a b m hs]
    cases m.toRepaired? s with
    | none => exact ⟨nofun, nofun⟩
    | some d => exact ⟨pairChange_ne (by decide), pairChange_ne (by decide)⟩
  repaired_known d hd := by
    rw [repaired_change_classifiedBy a b m hd]
    cases m.toBuggy? d with
    | none => exact ⟨nofun, nofun⟩
    | some s => exact ⟨pairChange_ne (by decide), pairChange_ne (by decide)⟩
  removed_iff s hs := by
    rw [buggy_change_classifiedBy a b m hs]
    show _ ↔ m.toRepaired? s = none
    cases m.toRepaired? s with
    | none => exact ⟨fun _ => rfl, fun _ => rfl⟩
    | some d => exact ⟨fun hc => absurd hc (pairChange_ne (by decide)), nofun⟩
  inserted_iff d hd := by
    rw [repaired_change_classifiedBy a b m hd]
    show _ ↔ m.toBuggy? d = none
    cases m.toBuggy? d with
    | none => exact ⟨fun _ => rfl, fun _ => rfl⟩
    | some s => exact ⟨fun hc => absurd hc (pairChange_ne (by decide)), nofun⟩
  pair_change s d h := by
    change m.toRepaired? s = some d at h
    obtain ⟨hs, hd⟩ := hm.lt_size h
    rw [buggy_change_classifiedBy a b m hs, repaired_change_classifiedBy a b m hd, h,
      m.toRepaired?_eq_some_iff.1 h]
    exact ⟨rfl, pairChange_mem _ _ _ _ _ _⟩

namespace Classified

variable {c : Classified}

/-- In a consistent result no original node violates the rules. -/
lemma Consistent.buggyViolation?_eq_none (h : c.Consistent) {s : Nat} (hs : s < c.buggy.size) :
    c.buggyViolation? s = none := by
  obtain ⟨hunknown, hinserted⟩ := h.buggy_known s hs
  have hremoved := h.removed_iff s hs
  unfold buggyViolation?
  cases hp : c.matching.toRepaired? s with
  | none =>
    rw [hremoved.2 hp]
  | some d =>
    obtain ⟨hsame, -⟩ := h.pair_change s d hp
    have hback := (h.inverse s d).1 hp
    cases hc : c.buggy.change s with
    | unknown => exact absurd hc hunknown
    | inserted => exact absurd hc hinserted
    | removed =>
      rw [hp] at hremoved
      cases hremoved.1 hc
    | unchanged | updated | moved => simp [hback, ← hsame, hc]

/-- In a consistent result no repaired node violates the rules. -/
lemma Consistent.repairedViolation?_eq_none (h : c.Consistent) {d : Nat}
    (hd : d < c.repaired.size) : c.repairedViolation? d = none := by
  obtain ⟨hunknown, hremoved⟩ := h.repaired_known d hd
  have hinserted := h.inserted_iff d hd
  unfold repairedViolation?
  cases hp : c.matching.toBuggy? d with
  | none =>
    rw [hinserted.2 hp]
  | some s =>
    have hback := (h.inverse s d).2 hp
    cases hc : c.repaired.change d with
    | unknown => exact absurd hc hunknown
    | removed => exact absurd hc hremoved
    | inserted =>
      rw [hp] at hinserted
      cases hinserted.1 hc
    | unchanged | updated | moved => simp [hback]

/-- A consistent result has no violation. -/
lemma Consistent.violation?_eq_none (h : c.Consistent) : c.violation? = none := by
  unfold violation?
  rw [Option.or_eq_none_iff, List.findSome?_eq_none_iff, List.findSome?_eq_none_iff]
  exact ⟨fun s hs => h.buggyViolation?_eq_none (Ast.mem_ids.1 hs),
    fun d hd => h.repairedViolation?_eq_none (Ast.mem_ids.1 hd)⟩

end Classified

/-- Classification ends with the labels of the matching. -/
lemma classify_eq (h : TellsApart a b) :
    classify a b = .ok (classifiedBy a b (Trees.of a b).matching) := by
  have hc := consistent_classifiedBy (Trees.safe_matching h).2
  simp only [classify, hc.violation?_eq_none]

/-- Two programs are classified without a number out of range and without a violation, and their labels
are consistent with a matching of nodes of one kind. -/
theorem classify_consistent (h : TellsApart a b) :
    (Trees.of a b).InBounds ∧
      ∃ c, classify a b = .ok c ∧ c.buggy.toAst = a ∧ c.repaired.toAst = b ∧
        c.matching = (Trees.of a b).matching ∧ c.Consistent :=
  ⟨inBounds_of h, _, classify_eq h, rfl, rfl, rfl,
    consistent_classifiedBy (Trees.safe_matching h).2⟩

/-- The program `f(argument)` of a one-letter argument, punctuation left out. -/
def callOf (argument : String) : Ast :=
  .ofForest ("f(" ++ argument ++ ")") <|
    .cons ⟨"program", none, "", 0, 4, 1⟩
      (.cons ⟨"call_expression", none, "", 0, 4, 1⟩
        (.cons ⟨"identifier", some "function", "f", 0, 1, 1⟩ .nil
          (.cons ⟨"identifier", some "arguments", argument, 2, 3, 1⟩ .nil .nil)) .nil) .nil

/-- A program of one-letter statements. -/
def statements (names : List String) : Ast :=
  .ofForest (String.join names) (.cons ⟨"program", none, "", 0, names.length, 1⟩
    (names.zipIdx.foldr (fun p rest => .cons ⟨"identifier", none, p.1, p.2, p.2 + 1, 1⟩ .nil rest) .nil) .nil)

/-- A call whose argument was renamed. -/
theorem classify_consistent_callOf :
    TellsApart (callOf "x") (callOf "y") ∧ (Trees.of (callOf "x") (callOf "y")).InBounds ∧
      ∃ c, classify (callOf "x") (callOf "y") = .ok c ∧ c.buggy.toAst = callOf "x" ∧
        c.repaired.toAst = callOf "y" ∧
        c.matching = (Trees.of (callOf "x") (callOf "y")).matching ∧ c.Consistent :=
  have h : TellsApart (callOf "x") (callOf "y") := by decide +kernel
  ⟨h, classify_consistent h⟩

end Matching

end Mend
