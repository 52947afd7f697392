import Mathlib.Algebra.Order.Field.Rat
import Mathlib.Data.Prod.Lex
import Mathlib.Tactic.Linarith
import Mend.Proofs.Matching.Keeps
import Mend.Proofs.Matching.Labels
import Mend.Proofs.Syntax.Ancestry

/-!
# The best partner of an inner node

The phase that goes from the leaves upwards looks for partners of a node among the nodes above the partners
of what stands below it, and counts how often it comes by each. How often it comes by a node is how much
the two share (`count_nodesAround`), so nothing is overlooked: whatever suits has a share and is come by
(`mem_enough`). What the candidates are compared by is their merit (`beats_candidate`), and no two nodes
have the same. So a node is paired with the one of most merit among all that suit it (`linkInner_best`), in
whatever order the candidates are looked at.
-/

namespace Mend

/-- Where each list has an entry once or not at all, the entry is counted once for each that has it. -/
lemma count_flatMap_of_once {ι : Type} {f : ι → List Nat} {p : ι → Bool} {n : Nat} (l : List ι)
    (h : ∀ x, (f x).count n = if p x then 1 else 0) : (l.flatMap f).count n = l.countP p := by
  induction l with
  | nil => rfl
  | cons x l ih => rw [List.flatMap_cons, List.count_append, ih, h, List.countP_cons, Nat.add_comm]

/-- A node is among the ancestors of its descendants, once. -/
lemma Syntax.Ast.count_ancestors (a : Ast) (i j : Nat) :
    (a.ancestors i).count j = if (a.descendants j).contains i then 1 else 0 := by
  have hnodup : (a.ancestors i).Nodup := (pairwise_ancestors a i).imp Nat.ne_of_gt
  rw [hnodup.count]
  simp only [List.contains_iff_mem, mem_descendants_iff_mem_ancestors]

namespace Matching

open Syntax (Ast)

namespace Trees

variable {t : Trees} {m : Matching} {s d e : Nat} {c : Candidate}

/-- The matching that the phases have made when `s` has its turn on the way upwards. -/
def AtInnerTurn (t : Trees) (m : Matching) (s : Nat) : Prop :=
  ∃ before after, t.buggy.postorder = before ++ s :: after ∧
    m = before.foldl t.linkInner
      (t.linkAnchors (t.linkRoots (t.topDown (.empty t.buggy.size t.repaired.size))))

/-- How many nodes below `s` have their partner below `d`. -/
def sharedBelow (t : Trees) (m : Matching) (s d : Nat) : Nat :=
  (t.buggy.descendants s).countP fun x => (m.toRepaired? x).any (t.repaired.descendants d).contains

/-- The Dice coefficient of what stands below two nodes. -/
def dice (t : Trees) (m : Matching) (s d : Nat) : ℚ :=
  2 * t.sharedBelow m s d / ((t.buggy.descendants s).length + (t.repaired.descendants d).length : ℕ)

/-- A free node of the kind of `s` that shares enough with it. -/
structure Suits (t : Trees) (m : Matching) (s d : Nat) : Prop where
  lt_size : d < t.repaired.size
  kind_eq : t.repaired.kind d = t.buggy.kind s
  free : m.toBuggy? d = none
  enough : 1 / 2 ≤ t.dice m s d

/-- What speaks for pairing two nodes: that the parents are paired, then a high coefficient, then that the
node comes early. -/
def merit (t : Trees) (m : Matching) (s d : Nat) : Bool ×ₗ ℚ ×ₗ ℕᵒᵈ :=
  toLex (t.parentsPaired m s d, toLex (t.dice m s d, OrderDual.toDual d))

/-- No two candidates have one merit. -/
lemma merit_injective : Function.Injective (t.merit m s) := by
  intro d e h
  have h := congrArg (fun p => (ofLex (ofLex p).2).2) h
  exact OrderDual.toDual.injective h

/-- At an inner turn the mapping has the sizes of the trees. -/
lemma AtInnerTurn.sized (h : t.AtInnerTurn m s) : Sized t m := by
  obtain ⟨before, after, -, rfl⟩ := h
  refine (Sized.start t).linked (P := AnyPair) ((t.linked_topDown _).trans ?_)
  refine (t.linked_linkRoots _).any.trans <| (t.linked_linkAnchors _).trans ?_
  exact .foldl (fun s _ m => t.linked_linkInner m s) _

/-- A node at its inner turn exists. -/
lemma AtInnerTurn.lt_size (h : t.AtInnerTurn m s) : s < t.buggy.size := by
  obtain ⟨before, after, heq, -⟩ := h
  exact t.buggy.isClosed.postorder s (heq ▸ List.mem_append_right before List.mem_cons_self)

/-! ## What the candidates are -/

/-- A candidate as it is entered. -/
def candidate (t : Trees) (m : Matching) (s d : Nat) : Candidate where
  keepsParent := t.parentsPaired m s d
  shared := t.sharedBelow m s d
  total := (t.buggy.descendants s).length + (t.repaired.descendants d).length
  node := d

/-- One comes by a node as often as it shares something. -/
lemma count_nodesAround (t : Trees) (m : Matching) (s d : Nat) :
    (t.nodesAround m s).count d = t.sharedBelow m s d := by
  refine count_flatMap_of_once _ fun x => ?_
  cases m.toRepaired? x with
  | none => rfl
  | some y => exact t.repaired.count_ancestors y d

/-- A candidate keeps the parent iff the parents are linked. -/
lemma keepsParent_eq (t : Trees) (m : Matching) (s d : Nat) :
    (((t.buggy.parent? s).bind m.toRepaired?).isSome &&
      t.repaired.parent? d == (t.buggy.parent? s).bind m.toRepaired?) = t.parentsPaired m s d := by
  unfold parentsPaired
  cases t.buggy.parent? s with
  | none => rfl
  | some sp =>
    rw [Option.bind_some]
    cases t.repaired.parent? d with
    | none => cases m.toRepaired? sp <;> rfl
    | some dp =>
      change _ = (m.toRepaired? sp == some dp)
      cases m.toRepaired? sp with
      | none => rfl
      | some x => exact BEq.comm

/-- The candidates are the free nodes of the kind with a linked pair below both. -/
lemma mem_candidates_iff : c ∈ t.candidates m s ↔ ∃ d < t.repaired.size,
    t.repaired.kind d = t.buggy.kind s ∧ m.toBuggy? d = none ∧ 0 < t.sharedBelow m s d ∧
      t.candidate m s d = c := by
  have haround : ∀ d, (t.nodesAround m s).contains d = true ↔ 0 < t.sharedBelow m s d := fun d => by
    rw [List.contains_iff_mem, ← List.count_pos_iff, count_nodesAround]
  simp only [candidates, keepsParent_eq, count_nodesAround, List.mem_map, List.mem_filter, Ast.mem_ids,
    Bool.and_eq_true, beq_iff_eq, Option.isNone_iff_eq_none, haround, and_assoc, candidate]

/-- Something stands below a node with children. -/
lemma total_pos (hs : t.buggy.children s ≠ []) : 0 < (t.candidate m s d).total := by
  obtain ⟨x, hx⟩ := List.exists_mem_of_ne_nil _ hs
  have hbelow := Ast.mem_descendants_iff_mem_ancestors.2 (Ast.mem_ancestors_of_mem_children hx)
  exact Nat.add_pos_left (List.length_pos_of_mem hbelow) _

/-- A candidate is enough iff its Dice coefficient is at least one half. -/
lemma isEnough_candidate (hs : t.buggy.children s ≠ []) :
    (t.candidate m s d).isEnough = true ↔ 1 / 2 ≤ t.dice m s d := by
  have hpos : (0 : ℚ) < (t.candidate m s d).total := Nat.cast_pos.2 (total_pos hs)
  change decide ((t.candidate m s d).total ≤ 4 * t.sharedBelow m s d) = true ↔
    1 / 2 ≤ (2 * t.sharedBelow m s d / (t.candidate m s d).total : ℚ)
  rw [decide_eq_true_eq, le_div_iff₀ hpos, ← Nat.cast_le (α := ℚ)]
  push_cast
  constructor <;> intro h <;> linarith

/-- The candidates that share enough are the nodes that suit. -/
lemma mem_enough (hs : t.buggy.children s ≠ []) :
    c ∈ (t.candidates m s).filter (·.isEnough) ↔ ∃ d, t.Suits m s d ∧ t.candidate m s d = c := by
  rw [List.mem_filter, mem_candidates_iff]
  constructor
  · rintro ⟨⟨d, hlt, hkind, hfree, -, rfl⟩, henough⟩
    exact ⟨d, ⟨hlt, hkind, hfree, (isEnough_candidate hs).1 henough⟩, rfl⟩
  · rintro ⟨d, hd, rfl⟩
    have henough := (isEnough_candidate hs).2 hd.enough
    refine ⟨⟨d, hd.lt_size, hd.kind_eq, hd.free, ?_, rfl⟩, henough⟩
    -- Without a share the coefficient is zero.
    have hle : (t.candidate m s d).total ≤ 4 * t.sharedBelow m s d := of_decide_eq_true henough
    have := total_pos (m := m) (d := d) hs
    omega

/-! ## How they are compared -/

/-- Dice coefficients are compared without division. -/
lemma dice_lt_dice_iff (hs : t.buggy.children s ≠ []) : t.dice m s e < t.dice m s d ↔
    (t.candidate m s e).shared * (t.candidate m s d).total <
      (t.candidate m s d).shared * (t.candidate m s e).total := by
  have hd : (0 : ℚ) < (t.candidate m s d).total := Nat.cast_pos.2 (total_pos hs)
  have he : (0 : ℚ) < (t.candidate m s e).total := Nat.cast_pos.2 (total_pos hs)
  change (2 * (t.candidate m s e).shared / (t.candidate m s e).total : ℚ) <
    2 * (t.candidate m s d).shared / (t.candidate m s d).total ↔ _
  rw [div_lt_div_iff₀ he hd, ← Nat.cast_lt (α := ℚ)]
  push_cast
  constructor <;> intro h <;> linarith

/-- A candidate beats another iff its merit is greater. -/
lemma beats_candidate (hs : t.buggy.children s ≠ []) :
    (t.candidate m s d).beats (t.candidate m s e) = true ↔ t.merit m s e < t.merit m s d := by
  have hlt := dice_lt_dice_iff (m := m) (d := d) (e := e) hs
  have hgt := dice_lt_dice_iff (m := m) (d := e) (e := d) hs
  have hkeeps : ∀ d, (t.candidate m s d).keepsParent = t.parentsPaired m s d := fun _ => rfl
  have hnode : ∀ d, (t.candidate m s d).node = d := fun _ => rfl
  simp only [merit, Prod.Lex.toLex_lt_toLex, OrderDual.toDual_lt_toDual, Candidate.beats, hkeeps, hnode]
  -- Where the parents do not decide, the coefficients do, and where these are equal, the numbers.
  by_cases hparents : t.parentsPaired m s d = t.parentsPaired m s e
  · rw [if_neg (by simpa using hparents), hparents]
    simp only [lt_irrefl, true_and, false_or]
    rcases lt_trichotomy (t.dice m s e) (t.dice m s d) with hdice | hdice | hdice
    · have := hlt.1 hdice
      rw [if_pos (by omega)]
      simp [this, hdice]
    · have hnlt := mt hlt.2 (by rw [hdice]; exact lt_irrefl _)
      have hngt := mt hgt.2 (by rw [hdice]; exact lt_irrefl _)
      rw [if_neg (by omega)]
      simp [hdice]
    · have := hgt.1 hdice
      rw [if_pos (by omega)]
      simp [this, hdice, not_lt_of_gt, ne_of_gt]
  · rw [if_pos (by simpa using hparents), Bool.eq_not.2 hparents]
    cases t.parentsPaired m s e <;> simp

/-! ## Which one is taken -/

/-- The same among the candidates that are enough. -/
lemma beats_iff (hs : t.buggy.children s ≠ []) :
    ∀ x ∈ (t.candidates m s).filter (·.isEnough), ∀ y ∈ (t.candidates m s).filter (·.isEnough),
      x.beats y = true ↔ t.merit m s y.node < t.merit m s x.node := by
  intro x hx y hy
  obtain ⟨d, -, rfl⟩ := (mem_enough hs).1 hx
  obtain ⟨e, -, rfl⟩ := (mem_enough hs).1 hy
  exact beats_candidate hs

/-- The best candidate is the suitable node of most merit. -/
lemma best?_candidates (hs : t.buggy.children s ≠ [])
    (h : best? Candidate.beats ((t.candidates m s).filter (·.isEnough)) = some c) :
    t.Suits m s c.node ∧ ∀ e, t.Suits m s e → t.merit m s e ≤ t.merit m s c.node := by
  obtain ⟨d, hd, rfl⟩ := (mem_enough hs).1 (mem_of_best? h)
  exact ⟨hd, fun e he => le_of_best? (beats_iff hs) h _ ((mem_enough hs).2 ⟨e, he, rfl⟩)⟩

/-- The candidates may be looked at in any order. -/
lemma best?_candidates_perm (hs : t.buggy.children s ≠ []) {l : List Candidate}
    (hl : l.Perm (t.candidates m s)) : best? Candidate.beats (l.filter (·.isEnough)) =
      best? Candidate.beats ((t.candidates m s).filter (·.isEnough)) := by
  refine best?_perm (beats_iff hs) (fun x hx y hy heq => ?_) (hl.filter _)
  obtain ⟨d, -, rfl⟩ := (mem_enough hs).1 hx
  obtain ⟨e, -, rfl⟩ := (mem_enough hs).1 hy
  exact congrArg (t.candidate m s) (merit_injective heq)

/-- A free inner node is linked to the best candidate, if there is one. -/
lemma linkInner_eq (hfree : m.toRepaired? s = none) (hs : t.buggy.children s ≠ []) :
    t.linkInner m s = (best? Candidate.beats ((t.candidates m s).filter (·.isEnough))).elim m
      fun c => m.link s c.node := by
  rw [linkInner, hfree, List.isEmpty_eq_false_iff.2 hs]
  cases best? Candidate.beats ((t.candidates m s).filter (·.isEnough)) <;> rfl

/-- The turn of an inner node pairs it with the suitable node of most merit, if any suits. -/
lemma toRepaired?_linkInner (hm : t.AtInnerTurn m s) (hfree : m.toRepaired? s = none)
    (hs : t.buggy.children s ≠ []) : (t.linkInner m s).toRepaired? s = some d ↔
      t.Suits m s d ∧ ∀ e, t.Suits m s e → t.merit m s e ≤ t.merit m s d := by
  rw [linkInner_eq hfree hs]
  cases hbest : best? Candidate.beats ((t.candidates m s).filter (·.isEnough)) with
  | none =>
    rw [Option.elim_none, hfree]
    refine ⟨nofun, ?_⟩
    rintro ⟨hd, -⟩
    obtain ⟨c, hc⟩ := exists_best? Candidate.beats ((mem_enough hs).2 ⟨d, hd, rfl⟩)
    exact absurd (hbest.symm.trans hc) (Option.some_ne_none c).symm
  | some c =>
    obtain ⟨hsuits, hmost⟩ := best?_candidates hs hbest
    have hf := hm.sized.isFree_iff.2 ⟨hm.lt_size, hsuits.lt_size, hfree, hsuits.free⟩
    rw [Option.elim_some, toRepaired?_link hf, if_pos rfl, Option.some.injEq]
    constructor
    · rintro rfl
      exact ⟨hsuits, hmost⟩
    · rintro ⟨hd, hdmost⟩
      exact merit_injective (le_antisymm (hdmost _ hsuits) (hmost d hd))

end Trees

variable {t : Trees} {m : Matching} {s : Nat}

open Trees (Candidate)

/-- When an inner node without partner has its turn, it is paired just if some node suits it, and then
with the one of most merit among all that do. Nothing else changes, and the order in which the candidates
are looked at plays no part. -/
theorem linkInner_best (hm : t.AtInnerTurn m s) (hfree : m.toRepaired? s = none)
    (hs : t.buggy.children s ≠ []) :
    ((t.linkInner m s).toRepaired? s ≠ none ↔ ∃ d, t.Suits m s d) ∧
    (∀ d, (t.linkInner m s).toRepaired? s = some d ↔
      t.Suits m s d ∧ ∀ e, t.Suits m s e → t.merit m s e ≤ t.merit m s d) ∧
    (∀ x, x ≠ s → (t.linkInner m s).toRepaired? x = m.toRepaired? x) ∧
    ∀ l : List Candidate, l.Perm (t.candidates m s) → t.linkInner m s =
      (best? Candidate.beats (l.filter (·.isEnough))).elim m fun c => m.link s c.node := by
  refine ⟨⟨fun h => ?_, fun ⟨d, hd⟩ hnone => ?_⟩, fun d => Trees.toRepaired?_linkInner hm hfree hs,
    fun x hx => ?_, fun l hl => ?_⟩
  · obtain ⟨d, hd⟩ := Option.ne_none_iff_exists'.1 h
    exact ⟨d, ((Trees.toRepaired?_linkInner hm hfree hs).1 hd).1⟩
  · obtain ⟨c, hc⟩ := exists_best? Candidate.beats ((Trees.mem_enough hs).2 ⟨d, hd, rfl⟩)
    have hpaired := (Trees.toRepaired?_linkInner hm hfree hs).2 (Trees.best?_candidates hs hc)
    exact Option.some_ne_none _ (hpaired.symm.trans hnone)
  · have hlinked : Linked (fun y _ => y = s) m (t.linkInner m s) := by
      rcases Trees.linkInner_cases t m s with ⟨c, -, -, -, -, he⟩ | ⟨-, he⟩
      · rw [he]
        exact .link .refl rfl
      · rw [he]
        exact .refl
    exact hlinked.toRepaired?_eq fun _ => hx
  · rw [Trees.linkInner_eq hfree hs, Trees.best?_candidates_perm hs hl]

/-- The program `[f(x),name]` of a one-letter name. -/
def arrayOf (name : String) : Ast :=
  .ofForest ("[f(x)," ++ name ++ "]") <|
    .cons ⟨"program", none, "", 0, 8, 1⟩
      (.cons ⟨"array", none, "", 0, 8, 1⟩
        (.cons ⟨"call_expression", none, "", 1, 5, 1⟩
          (.cons ⟨"identifier", some "function", "f", 1, 2, 1⟩ .nil
            (.cons ⟨"identifier", some "arguments", "x", 3, 4, 1⟩ .nil .nil))
          (.cons ⟨"identifier", none, name, 6, 7, 1⟩ .nil .nil)) .nil) .nil

/-- Two arrays share a call, which is more than half of what stands below them. -/
theorem linkInner_best_arrayOf : ∃ m, (Trees.of (arrayOf "y") (arrayOf "z")).AtInnerTurn m 1 ∧
    m.toRepaired? 1 = none ∧ (arrayOf "y").children 1 ≠ [] ∧
    ((Trees.of (arrayOf "y") (arrayOf "z")).linkInner m 1).toRepaired? 1 = some 1 := by
  have htallest : (Trees.of (arrayOf "y") (arrayOf "z")).tallestFirst = [0, 1, 2] :=
    (List.mergeSort_of_pairwise (by decide +kernel)).trans (by decide +kernel)
  obtain ⟨m, hm, hfree, hfree', hdice⟩ : ∃ m, (Trees.of (arrayOf "y") (arrayOf "z")).AtInnerTurn m 1 ∧
      m.toRepaired? 1 = none ∧ m.toBuggy? 1 = none ∧
      1 / 2 ≤ (Trees.of (arrayOf "y") (arrayOf "z")).dice m 1 1 :=
    ⟨_, ⟨[3, 4, 2, 5], [0], by decide +kernel, by rw [Trees.topDown, htallest]⟩, by decide +kernel⟩
  have hs : (arrayOf "y").children 1 ≠ [] := by decide +kernel
  have honly : ∀ e < 6, (arrayOf "z").kind e = "array" → e = 1 := by decide +kernel
  refine ⟨m, hm, hfree, hs, ((linkInner_best hm hfree hs).2.1 1).2 ⟨?_, fun e he => ?_⟩⟩
  · exact ⟨by decide +kernel, by decide +kernel, hfree', hdice⟩
  · rw [honly e he.lt_size he.kind_eq]

end Matching

end Mend
