import Mathlib.Tactic.Lemma
import Mend.Feature.Row
import Mend.Proofs.Batch.Separate

/-!
# Numbers only grow

New vectors and rows that are read have their turns in any order (`IdSource.Call`). As long as the greatest
word is not among the numbers that were given out or read, the source stands above all of them, and so the
next number is greater than every one before (`lt_created_iff`). Behind the greatest word there is no
greater one: the source then gives out a number that came before (`number_repeated_of_lastWord`).

An analysis takes the numbers of its vectors in turn (`Analysis.ids_vectors`), so that all this holds of them
as well.
-/

namespace Mend

namespace IdSource

/-- A vector without keywords, with the next number, and the source after the number was given out. -/
def create (s : IdSource) (p : Provenance) (function : String) : FeatureVector × IdSource :=
  (.blank s.next p function, s.advance)

/-- What has its turn at the source: a new vector takes a number, and a row that is read shows one. -/
inductive Call where
  | create (p : Provenance) (function : String)
  | read (row : String)

namespace Call

/-- The number of the new vector, or the one that the row shows. A row shows none if it has too few fields or
its first field is no number; whether the fields of its uses can be read does not matter. -/
def number? (s : IdSource) : Call → Option UInt64
  | create p function => some (s.create p function).1.id
  | read row => (Row.readHeader row).toOption.map (·.1.id)

/-- The source after the call. -/
def after (s : IdSource) : Call → IdSource
  | create p function => (s.create p function).2
  | read row => s.observeRow row

end Call

/-- The source after calls in turn. -/
def after (s : IdSource) (calls : List Call) : IdSource := calls.foldl Call.after s

/-- The numbers that are given out or read in turn. -/
def numbers (s : IdSource) : List Call → List UInt64
  | [] => []
  | c :: calls => (c.number? s).toList ++ (c.after s).numbers calls

/-- The greatest number that there is. -/
def lastWord : UInt64 := -1

/-- The source stands above numbers that it will not give out again. -/
def Above (s : IdSource) (numbers : List UInt64) : Prop := ∀ n ∈ numbers, n < s.next

variable {s : IdSource} {n : UInt64} {seen : List UInt64}

/-- The last word as a number. -/
lemma toNat_lastWord : lastWord.toNat = 2 ^ 64 - 1 := rfl

/-- Nothing comes after the last word. -/
lemma not_lastWord_lt (n : UInt64) : ¬ lastWord < n := by
  have hn := n.toNat_lt
  rw [UInt64.lt_iff_toNat_lt, toNat_lastWord]
  omega

/-- Only behind the greatest word the counting starts again. -/
lemma lt_add_one (h : n ≠ lastWord) : n < n + 1 := by
  have hn := n.toNat_lt
  have hne : n.toNat ≠ lastWord.toNat := fun heq => h (UInt64.toNat_inj.1 heq)
  rw [toNat_lastWord] at hne
  rw [UInt64.lt_iff_toNat_lt, UInt64.toNat_add, UInt64.toNat_one, Nat.mod_eq_of_lt (by omega)]
  omega

/-- Observing an id moves the next one past it, unless it is the last. -/
lemma next_observe (s : IdSource) (h : n ≠ lastWord) : (s.observe n).next = max s.next (n + 1) := by
  have h : n ≠ -1 := h
  rw [observe, if_neg h]

/-- The greater of two words. -/
lemma max_eq_ite (a b : UInt64) : max a b = if a ≤ b then b else a := rfl

namespace Above

/-- A number that is given out is below the next one, and so is everything before. -/
lemma advance (h : s.Above seen) (hlast : s.next ≠ lastWord) : s.advance.Above (seen ++ [s.next]) := by
  intro n hn
  have hnext : s.next < s.advance.next := lt_add_one hlast
  rcases List.mem_append.1 hn with hn | hn
  · exact UInt64.lt_trans (h n hn) hnext
  · rwa [List.mem_singleton.1 hn]

/-- The source moves past a number that is read, and never back. -/
lemma observe (h : s.Above seen) (hlast : n ≠ lastWord) : (s.observe n).Above (seen ++ [n]) := by
  intro m hm
  have hmax : s.next ≤ (s.observe n).next ∧ n + 1 ≤ (s.observe n).next := by
    rw [next_observe s hlast, max_eq_ite]
    split
    · next hle => exact ⟨hle, UInt64.le_refl _⟩
    · next hle => exact ⟨UInt64.le_refl _, UInt64.le_of_lt (UInt64.not_le.1 hle)⟩
  rcases List.mem_append.1 hm with hm | hm
  · exact UInt64.lt_of_lt_of_le (h m hm) hmax.1
  · rw [List.mem_singleton.1 hm]
    exact UInt64.lt_of_lt_of_le (lt_add_one hlast) hmax.2

/-- What one call does: the source stands above the number of the call as well. -/
lemma call (h : s.Above seen) (c : Call) (hlast : lastWord ∉ (c.number? s).toList) :
    (c.after s).Above (seen ++ (c.number? s).toList) := by
  cases c with
  | create p function => exact h.advance fun heq => hlast (heq ▸ List.mem_singleton_self _)
  | read row =>
    rw [Call.after, observeRow, Call.number?] at *
    cases hrow : Row.readHeader row with
    | error e => simpa [Except.toOption] using h
    | ok r =>
      rw [hrow] at hlast
      exact h.observe fun heq => hlast (heq ▸ List.mem_singleton_self _)

/-- After calls in turn the source stands above all their numbers. -/
lemma calls (h : s.Above seen) (calls : List Call) (hlast : lastWord ∉ s.numbers calls) :
    (s.after calls).Above (seen ++ s.numbers calls) := by
  induction calls generalizing s seen with
  | nil => rwa [numbers, List.append_nil]
  | cons c calls ih =>
    rw [numbers, List.mem_append, not_or] at hlast
    rw [numbers, ← List.append_assoc]
    exact ih (h.call c hlast.1) hlast.2

end Above

section Replicate

variable (s : IdSource) (p : Provenance) (function : String) (k : Nat)

/-- Creating so many vectors advances the source as far. -/
lemma after_replicate : s.after (List.replicate k (.create p function)) = s.advanceBy k := by
  induction k generalizing s with
  | zero => rw [advanceBy_zero]; rfl
  | succ k ih =>
    have hstep : s.after (List.replicate (k + 1) (.create p function)) =
        s.advance.after (List.replicate k (.create p function)) := rfl
    have hadvance : s.advance = s.advanceBy 1 := rfl
    rw [hstep, ih, hadvance, advanceBy, ahead_advanceBy, Nat.add_comm, advanceBy]

/-- Creating so many vectors gives out the ids ahead. -/
lemma numbers_replicate :
    s.numbers (List.replicate k (.create p function)) = (List.range k).map s.ahead := by
  induction k generalizing s with
  | zero => rfl
  | succ k ih =>
    have hstep : s.numbers (List.replicate (k + 1) (.create p function)) =
        s.ahead 0 :: s.advance.numbers (List.replicate k (.create p function)) := by
      have hzero : s.ahead 0 = s.next := s.next.add_zero
      rw [hzero]
      rfl
    have hadvance : s.advance = s.advanceBy 1 := rfl
    have hahead : s.advance.ahead = s.ahead ∘ Nat.succ := by
      funext j
      rw [hadvance, ahead_advanceBy, Nat.add_comm]
      rfl
    rw [hstep, ih, hahead, List.range_succ_eq_map, List.map_cons, List.map_map]

end Replicate

/-- The number of a new vector is greater than all that were given out or read before just if the greatest
word is none of them. -/
theorem lt_created_iff (s : IdSource) (calls : List Call) (p : Provenance) (function : String) :
    (∀ n ∈ s.numbers calls, n < ((s.after calls).create p function).1.id) ↔
      lastWord ∉ s.numbers calls := by
  constructor
  · intro h hmem
    exact not_lastWord_lt _ (h lastWord hmem)
  · intro hlast n hn
    have h : s.Above [] := nofun
    exact h.calls calls hlast n hn

/-- Behind a row with the greatest word a new vector has the number of that row, and the next one has
zero. -/
theorem number_repeated_of_lastWord :
    IdSource.start.numbers [.read "18446744073709551615,p,a,b,c,d,f", .create .empty "g",
      .create .empty "h"] = [lastWord, lastWord, 0] := by
  decide +kernel

end IdSource

/-- The vectors of an analysis have the numbers of as many calls. -/
lemma Analysis.ids_vectors (x : Analysis) (s : IdSource) (p : Provenance) (function : String) :
    (x.vectors s).1.map (·.id) =
      s.numbers (List.replicate x.repairedScopes.size (.create p function)) ∧
    (x.vectors s).2 = s.after (List.replicate x.drawn (.create p function)) := by
  rw [s.numbers_replicate, s.after_replicate, vectors_eq, vectorsBy, List.map_map]
  exact ⟨rfl, rfl⟩

end Mend
