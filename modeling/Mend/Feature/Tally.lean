import Mend.Keyword.Use

/-!
# Tallies of keyword uses

A tally holds keyword uses with a number each, every use once and in sorting order. Two tallies that answer
alike for every use are equal, because their entries are sorted.
-/

namespace Mend

open Keyword (Use)

/-- The sorting order on entries. -/
def Tally.Before {ν : Type} (a b : Use × ν) : Prop := a.1.order b.1 = .lt

/-- Keyword uses with a number each. -/
structure Tally (ν : Type) where
  entries : List (Use × ν)
  sorted : entries.Pairwise Tally.Before

namespace Tally

variable {ν : Type}

instance [DecidableEq ν] : DecidableEq (Tally ν) := fun s t =>
  match decEq s.entries t.entries with
  | isTrue h => isTrue (by cases s; cases t; cases h; rfl)
  | isFalse h => isFalse fun e => h (congrArg entries e)

/-- No uses. -/
def empty : Tally ν := ⟨[], .nil⟩

instance : Inhabited (Tally ν) := ⟨empty⟩

/-- Puts a use with its number into a sorted list, or adds the number to that of the use. -/
def insertEntry [Add ν] (u : Use) (n : ν) : List (Use × ν) → List (Use × ν)
  | [] => [(u, n)]
  | (v, m) :: r =>
    match u.order v with
    | .lt => (u, n) :: (v, m) :: r
    | .eq => (v, m + n) :: r
    | .gt => (v, m) :: insertEntry u n r

theorem fst_of_mem_insertEntry [Add ν] {u : Use} {n : ν} {e : Use × ν} {l : List (Use × ν)}
    (h : e ∈ insertEntry u n l) : e.1 = u ∨ e.1 ∈ l.map Prod.fst := by
  fun_induction insertEntry u n l with
  | case1 => simp_all
  | case2 v m r _ => simp_all; grind
  | case3 v m r _ => simp_all; grind
  | case4 v m r _ ih => simp_all; grind

theorem sorted_insertEntry [Add ν] (u : Use) (n : ν) {l : List (Use × ν)} (h : l.Pairwise Before) :
    (insertEntry u n l).Pairwise Before := by
  fun_induction insertEntry u n l with
  | case1 => simp
  | case2 v m r hlt =>
    refine .cons ?_ h
    rintro e (_ | ⟨_, he⟩)
    · exact hlt
    · exact Std.TransCmp.lt_trans hlt (List.rel_of_pairwise_cons h he)
  | case3 v m r heq =>
    obtain ⟨hv, hr⟩ := List.pairwise_cons.1 h
    exact .cons hv hr
  | case4 v m r hgt ih =>
    obtain ⟨hv, hr⟩ := List.pairwise_cons.1 h
    refine .cons (fun e he => ?_) (ih hr)
    rcases fst_of_mem_insertEntry he with he | he
    · rw [Before, he]
      exact Std.OrientedCmp.lt_of_gt hgt
    · obtain ⟨e', he', heq⟩ := List.mem_map.1 he
      rw [Before, ← heq]
      exact hv e' he'

/-- Adds to the number of a use. -/
def add [Add ν] (t : Tally ν) (u : Use) (n : ν) : Tally ν :=
  ⟨insertEntry u n t.entries, sorted_insertEntry u n t.sorted⟩

/-- The uses of the tally, in sorting order. -/
def uses (t : Tally ν) : List Use := t.entries.map Prod.fst

/-- The number of a use, if the tally holds it. -/
def get? (t : Tally ν) (u : Use) : Option ν := (t.entries.find? (·.1 == u)).map Prod.snd

/-- Whether the tally holds a use. -/
def contains (t : Tally ν) (u : Use) : Bool := t.uses.contains u

/-- Keeps only the uses that satisfy a condition. -/
def retain (t : Tally ν) (keep : Use → Bool) : Tally ν :=
  ⟨t.entries.filter fun e => keep e.1, t.sorted.filter _⟩

/-- Adds entry after entry. -/
def addAll [Add ν] (t : Tally ν) (entries : List (Use × ν)) : Tally ν :=
  entries.foldl (fun t e => t.add e.1 e.2) t

/-- Gives every use another change label. The numbers of uses that become equal are added up. -/
def relabel [Add ν] (t : Tally ν) (change : Change) : Tally ν :=
  empty.addAll (t.entries.map fun e => (e.1.withChange change, e.2))

end Tally

end Mend
