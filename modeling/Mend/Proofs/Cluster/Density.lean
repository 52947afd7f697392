import Mathlib.Logic.Relation
import Mathlib.Order.Bounds.Defs
import Mathlib.Tactic.Lemma
import Mend.Cluster.Density

/-!
# What clusters by density are

Core rows are in one cluster just if a chain of core rows, each near the next, joins them. A cluster also
holds the rows near its core rows, and what several clusters could hold is in the first of them. The
clusters are numbered by their first core rows (`densityClusterer_labelled`).

The queue of a growing cluster is followed by `Growing`: what it took belongs to the cluster, and what is
near a core row that it took waits in the queue or has a label (`Growing.take`). With the queue at its end
the cluster has all that it could take (`Growing.grown`). The visits are followed by `Visited`, which gives
the label of every row from the list of first core rows so far.
-/

namespace Mend

namespace Density

open Clusterer (noise)

namespace Space

variable {s : Space} {c f i j k : Nat}

/-- A row with enough rows near it. -/
def CoreRow (s : Space) (i : Nat) : Prop := i < s.size ∧ s.isCore i = true

/-- A chain of core rows, each near the next, joins two rows. -/
def Joined (s : Space) : Nat → Nat → Prop :=
  Relation.ReflTransGen fun i j => s.CoreRow i ∧ s.CoreRow j ∧ s.near i j = true

/-- A row is near a core row that is joined to `f`. -/
def Reached (s : Space) (f j : Nat) : Prop := ∃ k, s.CoreRow k ∧ s.Joined f k ∧ s.near k j = true

/-- Every row is near itself, and what it is near is near it. -/
structure Mutual (s : Space) : Prop where
  refl : ∀ i < s.size, s.near i i = true
  symm : ∀ i < s.size, ∀ j < s.size, s.near i j = true → s.near j i = true

/-- The neighbours of a row are the rows it is near to. -/
lemma mem_neighbours : j ∈ s.neighbours i ↔ j < s.size ∧ s.near i j = true := by
  rw [neighbours, List.mem_filter, List.mem_range]

/-- A search goes on from a core row to its neighbours, and from no other row. -/
lemma onward_eq (s : Space) (i : Nat) : s.onward i = if s.isCore i then s.neighbours i else [] := by
  simp only [onward, isCore, decide_eq_true_eq]

/-- Joining runs both ways. -/
lemma Joined.symm (hs : s.Mutual) (h : s.Joined i j) : s.Joined j i := by
  induction h with
  | refl => exact .refl
  | tail _ hstep ih =>
    obtain ⟨hi, hj, hnear⟩ := hstep
    exact .head ⟨hj, hi, hs.symm _ hi.1 _ hj.1 hnear⟩ ih

/-- A core row that is reached is joined. -/
lemma Reached.joined (hr : s.Reached i j) (hj : s.CoreRow j) : s.Joined i j := by
  obtain ⟨c, hc, hjoined, hnear⟩ := hr
  exact hjoined.tail ⟨hc, hj, hnear⟩

/-- A core row that is joined is reached. -/
lemma Joined.reached (hs : s.Mutual) (h : s.Joined i j) (hj : s.CoreRow j) : s.Reached i j :=
  ⟨j, hj, h, hs.refl j hj.1⟩

end Space

/-! ### One cluster -/

section Cluster

variable {s : Space} {before labels : Array Int} {queue : Array Nat} {f m j k : Nat}

/-- A row that the next cluster may take. -/
def Vacant (labels : Array Int) (j : Nat) : Prop :=
  labels[j]? = some noise ∨ labels[j]? = some unvisited

/-- A row in a cluster is not vacant. -/
lemma not_vacant_of_eq (h : labels[j]? = some (m : Int)) : ¬Vacant labels j := by
  rintro (hv | hv) <;> cases h.symm.trans hv

/-- Vacancy depends on the row's own label alone. -/
lemma vacant_congr {other : Array Int} (h : labels[j]? = other[j]?) (hv : Vacant labels j) :
    Vacant other j := by
  rw [Vacant, ← h]
  exact hv

/-- How far cluster `m`, which starts at `f`, has grown over the labels `before`, with the queue at `k`. -/
structure Growing (s : Space) (f m : Nat) (before : Array Int) (queue : Array Nat) (k : Nat)
    (labels : Array Int) : Prop where
  size : labels.size = s.size
  first : labels[f]? = some (m : Int)
  kept : ∀ j, labels[j]? = before[j]? ∨ labels[j]? = some (m : Int) ∧ s.Reached f j ∧ Vacant before j
  queued : ∀ j ∈ queue, j < s.size ∧ s.Reached f j
  /-- What is near a core row of the cluster waits in the queue or has a label. -/
  closed : ∀ c, s.CoreRow c → labels[c]? = some (m : Int) → ∀ j < s.size, s.near c j = true →
    j ∈ queue.toList.drop k ∨ ¬Vacant labels j

/-- Labels after one of them was written. -/
lemma getElem?_write (hsize : labels.size = s.size) (hk : k < s.size) (l : Int) (j : Nat) :
    (labels.setIfInBounds k l)[j]? = if k = j then some l else labels[j]? := by
  rw [Array.getElem?_setIfInBounds, hsize, if_pos hk]

/-- The rest of the queue is its next row and what follows. -/
lemma drop_toList_eq (hk : k < queue.size) :
    queue.toList.drop k = queue[k] :: queue.toList.drop (k + 1) := by
  rw [List.drop_eq_getElem_cons (by simpa using hk)]
  simp only [Array.getElem_toList]

/-- A row that has a label is passed over. -/
lemma Growing.skip (h : Growing s f m before queue k labels) (hk : k < queue.size)
    (hl : ¬Vacant labels queue[k]) : Growing s f m before queue (k + 1) labels := by
  refine { h with closed := fun c hc hm j hj hnear => ?_ }
  have hold := h.closed c hc hm j hj hnear
  rw [drop_toList_eq hk, List.mem_cons] at hold
  obtain (rfl | hwaits) | hlabel := hold
  · exact .inr hl
  · exact .inl hwaits
  · exact .inr hlabel

/-- A vacant row joins the cluster. If it is a core row, all that is near it must come to the queue. -/
lemma Growing.take (h : Growing s f m before queue k labels) (hk : k < queue.size)
    (hl : Vacant labels queue[k]) {more : List Nat} (hmore : ∀ j ∈ more, j < s.size ∧ s.Reached f j)
    (hcore : s.CoreRow queue[k] → ∀ j < s.size, s.near queue[k] j = true → j ∈ more) :
    Growing s f m before (queue ++ more) (k + 1) (labels.setIfInBounds queue[k] m) := by
  obtain ⟨hlt, hreached⟩ := h.queued _ (Array.getElem_mem hk)
  have hset := getElem?_write h.size hlt m
  have hdrop : (queue ++ more).toList.drop (k + 1) = queue.toList.drop (k + 1) ++ more := by
    rw [Array.toList_appendList, List.drop_append_of_le_length]
    exact hk
  refine ⟨by rw [Array.size_setIfInBounds, h.size], ?_, fun j => ?_, fun j hj => ?_, fun c hc hm j hj hnear => ?_⟩
  · rw [hset, h.first, ite_self]
  · rw [hset]
    by_cases hj : queue[k] = j
    · rw [if_pos hj]
      subst hj
      cases h.kept queue[k] with
      | inl heq => exact .inr ⟨rfl, hreached, vacant_congr heq hl⟩
      | inr hnew => exact absurd hl (not_vacant_of_eq hnew.1)
    · rw [if_neg hj]
      exact h.kept j
  · rw [Array.mem_def, Array.toList_appendList, List.mem_append] at hj
    cases hj with
    | inl hold => exact h.queued j (Array.mem_def.2 hold)
    | inr hnew => exact hmore j hnew
  · rw [hdrop, List.mem_append]
    by_cases hc' : queue[k] = c
    · subst hc'
      exact .inl (.inr (hcore hc j hj hnear))
    · rw [hset, if_neg hc'] at hm
      have hold := h.closed c hc hm j hj hnear
      rw [drop_toList_eq hk, List.mem_cons] at hold
      by_cases hj' : queue[k] = j
      · exact .inr (not_vacant_of_eq (by rw [hset, if_pos hj']))
      · obtain (rfl | hwaits) | hlabel := hold
        · exact absurd rfl hj'
        · exact .inl (.inl hwaits)
        · refine .inr fun hv => hlabel (vacant_congr ?_ hv)
          rw [hset, if_neg hj']

/-- The queue comes to its end with all core rows that are joined to `f` unvisited before. -/
lemma Growing.grow (h : Growing s f m before queue k labels)
    (hfresh : ∀ c, s.CoreRow c → s.Joined f c → before[c]? = some unvisited) :
    ∃ queue' k', queue'.size ≤ k' ∧ Growing s f m before queue' k' (s.grow m queue k labels) := by
  fun_induction s.grow m queue k labels with
  | case1 queue k labels hk j hnoise ih =>
    -- What was found to be noise is no core row.
    have hnot : ¬s.CoreRow queue[k] := by
      intro hc
      have hbefore := hfresh _ hc ((h.queued _ (Array.getElem_mem hk)).2.joined hc)
      obtain heq | ⟨hm, -⟩ := h.kept queue[k]
      · cases hnoise.symm.trans (heq.trans hbefore)
      · cases hnoise.symm.trans hm
    have hnext : Growing s f m before (queue ++ []) (k + 1) (labels.setIfInBounds queue[k] m) :=
      h.take hk (.inl hnoise) (by simp) fun hc => absurd hc hnot
    exact ih (by simpa using hnext)
  | case2 queue k labels hk j _ hunvisited ih =>
    apply ih
    apply h.take hk (.inr hunvisited)
    · intro x hx
      rw [Space.onward_eq] at hx
      split at hx
      · rename_i hcore
        have hc : s.CoreRow queue[k] := ⟨(h.queued _ (Array.getElem_mem hk)).1, hcore⟩
        obtain ⟨hlt, hnear⟩ := Space.mem_neighbours.1 hx
        exact ⟨hlt, queue[k], hc, (h.queued _ (Array.getElem_mem hk)).2.joined hc, hnear⟩
      · cases hx
    · intro hc x hx hnear
      rw [Space.onward_eq, if_pos hc.2]
      exact Space.mem_neighbours.2 ⟨hx, hnear⟩
  | case3 queue k labels hk j hnoise hunvisited ih =>
    exact ih (h.skip hk (by rintro (hv | hv) <;> contradiction))
  | case4 queue k labels hk => exact ⟨queue, k, Nat.le_of_not_lt hk, h⟩

/-- A cluster that has come to its end took all that it reaches and could take, and nothing else. -/
lemma Growing.grown (h : Growing s f m before queue k labels) (hend : queue.size ≤ k)
    (hfresh : ∀ c, s.CoreRow c → s.Joined f c → before[c]? = some unvisited) :
    (∀ j < s.size, s.Reached f j → Vacant before j → labels[j]? = some (m : Int)) ∧
      ∀ j, ¬(s.Reached f j ∧ Vacant before j) → labels[j]? = before[j]? := by
  have hlabel : ∀ c, s.CoreRow c → labels[c]? = some (m : Int) → ∀ j < s.size, s.near c j = true →
      Vacant before j → labels[j]? = some (m : Int) := by
    intro c hc hm j hj hnear hv
    have hnot := h.closed c hc hm j hj hnear
    rw [List.drop_of_length_le (by simpa using hend)] at hnot
    cases h.kept j with
    | inl heq => exact absurd (vacant_congr heq.symm hv) (hnot.resolve_left List.not_mem_nil)
    | inr hnew => exact hnew.1
  have hcores : ∀ c, s.Joined f c → labels[c]? = some (m : Int) := by
    intro c hjoined
    induction hjoined with
    | refl => exact h.first
    | tail hab hstep ih =>
      obtain ⟨ha, hb, hnear⟩ := hstep
      exact hlabel _ ha ih _ hb.1 hnear (.inr (hfresh _ hb (hab.tail ⟨ha, hb, hnear⟩)))
  constructor
  · rintro j hj ⟨c, hc, hjoined, hnear⟩ hv
    exact hlabel c hc (hcores c hjoined) j hj hnear hv
  · intro j hnot
    exact (h.kept j).resolve_right fun hnew => hnot hnew.2

/-- A cluster starts at a core row with the rows near it in the queue. -/
lemma Growing.start (hs : s.Mutual) (hf : s.CoreRow f) (hsize : before.size = s.size)
    (hnew : ∀ j : Nat, before[j]? ≠ some (m : Int)) (hv : Vacant before f) :
    Growing s f m before (s.neighbours f).toArray 0 (before.setIfInBounds f m) := by
  have hset := getElem?_write hsize hf.1 m
  refine ⟨by rw [Array.size_setIfInBounds, hsize], ?_, fun j => ?_, fun j hj => ?_, fun c hc hm j hj hnear => ?_⟩
  · rw [hset, if_pos rfl]
  · rw [hset]
    by_cases hj : f = j
    · subst hj
      exact .inr ⟨if_pos rfl, Space.Joined.reached hs .refl hf, hv⟩
    · exact .inl (if_neg hj)
  · obtain ⟨hlt, hnear⟩ := Space.mem_neighbours.1 (List.mem_toArray.1 hj)
    exact ⟨hlt, f, hf, .refl, hnear⟩
  · rw [hset] at hm
    by_cases hc' : f = c
    · subst hc'
      exact .inl (Space.mem_neighbours.2 ⟨hj, hnear⟩)
    · rw [if_neg hc'] at hm
      exact absurd hm (hnew c)

end Cluster

/-! ### All visits -/

section Visits

variable {s : Space} {firsts : List Nat} {state : Array Int × Nat} {c f i j : Nat} {l : Int}

/-- A core row that no earlier one is joined to. -/
def Space.IsFirst (s : Space) (f : Nat) : Prop := s.CoreRow f ∧ ∀ e < f, s.CoreRow e → ¬s.Joined e f

/-- Every core row is joined to the first of its cluster. -/
lemma exists_first (c : Nat) (hc : s.CoreRow c) : ∃ f ≤ c, s.IsFirst f ∧ s.Joined f c := by
  induction c using Nat.strongRecOn with
  | _ c ih =>
    by_cases hfirst : ∃ e < c, s.CoreRow e ∧ s.Joined e c
    · obtain ⟨e, hlt, he, hjoined⟩ := hfirst
      obtain ⟨f, hle, hf, hfe⟩ := ih e hlt he
      exact ⟨f, Nat.le_trans hle (Nat.le_of_lt hlt), hf, hfe.trans hjoined⟩
    · exact ⟨c, Nat.le_refl c, ⟨hc, fun e hlt he hjoined => hfirst ⟨e, hlt, he, hjoined⟩⟩, .refl⟩

/-- The label of row `j` when the rows below `i` are visited and clusters were started at `firsts`. -/
inductive Given (s : Space) (firsts : List Nat) (i j : Nat) : Int → Prop
  | cluster {c f : Nat} : firsts[c]? = some f → s.Reached f j →
      (∀ d < c, ∀ e, firsts[d]? = some e → ¬s.Reached e j) → Given s firsts i j c
  | noise : j < i → (∀ f ∈ firsts, ¬s.Reached f j) → Given s firsts i j noise
  | unvisited : i ≤ j → (∀ f ∈ firsts, ¬s.Reached f j) → Given s firsts i j unvisited

/-- The state when the rows below `i` are visited and clusters were started at `firsts`. -/
structure Visited (s : Space) (i : Nat) (firsts : List Nat) (state : Array Int × Nat) : Prop where
  size : state.1.size = s.size
  next : state.2 = firsts.length
  ascending : firsts.Pairwise (· < ·)
  first : ∀ f, f ∈ firsts ↔ f < i ∧ s.IsFirst f
  given : ∀ j < s.size, ∃ l, state.1[j]? = some l ∧ Given s firsts i j l

/-- Every label there is was given as it should be. -/
lemma Visited.given_of_eq (h : Visited s i firsts state) (hl : state.1[j]? = some l) :
    Given s firsts i j l := by
  obtain ⟨hj, -⟩ := Array.getElem?_eq_some_iff.1 hl
  obtain ⟨l', hl', hgiven⟩ := h.given j (h.size ▸ hj)
  cases hl.symm.trans hl'
  exact hgiven

/-- No cluster so far reaches a row that the next one may take. -/
lemma Visited.not_reached (h : Visited s i firsts state) (hv : Vacant state.1 j) : ∀ f ∈ firsts, ¬s.Reached f j := by
  cases hv with
  | inl hl =>
    cases h.given_of_eq hl with
    | noise _ hnot => exact hnot
  | inr hl =>
    cases h.given_of_eq hl with
    | unvisited _ hnot => exact hnot

/-- A core row that was visited is reached from one of the first rows. -/
lemma Visited.joined (h : Visited s i firsts state) (hc : s.CoreRow c) (hlt : c < i) :
    ∃ f ∈ firsts, s.Joined f c := by
  obtain ⟨f, hle, hf, hjoined⟩ := exists_first c hc
  exact ⟨f, (h.first f).2 ⟨Nat.lt_of_le_of_lt hle hlt, hf⟩, hjoined⟩

/-- The rows that a core row without a label is joined to have none either. -/
lemma Visited.fresh (hs : s.Mutual) (h : Visited s i firsts state) (hi : s.CoreRow i)
    (hl : state.1[i]? = some unvisited) (hc : s.CoreRow c) (hjoined : s.Joined i c) :
    state.1[c]? = some unvisited := by
  have hnone : ∀ f ∈ firsts, ¬s.Joined f i := fun f hf hfi =>
    h.not_reached (.inr hl) f hf (hfi.reached hs hi)
  obtain ⟨l, hl', hgiven⟩ := h.given c hc.1
  cases hgiven with
  | cluster hf hr _ =>
    exact absurd ((hr.joined hc).trans (hjoined.symm hs)) (hnone _ (List.mem_of_getElem? hf))
  | noise hlt hnot =>
    obtain ⟨f, hf, hfc⟩ := h.joined hc hlt
    exact absurd (hfc.reached hs hc) (hnot f hf)
  | unvisited => exact hl'

/-- Passing a row that is no first starts no cluster. -/
lemma Visited.first_succ (h : Visited s i firsts state) (hi : ¬s.IsFirst i) (f : Nat) :
    f ∈ firsts ↔ f < i + 1 ∧ s.IsFirst f := by
  rw [h.first]
  constructor
  · rintro ⟨hlt, hf⟩
    exact ⟨Nat.lt_succ_of_lt hlt, hf⟩
  · rintro ⟨hlt, hf⟩
    refine ⟨Nat.lt_of_le_of_ne (Nat.le_of_lt_succ hlt) ?_, hf⟩
    rintro rfl
    exact hi hf

/-- What was given stays so as the visit passes another row. -/
lemma Given.succ (h : Given s firsts i j l) (hij : l = Density.unvisited → j ≠ i) : Given s firsts (i + 1) j l := by
  cases h with
  | cluster hf hr hleast => exact .cluster hf hr hleast
  | noise hlt hnot => exact .noise (Nat.lt_succ_of_lt hlt) hnot
  | unvisited hle hnot => exact .unvisited (Nat.lt_of_le_of_ne hle (Ne.symm (hij rfl))) hnot

/-- A new cluster takes what it reaches and no earlier one does. -/
lemma Given.last (hr : s.Reached i j) (hnot : ∀ f ∈ firsts, ¬s.Reached f j) :
    Given s (firsts ++ [i]) (i + 1) j (firsts.length : Nat) := by
  refine .cluster List.getElem?_concat_length hr fun d hd e he => hnot e ?_
  rw [List.getElem?_append_left hd] at he
  exact List.mem_of_getElem? he

/-- A row that the new cluster does not take keeps its label. -/
lemma Given.earlier (h : Given s firsts i j l) (hself : s.Reached i i)
    (hr : l = Clusterer.noise ∨ l = Density.unvisited → ¬s.Reached i j) : Given s (firsts ++ [i]) (i + 1) j l := by
  have hnone : (∀ f ∈ firsts, ¬s.Reached f j) → ¬s.Reached i j → ∀ f ∈ firsts ++ [i], ¬s.Reached f j :=
    fun hnot hr => List.forall_mem_append.2 ⟨hnot, List.forall_mem_singleton.2 hr⟩
  cases h with
  | cluster hf hreached hleast =>
    obtain ⟨hc, -⟩ := List.getElem?_eq_some_iff.1 hf
    refine .cluster (by rwa [List.getElem?_append_left hc]) hreached fun d hd e he => hleast d hd e ?_
    rwa [List.getElem?_append_left (Nat.lt_trans hd hc)] at he
  | noise hlt hnot => exact .noise (Nat.lt_succ_of_lt hlt) (hnone hnot (hr (.inl rfl)))
  | unvisited hle hnot =>
    have hr := hr (.inr rfl)
    have hne : i ≠ j := by
      rintro rfl
      exact hr hself
    exact .unvisited (Nat.lt_of_le_of_ne hle hne) (hnone hnot hr)

/-- A row that has a label is passed over. -/
lemma Visited.pass (h : Visited s i firsts state) (hi : i < s.size) (hl : state.1[i]? ≠ some unvisited) :
    Visited s (i + 1) firsts state := by
  refine { h with first := h.first_succ fun hfirst => ?_, given := fun j hj => ?_ }
  · obtain ⟨l, hl', hgiven⟩ := h.given i hi
    cases hgiven with
    | cluster hf hr _ =>
      obtain ⟨hlt, hcore⟩ := (h.first _).1 (List.mem_of_getElem? hf)
      exact hfirst.2 _ hlt hcore.1 (hr.joined hfirst.1)
    | noise hlt _ => exact Nat.lt_irrefl i hlt
    | unvisited => exact hl hl'
  · obtain ⟨l, hl', hgiven⟩ := h.given j hj
    refine ⟨l, hl', hgiven.succ ?_⟩
    rintro rfl rfl
    exact hl hl'

/-- A row that is no core row is noise for now. -/
lemma Visited.setNoise (h : Visited s i firsts state) (hi : i < s.size) (hcore : ¬s.CoreRow i)
    (hl : state.1[i]? = some unvisited) :
    Visited s (i + 1) firsts (state.1.setIfInBounds i noise, state.2) := by
  refine ⟨by rw [Array.size_setIfInBounds, h.size], h.next, h.ascending,
    h.first_succ fun hfirst => hcore hfirst.1, fun j hj => ?_⟩
  rw [getElem?_write h.size hi]
  by_cases hij : i = j
  · subst hij
    rw [if_pos rfl]
    cases h.given_of_eq hl with
    | unvisited _ hnot => exact ⟨noise, rfl, .noise (Nat.lt_succ_self i) hnot⟩
  · rw [if_neg hij]
    obtain ⟨l, hl', hgiven⟩ := h.given j hj
    exact ⟨l, hl', hgiven.succ fun _ => Ne.symm hij⟩

/-- A core row found unvisited is the first of its cluster. -/
lemma Visited.isFirst (hs : s.Mutual) (h : Visited s i firsts state) (hi : s.CoreRow i)
    (hl : state.1[i]? = some unvisited) : s.IsFirst i := by
  refine ⟨hi, fun e hlt he hjoined => ?_⟩
  obtain ⟨f, hf, hfe⟩ := h.joined he hlt
  exact h.not_reached (.inr hl) f hf (Space.Joined.reached hs (hfe.trans hjoined) hi)

/-- The number of the next cluster is no label yet. -/
lemma Visited.next_unused (h : Visited s i firsts state) (j : Nat) : state.1[j]? ≠ some (state.2 : Int) := by
  intro hj
  rw [h.next] at hj
  generalize hm : (firsts.length : Int) = m at hj
  cases h.given_of_eq hj with
  | cluster hf _ _ =>
    obtain ⟨hlt, -⟩ := List.getElem?_eq_some_iff.1 hf
    exact absurd (Int.ofNat.inj hm) (Nat.ne_of_gt hlt)
  | noise => cases hm
  | unvisited => cases hm

/-- A core row without a label starts a cluster. -/
lemma Visited.start (hs : s.Mutual) (h : Visited s i firsts state) (hi : s.CoreRow i)
    (hl : state.1[i]? = some unvisited) :
    Visited s (i + 1) (firsts ++ [i])
      (s.grow state.2 (s.neighbours i).toArray 0 (state.1.setIfInBounds i state.2), state.2 + 1) := by
  have hfresh := fun c (hc : s.CoreRow c) (hjoined : s.Joined i c) => h.fresh hs hi hl hc hjoined
  obtain ⟨queue, k, hend, hgrowing⟩ := (Growing.start hs hi h.size h.next_unused (.inr hl)).grow hfresh
  obtain ⟨htaken, hleft⟩ := hgrowing.grown hend hfresh
  refine ⟨hgrowing.size, by simp only [h.next, List.length_append, List.length_singleton], ?_, fun f => ?_,
    fun j hj => ?_⟩
  · rw [List.pairwise_append]
    refine ⟨h.ascending, List.pairwise_singleton _ i, fun f hf e he => ?_⟩
    rw [List.mem_singleton.1 he]
    exact ((h.first f).1 hf).1
  · rw [List.mem_append, List.mem_singleton, h.first]
    constructor
    · rintro (⟨hlt, hf⟩ | rfl)
      · exact ⟨Nat.lt_succ_of_lt hlt, hf⟩
      · exact ⟨Nat.lt_succ_self f, h.isFirst hs hi hl⟩
    · rintro ⟨hlt, hf⟩
      rcases Nat.lt_succ_iff_lt_or_eq.1 hlt with hlt | rfl
      · exact .inl ⟨hlt, hf⟩
      · exact .inr rfl
  · by_cases htake : s.Reached i j ∧ Vacant state.1 j
    · refine ⟨state.2, htaken j hj htake.1 htake.2, ?_⟩
      rw [h.next]
      exact .last htake.1 (h.not_reached htake.2)
    · obtain ⟨l, hl', hgiven⟩ := h.given j hj
      refine ⟨l, (hleft j htake).trans hl', hgiven.earlier (Space.Joined.reached hs .refl hi) ?_⟩
      rintro (rfl | rfl) hr
      · exact htake ⟨hr, .inl hl'⟩
      · exact htake ⟨hr, .inr hl'⟩

/-- Visiting one row keeps the invariant. -/
lemma Visited.visit (hs : s.Mutual) (h : Visited s i firsts state) (hi : i < s.size) :
    ∃ firsts', Visited s (i + 1) firsts' (s.visit state i) := by
  rw [Space.visit]
  by_cases hl : state.1[i]? = some unvisited
  · rw [if_pos hl]
    by_cases hfew : (s.neighbours i).length < s.minPoints
    · rw [if_pos hfew]
      refine ⟨firsts, h.setNoise hi (fun hcore => ?_) hl⟩
      exact absurd (of_decide_eq_true hcore.2) (Nat.not_le.2 hfew)
    · rw [if_neg hfew]
      exact ⟨firsts ++ [i], h.start hs ⟨hi, decide_eq_true (Nat.not_lt.1 hfew)⟩ hl⟩
  · rw [if_neg hl]
    exact ⟨firsts, h.pass hi hl⟩

/-- Before any visit no cluster is started. -/
lemma visited_init (s : Space) : Visited s 0 [] (Array.replicate s.size unvisited, 0) := by
  refine ⟨Array.size_replicate, rfl, .nil, fun f => ?_, fun j hj => ?_⟩
  · exact iff_of_false List.not_mem_nil fun h => Nat.not_lt_zero f h.1
  · exact ⟨unvisited, by rw [Array.getElem?_replicate, if_pos hj], .unvisited (Nat.zero_le j) nofun⟩

/-- After any number of visits the invariant holds. -/
lemma exists_visited (hs : s.Mutual) (n : Nat) (hn : n ≤ s.size) : ∃ firsts,
    Visited s n firsts ((List.range n).foldl s.visit (Array.replicate s.size unvisited, 0)) := by
  induction n with
  | zero => exact ⟨[], visited_init s⟩
  | succ n ih =>
    obtain ⟨firsts, h⟩ := ih (Nat.le_of_succ_le hn)
    rw [List.range_succ, List.foldl_append]
    exact h.visit hs hn

/-- A row within reach of a first row has the number of the first cluster that reaches it. -/
lemma Visited.cluster_of_reached (h : Visited s s.size firsts state) (hj : j < s.size) (hf : f ∈ firsts)
    (hr : s.Reached f j) : ∃ (c g : Nat), state.1[j]? = some (c : Int) ∧ firsts[c]? = some g ∧
      s.Reached g j ∧ ∀ d < c, ∀ e, firsts[d]? = some e → ¬s.Reached e j := by
  obtain ⟨l, hl, hgiven⟩ := h.given j hj
  cases hgiven with
  | cluster hg hr' hleast => exact ⟨_, _, hl, hg, hr', hleast⟩
  | noise _ hnot => exact absurd hr (hnot f hf)
  | unvisited hle _ => exact absurd hj (Nat.not_lt.2 hle)

/-- A core row ends with the lowest cluster it is joined to. -/
lemma Visited.cluster_of_core (hs : s.Mutual) (h : Visited s s.size firsts state) (hi : s.CoreRow i) :
    ∃ (c g : Nat), state.1[i]? = some (c : Int) ∧ firsts[c]? = some g ∧ s.Joined g i ∧
      ∀ d < c, ∀ e, firsts[d]? = some e → ¬s.Joined e i := by
  obtain ⟨f, hf, hjoined⟩ := h.joined hi hi.1
  obtain ⟨c, g, hl, hg, hr, hleast⟩ := h.cluster_of_reached hi.1 hf (hjoined.reached hs hi)
  exact ⟨c, g, hl, hg, hr.joined hi, fun d hd e he hei => hleast d hd e he (hei.reached hs hi)⟩

/-- Two core rows end with one label iff they are joined. -/
lemma Visited.label_eq_iff (hs : s.Mutual) (h : Visited s s.size firsts state) (hi : s.CoreRow i)
    (hj : s.CoreRow j) : state.1[i]? = state.1[j]? ↔ s.Joined i j := by
  obtain ⟨c, f, hci, hf, hfi, hleast⟩ := h.cluster_of_core hs hi
  obtain ⟨d, g, hdj, hg, hgj, hleast'⟩ := h.cluster_of_core hs hj
  rw [hci, hdj, Option.some_inj, Int.natCast_inj]
  constructor
  · rintro rfl
    cases hf.symm.trans hg
    exact (hfi.symm hs).trans hgj
  · intro hij
    rcases Nat.lt_trichotomy c d with hlt | heq | hlt
    · exact absurd (hfi.trans hij) (hleast' c hlt f hf)
    · exact heq
    · exact absurd (hgj.trans (hij.symm hs)) (hleast d hlt g hg)

/-- The clusters that reach a row are those of the core rows near it. -/
lemma Visited.isLeast_label (hs : s.Mutual) (h : Visited s s.size firsts state) (hj : j < s.size)
    (hc : s.CoreRow c) (hnear : s.near j c = true) : ∃ l, state.1[j]? = some l ∧
      IsLeast {l | ∃ c, s.CoreRow c ∧ s.near j c = true ∧ state.1[c]? = some l} l := by
  have hreached : ∀ c, s.CoreRow c → s.near j c = true → ∃ (d f : Nat), state.1[c]? = some (d : Int) ∧
      firsts[d]? = some f ∧ s.Reached f j ∧ ∀ d' < d, ∀ e, firsts[d']? = some e → ¬s.Joined e c := by
    intro c hc hnear
    obtain ⟨d, f, hd, hf, hfc, hleast⟩ := h.cluster_of_core hs hc
    exact ⟨d, f, hd, hf, ⟨c, hc, hfc, hs.symm j hj c hc.1 hnear⟩, hleast⟩
  obtain ⟨_, f, -, hf, hr, -⟩ := hreached c hc hnear
  obtain ⟨m, g, hm, hg, ⟨b, hb, hgb, hbj⟩, hleast⟩ := h.cluster_of_reached hj (List.mem_of_getElem? hf) hr
  have hlower : ∀ c, s.CoreRow c → s.near j c = true → ∀ l, state.1[c]? = some l → (m : Int) ≤ l := by
    intro c hc hnear l hl
    obtain ⟨d, f, hd, hf, hr, -⟩ := hreached c hc hnear
    cases hl.symm.trans hd
    exact Int.ofNat_le.2 (Nat.not_lt.1 fun hlt => hleast d hlt f hf hr)
  -- The core row through which the first cluster reaches this one has the label of that cluster.
  have hnear' := hs.symm b hb.1 j hj hbj
  obtain ⟨d, e, hd, he, -, hleast'⟩ := hreached b hb hnear'
  have hle : d ≤ m := Nat.not_lt.1 fun hlt => hleast' m hlt g hg hgb
  have hge : m ≤ d := Int.ofNat_le.1 (hlower b hb hnear' d hd)
  cases Nat.le_antisymm hle hge
  exact ⟨m, hm, ⟨b, hb, hnear', hd⟩, fun l ⟨c, hc, hnear, hl⟩ => hlower c hc hnear l hl⟩

/-- A first row has the number of its cluster. -/
lemma Visited.label_first (hs : s.Mutual) (h : Visited s s.size firsts state) (hf : firsts[c]? = some f) :
    state.1[f]? = some (c : Int) := by
  have hfirst := ((h.first f).1 (List.mem_of_getElem? hf)).2
  obtain ⟨d, g, hd, hg, hjoined, hleast⟩ := h.cluster_of_core hs hfirst.1
  have hcore := ((h.first g).1 (List.mem_of_getElem? hg)).2.1
  have hle : d ≤ c := Nat.not_lt.1 fun hlt => hleast c hlt f hf .refl
  obtain ⟨hcl, hfeq⟩ := List.getElem?_eq_some_iff.1 hf
  obtain ⟨hdl, hgeq⟩ := List.getElem?_eq_some_iff.1 hg
  rcases Nat.lt_or_eq_of_le hle with hlt | rfl
  · have hascending := List.pairwise_iff_getElem.1 h.ascending d c hdl hcl hlt
    rw [hgeq, hfeq] at hascending
    exact absurd hjoined (hfirst.2 g hascending hcore)
  · exact hd

/-- A row that is near no core row is noise. -/
lemma Visited.label_lone (hs : s.Mutual) (h : Visited s s.size firsts state) (hj : j < s.size)
    (hnone : ∀ c, s.CoreRow c → s.near j c = false) : state.1[j]? = some noise := by
  obtain ⟨l, hl, hgiven⟩ := h.given j hj
  cases hgiven with
  | cluster _ hr _ =>
    obtain ⟨c, hc, -, hnear⟩ := hr
    cases (hs.symm c hc.1 j hj hnear).symm.trans (hnone c hc)
  | noise => exact hl
  | unvisited hle _ => exact absurd hj (Nat.not_lt.2 hle)

/-- A label is noise or the number of a cluster. -/
lemma Visited.label_cases (h : Visited s s.size firsts state) (hl : state.1[j]? = some l) :
    l = noise ∨ ∃ c < firsts.length, l = (c : Int) := by
  obtain ⟨hlt, -⟩ := Array.getElem?_eq_some_iff.1 hl
  cases h.given_of_eq hl with
  | cluster hf _ _ => exact .inr ⟨_, (List.getElem?_eq_some_iff.1 hf).1, rfl⟩
  | noise => exact .inl rfl
  | unvisited hle _ => exact absurd (h.size ▸ hlt) (Nat.not_lt.2 hle)

end Visits

/-! ### The labels -/

/-- Labels as the definition of clusters by density has them, with the first core rows of the clusters in
their order. -/
structure Labelled (s : Space) (firsts : List Nat) (labels : List Int) : Prop where
  length : labels.length = s.size
  visited : unvisited ∉ labels
  core : ∀ i j, s.CoreRow i → s.CoreRow j → (labels[i]? = labels[j]? ↔ s.Joined i j)
  lone : ∀ j < s.size, (∀ c, s.CoreRow c → s.near j c = false) → labels[j]? = some noise
  border : ∀ j < s.size, (∃ c, s.CoreRow c ∧ s.near j c = true) → ∃ l, labels[j]? = some l ∧
    IsLeast {l | ∃ c, s.CoreRow c ∧ s.near j c = true ∧ labels[c]? = some l} l
  ascending : firsts.Pairwise (· < ·)
  first : ∀ f, f ∈ firsts ↔ s.IsFirst f
  numbered : ∀ c f : Nat, firsts[c]? = some f → labels[f]? = some (c : Int)
  used : ∀ l ∈ labels, l = noise ∨ ∃ c < firsts.length, l = (c : Int)

/-- The labels are those of the clusters' first rows. -/
lemma Space.labels_labelled {s : Space} (hs : s.Mutual) : ∃ firsts, Labelled s firsts s.labels := by
  obtain ⟨firsts, h⟩ := exists_visited hs s.size (Nat.le_refl _)
  rw [Space.labels]
  generalize (List.range s.size).foldl s.visit (Array.replicate s.size unvisited, 0) = state at h ⊢
  have hused : ∀ l ∈ state.1.toList, l = noise ∨ ∃ c < firsts.length, l = (c : Int) := by
    intro l hl
    obtain ⟨j, hj⟩ := List.getElem?_of_mem hl
    rw [Array.getElem?_toList] at hj
    exact h.label_cases hj
  refine ⟨firsts, h.size, ?_, ?_, ?_, ?_, h.ascending, fun f => ?_, ?_, hused⟩
  · intro hmem
    obtain heq | ⟨c, -, heq⟩ := hused _ hmem <;> cases heq
  · intro i j hi hj
    rw [Array.getElem?_toList, Array.getElem?_toList]
    exact h.label_eq_iff hs hi hj
  · intro j hj hnone
    rw [Array.getElem?_toList]
    exact h.label_lone hs hj hnone
  · rintro j hj ⟨c, hc, hnear⟩
    simp only [Array.getElem?_toList]
    exact h.isLeast_label hs hj hc hnear
  · rw [h.first]
    exact and_iff_right_of_imp fun hf => hf.1.1
  · intro c f hf
    rw [Array.getElem?_toList]
    exact h.label_first hs hf

/-- The space has a point for each row. -/
lemma space_size (epsilon : Float) (minPoints : Nat) (rows : List Point) :
    (space epsilon minPoints rows).size = rows.length := by
  rw [space, normalize, columns, List.size_toArray, List.length_map, List.length_range]

end Density

/-- With a relation that is reflexive and symmetric, the labels of a matrix that is accepted are those that
the definition of clusters by density gives. -/
theorem densityClusterer_labelled {epsilon : Float} {minPoints : Nat} {rows : List Point}
    (hrows : Clusterer.checkMatrix rows = .ok ()) (hepsilon : ¬epsilon ≤ 0.0) (hpoints : minPoints ≠ 0)
    (hs : (Density.space epsilon minPoints rows).Mutual) :
    ∃ firsts labels, (densityClusterer epsilon minPoints).labels rows = .ok labels ∧
      labels.length = rows.length ∧ Density.Labelled (Density.space epsilon minPoints rows) firsts labels := by
  obtain ⟨firsts, hlabelled⟩ := Density.Space.labels_labelled hs
  refine ⟨firsts, _, ?_, hlabelled.length.trans (Density.space_size epsilon minPoints rows), hlabelled⟩
  have hparameters : (decide (epsilon ≤ 0.0) || minPoints == 0) = false := by
    rw [decide_eq_false hepsilon, beq_false_of_ne hpoints, Bool.or_self]
  rw [densityClusterer]
  dsimp only
  rw [hrows, hparameters]
  rfl

/-- One core row, two rows near it and two far away. -/
theorem densityClusterer_labelled_line :
    let rows : List Point := [[0.0], [1.0], [2.0], [5.0], [10.0]]
    Clusterer.checkMatrix rows = .ok () ∧ ¬(0.15 : Float) ≤ 0.0 ∧ (Density.space 0.15 3 rows).Mutual ∧
      ∃ firsts labels, (densityClusterer 0.15 3).labels rows = .ok labels ∧
        labels.length = rows.length ∧ Density.Labelled (Density.space 0.15 3 rows) firsts labels := by
  intro rows
  have hrows : Clusterer.checkMatrix rows = .ok () := rfl
  have hepsilon : ¬(0.15 : Float) ≤ 0.0 := by decide +kernel
  have hs : (Density.space 0.15 3 rows).Mutual := ⟨by decide +kernel, by decide +kernel⟩
  exact ⟨hrows, hepsilon, hs, densityClusterer_labelled hrows hepsilon (by decide) hs⟩

end Mend
