import Mathlib.Data.List.Induction
import Mathlib.Data.List.Nodup
import Mathlib.Data.List.Perm.Subperm
import Mathlib.Tactic.Lemma
import Mend.Matching.Longest

/-!
# Patience sorting finds a longest increasing run

After every prefix of the values, patience sorting holds one run of each length that some increasing run
has, and of all runs of that length the one that ends lowest (`Patient`). A new value continues the last
run that ends below it, and so takes the place of a run that ended no lower (`extend_spec`).

What is left at the end is increasing (`longestIncreasing_increasing`) and as long as any
(`length_le_longestIncreasing`). Of values that increase throughout nothing is left out
(`mem_longestIncreasing_of_pairwise`).
-/

namespace Mend.Matching

/-- The last value of a run, zero for the empty one. -/
def Run.tip (r : Run) : Nat := r.head?.elim 0 (·.value)

/-- An increasing subsequence of `values`, its last member first. -/
structure IsRun (values : List Nat) (r : Run) : Prop where
  pairwise : r.Pairwise fun y x => x.place < y.place ∧ x.value < y.value
  at_place : ∀ x ∈ r, values[x.place]? = some x.value

/-- What patience sorting holds after `values`: for every length that a run can have one that ends
lowest. -/
structure Patient (values : List Nat) (runs : List Run) : Prop where
  length_eq : ∀ (k : Nat) r, runs[k]? = some r → r.length = k + 1
  isRun : ∀ (k : Nat) r, runs[k]? = some r → IsRun values r
  least : ∀ r, IsRun values r → ∀ k : Nat, r.length = k + 1 → ∃ r', runs[k]? = some r' ∧ r'.tip ≤ r.tip

section

variable {values : List Nat} {runs : List Run} {r : Run} {v : Nat}

/-- A run stays one when more values follow. -/
lemma IsRun.append (h : IsRun values r) (more : List Nat) : IsRun (values ++ more) r where
  pairwise := h.pairwise
  at_place x hx := by
    have hp := h.at_place x hx
    rw [List.getElem?_append_left (List.getElem?_eq_some_iff.1 hp).1, hp]

/-- The places of a run are places in the list. -/
lemma IsRun.place_lt (h : IsRun values r) {x : Placed} (hx : x ∈ r) : x.place < values.length :=
  (List.getElem?_eq_some_iff.1 (h.at_place x hx)).1

/-- A part of a run is a run. -/
lemma IsRun.sublist (h : IsRun values r) {r' : Run} (hs : r'.Sublist r) : IsRun values r' where
  pairwise := h.pairwise.sublist hs
  at_place x hx := h.at_place x (hs.subset hx)

/-- A run without its last place is a run. -/
lemma IsRun.tail {x : Placed} (h : IsRun values (x :: r)) : IsRun values r :=
  h.sublist (List.sublist_cons_self x r)

/-- A run ends above what it passed. -/
lemma IsRun.tip_lt {x : Placed} (h : IsRun values (x :: r)) (hr : r ≠ []) : r.tip < x.value := by
  cases r with
  | nil => exact absurd rfl hr
  | cons y r => exact ((List.pairwise_cons.1 h.pairwise).1 y List.mem_cons_self).2

/-- A new value continues a run that ends below it. -/
lemma IsRun.cons (h : IsRun values r) (hv : r ≠ [] → r.tip < v) :
    IsRun (values ++ [v]) (⟨values.length, v⟩ :: r) where
  pairwise := by
    refine List.pairwise_cons.2 ⟨fun x hx => ⟨h.place_lt hx, ?_⟩, h.pairwise⟩
    cases r with
    | nil => simp at hx
    | cons y r =>
      have htip := hv (List.cons_ne_nil y r)
      rcases List.mem_cons.1 hx with rfl | hx
      · exact htip
      · exact Nat.lt_trans ((List.pairwise_cons.1 h.pairwise).1 x hx).2 htip
  at_place x hx := by
    rcases List.mem_cons.1 hx with rfl | hx
    · simp
    · exact (h.append [v]).at_place x hx

/-- A run of `values ++ [v]` that does not end with the new value is one of `values`. -/
lemma IsRun.of_append (h : IsRun (values ++ [v]) r) (hr : ∀ x ∈ r, x.place < values.length) :
    IsRun values r where
  pairwise := h.pairwise
  at_place x hx := by rw [← List.getElem?_append_left (hr x hx), h.at_place x hx]

/-- A run of `values ++ [v]` either is one of `values` or ends with the new value. -/
lemma IsRun.append_cases (h : IsRun (values ++ [v]) r) :
    IsRun values r ∨ ∃ q, r = ⟨values.length, v⟩ :: q ∧ IsRun values q := by
  cases r with
  | nil => exact .inl ⟨.nil, nofun⟩
  | cons x q =>
    have hle := h.place_lt List.mem_cons_self
    rw [List.length_append, List.length_singleton] at hle
    have hq : ∀ y ∈ q, y.place < x.place := fun y hy => ((List.pairwise_cons.1 h.pairwise).1 y hy).1
    by_cases hx : x.place < values.length
    · refine .inl (h.of_append fun y hy => ?_)
      rcases List.mem_cons.1 hy with rfl | hy
      · exact hx
      · exact Nat.lt_trans (hq y hy) hx
    · have hplace : x.place = values.length := by omega
      have hvalue := h.at_place x List.mem_cons_self
      rw [hplace, List.getElem?_concat_length, Option.some.injEq] at hvalue
      refine .inr ⟨q, ?_, h.tail.of_append fun y hy => hplace ▸ hq y hy⟩
      rw [hvalue, ← hplace]

/-- The runs before the place of `x` end below it, and `x` continues the last of them. -/
lemma extend_spec (below : Run) (x : Placed) {runs : List Run} (h : ∀ r ∈ runs, r ≠ []) :
    ∃ p ≤ runs.length, (∀ k < p, ∀ r, runs[k]? = some r → r.tip < x.value) ∧
      (∀ r, runs[p]? = some r → x.value ≤ r.tip) ∧
      ∀ k, (extend below x runs)[k]? =
        if k = p then some (x :: ((below :: runs)[p]?).getD []) else runs[k]? := by
  induction runs generalizing below with
  | nil =>
    refine ⟨0, Nat.le_refl 0, nofun, nofun, fun k => ?_⟩
    cases k with
    | zero => rfl
    | succ k => rfl
  | cons run runs ih =>
    cases run with
    | nil => exact absurd rfl (h [] List.mem_cons_self)
    | cons y run =>
      simp only [extend]
      by_cases hy : y.value < x.value
      · obtain ⟨p, hp, hbelow, habove, hget⟩ := ih (y :: run) fun r hr => h r (List.mem_cons_of_mem _ hr)
        refine ⟨p + 1, by simpa using hp, fun k hk r hr => ?_, by simpa using habove, fun k => ?_⟩
        · cases k with
          | zero =>
            cases hr
            exact hy
          | succ k => exact hbelow k (by omega) r (by simpa using hr)
        · cases k with
          | zero => simp [hy]
          | succ k => simpa [hy] using hget k
      · refine ⟨0, Nat.zero_le _, nofun, fun r hr => ?_, fun k => ?_⟩
        · cases hr
          exact Nat.le_of_not_lt hy
        · cases k with
          | zero => simp [hy]
          | succ k => simp [hy]

/-- No run kept is empty. -/
lemma Patient.ne_nil (h : Patient values runs) : ∀ r ∈ runs, r ≠ [] := by
  rintro r hr rfl
  obtain ⟨k, hk⟩ := List.mem_iff_getElem?.1 hr
  exact absurd (h.length_eq k [] hk) (by simp)

/-- Longer runs end higher. -/
lemma Patient.tip_lt (h : Patient values runs) {j k : Nat} {r r' : Run} (hjk : j < k)
    (hj : runs[j]? = some r) (hk : runs[k]? = some r') : r.tip < r'.tip := by
  have hlen := h.length_eq k r' hk
  cases r' with
  | nil => simp at hlen
  | cons x q =>
    -- The last `j + 1` members of the longer run before its tip are a run of the shorter length.
    rw [List.length_cons, Nat.add_right_cancel_iff] at hlen
    have hrun := h.isRun k _ hk
    have hdrop : IsRun values (q.drop (k - (j + 1))) := hrun.tail.sublist (List.drop_sublist _ _)
    have hlen' : (q.drop (k - (j + 1))).length = j + 1 := by
      rw [List.length_drop, hlen]
      omega
    obtain ⟨r'', hr'', hle⟩ := h.least _ hdrop j hlen'
    rw [hj, Option.some.injEq] at hr''
    subst hr''
    refine Nat.lt_of_le_of_lt hle ?_
    have hne : q.drop (k - (j + 1)) ≠ [] := by
      intro hnil
      rw [hnil] at hlen'
      simp at hlen'
    exact IsRun.tip_lt (hrun.sublist ((List.drop_sublist _ _).cons_cons x)) hne

/-- What patience sorting holds is kept by the next value. -/
lemma Patient.extend (h : Patient values runs) (v : Nat) :
    Patient (values ++ [v]) (extend [] ⟨values.length, v⟩ runs) := by
  obtain ⟨p, hp, hbelow, habove, hget⟩ := extend_spec [] ⟨values.length, v⟩ h.ne_nil
  -- The run that is continued: the empty one, or the last that ends below the new value.
  obtain ⟨q, hq, hlen, hrun, htip⟩ : ∃ q : Run, (([] : Run) :: runs)[p]? = some q ∧ q.length = p ∧
      IsRun values q ∧ (q ≠ [] → q.tip < v) := by
    cases p with
    | zero => exact ⟨[], rfl, rfl, ⟨.nil, nofun⟩, fun hne => absurd rfl hne⟩
    | succ p =>
      have hsome := List.getElem?_eq_getElem (l := runs) (i := p) (by omega)
      exact ⟨runs[p], by simp [hsome], h.length_eq p _ hsome, h.isRun p _ hsome,
        fun _ => hbelow p (Nat.lt_succ_self p) _ hsome⟩
  rw [hq, Option.getD_some] at hget
  refine ⟨fun k r hr => ?_, fun k r hr => ?_, fun r hr k hk => ?_⟩
  · rw [hget] at hr
    split at hr
    · next hkp =>
      cases hr
      rw [List.length_cons, hlen, hkp]
    · exact h.length_eq k r hr
  · rw [hget] at hr
    split at hr
    · cases hr
      exact hrun.cons htip
    · exact (h.isRun k r hr).append [v]
  · rw [hget]
    rcases hr.append_cases with hr | ⟨q', rfl, hq'⟩
    · obtain ⟨r', hr', hle⟩ := h.least r hr k hk
      split
      · next hkp =>
        subst hkp
        exact ⟨_, rfl, Nat.le_trans (habove r' hr') hle⟩
      · exact ⟨r', hr', hle⟩
    · rw [List.length_cons, Nat.add_right_cancel_iff] at hk
      -- A run that the new value continues is at most as long as the one that was continued.
      have hkp : k ≤ p := by
        cases k with
        | zero => exact Nat.zero_le p
        | succ k =>
          obtain ⟨r', hr', hle⟩ := h.least q' hq' k hk
          have hne : q' ≠ [] := by
            rintro rfl
            simp at hk
          have hlt : r'.tip < v := Nat.lt_of_le_of_lt hle (IsRun.tip_lt hr hne)
          by_contra hlt'
          have hsome := List.getElem?_eq_getElem (l := runs) (i := p) (by
            have := (List.getElem?_eq_some_iff.1 hr').1
            omega)
          have hge : v ≤ r'.tip := by
            rcases Nat.lt_or_ge p k with hpk | hpk
            · exact Nat.le_trans (habove _ hsome) (Nat.le_of_lt (h.tip_lt hpk hsome hr'))
            · exact habove r' ((show k = p by omega) ▸ hr')
          omega
      split
      · exact ⟨_, rfl, Nat.le_refl v⟩
      · have hsome := List.getElem?_eq_getElem (l := runs) (i := k) (by omega)
        exact ⟨_, hsome, Nat.le_of_lt (hbelow k (by omega) _ hsome)⟩

end

/-- One more value extends the runs. -/
lemma runsOf_append (values : List Nat) (v : Nat) :
    runsOf (values ++ [v]) = extend [] ⟨values.length, v⟩ (runsOf values) := by
  simp only [runsOf, List.zipIdx_append, List.foldl_append, List.zipIdx_singleton, List.foldl_cons,
    List.foldl_nil, Nat.zero_add]

/-- The runs of a list are patient. -/
lemma patient_runsOf (values : List Nat) : Patient values (runsOf values) := by
  induction values using List.reverseRecOn with
  | nil =>
    refine ⟨nofun, nofun, fun r hr k hk => ?_⟩
    cases r with
    | nil => simp at hk
    | cons x r => simpa using hr.at_place x List.mem_cons_self
  | append_singleton values v ih =>
    rw [runsOf_append]
    exact ih.extend v

/-- The run that is left at the end: increasing, and as long as any. -/
lemma exists_longestIncreasing (values : List Nat) :
    ∃ r, IsRun values r ∧ longestIncreasing values = r.map (·.place) ∧
      ∀ r', IsRun values r' → r'.length ≤ r.length := by
  have h := patient_runsOf values
  unfold longestIncreasing
  rw [List.getLast?_eq_getElem?]
  generalize runsOf values = runs at h
  by_cases hnil : runs = []
  · subst hnil
    refine ⟨[], ⟨.nil, nofun⟩, rfl, fun r' hr' => ?_⟩
    by_contra hlt
    obtain ⟨k, hk⟩ := Nat.exists_eq_add_one.2 (Nat.lt_of_not_le hlt)
    obtain ⟨r, hr, -⟩ := h.least r' hr' k (by simpa using hk)
    simp at hr
  · have hpos := List.length_pos_iff.2 hnil
    have hsome := List.getElem?_eq_getElem (l := runs) (i := runs.length - 1) (by omega)
    refine ⟨runs[runs.length - 1], h.isRun _ _ hsome, by rw [hsome]; rfl, fun r' hr' => ?_⟩
    rw [h.length_eq _ _ hsome]
    by_contra hlt
    obtain ⟨r, hr, -⟩ := h.least r' hr' (r'.length - 1) (by omega)
    have := (List.getElem?_eq_some_iff.1 hr).1
    omega

/-- The places marked hold increasing values. -/
theorem longestIncreasing_increasing {values : List Nat} {i j v w : Nat}
    (hi : i ∈ longestIncreasing values) (hj : j ∈ longestIncreasing values)
    (hv : values[i]? = some v) (hw : values[j]? = some w) (hij : i < j) : v < w := by
  obtain ⟨r, hr, heq, -⟩ := exists_longestIncreasing values
  rw [heq] at hi hj
  obtain ⟨x, hx, rfl⟩ := List.mem_map.1 hi
  obtain ⟨y, hy, rfl⟩ := List.mem_map.1 hj
  rw [hr.at_place x hx, Option.some.injEq] at hv
  rw [hr.at_place y hy, Option.some.injEq] at hw
  have hmono : ∀ ⦃x⦄, x ∈ r → ∀ ⦃y⦄, y ∈ r → x.place < y.place → x.value < y.value :=
    List.Pairwise.forall_of_forall_of_flip (fun _ _ h => absurd h (Nat.lt_irrefl _))
      (hr.pairwise.imp fun h h' => absurd h' (Nat.lt_asymm h.1)) (hr.pairwise.imp fun h _ => h.2)
  exact hv ▸ hw ▸ hmono hx hy hij

/-- No run is longer than the places marked. -/
theorem length_le_longestIncreasing {values : List Nat} {r : Run} (hr : IsRun values r) :
    r.length ≤ (longestIncreasing values).length := by
  obtain ⟨r', -, heq, hmax⟩ := exists_longestIncreasing values
  rw [heq, List.length_map]
  exact hmax r hr

/-- All values with their places, the last first. Where they increase, this is a run. -/
def wholeRun (values : List Nat) : Run := (values.zipIdx.map fun (v, i) => ⟨i, v⟩).reverse

/-- The whole run holds all the values, the last first. -/
lemma map_value_wholeRun (values : List Nat) : (wholeRun values).map (·.value) = values.reverse := by
  rw [wholeRun, List.map_reverse, List.map_map]
  exact congrArg List.reverse (List.zipIdx_map_fst 0 values)

/-- A part of the values is a run if it increases. -/
lemma isRun_of_sublist {values : List Nat} {r : Run} (hr : r.Sublist (wholeRun values))
    (h : r.Pairwise fun y x => x.value < y.value) : IsRun values r where
  pairwise := by
    have hplaces : (wholeRun values).Pairwise fun y x => x.place < y.place := by
      rw [wholeRun, List.pairwise_reverse, List.pairwise_map, List.pairwise_iff_getElem]
      intro i j hi hj hij
      simpa only [List.getElem_zipIdx, Nat.zero_add] using hij
    exact (hplaces.sublist hr).and h
  at_place x hx := by
    have hx := hr.subset hx
    rw [wholeRun, List.mem_reverse] at hx
    obtain ⟨⟨v, i⟩, hp, rfl⟩ := List.mem_map.1 hx
    simpa using List.mem_zipIdx_iff_getElem?.1 hp

/-- The whole run is one when the values increase. -/
lemma isRun_wholeRun {values : List Nat} (h : values.Pairwise (· < ·)) :
    IsRun values (wholeRun values) := by
  refine isRun_of_sublist (.refl _) ?_
  have hvalues : ((wholeRun values).map (·.value)).Pairwise (· > ·) := by
    rw [map_value_wholeRun]
    exact List.pairwise_reverse.2 h
  exact List.pairwise_map.1 hvalues

/-- No increasing subsequence has more members than are kept. -/
lemma length_le_of_sublist {values l : List Nat} (hl : l.Sublist values) (h : l.Pairwise (· < ·)) :
    l.length ≤ (longestIncreasing values).length := by
  -- The members of the subsequence, with places where they are found.
  have hsub : l.reverse.Sublist ((wholeRun values).map (·.value)) := by
    rw [map_value_wholeRun]
    exact List.reverse_sublist.2 hl
  obtain ⟨r, hr, heq⟩ := List.sublist_map_iff.1 hsub
  have hfalls : (r.map (·.value)).Pairwise (· > ·) := heq ▸ List.pairwise_reverse.2 h
  have hrun := isRun_of_sublist hr (List.pairwise_map.1 hfalls)
  have hlength : l.length = r.length := by simpa using congrArg List.length heq
  exact hlength ▸ length_le_longestIncreasing hrun

/-- The places marked are places in the list. -/
lemma lt_length_of_mem_longestIncreasing {values : List Nat} {i : Nat}
    (hi : i ∈ longestIncreasing values) : i < values.length := by
  obtain ⟨r, hr, heq, -⟩ := exists_longestIncreasing values
  rw [heq] at hi
  obtain ⟨x, hx, rfl⟩ := List.mem_map.1 hi
  exact hr.place_lt hx

/-- No place is marked twice. -/
lemma nodup_longestIncreasing (values : List Nat) : (longestIncreasing values).Nodup := by
  obtain ⟨r, hr, heq, -⟩ := exists_longestIncreasing values
  rw [heq, List.Nodup, List.pairwise_map]
  exact hr.pairwise.imp fun hxy => (Nat.ne_of_lt hxy.1).symm

/-- Of values that increase throughout all are kept. -/
theorem mem_longestIncreasing_of_pairwise {values : List Nat} (h : values.Pairwise (· < ·)) {i : Nat}
    (hi : i < values.length) : i ∈ longestIncreasing values := by
  have hlen := length_le_longestIncreasing (isRun_wholeRun h)
  -- As many different places as there are values are all places.
  have hsub : longestIncreasing values ⊆ List.range values.length :=
    fun j hj => List.mem_range.2 (lt_length_of_mem_longestIncreasing hj)
  have hperm := ((nodup_longestIncreasing values).subperm hsub).perm_of_length_le
    (by simpa [wholeRun] using hlen)
  exact hperm.mem_iff.2 (List.mem_range.2 hi)

end Mend.Matching
