import Mend.DataSet.Register
import Mend.Proofs.Cohort.Exact

/-!
# Registers stay in step

A register is in step with a data set if it has the same vectors and has recorded their numbers and no
others (`InStep`). Every call keeps the two in step (`InStep.call`), and so do any calls one after the other
(`run_inStep`): the numbers recorded are always those of the vectors, no two of which are the same.
-/

namespace Mend

namespace Register

/-- The register has the vectors of the data set, and has recorded their numbers, each once. -/
structure InStep (r : Register) (d : DataSet) : Prop where
  filters : r.filters = d.filters
  includesUnchanged : r.includesUnchanged = d.includesUnchanged
  vectors : r.vectors = d.vectors
  recorded : r.recorded.Perm d.ids

variable {r : Register} {d : DataSet} {v : FeatureVector} {f : Filter}

/-- A vector is added when it is accepted and its id was not recorded. -/
lemma add_eq (r : Register) (v : FeatureVector) :
    r.add v = if r.accepts v && !r.recorded.contains v.id then
      ({ r with vectors := r.vectors ++ [v], recorded := v.id :: r.recorded }, true) else (r, false) := by
  rw [add, record]
  cases r.accepts v with
  | false => rfl
  | true =>
    cases r.recorded.contains v.id with
    | true => rfl
    | false => rfl

namespace InStep

/-- A new register is in step with a new data set. -/
lemma new (filters : List Filter) (unchanged : Bool) :
    (new filters unchanged).InStep (.empty filters unchanged) := ⟨rfl, rfl, rfl, .nil⟩

/-- In step, both hold the same ids. -/
lemma ids (h : r.InStep d) : r.vectors.map (·.id) = d.ids := by
  rw [h.vectors]
  rfl

/-- The register answers as the data set does. -/
lemma snd_add (h : r.InStep d) (v : FeatureVector) : (r.add v).2 = d.admits v := by
  have haccepts : r.accepts v = d.accepts v := by
    rw [accepts, DataSet.accepts, h.filters, h.includesUnchanged]
  have hrecorded : r.recorded.contains v.id = d.ids.contains v.id := h.recorded.contains_eq
  rw [add_eq, haccepts, hrecorded, ← DataSet.admits]
  split
  · next hadmits => exact hadmits.symm
  · next hadmits => exact (Bool.eq_false_of_not_eq_true hadmits).symm

/-- Adding a vector keeps them in step. -/
lemma add (h : r.InStep d) (v : FeatureVector) : (r.add v).1.InStep (d.add v) := by
  have hanswer := h.snd_add v
  rw [add_eq] at hanswer ⊢
  split at hanswer
  · next hnew =>
    rw [if_pos hnew, DataSet.add, dif_pos hanswer.symm]
    refine ⟨h.filters, h.includesUnchanged, congrArg (· ++ [v]) h.vectors, ?_⟩
    change (v.id :: r.recorded).Perm ((d.vectors ++ [v]).map (·.id))
    rw [List.map_append]
    exact (h.recorded.cons v.id).trans (List.perm_append_singleton _ _).symm
  · next hold =>
    rw [if_neg hold, DataSet.add, dif_neg (by rw [← hanswer]; exact Bool.false_ne_true)]
    exact h

/-- Adding vectors keeps them in step. -/
lemma addAll (h : r.InStep d) (vs : List FeatureVector) : (r.addAll vs).InStep (d.addAll vs) := by
  induction vs generalizing r d with
  | nil => exact h
  | cons v vs ih => exact ih (h.add v)

/-- Including unchanged vectors or not keeps them in step. -/
lemma including (h : r.InStep d) (unchanged : Bool) : (r.including unchanged).InStep (d.including unchanged) :=
  ⟨h.filters, rfl, h.vectors, h.recorded⟩

/-- Filtering keeps them in step. -/
lemma filtered (h : r.InStep d) (f : Filter) : (r.filtered f).InStep (d.filtered f) := by
  rw [Register.filtered, DataSet.filtered, h.includesUnchanged, h.vectors]
  exact ((InStep.new [f] true).addAll d.vectors).including d.includesUnchanged

/-- Leaving out unchanged uses keeps them in step. -/
lemma withoutUnchangedUses (h : r.InStep d) : r.withoutUnchangedUses.InStep d.withoutUnchangedUses := by
  refine ⟨h.filters, h.includesUnchanged, congrArg (List.map _) h.vectors, h.recorded.trans (.of_eq ?_)⟩
  rw [DataSet.ids, DataSet.ids, DataSet.withoutUnchangedUses, List.map_map]
  rfl

end InStep

/-- What reading into a register and into a data set have come to. -/
structure Loading.InStep (s : Loading) (s' : DataSet.Loading) : Prop where
  register : s.register.InStep s'.dataSet
  report : s.report = s'.report
  seen : s.seen = s'.seen

namespace Loading.InStep

variable {s : Loading} {s' : DataSet.Loading}

/-- Loading one row keeps them in step. -/
lemma step (h : s.InStep s') (row : String) : (s.step row).InStep (s'.step row) := by
  rw [Loading.step, DataSet.Loading.step, h.seen, h.report]
  cases Row.read row with
  | error e => exact ⟨h.register, rfl, rfl⟩
  | ok v =>
    dsimp only
    split
    · exact ⟨h.register, rfl, rfl⟩
    · have hadd := h.register.add v
      rw [h.register.snd_add]
      cases hadmits : s'.dataSet.admits v with
      | true => exact ⟨hadd, rfl, rfl⟩
      | false =>
        rw [DataSet.add, dif_neg (by rw [hadmits]; exact Bool.false_ne_true)] at hadd
        exact ⟨hadd, rfl, rfl⟩

/-- Loading rows keeps them in step. -/
lemma foldl (h : s.InStep s') (rows : List String) :
    (rows.foldl Loading.step s).InStep (rows.foldl DataSet.Loading.step s') := by
  induction rows generalizing s s' with
  | nil => exact h
  | cons row rows ih =>
    rw [List.foldl_cons, List.foldl_cons]
    exact ih (h.step row)

end Loading.InStep

/-- Loading a text gives a register in step, with the same report. -/
lemma load_inStep (filters : List Filter) (text : String) :
    (load filters text).1.InStep (DataSet.load filters text).1 ∧
      (load filters text).2 = (DataSet.load filters text).2 := by
  have hstart : Loading.InStep ⟨new filters true, ⟨0, 0, 0, 0⟩, []⟩ ⟨.empty filters true, ⟨0, 0, 0, 0⟩, []⟩ :=
    ⟨.new filters true, rfl, rfl⟩
  have h := hstart.foldl (DataSet.rowsOf text)
  exact ⟨h.register.including false, h.report⟩

namespace InStep

/-- Any one call keeps them in step. -/
lemma call (h : r.InStep d) (c : DataSet.Call) : (r.call c).InStep (d.call c) := by
  cases c with
  | add v => exact h.add v
  | load filters text => exact (load_inStep filters text).1
  | filtered f replaces =>
    cases replaces with
    | true => exact h.filtered f
    | false => exact h
  | withoutUnchangedUses => exact h.withoutUnchangedUses
  | including unchanged => exact h.including unchanged

/-- Any calls keep them in step. -/
lemma run (h : r.InStep d) (calls : List DataSet.Call) : (r.run calls).InStep (d.run calls) := by
  induction calls generalizing r d with
  | nil => exact h
  | cons c calls ih => exact ih (h.call c)

end InStep

/-- After any calls a register is in step with the data set: the numbers of its vectors are pairwise
different, and they are those recorded. Then a vector is added just if it is accepted and its number is new,
at the end and with its number, and otherwise nothing changes; and a selection holds the accepted vectors in
their order and leaves the register as it was. -/
theorem run_inStep (filters : List Filter) (unchanged : Bool) (calls : List DataSet.Call) :
    let r := (new filters unchanged).run calls
    let d := (DataSet.empty filters unchanged).run calls
    r.InStep d ∧ (r.vectors.map (·.id)).Nodup ∧ r.recorded.Perm (r.vectors.map (·.id)) ∧
    (∀ v, (r.add v).2 = d.admits v ∧
      ((r.add v).2 = true ↔ r.accepts v = true ∧ v.id ∉ r.vectors.map (·.id)) ∧
      (r.add v).1 = if (r.add v).2 then
        { r with vectors := r.vectors ++ [v], recorded := v.id :: r.recorded } else r) ∧
    ∀ f, (r.filtered f).vectors = r.vectors.filter f.accepts ∧ (r.filtered f).InStep (d.filtered f) ∧
      r.call (.filtered f true) = r.filtered f ∧ r.call (.filtered f false) = r := by
  intro r d
  have h : r.InStep d := (InStep.new filters unchanged).run calls
  refine ⟨h, ?_, ?_, fun v => ⟨h.snd_add v, ?_, ?_⟩, fun f => ⟨?_, h.filtered f, rfl, rfl⟩⟩
  · rw [h.ids]
    exact d.distinct
  · rw [h.ids]
    exact h.recorded
  · rw [h.ids, ← h.recorded.mem_iff, add_eq]
    split <;> simp_all
  · rw [add_eq]
    split <;> rfl
  · rw [(h.filtered f).vectors, h.vectors]
    exact DataSet.vectors_filtered d f

end Register

end Mend
