import Mend.DataSet.File
import Mend.Proofs.Feature.Row

/-!
# Stored data sets are read back

A stored data set has one line for each vector, none of them blank (`rowsOf_store`), and each is taken in
when its turn comes, because no two vectors have the same number (`Loaded.step`). So reading gives the
vectors as their rows say, in order, and reports nothing else.
-/

namespace Mend

open Keyword (Use)

namespace DataSet

lemma not_isBlank_of_isDigit {c : Char} (h : c.isDigit = true) : Text.isBlank c = false := by
  simp only [Char.isDigit, Bool.and_eq_true, decide_eq_true_eq, ge_iff_le, UInt32.le_iff_toNat_le] at h
  have hlow : 48 ≤ c.toNat := h.1
  have hhigh : c.toNat ≤ 57 := h.2
  simp only [Text.isBlank, Bool.or_eq_false_iff, Bool.and_eq_false_iff, decide_eq_false_iff_not,
    beq_eq_false_iff_ne]
  omega

/-- A row begins with a digit. -/
lemma not_isBlankText_write (v : FeatureVector) : Text.isBlankText (Row.write v) = false := by
  have hne : (toString v.id).toList ≠ [] := by
    change v.id.toNat.repr.toList ≠ []
    rw [Nat.toList_repr]
    exact Nat.toDigits_ne_nil
  obtain ⟨c, r, hc⟩ := List.exists_cons_of_ne_nil hne
  have hdigit : c.isDigit = true :=
    Text.isDigit_of_mem_repr (n := v.id.toNat) (hc ▸ List.mem_cons_self)
  have hmem : c ∈ (Row.write v).toList := by
    rw [Row.write, Row.fields, List.cons_append, List.cons_append, String.intercalate_cons_cons,
      String.toList_append, String.toList_append, hc]
    exact List.mem_append_left _ (List.mem_append_left _ List.mem_cons_self)
  rw [Text.isBlankText, List.all_eq_false]
  exact ⟨c, hmem, by rw [not_isBlank_of_isDigit hdigit]; exact Bool.false_ne_true⟩

/-- A stored data set has one row for every vector. -/
lemma rowsOf_store (d : DataSet) : rowsOf d.store = d.vectors.map Row.write := by
  have hstore : d.store = String.join ((d.vectors.map Row.write).map (· ++ "\n")) := by
    rw [store, List.map_map]
    rfl
  have hlines : ∀ row ∈ d.vectors.map Row.write, Text.IsLine row := by
    intro row h
    obtain ⟨v, -, rfl⟩ := List.mem_map.1 h
    exact Row.isLine_write v
  rw [rowsOf, hstore, Text.lines_join hlines, List.filter_eq_self]
  intro row h
  obtain ⟨v, -, rfl⟩ := List.mem_map.1 h
  rw [not_isBlankText_write]
  rfl

/-- What reading without filters has come to after rows that gave the vectors `done`. -/
structure Loaded (done : List FeatureVector) (s : Loading) : Prop where
  vectors : s.dataSet.vectors = done
  filters : s.dataSet.filters = []
  includesUnchanged : s.dataSet.includesUnchanged = true
  report : s.report = ⟨done.length, 0, 0, 0⟩
  seen : ∀ id ∈ s.seen, id ∈ done.map (·.id)

/-- The row of a vector with a new number is taken in. -/
lemma Loaded.step {done : List FeatureVector} {s : Loading} (h : Loaded done s) {v : FeatureVector}
    (hnew : v.id ∉ done.map (·.id)) : Loaded (done ++ [v.sanitized]) (s.step (Row.write v)) := by
  have hseen : s.seen.contains v.sanitized.id = false := by
    rw [List.contains_eq_mem, decide_eq_false_iff_not]
    exact fun hmem => hnew (h.seen _ hmem)
  have hadmits : s.dataSet.admits v.sanitized = true := by
    have hids : s.dataSet.ids.contains v.sanitized.id = false := by
      rw [ids, h.vectors, List.contains_eq_mem, decide_eq_false_iff_not]
      exact hnew
    rw [admits, accepts, h.filters, h.includesUnchanged, hids]
    rfl
  have hstep : s.step (Row.write v) =
      ⟨s.dataSet.add v.sanitized, { s.report with loaded := s.report.loaded + 1 },
        v.sanitized.id :: s.seen⟩ := by
    rw [Loading.step, Row.read_write]
    simp only [hseen, hadmits, Bool.false_eq_true, if_false, if_true]
  have hadd : (s.dataSet.add v.sanitized).vectors = done ++ [v.sanitized] ∧
      (s.dataSet.add v.sanitized).filters = [] ∧
      (s.dataSet.add v.sanitized).includesUnchanged = true := by
    rw [add, dif_pos hadmits]
    exact ⟨congrArg (· ++ [v.sanitized]) h.vectors, h.filters, h.includesUnchanged⟩
  rw [hstep]
  refine ⟨hadd.1, hadd.2.1, hadd.2.2, ?_, ?_⟩
  · rw [h.report, List.length_append, List.length_singleton]
  · intro id hid
    rw [List.map_append, List.mem_append]
    rcases List.mem_cons.1 hid with rfl | hid
    · exact .inr List.mem_cons_self
    · exact .inl (h.seen id hid)

/-- Rows of vectors with different numbers are all taken in. -/
lemma Loaded.foldl {vs done : List FeatureVector} {s : Loading} (h : Loaded done s)
    (hdistinct : (vs.map (·.id)).Nodup) (hnew : ∀ v ∈ vs, v.id ∉ done.map (·.id)) :
    Loaded (done ++ vs.map (·.sanitized)) ((vs.map Row.write).foldl Loading.step s) := by
  induction vs generalizing done s with
  | nil => simpa using h
  | cons v vs ih =>
    obtain ⟨hv, hvs⟩ := List.nodup_cons.1 hdistinct
    have hstep := h.step (hnew v List.mem_cons_self)
    -- The numbers of the vectors that are left are still new: none of them is that of `v`.
    have hrest := ih hstep hvs fun w hw => by
      rw [List.map_append, List.mem_append, not_or]
      refine ⟨hnew w (List.mem_cons_of_mem _ hw), fun hmem => ?_⟩
      have hid : w.id = v.id := List.mem_singleton.1 hmem
      have hw : w.id ∈ vs.map (·.id) := List.mem_map_of_mem hw
      rw [hid] at hw
      exact hv hw
    rw [List.append_assoc, List.singleton_append] at hrest
    rw [List.map_cons, List.map_cons, List.foldl_cons]
    exact hrest

lemma load_store (d : DataSet) : (load [] d.store).1.vectors = d.vectors.map (·.sanitized) ∧
    (load [] d.store).2 = ⟨d.size, 0, 0, 0⟩ := by
  have hstart : Loaded [] ⟨.empty [] true, ⟨0, 0, 0, 0⟩, []⟩ := ⟨rfl, rfl, rfl, rfl, nofun⟩
  have h := hstart.foldl d.distinct fun _ _ => List.not_mem_nil
  rw [List.nil_append, ← rowsOf_store] at h
  refine ⟨h.vectors, ?_⟩
  have hreport := h.report
  rw [List.length_map] at hreport
  exact hreport

/-- A vector is read from its row, and the vectors of a data set from its stored form: with every text
sanitized, counts of uses that become equal added up, and nothing lost on the way. -/
theorem stored_round_trip :
    (∀ v : FeatureVector, Row.read (Row.write v) = .ok v.sanitized ∧
      (∀ u, u ∈ v.sanitized.uses ↔ ∃ w ∈ v.uses, w.sanitized = u) ∧
      (∀ u, v.merged u < 2 ^ 64 → (v.sanitized.count u).toNat = v.merged u) ∧
      (v.IsPlain → v.sanitized.agrees v = true)) ∧
    ∀ d : DataSet, (load [] d.store).1.vectors = d.vectors.map (·.sanitized) ∧
      (load [] d.store).2 = ⟨d.size, 0, 0, 0⟩ := by
  refine ⟨fun v => ⟨Row.read_write v, v.mem_uses_sanitized, fun u hu => ?_, ?_⟩, load_store⟩
  · rw [v.count_sanitized, Nat.mod_eq_of_lt hu]
  · exact FeatureVector.IsPlain.agrees_sanitized

end DataSet

end Mend
