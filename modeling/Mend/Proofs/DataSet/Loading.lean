import Mathlib.Data.List.Induction
import Mend.DataSet.File
import Mend.Proofs.Text.Fields

/-!
# What loading keeps

The rows of a text are its lines that are not blank (`IsRows`). A row of a stored data set is no vector, or one with a number that came before, or the first of its number
(`Standing`); the filters have no say in this. Of the first ones those are kept that pass the filters, in
their order, and the report counts every row once (`load_spec`). That a number is taken for seen also when
its vector is refused is in the invariant of the loop (`Loads`), and makes filtering by a conjunction the
same as filtering by both members (`load_exact`).
-/

namespace Mend

namespace Filter

variable {v : FeatureVector}

/-- Filters in a row accept what both parts accept. -/
lemma acceptsAll_append (fs gs : List Filter) :
    accepts.acceptsAll (fs ++ gs) v = (accepts.acceptsAll fs v && accepts.acceptsAll gs v) := by
  induction fs with
  | nil => rfl
  | cons f fs ih =>
    simp only [List.cons_append, accepts.acceptsAll]
    rw [ih, Bool.and_assoc]

/-- A conjunction accepts what both members accept, whether or not it was put into a larger one. -/
lemma accepts_and (f g : Filter) : (f.and g).accepts v = (f.accepts v && g.accepts v) := by
  cases f with
  | keyword k => simp only [and, accepts, accepts.acceptsAll, Bool.and_true]
  | all fs => simp only [and, accepts, acceptsAll_append, accepts.acceptsAll, Bool.and_true]

end Filter

namespace DataSet

/-- The vector of a row, if the row is well-formed. -/
def vector? (row : String) : Option FeatureVector := (Row.read row).toOption

/-- Whether one of the rows is a vector with this number. -/
def shows (rows : List String) (id : UInt64) : Bool := rows.any fun row => (vector? row).any (·.id == id)

/-- How a row stands to the rows before it. -/
inductive Standing where
  /-- The row is no vector. -/
  | malformed
  /-- A row before is a vector with the same number. -/
  | repeated
  | first (v : FeatureVector)
  deriving DecidableEq

namespace Standing

/-- The vector of a row that is the first of its number. -/
def first? : Standing → Option FeatureVector
  | first v => some v
  | malformed => none
  | repeated => none

end Standing

/-- How a row stands to the rows before it. -/
def standing (before : List String) (row : String) : Standing :=
  match vector? row with
  | none => .malformed
  | some v => if shows before v.id then .repeated else .first v

/-- How every row stands to those before it. -/
def standings (rows : List String) : List Standing :=
  rows.zipIdx.map fun (row, i) => standing (rows.take i) row

/-- The vectors of the rows that are the first of their number. -/
def firsts (rows : List String) : List FeatureVector := (standings rows).filterMap Standing.first?

/-- Whether some filter accepts a vector. Without filters every vector passes. -/
def passes (filters : List Filter) (v : FeatureVector) : Bool :=
  filters.isEmpty || filters.any (·.accepts v)

/-- What a report has to say of rows. -/
def account (filters : List Filter) (rows : List String) : LoadReport where
  loaded := (firsts rows).countP (passes filters)
  filtered := (firsts rows).countP (!passes filters ·)
  malformed := (standings rows).count .malformed
  duplicates := (standings rows).count .repeated

section Rows

variable {filters : List Filter} {rows : List String} {row : String} {v : FeatureVector} {id : UInt64}

/-- A row that holds a vector reads to it. -/
lemma read_of_vector? (h : vector? row = some v) : Row.read row = .ok v := by
  rw [vector?] at h
  cases hread : Row.read row with
  | error e => rw [hread] at h; cases h
  | ok w =>
    rw [hread] at h
    cases h
    rfl

/-- One more row has its standing behind the rows before. -/
lemma standings_append_singleton (rows : List String) (row : String) :
    standings (rows ++ [row]) = standings rows ++ [standing rows row] := by
  -- The rows before a row stay the same when another one comes at the end.
  have hbefore : rows.zipIdx.map (fun (r, i) => standing ((rows ++ [row]).take i) r) = standings rows := by
    refine List.map_congr_left fun e he => ?_
    have hlt : e.2 ≤ rows.length := by
      have h := (List.mem_zipIdx he).2.1
      omega
    dsimp only
    rw [List.take_append_of_le_length hlt]
  have hlast : (rows ++ [row]).take (0 + rows.length) = rows := by
    rw [Nat.zero_add, List.take_left]
  rw [standings, List.zipIdx_append, List.map_append, hbefore, List.zipIdx_singleton, List.map_singleton]
  dsimp only
  rw [hlast]

/-- One more row adds its vector if it is the first of its id. -/
lemma firsts_append_singleton (rows : List String) (row : String) :
    firsts (rows ++ [row]) = firsts rows ++ (standing rows row).first?.toList := by
  rw [firsts, standings_append_singleton, List.filterMap_append]
  cases h : (standing rows row).first? <;> simp [firsts, h]

/-- The ids shown by the rows before, and that of one more. -/
lemma shows_append_singleton (rows : List String) (row : String) (id : UInt64) :
    shows (rows ++ [row]) id = (shows rows id || (vector? row).any (·.id == id)) := by
  rw [shows, List.any_append, List.any_cons, List.any_nil, Bool.or_false, shows]

/-- The first vectors are those of some rows. -/
lemma shows_of_mem_firsts (h : v ∈ firsts rows) : shows rows v.id = true := by
  obtain ⟨s, hs, hv⟩ := List.mem_filterMap.1 h
  obtain ⟨⟨row, i⟩, hrow, rfl⟩ := List.mem_map.1 hs
  have hmem : row ∈ rows := (List.mem_zipIdx' hrow).2 ▸ List.getElem_mem _
  have hvector : vector? row = some v := by
    dsimp only at hv
    rw [standing] at hv
    split at hv
    · cases hv
    · next w hw =>
      split at hv
      · cases hv
      · rw [hw]
        exact hv
  exact List.any_eq_true.2 ⟨row, hmem, by rw [hvector]; exact beq_self_eq_true _⟩

/-- A row is malformed, repeated, or the first of its id. -/
lemma exists_standing_eq (rows : List String) (row : String) :
    (vector? row = none ∧ standing rows row = .malformed) ∨
    ∃ v, vector? row = some v ∧
      ((shows rows v.id = true ∧ standing rows row = .repeated) ∨
        (shows rows v.id = false ∧ standing rows row = .first v)) := by
  rw [standing]
  cases hvector : vector? row with
  | none => exact .inl ⟨rfl, rfl⟩
  | some v =>
    cases hshows : shows rows v.id with
    | true => exact .inr ⟨v, rfl, .inl ⟨hshows, if_pos hshows⟩⟩
    | false => exact .inr ⟨v, rfl, .inr ⟨hshows, if_neg (by rw [hshows]; exact Bool.false_ne_true)⟩⟩

/-- A malformed row is counted as such. -/
lemma account_malformed (h : standing rows row = .malformed) : account filters (rows ++ [row]) =
    { account filters rows with malformed := (account filters rows).malformed + 1 } := by
  simp [account, firsts_append_singleton, standings_append_singleton, h, Standing.first?]

/-- A repeated row is counted as a duplicate. -/
lemma account_repeated (h : standing rows row = .repeated) : account filters (rows ++ [row]) =
    { account filters rows with duplicates := (account filters rows).duplicates + 1 } := by
  simp [account, firsts_append_singleton, standings_append_singleton, h, Standing.first?]

/-- The first row of an id is counted as loaded or filtered out. -/
lemma account_first (h : standing rows row = .first v) : account filters (rows ++ [row]) =
    if passes filters v then { account filters rows with loaded := (account filters rows).loaded + 1 }
    else { account filters rows with filtered := (account filters rows).filtered + 1 } := by
  cases hpasses : passes filters v <;>
    simp [account, firsts_append_singleton, standings_append_singleton, h, hpasses, Standing.first?]

/-- The report counts every row once. -/
lemma sum_account (filters : List Filter) (rows : List String) :
    (account filters rows).loaded + (account filters rows).filtered + (account filters rows).malformed +
      (account filters rows).duplicates = rows.length := by
  induction rows using List.reverseRecOn with
  | nil => rfl
  | append_singleton rows row ih =>
    rw [List.length_append, List.length_singleton]
    obtain ⟨-, h⟩ | ⟨v, -, ⟨-, h⟩ | ⟨-, h⟩⟩ := exists_standing_eq rows row
    · rw [account_malformed h]
      dsimp only
      omega
    · rw [account_repeated h]
      dsimp only
      omega
    · rw [account_first h]
      split
      · dsimp only
        omega
      · dsimp only
        omega

end Rows

/-- What reading has come to after some rows. -/
structure Loads (filters : List Filter) (rows : List String) (s : Loading) : Prop where
  vectors : s.dataSet.vectors = (firsts rows).filter (passes filters)
  filters_eq : s.dataSet.filters = filters
  includesUnchanged : s.dataSet.includesUnchanged = true
  /-- Also the numbers of vectors that no filter accepts. -/
  seen : ∀ id, s.seen.contains id = shows rows id
  report : s.report = account filters rows

namespace Loads

variable {filters : List Filter} {rows : List String} {s : Loading} {row : String} {v : FeatureVector}

/-- A vector with a number that was not seen is taken in just if it passes the filters. -/
lemma admits_eq (h : Loads filters rows s) (hnew : shows rows v.id = false) :
    s.dataSet.admits v = passes filters v := by
  have hids : s.dataSet.ids.contains v.id = false := by
    rw [List.contains_eq_mem, decide_eq_false_iff_not, ids, h.vectors]
    intro hmem
    obtain ⟨w, hw, hid⟩ := List.mem_map.1 hmem
    have hshows := shows_of_mem_firsts (List.mem_filter.1 hw).1
    rw [hid, hnew] at hshows
    cases hshows
  rw [admits, accepts, h.filters_eq, h.includesUnchanged, hids, Bool.true_or, Bool.true_and, Bool.not_false,
    Bool.and_true]
  rfl

/-- A malformed row keeps the invariant of loading. -/
lemma step_malformed (h : Loads filters rows s) (hvector : vector? row = none)
    (hstanding : standing rows row = .malformed) : Loads filters (rows ++ [row]) (s.step row) := by
  have hstep : s.step row = { s with report.malformed := s.report.malformed + 1 } := by
    rw [Loading.step]
    cases hread : Row.read row with
    | error e => rfl
    | ok v => rw [vector?, hread] at hvector; cases hvector
  have hfirsts : firsts (rows ++ [row]) = firsts rows := by
    rw [firsts_append_singleton, hstanding]
    exact List.append_nil _
  rw [hstep]
  refine ⟨?_, h.filters_eq, h.includesUnchanged, fun id => ?_, ?_⟩
  · rw [hfirsts]
    exact h.vectors
  · rw [shows_append_singleton, hvector, Option.any_none, Bool.or_false]
    exact h.seen id
  · rw [account_malformed hstanding, h.report]

/-- A repeated row keeps the invariant of loading. -/
lemma step_repeated (h : Loads filters rows s) (hvector : vector? row = some v)
    (hold : shows rows v.id = true) (hstanding : standing rows row = .repeated) :
    Loads filters (rows ++ [row]) (s.step row) := by
  have hstep : s.step row = { s with report.duplicates := s.report.duplicates + 1 } := by
    rw [Loading.step, read_of_vector? hvector]
    dsimp only
    rw [h.seen, hold, if_pos rfl]
  have hfirsts : firsts (rows ++ [row]) = firsts rows := by
    rw [firsts_append_singleton, hstanding]
    exact List.append_nil _
  rw [hstep]
  refine ⟨?_, h.filters_eq, h.includesUnchanged, fun id => ?_, ?_⟩
  · rw [hfirsts]
    exact h.vectors
  · rw [shows_append_singleton, hvector, Option.any_some]
    by_cases hid : v.id = id
    · rw [← hid, h.seen, hold, Bool.true_or]
    · rw [beq_eq_false_iff_ne.2 hid, Bool.or_false]
      exact h.seen id
  · rw [account_repeated hstanding, h.report]

/-- The number of a first vector is seen from now on, whether or not the vector passes the filters. -/
lemma step_first (h : Loads filters rows s) (hvector : vector? row = some v)
    (hnew : shows rows v.id = false) (hstanding : standing rows row = .first v) :
    Loads filters (rows ++ [row]) (s.step row) := by
  have hadmits : s.dataSet.admits v = passes filters v := h.admits_eq hnew
  have hstep : s.step row =
      if passes filters v then
        ⟨s.dataSet.add v, { s.report with loaded := s.report.loaded + 1 }, v.id :: s.seen⟩
      else ⟨s.dataSet, { s.report with filtered := s.report.filtered + 1 }, v.id :: s.seen⟩ := by
    rw [Loading.step, read_of_vector? hvector]
    dsimp only
    rw [h.seen, hnew, if_neg Bool.false_ne_true, hadmits]
  have hseen : ∀ id, (v.id :: s.seen).contains id = shows (rows ++ [row]) id := by
    intro id
    rw [List.contains_cons, h.seen, shows_append_singleton, hvector, Option.any_some, Bool.or_comm,
      BEq.comm]
  have hfirsts : firsts (rows ++ [row]) = firsts rows ++ [v] := by
    rw [firsts_append_singleton, hstanding]
    rfl
  have haccount : account filters (rows ++ [row]) = _ := account_first hstanding
  rw [hstep]
  cases hpasses : passes filters v with
  | true =>
    have hadd : (s.dataSet.add v).vectors = s.dataSet.vectors ++ [v] := by
      rw [add, dif_pos (hadmits.trans hpasses)]
    rw [hpasses, if_pos rfl] at haccount
    rw [if_pos rfl]
    refine ⟨?_, ?_, ?_, hseen, ?_⟩
    · rw [hfirsts, List.filter_append, List.filter_cons_of_pos hpasses, List.filter_nil, hadd, h.vectors]
    · rw [add, dif_pos (hadmits.trans hpasses)]
      exact h.filters_eq
    · rw [add, dif_pos (hadmits.trans hpasses)]
      exact h.includesUnchanged
    · rw [haccount, h.report]
  | false =>
    rw [hpasses, if_neg Bool.false_ne_true] at haccount
    rw [if_neg Bool.false_ne_true]
    refine ⟨?_, h.filters_eq, h.includesUnchanged, hseen, ?_⟩
    · have hrefused : ¬ passes filters v = true := by rw [hpasses]; exact Bool.false_ne_true
      rw [hfirsts, List.filter_append, List.filter_cons_of_neg hrefused, List.filter_nil, List.append_nil,
        h.vectors]
    · rw [haccount, h.report]

/-- What one row does, by how it stands to the rows before it. -/
lemma step (h : Loads filters rows s) (row : String) : Loads filters (rows ++ [row]) (s.step row) := by
  obtain ⟨hvector, hstanding⟩ | ⟨v, hvector, ⟨hold, hstanding⟩ | ⟨hnew, hstanding⟩⟩ :=
    exists_standing_eq rows row
  · exact h.step_malformed hvector hstanding
  · exact h.step_repeated hvector hold hstanding
  · exact h.step_first hvector hnew hstanding

/-- What all rows do, one after the other. -/
lemma foldl (h : Loads filters rows s) (more : List String) :
    Loads filters (rows ++ more) (more.foldl Loading.step s) := by
  induction more generalizing rows s with
  | nil => rwa [List.append_nil]
  | cons row more ih =>
    rw [List.append_cons]
    exact ih (h.step row)

end Loads

/-- Loading keeps the vectors that are the first of their number and pass the filters, and reports on all
rows. -/
lemma load_spec (filters : List Filter) (text : String) :
    (load filters text).1.vectors = (firsts (rowsOf text)).filter (passes filters) ∧
      (load filters text).2 = account filters (rowsOf text) := by
  have hstart : Loads filters [] ⟨.empty filters true, ⟨0, 0, 0, 0⟩, []⟩ :=
    ⟨rfl, rfl, rfl, fun _ => rfl, rfl⟩
  have h := hstart.foldl (rowsOf text)
  exact ⟨h.vectors, h.report⟩

/-- A vector passes both filters iff it passes their conjunction. -/
lemma passes_and (f g : Filter) (v : FeatureVector) :
    passes [f.and g] v = (passes [f] v && passes [g] v) := by
  simp [passes, Filter.accepts_and]

/-- The rows of a text are its lines, in order, without those that hold blank characters only. -/
def IsRows (text : String) (rows : List String) : Prop :=
  ∃ lines, Text.IsLines text.toList lines ∧
    rows = (lines.filter fun line => !line.all Text.isBlank).map String.ofList

/-- A text has one list of rows, and they are the ones that are read. -/
lemma isRows_iff {text : String} {rows : List String} : IsRows text rows ↔ rows = rowsOf text := by
  have hrows : ∀ lines : List (List Char), lines.map String.ofList = Text.lines text →
      (lines.filter fun line => !line.all Text.isBlank).map String.ofList = rowsOf text := by
    intro lines h
    rw [rowsOf, ← h, List.filter_map]
    simp only [Function.comp_def, Text.isBlankText, String.toList_ofList]
  constructor
  · rintro ⟨lines, hlines, rfl⟩
    exact hrows lines (Text.isLines_iff.1 hlines)
  · rintro rfl
    have hlines := Text.isLines_splitList text.toList
    exact ⟨_, hlines, (hrows _ (Text.isLines_iff.1 hlines)).symm⟩

/-- A text has one list of rows. Loading keeps, in their order, the vectors of the rows that are the first of
their number and that some filter accepts, or all of these if there are no filters. The report counts every
row once. Loading with a conjunction keeps what loading with each of its members keeps. -/
theorem load_exact (filters : List Filter) (text : String) : ∃ rows,
    (∀ rows', IsRows text rows' ↔ rows' = rows) ∧
    (load filters text).1.vectors = (firsts rows).filter (passes filters) ∧
    (load filters text).2 = account filters rows ∧
    (load filters text).2.loaded = (load filters text).1.size ∧
    (load filters text).2.loaded + (load filters text).2.filtered + (load filters text).2.malformed +
      (load filters text).2.duplicates = rows.length ∧
    ∀ f g, (load [f.and g] text).1.vectors =
      (load [f] text).1.vectors.filter (· ∈ (load [g] text).1.vectors) := by
  obtain ⟨hvectors, hreport⟩ := load_spec filters text
  refine ⟨rowsOf text, fun _ => isRows_iff, hvectors, hreport, ?_, ?_, fun f g => ?_⟩
  · rw [hreport, size, hvectors]
    exact List.countP_eq_length_filter
  · rw [hreport]
    exact sum_account filters (rowsOf text)
  · rw [(load_spec [f.and g] text).1, (load_spec [f] text).1, (load_spec [g] text).1, List.filter_filter]
    refine List.filter_congr fun v hv => ?_
    rw [passes_and, Bool.and_comm]
    refine congrArg₂ (· && ·) ?_ rfl
    rw [Bool.eq_iff_iff, decide_eq_true_iff, List.mem_filter]
    exact ⟨fun h => ⟨hv, h⟩, And.right⟩

/-- A stored text with blank lines, one of them with a carriage return, a row that is no vector, a row with a
number that came before, and a vector without uses. The last row has no line end. -/
def mixed : String :=
  "7,p,a,b,c,d,f,RESERVED:EXPRESSION:INSERTED:global:null:2\n\nnot,a,vector\n \t\r\n" ++
  "7,q,a,b,c,d,g,RESERVED:EXPRESSION:REMOVED:global:this:1\r\n3,p,a,b,c,d,h"

/-- The rows of the text. -/
def mixedRows : List String :=
  ["7,p,a,b,c,d,f,RESERVED:EXPRESSION:INSERTED:global:null:2", "not,a,vector",
    "7,q,a,b,c,d,g,RESERVED:EXPRESSION:REMOVED:global:this:1", "3,p,a,b,c,d,h"]

/-- Of the four rows the vector with a use is kept; the others are malformed, repeated and refused. -/
theorem load_exact_mixed :
    IsRows mixed mixedRows ∧
    (load [.everything] mixed).1.vectors.map (·.id) = [7] ∧
    (load [.everything] mixed).1.vectors.map (·.function) = ["f"] ∧
    (load [.everything] mixed).2 = ⟨1, 1, 1, 1⟩ := by
  obtain ⟨rows, hrows, hvectors, hreport, -⟩ := load_exact [.everything] mixed
  have hmixed : IsRows mixed mixedRows := isRows_iff.2 (by decide +kernel)
  obtain rfl := (hrows _).1 hmixed
  rw [hvectors, hreport]
  refine ⟨hmixed, ?_⟩
  decide +kernel

end DataSet

end Mend
