import Mathlib.Data.List.Basic
import Mathlib.Data.List.Forall2
import Mend.Proofs.DataSet.Quoted
import Mend.Proofs.Text.Natural

/-!
# Relations are read as they are written

A line is put together from words and quoted texts, and its parts are read again as what they were written for
(`LineOf.parts_eq`). So what is written for vectors is read as their values, one row for each vector and one
attribute for each use, as long as a line feed in quotes does not end a line. Line feeds are written as they
are: the lines of the text itself say the same just if no text that was put in quotes holds a line feed
(`read_render`).
-/

namespace Mend

open Keyword (Use)

/-- The texts of a vector, in the order of the text attributes. -/
def FeatureVector.texts (v : FeatureVector) : List String :=
  [v.provenance.project, v.provenance.buggyFile, v.provenance.repairedFile, v.provenance.buggyCommit,
    v.provenance.repairedCommit, v.function]

namespace Arff

variable {name cell value line : String} {sep : Char} {said lines : List String} {uses : List Use}
  {vectors : List FeatureVector} {v : FeatureVector}

section Words

/-- Characters of words that stand without quotes. -/
def isWordChar (c : Char) : Bool := c.isAlphanum || c == '@'

/-- A text that stands without quotes. -/
def IsWord (s : String) : Prop := ∀ c ∈ s.toList, isWordChar c = true

/-- A text of word characters is a word. -/
lemma isWord_of_all {s : String} (h : s.toList.all isWordChar = true) : IsWord s := List.all_eq_true.1 h

/-- A number is written as a word. -/
lemma isWord_toString (n : UInt64) : IsWord (toString n) := by
  intro c hc
  have hdigit : c.isDigit = true := Text.isDigit_of_mem_repr (n := n.toNat) hc
  rw [isWordChar, Char.isAlphanum, hdigit, Bool.or_true, Bool.true_or]

/-- How a value is written. -/
inductive Written : String → String → Prop where
  | word {w : String} (h : IsWord w) : Written w w
  | quoted (text : String) : Written (quote text) text

/-- A line that ends outside of quotes only, and not in a carriage return. -/
structure IsWhole (line : String) : Prop where
  part : IsPart '\n' line.toList
  last : line.toList.getLast? ≠ some '\r'

/-- Whole texts one behind the other are whole. -/
lemma IsWhole.append {l m : String} (hl : IsWhole l) (hm : IsWhole m) : IsWhole (l ++ m) := by
  refine ⟨String.toList_append ▸ hl.part.append hm.part, ?_⟩
  rw [String.toList_append, List.getLast?_append]
  cases hlast : m.toList.getLast? with
  | none => exact hl.last
  | some c =>
    rw [Option.some_or, ← hlast]
    exact hm.last

namespace Written

/-- A written value is one part of a line, whatever word ends it. -/
lemma isPart (h : Written cell value) (hword : isWordChar sep = false) (hquote : sep ≠ '\'') :
    IsPart sep cell.toList := by
  cases h with
  | quoted => exact isPart_quote hquote _
  | word h =>
    refine isPart_of_forall fun c hc => ⟨?_, ?_⟩
    · rintro rfl
      exact absurd ((h c hc).symm.trans hword) (by decide)
    · rintro rfl
      exact absurd (h _ hc) (by decide)

/-- Without its quotes it is the value. -/
lemma unquote_eq (h : Written cell value) : unquote cell.toList = value.toList := by
  cases h with
  | quoted => exact unquote_quote value
  | word h => exact unquote_of_not_mem fun hc => absurd (h _ hc) (by decide)

/-- A written value is whole. -/
lemma isWhole (h : Written cell value) : IsWhole cell := by
  refine ⟨h.isPart (by decide) (by decide), fun hlast => ?_⟩
  cases h with
  | quoted =>
    rw [getLast?_quote] at hlast
    exact absurd hlast (by decide)
  | word h => exact absurd (h _ (List.mem_of_getLast? hlast)) (by decide)

/-- It holds a line feed only if its value does. -/
lemma not_mem (h : Written cell value) (hvalue : '\n' ∉ value.toList) : '\n' ∉ cell.toList := by
  cases h with
  | quoted =>
    intro hcell
    rcases mem_toList_quote hcell with h | h | h
    · exact absurd h (by decide)
    · exact absurd h (by decide)
    · exact hvalue h
  | word => exact hvalue

end Written

/-- A line with parts that are written for some values. -/
def LineOf (sep : Char) (line : String) (said : List String) : Prop :=
  ∃ cells, cells ≠ [] ∧ List.Forall₂ Written cells said ∧ line = (String.singleton sep).intercalate cells

namespace LineOf

/-- A line is cut into the values that are said. -/
lemma parts_eq (h : LineOf sep line said) (hword : isWordChar sep = false) (hquote : sep ≠ '\'') :
    parts sep line = said := by
  obtain ⟨cells, hne, hwritten, rfl⟩ := h
  refine parts_intercalate hne ?_ ?_
  · clear hne
    induction hwritten with
    | nil => exact nofun
    | cons h _ ih => exact List.forall_mem_cons.2 ⟨h.isPart hword hquote, ih⟩
  · clear hne
    induction hwritten with
    | nil => rfl
    | cons h _ ih => rw [List.map_cons, List.map_cons, h.unquote_eq, ih]

/-- A line is whole. -/
lemma isWhole (h : LineOf sep line said) (hsep : IsWhole (String.singleton sep)) : IsWhole line := by
  obtain ⟨cells, hne, hwritten, rfl⟩ := h
  induction hwritten with
  | nil => exact absurd rfl hne
  | @cons cell value cells said hcell hcells ih =>
    cases cells with
    | nil => exact String.intercalate_singleton.symm ▸ hcell.isWhole
    | cons next cells =>
      rw [String.intercalate_cons_cons]
      exact (hcell.isWhole.append hsep).append (ih (List.cons_ne_nil _ _))

/-- It holds a line feed only if some value does. -/
lemma not_mem (h : LineOf sep line said) (hsep : '\n' ≠ sep) (hsaid : ∀ value ∈ said, '\n' ∉ value.toList) :
    '\n' ∉ line.toList := by
  obtain ⟨cells, hne, hwritten, rfl⟩ := h
  induction hwritten with
  | nil => exact absurd rfl hne
  | @cons cell value cells said hcell hcells ih =>
    obtain ⟨hvalue, hsaid⟩ := List.forall_mem_cons.1 hsaid
    cases cells with
    | nil => exact String.intercalate_singleton.symm ▸ hcell.not_mem hvalue
    | cons next cells =>
      rw [String.intercalate_cons_cons, String.toList_append, String.toList_append, List.mem_append,
        List.mem_append, String.toList_singleton, List.mem_singleton, not_or, not_or]
      exact ⟨⟨hcell.not_mem hvalue, hsep⟩, ih hsaid (List.cons_ne_nil _ _)⟩

end LineOf

end Words

/-- The values of a vector: its number, its texts, and its count of each use. -/
def values (uses : List Use) (v : FeatureVector) : List String :=
  toString v.id :: v.texts ++ (v.project uses).map toString

section Rows

/-- A row has seven values more than there are uses. -/
lemma length_values (uses : List Use) (v : FeatureVector) : (values uses v).length = 7 + uses.length := by
  simp only [values, FeatureVector.texts, FeatureVector.project, List.length_append, List.length_cons,
    List.length_nil, List.length_map]

/-- Counts are read back as they were written. -/
lemma mapM_readWord (ns : List UInt64) : (ns.map toString).mapM Text.readWord = .ok ns := by
  induction ns with
  | nil => rfl
  | cons n ns ih =>
    rw [List.map_cons, List.mapM_cons, Text.readWord_toString, ih]
    rfl

/-- Numbers and texts of a vector are found in its values. -/
lemma entry?_values (uses : List Use) (v : FeatureVector) :
    entry? (values uses v) = some ⟨v.id, v.texts, v.project uses⟩ := by
  have hdrop : (v.texts ++ (v.project uses).map toString).drop textAttributes.length =
      (v.project uses).map toString := List.drop_left' rfl
  have htake : (v.texts ++ (v.project uses).map toString).take textAttributes.length = v.texts :=
    List.take_left' rfl
  rw [values, List.cons_append, entry?, Text.readWord_toString, hdrop, mapM_readWord, htake]

/-- The row of a vector. -/
def row (uses : List Use) (v : FeatureVector) : String := ",".intercalate (cells uses v)

/-- A row is a line of its values. -/
lemma lineOf_row (uses : List Use) (v : FeatureVector) : LineOf ',' (row uses v) (values uses v) := by
  have htexts : List.Forall₂ Written (v.texts.map quote) v.texts :=
    List.forall₂_map_left_iff.2 (List.forall₂_same.2 fun s _ => .quoted s)
  have hcounts : List.Forall₂ Written ((v.project uses).map toString) ((v.project uses).map toString) :=
    List.forall₂_same.2 fun s hs => by
      obtain ⟨n, -, rfl⟩ := List.mem_map.1 hs
      exact .word (isWord_toString n)
  exact ⟨cells uses v, List.cons_ne_nil _ _,
    .cons (.word (isWord_toString v.id)) (List.rel_append htexts hcounts), rfl⟩

end Rows

section Header

/-- The lines of the header before the last one. -/
def front (name : String) (uses : List Use) : List String :=
  s!"@relation {quote name}" :: "" :: attributeLine "id" "numeric" ::
    textAttributes.map (attributeLine · "string") ++
    uses.map (fun u => attributeLine (quote u.text) "numeric") ++ [""]

/-- The parts of these lines. -/
def frontParts (name : String) (uses : List Use) : List (List String) :=
  ["@relation", name] :: [""] :: ["@attribute", "id", "numeric"] ::
    textAttributes.map (["@attribute", ·, "string"]) ++ uses.map (["@attribute", ·.text, "numeric"]) ++ [[""]]

/-- The header is the front and the line that ends it. -/
lemma header_eq (name : String) (uses : List Use) : header name uses = front name uses ++ ["@data"] := by
  simp [header, front]

/-- A word is a line of one value. -/
lemma lineOf_word (h : IsWord line) : LineOf ' ' line [line] :=
  ⟨[line], List.cons_ne_nil _ _, .cons (.word h) .nil, String.intercalate_singleton.symm⟩

/-- The line of the relation says its name. -/
lemma lineOf_relation (name : String) : LineOf ' ' s!"@relation {quote name}" ["@relation", name] := by
  have hkey : IsWord "@relation" := isWord_of_all rfl
  refine ⟨["@relation", quote name], List.cons_ne_nil _ _, .cons (.word hkey) (.cons (.quoted name) .nil), ?_⟩
  rw [String.intercalate_cons_cons, String.intercalate_singleton]
  rfl

/-- The line of an attribute says its name and type. -/
lemma lineOf_attribute {type : String} (hname : Written cell name) (htype : IsWord type) :
    LineOf ' ' (attributeLine cell type) ["@attribute", name, type] := by
  have hkey : IsWord "@attribute" := isWord_of_all rfl
  refine ⟨["@attribute", cell, type], List.cons_ne_nil _ _,
    .cons (.word hkey) (.cons hname (.cons (.word htype) .nil)), ?_⟩
  rw [String.intercalate_cons_cons, String.intercalate_cons_cons, String.intercalate_singleton,
    ← String.append_assoc, ← String.append_assoc]
  rfl

/-- The texts of an attribute are named by words. -/
lemma isWord_of_mem_textAttributes (h : name ∈ textAttributes) : IsWord name := by
  revert name
  simp only [textAttributes, List.forall_mem_cons]
  exact ⟨isWord_of_all rfl, isWord_of_all rfl, isWord_of_all rfl, isWord_of_all rfl, isWord_of_all rfl,
    isWord_of_all rfl, nofun⟩

/-- Every line of the front says what it should. -/
lemma forall₂_lineOf_front (name : String) (uses : List Use) :
    List.Forall₂ (LineOf ' ') (front name uses) (frontParts name uses) := by
  have hnumeric : IsWord "numeric" := isWord_of_all rfl
  have hempty : LineOf ' ' "" [""] := lineOf_word (isWord_of_all rfl)
  have hid : LineOf ' ' (attributeLine "id" "numeric") ["@attribute", "id", "numeric"] :=
    lineOf_attribute (.word (isWord_of_all rfl)) hnumeric
  have htexts : List.Forall₂ (LineOf ' ') (textAttributes.map (attributeLine · "string"))
      (textAttributes.map (["@attribute", ·, "string"])) :=
    List.forall₂_map_left_iff.2 (List.forall₂_map_right_iff.2 (List.forall₂_same.2 fun _ hname =>
      lineOf_attribute (.word (isWord_of_mem_textAttributes hname)) (isWord_of_all rfl)))
  have huses : List.Forall₂ (LineOf ' ') (uses.map fun u => attributeLine (quote u.text) "numeric")
      (uses.map (["@attribute", ·.text, "numeric"])) :=
    List.forall₂_map_left_iff.2 (List.forall₂_map_right_iff.2 (List.forall₂_same.2 fun u _ =>
      lineOf_attribute (.quoted u.text) hnumeric))
  exact List.rel_append (List.rel_append (.cons (lineOf_relation name) (.cons hempty (.cons hid htexts))) huses)
    (.cons hempty .nil)

/-- Lines are cut into what they say. -/
lemma map_parts_of_forall₂ {said : List (List String)} (h : List.Forall₂ (LineOf ' ') lines said) :
    lines.map (parts ' ') = said := by
  induction h with
  | nil => rfl
  | cons h _ ih => rw [List.map_cons, h.parts_eq (by decide) (by decide), ih]

/-- So is the front. -/
lemma map_parts_front (name : String) (uses : List Use) :
    (front name uses).map (parts ' ') = frontParts name uses :=
  map_parts_of_forall₂ (forall₂_lineOf_front name uses)

/-- Every line says something. -/
lemma exists_lineOf_of_forall₂ {said : List (List String)} (h : List.Forall₂ (LineOf sep) lines said)
    (hline : line ∈ lines) : ∃ values ∈ said, LineOf sep line values := by
  induction h with
  | nil => cases hline
  | cons h _ ih =>
    rcases List.mem_cons.1 hline with rfl | hline
    · exact ⟨_, List.mem_cons_self, h⟩
    · obtain ⟨values, hmem, hvalues⟩ := ih hline
      exact ⟨values, List.mem_cons_of_mem _ hmem, hvalues⟩

/-- Only the last line of the header is its end. -/
lemma ne_of_mem_front (h : line ∈ front name uses) : (line != "@data") = true := by
  have hdata : parts ' ' "@data" = ["@data"] :=
    (lineOf_word (isWord_of_all rfl)).parts_eq (by decide) (by decide)
  have hfront : ["@data"] ∉ frontParts name uses := by
    simp [frontParts, textAttributes]
  rw [bne_iff_ne]
  rintro rfl
  rw [← hdata, ← map_parts_front] at hfront
  exact hfront (List.mem_map_of_mem h)

end Header

section Reading

/-- What is to be said of some vectors. -/
def told (name : String) (uses : List Use) (vectors : List FeatureVector) : Relation where
  name := name
  attributes := ("id", "numeric") :: textAttributes.map (·, "string") ++ uses.map (·.text, "numeric")
  rows := vectors.map (values uses)

/-- The attributes are read off the lines that name them. -/
lemma filterMap_attributeOf? {α : Type} (l : List α) (name : α → String) (type : String) :
    (l.map (["@attribute", name ·, type])).filterMap attributeOf? = l.map (name ·, type) := by
  rw [List.filterMap_map]
  exact congrFun List.filterMap_eq_map l

/-- What the lines of header and vectors say. -/
lemma read_lines (name : String) (uses : List Use) (vectors : List FeatureVector) :
    read (header name uses ++ vectors.map (row uses)) = told name uses vectors := by
  have hname : (frontParts name uses).findSome? nameOf? = some name := rfl
  have hattributes : (frontParts name uses).filterMap attributeOf? = (told name uses vectors).attributes := by
    have htexts := filterMap_attributeOf? textAttributes id "string"
    have huses := filterMap_attributeOf? uses (·.text) "numeric"
    rw [frontParts, List.filterMap_append, List.filterMap_append]
    exact (List.append_nil _).trans (congrArg₂ (fun l m => ("id", "numeric") :: l ++ m) htexts huses)
  have hrows : (vectors.map (row uses)).map (parts ',') = vectors.map (values uses) := by
    rw [List.map_map]
    exact List.map_congr_left fun v _ => (lineOf_row uses v).parts_eq (by decide) (by decide)
  have hfront : ∀ line ∈ front name uses, (line != "@data") = true := fun _ => ne_of_mem_front
  rw [read, header_eq, List.append_assoc, List.takeWhile_append_of_pos hfront, List.dropWhile_append_of_pos hfront,
    List.singleton_append, List.takeWhile_cons_of_neg (by decide), List.dropWhile_cons_of_neg (by decide),
    List.append_nil, map_parts_front, hname, hattributes, List.drop_one, List.tail_cons, hrows]
  rfl

/-- The texts that are put in quotes. -/
def quotedTexts (name : String) (uses : List Use) (vectors : List FeatureVector) : List String :=
  name :: uses.map (·.text) ++ vectors.flatMap (·.texts)

/-- What the front says are words and quoted texts. -/
lemma forall_mem_frontParts (name : String) (uses : List Use) (vectors : List FeatureVector) :
    ∀ said ∈ frontParts name uses, ∀ s ∈ said, IsWord s ∨ s ∈ quotedTexts name uses vectors := by
  have hkey : IsWord "@attribute" := isWord_of_all rfl
  have hnumeric : IsWord "numeric" := isWord_of_all rfl
  have hempty : IsWord "" := isWord_of_all rfl
  simp only [frontParts, List.forall_mem_append, List.forall_mem_cons, List.forall_mem_map]
  have hnil := List.forall_mem_nil fun s : String => IsWord s ∨ s ∈ quotedTexts name uses vectors
  refine ⟨⟨⟨⟨.inl (isWord_of_all rfl), .inr ?_, hnil⟩, ⟨.inl hempty, hnil⟩,
    ⟨.inl hkey, .inl (isWord_of_all rfl), .inl hnumeric, hnil⟩, fun name hname => ?_⟩, fun u hu => ?_⟩,
    ⟨.inl hempty, hnil⟩, List.forall_mem_nil _⟩
  · exact List.mem_append_left _ List.mem_cons_self
  · exact ⟨.inl hkey, .inl (isWord_of_mem_textAttributes hname), .inl (isWord_of_all rfl), hnil⟩
  · refine ⟨.inl hkey, .inr ?_, .inl hnumeric, hnil⟩
    exact List.mem_append_left _ (List.mem_cons_of_mem _ (List.mem_map_of_mem hu))

/-- What a row says are words and texts of its vector. -/
lemma mem_values {s : String} (h : s ∈ values uses v) : IsWord s ∨ s ∈ v.texts := by
  rw [values, List.mem_append, List.mem_cons, List.mem_map] at h
  obtain (rfl | h) | ⟨n, -, rfl⟩ := h
  · exact .inl (isWord_toString v.id)
  · exact .inr h
  · exact .inl (isWord_toString n)

/-- Each line is put together from words and quoted texts. -/
lemma exists_lineOf (h : line ∈ header name uses ++ vectors.map (row uses)) : ∃ sep said, (sep = ' ' ∨ sep = ',') ∧
    LineOf sep line said ∧ ∀ s ∈ said, IsWord s ∨ s ∈ quotedTexts name uses vectors := by
  rw [header_eq, List.mem_append, List.mem_append, List.mem_singleton, List.mem_map] at h
  obtain (h | rfl) | ⟨v, hv, rfl⟩ := h
  · obtain ⟨said, hsaid, hline⟩ := exists_lineOf_of_forall₂ (forall₂_lineOf_front name uses) h
    exact ⟨' ', said, .inl rfl, hline, forall_mem_frontParts name uses vectors said hsaid⟩
  · have hdata : IsWord "@data" := isWord_of_all rfl
    exact ⟨' ', _, .inl rfl, lineOf_word hdata, fun s hs => .inl (List.mem_singleton.1 hs ▸ hdata)⟩
  · refine ⟨',', _, .inr rfl, lineOf_row uses v, fun s hs => (mem_values hs).imp_right fun hs => ?_⟩
    exact List.mem_append_right _ (List.mem_flatMap.2 ⟨v, hv, hs⟩)

/-- Every line of the file is whole. -/
lemma isWhole_of_mem (h : line ∈ header name uses ++ vectors.map (row uses)) : IsWhole line := by
  obtain ⟨sep, said, hsep, hline, -⟩ := exists_lineOf h
  refine hline.isWhole ?_
  rcases hsep with rfl | rfl
  · exact ⟨isPart_of_forall (List.forall_mem_singleton.2 (by decide)), by decide⟩
  · exact ⟨isPart_of_forall (List.forall_mem_singleton.2 (by decide)), by decide⟩

/-- Line feeds come from texts in quotes only. -/
lemma not_mem_of_mem (hfeed : ∀ s ∈ quotedTexts name uses vectors, '\n' ∉ s.toList)
    (h : line ∈ header name uses ++ vectors.map (row uses)) : '\n' ∉ line.toList := by
  obtain ⟨sep, said, hsep, hline, hsaid⟩ := exists_lineOf h
  refine hline.not_mem ?_ fun s hs => ?_
  · rcases hsep with rfl | rfl <;> decide
  · rcases hsaid s hs with hword | hquoted
    · exact fun hc => absurd (hword _ hc) (by decide)
    · exact hfeed s hquoted

/-- Outside quotes the file has the lines it is written with. -/
lemma linesOutside_render (name : String) (uses : List Use) (vectors : List FeatureVector) :
    linesOutside (render name uses vectors) = header name uses ++ vectors.map (row uses) := by
  have hlast : ∀ part ∈ (header name uses ++ vectors.map (row uses)).map String.toList,
      part.getLast? ≠ some '\r' := List.forall_mem_map.2 fun line hline => (isWhole_of_mem hline).last
  have hpart : ∀ line ∈ header name uses ++ vectors.map (row uses), IsPart '\n' line.toList :=
    fun line hline => (isWhole_of_mem hline).part
  have hrender : render name uses vectors =
      String.join ((header name uses ++ vectors.map (row uses)).map (· ++ "\n")) := rfl
  rw [linesOutside, hrender, cut_join hpart, Text.linesOfParts_concat hlast, List.map_map]
  exact (List.map_congr_left fun line _ => String.ofList_toList).trans (List.map_id _)

/-- So it has if no quoted text holds a line feed. -/
lemma lines_render (hfeed : ∀ s ∈ quotedTexts name uses vectors, '\n' ∉ s.toList) :
    Text.lines (render name uses vectors) = header name uses ++ vectors.map (row uses) :=
  Text.lines_join_of_getLast? fun _ hline => ⟨not_mem_of_mem hfeed hline, (isWhole_of_mem hline).last⟩

/-- The texts that a relation says. -/
def Relation.texts (r : Relation) : List String := r.name :: r.attributes.map Prod.fst ++ r.rows.flatten

/-- The name of a relation is said on its line. -/
lemma nameOf?_mem {said : List String} (h : nameOf? said = some name) : name ∈ said := by
  unfold nameOf? at h
  split at h <;> simp_all

/-- The name of an attribute is said on its line. -/
lemma attributeOf?_mem {said : List String} {a : String × String} (h : attributeOf? said = some a) : a.1 ∈ said := by
  unfold attributeOf? at h
  split at h
  · cases h
    simp
  · cases h

/-- What is read was in some line. -/
lemma not_mem_of_mem_texts_read (hlines : ∀ line ∈ lines, '\n' ∉ line.toList) {s : String}
    (h : s ∈ (read lines).texts) : '\n' ∉ s.toList := by
  have hparts : ∀ sep, ∀ line ∈ lines, ∀ part ∈ parts sep line, '\n' ∉ part.toList :=
    fun sep line hline part hpart hc => hlines line hline (mem_of_mem_parts hpart hc)
  have htake : ∀ line ∈ lines.takeWhile (· != "@data"), line ∈ lines := fun _ => (List.takeWhile_subset _ ·)
  rw [Relation.texts, List.mem_append, List.mem_cons, List.mem_map] at h
  obtain (rfl | ⟨a, ha, rfl⟩) | h := h
  · cases hname : ((lines.takeWhile (· != "@data")).map (parts ' ')).findSome? nameOf? with
    | none => simp [read, hname]
    | some name =>
      obtain ⟨said, hsaid, hfound⟩ := List.exists_of_findSome?_eq_some hname
      obtain ⟨line, hline, rfl⟩ := List.mem_map.1 hsaid
      have hread : (read lines).name = name := by simp only [read, hname, Option.getD_some]
      rw [hread]
      exact hparts ' ' line (htake line hline) name (nameOf?_mem hfound)
  · obtain ⟨said, hsaid, hfound⟩ := List.mem_filterMap.1 ha
    obtain ⟨line, hline, rfl⟩ := List.mem_map.1 hsaid
    exact hparts ' ' line (htake line hline) a.1 (attributeOf?_mem hfound)
  · obtain ⟨cells, hcells, hs⟩ := List.mem_flatten.1 h
    obtain ⟨line, hline, rfl⟩ := List.mem_map.1 hcells
    exact hparts ',' line ((List.dropWhile_subset _) (List.mem_of_mem_drop hline)) s hs

/-- The texts in quotes are told by the file. -/
lemma quotedTexts_subset (name : String) (uses : List Use) (vectors : List FeatureVector) :
    quotedTexts name uses vectors ⊆ (told name uses vectors).texts := by
  intro s hs
  rw [quotedTexts, List.mem_append, List.mem_cons, List.mem_map, List.mem_flatMap] at hs
  obtain (rfl | ⟨u, hu, rfl⟩) | ⟨v, hv, hs⟩ := hs
  · exact List.mem_append_left _ List.mem_cons_self
  · refine List.mem_append_left _ (List.mem_cons_of_mem _ (List.mem_map.2 ⟨(u.text, "numeric"), ?_, rfl⟩))
    exact List.mem_append_right _ (List.mem_map_of_mem hu)
  · refine List.mem_append_right _ (List.mem_flatten.2 ⟨values uses v, List.mem_map_of_mem hv, ?_⟩)
    exact List.mem_append_left _ (List.mem_cons_of_mem _ hs)

/-- A relation is read as it was written: name, attributes and values, one row for each vector, with its number,
its texts and its counts in the order of the uses. So it is where a line feed in quotes does not end a line;
the lines of the text say the same just if no text in quotes holds a line feed. -/
theorem read_render (name : String) (uses : List Use) (vectors : List FeatureVector) :
    read (linesOutside (render name uses vectors)) = told name uses vectors ∧
    (read (Text.lines (render name uses vectors)) = told name uses vectors ↔
      ∀ s ∈ quotedTexts name uses vectors, '\n' ∉ s.toList) ∧
    (told name uses vectors).rows.map entry? =
      vectors.map (fun v => some ⟨v.id, v.texts, v.project uses⟩) ∧
    ∀ values ∈ (told name uses vectors).rows, values.length = 7 + uses.length := by
  refine ⟨?_, ⟨fun h s hs => ?_, fun hfeed => ?_⟩, ?_, ?_⟩
  · rw [linesOutside_render, read_lines]
  · have hsaid : s ∈ (read (Text.lines (render name uses vectors))).texts :=
      h ▸ quotedTexts_subset name uses vectors hs
    exact not_mem_of_mem_texts_read (fun _ => Text.not_mem_of_mem_lines) hsaid
  · rw [lines_render hfeed, read_lines]
  · rw [told, List.map_map]
    exact List.map_congr_left fun v _ => entry?_values uses v
  · exact List.forall_mem_map.2 fun v _ => length_values uses v

/-- The vector of a method whose computed name goes on in a second line. -/
def computedName : FeatureVector := .blank 1 ⟨"p", "a.js", "a.js", "c1", "c2"⟩ "['a' +\n'b']"

/-- The second line of a name is taken for a row of its own. -/
theorem read_lines_render_computedName :
    read (Text.lines (render "r" [] [computedName])) ≠ told "r" [] [computedName] ∧
      (read (Text.lines (render "r" [] [computedName]))).rows.length = 2 := by
  have hrows : (read (Text.lines (render "r" [] [computedName]))).rows.length = 2 := by decide +kernel
  refine ⟨fun h => ?_, hrows⟩
  rw [h] at hrows
  exact absurd hrows (by decide)

end Reading

end Arff

end Mend
