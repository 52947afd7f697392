import Mathlib.Tactic.Lemma
import Mend.DataSet.Relation
import Mend.Proofs.Text.Fields

/-!
# Quoted texts are read as they are written

A separator does not cut a quoted text, whatever it holds (`isPart_quote`), so that the parts put between
separators are found again (`cut_intercalate`). Without quotes and escapes a quoted text is the text itself
(`unquote_quote`).
-/

namespace Mend.Arff

variable {sep c : Char} {p : Place} {l m part : List Char} {s line : String}

section Cut

/-- Cutting leaves at least one part. -/
lemma cut_ne_nil (sep : Char) (p : Place) (l : List Char) : cut sep p l ≠ [] := by
  induction l generalizing p with
  | nil => exact List.cons_ne_nil _ _
  | cons c r ih =>
    rw [cut]
    split
    · exact List.cons_ne_nil _ _
    · exact fun h => ih (p.next c) (List.modifyHead_eq_nil_iff.1 h)

/-- The parts are made of the characters cut. -/
lemma mem_of_mem_cut (h : part ∈ cut sep p l) (hc : c ∈ part) : c ∈ l := by
  induction l generalizing p part with
  | nil => exact List.mem_singleton.1 h ▸ hc
  | cons d r ih =>
    rw [cut] at h
    split at h
    · rcases List.mem_cons.1 h with rfl | h
      · cases hc
      · exact List.mem_cons_of_mem _ (ih h hc)
    · obtain ⟨first, rest, hcut⟩ := List.exists_cons_of_ne_nil (cut_ne_nil sep (p.next d) r)
      have ih : ∀ part ∈ first :: rest, c ∈ part → c ∈ r := fun part hpart => ih (hcut ▸ hpart)
      rw [hcut, List.modifyHead_cons] at h
      rcases List.mem_cons.1 h with rfl | h
      · rcases List.mem_cons.1 hc with rfl | hc
        · exact List.mem_cons_self
        · exact List.mem_cons_of_mem _ (ih first List.mem_cons_self hc)
      · exact List.mem_cons_of_mem _ (ih part (List.mem_cons_of_mem _ h) hc)

/-- Reading the text outside of quotes leads outside again and meets no separator there. -/
def IsPart (sep : Char) (l : List Char) : Prop :=
  ∀ r, cut sep .outside (l ++ r) = (cut sep .outside r).modifyHead (l ++ ·)

namespace IsPart

/-- Two parts in a row are a part. -/
lemma append (hl : IsPart sep l) (hm : IsPart sep m) : IsPart sep (l ++ m) := by
  intro r
  rw [List.append_assoc, hl, hm, List.modifyHead_modifyHead]
  simp only [Function.comp_def, List.append_assoc]

/-- A text is cut at the first separator behind a part. -/
lemma cut_append_cons (h : IsPart sep l) (r : List Char) :
    cut sep .outside (l ++ sep :: r) = l :: cut sep .outside r := by
  rw [h, cut, if_pos ⟨rfl, rfl⟩, List.modifyHead_cons, List.append_nil]

/-- A part is not cut. -/
lemma cut_eq (h : IsPart sep l) : cut sep .outside l = [l] := by
  have hnil := h []
  rw [List.append_nil, cut, List.modifyHead_cons, List.append_nil] at hnil
  exact hnil

end IsPart

/-- A text without separators and quotes is a part. -/
lemma isPart_of_forall (h : ∀ c ∈ l, c ≠ sep ∧ c ≠ '\'') : IsPart sep l := by
  induction l with
  | nil =>
    intro r
    exact (List.modifyHead_id).symm ▸ rfl
  | cons c l ih =>
    intro r
    obtain ⟨hsep, hquote⟩ := h c List.mem_cons_self
    have hnext : Place.next .outside c = .outside := if_neg hquote
    rw [List.cons_append, cut, if_neg fun hcut => hsep hcut.2, hnext,
      ih fun d hd => h d (List.mem_cons_of_mem _ hd), List.modifyHead_modifyHead]
    rfl

/-- The parts of a text that was put together from them. -/
lemma cut_intercalate {parts : List (List Char)} (hne : parts ≠ []) (h : ∀ part ∈ parts, IsPart sep part) :
    cut sep .outside ([sep].intercalate parts) = parts := by
  induction parts with
  | nil => exact absurd rfl hne
  | cons part parts ih =>
    have hpart := h part List.mem_cons_self
    cases parts with
    | nil => exact List.intercalate_singleton.symm ▸ hpart.cut_eq
    | cons next parts =>
      rw [List.intercalate_cons_cons, List.append_assoc, List.singleton_append, hpart.cut_append_cons,
        ih (List.cons_ne_nil _ _) fun q hq => h q (List.mem_cons_of_mem _ hq)]

/-- The lines of a text, and the empty one at its end. -/
lemma cut_join {lines : List String} (h : ∀ line ∈ lines, IsPart '\n' line.toList) :
    cut '\n' .outside (String.join (lines.map (· ++ "\n"))).toList = lines.map String.toList ++ [[]] := by
  induction lines with
  | nil => rfl
  | cons line lines ih =>
    rw [List.map_cons, String.join_cons, String.append_assoc, String.toList_append, String.toList_append]
    refine ((h line List.mem_cons_self).cut_append_cons _).trans ?_
    exact congrArg (line.toList :: ·) (ih fun l hl => h l (List.mem_cons_of_mem _ hl))

end Cut

section Escape

/-- A text with a backslash before every quote and every backslash. -/
def escape (l : List Char) : List Char := l.flatMap fun c => if c == '\\' || c == '\'' then ['\\', c] else [c]

/-- A quoted text, as characters. -/
lemma toList_quote (s : String) : (quote s).toList = '\'' :: escape s.toList ++ ['\''] := by
  simp only [quote, escape, String.toList_append, String.toList_ofList]
  rfl

/-- A text is escaped character by character. -/
lemma escape_cons (c : Char) (l : List Char) :
    escape (c :: l) = (if c == '\\' || c == '\'' then ['\\', c] else [c]) ++ escape l := List.flatMap_cons

/-- Inside quotes the next character is never a cut. -/
lemma cut_cons_of_ne (hp : p ≠ .outside) (c : Char) (r : List Char) :
    cut sep p (c :: r) = (cut sep (p.next c) r).modifyHead (c :: ·) := by
  rw [cut, if_neg fun h => hp h.1]

/-- No separator inside of quotes cuts, and no quote inside ends them. -/
lemma cut_escape (sep : Char) (l r : List Char) :
    cut sep .inside (escape l ++ r) = (cut sep .inside r).modifyHead (escape l ++ ·) := by
  induction l with
  | nil => exact (List.modifyHead_id).symm ▸ rfl
  | cons c l ih =>
    rw [escape_cons]
    split
    · -- Behind the backslash any character leads back inside.
      have hback : Place.next (Place.next .inside '\\') c = .inside := rfl
      rw [List.append_assoc, List.cons_append, List.singleton_append, cut_cons_of_ne (by decide),
        cut_cons_of_ne (by decide), hback, ih, List.modifyHead_modifyHead, List.modifyHead_modifyHead]
      rfl
    · next hplain =>
      simp only [Bool.or_eq_true, beq_iff_eq, not_or] at hplain
      have hinside : Place.next .inside c = .inside := by rw [Place.next, if_neg hplain.2, if_neg hplain.1]
      rw [List.append_assoc, List.singleton_append, cut_cons_of_ne (by decide), hinside, ih,
        List.modifyHead_modifyHead]
      rfl

/-- A quoted text is a part. -/
lemma isPart_quote (hsep : sep ≠ '\'') (s : String) : IsPart sep (quote s).toList := by
  intro r
  have hopen : cut sep .outside ('\'' :: (escape s.toList ++ '\'' :: r)) =
      (cut sep .inside (escape s.toList ++ '\'' :: r)).modifyHead ('\'' :: ·) := by
    rw [cut, if_neg fun h => hsep h.2.symm]
    rfl
  have hclose : cut sep .inside ('\'' :: r) = (cut sep .outside r).modifyHead ('\'' :: ·) :=
    cut_cons_of_ne (by decide) _ _
  rw [toList_quote, List.append_assoc, List.cons_append, List.singleton_append, hopen, cut_escape, hclose,
    List.modifyHead_modifyHead, List.modifyHead_modifyHead]
  simp only [Function.comp_def, List.cons_append, List.append_assoc, List.nil_append]

/-- A quoted text is made of its characters, quotes and backslashes. -/
lemma mem_toList_quote (h : c ∈ (quote s).toList) : c = '\'' ∨ c = '\\' ∨ c ∈ s.toList := by
  rw [toList_quote, List.mem_append, List.mem_cons, List.mem_singleton, escape, List.mem_flatMap] at h
  rcases h with (h | ⟨d, hd, h⟩) | h
  · exact .inl h
  · split at h
    · rcases List.mem_cons.1 h with h | h
      · exact .inr (.inl h)
      · exact .inr (.inr (List.mem_singleton.1 h ▸ hd))
    · exact .inr (.inr (List.mem_singleton.1 h ▸ hd))
  · exact .inl h

/-- A quoted text ends in a quote. -/
lemma getLast?_quote (s : String) : (quote s).toList.getLast? = some '\'' := by
  rw [toList_quote, List.getLast?_concat]

/-- An escaped text is read back. -/
lemma unescape_escape (l : List Char) : unescape (escape l) = l := by
  induction l with
  | nil => rfl
  | cons c l ih =>
    rw [escape_cons]
    split
    · exact congrArg (c :: ·) ih
    · next hplain =>
      simp only [Bool.or_eq_true, beq_iff_eq, not_or] at hplain
      rw [List.singleton_append, unescape, ih]
      exact fun _ _ h _ => hplain.1 h

/-- A quoted text is read back. -/
lemma unquote_quote (s : String) : unquote (quote s).toList = s.toList := by
  rw [toList_quote, List.cons_append, unquote, List.dropLast_concat, unescape_escape]

/-- A text without quotes is read as it is. -/
lemma unquote_of_not_mem (h : '\'' ∉ l) : unquote l = l := by
  cases l with
  | nil => rfl
  | cons c l =>
    rw [unquote]
    rintro r heq
    cases heq
    exact h List.mem_cons_self

/-- Taking out escapes adds no character. -/
lemma mem_of_mem_unescape (h : c ∈ unescape l) : c ∈ l := by
  fun_induction unescape l with
  | case1 d r ih =>
    rcases List.mem_cons.1 h with rfl | h
    · exact List.mem_cons_of_mem _ List.mem_cons_self
    · exact List.mem_cons_of_mem _ (List.mem_cons_of_mem _ (ih h))
  | case2 d r _ ih =>
    rcases List.mem_cons.1 h with rfl | h
    · exact List.mem_cons_self
    · exact List.mem_cons_of_mem _ (ih h)
  | case3 => cases h

/-- Taking off quotes adds no character. -/
lemma mem_of_mem_unquote (h : c ∈ unquote l) : c ∈ l := by
  unfold unquote at h
  split at h
  · exact List.mem_cons_of_mem _ (List.dropLast_subset _ (mem_of_mem_unescape h))
  · exact h

end Escape

/-- The parts of a line, each as it was before it was put in quotes. -/
lemma parts_intercalate {cells values : List String} (hne : cells ≠ [])
    (hparts : ∀ cell ∈ cells, IsPart sep cell.toList)
    (hvalues : cells.map (unquote ·.toList) = values.map String.toList) :
    parts sep ((String.singleton sep).intercalate cells) = values := by
  have hcut : cut sep .outside ((String.singleton sep).intercalate cells).toList = cells.map String.toList := by
    rw [String.toList_intercalate, String.toList_singleton]
    exact cut_intercalate (by simpa using hne) (List.forall_mem_map.2 hparts)
  rw [parts, hcut, List.map_map]
  have hread := congrArg (List.map String.ofList) hvalues
  rw [List.map_map, List.map_map] at hread
  refine hread.trans ((List.map_congr_left fun v _ => String.ofList_toList).trans (List.map_id values))

/-- Reading a line brings in no characters. -/
lemma mem_of_mem_parts (h : s ∈ parts sep line) (hc : c ∈ s.toList) : c ∈ line.toList := by
  obtain ⟨part, hpart, rfl⟩ := List.mem_map.1 h
  rw [String.toList_ofList] at hc
  exact mem_of_mem_cut hpart (mem_of_mem_unquote hc)

end Mend.Arff
