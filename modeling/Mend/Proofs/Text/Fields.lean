import Mathlib.Tactic.Lemma
import Mend.Text.Basic

/-!
# Reading what was joined

Parts without the separator are found again between the separators (`splitAt_intercalate`), and texts
without line breaks again as lines (`lines_join`). Which lines a text has is a relation of its own
(`IsLines`), and the splitting finds these lines (`isLines_iff`).
-/

namespace Mend.Text

variable {α : Type} {p : α → Bool} {l : List α}

/-- What stands before the first `z` and what stands behind it. -/
lemma append_cons_inj {z : α} {l' r r' : List α} (h : z ∉ l) (h' : z ∉ l')
    (heq : l ++ z :: r = l' ++ z :: r') : l = l' ∧ r = r' := by
  induction l generalizing l' with
  | nil =>
    cases l' with
    | nil => exact ⟨rfl, (List.cons.inj heq).2⟩
    | cons y l' => exact absurd ((List.cons.inj heq).1 ▸ List.mem_cons_self) h'
  | cons x l ih =>
    cases l' with
    | nil => exact absurd ((List.cons.inj heq).1 ▸ List.mem_cons_self) h
    | cons y l' =>
      obtain ⟨rfl, htail⟩ := List.cons.inj heq
      obtain ⟨rfl, rfl⟩ := ih (fun hm => h (List.mem_cons_of_mem _ hm))
        (fun hm => h' (List.mem_cons_of_mem _ hm)) htail
      exact ⟨rfl, rfl⟩

/-- Splitting leaves at least one part. -/
lemma splitList_ne_nil (p : α → Bool) (l : List α) : splitList p l ≠ [] := by
  cases l with
  | nil => exact List.cons_ne_nil _ _
  | cons c r =>
    rw [splitList]
    split
    · exact List.cons_ne_nil _ _
    · split <;> exact List.cons_ne_nil _ _

/-- Splitting nothing leaves one empty part. -/
lemma splitList_nil : splitList p ([] : List α) = [[]] := rfl

/-- A separator in front leaves an empty part in front. -/
lemma splitList_cons_of_sep {c : α} (h : p c = true) (l : List α) :
    splitList p (c :: l) = [] :: splitList p l := by
  rw [splitList, if_pos h]

/-- Any other element goes to the first part. -/
lemma exists_splitList_cons {c : α} (h : p c = false) (l : List α) : ∃ part parts,
    splitList p l = part :: parts ∧ splitList p (c :: l) = (c :: part) :: parts := by
  obtain ⟨part, parts, hparts⟩ := List.exists_cons_of_ne_nil (splitList_ne_nil p l)
  exact ⟨part, parts, hparts, by rw [splitList, h, hparts]; rfl⟩

/-- The parts of one list are the first parts of another if the other is the one or goes on from it with a
separator. -/
lemma splitList_prefix_splitList {sep : α} (hp : ∀ c, p c = true ↔ c = sep) {l m : List α} :
    splitList p l <+: splitList p m ↔ m = l ∨ l ++ [sep] <+: m := by
  induction l generalizing m with
  | nil =>
    cases m with
    | nil => simp
    | cons d m =>
      cases hd : p d with
      | true =>
        rw [splitList_cons_of_sep hd, (hp d).1 hd]
        simp [splitList_nil]
      | false =>
        obtain ⟨first, rest, -, hcons⟩ := exists_splitList_cons hd m
        have hne : sep ≠ d := fun heq => absurd ((hp d).2 heq.symm) (Bool.eq_false_iff.1 hd)
        simp [splitList_nil, hcons, hne]
  | cons c l ih =>
    cases m with
    | nil =>
      cases hc : p c with
      | true => simp [splitList_cons_of_sep hc, splitList_nil, splitList_ne_nil]
      | false =>
        obtain ⟨first, rest, -, hcons⟩ := exists_splitList_cons hc l
        simp [hcons, splitList_nil]
    | cons d m =>
      have hne : p c ≠ p d → c ≠ d := fun h heq => h (heq ▸ rfl)
      cases hc : p c <;> cases hd : p d
      · obtain ⟨first, rest, hl, hcons⟩ := exists_splitList_cons hc l
        obtain ⟨first', rest', hm, hcons'⟩ := exists_splitList_cons hd m
        rw [hcons, hcons', List.cons_prefix_cons, List.cons.injEq, List.cons_append, List.cons_prefix_cons,
          List.cons.injEq]
        -- The first characters agree, and what is behind them by the hypothesis.
        have ih := @ih m
        rw [hl, hm, List.cons_prefix_cons] at ih
        rw [and_assoc, ih, eq_comm (a := d), ← and_or_left]
      · obtain ⟨first, rest, -, hcons⟩ := exists_splitList_cons hc l
        have hne := hne (by simp [hc, hd])
        simp [splitList_cons_of_sep hd, hcons, hne, hne.symm]
      · obtain ⟨first, rest, -, hcons⟩ := exists_splitList_cons hd m
        have hne := hne (by simp [hc, hd])
        simp [splitList_cons_of_sep hc, hcons, hne, hne.symm]
      · rw [splitList_cons_of_sep hc, splitList_cons_of_sep hd, (hp c).1 hc, (hp d).1 hd]
        simp [ih]

/-- A list without separators is one part. -/
lemma splitList_of_forall (h : ∀ c ∈ l, p c = false) : splitList p l = [l] := by
  induction l with
  | nil => rfl
  | cons c r ih =>
    rw [splitList, h c List.mem_cons_self, ih fun d hd => h d (List.mem_cons_of_mem _ hd)]
    rfl

/-- What stands before a separator and what stands behind it have parts of their own. -/
lemma splitList_append {s : α} (hs : p s = true) (l r : List α) :
    splitList p (l ++ s :: r) = splitList p l ++ splitList p r := by
  induction l with
  | nil => simp [splitList, hs]
  | cons c l ih =>
    rw [List.cons_append, splitList, splitList, ih]
    split
    · rfl
    · obtain ⟨part, parts, hparts⟩ := List.exists_cons_of_ne_nil (splitList_ne_nil p l)
      rw [hparts]
      rfl

/-- A text is split on both sides of a separator. -/
lemma splitAt_append (sep : Char) (s t : String) :
    splitAt sep (s ++ String.singleton sep ++ t) = splitAt sep s ++ splitAt sep t := by
  have hsplit := splitList_append (p := (· == sep)) (beq_self_eq_true sep) s.toList t.toList
  rw [splitAt, String.toList_append, String.toList_append, String.toList_singleton, List.append_assoc,
    List.singleton_append, hsplit, List.map_append]
  rfl

/-- The first part ends at the first separator. -/
lemma splitList_append_cons (h : ∀ c ∈ l, p c = false) {s : α} (hs : p s = true) (r : List α) :
    splitList p (l ++ s :: r) = l :: splitList p r := by
  rw [splitList_append hs, splitList_of_forall h]
  rfl

/-- Parts without the separator are found again. -/
lemma splitAt_intercalate {sep : Char} {parts : List String} (hne : parts ≠ [])
    (h : ∀ part ∈ parts, sep ∉ part.toList) :
    splitAt sep ((String.singleton sep).intercalate parts) = parts := by
  have hnot : ∀ part ∈ parts, ∀ c ∈ part.toList, (c == sep) = false := fun part hp c hc =>
    beq_eq_false_iff_ne.2 fun heq => h part hp (heq ▸ hc)
  unfold splitAt
  induction parts with
  | nil => exact absurd rfl hne
  | cons part parts ih =>
    have hpart := hnot part List.mem_cons_self
    cases parts with
    | nil =>
      rw [String.intercalate_singleton, splitList_of_forall hpart, List.map_singleton,
        String.ofList_toList]
    | cons next parts =>
      rw [String.intercalate_cons_cons, String.append_assoc, String.toList_append,
        String.toList_append, String.toList_singleton, List.singleton_append,
        splitList_append_cons hpart (beq_self_eq_true sep), List.map_cons, String.ofList_toList]
      rw [ih (List.cons_ne_nil _ _) (fun q hq => h q (List.mem_cons_of_mem _ hq))
        fun q hq => hnot q (List.mem_cons_of_mem _ hq)]

/-- Nothing is cut off where the last character stays. -/
lemma trimEnd_eq_self {p : Char → Bool} {s : String} (h : ∀ c ∈ s.toList, p c = false) :
    trimEnd p s = s := by
  have hdrop : s.toList.reverse.dropWhile p = s.toList.reverse := by
    cases hl : s.toList.reverse with
    | nil => rfl
    | cons c r =>
      have hc : c ∈ s.toList := List.mem_reverse.1 (hl ▸ List.mem_cons_self)
      rw [List.dropWhile_cons, h c hc]
      rfl
  rw [trimEnd, dropEndWhile, hdrop, List.reverse_reverse, String.ofList_toList]

/-- Lines are found among their parts if none ends in a carriage return. -/
lemma linesOfParts_concat {parts : List (List Char)} (h : ∀ part ∈ parts, part.getLast? ≠ some '\r') :
    linesOfParts (parts ++ [[]]) = parts := by
  induction parts with
  | nil => rfl
  | cons part parts ih =>
    obtain ⟨next, rest, hrest⟩ := List.exists_cons_of_ne_nil (l := parts ++ [[]]) (by simp)
    have ih := ih fun q hq => h q (List.mem_cons_of_mem _ hq)
    -- What comes next, if only the empty part at the end, makes the part a line.
    rw [List.cons_append, hrest] at *
    rw [linesOfParts, ih, withoutReturn, if_neg (h part List.mem_cons_self)]
    exact List.cons_ne_nil _ _

/-- Rows joined with line ends are split into the rows again. -/
lemma splitList_join {rows : List String} (h : ∀ row ∈ rows, '\n' ∉ row.toList) :
    splitList (· == '\n') (String.join (rows.map (· ++ "\n"))).toList = rows.map String.toList ++ [[]] := by
  induction rows with
  | nil => rfl
  | cons row rows ih =>
    have hnot : ∀ c ∈ row.toList, (c == '\n') = false := fun c hc =>
      beq_eq_false_iff_ne.2 fun heq => h row List.mem_cons_self (heq ▸ hc)
    rw [List.map_cons, String.join_cons, String.append_assoc, String.toList_append, String.toList_append]
    refine (splitList_append_cons hnot (beq_self_eq_true '\n') _).trans ?_
    exact congrArg (row.toList :: ·) (ih fun r hr => h r (List.mem_cons_of_mem _ hr))

/-- Texts without line feeds are read again as the lines of a file, if none ends in a carriage return. -/
lemma lines_join_of_getLast? {rows : List String}
    (h : ∀ row ∈ rows, '\n' ∉ row.toList ∧ row.toList.getLast? ≠ some '\r') :
    lines (String.join (rows.map (· ++ "\n"))) = rows := by
  have hreturn : ∀ part ∈ rows.map String.toList, part.getLast? ≠ some '\r' :=
    List.forall_mem_map.2 fun row hrow => (h row hrow).2
  rw [lines, splitList_join fun row hrow => (h row hrow).1, linesOfParts_concat hreturn, List.map_map]
  exact (List.map_congr_left fun row _ => String.ofList_toList).trans (List.map_id rows)

/-- No part holds a separator. -/
lemma not_of_mem_splitList {part : List α} (h : part ∈ splitList p l) {c : α} (hc : c ∈ part) : p c = false := by
  induction l generalizing part with
  | nil => exact absurd (List.mem_singleton.1 h ▸ hc) List.not_mem_nil
  | cons d r ih =>
    rw [splitList] at h
    split at h
    · rcases List.mem_cons.1 h with rfl | h
      · cases hc
      · exact ih h hc
    · next hd =>
      obtain ⟨first, rest, hsplit⟩ := List.exists_cons_of_ne_nil (splitList_ne_nil p r)
      have ih : ∀ part ∈ first :: rest, c ∈ part → p c = false := fun part hpart => ih (hsplit ▸ hpart)
      rw [hsplit] at h
      rcases List.mem_cons.1 h with rfl | h
      · rcases List.mem_cons.1 hc with rfl | hc
        · exact Bool.eq_false_iff.2 hd
        · exact ih first List.mem_cons_self hc
      · exact ih part (List.mem_cons_of_mem _ h) hc

/-- A line is made of the characters of one part. -/
lemma subset_of_mem_linesOfParts {parts : List (List Char)} {line : List Char} (h : line ∈ linesOfParts parts) :
    ∃ part ∈ parts, line ⊆ part := by
  fun_induction linesOfParts parts with
  | case1 => cases h
  | case2 => cases h
  | case3 last _ => exact ⟨last, List.mem_cons_self, List.mem_singleton.1 h ▸ List.Subset.refl _⟩
  | case4 part parts _ ih =>
    rcases List.mem_cons.1 h with rfl | h
    · refine ⟨part, List.mem_cons_self, ?_⟩
      rw [withoutReturn]
      split
      · exact List.dropLast_subset part
      · exact List.Subset.refl _
    · obtain ⟨part', hmem, hsubset⟩ := ih h
      exact ⟨part', List.mem_cons_of_mem _ hmem, hsubset⟩

/-- No line holds a line feed. -/
lemma not_mem_of_mem_lines {s line : String} (h : line ∈ lines s) : '\n' ∉ line.toList := by
  obtain ⟨chars, hchars, rfl⟩ := List.mem_map.1 h
  obtain ⟨part, hpart, hsubset⟩ := subset_of_mem_linesOfParts hchars
  rw [String.toList_ofList]
  intro hfeed
  have hnot := not_of_mem_splitList hpart (hsubset hfeed)
  exact absurd hnot (by decide)

/-- A text and its lines, in order. A line ends before a line feed, or before a carriage return and a line
feed, or at the end of the text, where no empty line stands. -/
inductive IsLines : List Char → List (List Char) → Prop where
  | nil : IsLines [] []
  | last {line} (hne : line ≠ []) (hline : '\n' ∉ line) : IsLines line [line]
  | feed {line rest lines} (hline : '\n' ∉ line) (hreturn : line.getLast? ≠ some '\r') :
      IsLines rest lines → IsLines (line ++ '\n' :: rest) (line :: lines)
  | returnFeed {line rest lines} (hline : '\n' ∉ line) :
      IsLines rest lines → IsLines (line ++ '\r' :: '\n' :: rest) (line :: lines)

/-- Behind the first line feed the lines begin anew. -/
lemma linesOfParts_splitList_append {line : List Char} (hline : '\n' ∉ line) (rest : List Char) :
    linesOfParts (splitList (· == '\n') (line ++ '\n' :: rest)) =
      withoutReturn line :: linesOfParts (splitList (· == '\n') rest) := by
  have hnot : ∀ c ∈ line, (c == '\n') = false := fun c hc =>
    beq_eq_false_iff_ne.2 fun heq => hline (heq ▸ hc)
  obtain ⟨part, parts, hparts⟩ := List.exists_cons_of_ne_nil (splitList_ne_nil (· == '\n') rest)
  rw [splitList_append_cons hnot (beq_self_eq_true '\n'), hparts]
  rfl

/-- A carriage return at the end is taken off. -/
lemma withoutReturn_concat (line : List Char) : withoutReturn (line ++ ['\r']) = line := by
  rw [withoutReturn, if_pos List.getLast?_concat, List.dropLast_concat]

/-- The splitting finds every list of lines that a text has. -/
lemma IsLines.eq {text : List Char} {lines : List (List Char)} (h : IsLines text lines) :
    linesOfParts (splitList (· == '\n') text) = lines := by
  induction h with
  | nil => rfl
  | @last line hne hline =>
    have hnot : ∀ c ∈ line, (c == '\n') = false := fun c hc =>
      beq_eq_false_iff_ne.2 fun heq => hline (heq ▸ hc)
    rw [splitList_of_forall hnot, linesOfParts, if_neg (by simpa using hne)]
  | feed hline hreturn _ ih =>
    rw [linesOfParts_splitList_append hline, withoutReturn, if_neg hreturn, ih]
  | @returnFeed line rest lines hline _ ih =>
    have hconcat : '\n' ∉ line ++ ['\r'] := by simpa using hline
    rw [List.append_cons, linesOfParts_splitList_append hconcat, withoutReturn_concat, ih]

/-- What the splitting finds are lines of the text. -/
lemma isLines_splitList (text : List Char) : IsLines text (linesOfParts (splitList (· == '\n') text)) := by
  induction hn : text.length using Nat.strongRecOn generalizing text with
  | _ n ih =>
    by_cases hfeed : '\n' ∈ text
    · -- The text goes on behind its first line feed.
      obtain ⟨line, rest, rfl, hline⟩ := List.eq_append_cons_of_mem hfeed
      have hrest := ih rest.length (by rw [← hn]; simp; omega) rest rfl
      rw [linesOfParts_splitList_append hline, withoutReturn]
      split
      · next hreturn =>
        obtain ⟨line, rfl⟩ := List.getLast?_eq_some_iff.1 hreturn
        rw [List.dropLast_concat, ← List.append_cons]
        exact .returnFeed (fun h => hline (List.mem_append_left _ h)) hrest
      · next hreturn => exact .feed hline hreturn hrest
    · have hnot : ∀ c ∈ text, (c == '\n') = false := fun c hc =>
        beq_eq_false_iff_ne.2 fun heq => hfeed (heq ▸ hc)
      rw [splitList_of_forall hnot, linesOfParts]
      cases text with
      | nil => exact .nil
      | cons c text => exact .last (List.cons_ne_nil c text) hfeed

/-- A text has one list of lines, and the splitting finds it. -/
lemma isLines_iff {s : String} {found : List (List Char)} :
    IsLines s.toList found ↔ found.map String.ofList = lines s := by
  rw [lines]
  refine ⟨fun h => by rw [h.eq], fun h => ?_⟩
  rw [(List.map_inj_right fun _ _ => String.ofList_injective).1 h]
  exact isLines_splitList s.toList

/-- A text that holds no line break. -/
def IsLine (s : String) : Prop := '\n' ∉ s.toList ∧ '\r' ∉ s.toList

/-- Texts without line breaks are read again as the lines of a file. -/
lemma lines_join {rows : List String} (h : ∀ row ∈ rows, IsLine row) :
    lines (String.join (rows.map (· ++ "\n"))) = rows :=
  lines_join_of_getLast? fun row hrow =>
    ⟨(h row hrow).1, fun hlast => (h row hrow).2 (List.mem_of_getLast? hlast)⟩

end Mend.Text
