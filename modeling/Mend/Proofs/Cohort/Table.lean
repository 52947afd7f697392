import Mathlib.Algebra.GroupWithZero.Nat
import Mathlib.Data.List.Infix
import Mend.Cohort.Table
import Mend.Proofs.Ranking
import Mend.Proofs.Text.Natural

/-!
# Rows of the LaTeX table

In LaTeX a backslash takes the next character with it (`Latex.signs`). A text with a backslash before every
special character is read without a separator and without a row end just if none of its own backslashes stands
before a backslash or before a special character (`Latex.IsSafe`), for these are left as they are. So the table
has one row for each cohort, in order, and a row is read as such just if the keyword of the cohort is safe
(`Cohort.latexTable_rows`).
-/

namespace Mend

namespace Latex

/-- What LaTeX reads. -/
inductive Sign where
  | char (c : Char)
  /-- A backslash, with the character that it takes with it. -/
  | command (c : Char)
  deriving DecidableEq, Repr

namespace Sign

/-- The end of a column. -/
def separator : Sign := char '&'

/-- The end of a row. -/
def rowEnd : Sign := command '\\'

/-- A sign that ends something. -/
def IsEnd (x : Sign) : Prop := x = separator ∨ x = rowEnd

end Sign

/-- The signs of a text, which may go on behind a backslash. -/
def signs : (isTaken : Bool) → List Char → List Sign
  | _, [] => []
  | true, c :: r => .command c :: signs false r
  | false, c :: r => if c = '\\' then signs true r else .char c :: signs false r

/-- Whether a text ends in a backslash that takes what comes next. -/
def takesNext : (isTaken : Bool) → List Char → Bool
  | taken, [] => taken
  | true, _ :: r => takesNext false r
  | false, c :: r => takesNext (c == '\\') r

/-- A character that must not follow a backslash of the text itself. -/
def IsDelicate (c : Char) : Prop := c = '\\' ∨ Cohort.isLatexSpecial c = true

/-- No backslash stands before another one or before a special character. -/
def IsSafe (l : List Char) : Prop := ∀ c, IsDelicate c → ¬ ['\\', c] <:+: l

variable {c d : Char} {l r : List Char} {taken : Bool} {x : Sign}

/-- A text is read as its first part and then its second, as the first leaves it. -/
lemma signs_append (taken : Bool) (l r : List Char) :
    signs taken (l ++ r) = signs taken l ++ signs (takesNext taken l) r := by
  induction l generalizing taken with
  | nil => cases taken <;> rfl
  | cons c l ih =>
    cases taken with
    | true => exact congrArg (Sign.command c :: ·) (ih false)
    | false =>
      rw [List.cons_append, signs, signs, takesNext]
      split
      · next h => rw [ih, h, beq_self_eq_true]
      · next h => rw [ih, beq_eq_false_iff_ne.2 h, List.cons_append]

/-- What two parts leave taken is what the second leaves after the first. -/
lemma takesNext_append (taken : Bool) (l r : List Char) :
    takesNext taken (l ++ r) = takesNext (takesNext taken l) r := by
  induction l generalizing taken with
  | nil => cases taken <;> rfl
  | cons c l ih => cases taken <;> exact ih _

/-- A text with a backslash before every special character. -/
def escape (l : List Char) : List Char := l.flatMap fun c => if Cohort.isLatexSpecial c then ['\\', c] else [c]

/-- A text is escaped character by character. -/
lemma escape_cons (c : Char) (l : List Char) :
    escape (c :: l) = (if Cohort.isLatexSpecial c then ['\\', c] else [c]) ++ escape l := List.flatMap_cons

/-- A safe text that stands where a backslash may take its first character. -/
def IsSafeFrom (taken : Bool) (l : List Char) : Prop := IsSafe l ∧ (taken = true → ∀ c ∈ l.head?, ¬ IsDelicate c)

/-- A text is safe iff its rest is, after its first character. -/
lemma isSafe_cons : IsSafe (c :: l) ↔ IsSafeFrom (c == '\\') l := by
  constructor
  · refine fun h => ⟨fun d hd hpart => h d hd (hpart.trans (List.suffix_cons c l).isInfix), ?_⟩
    rintro hc d hhead hd
    obtain rfl := beq_iff_eq.1 hc
    obtain ⟨r, rfl⟩ := List.head?_eq_some_iff.1 hhead
    exact h d hd (List.prefix_append ['\\', d] r).isInfix
  · rintro ⟨hl, hc⟩ d hd hpart
    rcases List.infix_cons_iff.1 hpart with hprefix | hpart
    · obtain ⟨rfl, r, rfl⟩ := List.cons_prefix_cons.1 hprefix
      exact hc rfl d rfl hd
    · exact hl d hd hpart

/-- Behind a backslash, the next character must not be delicate. -/
lemma isSafeFrom_true_cons : IsSafeFrom true (c :: l) ↔ ¬ IsDelicate c ∧ IsSafe l := by
  rw [IsSafeFrom, isSafe_cons]
  refine ⟨fun h => ⟨h.2 rfl c rfl, h.1.1⟩, fun h => ⟨⟨h.2, fun hc => ?_⟩, fun _ d hd => ?_⟩⟩
  · exact absurd (.inl (beq_iff_eq.1 hc)) h.1
  · exact Option.some.inj hd ▸ h.1

/-- Without a backslash before it, a text is safe from its start. -/
lemma isSafeFrom_false : IsSafeFrom false l ↔ IsSafe l := ⟨And.left, fun h => ⟨h, nofun⟩⟩

/-- The backslash is none of the characters escaped. -/
lemma ne_backslash_of_special (h : Cohort.isLatexSpecial c = true) : c ≠ '\\' := by
  rintro rfl
  cases h

/-- A character other than the backslash leaves safety to the rest. -/
lemma isSafe_cons_of_ne (hc : c ≠ '\\') : IsSafe (c :: l) ↔ IsSafe l := by
  rw [isSafe_cons, beq_eq_false_iff_ne.2 hc, isSafeFrom_false]

/-- A command other than `\\` ends nothing. -/
lemma command_not_isEnd (hc : c ≠ '\\') : ¬ (Sign.command c).IsEnd := by
  rintro (h | h)
  · cases h
  · exact hc (Sign.command.inj h)

/-- A character that is not special ends nothing. -/
lemma char_not_isEnd (hc : ¬ Cohort.isLatexSpecial c = true) : ¬ (Sign.char c).IsEnd := by
  rintro (h | h)
  · exact hc (Sign.char.inj h ▸ rfl)
  · cases h

/-- Safe text is read without an end. -/
lemma not_isEnd_of_mem_signs (h : IsSafeFrom taken l) (hx : x ∈ signs taken (escape l)) : ¬ x.IsEnd := by
  induction l generalizing taken with
  | nil => exact absurd hx List.not_mem_nil
  | cons c l ih =>
    rw [escape_cons] at hx
    cases taken with
    | true =>
      obtain ⟨hdelicate, hl⟩ := isSafeFrom_true_cons.1 h
      rw [IsDelicate, not_or] at hdelicate
      rw [if_neg hdelicate.2] at hx
      rcases List.mem_cons.1 hx with rfl | hx
      · exact command_not_isEnd hdelicate.1
      · exact ih (isSafeFrom_false.2 hl) hx
    | false =>
      rw [isSafeFrom_false] at h
      split at hx
      · next hspecial =>
        have hc := ne_backslash_of_special hspecial
        rcases List.mem_cons.1 hx with rfl | hx
        · exact command_not_isEnd hc
        · exact ih (isSafeFrom_false.2 ((isSafe_cons_of_ne hc).1 h)) hx
      · next hspecial =>
        rw [List.singleton_append, signs] at hx
        split at hx
        · next hc =>
          obtain rfl := hc
          exact ih (isSafe_cons.1 h) hx
        · next hc =>
          rcases List.mem_cons.1 hx with rfl | hx
          · exact char_not_isEnd hspecial
          · exact ih (isSafeFrom_false.2 ((isSafe_cons_of_ne hc).1 h)) hx

/-- Where a backslash stands that must not, a row ends. -/
lemma rowEnd_mem_signs (h : ¬ IsSafeFrom taken l) : Sign.rowEnd ∈ signs taken (escape l) := by
  induction l generalizing taken with
  | nil => exact absurd ⟨fun c _ hpart => by simpa using hpart.length_le, fun _ => nofun⟩ h
  | cons c l ih =>
    rw [escape_cons]
    cases taken with
    | true =>
      rw [isSafeFrom_true_cons, not_and_or, not_not] at h
      -- A special character has a backslash of its own, which is taken in its place.
      split
      · exact List.mem_cons_self
      · next hspecial =>
        rcases h with (rfl | hc) | hl
        · exact List.mem_cons_self
        · exact absurd hc hspecial
        · exact List.mem_cons_of_mem _ (ih fun hsafe => hl (isSafeFrom_false.1 hsafe))
    | false =>
      rw [isSafeFrom_false] at h
      split
      · next hspecial =>
        rw [isSafe_cons_of_ne (ne_backslash_of_special hspecial), ← isSafeFrom_false] at h
        exact List.mem_cons_of_mem _ (ih h)
      · rw [List.singleton_append, signs]
        split
        · next hc =>
          obtain rfl := hc
          exact ih fun hsafe => h (isSafe_cons.2 hsafe)
        · next hc =>
          rw [isSafe_cons_of_ne hc, ← isSafeFrom_false] at h
          exact List.mem_cons_of_mem _ (ih h)

/-- How often a sign is read in a column. -/
def tally (x : Sign) (l : List Char) : Nat := (signs false (escape l)).count x

/-- A safe text adds no end. -/
lemma tally_of_isSafe (h : IsSafe l) (hx : x.IsEnd) : tally x l = 0 :=
  List.count_eq_zero.2 fun hmem => not_isEnd_of_mem_signs (isSafeFrom_false.2 h) hmem hx

/-- A text adds no row end iff it is safe. -/
lemma tally_rowEnd_eq_zero_iff : tally .rowEnd l = 0 ↔ IsSafe l := by
  refine ⟨fun h => ?_, fun h => tally_of_isSafe h (.inr rfl)⟩
  by_contra hl
  exact List.count_eq_zero.1 h (rowEnd_mem_signs (mt isSafeFrom_false.1 hl))

/-- What stands between columns. -/
def between : List Char := " & ".toList

/-- The separator between two cells leaves nothing taken. -/
lemma takesNext_between (taken : Bool) : takesNext taken between = false := by cases taken <;> decide

/-- The separator between two cells is one separator and no other end. -/
lemma count_between (hx : x.IsEnd) (taken : Bool) :
    (signs taken between).count x = if x = .separator then 1 else 0 := by
  rcases hx with rfl | rfl <;> cases taken <;> decide

/-- The ends in columns with separators between them. -/
lemma count_columns (hx : x.IsEnd) (t : List Char) (ts : List (List Char)) :
    (signs false (between.intercalate ((t :: ts).map escape))).count x =
      ((t :: ts).map (tally x)).sum + ts.length * (if x = .separator then 1 else 0) := by
  induction ts generalizing t with
  | nil => simp [tally]
  | cons next ts ih =>
    have hsum : ((t :: next :: ts).map (tally x)).sum = tally x t + ((next :: ts).map (tally x)).sum :=
      List.sum_cons
    rw [List.map_cons, List.map_cons, List.intercalate_cons_cons, signs_append, takesNext_append, takesNext_between,
      signs_append, List.count_append, List.count_append, count_between hx, ← List.map_cons, ih next, hsum,
      List.length_cons, Nat.succ_mul]
    change tally x t + _ + _ = _
    omega

end Latex

namespace Cohort

open Latex

/-- The texts in the columns of a cohort. -/
def texts (k : Cohort) : List (List Char) :=
  [k.use.kind.text.toList, k.use.context.text.toList, k.use.change.text.toList, k.use.keyword.toList,
    (toString k.clusters.length).toList, (toString k.total).toList]

/-- A row with six columns, that ends where it should and nowhere else. -/
structure IsRow (row : String) : Prop where
  separators : (signs false row.toList).count .separator = 5
  rowEnds : (signs false row.toList).count .rowEnd = 1
  last : [.rowEnd, .char '\n'] <:+ signs false row.toList

/-- The text escaped, as characters. -/
lemma toList_escapeLatex (s : String) : (escapeLatex s).toList = escape s.toList := String.toList_ofList

/-- A text without special characters is left alone. -/
lemma escape_of_forall {l : List Char} (h : ∀ c ∈ l, isLatexSpecial c = false) : escape l = l := by
  induction l with
  | nil => rfl
  | cons c l ih =>
    rw [escape_cons, h c List.mem_cons_self, ih fun d hd => h d (List.mem_cons_of_mem _ hd)]
    rfl

/-- No digit is escaped. -/
lemma not_isLatexSpecial_of_isDigit {c : Char} (h : c.isDigit = true) : isLatexSpecial c = false := by
  have hall : ['_', '&', '%', '$', '#', '\x7b', '\x7d'].all (!Char.isDigit ·) = true := rfl
  refine Bool.eq_false_iff.2 fun hspecial => ?_
  have hnot := List.all_eq_true.1 hall c (List.contains_iff_mem.1 hspecial)
  rw [h] at hnot
  cases hnot

/-- Every column is a text with its special characters escaped; a numeral has none. -/
lemma map_toList_columns (k : Cohort) : k.columns.map String.toList = k.texts.map escape := by
  have hnumeral : ∀ n : Nat, escape (toString n).toList = (toString n).toList := fun n =>
    escape_of_forall fun c hc => not_isLatexSpecial_of_isDigit (Text.isDigit_of_mem_repr hc)
  simp only [columns, texts, List.map_cons, List.map_nil, toList_escapeLatex, hnumeral]

/-- A row is its escaped cells with separators between, and its end. -/
lemma toList_row (k : Cohort) : k.row.toList = between.intercalate (k.texts.map escape) ++ rowEnd.toList := by
  rw [row, String.toList_append, String.toList_intercalate, map_toList_columns]
  rfl

/-- What is read at the end of a row, whatever stands before it. -/
lemma signs_rowEnd (taken : Bool) : (signs taken rowEnd.toList).count .separator = 0 ∧
    (signs taken rowEnd.toList).count .rowEnd = 1 ∧ [.rowEnd, .char '\n'] <:+ signs taken rowEnd.toList ∧
    takesNext taken rowEnd.toList = false := by
  cases taken <;> decide

/-- The ends in a row: those its cells add, five separators and one row end. -/
lemma count_row (k : Cohort) {x : Sign} (hx : x.IsEnd) : (signs false k.row.toList).count x =
    (k.texts.map (tally x)).sum + if x = .separator then 5 else 1 := by
  obtain ⟨hseparator, hend, -⟩ := signs_rowEnd (takesNext false (between.intercalate (k.texts.map escape)))
  have hcolumns := count_columns hx k.use.kind.text.toList k.texts.tail
  have htexts : k.use.kind.text.toList :: k.texts.tail = k.texts := rfl
  have hlength : k.texts.tail.length = 5 := rfl
  rw [htexts, hlength] at hcolumns
  rw [toList_row, signs_append, List.count_append, hcolumns]
  rcases hx with rfl | rfl
  · rw [hseparator, if_pos rfl, if_pos rfl]
  · rw [hend, if_neg (by decide), if_neg (by decide)]

/-- A text without a backslash is safe. -/
lemma isSafe_of_not_mem {l : List Char} (h : '\\' ∉ l) : IsSafe l :=
  fun _ _ hpart => h (hpart.subset List.mem_cons_self)

/-- Only keywords hold backslashes. -/
lemma forall_isSafe_texts_iff (k : Cohort) : (∀ t ∈ k.texts, IsSafe t) ↔ IsSafe k.use.keyword.toList := by
  have hplain : ∀ {s : String}, s.toList.all (· != '\\') = true → IsSafe s.toList := fun h =>
    isSafe_of_not_mem fun hmem => absurd (List.all_eq_true.1 h _ hmem) (by decide)
  have hnumeral : ∀ n : Nat, IsSafe (toString n).toList := fun n =>
    isSafe_of_not_mem fun hmem => absurd (Text.isDigit_of_mem_repr hmem) (by decide)
  have hkind : IsSafe k.use.kind.text.toList := hplain (by cases k.use.kind <;> rfl)
  have hcontext : IsSafe k.use.context.text.toList := hplain (by cases k.use.context <;> rfl)
  have hchange : IsSafe k.use.change.text.toList := hplain (by cases k.use.change <;> rfl)
  simp only [texts, List.forall_mem_cons]
  exact ⟨fun h => h.2.2.2.1, fun h => ⟨hkind, hcontext, hchange, h, hnumeral _, hnumeral _, nofun⟩⟩

/-- A row is read as one just if the keyword in it is safe. -/
lemma isRow_row_iff (k : Cohort) : IsRow k.row ↔ IsSafe k.use.keyword.toList := by
  have hseparators := k.count_row (.inl rfl)
  have hends := k.count_row (.inr rfl)
  rw [if_pos rfl] at hseparators
  rw [if_neg (by decide)] at hends
  rw [← forall_isSafe_texts_iff]
  constructor
  · intro h t ht
    have hsum : (k.texts.map (tally .rowEnd)).sum = 0 := by
      rw [h.rowEnds] at hends
      omega
    exact tally_rowEnd_eq_zero_iff.1 (List.sum_eq_zero_iff_forall_eq_nat.1 hsum _ (List.mem_map_of_mem ht))
  · intro h
    have hsum : ∀ x : Sign, x.IsEnd → (k.texts.map (tally x)).sum = 0 := fun x hx =>
      List.sum_eq_zero_iff_forall_eq_nat.2 (List.forall_mem_map.2 fun t ht => tally_of_isSafe (h t ht) hx)
    refine ⟨?_, ?_, ?_⟩
    · rw [hseparators, hsum _ (.inl rfl)]
    · rw [hends, hsum _ (.inr rfl)]
    · rw [toList_row, signs_append]
      exact (signs_rowEnd _).2.2.1.trans (List.suffix_append _ _)

/-- Cohorts are ranked by their total and then by the text of their use. -/
lemma precedes_iff (k l : Cohort) : k.precedes l = true ↔ RanksBefore total (·.use.text) k l := by
  simp [precedes, RanksBefore]

/-- Rows are read one after the other. -/
lemma signs_join (ks : List Cohort) :
    signs false (String.join (ks.map row)).toList = ks.flatMap fun k => signs false k.row.toList := by
  induction ks with
  | nil => rfl
  | cons k ks ih =>
    have hclosed : takesNext false k.row.toList = false := by
      rw [toList_row, takesNext_append]
      exact (signs_rowEnd _).2.2.2
    rw [List.map_cons, String.join_cons, String.toList_append, signs_append, hclosed, ih, List.flatMap_cons]

/-- The table has one row for each cohort: more instances first, then by the text of the use. Reading the rows
one after the other is reading each for itself, and a row has five separators and one end, which is where it
ends, just if in the keyword no backslash stands before another one or before a special character. -/
theorem latexTable_rows (ks : List Cohort) : ∃ sorted : List Cohort,
    sorted.Perm ks ∧ sorted.Pairwise (RanksBefore total (·.use.text)) ∧
    latexTable ks = tableHead ++ String.join (sorted.map row) ++ tableFoot ∧
    signs false (String.join (sorted.map row)).toList = sorted.flatMap (fun k => signs false k.row.toList) ∧
    ∀ k ∈ ks, IsRow k.row ↔ IsSafe k.use.keyword.toList :=
  ⟨ks.mergeSort precedes, List.mergeSort_perm ks precedes, pairwise_mergeSort_ranksBefore precedes_iff ks, rfl,
    signs_join _, fun k _ => k.isRow_row_iff⟩

/-- The cohort of an event with a backslash in its name. -/
def escapedEvent : Cohort :=
  let use : Keyword.Use := ⟨.event, .argument, .inserted, Keyword.globalApi, "a\\&b"⟩
  ⟨use, .ofList [⟨use, 0, 2⟩]⟩

/-- The backslash of the keyword takes the one that stands for the special character: a row ends in the column,
and a column more begins. -/
theorem latexTable_escapedEvent :
    latexTable [escapedEvent] = tableHead ++ escapedEvent.row ++ tableFoot ∧ ¬ IsRow escapedEvent.row ∧
      (signs false escapedEvent.row.toList).count .separator = 6 ∧
      (signs false escapedEvent.row.toList).count .rowEnd = 2 := by
  have hseparators : (signs false escapedEvent.row.toList).count .separator = 6 := by decide +kernel
  refine ⟨by decide +kernel, fun h => ?_, hseparators, by decide +kernel⟩
  exact absurd (hseparators.symm.trans h.separators) (by decide)

end Cohort

end Mend
