import Mathlib.Data.List.Forall2
import Mend.Keyword.Use
import Mend.Proofs.Text.Fields

/-!
# What the name of a file tells of a use

The name of a file for a use keeps letters, digits and hyphens. Everything else becomes an underscore, and
underscores stand between the parts as well. Role, context and change are told still, because none of their
written forms goes on where another ends (`kind_free`, `context_free`, `change_free`). Of the API and the
keyword only the letters, digits and hyphens are, each in its place (`fileStem_eq_iff`). For uses of plain
texts this is enough (`Blurs.eq`).
-/

namespace Mend.Keyword.Use

/-- Characters that the name of a file tells from all others. -/
def isTold (c : Char) : Bool := c.isAlphanum || c == '-'

/-- Characters that the name of a file does not tell apart. -/
def Blurred (c d : Char) : Prop := c = d ∨ isTold c = false ∧ isTold d = false

instance (c d : Char) : Decidable (Blurred c d) := inferInstanceAs (Decidable (_ ∨ _))

/-- Uses that the name of a file does not tell apart. -/
structure Blurs (u v : Use) : Prop where
  kind : u.kind = v.kind
  context : u.context = v.context
  change : u.change = v.change
  /-- API and keyword, with the underscore between them, are alike character by character. -/
  texts : List.Forall₂ Blurred (u.api ++ "_" ++ u.keyword).toList (v.api ++ "_" ++ v.keyword).toList

/-- A use whose texts stay in the name of a file, with an API in which there is no underscore. -/
structure IsPlain (u : Use) : Prop where
  api : ∀ c ∈ u.api.toList, isTold c = true
  keyword : ∀ c ∈ u.keyword.toList, isStemChar c = true

/-! ## Characters -/

/-- What stands for a character in the name of a file. -/
def stemChar (c : Char) : Char := if isStemChar c then c else '_'

/-- An underscore is one of the characters that are not told. -/
lemma stemChar_eq (c : Char) : stemChar c = if isTold c then c else '_' := by
  rw [stemChar, isStemChar, isTold]
  by_cases hc : c = '_'
  · rw [hc]
    rfl
  · rw [beq_eq_false_iff_ne.2 hc, Bool.or_false]

/-- A character that is told apart stays itself. -/
lemma stemChar_of_isTold {c : Char} (h : isTold c = true) : stemChar c = c := by
  rw [stemChar_eq, if_pos h]

/-- Two characters are written alike iff they are blurred. -/
lemma stemChar_eq_iff {c d : Char} : stemChar c = stemChar d ↔ Blurred c d := by
  have hunderscore : isTold '_' = false := rfl
  rw [stemChar_eq, stemChar_eq, Blurred]
  split <;> split <;> grind

/-! ## Texts -/

/-- What stands for a text in the name of a file. -/
def stem (s : String) : List Char := s.toList.map stemChar

/-- The stem of two texts is that of each, in a row. -/
lemma stem_append (s t : String) : stem (s ++ t) = stem s ++ stem t := by
  rw [stem, String.toList_append, List.map_append]
  rfl

/-- Two texts have one stem iff they are blurred character by character. -/
lemma stem_eq_iff {s t : String} : stem s = stem t ↔ List.Forall₂ Blurred s.toList t.toList := by
  rw [stem, stem, ← List.forall₂_eq_eq_eq, List.forall₂_map_left_iff, List.forall₂_map_right_iff]
  simp only [stemChar_eq_iff]

/-- The stem of a file, part by part. -/
lemma toList_fileStem (u : Use) : u.fileStem.toList =
    stem (u.kind.text ++ "_") ++ (stem (u.context.text ++ "_") ++
      (stem (u.change.text ++ "_") ++ stem (u.api ++ "_" ++ u.keyword))) := by
  rw [← stem_append, ← stem_append, ← stem_append, fileStem, String.toList_ofList]
  change stem _ = stem _
  congr 1
  simp only [String.append_assoc]
  rfl

/-- Where no code goes on from another, the front of a text tells which one it begins with. -/
lemma eq_of_append_eq {α : Type} {code : α → List Char} (hcode : ∀ a b, code a <+: code b → a = b) {a b : α}
    {r r' : List Char} (h : code a ++ r = code b ++ r') : a = b ∧ r = r' := by
  have hab : a = b := by
    have hprefix : code a <+: code b ++ r' := h ▸ List.prefix_append (code a) r
    rcases List.prefix_or_prefix_of_prefix hprefix (List.prefix_append (code b) r') with hp | hp
    · exact hcode a b hp
    · exact (hcode b a hp).symm
  subst hab
  exact ⟨rfl, List.append_cancel_left h⟩

/-- No kind's stem starts that of another. -/
lemma kind_free (a b : Kind) : stem (a.text ++ "_") <+: stem (b.text ++ "_") → a = b := by
  have h : ∀ a ∈ Kind.all, ∀ b ∈ Kind.all, stem (a.text ++ "_") <+: stem (b.text ++ "_") → a = b := by
    decide +kernel
  exact h a (by cases a <;> decide) b (by cases b <;> decide)

/-- No context's stem starts that of another. -/
lemma context_free (a b : Context) : stem (a.text ++ "_") <+: stem (b.text ++ "_") → a = b := by
  have h : ∀ a ∈ Context.all, ∀ b ∈ Context.all, stem (a.text ++ "_") <+: stem (b.text ++ "_") → a = b := by
    decide +kernel
  exact h a (by cases a <;> decide) b (by cases b <;> decide)

/-- No change's stem starts that of another. -/
lemma change_free (a b : Change) : stem (a.text ++ "_") <+: stem (b.text ++ "_") → a = b := by
  have h : ∀ a ∈ Change.all, ∀ b ∈ Change.all, stem (a.text ++ "_") <+: stem (b.text ++ "_") → a = b := by
    decide +kernel
  exact h a (by cases a <;> decide) b (by cases b <;> decide)

/-- The name of a file is the same for uses that it does not tell apart, and only for these. -/
lemma fileStem_eq_iff {u v : Use} : u.fileStem = v.fileStem ↔ u.Blurs v := by
  rw [← String.toList_inj, toList_fileStem, toList_fileStem]
  constructor
  · intro h
    obtain ⟨hkind, h⟩ := eq_of_append_eq kind_free h
    obtain ⟨hcontext, h⟩ := eq_of_append_eq context_free h
    obtain ⟨hchange, h⟩ := eq_of_append_eq change_free h
    exact ⟨hkind, hcontext, hchange, stem_eq_iff.1 h⟩
  · rintro ⟨hkind, hcontext, hchange, htexts⟩
    rw [hkind, hcontext, hchange, stem_eq_iff.2 htexts]

variable {u v : Use}

/-- The stem of a plain use keeps its names. -/
lemma IsPlain.stem_eq (h : u.IsPlain) :
    stem (u.api ++ "_" ++ u.keyword) = u.api.toList ++ '_' :: u.keyword.toList := by
  have hapi : stem u.api = u.api.toList :=
    (List.map_congr_left fun c hc => stemChar_of_isTold (h.api c hc)).trans (List.map_id _)
  have hkeyword : stem u.keyword = u.keyword.toList :=
    (List.map_congr_left fun c hc => if_pos (h.keyword c hc)).trans (List.map_id _)
  rw [stem_append, stem_append, hapi, hkeyword, List.append_assoc]
  rfl

/-- The package of a plain use holds no underscore. -/
lemma IsPlain.not_mem_api (h : u.IsPlain) : '_' ∉ u.api.toList := fun hmem =>
  Bool.false_ne_true (h.api _ hmem)

/-- Uses of plain texts are told apart. -/
lemma Blurs.eq (h : u.Blurs v) (hu : u.IsPlain) (hv : v.IsPlain) : u = v := by
  have htexts := stem_eq_iff.2 h.texts
  rw [hu.stem_eq, hv.stem_eq] at htexts
  obtain ⟨hapi, hkeyword⟩ := Text.append_cons_inj hu.not_mem_api hv.not_mem_api htexts
  obtain ⟨hkind, hcontext, hchange, -⟩ := h
  cases u
  cases v
  rw [mk.injEq]
  exact ⟨hkind, hcontext, hchange, String.toList_inj.1 hapi, String.toList_inj.1 hkeyword⟩

end Mend.Keyword.Use
