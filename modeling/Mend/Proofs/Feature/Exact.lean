import Mathlib.Tactic.ByContra
import Mathlib.Tactic.Lemma
import Mend.Feature.Filter
import Mend.Keyword.Extract

/-!
# Exact filters

The filter with the parts of a use fits that use and nothing else just if none of the parts is one that
leaves a filter open (`fits_exact_iff`). A use that a program contributes always has a role and a context
(`Extractor.isClosed_iff_of_mem_usesAt`), so that only its texts can leave the filter open.
-/

namespace Mend

open Keyword (Use Kind Context)

namespace Keyword

/-- No part of the use would leave that part of a filter open. -/
def Use.IsClosed (u : Use) : Prop :=
  u.kind ≠ .unknown ∧ u.context ≠ .unknown ∧ u.change ≠ .unknown ∧ u.api ≠ "" ∧ u.keyword ≠ ""

instance (u : Use) : Decidable u.IsClosed := inferInstanceAs (Decidable (_ ∧ _ ∧ _ ∧ _ ∧ _))

namespace Extractor

variable {x : Extractor} {i : Nat} {l l' : List Token}

/-- All keywords have a role. -/
def Known (l : List Token) : Prop := ∀ t ∈ l, t.kind ≠ .unknown

/-- No tokens at all are known. -/
lemma known_nil : Known [] := nofun

/-- A token of a kind other than unknown is known. -/
lemma known_singleton {t : Token} (h : t.kind ≠ .unknown) : Known [t] := by
  intro t' ht
  rwa [List.mem_singleton.1 ht]

/-- Known tokens in a row are known. -/
lemma Known.append (h : Known l) (h' : Known l') : Known (l ++ l') := fun t ht =>
  (List.mem_append.1 ht).elim (h t) (h' t)

/-- Tokens that are known either way are known. -/
lemma Known.ite (c : Prop) [Decidable c] (h : Known l) (h' : Known l') :
    Known (if c then l else l') := by
  split
  · exact h
  · exact h'

/-- A token made of what may be missing is known when every one made is. -/
lemma known_map_toList {α : Type} {f : α → Token} (h : ∀ a, (f a).kind ≠ .unknown) (o : Option α) :
    Known (o.map f).toList := by
  cases o with
  | none => exact known_nil
  | some a => exact known_singleton (h a)

section Option

variable {o o' : Option Token}

/-- A token that may be missing is known if it is either way. -/
lemma Known.optionIte (c : Prop) [Decidable c] (h : Known o.toList) (h' : Known o'.toList) :
    Known (if c then o else o').toList := by
  split
  · exact h
  · exact h'

/-- A token looked up behind another is known when every one found is. -/
lemma known_bind {α : Type} {a : Option α} {f : α → Option Token} (h : ∀ a, Known (f a).toList) :
    Known (a.bind f).toList := by
  cases a with
  | none => exact known_nil
  | some a => exact h a

/-- The first of two tokens there is known if both are. -/
lemma Known.or (h : Known o.toList) (h' : Known o'.toList) :
    Known (o.or o').toList := by
  cases o with
  | none => exact h'
  | some t => exact h

end Option

/-- A word is of a known kind. -/
lemma kind_word (word : String) : (Token.word word).kind ≠ .unknown := by
  rw [Token.word, Token.global]
  exact Kind.noConfusion

/-- The tokens of a parameter are known. -/
lemma known_parameterTokens (x : Extractor) (i : Nat) : Known (x.parameterTokens i) := by
  unfold parameterTokens
  split
  · exact known_nil
  · exact .ite _ (known_singleton Kind.noConfusion)
      (.ite _ (known_singleton Kind.noConfusion) known_nil)

/-- The tokens of an identifier are known. -/
lemma known_identifierTokens (x : Extractor) (i : Nat) : Known (x.identifierTokens i) := by
  unfold identifierTokens
  refine .ite _ (known_singleton (kind_word _)) (.append (.append (.append ?_ ?_) ?_) ?_)
  · exact .ite _ (known_singleton Kind.noConfusion) known_nil
  · exact .ite _ (known_map_toList (fun _ => Kind.noConfusion) _) known_nil
  · exact .ite _ (known_singleton Kind.noConfusion) known_nil
  · exact x.known_parameterTokens i

/-- The tokens of a property are known. -/
lemma known_propertyTokens (x : Extractor) (i : Nat) : Known (x.propertyTokens i) := by
  unfold propertyTokens
  dsimp only
  split
  · exact known_nil
  · split
    · refine .ite _ (known_singleton Kind.noConfusion) ?_
      split
      · refine known_singleton ?_
        dsimp only
        split
        · exact Kind.noConfusion
        · exact Kind.noConfusion
      · exact known_nil
    · exact known_singleton Kind.noConfusion
    · exact .ite _ (known_singleton Kind.noConfusion) known_nil
    · exact known_nil

/-- The tokens of a `new` expression are known. -/
lemma known_newTokens (x : Extractor) (i : Nat) : Known (x.newTokens i) :=
  .append (known_singleton (kind_word _)) (known_map_toList (fun _ => Kind.noConfusion) _)

/-- The token of an event is known. -/
lemma known_eventToken? (x : Extractor) (i : Nat) : Known (x.eventToken? i).toList := by
  unfold eventToken?
  refine known_bind fun arguments => .optionIte _ known_nil ?_
  refine known_bind fun call => known_bind fun callee => .optionIte _ known_nil ?_
  exact known_bind fun method => .optionIte _ (known_singleton Kind.noConfusion) known_nil

/-- The tokens that depend on the kind of node are known. -/
lemma known_tokensByKind (x : Extractor) (i : Nat) : Known (x.tokensByKind i) := by
  have hoperator : Known (if operatorWords.contains (x.ast.label i) then
      some (Token.word (x.ast.label i)) else none).toList :=
    .optionIte _ (known_singleton (kind_word _)) known_nil
  unfold tokensByKind
  dsimp only
  split
  · exact x.known_newTokens i
  · exact hoperator
  · exact hoperator.or (known_map_toList kind_word _)
  any_goals exact known_singleton (kind_word _)
  · exact known_map_toList (fun _ => Kind.noConfusion) _
  · exact known_map_toList (fun _ => Kind.noConfusion) _
  · exact x.known_eventToken? i
  · exact x.known_identifierTokens i
  · exact x.known_propertyTokens i
  · exact known_nil

/-- The tokens of a truthiness test are known. -/
lemma known_truthTokens (x : Extractor) (i : Nat) : Known (x.truthTokens i) :=
  .ite _ (known_singleton (kind_word _)) known_nil

/-- The context of a node is always known. -/
lemma contextOf_ne_unknown (x : Extractor) (i : Nat) : x.contextOf i ≠ .unknown := by
  unfold contextOf
  dsimp only
  split
  · exact Context.noConfusion
  · split
    · exact Context.noConfusion
    · exact Context.noConfusion

/-- The uses that a node contributes have a role and a context. -/
lemma known_of_mem_usesAt {change : Change} {u : Use} (h : u ∈ x.usesAt change i) :
    u.kind ≠ .unknown ∧ u.context ≠ .unknown ∧ u.change = change := by
  unfold usesAt at h
  split at h
  · rw [List.mem_singleton.1 h]
    exact ⟨Kind.noConfusion, Context.noConfusion, rfl⟩
  · obtain ⟨t, ht, rfl⟩ := List.mem_map.1 h
    exact ⟨(x.known_tokensByKind i).append (x.known_truthTokens i) t ht, x.contextOf_ne_unknown i, rfl⟩

/-- Only an empty text, or a node that was not compared, makes a use of a program leave a filter open. -/
lemma isClosed_iff_of_mem_usesAt {change : Change} {u : Use} (h : u ∈ x.usesAt change i) :
    u.IsClosed ↔ change ≠ .unknown ∧ u.api ≠ "" ∧ u.keyword ≠ "" := by
  obtain ⟨hkind, hcontext, hchange⟩ := known_of_mem_usesAt h
  rw [Use.IsClosed, hchange]
  exact ⟨fun h => h.2.2, fun h => ⟨hkind, hcontext, h⟩⟩

end Extractor

end Keyword

namespace KeywordFilter

variable {mode : FilterMode} {u w : Use}

/-- The exact filter of a use fits that use. -/
lemma fits_exact_self (mode : FilterMode) (u : Use) : (exact mode u).fits u = true := by
  simp [fits, exact]

/-- The exact filter of a closed use fits no other. -/
lemma eq_of_fits_exact (h : u.IsClosed) (hfits : (exact mode u).fits w = true) : w = u := by
  obtain ⟨hkind, hcontext, hchange, hapi, hkeyword⟩ := h
  simp only [fits, exact, Bool.and_eq_true, Bool.or_eq_true, beq_iff_eq, String.isEmpty_iff] at hfits
  obtain ⟨⟨⟨⟨h₁, h₂⟩, h₃⟩, h₄⟩, h₅⟩ := hfits
  have h₁ := h₁.resolve_left hkind
  have h₂ := h₂.resolve_left hcontext
  have h₃ := h₃.resolve_left hchange
  have h₄ := h₄.resolve_left hapi
  have h₅ := h₅.resolve_left hkeyword
  cases u
  cases w
  simp_all

/-- If a part is open, a use that differs in that part fits as well. -/
lemma exists_fits_exact_ne (mode : FilterMode) (h : ¬ u.IsClosed) :
    ∃ w, (exact mode u).fits w = true ∧ w ≠ u := by
  have hnonempty : Keyword.globalApi ≠ "" := by decide
  by_cases hkind : u.kind = .unknown
  · exact ⟨{ u with kind := .reserved }, by simp [fits, exact, hkind],
      ne_of_apply_ne Use.kind (by simp [hkind])⟩
  by_cases hcontext : u.context = .unknown
  · exact ⟨{ u with context := .statement }, by simp [fits, exact, hcontext],
      ne_of_apply_ne Use.context (by simp [hcontext])⟩
  by_cases hchange : u.change = .unknown
  · exact ⟨{ u with change := .inserted }, by simp [fits, exact, hchange],
      ne_of_apply_ne Use.change (by simp [hchange])⟩
  by_cases hapi : u.api = ""
  · exact ⟨{ u with api := Keyword.globalApi }, by simp [fits, exact, hapi],
      ne_of_apply_ne Use.api (hapi ▸ hnonempty)⟩
  by_cases hkeyword : u.keyword = ""
  · exact ⟨{ u with keyword := Keyword.globalApi }, by simp [fits, exact, hkeyword],
      ne_of_apply_ne Use.keyword (hkeyword ▸ hnonempty)⟩
  exact absurd ⟨hkind, hcontext, hchange, hapi, hkeyword⟩ h

/-- The exact filter is exact for closed uses, and for no others. -/
lemma fits_exact_iff (mode : FilterMode) (u : Use) :
    (∀ w, (exact mode u).fits w = true ↔ w = u) ↔ u.IsClosed := by
  constructor
  · intro hexact
    by_contra hopen
    obtain ⟨w, hfits, hne⟩ := exists_fits_exact_ne mode hopen
    exact hne ((hexact w).1 hfits)
  · intro hclosed w
    refine ⟨eq_of_fits_exact hclosed, ?_⟩
    rintro rfl
    exact fits_exact_self mode w

end KeywordFilter

end Mend
