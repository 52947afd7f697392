import Mend.Feature.Row
import Mend.Proofs.Feature.Tally
import Mend.Proofs.Text.Fields
import Mend.Proofs.Text.Natural

/-!
# Rows are read as they are written

Whatever texts a vector holds, its row is read as the vector with every text sanitized (`read_write`): no
field holds a comma and no part of a field a colon, so that fields and parts are found again. Uses that
become equal by sanitizing are counted together (`count_sanitized`); a vector of plain texts comes back as
it was (`agrees_sanitized`).
-/

namespace Mend

open Keyword (Use Kind Context)

/-- A provenance with each text cleared of separators. -/
def Provenance.sanitized (p : Provenance) : Provenance :=
  ⟨Row.sanitize p.project, Row.sanitize p.buggyFile, Row.sanitize p.repairedFile,
   Row.sanitize p.buggyCommit, Row.sanitize p.repairedCommit⟩

/-- A use with each text cleared of separators. -/
def Keyword.Use.sanitized (u : Use) : Use :=
  { u with api := Row.sanitize u.api, keyword := Row.sanitize u.keyword }

/-- The vector that is read back: every text sanitized, counts of uses that become equal added up, and
without the code. -/
def FeatureVector.sanitized (v : FeatureVector) : FeatureVector where
  id := v.id
  provenance := v.provenance.sanitized
  function := Row.sanitize v.function
  buggyCode := ""
  repairedCode := ""
  counts := Tally.empty.addAll (v.counts.entries.map fun e => (e.1.sanitized, e.2))

namespace Row

/-- A text without separators. -/
def IsPlain (s : String) : Prop := ∀ c ∈ s.toList, isSeparator c = false

/-- A sanitized text holds no separator. -/
lemma isPlain_sanitize (s : String) : IsPlain (sanitize s) := by
  intro c hc
  rw [sanitize, String.toList_ofList, List.mem_map] at hc
  obtain ⟨d, -, rfl⟩ := hc
  split
  · decide
  · next h => exact Bool.not_eq_true _ ▸ h

/-- A plain text is left alone. -/
lemma sanitize_of_isPlain {s : String} (h : IsPlain s) : sanitize s = s := by
  have hmap : (s.toList.map fun c => if isSeparator c then '_' else c) = s.toList := by
    refine (List.map_congr_left fun c hc => ?_).trans (List.map_id _)
    rw [h c hc]
    rfl
  rw [sanitize, hmap, String.ofList_toList]

/-- A text none of whose characters separates is plain. -/
lemma isPlain_of_all {s : String} (h : s.toList.all (!isSeparator ·) = true) : IsPlain s := by
  intro c hc
  simpa using List.all_eq_true.1 h c hc

/-- The text of a kind is plain. -/
lemma isPlain_kind (k : Kind) : IsPlain k.text := isPlain_of_all (by cases k <;> rfl)

/-- The text of a context is plain. -/
lemma isPlain_context (c : Context) : IsPlain c.text := isPlain_of_all (by cases c <;> rfl)

/-- The text of a change is plain. -/
lemma isPlain_change (c : Change) : IsPlain c.text := isPlain_of_all (by cases c <;> rfl)

/-- The decimal text of a number is plain. -/
lemma isPlain_toString (n : UInt64) : IsPlain (toString n) := by
  intro c hc
  have hdigit : c.isDigit = true := Text.isDigit_of_mem_repr (n := n.toNat) hc
  unfold isSeparator
  have hne : ∀ d : Char, d.isDigit = false → (c == d) = false := fun d hd =>
    beq_eq_false_iff_ne.2 fun heq => by simp [heq, hd] at hdigit
  rw [hne ',' (by decide), hne ':' (by decide), hne '\n' (by decide), hne '\r' (by decide)]
  rfl

/-- No separator occurs in a plain text. -/
lemma IsPlain.not_mem {s : String} (h : IsPlain s) {c : Char} (hc : isSeparator c = true) :
    c ∉ s.toList := fun hmem => by simp [h c hmem] at hc

/-- The colon-separated parts of a written use. -/
def parts (u : Use) (n : UInt64) : List String :=
  [u.kind.text, u.context.text, u.change.text, sanitize u.api, sanitize u.keyword, toString n]

/-- A use is written as its parts with colons between. -/
lemma writeUse_eq (u : Use) (n : UInt64) : writeUse u n = ":".intercalate (parts u n) := by
  rfl

/-- Each part of a written use is plain. -/
lemma isPlain_parts (u : Use) (n : UInt64) : ∀ part ∈ parts u n, IsPlain part := by
  intro part h
  simp only [parts, List.mem_cons, List.not_mem_nil, or_false] at h
  rcases h with rfl | rfl | rfl | rfl | rfl | rfl
  · exact isPlain_kind _
  · exact isPlain_context _
  · exact isPlain_change _
  · exact isPlain_sanitize _
  · exact isPlain_sanitize _
  · exact isPlain_toString _

/-- A kind is read back from its text. -/
lemma kind_ofText (k : Kind) : Kind.ofText k.text = .ok k := by cases k <;> rfl

/-- A context is read back from its text. -/
lemma context_ofText (c : Context) : Context.ofText c.text = .ok c := by cases c <;> rfl

/-- A change is read back from its text. -/
lemma change_ofText (c : Change) : Change.ofText c.text = .ok c := by cases c <;> rfl

/-- The field of a use is read as the use with its texts sanitized. -/
lemma readUse_writeUse (u : Use) (n : UInt64) : readUse (writeUse u n) = .ok (u.sanitized, n) := by
  have hsplit : Text.splitAt ':' (writeUse u n) = parts u n := by
    rw [writeUse_eq]
    exact Text.splitAt_intercalate (List.cons_ne_nil _ _) fun part hp =>
      (isPlain_parts u n part hp).not_mem (by decide)
  rw [readUse, hsplit, parts]
  simp only [kind_ofText, context_ofText, change_ofText, Text.readWord_toString]
  rfl

/-- A character in no part and not in the separator is not in the joined text. -/
lemma not_mem_intercalate {c : Char} {sep : String} {l : List String} (hsep : c ∉ sep.toList)
    (h : ∀ s ∈ l, c ∉ s.toList) : c ∉ (sep.intercalate l).toList := by
  induction l with
  | nil => simp
  | cons s l ih =>
    have hs := h s List.mem_cons_self
    cases l with
    | nil => rwa [String.intercalate_singleton]
    | cons t l =>
      have hl := ih fun r hr => h r (List.mem_cons_of_mem _ hr)
      rw [String.intercalate_cons_cons, String.toList_append, String.toList_append,
        List.mem_append, List.mem_append]
      rintro ((hc | hc) | hc)
      · exact hs hc
      · exact hsep hc
      · exact hl hc

/-- Of the separators only colons occur in fields. -/
lemma not_mem_field (v : FeatureVector) {c : Char} (hc : isSeparator c = true) (hcolon : c ≠ ':') :
    ∀ field ∈ fields v, c ∉ field.toList := by
  intro field h
  rw [fields, List.mem_append] at h
  rcases h with h | h
  · simp only [List.mem_cons, List.not_mem_nil, or_false] at h
    rcases h with rfl | rfl | rfl | rfl | rfl | rfl | rfl
    · exact (isPlain_toString _).not_mem hc
    all_goals exact (isPlain_sanitize _).not_mem hc
  · obtain ⟨e, -, rfl⟩ := List.mem_map.1 h
    rw [writeUse_eq]
    refine not_mem_intercalate ?_ fun part hp => (isPlain_parts _ _ part hp).not_mem hc
    exact fun hmem => hcolon (List.mem_singleton.1 hmem)

/-- A written row has a field. -/
lemma fields_ne_nil (v : FeatureVector) : fields v ≠ [] := List.cons_ne_nil _ _

/-- A written row is one line. -/
lemma isLine_write (v : FeatureVector) : Text.IsLine (write v) :=
  ⟨not_mem_intercalate (by decide) (not_mem_field v rfl (by decide)),
    not_mem_intercalate (by decide) (not_mem_field v rfl (by decide))⟩

/-- A written row splits into its fields. -/
lemma split_write (v : FeatureVector) : split (write v) = fields v := by
  have hline := isLine_write v
  have hkeep : ∀ c ∈ (write v).toList, (c == '\r' || c == '\n') = false := by
    intro c hc
    rw [Bool.or_eq_false_iff, beq_eq_false_iff_ne, beq_eq_false_iff_ne]
    exact ⟨fun h => hline.2 (h ▸ hc), fun h => hline.1 (h ▸ hc)⟩
  rw [split, Text.trimEnd_eq_self hkeep]
  exact Text.splitAt_intercalate (fields_ne_nil v) (not_mem_field v rfl (by decide))

/-- The header of a written row is read back, its texts sanitized. -/
lemma readHeader_write (v : FeatureVector) :
    readHeader (write v) = .ok (.blank v.id v.provenance.sanitized (sanitize v.function),
      v.counts.entries.map fun e => writeUse e.1 e.2) := by
  rw [readHeader, split_write, fields]
  simp only [List.cons_append, List.nil_append, Text.readWord_toString]
  rfl

/-- The written uses are all read back, sanitized, with their counts. -/
lemma mapM_readUse (l : List (Use × UInt64)) :
    (l.map fun e => writeUse e.1 e.2).mapM readUse =
      (.ok (l.map fun e => (e.1.sanitized, e.2)) : Except Failure _) := by
  induction l with
  | nil => rfl
  | cons e l ih =>
    rw [List.map_cons, List.mapM_cons, readUse_writeUse, ih]
    rfl

/-- The row of a vector is read as the vector with its texts sanitized. -/
lemma read_write (v : FeatureVector) : read (write v) = .ok v.sanitized := by
  rw [read, readHeader_write]
  change (do
    let uses ← (v.counts.entries.map fun e => writeUse e.1 e.2).mapM readUse
    return { FeatureVector.blank v.id v.provenance.sanitized (sanitize v.function) with
      counts := Tally.empty.addAll uses } : Except Failure FeatureVector) = _
  rw [mapM_readUse]
  rfl

end Row

namespace FeatureVector

variable (v : FeatureVector)

/-- What the uses that become `u` by sanitizing count together. -/
def merged (u : Use) : Nat :=
  ((v.counts.entries.filter fun e => e.1.sanitized == u).map (·.2.toNat)).sum

/-- The vector that is read back holds the sanitized uses. -/
lemma mem_uses_sanitized (u : Use) : u ∈ v.sanitized.uses ↔ ∃ w ∈ v.uses, w.sanitized = u := by
  have h : u ∈ v.sanitized.uses ↔
      u ∈ (Tally.empty : Tally UInt64).uses ∨
        u ∈ (v.counts.entries.map fun e => (e.1.sanitized, e.2)).map Prod.fst :=
    Tally.mem_uses_addAll _ _ u
  rw [h, uses, Tally.uses]
  simp [Tally.uses, Tally.empty]

/-- Uses that become equal by sanitizing are counted together, as far as words go. -/
lemma count_sanitized (u : Use) : (v.sanitized.count u).toNat = v.merged u % 2 ^ 64 := by
  have htotal : Tally.total u (v.counts.entries.map fun e => (e.1.sanitized, e.2)) = v.merged u := by
    rw [Tally.total, merged, List.filter_map, List.map_map]
    rfl
  have h : v.sanitized.count u =
      (Tally.empty.addAll (v.counts.entries.map fun e => (e.1.sanitized, e.2))).number u := rfl
  rw [h, Tally.number_addAll, htotal, Tally.number_empty, UInt64.zero_add, UInt64.toNat_ofNat']

/-- A vector in which no text holds a separator. -/
structure IsPlain : Prop where
  project : Row.IsPlain v.provenance.project
  buggyFile : Row.IsPlain v.provenance.buggyFile
  repairedFile : Row.IsPlain v.provenance.repairedFile
  buggyCommit : Row.IsPlain v.provenance.buggyCommit
  repairedCommit : Row.IsPlain v.provenance.repairedCommit
  function : Row.IsPlain v.function
  uses : ∀ u ∈ v.uses, Row.IsPlain u.api ∧ Row.IsPlain u.keyword

variable {v}

/-- Sanitizing a plain vector leaves its provenance. -/
lemma IsPlain.provenance_eq (h : v.IsPlain) : v.provenance.sanitized = v.provenance := by
  rw [Provenance.sanitized, Row.sanitize_of_isPlain h.project, Row.sanitize_of_isPlain h.buggyFile,
    Row.sanitize_of_isPlain h.repairedFile, Row.sanitize_of_isPlain h.buggyCommit,
    Row.sanitize_of_isPlain h.repairedCommit]

/-- Sanitizing a plain vector leaves its counts. -/
lemma IsPlain.counts_eq (h : v.IsPlain) : v.sanitized.counts = v.counts := by
  have hmap : (v.counts.entries.map fun e => (e.1.sanitized, e.2)) = v.counts.entries := by
    refine (List.map_congr_left fun e he => ?_).trans (List.map_id _)
    obtain ⟨hapi, hkeyword⟩ := h.uses e.1 (List.mem_map_of_mem he)
    rw [Keyword.Use.sanitized, Row.sanitize_of_isPlain hapi, Row.sanitize_of_isPlain hkeyword]
    rfl
  change Tally.empty.addAll (v.counts.entries.map fun e => (e.1.sanitized, e.2)) = v.counts
  rw [hmap, Tally.addAll_entries]

/-- A vector of plain texts is read back as it was, but for the code. -/
lemma IsPlain.agrees_sanitized (h : v.IsPlain) : v.sanitized.agrees v = true := by
  have hfunction : v.sanitized.function = v.function := Row.sanitize_of_isPlain h.function
  have hprovenance : v.sanitized.provenance = v.provenance := h.provenance_eq
  have hid : v.sanitized.id = v.id := rfl
  rw [agrees, h.counts_eq, hfunction, hprovenance, hid]
  simp

end FeatureVector

end Mend
