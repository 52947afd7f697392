import Mathlib.Data.List.Infix
import Mathlib.Data.List.MinMax
import Mathlib.Order.Defs.Unbundled
import Mend.Detector.SpecialValue
import Mend.Proofs.Batch.Gather
import Mend.Proofs.Text.Fields

/-!
# Which of several protected paths counts

One path leads to another if its components are the first components of the other
(`reachesThrough_iff_components`); so leading to is a partial order, and what leads to one path is ordered
totally. Of the paths that a guard protects for one dereference there is thus a first one, and it alone
counts (`Detector.subsumption_leaves_one`).

The test compares bytes: those of a path go on behind those of the other with the byte of a dot. That byte
is looked up only where the path has one (`reachesInBytes?_eq`).
-/

namespace Mend

variable {path start v w : String}

/-- The components of an access path, which stand between its dots. -/
def components (path : String) : List String := Text.splitAt '.' path

/-- A path reaches through another iff it is that path or goes on with a dot. -/
lemma reachesThrough_iff :
    reachesThrough path start = true ↔ path = start ∨ start.toList ++ ['.'] <+: path.toList := by
  rw [reachesThrough, Bool.or_eq_true, beq_iff_eq, List.isPrefixOf_iff_prefix]

/-- A path that goes on with a dot. -/
lemma dot_prefix_iff : start.toList ++ ['.'] <+: path.toList ↔ ∃ rest, path = start ++ "." ++ rest := by
  have hchars (rest : String) : (start ++ "." ++ rest).toList = start.toList ++ ['.'] ++ rest.toList := by
    rw [String.toList_append, String.toList_append]
    rfl
  constructor
  · rintro ⟨rest, hrest⟩
    exact ⟨String.ofList rest, String.toList_inj.1 (by rw [hchars, String.toList_ofList, hrest])⟩
  · rintro ⟨rest, rfl⟩
    exact hchars rest ▸ List.prefix_append _ _

/-- A path does not reach through another that ends inside one of its components. -/
lemma reachesThrough_iff_components :
    reachesThrough path start = true ↔ components start <+: components path := by
  have hinj : Function.Injective String.ofList := fun _ _ => String.ofList_inj.1
  rw [reachesThrough_iff, components, components, Text.splitAt, Text.splitAt,
    List.prefix_map_iff_of_injective hinj, Text.splitList_prefix_splitList fun c => beq_iff_eq,
    String.toList_inj]

/-- What a path reaches through is shorter than it. -/
lemma utf8ByteSize_lt_of_reachesThrough (h : reachesThrough path start = true) (hne : path ≠ start) :
    start.utf8ByteSize < path.utf8ByteSize := by
  obtain ⟨rest, rfl⟩ := dot_prefix_iff.1 ((reachesThrough_iff.1 h).resolve_left hne)
  have hdot : (".").utf8ByteSize = 1 := rfl
  rw [String.utf8ByteSize_append, String.utf8ByteSize_append, hdot]
  omega

/-- Leading from one path to another is a partial order on texts. -/
instance isPartialOrder_reachesThrough :
    IsPartialOrder String fun path start => reachesThrough path start = true where
  refl path := reachesThrough_iff.2 (.inl rfl)
  trans path mid start hpath hmid :=
    reachesThrough_iff_components.2
      ((reachesThrough_iff_components.1 hmid).trans (reachesThrough_iff_components.1 hpath))
  antisymm path start hpath hstart := by
    by_contra hne
    have hlt := utf8ByteSize_lt_of_reachesThrough hpath hne
    have hgt := utf8ByteSize_lt_of_reachesThrough hstart (Ne.symm hne)
    omega

/-- Of two paths that lead to one path, one leads to the other. -/
lemma reachesThrough_total (hv : reachesThrough path v = true) (hw : reachesThrough path w = true) :
    reachesThrough v w = true ∨ reachesThrough w v = true := by
  simp only [reachesThrough_iff_components] at *
  exact List.prefix_or_prefix_of_prefix hw hv

section Bytes

/-- The bytes of a text. -/
def bytesOf (s : String) : List UInt8 := s.toUTF8.data.toList

/-- The test for reaching through as it is made on bytes; there is no answer where a byte past the end is
looked up. -/
def reachesInBytes? (path start : String) : Option Bool :=
  if path = start then some true
  else if start.utf8ByteSize < path.utf8ByteSize ∧ bytesOf start <+: bytesOf path then
    (bytesOf path)[start.utf8ByteSize]?.map (· == '.'.toUInt8)
  else some false

/-- A text has as many bytes as its size says. -/
lemma length_bytesOf (s : String) : (bytesOf s).length = s.utf8ByteSize := rfl

/-- Two texts in a row have their bytes in a row. -/
lemma bytesOf_append (s t : String) : bytesOf (s ++ t) = bytesOf s ++ bytesOf t := by
  simp only [bytesOf, String.toUTF8_eq_toByteArray, String.toByteArray_append, ByteArray.toList_data_append]

/-- The bytes of a text begin with those of another only if its characters do so. -/
lemma toList_prefix_of_bytesOf (h : bytesOf v <+: bytesOf w) : v.toList <+: w.toList := by
  obtain ⟨rest, hrest⟩ := h
  refine List.isPrefix_of_utf8Encode_append_eq_utf8Encode (b := ⟨rest.toArray⟩) ?_
  rw [String.utf8Encode_toList, String.utf8Encode_toList]
  refine ByteArray.ext (Array.toList_inj.1 ?_)
  rw [ByteArray.toList_data_append]
  exact hrest

/-- Whether a path goes on with a dot may be told from its bytes. -/
lemma bytesOf_dot_prefix_iff :
    bytesOf start ++ ['.'.toUInt8] <+: bytesOf path ↔ start.toList ++ ['.'] <+: path.toList := by
  have hdot : bytesOf start ++ ['.'.toUInt8] = bytesOf (start ++ ".") := (bytesOf_append start ".").symm
  have hchars : (start ++ ".").toList = start.toList ++ ['.'] := by
    rw [String.toList_append]
    rfl
  constructor
  · rw [hdot, ← hchars]
    exact toList_prefix_of_bytesOf
  · rw [dot_prefix_iff, hdot]
    rintro ⟨rest, rfl⟩
    exact bytesOf_append _ rest ▸ List.prefix_append _ _

/-- A prefix with one more byte is the prefix and that byte behind it. -/
lemma append_singleton_prefix_iff {l m : List UInt8} {byte : UInt8} :
    l ++ [byte] <+: m ↔ l <+: m ∧ m[l.length]? = some byte := by
  constructor
  · rintro ⟨rest, rfl⟩
    simp
  · rintro ⟨⟨rest, rfl⟩, hbyte⟩
    cases rest with
    | nil => simp at hbyte
    | cons b rest =>
      obtain rfl : b = byte := by simpa using hbyte
      exact ⟨rest, by simp⟩

/-- On bytes the test has the same outcome, and every byte that it looks up is there. -/
lemma reachesInBytes?_eq (path start : String) :
    reachesInBytes? path start = some (reachesThrough path start) := by
  have hdot : bytesOf start ++ ['.'.toUInt8] <+: bytesOf path ↔ _ := bytesOf_dot_prefix_iff
  rw [append_singleton_prefix_iff, length_bytesOf] at hdot
  rw [reachesInBytes?]
  split_ifs with heq hlonger
  · exact congrArg some (reachesThrough_iff.2 (.inl heq)).symm
  · have hlt : start.utf8ByteSize < (bytesOf path).length := hlonger.1
    rw [List.getElem?_eq_getElem hlt, Option.map_some, Option.some_inj, Bool.eq_iff_iff, beq_iff_eq,
      reachesThrough_iff, or_iff_right heq, ← hdot, List.getElem?_eq_getElem hlt, Option.some_inj,
      and_iff_right hlonger.2]
  · have hnot : ¬reachesThrough path start = true := fun h =>
      hlonger ⟨utf8ByteSize_lt_of_reachesThrough h heq,
        (hdot.2 ((reachesThrough_iff.1 h).resolve_left heq)).1⟩
    rw [Bool.eq_false_iff.2 hnot]

end Bytes

namespace Detector

/-- The paths that lead to a dereferenced path and that the facts protect. -/
def candidates (facts : List Fact) (path : String) : List String :=
  (pathsOf facts).filter fun v => reachesThrough path v && (sentinelsOf facts v).meets .dereferenceGuards

variable {facts : List Fact}

/-- The protected paths are the candidates that reach through no other. -/
lemma protectedPaths_eq (facts : List Fact) (path : String) :
    protectedPaths facts path = (candidates facts path).filter fun v =>
      !(candidates facts path).any fun w => w != v && reachesThrough v w := rfl

/-- No candidate is listed twice. -/
lemma nodup_candidates (facts : List Fact) (path : String) : (candidates facts path).Nodup :=
  (nodup_eraseDups _).filter _

/-- The path reaches through each candidate. -/
lemma reachesThrough_of_mem_candidates (h : v ∈ candidates facts path) : reachesThrough path v = true :=
  (Bool.and_eq_true _ _ ▸ (List.mem_filter.1 h).2).1

/-- Of two candidates, one reaches through the other. -/
lemma candidates_total (hv : v ∈ candidates facts path) (hw : w ∈ candidates facts path) :
    reachesThrough v w = true ∨ reachesThrough w v = true :=
  reachesThrough_total (reachesThrough_of_mem_candidates hv) (reachesThrough_of_mem_candidates hw)

/-- One of several paths that lead to one path leads to all the others. -/
lemma exists_outermost (h : candidates facts path ≠ []) :
    ∃ v ∈ candidates facts path, ∀ w ∈ candidates facts path, reachesThrough w v = true := by
  obtain ⟨v, hv⟩ := Option.ne_none_iff_exists'.1 (mt (List.argmin_eq_none (f := String.utf8ByteSize)).1 h)
  have hmem : v ∈ candidates facts path := List.argmin_mem hv
  refine ⟨v, hmem, fun w hw => ?_⟩
  obtain hvw | hwv := candidates_total hmem hw
  · -- What leads to the shortest of them is no shorter, so it is the shortest itself.
    by_contra hnot
    have hne : v ≠ w := fun heq => hnot (heq ▸ hvw)
    have hlt := utf8ByteSize_lt_of_reachesThrough hvw hne
    have hle := List.le_of_mem_argmin hw hv
    omega
  · exact hwv

/-- The candidate all others reach through is the only one left. -/
lemma protectedPaths_of_outermost (hmem : v ∈ candidates facts path)
    (hall : ∀ w ∈ candidates facts path, reachesThrough w v = true) : protectedPaths facts path = [v] := by
  have hkept : ∀ u ∈ candidates facts path,
      (!(candidates facts path).any fun w => w != u && reachesThrough u w) = (u == v) := by
    intro u hu
    rw [Bool.eq_iff_iff, beq_iff_eq, Bool.not_eq_true', List.any_eq_false]
    constructor
    · intro hnone
      by_contra hne
      have hsome : (v != u && reachesThrough u v) = true := by
        rw [hall u hu, Bool.and_true, bne_iff_ne]
        exact Ne.symm hne
      exact hnone v hmem hsome
    · rintro rfl w hw hsome
      obtain ⟨hne, huw⟩ := Bool.and_eq_true_iff.1 hsome
      exact bne_iff_ne.1 hne (isPartialOrder_reachesThrough.antisymm w u (hall w hw) huw)
  rw [protectedPaths_eq, List.filter_congr hkept, List.filter_beq,
    List.count_eq_one_of_mem (nodup_candidates facts path) hmem]
  rfl

/-- Reaching through is a partial order on texts that never ends inside a component and looks up no byte
past the end of a text. It orders the paths that a guard protects for one dereference totally, and where
there are any, the shortest of them is the one that is kept. -/
theorem subsumption_leaves_one (facts : List Fact) (path : String) :
    IsPartialOrder String (fun v w => reachesThrough v w = true) ∧
      (∀ v w, reachesThrough v w = true ↔ components w <+: components v) ∧
      (∀ v w, reachesInBytes? v w = some (reachesThrough v w)) ∧
      (∀ v ∈ candidates facts path, ∀ w ∈ candidates facts path,
        reachesThrough v w = true ∨ reachesThrough w v = true) ∧
      (candidates facts path = [] ∧ protectedPaths facts path = [] ∨
        ∃ v ∈ candidates facts path, protectedPaths facts path = [v] ∧
          ∀ w ∈ candidates facts path, w ≠ v → v.utf8ByteSize < w.utf8ByteSize) := by
  refine ⟨isPartialOrder_reachesThrough, fun _ _ => reachesThrough_iff_components, reachesInBytes?_eq,
    fun _ hv _ hw => candidates_total hv hw, ?_⟩
  by_cases hnone : candidates facts path = []
  · exact .inl ⟨hnone, by rw [protectedPaths_eq, hnone, List.filter_nil]⟩
  · obtain ⟨v, hmem, hall⟩ := exists_outermost hnone
    exact .inr ⟨v, hmem, protectedPaths_of_outermost hmem hall,
      fun w hw hne => utf8ByteSize_lt_of_reachesThrough (hall w hw) hne⟩

/-- A guard that says something about `a`, `a.b` and `ab` protects `a.b.c` through `a` alone. -/
theorem subsumption_leaves_one_threePaths :
    let facts : List Fact := [("a.b", .null), ("a", .falsey), ("ab", .undefined)]
    candidates facts "a.b.c" = ["a.b", "a"] ∧ protectedPaths facts "a.b.c" = ["a"] := by
  intro facts
  have hcandidates : candidates facts "a.b.c" = ["a.b", "a"] := by decide
  refine ⟨hcandidates, ?_⟩
  obtain ⟨-, -, -, -, ⟨hnone, -⟩ | ⟨v, hmem, hpaths, hshort⟩⟩ := subsumption_leaves_one facts "a.b.c"
  · rw [hcandidates] at hnone
    cases hnone
  · rw [hcandidates] at hmem hshort
    rcases List.mem_cons.1 hmem with rfl | hmem
    · exact absurd (hshort "a" (by simp) (by decide)) (by decide)
    · rw [hpaths, List.mem_singleton.1 hmem]

end Detector

end Mend
