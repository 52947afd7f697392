import Mathlib.Data.List.TakeWhile
import Mathlib.Tactic.Lemma
import Mend.Provenance

/-!
# The name of a project

The last part of a location is what stands before the slashes at its end and behind the separator before that
(`lastPart_eq_iff`). A project is named for this part, so its name is a text without separators
(`not_endsPart_of_mem_projectName`), and any text but `project` is the name for the locations that end in it, or
in it with `.git` behind it (`projectName_eq_iff`).
-/

namespace Mend.Provenance

/-- What a part of a location may end in that does not count as part of a name. -/
def ending : List Char := ".git".toList

/-- A slash of either kind. -/
def isAnySlash (c : Char) : Bool := c == '/' || c == '\\'

/-- `part` is the last part of a location, but for slashes at the end. -/
def EndsIn (location part : String) : Prop :=
  ∃ front slashes : List Char, location.toList = front ++ part.toList ++ slashes ∧
    (∀ c ∈ front.getLast?, endsPart c = true) ∧ (∀ c ∈ part.toList, endsPart c = false) ∧
    ∀ c ∈ slashes, isAnySlash c = true

/-- The last part of a location. -/
def lastPart (location : String) : List Char :=
  ((location.toList.reverse.dropWhile isAnySlash).takeWhile fun c => !endsPart c).reverse

/-- A name, or another one in place of none. -/
def orProject (name : List Char) : String := if name.isEmpty then "project" else String.ofList name

variable {location name part : String} {c : Char}

/-! ## The last part of a location -/

lemma isAnySlash_eq_false (h : endsPart c = false) : isAnySlash c = false :=
  (Bool.or_eq_false_iff.1 h).1

lemma not_endsPart_of_mem_lastPart (h : c ∈ lastPart location) : endsPart c = false := by
  have hkept := List.mem_takeWhile_imp (List.mem_reverse.1 h)
  exact (Bool.not_eq_true' _).mp hkept

/-- A location ends in its last part. -/
lemma endsIn_lastPart (location : String) : EndsIn location (String.ofList (lastPart location)) := by
  let slashes := location.toList.reverse.takeWhile isAnySlash
  let trimmed := location.toList.reverse.dropWhile isAnySlash
  let rest := trimmed.dropWhile fun c => !endsPart c
  have hparts : location.toList.reverse = slashes ++ ((lastPart location).reverse ++ rest) := by
    rw [lastPart, List.reverse_reverse, List.takeWhile_append_dropWhile, List.takeWhile_append_dropWhile]
  refine ⟨rest.reverse, slashes.reverse, ?_, ?_, ?_, ?_⟩
  · rw [← List.reverse_reverse location.toList, hparts, String.toList_ofList, List.reverse_append,
      List.reverse_append, List.reverse_reverse]
  · intro c hc
    have hstop := List.head?_dropWhile_not (fun c => !endsPart c) trimmed
    rw [List.getLast?_reverse] at hc
    rw [Option.mem_def.1 hc] at hstop
    exact (Bool.not_eq_false' _).mp hstop
  · rw [String.toList_ofList]
    exact fun c => not_endsPart_of_mem_lastPart
  · exact fun c hc => List.mem_takeWhile_imp (List.mem_reverse.1 hc)

/-- A text that is not empty is the last part of the locations that end in it, and of no others. -/
lemma lastPart_eq_iff (hne : part ≠ "") : lastPart location = part.toList ↔ EndsIn location part := by
  constructor
  · intro h
    have hends := endsIn_lastPart location
    rwa [h, String.ofList_toList] at hends
  · rintro ⟨front, slashes, hlocation, hfront, hpart, hslashes⟩
    obtain ⟨last, r, hlast⟩ : ∃ last r, part.toList.reverse = last :: r :=
      List.exists_cons_of_ne_nil (by simpa using hne)
    have hmem : ∀ c ∈ part.toList.reverse, endsPart c = false := fun c hc => hpart c (List.mem_reverse.1 hc)
    have htrim : location.toList.reverse.dropWhile isAnySlash = part.toList.reverse ++ front.reverse := by
      have hstop := isAnySlash_eq_false (hmem last (hlast ▸ List.mem_cons_self))
      rw [hlocation, List.reverse_append, List.reverse_append,
        List.dropWhile_append_of_pos fun c hc => hslashes c (List.mem_reverse.1 hc), hlast, List.cons_append,
        List.dropWhile_cons_of_neg (Bool.eq_false_iff.1 hstop)]
    have hfront : front.reverse.takeWhile (fun c => !endsPart c) = [] := by
      cases hf : front.reverse with
      | nil => rfl
      | cons c r =>
        have hc : endsPart c = true := hfront c (by rw [← List.head?_reverse, hf]; rfl)
        rw [List.takeWhile_cons, hc]
        rfl
    rw [lastPart, htrim, List.takeWhile_append_of_pos fun c hc => by rw [hmem c hc]; rfl, hfront,
      List.append_nil, List.reverse_reverse]

/-! ## The name -/

/-- A project is named for the last part of its location, and an ending is left out. -/
lemma projectName_cases (location : String) :
    (∃ stem, lastPart location = stem ++ ending ∧ projectName location = orProject stem) ∨
      ¬ending <:+ lastPart location ∧ projectName location = orProject (lastPart location) := by
  let last := (location.toList.reverse.dropWhile isAnySlash).takeWhile fun c => !endsPart c
  have hlast : last = (lastPart location).reverse := (List.reverse_reverse last).symm
  have hname : projectName location = orProject
      (if ending.reverse.isPrefixOf last then last.drop ending.reverse.length else last).reverse := by
    rw [orProject, List.isEmpty_reverse]
    rfl
  rw [hname, hlast]
  split
  · next h =>
    obtain ⟨stem, hstem⟩ := List.reverse_prefix.1 (List.isPrefixOf_iff_prefix.1 h)
    refine .inl ⟨stem, hstem.symm, ?_⟩
    rw [← hstem, List.reverse_append, List.drop_left, List.reverse_reverse]
  · next h =>
    refine .inr ⟨fun hsuffix => h (List.isPrefixOf_iff_prefix.2 (List.reverse_prefix.2 hsuffix)), ?_⟩
    rw [List.reverse_reverse]

lemma orProject_ne_empty (l : List Char) : orProject l ≠ "" := by
  rw [orProject]
  split
  · decide
  · next h => simpa using h

lemma orProject_eq_iff {l : List Char} (hne : name ≠ "") (hproject : name ≠ "project") :
    orProject l = name ↔ l = name.toList := by
  rw [orProject]
  split
  · next h =>
    rw [List.isEmpty_iff.1 h]
    exact iff_of_false hproject.symm fun heq => hne (String.toList_eq_nil_iff.1 heq.symm)
  · rw [← String.toList_inj, String.toList_ofList]

lemma not_endsPart_of_mem_orProject {l : List Char} (hl : ∀ c ∈ l, endsPart c = false)
    (hc : c ∈ (orProject l).toList) : endsPart c = false := by
  rw [orProject] at hc
  split at hc
  · have hall : "project".toList.all (fun c => !endsPart c) = true := by decide
    exact (Bool.not_eq_true' _).mp (List.all_eq_true.1 hall c hc)
  · rw [String.toList_ofList] at hc
    exact hl c hc

/-- A project is named for characters of a single part. -/
lemma exists_projectName_eq (location : String) :
    ∃ l, (∀ c ∈ l, endsPart c = false) ∧ projectName location = orProject l := by
  obtain ⟨stem, hstem, hname⟩ | ⟨-, hname⟩ := projectName_cases location
  · exact ⟨stem, fun c hc => not_endsPart_of_mem_lastPart (hstem ▸ List.mem_append_left _ hc), hname⟩
  · exact ⟨lastPart location, fun c => not_endsPart_of_mem_lastPart, hname⟩

/-- A project has a name. -/
lemma projectName_ne_empty (location : String) : projectName location ≠ "" := by
  obtain ⟨l, -, hname⟩ := exists_projectName_eq location
  exact hname ▸ orProject_ne_empty l

/-- The name of a project is a single part of a location. -/
lemma not_endsPart_of_mem_projectName (h : c ∈ (projectName location).toList) : endsPart c = false := by
  obtain ⟨l, hl, hname⟩ := exists_projectName_eq location
  exact not_endsPart_of_mem_orProject hl (hname ▸ h)

/-- The locations of the projects with one name. -/
lemma projectName_eq_iff (hne : name ≠ "") (hproject : name ≠ "project") : projectName location = name ↔
    EndsIn location name ∧ ¬ending <:+ name.toList ∨ EndsIn location (name ++ ".git") := by
  have hlong : name ++ ".git" ≠ "" := fun h => hne (String.append_eq_empty_iff.1 h).1
  rw [← lastPart_eq_iff hne, ← lastPart_eq_iff hlong, String.toList_append]
  change _ ↔ lastPart location = name.toList ∧ _ ∨ lastPart location = name.toList ++ ending
  obtain ⟨stem, hstem, h⟩ | ⟨hnot, h⟩ := projectName_cases location
  · rw [h, orProject_eq_iff hne hproject, hstem, List.append_left_inj]
    refine ⟨.inr, fun hcases => hcases.resolve_left ?_⟩
    rintro ⟨heq, hsuffix⟩
    exact hsuffix (heq ▸ List.suffix_append stem ending)
  · rw [h, orProject_eq_iff hne hproject]
    constructor
    · intro heq
      exact .inl ⟨heq, heq ▸ hnot⟩
    · rintro (⟨heq, -⟩ | heq)
      · exact heq
      · exact absurd (heq ▸ List.suffix_append name.toList ending) hnot

example : projectName "host:work/lib.git/" = "lib" := by decide +kernel

/-- The locations of the projects whose name leads from a folder to the folder itself. -/
lemma projectName_eq_here_iff : projectName location = "." ↔ EndsIn location "." ∨ EndsIn location "..git" := by
  rw [projectName_eq_iff (by decide) (by decide), and_iff_left (by decide)]
  rfl

/-- The locations of the projects whose name leads out of a folder. -/
lemma projectName_eq_outside_iff :
    projectName location = ".." ↔ EndsIn location ".." ∨ EndsIn location "...git" := by
  rw [projectName_eq_iff (by decide) (by decide), and_iff_left (by decide)]
  rfl

end Mend.Provenance
