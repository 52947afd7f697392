import Mend.Proofs.Batch.Gather
import Mend.Proofs.Detector.Guarded
import Mend.Proofs.Detector.Unlined

/-!
# What findings owe to line numbers

Two analyses that differ in the lines of nodes only should find the same repair patterns in the same functions.
What there is to say about two scopes (`Detector.said`) does not depend on lines (`Detector.said_unlined`). But of
what guards of one line protect the detector of special values says the first thing for each path
(`Detector.reports_newlyGuarded`), so that the sentinels of another guard of the line can get lost
(`Analysis.reports_differ_of_oneLine`). Nothing else gets lost, and nothing at all where the guards of a line
agree (`Analysis.reports_congr`).
-/

namespace Mend

open Syntax (Ast)

/-- The shape of a repair, sentinels left out. -/
def RepairPattern.bare : RepairPattern → RepairPattern
  | specialValueGuardAdded v _ => .specialValueGuardAdded v .empty
  | p => p

/-- What a finding says, its place left out. -/
def Finding.report (f : Finding) : String × RepairPattern := (f.function, f.pattern)

/-- What findings say, their places left out. -/
def Findings.reports (s : Findings) : List (String × RepairPattern) := s.toList.map Finding.report

namespace Detector

variable (x : Analysis) (old new node : Nat)

/-- What a finding reports does not depend on its line. -/
@[simp] lemma report_finding (line : Nat) (pattern : RepairPattern) :
    (x.finding new line pattern).report = (x.repairedScopes.name new, pattern) := rfl

/-- Without lines, the same protections are reported. -/
lemma reports_newlyProtected_unlined :
    (newlyProtected x.unlined old new).map Finding.report = (newlyProtected x old new).map Finding.report := by
  simp [newlyProtected, protectedCalls, Ast.calleeName?, List.map_flatMap, List.map_filterMap,
    apply_ite (Option.map Finding.report), Function.comp_def]

/-- Without lines, the same calls are inserted. -/
lemma insertedCalls_unlined (callback : String) :
    insertedCalls x.unlined node callback = insertedCalls x node callback := by
  simp [insertedCalls, isInsertedCallOf]

/-- Without lines, the same callbacks are reported. -/
lemma reports_newlyCalled_unlined :
    (newlyCalled x.unlined new).map Finding.report = (newlyCalled x new).map Finding.report := by
  simp only [newlyCalled, insertedCalls_unlined, Analysis.repaired_unlined, Analysis.repairedScopes_unlined,
    Analysis.isOld_unlined, Revision.toAst_unlined, ScopeTree.owner?_unlined, Ast.isFunction_unlined,
    Ast.firstParameterName?_unlined]
  (repeat' split) <;> simp

/-- Without lines, the same revisions test something. -/
lemma testsAnything_unlined (r : Revision) : testsAnything r.unlined = testsAnything r := by
  funext own
  simp [testsAnything]

/-- Without lines, the same names were guarded. -/
lemma wasGuarded_unlined (a : Ast) : wasGuarded a.unlined = wasGuarded a := by
  funext i path
  simp [wasGuarded]

/-- Without lines, each node protects the same paths. -/
lemma protections_unlined :
    protections x.unlined = fun node => (protections x node).map fun q => ⟨0, q.path, q.sentinels⟩ := by
  funext node
  simp only [protections, wasGuarded_unlined, Analysis.buggy_unlined, Analysis.repaired_unlined,
    Analysis.partner?_unlined, Analysis.isOld_unlined, Revision.toAst_unlined, Revision.change_unlined,
    Ast.dereferenced?_unlined, Ast.covers_unlined, Ast.ruledOut_unlined, Ast.line_unlined]
  (repeat' split) <;> simp [List.map_flatMap, Function.comp_def]

section FirstOfEach

variable {ps : List Protection} {q : Protection}

/-- One more protection is kept iff none of its line and path was. -/
lemma firstOfEach_append_singleton : firstOfEach (ps ++ [q]) =
    if (firstOfEach ps).any fun k => k.line == q.line && k.path == q.path then firstOfEach ps
    else firstOfEach ps ++ [q] := by
  rw [firstOfEach, List.foldl_append]
  rfl

/-- Only what was there is kept. -/
lemma mem_of_mem_firstOfEach (hq : q ∈ firstOfEach ps) : q ∈ ps := by
  induction ps using List.reverseRecOn with
  | nil => cases hq
  | append_singleton ps p ih =>
    rw [firstOfEach_append_singleton] at hq
    rw [List.mem_append]
    split at hq
    · exact .inl (ih hq)
    · exact (List.mem_append.1 hq).imp_left ih

/-- One protection is kept for every line and path. -/
lemma exists_mem_firstOfEach (hq : q ∈ ps) : ∃ k ∈ firstOfEach ps, k.line = q.line ∧ k.path = q.path := by
  induction ps using List.reverseRecOn with
  | nil => cases hq
  | append_singleton ps p ih =>
    rw [firstOfEach_append_singleton]
    rcases List.mem_append.1 hq with hq | hq
    · obtain ⟨k, hk, hsame⟩ := ih hq
      split
      · exact ⟨k, hk, hsame⟩
      · exact ⟨k, List.mem_append_left _ hk, hsame⟩
    · rw [List.mem_singleton] at hq
      subst hq
      split
      · next hany =>
        obtain ⟨k, hk, hsame⟩ := List.any_eq_true.1 hany
        rw [Bool.and_eq_true, beq_iff_eq, beq_iff_eq] at hsame
        exact ⟨k, hk, hsame⟩
      · exact ⟨q, List.mem_append_right _ (List.mem_singleton_self q), rfl, rfl⟩

end FirstOfEach

/-- What protects the dereferences of a repaired scope. -/
def raised : List Protection := (x.repairedScopes.ownNodes new).flatMap (protections x)

/-- Without lines, the same protections are raised. -/
lemma raised_unlined : raised x.unlined new = (raised x new).map fun q => ⟨0, q.path, q.sentinels⟩ := by
  simp [raised, List.map_flatMap, protections_unlined]

/-- What there is to say about two scopes, whichever lines it is said about. -/
def said : List (String × RepairPattern) :=
  (newlyProtected x old new).map Finding.report ++ ((newlyCalled x new).map Finding.report ++
    if testsAnything x.comparison.repaired (x.repairedScopes.ownNodes new) then
      (raised x new).map fun q => (x.repairedScopes.name new, .specialValueGuardAdded q.path q.sentinels)
    else [])

/-- Of what guards of one line protect, the detector says the first thing for each path. -/
lemma reports_newlyGuarded : (newlyGuarded x new).map Finding.report =
    if testsAnything x.comparison.repaired (x.repairedScopes.ownNodes new) then
      (firstOfEach (raised x new)).map fun q =>
        (x.repairedScopes.name new, .specialValueGuardAdded q.path q.sentinels)
    else [] := by
  simp [newlyGuarded, raised, apply_ite (List.map Finding.report), Function.comp_def]

/-- Without lines, a pair of scopes says the same. -/
lemma said_unlined : said x.unlined old new = said x old new := by
  simp [said, reports_newlyProtected_unlined, reports_newlyCalled_unlined, testsAnything_unlined, raised_unlined,
    Function.comp_def]

end Detector

namespace Analysis

variable {x y : Analysis} {old new : Nat} {r : String × RepairPattern}

/-- Collecting registers what the detectors find, visit by visit. -/
lemma collect_eq (detectors : List Detector) (found : Findings) :
    x.collect detectors found = found.registerAll (x.visits.flatMap (x.foundAt detectors)) := by
  rw [Findings.registerAll, List.foldl_flatMap]
  rfl

/-- The detectors look at a pair of scopes one after the other. -/
lemma foundAt_all (pair : ScopePair) : x.foundAt Detector.all pair = Detector.errorHandling.inScopes x pair ++
    (Detector.callbackError.inScopes x pair ++ Detector.specialValue.inScopes x pair) := by
  -- None of the three looks at single nodes.
  have hscopes : x.foundAt Detector.all pair = (Detector.all.flatMap fun d => d.inScopes x pair) ++ [] :=
    congrArg _ (List.flatMap_eq_nil_iff.2 fun _ _ => rfl)
  rw [hscopes, List.append_nil]
  simp [Detector.all]

/-- What the detectors do say of two scopes. -/
def saidAt (x : Analysis) (old new : Nat) : List (String × RepairPattern) :=
  (x.foundAt Detector.all ⟨some old, some new⟩).map Finding.report

/-- What a visit says is said by one of the three detectors. -/
lemma mem_saidAt : r ∈ x.saidAt old new ↔ r ∈ (Detector.newlyProtected x old new).map Finding.report ∨
    r ∈ (Detector.newlyCalled x new).map Finding.report ∨
      r ∈ (Detector.newlyGuarded x new).map Finding.report := by
  rw [saidAt, foundAt_all, List.map_append, List.map_append, List.mem_append, List.mem_append]
  rfl

/-- Something is found only where both scopes are there. -/
lemma exists_scopes_of_mem_foundAt {pair : ScopePair} {f : Finding} (hf : f ∈ x.foundAt Detector.all pair) :
    ∃ old new, pair = ⟨some old, some new⟩ := by
  rw [foundAt_all] at hf
  match pair with
  | ⟨none, _⟩ => cases hf
  | ⟨some _, none⟩ => cases hf
  | ⟨some old, some new⟩ => exact ⟨old, new, rfl⟩

/-- The reports are what the visits of pairs of scopes say. -/
lemma mem_reports : r ∈ (x.collect Detector.all .empty).reports ↔
    ∃ old new, ⟨some old, some new⟩ ∈ x.visits ∧ r ∈ x.saidAt old new := by
  have hcollected : ∀ f, f ∈ (x.collect Detector.all .empty).toList ↔
      f ∈ x.visits.flatMap (x.foundAt Detector.all) := fun f => by
    rw [collect_eq, Findings.toList_registerAll, List.mem_eraseDups]
    rfl
  constructor
  · intro hr
    obtain ⟨f, hf, rfl⟩ := List.mem_map.1 hr
    obtain ⟨pair, hpair, hf⟩ := List.mem_flatMap.1 ((hcollected f).1 hf)
    obtain ⟨old, new, rfl⟩ := exists_scopes_of_mem_foundAt hf
    exact ⟨old, new, hpair, List.mem_map_of_mem hf⟩
  · rintro ⟨old, new, hvisit, hr⟩
    obtain ⟨f, hf, rfl⟩ := List.mem_map.1 hr
    exact List.mem_map_of_mem ((hcollected f).2 (List.mem_flatMap.2 ⟨_, hvisit, hf⟩))

open Detector (said raised)

/-- What the detectors say is there to be said. -/
lemma said_of_mem_saidAt (hr : r ∈ x.saidAt old new) : r ∈ said x old new := by
  unfold said
  rw [List.mem_append, List.mem_append]
  refine (mem_saidAt.1 hr).imp_right (Or.imp_right fun hr => ?_)
  rw [Detector.reports_newlyGuarded] at hr
  split at hr
  · next htests =>
    obtain ⟨q, hq, rfl⟩ := List.mem_map.1 hr
    rw [if_pos htests]
    exact List.mem_map.2 ⟨q, Detector.mem_of_mem_firstOfEach hq, rfl⟩
  · cases hr

/-- What there is to be said is said, or else a guard of the same line is said to protect the same path. -/
lemma saidAt_of_mem_said (hr : r ∈ said x old new) : r ∈ x.saidAt old new ∨
    ∃ q ∈ raised x new, ∃ k ∈ raised x new, k.line = q.line ∧ k.path = q.path ∧
      r = (x.repairedScopes.name new, .specialValueGuardAdded q.path q.sentinels) ∧
      (x.repairedScopes.name new, .specialValueGuardAdded k.path k.sentinels) ∈ x.saidAt old new := by
  unfold said at hr
  rcases List.mem_append.1 hr with hr | hr
  · exact .inl (mem_saidAt.2 (.inl hr))
  rcases List.mem_append.1 hr with hr | hr
  · exact .inl (mem_saidAt.2 (.inr (.inl hr)))
  split at hr
  · next htests =>
    obtain ⟨q, hq, rfl⟩ := List.mem_map.1 hr
    obtain ⟨k, hk, hline, hpath⟩ := Detector.exists_mem_firstOfEach hq
    refine .inr ⟨q, hq, k, Detector.mem_of_mem_firstOfEach hk, hline, hpath, rfl, mem_saidAt.2 (.inr (.inr ?_))⟩
    rw [Detector.reports_newlyGuarded, if_pos htests]
    exact List.mem_map.2 ⟨k, hk, rfl⟩
  · cases hr

/-- Guards of one line of a scope protect a path from the same sentinels. -/
def GuardsAgree (x : Analysis) : Prop :=
  ∀ pair ∈ x.visits, pair.buggy.isSome → ∀ new ∈ pair.repaired, ∀ q ∈ raised x new, ∀ k ∈ raised x new,
    k.line = q.line → k.path = q.path → k.sentinels = q.sentinels

instance (x : Analysis) : Decidable x.GuardsAgree :=
  inferInstanceAs (Decidable (∀ pair ∈ x.visits, pair.buggy.isSome → ∀ new ∈ pair.repaired,
    ∀ q ∈ raised x new, ∀ k ∈ raised x new, k.line = q.line → k.path = q.path → k.sentinels = q.sentinels))

/-- Where guards agree, what a pair of scopes says is said at its visit. -/
lemma GuardsAgree.saidAt_of_mem_said (h : x.GuardsAgree) (hvisit : ⟨some old, some new⟩ ∈ x.visits)
    (hr : r ∈ said x old new) : r ∈ x.saidAt old new := by
  rcases Analysis.saidAt_of_mem_said hr with hr | ⟨q, hq, k, hk, hline, hpath, rfl, hsaid⟩
  · exact hr
  · rwa [← hpath, ← h _ hvisit rfl new rfl q hq k hk hline hpath]

/-- Whatever there is to be said is said by the detectors, the sentinels of guards left out. -/
lemma exists_saidAt_of_mem_said (hr : r ∈ said x old new) :
    ∃ r' ∈ x.saidAt old new, r'.1 = r.1 ∧ r'.2.bare = r.2.bare := by
  rcases saidAt_of_mem_said hr with hr | ⟨q, -, k, -, -, hpath, rfl, hsaid⟩
  · exact ⟨r, hr, rfl, rfl⟩
  · exact ⟨_, hsaid, rfl, by rw [RepairPattern.bare, RepairPattern.bare, hpath]⟩

section Unlined

variable (h : x.unlined = y.unlined)

include h

/-- Analyses that are one without lines make the same visits. -/
lemma visits_congr : x.visits = y.visits := by
  rw [← visits_unlined, h, visits_unlined]

/-- Analyses that are one without lines say the same of each pair of scopes. -/
lemma said_congr (old new : Nat) : said x old new = said y old new := by
  rw [← Detector.said_unlined, h, Detector.said_unlined]

end Unlined

/-- Whatever is said of an analysis, the sentinels of guards left out, is said of it with any other lines. -/
lemma exists_report_of_unlined_eq (h : x.unlined = y.unlined)
    (hr : r ∈ (x.collect Detector.all .empty).reports) :
    ∃ r' ∈ (y.collect Detector.all .empty).reports, r'.1 = r.1 ∧ r'.2.bare = r.2.bare := by
  obtain ⟨old, new, hvisit, hr⟩ := mem_reports.1 hr
  rw [visits_congr h] at hvisit
  have hsaid := said_of_mem_saidAt hr
  rw [said_congr h] at hsaid
  obtain ⟨r', hr', hsame⟩ := exists_saidAt_of_mem_said hsaid
  exact ⟨r', mem_reports.2 ⟨old, new, hvisit, hr'⟩, hsame⟩

/-- What one analysis reports, the other does. -/
lemma GuardsAgree.mem_reports (hy : y.GuardsAgree) (h : x.unlined = y.unlined)
    (hr : r ∈ (x.collect Detector.all .empty).reports) : r ∈ (y.collect Detector.all .empty).reports := by
  obtain ⟨old, new, hvisit, hr⟩ := Analysis.mem_reports.1 hr
  rw [visits_congr h] at hvisit
  have hsaid := said_of_mem_saidAt hr
  rw [said_congr h] at hsaid
  exact Analysis.mem_reports.2 ⟨old, new, hvisit, hy.saidAt_of_mem_said hvisit hsaid⟩

/-- The sentinels of guards left out, what is found where does not depend on the lines of nodes. With the
sentinels it does not either, as far as no two guards of one line protect a path from different sentinels. -/
theorem reports_congr (h : x.unlined = y.unlined) :
    (∀ function pattern,
      (∃ r ∈ (x.collect Detector.all .empty).reports, r.1 = function ∧ r.2.bare = pattern) ↔
        ∃ r ∈ (y.collect Detector.all .empty).reports, r.1 = function ∧ r.2.bare = pattern) ∧
    (x.GuardsAgree → y.GuardsAgree →
      ∀ r, r ∈ (x.collect Detector.all .empty).reports ↔ r ∈ (y.collect Detector.all .empty).reports) := by
  refine ⟨fun function pattern => ⟨?_, ?_⟩, fun hx hy r => ⟨hy.mem_reports h, hx.mem_reports h.symm⟩⟩
  · rintro ⟨r, hr, rfl, rfl⟩
    exact exists_report_of_unlined_eq h hr
  · rintro ⟨r, hr, rfl, rfl⟩
    exact exists_report_of_unlined_eq h.symm hr

/-- Two early exits before a dereference, the first on the line `first`, the rest on the line `second`. -/
def exitsOn (first second : Nat) : Ast :=
  .ofForest "if (!o) throw 0; if (o === null) throw 0; o.x;" <|
    .cons ⟨"program", none, "", 0, 46, first⟩
      (.cons ⟨"if_statement", none, "", 0, 16, first⟩
        (.cons ⟨"parenthesized_expression", some "condition", "", 3, 7, first⟩
          (.cons ⟨"unary_expression", none, "!", 4, 6, first⟩
            (.cons ⟨"identifier", some "argument", "o", 5, 6, first⟩ .nil .nil) .nil)
          (.cons ⟨"throw_statement", some "consequence", "", 8, 16, first⟩
            (.cons ⟨"number", none, "0", 14, 15, first⟩ .nil .nil) .nil))
        (.cons ⟨"if_statement", none, "", 17, 41, second⟩
          (.cons ⟨"parenthesized_expression", some "condition", "", 20, 32, second⟩
            (.cons ⟨"binary_expression", none, "===", 21, 31, second⟩
              (.cons ⟨"identifier", some "left", "o", 21, 22, second⟩ .nil
                (.cons ⟨"null", some "right", "null", 27, 31, second⟩ .nil .nil)) .nil)
            (.cons ⟨"throw_statement", some "consequence", "", 33, 41, second⟩
              (.cons ⟨"number", none, "0", 39, 40, second⟩ .nil .nil) .nil))
          (.cons ⟨"expression_statement", none, "", 42, 46, second⟩
            (.cons ⟨"member_expression", none, "", 42, 45, second⟩
              (.cons ⟨"identifier", some "object", "o", 42, 43, second⟩ .nil
                (.cons ⟨"property_identifier", some "property", "x", 44, 45, second⟩ .nil .nil)) .nil) .nil))) .nil

/-- The dereference alone, compared with the dereference after both exits. -/
def exits (first second : Nat) : Analysis :=
  .of .empty <| .ofClassified <| Matching.classifiedBy Detector.unguarded (exitsOn first second) <|
    [(0, 0), (1, 14), (2, 15), (3, 16), (4, 17)].foldl (fun m (s, d) => m.link s d) (.empty 5 18)

/-- Without lines, where the two exits stand makes no difference. -/
lemma unlined_exits (first second first' second' : Nat) :
    (exits first second).unlined = (exits first' second').unlined := by
  have hexits : (exitsOn first second).unlined = (exitsOn first' second').unlined := rfl
  simp only [exits, ← of_unlined, ← Comparison.ofClassified_unlined, ← Matching.classifiedBy_unlined, hexits]

/-- With the exits on different lines both sentinels are reported, whichever lines these are. -/
theorem reports_congr_exits : (exits 1 2).unlined = (exits 4 3).unlined ∧
    (exits 1 2).GuardsAgree ∧ (exits 4 3).GuardsAgree ∧
    (∀ r, r ∈ ((exits 1 2).collect Detector.all .empty).reports ↔
      r ∈ ((exits 4 3).collect Detector.all .empty).reports) ∧
    ((exits 1 2).collect Detector.all .empty).reports =
      [("~script~", .specialValueGuardAdded "o" (.single .falsey)),
        ("~script~", .specialValueGuardAdded "o" (.single .null))] := by
  have hagree : (exits 1 2).GuardsAgree := by decide +kernel
  have hagree' : (exits 4 3).GuardsAgree := by decide +kernel
  obtain ⟨-, hsame⟩ := reports_congr (unlined_exits 1 2 4 3)
  exact ⟨unlined_exits 1 2 4 3, hagree, hagree', hsame hagree hagree', by decide +kernel⟩

/-- With both exits on one line the second sentinel is not reported. -/
theorem reports_differ_of_oneLine : (exits 1 1).unlined = (exits 1 2).unlined ∧
    ¬ ∀ r, r ∈ ((exits 1 1).collect Detector.all .empty).reports ↔
      r ∈ ((exits 1 2).collect Detector.all .empty).reports := by
  have hone : ((exits 1 1).collect Detector.all .empty).reports =
      [("~script~", .specialValueGuardAdded "o" (.single .falsey))] := by decide +kernel
  have htwo : ("~script~", .specialValueGuardAdded "o" (.single .null)) ∈
      ((exits 1 2).collect Detector.all .empty).reports := by decide +kernel
  refine ⟨unlined_exits 1 1 1 2, fun hsame => ?_⟩
  have hmem := (hsame _).2 htwo
  rw [hone] at hmem
  revert hmem
  decide

end Analysis

end Mend
