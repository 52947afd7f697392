import Mend.Proofs.StackLoop
import Mend.Proofs.Syntax.Comments

/-!
# The fault that is reported

The parser marks a node just if it or something below it is an error or missing (`Concrete.Marked`). Then
nothing is lost by passing over what is not marked: the search for a fault, on a stack of trees
(`Concrete.search`) or by recursion (`Concrete.firstFault`), finds the first faulty node of the file
(`Concrete.firstFault_eq`), and there is one whenever the root is marked. So a text is refused just if there
is a faulty node, with the message and the line of the first (`Source.parse_marked`).
-/

namespace Mend.Syntax

/-- Text that the parser could not make sense of, or a token that it had to make up. -/
def Token.isFaulty (t : Token) : Bool := t.isError || t.isMissing

/-- What is said of a faulty node. If it is both, it counts as an error. -/
def Token.complaint (t : Token) : String :=
  if t.isError then "unexpected token" else "missing `" ++ t.kind ++ "`"

namespace Concrete

variable {f kids rest : Concrete} {t : Token}

/-- Every node is marked just if it or something below it is faulty. -/
def Marked : Concrete → Prop
  | .nil => True
  | .cons t kids rest =>
    (t.hasError = true ↔ ∃ u ∈ t :: kids.preorder, u.isFaulty = true) ∧ Marked kids ∧ Marked rest

instance instDecidableMarked : (f : Concrete) → Decidable f.Marked
  | .nil => isTrue trivial
  | .cons t kids rest =>
    have := instDecidableMarked kids
    have := instDecidableMarked rest
    inferInstanceAs (Decidable
      ((t.hasError = true ↔ ∃ u ∈ t :: kids.preorder, u.isFaulty = true) ∧ Marked kids ∧ Marked rest))

/-- Looks through a stack of trees for a fault. Of a marked node that is no fault itself the trees below come
onto the stack, the first on top. -/
def search : List (Token × Concrete) → Option (Fault × Nat)
  | [] => none
  | (t, kids) :: stack =>
    match faultOf t with
    | some fault => some (fault, t.row + 1)
    | none => if t.hasError then search (kids.trees ++ stack) else search stack
termination_by stack => (stack.map fun p => p.2.size + 1).sum
decreasing_by
  · rw [List.map_append, List.sum_append, Forest.sum_size_trees, List.map_cons, List.sum_cons]
    exact Nat.add_lt_add_right (Nat.lt_succ_self (Forest.size kids)) _
  · rw [List.map_cons, List.sum_cons]
    exact Nat.lt_add_of_pos_left (Nat.succ_pos _)

/-- The message and the line that are reported for a tree whose root is marked. -/
def report (root : Token) (kids : Concrete) : String × Nat :=
  match search [(root, kids)] with
  | some (fault, line) => (fault.message, line)
  | none => (Fault.unspecified.message, root.row + 1)

/-- The trees of a forest are searched as by recursion, before what lies below them on the stack. -/
lemma search_trees (f : Concrete) (stack : List (Token × Concrete)) :
    search (f.trees ++ stack) = (firstFault f).or (search stack) := by
  induction f generalizing stack with
  | nil => rfl
  | cons t kids rest ihk ihr =>
    rw [Forest.trees, List.cons_append, search, firstFault]
    cases faultOf t with
    | some fault => rfl
    | none =>
      dsimp only
      cases t.hasError with
      | true => rw [if_pos rfl, if_pos rfl, ihk, ihr, Option.or_assoc]
      | false => rw [if_neg Bool.false_ne_true, if_neg Bool.false_ne_true, ihr, Option.none_or]

lemma search_root (t : Token) (kids : Concrete) : search [(t, kids)] = firstFault (.cons t kids .nil) := by
  have h := search_trees (.cons t kids .nil) []
  rwa [search, Option.or_none] at h

/-- The fault of a node itself, with its line. -/
def located (t : Token) : Option (Fault × Nat) := (faultOf t).map fun fault => (fault, t.row + 1)

lemma located_of_isFaulty (h : t.isFaulty = true) :
    ∃ fault, located t = some (fault, t.row + 1) ∧ fault.message = t.complaint := by
  unfold Token.isFaulty at h
  unfold located faultOf Token.complaint
  cases he : t.isError with
  | true => exact ⟨_, rfl, rfl⟩
  | false =>
    rw [he, Bool.false_or] at h
    rw [h]
    exact ⟨_, rfl, rfl⟩

lemma located_eq_none (h : t.isFaulty = false) : located t = none := by
  obtain ⟨he, hm⟩ := Bool.or_eq_false_iff.1 h
  rw [located, faultOf, he, hm]
  rfl

/-- Nothing is found where nothing is faulty. -/
lemma findSome?_located_eq_none {l : List Token} (h : ∀ t ∈ l, t.isFaulty = false) : l.findSome? located = none :=
  List.findSome?_eq_none_iff.2 fun t ht => located_eq_none (h t ht)

/-- Passing over what is not marked loses nothing: the first fault is that of the first faulty node. -/
lemma firstFault_eq (h : Marked f) : firstFault f = f.preorder.findSome? located := by
  induction f with
  | nil => rfl
  | cons t kids rest ihk ihr =>
    obtain ⟨hmark, hkids, hrest⟩ := h
    rw [firstFault, Forest.preorder, List.findSome?_cons, List.findSome?_append, ← ihr hrest, located]
    cases hfault : faultOf t with
    | some fault => rfl
    | none =>
      dsimp only [Option.map_none]
      cases he : t.hasError with
      | true => rw [if_pos rfl, ihk hkids]
      | false =>
        have hclean : ∀ u ∈ kids.preorder, u.isFaulty = false := by
          intro u hu
          rw [Bool.eq_false_iff]
          intro hu'
          rw [hmark.2 ⟨u, List.mem_cons_of_mem t hu, hu'⟩] at he
          cases he
        rw [if_neg Bool.false_ne_true, findSome?_located_eq_none hclean]

lemma complaint_ne_message_unspecified (t : Token) : t.complaint ≠ Fault.unspecified.message := by
  intro h
  have hhead : t.complaint.toList.head? = some 's' := congrArg (·.toList.head?) h
  unfold Token.complaint at hhead
  split at hhead
  · exact absurd hhead (by decide)
  · have hmissing : ("missing `" ++ t.kind ++ "`").toList.head? = some 'm' := by
      rw [String.append_assoc, String.toList_append]
      rfl
    exact absurd (hmissing.symm.trans hhead) (by decide)

end Concrete

namespace Source

open Concrete

variable {s : Source} {root : Token} {kids : Concrete}

lemma parse_of_root (htree : s.tree = .cons root kids .nil) (side : Side) (simplify : Bool) :
    s.parse side simplify =
      if root.hasError then
        .error (.syntaxError side (report root kids).1 (report root kids).2)
      else .ok (s.read simplify) := by
  rw [parse, htree, Concrete.fault?, report, search_root]
  cases root.hasError with
  | true =>
    rw [if_pos rfl, if_pos rfl]
    cases firstFault (.cons root kids .nil) with
    | some fault => rfl
    | none => rfl
  | false => rfl

/-- A text is refused just if the parser's tree has a faulty node, and then with the complaint and the line of
the first one; that a fault is reported and none is found does not happen. -/
theorem parse_marked (htree : s.tree = .cons root kids .nil) (hmarked : Marked s.tree) (side : Side)
    (simplify : Bool) :
    ((∃ failure, s.parse side simplify = .error failure) ↔ ∃ t ∈ s.tree.preorder, t.isFaulty = true) ∧
    ∀ t, s.tree.preorder.find? (·.isFaulty) = some t →
      s.parse side simplify = .error (.syntaxError side t.complaint (t.row + 1)) ∧
      report root kids = (t.complaint, t.row + 1) ∧ t.complaint ≠ "syntax error" := by
  rw [parse_of_root htree]
  rw [htree] at hmarked ⊢
  have hroot : root.hasError = true ↔ ∃ t ∈ Forest.preorder (.cons root kids .nil), t.isFaulty = true := by
    rw [Forest.preorder, Forest.preorder, List.append_nil]
    exact hmarked.1
  refine ⟨?_, fun t ht => ?_⟩
  · rw [← hroot]
    cases root.hasError with
    | true => exact ⟨fun _ => rfl, fun _ => ⟨_, rfl⟩⟩
    | false =>
      constructor
      · rintro ⟨_, h⟩
        cases h
      · intro h
        cases h
  · obtain ⟨hfaulty, before, after, hsplit, hbefore⟩ := List.find?_eq_some_iff_append.1 ht
    have hbefore : ∀ u ∈ before, u.isFaulty = false := fun u hu => by simpa using hbefore u hu
    obtain ⟨fault, hlocated, hmessage⟩ := located_of_isFaulty hfaulty
    have hfirst : firstFault (.cons root kids .nil) = some (fault, t.row + 1) := by
      rw [firstFault_eq hmarked, hsplit, List.findSome?_append, findSome?_located_eq_none hbefore, Option.none_or,
        List.findSome?_cons, hlocated]
    have hreport : report root kids = (t.complaint, t.row + 1) := by
      rw [report, search_root, hfirst, ← hmessage]
    refine ⟨?_, hreport, complaint_ne_message_unspecified t⟩
    rw [if_pos (hroot.2 ⟨t, hsplit ▸ List.mem_append_right _ List.mem_cons_self, hfaulty⟩), hreport]

/-- A closing parenthesis that the parser made up. -/
def madeUp : Token := { Token.clean ")" none 2 2 with named := false, isMissing := true, hasError := true }

/-- The text `a(` in the first line and `b c` in the second, with the tree that has a token made up at the end
of the first line and text of no use in the second. -/
def twoFaults : Source :=
  ⟨"a(\nb c", .cons { Token.clean "program" none 0 6 with hasError := true }
    (.cons { Token.clean "expression_statement" none 0 2 with hasError := true }
      (.cons { Token.clean "call_expression" none 0 2 with hasError := true }
        (.cons (.clean "identifier" (some "function") 0 1) .nil
          (.cons { Token.clean "arguments" (some "arguments") 1 2 with hasError := true }
            (.cons madeUp .nil .nil) .nil)) .nil)
      (.cons { Token.clean "ERROR" none 3 6 with row := 1, isError := true, hasError := true }
        (.cons { Token.clean "identifier" none 3 4 with row := 1 } .nil
          (.cons { Token.clean "identifier" none 5 6 with row := 1 } .nil .nil)) .nil)) .nil⟩

/-- The token that is missing comes first. -/
theorem parse_marked_twoFaults : Marked twoFaults.tree ∧
    twoFaults.parse .repaired true = .error (.syntaxError .repaired "missing `)`" 1) := by
  have hmarked : Marked twoFaults.tree := by decide
  obtain ⟨-, hfirst⟩ := parse_marked rfl hmarked .repaired true
  exact ⟨hmarked, (hfirst madeUp rfl).1⟩

end Source

end Mend.Syntax
