import Mend.Proofs.Flow.Draft
import Mend.Proofs.Flow.Skeleton

/-!
# Jumps and the frames around them

A skeleton obeys rules about its jumps (`Stmt.Obeys`) if they hold of every jump, given the frames of the
constructs around it. One such rule holds of every program whose `switch` statements hold clauses only
(`obeys_skeleton`): where the frame that takes a `continue` is not that of a loop, the `continue` names the
label of a statement around it that is not itself a loop (`Ast.IsStray`).
-/

namespace Mend.Flow

/-- What is required of a skeleton. -/
structure Rules where
  /-- Of a jump, given the frames around it. -/
  jump : Nat → Bool → Option String → List Frame → Prop
  /-- Where a `switch` statement holds something that is no clause. -/
  gap : Prop

/-- Where the frame that takes a `continue` is not that of a loop, the `continue` has the property `S`, and
`switch` statements hold clauses only. -/
def Rules.straying (S : Nat → Prop) : Rules where
  jump node isContinue label frames := ∀ frame, frames.find? (·.accepts isContinue label) = some frame →
    isContinue = true → frame.isLoop = false → S node
  gap := False

/-- A frame takes every jump. -/
def Rules.landing : Rules where
  jump _ isContinue label frames := frames.any (·.accepts isContinue label) = true
  gap := True

/-- No jump is a `continue`. -/
def Rules.breaking : Rules where
  jump _ isContinue _ _ := isContinue = false
  gap := True

mutual

/-- A statement with these frames around it follows the rules. -/
def Stmt.Obeys (R : Rules) : List Frame → Stmt → Prop
  | _, .skip | _, .plain _ | _, .ret _ | _, .throw _ => True
  | frames, .seq first rest => first.Obeys R frames ∧ rest.Obeys R frames
  | frames, .jump node isContinue label => R.jump node isContinue label frames
  | frames, .branch _ _ onTrue onFalse => onTrue.Obeys R frames ∧ onFalse.Obeys R frames
  | frames, .whileLoop _ label _ body | frames, .doLoop _ label _ body
  | frames, .forLoop _ label _ _ _ body | frames, .forEach _ label _ body =>
    body.Obeys R (⟨label, true, true⟩ :: frames)
  | frames, .switch _ _ clauses => clauses.Obeys R (⟨none, false, true⟩ :: frames)
  | frames, .tryCatch _ body _ catchBody _ finallyBody =>
    body.Obeys R frames ∧ catchBody.Obeys R frames ∧ finallyBody.Obeys R frames
  | frames, .labelled _ label body => body.Obeys R (⟨label, false, false⟩ :: frames)

/-- Clauses with these frames around them follow the rules. -/
def Clauses.Obeys (R : Rules) : List Frame → Clauses → Prop
  | _, .nil => True
  | frames, .onCase _ body rest | frames, .onDefault body rest =>
    body.Obeys R frames ∧ rest.Obeys R frames
  | frames, .gap rest => R.gap ∧ rest.Obeys R frames

end

mutual

/-- Whether a statement follows the rules. -/
def Stmt.decideObeys (R : Rules) [∀ n isContinue label frames, Decidable (R.jump n isContinue label frames)]
    [Decidable R.gap] (frames : List Frame) : (s : Stmt) → Decidable (s.Obeys R frames)
  | .skip | .plain _ | .ret _ | .throw _ => isTrue trivial
  | .seq first rest => @instDecidableAnd _ _ (first.decideObeys R frames) (rest.decideObeys R frames)
  | .jump node isContinue label => inferInstanceAs (Decidable (R.jump node isContinue label frames))
  | .branch _ _ onTrue onFalse =>
    @instDecidableAnd _ _ (onTrue.decideObeys R frames) (onFalse.decideObeys R frames)
  | .whileLoop _ label _ body | .doLoop _ label _ body | .forLoop _ label _ _ _ body
  | .forEach _ label _ body => body.decideObeys R (⟨label, true, true⟩ :: frames)
  | .switch _ _ clauses => clauses.decideObeys R (⟨none, false, true⟩ :: frames)
  | .tryCatch _ body _ catchBody _ finallyBody =>
    @instDecidableAnd _ _ (body.decideObeys R frames)
      (@instDecidableAnd _ _ (catchBody.decideObeys R frames) (finallyBody.decideObeys R frames))
  | .labelled _ label body => body.decideObeys R (⟨label, false, false⟩ :: frames)

/-- Whether clauses follow the rules. -/
def Clauses.decideObeys (R : Rules) [∀ n isContinue label frames, Decidable (R.jump n isContinue label frames)]
    [Decidable R.gap] (frames : List Frame) : (s : Clauses) → Decidable (s.Obeys R frames)
  | .nil => isTrue trivial
  | .onCase _ body rest | .onDefault body rest =>
    @instDecidableAnd _ _ (body.decideObeys R frames) (rest.decideObeys R frames)
  | .gap rest => @instDecidableAnd _ _ inferInstance (rest.decideObeys R frames)

end

instance (s : Stmt) (frames : List Frame) : Decidable (s.Obeys .landing frames) :=
  have : ∀ n isContinue label frames, Decidable (Rules.landing.jump n isContinue label frames) :=
    fun _ _ _ _ => inferInstanceAs (Decidable (_ = true))
  have : Decidable Rules.landing.gap := isTrue trivial
  s.decideObeys .landing frames

/-- Statements in a row obey the rules if each does. -/
lemma Stmt.obeys_ofList {R : Rules} {frames : List Frame} {l : List Stmt}
    (h : ∀ s ∈ l, s.Obeys R frames) : (Stmt.ofList l).Obeys R frames := by
  induction l with
  | nil => trivial
  | cons s l ih =>
    exact ⟨h s List.mem_cons_self, ih fun t ht => h t (List.mem_cons_of_mem _ ht)⟩

/-- What holds of the jumps before a clause and of those in it holds of both. -/
lemma Stmt.jumps_layOutClause {P : Jump → Prop} {c : Context} {body : Stmt} {l : Layout} (clause : Option Nat)
    (hl : ∀ j ∈ l.jumps, P j) (hbody : ∀ d ways, ∀ j ∈ (body.layOut c d ways).jumps, P j) :
    ∀ j ∈ (body.layOutClause c l clause).jumps, P j := by
  cases clause with
  | none => exact hl
  | some n => exact List.forall_mem_append.2 ⟨hl, hbody _ _⟩

/-- What holds of the jumps of a layout holds of those that pass through it. -/
lemma Layout.jumps_passing {P : Jump → Prop} {l : Layout} (depth : Nat) (h : ∀ j ∈ l.jumps, P j) :
    ∀ j ∈ l.passing depth, P j :=
  fun j hj => h j (mem_passing.1 hj).1

mutual

/-- Every jump under way comes from a statement that follows the rules. -/
theorem Stmt.jumps_layOut {R : Rules} (c : Context) (d : Draft) (ways : List Way) (s : Stmt)
    (hs : s.Obeys R c.frames) :
    ∀ j ∈ (s.layOut c d ways).jumps, ∃ node label frames, R.jump node j.isContinue label frames := by
  match s with
  | .skip | .plain _ | .ret _ | .throw _ => nofun
  | .seq first rest =>
    rw [Stmt.layOut]
    exact List.forall_mem_append.2 ⟨first.jumps_layOut c _ _ hs.1, rest.jumps_layOut c _ _ hs.2⟩
  | .jump node isContinue label =>
    rw [Stmt.layOut]
    cases c.target? isContinue label with
    | none => nofun
    | some depth => exact List.forall_mem_map.2 fun _ _ => ⟨node, label, c.frames, hs⟩
  | .branch node condition onTrue onFalse =>
    rw [layOut_branch]
    exact List.forall_mem_append.2 ⟨onTrue.jumps_layOut c _ _ hs.1, onFalse.jumps_layOut c _ _ hs.2⟩
  | .whileLoop node label condition body =>
    rw [layOut_whileLoop]
    exact Layout.jumps_passing _ (body.jumps_layOut (c.enter ⟨label, true, true⟩) _ _ hs)
  | .doLoop node label condition body =>
    rw [layOut_doLoop]
    exact Layout.jumps_passing _ (body.jumps_layOut (c.enter ⟨label, true, true⟩) _ _ hs)
  | .forLoop node label start condition step body =>
    rw [layOut_forLoop]
    exact Layout.jumps_passing _ (body.jumps_layOut (c.enter ⟨label, true, true⟩) _ _ hs)
  | .forEach node label iterated body =>
    rw [layOut_forEach]
    exact Layout.jumps_passing _ (body.jumps_layOut (c.enter ⟨label, true, true⟩) _ _ hs)
  | .switch node selector clauses =>
    rw [layOut_switch]
    exact Layout.jumps_passing _ (clauses.jumps_layOut (c.enter ⟨none, false, true⟩) _ _ _ _ hs)
  | .tryCatch node body catchNode catchBody finallyNode finallyBody =>
    rw [layOut_tryCatch]
    extract_lets catcher finisher b k f
    have hb := body.jumps_layOut { c with handler := some ((catcher.2.or finisher.2).getD exitNode) }
      finisher.1 ways hs.1
    have hk := Stmt.jumps_layOutClause catcher.2 hb fun d ways =>
      catchBody.jumps_layOut { c with handler := finisher.2.or c.handler } d ways hs.2.1
    refine Stmt.jumps_layOutClause finisher.2 ?_ fun d ways => finallyBody.jumps_layOut c d ways hs.2.2
    cases finisher.2 <;> exact hk
  | .labelled node label body =>
    rw [layOut_labelled]
    exact Layout.jumps_passing _ (body.jumps_layOut (c.enter ⟨label, false, false⟩) _ _ hs)
termination_by structural s

/-- Each jump that clauses leave open obeys the rules at its node. -/
theorem Clauses.jumps_layOut {R : Rules} (c : Context) (branch : Nat) (selector : Option Nat) (d : Draft)
    (falling : List Way) (s : Clauses) (hs : s.Obeys R c.frames) :
    ∀ j ∈ (s.layOut c branch selector d falling).jumps,
      ∃ node label frames, R.jump node j.isContinue label frames := by
  match s with
  | .nil => nofun
  | .onCase value body rest =>
    rw [Clauses.layOut]
    exact List.forall_mem_append.2 ⟨body.jumps_layOut c _ _ hs.1, rest.jumps_layOut c _ _ _ _ hs.2⟩
  | .onDefault body rest =>
    rw [Clauses.layOut]
    exact List.forall_mem_append.2 ⟨body.jumps_layOut c _ _ hs.1, rest.jumps_layOut c _ _ _ _ hs.2⟩
  | .gap rest =>
    rw [Clauses.layOut]
    exact rest.jumps_layOut c branch selector d [] hs.2
termination_by structural s

end

end Mend.Flow

namespace Mend.Syntax.Ast

open Mend.Flow (Stmt Clauses Frame Rules)

/-- Whether a labelled statement is a loop with a label. -/
def labelsLoop (a : Ast) (i : Nat) : Bool := ((a.child? i "body").map a.kind).any loopKinds.contains

/-- A `continue` that names the label of a statement around it which is not itself a loop. -/
def IsStray (a : Ast) (node : Nat) : Prop :=
  a.kind node = "continue_statement" ∧ ∃ i label, a.kind i = "labeled_statement" ∧ a.labelsLoop i = false ∧
    a.contains i node = true ∧ a.labelText? i = some label ∧ a.labelText? node = some label

/-- The bodies of `switch` statements hold clauses only. -/
def SwitchesHoldClauses (a : Ast) : Prop :=
  ∀ i body, a.kind i = "switch_statement" → a.child? i "body" = some body →
    ∀ c ∈ a.children body, a.isClause c = true

variable {a : Ast} {i j : Nat} {label : Option String} {frames : List Frame}

/-- The frames with a label that are no loops come from labelled statements around a node. -/
def FramesAround (a : Ast) (i : Nat) (frames : List Frame) : Prop :=
  ∀ frame ∈ frames, frame.isLoop = false → ∀ text, frame.label = some text →
    ∃ k, a.kind k = "labeled_statement" ∧ a.labelsLoop k = false ∧ a.contains k i = true ∧
      a.labelText? k = some text

/-- The empty list of frames is around every node. -/
lemma framesAround_nil : a.FramesAround i [] := fun _ h => absurd h List.not_mem_nil

/-- Frames around a node are around everything below it. -/
lemma FramesAround.inside (h : a.FramesAround i frames) (hj : a.contains i j = true) :
    a.FramesAround j frames := by
  intro frame hf hloop text htext
  obtain ⟨k, hk, hl, hi, ht⟩ := h frame hf hloop text htext
  exact ⟨k, hk, hl, contains_trans hi hj, ht⟩

/-- A loop, or a frame without label, may be put around. -/
lemma FramesAround.cons {frame : Frame} (h : a.FramesAround i frames)
    (hframe : frame.isLoop = true ∨ frame.label = none) : a.FramesAround i (frame :: frames) := by
  intro other ho hloop text htext
  rcases List.mem_cons.1 ho with rfl | ho
  · rcases hframe with hframe | hframe
    · cases hloop.symm.trans hframe
    · cases htext.symm.trans hframe
  · exact h other ho hloop text htext

/-- A labelled statement puts its own frame around what it labels. -/
lemma FramesAround.labelled (h : a.FramesAround i frames) (hk : a.kind i = "labeled_statement")
    (hl : a.labelsLoop i = false) : a.FramesAround i (⟨a.labelText? i, false, false⟩ :: frames) := by
  intro other ho hloop text htext
  rcases List.mem_cons.1 ho with rfl | ho
  · exact ⟨i, hk, hl, contains_self a i, htext⟩
  · exact h other ho hloop text htext

/-- A `continue` caught by such a frame strays. -/
lemma isStray_of_framesAround (h : a.FramesAround i frames) (hk : a.kind i = "continue_statement") :
    (Rules.straying a.IsStray).jump i true (a.labelText? i) frames := by
  intro frame hframe _ hloop
  have hmem := List.mem_of_find?_eq_some hframe
  have haccepts := List.find?_some hframe
  cases hlabel : a.labelText? i with
  | none =>
    rw [hlabel, Frame.accepts, if_pos rfl] at haccepts
    cases hloop.symm.trans haccepts
  | some text =>
    rw [hlabel, Frame.accepts, beq_iff_eq] at haccepts
    obtain ⟨k, hkind, hl, hi, ht⟩ := h frame hmem hloop text haccepts
    exact ⟨hk, k, text, hkind, hl, hi, ht, hlabel⟩

/-- A statement that may be missing obeys the rules if it does when present. -/
lemma obeys_stmt? {R : Rules} {o : Option Nat} (h : ∀ j, o = some j → (a.stmt j label).Obeys R frames) :
    (a.stmt? o label).Obeys R frames :=
  stmt?_of (P := (·.Obeys R frames)) trivial h

/-- The statements of a clause obey the rules if each part does. -/
lemma obeys_clauseStmt {R : Rules} {c : Nat} (h : ∀ j ∈ a.clauseParts c, (a.stmt j none).Obeys R frames) :
    (a.clauseStmt c).Obeys R frames :=
  clauseStmt_of (P := (·.Obeys R frames)) (fun _ => Stmt.obeys_ofList) trivial h

/-- The clauses of a `switch` obey the rules if the statements of each do. -/
lemma obeys_clauses {R : Rules} {l : List Nat} (hl : ∀ clause ∈ l, a.isClause clause = false → R.gap)
    (h : ∀ clause ∈ l, a.isClause clause = true → (a.clauseStmt clause).Obeys R frames) :
    (l.foldr a.addClause .nil).Obeys R frames :=
  clauses_of (P := (·.Obeys R frames)) (Q := (·.Obeys R frames)) trivial (fun _ _ _ => And.intro)
    (fun _ _ => And.intro) (fun clause hc hno _ => And.intro (hl clause hc hno)) h

/-- What is known of a statement with the frames around it, is known of the statements inside it, too, and makes
every jump follow the rules. -/
structure Carries (a : Ast) (R : Rules) (P : Nat → List Frame → Prop) : Prop where
  inside : ∀ i j frames, P i frames → a.contains i j = true → P j frames
  loop : ∀ i label frames, P i frames → P i (⟨label, true, true⟩ :: frames)
  switch : ∀ i frames, P i frames → P i (⟨none, false, true⟩ :: frames)
  labelled : ∀ i frames, P i frames → a.kind i = "labeled_statement" → a.labelsLoop i = false →
    P i (⟨a.labelText? i, false, false⟩ :: frames)
  breaks : ∀ i frames, P i frames → a.kind i = "break_statement" → R.jump i false (a.labelText? i) frames
  continues : ∀ i frames, P i frames → a.kind i = "continue_statement" → R.jump i true (a.labelText? i) frames

/-- Whatever is carried from statement to statement makes all of them obey. -/
lemma obeys_stmt {R : Rules} {P : Nat → List Frame → Prop} (h : a.Carries R P)
    (hgap : a.SwitchesHoldClauses ∨ R.gap) (hi : P i frames) : (a.stmt i label).Obeys R frames := by
  induction i using laidParts_induction (a := a) generalizing label frames with
  | h i ih =>
    have hpart : ∀ j ∈ a.laidParts i, ∀ label frames, P i frames → (a.stmt j label).Obeys R frames :=
      fun j hj label frames hi => ih j hj (h.inside i j frames hi (contains_of_mem_laidParts hj))
    unfold laidParts partsWith at hpart
    rw [stmt_eq, assembled]
    split
    all_goals rename_i hk
    all_goals simp only [hk] at hpart
    · apply Stmt.obeys_ofList
      intro s hs
      obtain ⟨j, hj, rfl⟩ := List.mem_map.1 hs
      exact hpart j hj none frames hi
    · exact ⟨obeys_stmt? fun j hj => hpart j (List.mem_append_left _ (Option.mem_toList.2 hj)) none _ hi,
        obeys_stmt? fun j hj => hpart j (List.mem_append_right _ (Option.mem_toList.2 hj)) none _ hi⟩
    iterate 4 exact obeys_stmt? fun j hj => hpart j (Option.mem_toList.2 hj) none _ (h.loop i label frames hi)
    · cases hb : a.child? i "body" with
      | none => trivial
      | some body =>
        simp only [hb, Option.elim_some] at hpart
        refine obeys_clauses (fun clause hc hno => hgap.resolve_left fun hclauses => ?_) fun clause hc hyes =>
          obeys_clauseStmt fun j hj => hpart j ?_ none _ (h.switch i frames hi)
        · cases hno.symm.trans (hclauses i body hk hb clause hc)
        · exact List.mem_flatMap.2 ⟨clause, List.mem_filter.2 ⟨hc, hyes⟩, hj⟩
    · refine ⟨obeys_stmt? fun j hj => hpart j ?_ none _ hi, obeys_stmt? fun j hj => hpart j ?_ none _ hi,
        obeys_stmt? fun j hj => hpart j ?_ none _ hi⟩
      · exact List.mem_append_left _ (List.mem_append_left _ (Option.mem_toList.2 hj))
      · exact List.mem_append_left _ (List.mem_append_right _ (Option.mem_toList.2 hj))
      · exact List.mem_append_right _ (Option.mem_toList.2 hj)
    · split
      · exact obeys_stmt? fun j hj => hpart j (Option.mem_toList.2 hj) _ _ hi
      · next hloop =>
        rw [Bool.not_eq_true] at hloop
        exact obeys_stmt? fun j hj => hpart j (Option.mem_toList.2 hj) none _ (h.labelled i frames hi hk hloop)
    · trivial
    · trivial
    · exact h.breaks i frames hi hk
    · exact h.continues i frames hi hk
    · trivial

/-- The frames around a node are carried inwards. -/
lemma carries_framesAround (a : Ast) : a.Carries (.straying a.IsStray) a.FramesAround where
  inside _ _ _ h := h.inside
  loop _ _ _ h := h.cons (.inl rfl)
  switch _ _ h := h.cons (.inr rfl)
  labelled _ _ h := h.labelled
  breaks _ _ _ _ := nofun
  continues _ _ h := isStray_of_framesAround h

/-- A statement without a `continue` in it has a skeleton without one. -/
lemma obeys_breaking (h : ∀ k, a.contains i k = true → a.kind k ≠ "continue_statement") :
    (a.stmt i label).Obeys .breaking frames := by
  refine obeys_stmt (P := fun i _ => ∀ k, a.contains i k = true → a.kind k ≠ "continue_statement") ?_
    (.inr trivial) h
  exact ⟨fun i j _ hi hj k hk => hi k (contains_trans hj hk), fun _ _ _ => id, fun _ _ => id,
    fun _ _ hi _ _ => hi, fun _ _ _ _ => rfl, fun i _ hi hk => absurd hk (hi i (contains_self a i))⟩

/-- The skeletons of a program whose `switch` statements hold clauses only have no `continue` that a frame
takes which is no loop's, stray ones apart. -/
theorem obeys_skeleton (hclauses : a.SwitchesHoldClauses) (f : Nat) :
    (a.skeleton f).Obeys (.straying a.IsStray) [] := by
  unfold skeleton
  split
  · split
    · split
      · exact obeys_stmt (carries_framesAround a) (.inl hclauses) framesAround_nil
      · trivial
    · trivial
  · apply Stmt.obeys_ofList
    intro s hs
    obtain ⟨j, -, rfl⟩ := List.mem_map.1 hs
    exact obeys_stmt (carries_framesAround a) (.inl hclauses) framesAround_nil

end Mend.Syntax.Ast
