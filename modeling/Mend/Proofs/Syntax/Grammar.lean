import Mathlib.Data.List.Forall2
import Mend.Proofs.Syntax.Placeless
import Mend.Proofs.Syntax.Reading

/-!
# Which roles a grammar leaves open

The grammar says which parts a node has, in which order, what may stand in each role, and what may be
missing (`rules`). Where two sequences of parts follow a rule and have the same kinds, they mostly have the
same roles (`Rule.telling`): a part that is missing makes the sequence shorter, or shows in the kinds.

Reading keeps the parts of a node as they are; when it simplifies, it leaves out empty statements and unwraps
expressions (`Reads`). What may be an empty statement may then be missing (`Rule.asRead`), and every rule
stays telling but one (`telling_simplified`): without the empty statements that hold the places in its
head, nothing shows which expression of a `for` statement is its condition.
-/

namespace Mend.Syntax

/-- The kinds of statement. -/
def statementKinds : List String :=
  ["export_statement", "import_statement", "debugger_statement", "expression_statement",
   "function_declaration", "generator_function_declaration", "class_declaration", "lexical_declaration",
   "variable_declaration", "statement_block", "if_statement", "switch_statement", "for_statement",
   "for_in_statement", "while_statement", "do_statement", "try_statement", "with_statement",
   "break_statement", "continue_statement", "return_statement", "throw_statement", "empty_statement",
   "labeled_statement"]

/-- The kinds of node that may stand between any two parts. -/
def extraKinds : List String := ["comment", "html_comment"]

/-- What a node is to the node above it. -/
structure Part where
  role : Option String
  kind : String
  deriving DecidableEq, Repr

namespace Part

/-- Whether a part is of a kind that may stand between any others. -/
def isExtra (x : Part) : Bool := extraKinds.contains x.kind

end Part

/-- A token as a part of its parent. -/
def Token.part (t : Token) : Part := ⟨t.field, t.kind⟩

/-- The part a token is has the token's kind. -/
@[simp] lemma Token.part_kind (t : Token) : t.part.kind = t.kind := rfl

/-- A node as a part of its parent. -/
def Node.part (x : Node) : Part := ⟨x.field, x.kind⟩

/-- What may stand at a place. -/
inductive Matter where
  | anything
  | statement
  | expression
  | only (kind : String)
  deriving DecidableEq, Repr

/-- Whether a kind is one of expressions, or of parts of expressions. -/
def isExpression (kind : String) : Bool := !statementKinds.contains kind && !extraKinds.contains kind

namespace Matter

/-- Whether a part of the kind may stand where such matter is wanted. -/
def takes : Matter → String → Bool
  | anything, _ => true
  | statement, kind => statementKinds.contains kind
  | expression, kind => isExpression kind
  | only kind', kind => kind == kind'

/-- Whether some kind might be taken by both. -/
def meets : Matter → Matter → Bool
  | statement, expression | expression, statement => false
  | only kind, m | m, only kind => m.takes kind
  | _, _ => true

variable {m n : Matter} {kind : String}

/-- Two sorts of matter that take one kind meet. -/
lemma meets_of_takes (hm : m.takes kind = true) (hn : n.takes kind = true) : m.meets n = true := by
  cases m <;> cases n <;> simp_all [takes, meets, isExpression]

end Matter

/-- A place in the sequence of the parts of a node. -/
structure Place where
  role : Option String
  matter : Matter
  /-- Whether the part may be missing. -/
  optional : Bool
  deriving DecidableEq, Repr

namespace Place

/-- A part that is always there. -/
def one (role : String) (matter : Matter) : Place := ⟨some role, matter, false⟩

/-- A part that may be missing. -/
def maybe (role : String) (matter : Matter) : Place := ⟨some role, matter, true⟩

/-- Whether a part stands at its place. -/
def holds (p : Place) (x : Part) : Bool := x.role == p.role && p.matter.takes x.kind

/-- The place in what is read: simplified, a program has no empty statements. -/
def asRead (simplify : Bool) (p : Place) : Place :=
  { p with optional := p.optional || (simplify && p.matter.takes "empty_statement") }

/-- Whether parts stand at the places, one after the other. -/
def fits : List Place → List Part → Bool
  | [], parts => parts.isEmpty
  | p :: places, [] => p.optional && fits places []
  | p :: places, x :: parts =>
    (p.optional && fits places (x :: parts)) || (p.holds x && fits places parts)

/-- The ways in which parts can be missing: the places that are left. -/
def variants : List Place → List (List Place)
  | [] => [[]]
  | p :: places => (variants places).map (p :: ·) ++ if p.optional then variants places else []

/-- Whether two sequences of places may hold parts of the same kinds. -/
def meet (v w : List Place) : Bool :=
  v.length == w.length && (v.zip w).all fun (p, q) => p.matter.meets q.matter

/-- Whether kinds tell the roles of the parts at the places. -/
def tell (places : List Place) : Bool :=
  (variants places).all fun v => (variants places).all fun w =>
    !meet v w || v.map (·.role) == w.map (·.role)

variable {places v w : List Place} {p : Place} {xs ys : List Part} {x : Part}

/-- Parts fit behind a place that stays empty or holds the first of them. -/
lemma fits_cons : fits (p :: places) xs = true ↔
    (p.optional = true ∧ fits places xs = true) ∨
      ∃ x xs', xs = x :: xs' ∧ p.holds x = true ∧ fits places xs' = true := by
  cases xs <;> simp [fits]

/-- Parts that fit hold the places of one variant, one each. -/
lemma exists_variant (h : fits places xs = true) :
    ∃ v ∈ variants places, List.Forall₂ (fun p x => p.holds x = true) v xs := by
  induction places generalizing xs with
  | nil =>
    rw [fits, List.isEmpty_iff] at h
    exact ⟨[], List.mem_singleton_self _, h ▸ .nil⟩
  | cons p places ih =>
    rcases fits_cons.1 h with ⟨hoptional, h⟩ | ⟨x, xs, rfl, hx, h⟩
    · obtain ⟨v, hv, hfits⟩ := ih h
      exact ⟨v, List.mem_append_right _ (by rwa [if_pos hoptional]), hfits⟩
    · obtain ⟨v, hv, hfits⟩ := ih h
      exact ⟨p :: v, List.mem_append_left _ (List.mem_map_of_mem hv), .cons hx hfits⟩

/-- Every part that fits is held by some place. -/
lemma exists_holds (h : fits places xs = true) (hx : x ∈ xs) : ∃ p ∈ places, p.holds x = true := by
  induction places generalizing xs with
  | nil =>
    rw [fits, List.isEmpty_iff] at h
    rw [h] at hx
    cases hx
  | cons p places ih =>
    have hlater : ∀ {xs}, fits places xs = true → x ∈ xs → ∃ p' ∈ p :: places, p'.holds x = true := by
      intro xs h hx
      obtain ⟨p', hp, hholds⟩ := ih h hx
      exact ⟨p', List.mem_cons_of_mem _ hp, hholds⟩
    rcases fits_cons.1 h with ⟨-, h⟩ | ⟨y, ys, rfl, hholds, h⟩
    · exact hlater h hx
    · rcases List.mem_cons.1 hx with rfl | hx
      · exact ⟨p, List.mem_cons_self, hholds⟩
      · exact hlater h hx

/-- A part held has the role of its place and a kind the place takes. -/
lemma role_of_holds (h : p.holds x = true) : x.role = p.role ∧ p.matter.takes x.kind = true := by
  rwa [holds, Bool.and_eq_true, beq_iff_eq] at h

/-- Parts held one by one have the roles of their places. -/
lemma map_role_of_forall₂ (h : List.Forall₂ (fun p x => p.holds x = true) v xs) :
    xs.map (·.role) = v.map (·.role) := by
  induction h with
  | nil => rfl
  | cons hx _ ih => rw [List.map_cons, List.map_cons, (role_of_holds hx).1, ih]

/-- Two variants that hold parts of the same kinds meet. -/
lemma meet_of_forall₂ (hv : List.Forall₂ (fun p x => p.holds x = true) v xs)
    (hw : List.Forall₂ (fun p x => p.holds x = true) w ys)
    (hkind : xs.map (·.kind) = ys.map (·.kind)) : meet v w = true := by
  induction hv generalizing w ys with
  | nil =>
    rw [List.map_nil, eq_comm, List.map_eq_nil_iff] at hkind
    subst hkind
    cases hw
    rfl
  | @cons p x v xs hx _ ih =>
    cases hw with
    | nil => cases hkind
    | @cons q y w ys hy hw =>
      simp only [List.map_cons, List.cons.injEq] at hkind
      have hmeets := Matter.meets_of_takes (role_of_holds hx).2 (hkind.1 ▸ (role_of_holds hy).2)
      have hrest := ih hw hkind.2
      simp only [meet, Bool.and_eq_true, beq_iff_eq] at hrest
      simp [meet, hmeets, hrest]

/-- Where kinds tell the roles, parts of the same kinds have the same roles. -/
lemma map_role_eq (h : tell places = true) (hx : fits places xs = true) (hy : fits places ys = true)
    (hkind : xs.map (·.kind) = ys.map (·.kind)) : xs.map (·.role) = ys.map (·.role) := by
  obtain ⟨v, hv, hx⟩ := exists_variant hx
  obtain ⟨w, hw, hy⟩ := exists_variant hy
  have hvw := List.all_eq_true.1 (List.all_eq_true.1 h v hv) w hw
  rw [meet_of_forall₂ hx hy hkind, Bool.not_true, Bool.false_or, beq_iff_eq] at hvw
  rw [map_role_of_forall₂ hx, map_role_of_forall₂ hy, hvw]

end Place

/-- What the grammar says of the parts of a node. -/
inductive Rule where
  /-- Each part has its place. -/
  | series (places : List Place)
  /-- The first part has the role, and no other. -/
  | first (role : String)
  /-- The last part has the role, and no other. -/
  | last (role : String)
  /-- No part has the role. -/
  | never (role : String)
  deriving DecidableEq, Repr

namespace Rule

/-- The roles that the rule speaks of. -/
def roles : Rule → List String
  | series places => places.filterMap (·.role)
  | first role | last role | never role => [role]

/-- Whether the first part has the role, and no other. Empty statements have no role of this kind. -/
def leads (role : String) : List Part → Bool
  | [] => false
  | x :: rest => x.role == some role && x.kind != "empty_statement" && rest.all (·.role != some role)

/-- Whether a node may have these parts. -/
def allows : Rule → List Part → Bool
  | series places, parts => Place.fits places parts
  | first role, parts => leads role parts
  | last role, parts => leads role parts.reverse
  | never role, parts => parts.all (·.role != some role)

/-- The rule for what is read. -/
def asRead (simplify : Bool) : Rule → Rule
  | series places => .series (places.map (·.asRead simplify))
  | rule => rule

/-- Whether kinds tell which parts have a role of the rule. -/
def telling : Rule → Bool
  | series places => Place.tell places
  | first _ | last _ | never _ => true

/-- No place is for parentheses and nothing else, so that what stands in parentheses may stand there. -/
def unwraps : Rule → Bool
  | series places => places.all (·.matter != .only "parenthesized_expression")
  | first _ | last _ | never _ => true

variable {R : Rule} {role : String} {xs ys : List Part}

/-- Reading changes no role a rule speaks of. -/
@[simp] lemma roles_asRead (simplify : Bool) (R : Rule) : (R.asRead simplify).roles = R.roles := by
  cases R with
  | series places =>
    rw [asRead, roles, List.filterMap_map]
    rfl
  | first role => rfl
  | last role => rfl
  | never role => rfl

/-- Which parts have a role. -/
def marks (role : String) (parts : List Part) : List Bool := parts.map (·.role == some role)

/-- A role that never occurs marks no part. -/
lemma marks_of_never (h : xs.all (·.role != some role) = true) :
    marks role xs = List.replicate xs.length false := by
  refine List.eq_replicate_iff.2 ⟨List.length_map _, fun m hm => ?_⟩
  obtain ⟨x, hx, rfl⟩ := List.mem_map.1 hm
  simpa using List.all_eq_true.1 h x hx

/-- A role that leads marks the first part and no other. -/
lemma marks_of_leads (h : leads role xs = true) :
    marks role xs = true :: List.replicate (xs.length - 1) false := by
  cases xs with
  | nil => cases h
  | cons x rest =>
    simp only [leads, Bool.and_eq_true, beq_iff_eq] at h
    rw [marks, List.map_cons, h.1.1, beq_self_eq_true]
    exact congrArg _ (marks_of_never h.2)

/-- Where the rule is telling, parts of the same kinds have its roles in the same places. -/
lemma marks_eq (h : R.telling = true) (hx : R.allows xs = true) (hy : R.allows ys = true)
    (hkind : xs.map (·.kind) = ys.map (·.kind)) (hrole : role ∈ R.roles) : marks role xs = marks role ys := by
  have hlength : xs.length = ys.length := by simpa using congrArg List.length hkind
  cases R with
  | series places =>
    have hroles := congrArg (List.map (· == some role)) (Place.map_role_eq h hx hy hkind)
    rwa [List.map_map, List.map_map] at hroles
  | first r =>
    rw [List.mem_singleton.1 hrole, marks_of_leads hx, marks_of_leads hy, hlength]
  | last r =>
    have hreverse : marks r xs.reverse = marks r ys.reverse := by
      rw [marks_of_leads hx, marks_of_leads hy, List.length_reverse, List.length_reverse, hlength]
    rw [marks, marks, List.map_reverse, List.map_reverse] at hreverse
    rw [List.mem_singleton.1 hrole]
    exact List.reverse_injective hreverse
  | never r =>
    rw [List.mem_singleton.1 hrole, marks_of_never hx, marks_of_never hy, hlength]

end Rule

/-- How parts are read: simplified, empty statements are left out, and an expression in parentheses takes
their place. -/
inductive Reads (simplify : Bool) : List Part → List Part → Prop
  | nil : Reads simplify [] []
  | keep {xs ys : List Part} (x : Part) (h : Reads simplify xs ys) : Reads simplify (x :: xs) (x :: ys)
  | leaveOut {x : Part} {xs ys : List Part} (hsimplify : simplify = true)
      (hkind : x.kind = "empty_statement") (h : Reads simplify xs ys) : Reads simplify (x :: xs) ys
  | unwrap {x : Part} {xs ys : List Part} {kind : String} (hsimplify : simplify = true)
      (hkind : x.kind = "parenthesized_expression") (hexpression : isExpression kind = true)
      (h : Reads simplify xs ys) : Reads simplify (x :: xs) (⟨x.role, kind⟩ :: ys)

/-- No expression is an empty statement. -/
lemma ne_empty_of_isExpression {kind : String} (h : isExpression kind = true) :
    kind ≠ "empty_statement" := by
  rintro rfl
  exact absurd h (by decide)

/-- No expression may stand between any parts. -/
lemma not_isExtra_of_isExpression {role : Option String} {kind : String} (h : isExpression kind = true) :
    Part.isExtra ⟨role, kind⟩ = false := by
  rw [isExpression, Bool.and_eq_true, Bool.not_eq_true'] at h
  rw [Part.isExtra]
  simpa using h.2

namespace Reads

variable {simplify : Bool} {xs ys xs' ys' : List Part} {x y : Part}

/-- Two readings in a row are one. -/
lemma append (h : Reads simplify xs ys) (h' : Reads simplify xs' ys') :
    Reads simplify (xs ++ xs') (ys ++ ys') := by
  induction h with
  | nil => exact h'
  | keep x _ ih => exact .keep x ih
  | leaveOut hsimplify hkind _ ih => exact .leaveOut hsimplify hkind ih
  | unwrap hsimplify hkind hexpression _ ih => exact .unwrap hsimplify hkind hexpression ih

/-- Reading does not depend on the direction. -/
lemma reverse (h : Reads simplify xs ys) : Reads simplify xs.reverse ys.reverse := by
  induction h with
  | nil => exact .nil
  | keep x _ ih =>
    rw [List.reverse_cons, List.reverse_cons]
    exact ih.append (.keep x .nil)
  | leaveOut hsimplify hkind _ ih =>
    have h := ih.append (.leaveOut hsimplify hkind .nil)
    rwa [List.append_nil, ← List.reverse_cons] at h
  | unwrap hsimplify hkind hexpression _ ih =>
    rw [List.reverse_cons, List.reverse_cons]
    exact ih.append (.unwrap hsimplify hkind hexpression .nil)

/-- Roles are kept. -/
lemma exists_role (h : Reads simplify xs ys) (hy : y ∈ ys) : ∃ x ∈ xs, x.role = y.role := by
  induction h with
  | nil => cases hy
  | keep x _ ih =>
    rcases List.mem_cons.1 hy with rfl | hy
    · exact ⟨y, List.mem_cons_self, rfl⟩
    · obtain ⟨x', hx, hrole⟩ := ih hy
      exact ⟨x', List.mem_cons_of_mem _ hx, hrole⟩
  | leaveOut _ _ _ ih =>
    obtain ⟨x', hx, hrole⟩ := ih hy
    exact ⟨x', List.mem_cons_of_mem _ hx, hrole⟩
  | @unwrap x _ _ _ _ _ _ _ ih =>
    rcases List.mem_cons.1 hy with rfl | hy
    · exact ⟨x, List.mem_cons_self, rfl⟩
    · obtain ⟨x', hx, hrole⟩ := ih hy
      exact ⟨x', List.mem_cons_of_mem _ hx, hrole⟩

/-- What stands between the parts is read as it is. -/
lemma mem_of_isExtra (h : Reads simplify xs ys) (hy : y ∈ ys) (hextra : y.isExtra = true) : y ∈ xs := by
  induction h with
  | nil => cases hy
  | keep x _ ih =>
    rcases List.mem_cons.1 hy with rfl | hy
    · exact List.mem_cons_self
    · exact List.mem_cons_of_mem _ (ih hy)
  | leaveOut _ _ _ ih => exact List.mem_cons_of_mem _ (ih hy)
  | unwrap _ _ hexpression _ ih =>
    rcases List.mem_cons.1 hy with rfl | hy
    · rw [not_isExtra_of_isExpression hexpression] at hextra
      cases hextra
    · exact List.mem_cons_of_mem _ (ih hy)

/-- What stands between the parts may be left out before or after reading. -/
lemma filter (h : Reads simplify xs ys) :
    Reads simplify (xs.filter (!·.isExtra)) (ys.filter (!·.isExtra)) := by
  induction h with
  | nil => exact .nil
  | keep x _ ih =>
    rw [List.filter_cons, List.filter_cons]
    split
    · exact .keep x ih
    · exact ih
  | @leaveOut x _ _ hsimplify hkind _ ih =>
    have hpart : (!x.isExtra) = true := by
      rw [Part.isExtra, hkind]
      decide
    rw [List.filter_cons, if_pos hpart]
    exact .leaveOut hsimplify hkind ih
  | @unwrap x _ _ kind hsimplify hkind hexpression _ ih =>
    have hpart : (!x.isExtra) = true := by
      rw [Part.isExtra, hkind]
      decide
    have hinner : (!Part.isExtra ⟨x.role, kind⟩) = true := by
      rw [not_isExtra_of_isExpression hexpression]
      rfl
    rw [List.filter_cons, if_pos hpart, List.filter_cons, if_pos hinner]
    exact .unwrap hsimplify hkind hexpression ih

/-- A role that leads still leads when read. -/
lemma leads {role : String} (hx : Rule.leads role xs = true) (h : Reads simplify xs ys) :
    Rule.leads role ys = true := by
  have hnone : ∀ {xs ys : List Part}, Reads simplify xs ys → xs.all (·.role != some role) = true →
      ys.all (·.role != some role) = true := by
    intro xs ys h hx
    refine List.all_eq_true.2 fun y hy => ?_
    obtain ⟨x, hmem, hrole⟩ := h.exists_role hy
    exact hrole ▸ List.all_eq_true.1 hx x hmem
  cases h with
  | nil => exact hx
  | keep x h =>
    simp only [Rule.leads, Bool.and_eq_true] at hx ⊢
    exact ⟨hx.1, hnone h hx.2⟩
  | leaveOut _ hkind _ =>
    simp [Rule.leads, hkind] at hx
  | unwrap _ _ hexpression h =>
    simp only [Rule.leads, Bool.and_eq_true] at hx ⊢
    exact ⟨⟨hx.1.1, bne_iff_ne.2 (ne_empty_of_isExpression hexpression)⟩, hnone h hx.2⟩

/-- What stands at its places still does, when it is read. -/
lemma fits {places : List Place}
    (hunwraps : ∀ p ∈ places, p.matter ≠ .only "parenthesized_expression")
    (hx : Place.fits places xs = true) (h : Reads simplify xs ys) :
    Place.fits (places.map (·.asRead simplify)) ys = true := by
  induction places generalizing xs ys with
  | nil =>
    rw [Place.fits, List.isEmpty_iff] at hx
    subst hx
    cases h
    rfl
  | cons p places ih =>
    obtain ⟨hp, hplaces⟩ := List.forall_mem_cons.1 hunwraps
    rw [List.map_cons, Place.fits_cons]
    rcases Place.fits_cons.1 hx with ⟨hoptional, hx⟩ | ⟨x, xs, rfl, hholds, hx⟩
    · exact .inl ⟨by rw [Place.asRead, hoptional, Bool.true_or], ih hplaces hx h⟩
    · obtain ⟨hrole, htakes⟩ := Place.role_of_holds hholds
      cases h with
      | keep x h => exact .inr ⟨x, _, rfl, hholds, ih hplaces hx h⟩
      | leaveOut hsimplify hkind h =>
        rw [hkind] at htakes
        exact .inl ⟨by rw [Place.asRead, htakes, hsimplify]; exact Bool.or_true _, ih hplaces hx h⟩
      | @unwrap _ _ _ kind _ hkind hexpression h =>
        rw [hkind] at htakes
        refine .inr ⟨_, _, rfl, ?_, ih hplaces hx h⟩
        have htakes' : p.matter.takes kind = true := by
          cases hmatter : p.matter with
          | anything => rfl
          | statement =>
            rw [hmatter] at htakes
            exact absurd htakes (by decide)
          | expression => exact hexpression
          | only kind' =>
            rw [hmatter, Matter.takes, beq_iff_eq] at htakes
            exact absurd (hmatter.trans (htakes ▸ rfl)) hp
        rw [Place.holds, Bool.and_eq_true, beq_iff_eq]
        exact ⟨hrole, htakes'⟩

/-- Parts that a rule allows are allowed when read. -/
lemma allows {R : Rule} (hunwraps : R.unwraps = true) (hx : R.allows xs = true)
    (h : Reads simplify xs ys) : (R.asRead simplify).allows ys = true := by
  cases R with
  | series places =>
    refine h.fits (fun p hp => ?_) hx
    exact bne_iff_ne.1 (List.all_eq_true.1 hunwraps p hp)
  | first role => exact h.leads hx
  | last role => exact h.reverse.leads hx
  | never role =>
    refine List.all_eq_true.2 fun y hy => ?_
    obtain ⟨x, hmem, hrole⟩ := h.exists_role hy
    exact hrole ▸ List.all_eq_true.1 hx x hmem

end Reads

end Mend.Syntax
