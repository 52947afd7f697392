import Mathlib.Algebra.Order.BigOperators.Group.List
import Mathlib.Algebra.Order.Group.Nat
import Mend.Proofs.StackLoop
import Mend.Proofs.Syntax.Nesting
import Mend.Proofs.Syntax.Reading

/-!
# Reading with a stack

Reading as a loop over a stack of the parser's trees (`conversion`): a tree that is taken off gets the next
number and is entered as the last child of its parent, and the trees below it that are kept come onto the
stack, the first on top. The ends of the subtrees are filled in afterwards (`settleAll`), from the last node
to the first, each from the last child alone.

When the stack is empty, the table holds what reading by recursion lays out (`run_conversion`), apart from the
ends of the subtrees; settling puts these right (`settleAll_entered`).
-/

namespace Mend

universe u

section Modify

variable {α : Type u} {l more : List α} {i : Nat} {g : α → α}

/-- Modifying an entry of the first part leaves the second alone. -/
lemma modify_append (h : i < l.length) : (l ++ more).modify i g = l.modify i g ++ more := by
  induction l generalizing i with
  | nil => cases h
  | cons x l ih =>
    cases i with
    | zero => rfl
    | succ i =>
      rw [List.cons_append, List.modify_succ_cons, List.modify_succ_cons, ih (Nat.lt_of_succ_lt_succ h),
        List.cons_append]

/-- Modifying just behind a list modifies the element appended. -/
lemma modify_length_concat (l : List α) (x : α) : (l ++ [x]).modify l.length g = l ++ [g x] := by
  induction l with
  | nil => rfl
  | cons y l ih => rw [List.cons_append, List.length_cons, List.modify_succ_cons, ih, List.cons_append]

end Modify

namespace Forest

variable {α : Type u}

/-- The entries that `number` gives for a forest, but with every node as the end of its own subtree. -/
def entered (parent : Option Nat) (n : Nat) : Forest α → List (Entry α)
  | nil => []
  | cons h kids rest =>
    ⟨h, parent, kids.rootNumbers (n + 1), n⟩ ::
      (kids.entered (some n) (n + 1) ++ rest.entered parent (n + 1 + kids.size))

/-- A forest enters one row for each of its nodes. -/
@[simp] lemma length_entered (f : Forest α) (parent : Option Nat) (n : Nat) :
    (f.entered parent n).length = f.size := by
  induction f generalizing parent n with
  | nil => rfl
  | cons h kids rest ihk ihr =>
    rw [entered, List.length_cons, List.length_append, ihk, ihr, size]
    omega

/-- The roots of two forests are numbered one forest after the other. -/
lemma rootNumbers_append (f g : Forest α) (n : Nat) :
    (f ++ g).rootNumbers n = f.rootNumbers n ++ g.rootNumbers (n + f.size) := by
  change (f.append g).rootNumbers n = _
  induction f generalizing n with
  | nil => rfl
  | cons h kids rest _ ihr =>
    rw [append, rootNumbers, rootNumbers, ihr, List.cons_append, size]
    simp only [Nat.add_assoc]

/-- Two forests are entered one after the other. -/
lemma entered_append (f g : Forest α) (parent : Option Nat) (n : Nat) :
    (f ++ g).entered parent n = f.entered parent n ++ g.entered parent (n + f.size) := by
  change (f.append g).entered parent n = _
  induction f generalizing n with
  | nil => rfl
  | cons h kids rest _ ihr =>
    rw [append, entered, entered, ihr, List.cons_append, List.append_assoc, size]
    simp only [Nat.add_assoc]

/-- A row entered is the numbered one with its own number as its last. -/
lemma getElem?_entered (f : Forest α) (parent : Option Nat) (n i : Nat) :
    (f.entered parent n)[i]? = (f.number parent n)[i]?.map fun e => { e with last := n + i } := by
  induction f generalizing parent n i with
  | nil => rfl
  | cons h kids rest ihk ihr =>
    cases i with
    | zero => rfl
    | succ i =>
      rw [entered, number, List.getElem?_cons_succ, List.getElem?_cons_succ, List.getElem?_append,
        List.getElem?_append, length_entered, length_number]
      split
      · rw [ihk, show n + 1 + i = n + (i + 1) by omega]
      · rw [ihr, show n + 1 + kids.size + (i - kids.size) = n + (i + 1) by omega]

end Forest

namespace Syntax

/-- A tree that waits on the stack, with the number of its parent and its role there. -/
structure Pending where
  token : Token
  kids : Concrete
  parent : Option Nat
  role : Option String

/-- The table of a program while it is filled. -/
abbrev Rows := List (Forest.Entry Node)

variable {source : String} {simplify : Bool} {t : Token} {f kids rest : Concrete} {rows more : Rows}
  {role : Option String} {parent : Option Nat}

namespace Concrete

/-- The trees of a forest that stand for a grammar rule. -/
def namedTrees (f : Concrete) : List (Token × Concrete) := f.trees.filter (·.1.named)

/-- The trees of a forest that are read. -/
def keptTrees (simplify : Bool) (f : Concrete) : List (Token × Concrete) :=
  (f.namedTrees.filter fun p => p.1.kind != "comment").filter fun p =>
    !(simplify && p.1.kind == "empty_statement")

/-- An only named tree is smaller than the forest it is in. -/
lemma size_lt_of_namedTrees {p : Token × Concrete} (h : kids.namedTrees = [p]) : p.2.size < kids.size :=
  Forest.size_lt_of_mem_trees (List.mem_of_mem_filter (h ▸ List.mem_singleton_self p))

/-- Goes from parentheses around one node to that node, until there are none. -/
def unwrap (t : Token) (kids : Concrete) : Token × Concrete :=
  if t.kind = "parenthesized_expression" then
    match _h : kids.namedTrees with
    | [only] => unwrap only.1 only.2
    | _ => (t, kids)
  else (t, kids)
termination_by kids.size
decreasing_by exact size_lt_of_namedTrees _h

/-- What a tree is read as, with what stands below it. -/
def opened (simplify : Bool) (t : Token) (kids : Concrete) : Token × Concrete :=
  if simplify then unwrap t kids else (t, kids)

/-- Unwrapping never gains nodes. -/
lemma size_unwrap_le (t : Token) (kids : Concrete) : (unwrap t kids).2.size ≤ kids.size := by
  fun_induction unwrap t kids with
  | case1 t kids _ only h ih =>
    have := size_lt_of_namedTrees h
    omega
  | case2 => exact Nat.le_refl _
  | case3 => exact Nat.le_refl _

/-- Opening a node never gains nodes. -/
lemma size_opened_le (simplify : Bool) (t : Token) (kids : Concrete) :
    (opened simplify t kids).2.size ≤ kids.size := by
  cases simplify with
  | true => exact size_unwrap_le t kids
  | false => exact Nat.le_refl _

/-- The trees kept hold no more nodes than the forest. -/
lemma sum_size_keptTrees_le (simplify : Bool) (f : Concrete) :
    ((f.keptTrees simplify).map fun p => p.2.size + 1).sum ≤ f.size := by
  have hsublist : (f.keptTrees simplify).Sublist f.trees :=
    List.filter_sublist.trans (List.filter_sublist.trans List.filter_sublist)
  calc ((f.keptTrees simplify).map fun p => p.2.size + 1).sum
      ≤ (f.trees.map fun p => p.2.size + 1).sum :=
        (hsublist.map fun p => p.2.size + 1).sum_le_sum fun _ _ => Nat.zero_le _
    _ = f.size := f.sum_size_trees

/-- The named trees of a forest, told from its first. -/
lemma namedTrees_cons (t : Token) (kids rest : Concrete) :
    namedTrees (.cons t kids rest) = if t.named then (t, kids) :: rest.namedTrees else rest.namedTrees := by
  rw [namedTrees, Forest.trees, List.filter_cons]
  rfl

/-- There are as many named trees as named roots. -/
lemma length_namedTrees (f : Concrete) : f.namedTrees.length = f.namedRoots.length := by
  induction f with
  | nil => rfl
  | cons t kids rest _ ihr =>
    rw [namedTrees_cons, namedRoots, Forest.roots, List.filter_cons]
    split
    · rw [List.length_cons, List.length_cons, ihr, namedRoots]
    · exact ihr

/-- The trees kept are the ones not skipped. -/
lemma keptTrees_eq_filter (simplify : Bool) (f : Concrete) :
    f.keptTrees simplify = f.trees.filter fun p => !Pick.all.skips simplify p.1 := by
  rw [keptTrees, namedTrees, List.filter_filter, List.filter_filter]
  refine List.filter_congr fun p _ => ?_
  rw [Pick.skips, Bool.not_or, Bool.not_or, Bool.not_not, bne, Bool.and_comm, Bool.and_comm (!_), Bool.and_assoc]

/-- A skipped tree is not kept. -/
lemma keptTrees_of_skips (h : Pick.all.skips simplify t = true) :
    keptTrees simplify (.cons t kids rest) = keptTrees simplify rest := by
  rw [keptTrees_eq_filter, keptTrees_eq_filter, Forest.trees, List.filter_cons, h]
  rfl

/-- A tree that is not skipped is kept in front. -/
lemma keptTrees_cons (h : Pick.all.skips simplify t = false) :
    keptTrees simplify (.cons t kids rest) = (t, kids) :: keptTrees simplify rest := by
  rw [keptTrees_eq_filter, keptTrees_eq_filter, Forest.trees, List.filter_cons, h]
  rfl

end Concrete

/-- What a tree is entered as in a role. -/
def nodeOf (source : String) (role : Option String) (top : Token × Concrete) : Node :=
  ⟨top.1.kind, role, labelOf source top.1 top.2, top.1.start, top.1.stop, top.1.row + 1⟩

/-- The kept trees of a forest, waiting to be entered below a parent. -/
def waiting (simplify : Bool) (parent : Option Nat) (f : Concrete) : List Pending :=
  (f.keptTrees simplify).map fun p => ⟨p.1, p.2, parent, p.1.field⟩

/-- Adds nodes to the children of a parent. -/
def adopt (parent : Option Nat) (numbers : List Nat) (rows : Rows) : Rows :=
  match parent with
  | none => rows
  | some p => rows.modify p fun e => { e with children := e.children ++ numbers }

/-- Takes a tree off the stack: it gets the next number, and what stands below it waits to be entered below
it. -/
def conversion (source : String) (simplify : Bool) : StackLoop Pending Rows where
  work x rows :=
    let top := Concrete.opened simplify x.token x.kids
    (if leafKinds.contains top.1.kind then [] else waiting simplify (some rows.length) top.2,
      adopt x.parent [rows.length] (rows ++ [⟨nodeOf source x.role top, x.parent, [], rows.length⟩]))
  cost x := x.kids.size + 1
  sum_cost_lt x rows := by
    have hopened := Concrete.size_opened_le simplify x.token x.kids
    have hkept := Concrete.sum_size_keptTrees_le simplify (Concrete.opened simplify x.token x.kids).2
    dsimp only
    split
    · exact Nat.succ_pos _
    · rw [waiting, List.map_map]
      exact Nat.lt_succ_of_le (hkept.trans hopened)

/-- Ends the subtree of a node where that of its last child ends. -/
def settle (i : Nat) (rows : Rows) : Rows :=
  rows.modify i fun e => { e with last := e.children.getLast?.elim i fun c => rows[c]?.elim c (·.last) }

/-- Ends all subtrees, from the last node to the first. -/
def settleAll (rows : Rows) : Rows := (List.range rows.length).foldr settle rows

/-- An inner reading reads the first named tree. -/
lemma readForest_inner_of_namedTrees {p : Token × Concrete} {others : List (Token × Concrete)}
    (h : f.namedTrees = p :: others) :
    readForest source simplify f (.inner role) = readTree source simplify p.1 p.2 role := by
  induction f with
  | nil => cases h
  | cons t kids rest _ ihr =>
    rw [Concrete.namedTrees_cons] at h
    split at h
    · next hnamed =>
      cases h
      exact readForest_inner (by rw [Pick.skips, hnamed, Bool.not_true])
    · next hnamed =>
      rw [readForest_of_skips (by rw [Pick.skips, Bool.eq_false_iff.2 hnamed, Bool.not_false])]
      exact ihr h

/-- A wrapper is a parenthesized expression with one named child. -/
lemma isWrapper_iff :
    isWrapper t kids = true ↔ t.kind = "parenthesized_expression" ∧ ∃ p, kids.namedTrees = [p] := by
  rw [isWrapper, ← Concrete.length_namedTrees, Bool.and_eq_true, beq_iff_eq, beq_iff_eq, List.length_eq_one_iff]

/-- A tree is read as the node inside its parentheses, in its own role. -/
lemma readTree_eq (source : String) (simplify : Bool) (t : Token) (kids : Concrete) (role : Option String) :
    readTree source simplify t kids role =
      .cons (nodeOf source role (Concrete.opened simplify t kids))
        (if leafKinds.contains (Concrete.opened simplify t kids).1.kind then .nil
          else readForest source simplify (Concrete.opened simplify t kids).2 .all) .nil := by
  cases simplify with
  | false => rfl
  | true =>
    rw [Concrete.opened, if_pos rfl]
    fun_induction Concrete.unwrap t kids with
    | case1 t kids ht only h ih =>
      rw [readTree, isWrapper_iff.2 ⟨ht, only, h⟩, Bool.and_true, if_pos rfl, readForest_inner_of_namedTrees h]
      exact ih
    | case2 t kids ht h =>
      have hwrapper : ¬isWrapper t kids = true := fun hw => by
        obtain ⟨-, p, hp⟩ := isWrapper_iff.1 hw
        exact h p hp
      rw [readTree, Bool.eq_false_iff.2 hwrapper]
      rfl
    | case3 t kids ht =>
      have hwrapper : ¬isWrapper t kids = true := fun hw => ht (isWrapper_iff.1 hw).1
      rw [readTree, Bool.eq_false_iff.2 hwrapper]
      rfl

section Adopting

variable {numbers : List Nat}

/-- Adopting children adds no row. -/
@[simp] lemma length_adopt (parent : Option Nat) (numbers : List Nat) (rows : Rows) :
    (adopt parent numbers rows).length = rows.length := by
  cases parent with
  | none => rfl
  | some p => exact List.length_modify _ _ _

/-- Adopting nobody changes nothing. -/
lemma adopt_nil (parent : Option Nat) (rows : Rows) : adopt parent [] rows = rows := by
  cases parent with
  | none => rfl
  | some p =>
    have hid : (fun e : Forest.Entry Node => { e with children := e.children ++ [] }) = id := by
      funext e
      rw [List.append_nil, id]
    rw [adopt, hid, List.modify_id]

/-- Adopting twice adopts the two rows of numbers in order. -/
lemma adopt_adopt (parent : Option Nat) (numbers others : List Nat) (rows : Rows) :
    adopt parent others (adopt parent numbers rows) = adopt parent (numbers ++ others) rows := by
  cases parent with
  | none => rfl
  | some p =>
    simp only [adopt, List.modify_modify_eq, Function.comp_def, List.append_assoc]

/-- A parent among the first rows has nothing to do with the others. -/
lemma adopt_append (h : ∀ p ∈ parent, p < rows.length) :
    adopt parent numbers (rows ++ more) = adopt parent numbers rows ++ more := by
  cases parent with
  | none => rfl
  | some p => exact modify_append (h p rfl)

/-- The row just appended adopts the numbers. -/
lemma adopt_concat (rows : Rows) (e : Forest.Entry Node) (numbers : List Nat) :
    adopt (some rows.length) numbers (rows ++ [e]) = rows ++ [{ e with children := e.children ++ numbers }] :=
  modify_length_concat rows e

end Adopting

/-- The trees of a forest that wait for the same parent are entered as they are read: as its last children,
with what stands below them behind what was entered before. -/
def EntersAsRead (source : String) (simplify : Bool) (f : Concrete) : Prop :=
  ∀ (parent : Option Nat) (rows : Rows), (∀ p ∈ parent, p < rows.length) →
    (conversion source simplify).run (waiting simplify parent f) rows =
      adopt parent ((readForest source simplify f .all).rootNumbers rows.length) rows ++
        (readForest source simplify f .all).entered parent rows.length

/-- One tree is entered as it is read, if the trees below it are. -/
lemma run_tree (h : EntersAsRead source simplify (Concrete.opened simplify t kids).2)
    (hparent : ∀ p ∈ parent, p < rows.length) (role : Option String) :
    (conversion source simplify).run [⟨t, kids, parent, role⟩] rows =
      adopt parent ((readTree source simplify t kids role).rootNumbers rows.length) rows ++
        (readTree source simplify t kids role).entered parent rows.length := by
  rw [StackLoop.run_singleton, readTree_eq]
  dsimp only [conversion]
  generalize Concrete.opened simplify t kids = top at h ⊢
  rw [adopt_append hparent, Forest.rootNumbers, Forest.rootNumbers]
  have hlength : (adopt parent [rows.length] rows).length = rows.length := length_adopt _ _ _
  split
  · rw [StackLoop.run_nil]
    rfl
  · generalize adopt parent [rows.length] rows = adopted at hlength ⊢
    rw [← hlength]
    have hnumber : ∀ p ∈ some adopted.length, p < (adopted ++
        [⟨nodeOf source role top, parent, [], adopted.length⟩] : Rows).length := by
      rintro p ⟨⟩
      simp
    refine (h (some adopted.length) _ hnumber).trans ?_
    rw [adopt_concat, List.length_append, List.length_singleton, List.nil_append, Forest.entered,
      Forest.entered, List.append_nil, List.append_assoc, List.singleton_append]

/-- Whatever the trees of a forest are, they are entered as they are read. -/
lemma entersAsRead (source : String) (simplify : Bool) (f : Concrete) : EntersAsRead source simplify f := by
  induction hsize : f.size using Nat.strongRecOn generalizing f with
  | _ size ih =>
    intro parent rows hparent
    cases f with
    | nil =>
      rw [readForest, Forest.rootNumbers, adopt_nil, Forest.entered, List.append_nil]
      exact StackLoop.run_nil _ _
    | cons t kids rest =>
      rw [Forest.size] at hsize
      have hbelow := Concrete.size_opened_le simplify t kids
      have hopened : EntersAsRead source simplify (Concrete.opened simplify t kids).2 := ih _ (by omega) _ rfl
      have hright : EntersAsRead source simplify rest := ih _ (by omega) _ rfl
      cases hskips : Pick.all.skips simplify t with
      | true =>
        rw [waiting, Concrete.keptTrees_of_skips hskips, readForest_of_skips hskips]
        exact hright parent rows hparent
      | false =>
        rw [waiting, Concrete.keptTrees_cons hskips, List.map_cons, ← List.singleton_append,
          StackLoop.run_append, run_tree hopened hparent, readForest_all hskips]
        generalize readTree source simplify t kids t.field = tree
        -- The trees to the right find the tree entered before them, and the parent where it was.
        have hparent' : ∀ p ∈ parent, p < (adopt parent (tree.rootNumbers rows.length) rows ++
            tree.entered parent rows.length).length := by
          intro p hp
          rw [List.length_append, length_adopt]
          exact Nat.lt_add_right _ (hparent p hp)
        have hkept : ∀ p ∈ parent, p < (adopt parent (tree.rootNumbers rows.length) rows).length := by
          rwa [length_adopt]
        refine (hright parent _ hparent').trans ?_
        rw [adopt_append hkept, adopt_adopt, List.length_append, length_adopt, Forest.length_entered,
          ← Forest.rootNumbers_append, Forest.entered_append, List.append_assoc]

/-- A source with one named root reads to the tree of that root. -/
lemma Source.read_of_root {s : Source} {root : Token} (htree : s.tree = .cons root kids .nil)
    (hnamed : root.named = true) (simplify : Bool) :
    (s.read simplify).tree = readTree s.text simplify root kids none := by
  rw [read, Ast.ofForest, htree, readForest_inner (by rw [Pick.skips, hnamed, Bool.not_true])]

/-- When the stack is empty, the program is entered as it is read. -/
lemma run_conversion {s : Source} {root : Token} (htree : s.tree = .cons root kids .nil)
    (hnamed : root.named = true) :
    (conversion s.text simplify).run [⟨root, kids, none, none⟩] [] = (s.read simplify).tree.entered none 0 := by
  rw [run_tree (entersAsRead _ _ _) (by rintro _ ⟨⟩), s.read_of_root htree hnamed]
  rfl

/-- Where the entries behind a node are right, its last child tells where its subtree ends. -/
lemma last_of_rows {f : Forest Node} {e : Forest.Entry Node} {k : Nat}
    (h : ∀ i, k < i → rows[i]? = (f.number none 0)[i]?) (he : (f.number none 0)[k]? = some e) :
    e.children.getLast?.elim k (fun c => rows[c]?.elim c (·.last)) = e.last := by
  have hrow : (Ast.ofForest "" f).row? k = some e := (Ast.row?_eq _ k).trans he
  have hlast := Ast.last_eq (.ofForest "" f) k
  have hchildren := fun c => Ast.mem_children (a := .ofForest "" f) (i := k) (c := c)
  rw [Ast.last, Ast.children, hrow, Option.elim_some, Option.elim_some] at hlast
  rw [Ast.children, hrow, Option.elim_some] at hchildren
  rw [hlast]
  cases hc : e.children.getLast? with
  | none => rfl
  | some c =>
    rw [Option.elim_some, Option.elim_some, h c (hchildren c (List.mem_of_getLast? hc)).1, Ast.last, Ast.row?_eq]
    rfl

/-- The state of a table in which the subtrees from `k` on have their ends. -/
def SettledFrom (f : Forest Node) (k : Nat) (rows : Rows) : Prop :=
  ∀ i, rows[i]? = if i < k then (f.entered none 0)[i]? else (f.number none 0)[i]?

/-- Settling a row settles everything from it on. -/
lemma SettledFrom.settle {f : Forest Node} {k : Nat} (h : SettledFrom f (k + 1) rows) :
    SettledFrom f k (settle k rows) := by
  intro i
  have hbehind : ∀ i, k < i → rows[i]? = (f.number none 0)[i]? := fun i hi => by
    rw [h i, if_neg (by omega)]
  rw [Syntax.settle, List.getElem?_modify]
  by_cases hik : k = i
  · subst hik
    rw [h k, if_pos (Nat.lt_succ_self k), if_neg (Nat.lt_irrefl k), Forest.getElem?_entered, Nat.zero_add]
    cases he : (f.number none 0)[k]? with
    | none => rfl
    | some e => simp only [if_true, Option.map_some, Option.map_eq_map, last_of_rows hbehind he]
  · have hiff : i < k + 1 ↔ i < k := by omega
    simp only [if_neg hik, id_map', h i, hiff]

/-- Settling all rows from the last to the first gives the numbered forest. -/
lemma SettledFrom.foldr_settle {f : Forest Node} {k : Nat} (h : SettledFrom f k rows) :
    (List.range k).foldr Syntax.settle rows = f.number none 0 := by
  induction k generalizing rows with
  | zero => exact List.ext_getElem? h
  | succ k ih =>
    rw [List.range_succ, List.foldr_append, List.foldr_cons, List.foldr_nil]
    exact ih h.settle

/-- Settling puts the ends of all subtrees right. -/
lemma settleAll_entered (f : Forest Node) : settleAll (f.entered none 0) = f.number none 0 := by
  refine SettledFrom.foldr_settle (f := f) fun i => ?_
  split
  · rfl
  · next hi =>
    rw [List.getElem?_eq_none (Nat.le_of_not_lt hi), List.getElem?_eq_none]
    rw [Forest.length_entered] at hi
    rw [Forest.length_number]
    exact Nat.le_of_not_lt hi

end Syntax

end Mend
