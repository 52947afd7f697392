import Mathlib
import Mend.Feature.OfAnalysis
import Mend.Proofs.Comparison
import Mend.Proofs.Feature.Tally
import Mend.Proofs.Keyword.Uses
import Mend.Proofs.Scope.Partition

/-!
# No keyword use is lost

The vectors of a comparison count, taken together, every use that the nodes of the repaired file
contribute, and every removed use of the buggy file, each once. The scopes of a file share out its nodes
(`sum_count_ownNodes`), every buggy scope is adopted by one repaired scope (`exists_adopter?`), and what a
vector counts is what its own scope and the scopes it adopts contribute (`count_vector`).
-/

namespace Mend

open Keyword (Extractor Registry Use usesOf)
open Syntax (Ast Source)

/-- The scopes of a file share out what its nodes contribute. -/
lemma sum_count_ownNodes {r : Revision} (registry : Registry) (h : r.toAst.IsScript) (u : Use) :
    ((ScopeTree.ofAst r.toAst).ids.map fun s =>
        (usesOf r registry ((ScopeTree.ofAst r.toAst).ownNodes s)).count u).sum =
      (usesOf r registry r.ids).count u := by
  have hroot := h.not_isFunction
  have hkind := h.kind_zero
  obtain ⟨x, kids, hT, -⟩ := h
  have hzero : Extractor.usesAt ⟨r.toAst, registry⟩ (r.change 0) 0 = [] :=
    Extractor.usesAt_eq_nil ⟨r.toAst, registry⟩ 0 _ (.inl hkind)
  have hperm := (ScopeTree.perm_ownNodes hT hroot).flatMap_right
    fun i => Extractor.usesAt ⟨r.toAst, registry⟩ (r.change i) i
  rw [Ast.ids_of_root hT, usesOf, List.flatMap_cons, hzero, List.nil_append, ← hperm.count_eq,
    List.flatMap_assoc, List.count_flatMap]
  rfl

/-- A sum with one term other than zero. -/
lemma sum_range_ite (n k v : Nat) :
    ((List.range n).map fun j => if j = k then v else 0).sum = if k < n then v else 0 := by
  induction n with
  | zero => simp
  | succ n ih =>
    simp only [List.range_succ, List.map_append, List.sum_append, ih, List.map_cons, List.map_nil,
      List.sum_singleton]
    rcases Nat.lt_trichotomy k n with hk | rfl | hk
    · rw [if_pos hk, if_neg (by omega), if_pos (by omega), Nat.add_zero]
    · rw [if_neg (by omega), if_pos rfl, if_pos (by omega), Nat.zero_add]
    · rw [if_neg (by omega), if_neg (by omega), if_neg (by omega)]

/-- Sharing out a list by the values of a function keeps sums. -/
lemma sum_fibers {n : Nat} {f : Nat → Option Nat} (g : Nat → Nat) {l : List Nat}
    (h : ∀ i ∈ l, ∃ k < n, f i = some k) :
    ((List.range n).map fun k => ((l.filter fun i => f i == some k).map g).sum).sum =
      (l.map g).sum := by
  induction l with
  | nil => simp
  | cons i l ih =>
    obtain ⟨k, hk, hf⟩ := h i List.mem_cons_self
    have hsplit : ∀ k', (((i :: l).filter fun i => f i == some k').map g).sum =
        (if k' = k then g i else 0) + ((l.filter fun i => f i == some k').map g).sum := by
      intro k'
      by_cases hkk : k' = k
      · simp [hf, hkk]
      · have : (some k == some k') = false := by simpa using fun h => hkk h.symm
        simp [hf, hkk, this]
    simp only [hsplit]
    rw [List.sum_map_add, sum_range_ite, if_pos hk, ih fun j hj => h j (List.mem_cons_of_mem _ hj), List.map_cons,
      List.sum_cons]

namespace Analysis

variable {x : Analysis} {p : Provenance} {c : Comparison}

/-- How often a node of a side emits a use. -/
def emittedAt (x : Analysis) (side : Side) (u : Use) (i : Nat) : Nat :=
  let r := x.revision side
  (Extractor.usesAt ⟨r.toAst, .ofAst r.toAst⟩ (r.change i) i).count u

/-- How often the nodes of a side emit a use, taken together. -/
def emitted (x : Analysis) (side : Side) (u : Use) : Nat :=
  ((List.range (x.revision side).size).map (x.emittedAt side u)).sum

/-- How often a use is to be counted: as often as the nodes of the repaired file emit it, and, if it is a
removed one, as often as those of the buggy file do. -/
def due (x : Analysis) (u : Use) : Nat :=
  x.emitted .repaired u + if u.change = .removed then x.emitted .buggy u else 0

/-- What the nodes emit one by one is what they contribute to a list of uses. -/
lemma emitted_eq (x : Analysis) (side : Side) (u : Use) : x.emitted side u =
    (usesOf (x.revision side) (.ofAst (x.revision side).toAst) (x.revision side).ids).count u :=
  List.count_flatMap.symm

/-- What a buggy scope contributes to the vector that adopts it. -/
def taken (x : Analysis) (registry : Registry) (u : Use) (old : Nat) : Nat :=
  if u.change = .removed then (x.usesIn .buggy registry old).count u else 0

/-- Adopting a function adds the uses it is taken for. -/
lemma count_adopt (registry : Registry) (v : FeatureVector) (old : Nat) (u : Use) :
    (x.adopt registry v old).count u = v.count u + UInt64.ofNat (x.taken registry u old) := by
  rw [adopt, FeatureVector.count_join, taken]
  congr 1
  split
  · rw [FeatureVector.count_addUses]
    exact UInt64.zero_add _
  · rfl

/-- Adopting functions adds the uses of each. -/
lemma count_foldl_adopt (registry : Registry) (v : FeatureVector) (olds : List Nat) (u : Use) :
    (olds.foldl (x.adopt registry) v).count u =
      v.count u + UInt64.ofNat (olds.map (x.taken registry u)).sum := by
  induction olds generalizing v with
  | nil => simp
  | cons old olds ih =>
    rw [List.foldl_cons, ih, count_adopt, List.map_cons, List.sum_cons, UInt64.ofNat_add,
      UInt64.add_assoc]

/-- A scope's own vector counts the uses in the scope. -/
lemma count_ownVector (registry : Registry) (id : UInt64) (new : Nat) (u : Use) :
    (x.ownVector registry id new).count u =
      UInt64.ofNat ((x.usesIn .repaired registry new).count u) := by
  rw [ownVector, FeatureVector.count_addUses]
  exact UInt64.zero_add _

/-- The partner of a scope is a scope. -/
lemma lt_size_of_repairedPartner? {old new : Nat} (h : x.repairedPartner? old = some new) :
    new < x.repairedScopes.size := by
  unfold repairedPartner? at h
  split at h
  · split at h
    · cases h
    · cases h
      omega
  · obtain ⟨d, -, hd⟩ := Option.bind_eq_some_iff.1 h
    exact ScopeTree.lt_size_of_scopeOf? hd

/-- Every buggy scope is adopted by one of the repaired scopes: the script adopts it if no scope further
inside does. -/
lemma exists_adopter? (hbuggy : c.buggy.toAst.IsScript) (hrepaired : c.repaired.toAst.IsScript)
    {old : Nat} (hold : old < (of p c).buggyScopes.size) :
    ∃ new < (of p c).repairedScopes.size, (of p c).adopter? old = some new := by
  have hroot := hbuggy.not_isFunction
  obtain ⟨y, kids, hT, -⟩ := hbuggy
  have hchain : 0 ∈ (of p c).buggyScopes.chain old := ScopeTree.zero_mem_chain hT hroot hold
  -- The script is the last on the way out of a scope, and its partner is the other script.
  have hroot' := hrepaired.not_isFunction
  obtain ⟨y', kids', hT', -⟩ := hrepaired
  have hsize : (of p c).repairedScopes.size ≠ 0 := by
    have howners : (of p c).repairedScopes.owners = _ := ScopeTree.owners_of_root hT' hroot'
    rw [ScopeTree.size, howners]
    exact Nat.succ_ne_zero _
  have hzero : (of p c).repairedPartner? 0 = some 0 := by
    rw [repairedPartner?, if_pos rfl, if_neg hsize]
  have hsome : ((of p c).adopter? old).isSome := by
    rw [adopter?, List.findSome?_isSome_iff]
    exact ⟨0, hchain, by rw [hzero]; rfl⟩
  obtain ⟨new, hnew⟩ := Option.isSome_iff_exists.1 hsome
  obtain ⟨s, -, hs⟩ := List.exists_of_findSome?_eq_some hnew
  exact ⟨new, lt_size_of_repairedPartner? hs, hnew⟩

/-- What the vector of a repaired scope should count. -/
def share (x : Analysis) (u : Use) (new : Nat) : Nat :=
  (x.usesIn .repaired (Registry.ofAst x.comparison.repaired.toAst) new).count u +
    ((x.adopted.filter fun old => x.adopter? old == some new).map
      (x.taken (Registry.ofAst x.comparison.buggy.toAst) u)).sum

/-- A vector counts what its own scope and the scopes it adopts contribute. -/
lemma map_count_vectors (x : Analysis) (ids : IdSource) (u : Use) :
    (x.vectors ids).1.map (fun v => (v.count u).toNat) =
      x.repairedScopes.ids.map fun new => x.share u new % 2 ^ 64 := by
  simp only [vectors, List.map_map]
  refine List.map_congr_left fun new _ => ?_
  rw [Function.comp_apply, count_foldl_adopt, count_ownVector, ← UInt64.ofNat_add,
    UInt64.toNat_ofNat', share]

/-- The shares of the repaired scopes are all that is emitted. -/
lemma sum_share (hbuggy : c.buggy.toAst.IsScript) (hrepaired : c.repaired.toAst.IsScript) (u : Use) :
    ((of p c).repairedScopes.ids.map ((of p c).share u)).sum = (of p c).due u := by
  -- As every buggy scope has its adopter, sharing them out by adopters loses none.
  have hall : (of p c).adopted = (of p c).buggyScopes.ids := by
    refine List.filter_eq_self.2 fun old hold => ?_
    obtain ⟨new, -, hnew⟩ := exists_adopter? (p := p) hbuggy hrepaired (List.mem_range.1 hold)
    rw [hnew]
    rfl
  have hown : ((of p c).repairedScopes.ids.map fun new =>
      ((of p c).usesIn .repaired (Registry.ofAst c.repaired.toAst) new).count u).sum =
        (of p c).emitted .repaired u :=
    (sum_count_ownNodes _ hrepaired u).trans ((of p c).emitted_eq .repaired u).symm
  have htaken : ((of p c).buggyScopes.ids.map
      ((of p c).taken (Registry.ofAst c.buggy.toAst) u)).sum =
        if u.change = .removed then (of p c).emitted .buggy u else 0 := by
    unfold taken
    split
    · exact (sum_count_ownNodes _ hbuggy u).trans ((of p c).emitted_eq .buggy u).symm
    · simp
  unfold share
  rw [List.sum_map_add, hall]
  congr 1
  · rw [← htaken]
    exact sum_fibers _ fun old hold =>
      exists_adopter? hbuggy hrepaired (List.mem_range.1 hold)

/-- No use is emitted more often than five times a node. -/
lemma emitted_le (x : Analysis) (side : Side) (u : Use) :
    x.emitted side u ≤ 5 * (x.revision side).size := by
  rw [emitted_eq]
  refine Nat.le_trans List.count_le_length (Nat.le_trans (Keyword.length_usesOf_le _) ?_)
  rw [Ast.ids, List.length_range]

/-- How often the vectors of a comparison count a use, taken together. -/
def counted (x : Analysis) (ids : IdSource) (u : Use) : Nat :=
  ((x.vectors ids).1.map fun v => (v.count u).toNat).sum

/-- The vectors of two texts count every use of the repaired file and every removed use of the buggy file
once: as 64-bit words, and so in numbers, the trees of either text being no larger than 32-bit node numbers
allow. -/
theorem vectors_conserve_uses {simplify : Bool} {buggy repaired : Source}
    (hbuggy : buggy.IsScript) (hrepaired : repaired.IsScript)
    (h : compare simplify buggy repaired = .ok c) (p : Provenance) (ids : IdSource) (u : Use) :
    (of p c).counted ids u % 2 ^ 64 = (of p c).due u % 2 ^ 64 ∧
      (c.buggy.size ≤ 2 ^ 32 → c.repaired.size ≤ 2 ^ 32 →
        (of p c).counted ids u = (of p c).due u) := by
  obtain ⟨hb, hr⟩ := compare_eq_ok h
  have hshare := sum_share (p := p) (c := c) (hb ▸ hbuggy.read simplify) (hr ▸ hrepaired.read simplify) u
  rw [← hshare]
  have hcounted : (of p c).counted ids u =
      (((of p c).repairedScopes.ids.map ((of p c).share u)).map (· % 2 ^ 64)).sum := by
    rw [counted, map_count_vectors, List.map_map]
    rfl
  have hmod : (of p c).counted ids u % 2 ^ 64 =
      ((of p c).repairedScopes.ids.map ((of p c).share u)).sum % 2 ^ 64 := by
    rw [hcounted, ← List.sum_nat_mod]
  refine ⟨hmod, fun hbsize hrsize => ?_⟩
  -- Nothing is lost to the word size, because no node contributes more than five uses.
  have hle : (of p c).counted ids u ≤ ((of p c).repairedScopes.ids.map ((of p c).share u)).sum := by
    rw [hcounted]
    refine Nat.le_trans (List.sum_le_sum fun n _ => Nat.mod_le n (2 ^ 64)) ?_
    rw [List.map_id']
  have hbound : ((of p c).repairedScopes.ids.map ((of p c).share u)).sum < 2 ^ 64 := by
    rw [hshare, due]
    have hbuggy' : (of p c).emitted .buggy u ≤ 5 * c.buggy.size := emitted_le _ .buggy u
    have hrepaired' : (of p c).emitted .repaired u ≤ 5 * c.repaired.size := emitted_le _ .repaired u
    split <;> omega
  rwa [Nat.mod_eq_of_lt (Nat.lt_of_le_of_lt hle hbound), Nat.mod_eq_of_lt hbound] at hmod

/-- A named token without a role and without faults, in the first line. -/
def plainToken (kind : String) (start stop : Nat) : Syntax.Token :=
  ⟨kind, none, start, stop, 0, true, false, false, false⟩

/-- The program `throw e`. -/
def throwing : Source := ⟨"throw e", .cons (plainToken "program" 0 7)
  (.cons (plainToken "throw_statement" 0 7) (.cons (plainToken "identifier" 6 7) .nil .nil) .nil) .nil⟩

/-- The program `return e`. -/
def returning : Source := ⟨"return e", .cons (plainToken "program" 0 8)
  (.cons (plainToken "return_statement" 0 8) (.cons (plainToken "identifier" 7 8) .nil .nil) .nil) .nil⟩

/-- The keyword of a statement that a repair took away. -/
def removedThrow : Use := ⟨.reserved, .statement, .removed, Keyword.globalApi, "throw"⟩

/-- No node of the repair is of the kind of the statement, which therefore has no partner. -/
lemma change_throwing (h : compare false throwing returning = .ok c) : c.buggy.change 1 = .removed := by
  obtain ⟨hb, hr⟩ := compare_eq_ok h
  have hc := compare_consistent h (by decide +kernel)
  refine (hc.removed_iff 1 (by rw [hb]; decide)).2 (Option.eq_none_iff_forall_ne_some.2 fun d hd => ?_)
  obtain ⟨-, hlt⟩ := hc.lt_size 1 d hd
  have hkind := hc.kind_eq 1 d hd
  have hkinds : ∀ d < 3, (throwing.read false).kind 1 ≠ (returning.read false).kind d := by decide
  rw [hb, hr] at hkind
  rw [hr] at hlt
  exact hkinds d hlt hkind

/-- The statement emits its keyword once, and no other node of the two trees emits it. -/
lemma due_throwing (h : compare false throwing returning = .ok c) : (of p c).due removedThrow = 1 := by
  obtain ⟨hb, hr⟩ := compare_eq_ok h
  have hbuggy : (of p c).emitted .buggy removedThrow = 1 := by
    have hsize : ((of p c).revision .buggy).size = 3 := congrArg Ast.size hb
    have hat : ∀ i, (of p c).emittedAt .buggy removedThrow i =
        (Extractor.usesAt ⟨throwing.read false, .ofAst (throwing.read false)⟩ (c.buggy.change i) i).count
          removedThrow := fun i => by rw [← hb]; rfl
    have hone : (of p c).emittedAt .buggy removedThrow 1 = 1 := by
      rw [hat, change_throwing h]
      decide +kernel
    have hother : ∀ i ∈ [0, 2], (of p c).emittedAt .buggy removedThrow i = 0 := by
      intro i hi
      rw [hat]
      fin_cases hi <;> cases c.buggy.change _ <;> decide +kernel
    rw [emitted, hsize, show List.range 3 = [0, 1, 2] from rfl, List.map_cons, List.map_cons, List.map_cons,
      hother 0 (by decide), hone, hother 2 (by decide)]
    rfl
  have hrepaired : (of p c).emitted .repaired removedThrow = 0 := by
    have hsize : ((of p c).revision .repaired).size = 3 := congrArg Ast.size hr
    have hat : ∀ i, (of p c).emittedAt .repaired removedThrow i =
        (Extractor.usesAt ⟨returning.read false, .ofAst (returning.read false)⟩ (c.repaired.change i) i).count
          removedThrow := fun i => by rw [← hr]; rfl
    rw [emitted, hsize]
    refine List.sum_eq_zero (List.forall_mem_map.2 fun i hi => ?_)
    have hi := List.mem_range.1 hi
    rw [hat]
    interval_cases i <;> cases c.repaired.change _ <;> decide +kernel
  rw [due, hbuggy, hrepaired]
  rfl

/-- A statement that a repair took away is counted, once, in the vector of the script. -/
theorem vectors_conserve_uses_throwing :
    throwing.IsScript ∧ returning.IsScript ∧ ∃ c, compare false throwing returning = .ok c ∧
      (of .empty c).due removedThrow = 1 ∧ (of .empty c).counted .start removedThrow = 1 := by
  have hthrowing : throwing.IsScript := ⟨_, _, rfl, rfl, rfl⟩
  have hreturning : returning.IsScript := ⟨_, _, rfl, rfl, rfl⟩
  have hok : ∃ c, compare false throwing returning = .ok c :=
    compare_of_tellsApart (by decide) (by decide) rfl rfl (by decide +kernel)
  obtain ⟨c, hc⟩ := hok
  obtain ⟨hb, hr⟩ := compare_eq_ok hc
  have hdue : (of .empty c).due removedThrow = 1 := due_throwing hc
  have h := vectors_conserve_uses hthrowing hreturning hc .empty .start removedThrow
  exact ⟨hthrowing, hreturning, c, hc, hdue, (h.2 (by rw [hb]; decide) (by rw [hr]; decide)).trans hdue⟩

end Analysis

end Mend
