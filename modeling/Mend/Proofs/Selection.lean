import Mathlib.Order.Lattice
import Mathlib.Tactic.Lemma
import Mend.Matching.Phases

/-!
# The best member

The best member of a list is a member (`mem_of_best?`), and every list but the empty one has one
(`exists_best?`). Where beating means to have more of something, the best member has the most of it
(`le_of_best?`); if no two members have as much, the order of the list plays no part (`best?_perm`).
-/

namespace Mend

variable {α : Type} {l l' : List α} {x : α}

lemma mem_of_best? {beats : α → α → Bool}
    (h : best? beats l = some x) : x ∈ l := by
  have hfold : ∀ (l : List α) (y : α),
      l.foldl (fun b z => if beats z b then z else b) y ∈ y :: l := by
    intro l
    induction l with
    | nil => simp
    | cons z l ih =>
      intro y
      rw [List.foldl_cons]
      split
      · exact List.mem_cons_of_mem _ (ih z)
      · rcases List.mem_cons.1 (ih y) with h | h
        · rw [h]
          exact List.mem_cons_self
        · exact List.mem_cons_of_mem _ (List.mem_cons_of_mem _ h)
  cases l with
  | nil => simp [best?] at h
  | cons y l =>
    simp only [best?, Option.some.injEq] at h
    exact h ▸ hfold l y

lemma exists_best? (beats : α → α → Bool) (h : x ∈ l) :
    ∃ y, best? beats l = some y := by
  cases l with
  | nil => simp at h
  | cons z l => exact ⟨_, rfl⟩

/-- The best member depends only on how members compare with those before them. -/
lemma best?_congr {p q : α → α → Bool}
    (h : l.Pairwise fun x y => p y x = q y x) : best? p l = best? q l := by
  have hfold : ∀ (xs : List α) (b : α), (b :: xs).Pairwise (fun x y => p y x = q y x) →
      xs.foldl (fun b y => if p y b then y else b) b = xs.foldl (fun b y => if q y b then y else b) b := by
    intro xs
    induction xs with
    | nil => exact fun _ _ => rfl
    | cons y xs ih =>
      intro b hb
      obtain ⟨hhead, htail⟩ := List.pairwise_cons.1 hb
      have hskip : (b :: xs).Pairwise fun x y => p y x = q y x :=
        .cons (fun z hz => hhead z (List.mem_cons_of_mem _ hz)) (List.pairwise_cons.1 htail).2
      rw [List.foldl_cons, List.foldl_cons, hhead y List.mem_cons_self]
      split
      · exact ih y htail
      · exact ih b hskip
  cases l with
  | nil => rfl
  | cons x xs => exact congrArg some (hfold xs x h)

section

variable {β : Type} [LinearOrder β] {key : α → β} {beats : α → α → Bool}

lemma le_of_best? (hb : ∀ x ∈ l, ∀ y ∈ l, beats x y = true ↔ key y < key x)
    (h : best? beats l = some x) : ∀ y ∈ l, key y ≤ key x := by
  have hfold : ∀ (l : List α) (z : α), (∀ x ∈ z :: l, ∀ y ∈ z :: l, beats x y = true ↔ key y < key x) →
      ∀ y ∈ z :: l, key y ≤ key (l.foldl (fun b y => if beats y b then y else b) z) := by
    intro l
    induction l with
    | nil =>
      intro z _ y hy
      rw [List.mem_singleton.1 hy]
      exact le_refl (key z)
    | cons w l ih =>
      intro z hb y hy
      have hwz := hb w (List.mem_cons_of_mem z List.mem_cons_self) z List.mem_cons_self
      rw [List.foldl_cons]
      -- The better of the first two goes on, and neither of them is better.
      obtain ⟨hmem, hz, hw⟩ : (if beats w z then w else z) ∈ [z, w] ∧
          key z ≤ key (if beats w z then w else z) ∧ key w ≤ key (if beats w z then w else z) := by
        split
        · next hbeats => exact ⟨by simp, le_of_lt (hwz.1 hbeats), le_refl _⟩
        · next hbeats => exact ⟨by simp, le_refl _, le_of_not_gt fun hlt => hbeats (hwz.2 hlt)⟩
      generalize (if beats w z then w else z) = n at hmem hz hw ⊢
      have hsub : ∀ x ∈ n :: l, x ∈ z :: w :: l := by
        intro x hx
        rcases List.mem_cons.1 hx with rfl | hx
        · exact List.mem_append_left l hmem
        · exact List.mem_cons_of_mem z (List.mem_cons_of_mem w hx)
      have ih := ih n fun x hx y hy => hb x (hsub x hx) y (hsub y hy)
      rcases List.mem_cons.1 hy with rfl | hy
      · exact le_trans hz (ih n List.mem_cons_self)
      · rcases List.mem_cons.1 hy with rfl | hy
        · exact le_trans hw (ih n List.mem_cons_self)
        · exact ih y (List.mem_cons_of_mem n hy)
  cases l with
  | nil => cases h
  | cons z l =>
    cases h
    exact hfold l z hb

/-- Where no two members are equally good, the best one does not depend on the order of the list. -/
lemma best?_perm (hb : ∀ x ∈ l, ∀ y ∈ l, beats x y = true ↔ key y < key x)
    (hinj : ∀ x ∈ l, ∀ y ∈ l, key x = key y → x = y) (hp : l'.Perm l) :
    best? beats l' = best? beats l := by
  cases hl : best? beats l with
  | none =>
    cases l with
    | nil => rw [hp.eq_nil, best?]
    | cons z l => cases hl
  | some x =>
    have hx := mem_of_best? hl
    obtain ⟨y, hy⟩ := exists_best? beats (hp.mem_iff.2 hx)
    have hb' : ∀ x ∈ l', ∀ y ∈ l', beats x y = true ↔ key y < key x :=
      fun x hx y hy => hb x (hp.mem_iff.1 hx) y (hp.mem_iff.1 hy)
    have hmem := hp.mem_iff.1 (mem_of_best? hy)
    have hle := le_of_best? hb hl y hmem
    have hge := le_of_best? hb' hy x (hp.mem_iff.2 hx)
    rw [hy, hinj y hmem x hx (le_antisymm hle hge)]

end

end Mend
