import Mathlib.Tactic.Lemma
import Mend.Text.Natural

/-!
# Numerals are read as they are written

The numeral of a number below the bound is read as that number (`readNatural_repr`); for words the bound
is no condition (`readWord_toString`). Numerals hold nothing but digits (`isDigit_of_mem_repr`).
-/

namespace Mend.Text

variable {bound v : Nat}

lemma readDigits_append (l r : List Char) :
    readDigits bound v (l ++ r) = (readDigits bound v l).bind fun w => readDigits bound w r := by
  induction l generalizing v with
  | nil => rfl
  | cons c l ih =>
    simp only [List.cons_append, readDigits]
    split
    · split
      · exact ih
      · rfl
    · rfl

lemma readDigits_digitChar {d : Nat} (hd : d < 10) (hbound : 10 * v + d < bound) :
    readDigits bound v [d.digitChar] = .ok (10 * v + d) := by
  have hdigit : d.digitChar.isDigit = true ∧ d.digitChar.toNat - '0'.toNat = d := by
    have hall : ∀ d < 10, d.digitChar.isDigit = true ∧ d.digitChar.toNat - '0'.toNat = d := by decide
    exact hall d hd
  rw [readDigits, if_pos hdigit.1, hdigit.2]
  dsimp only
  rw [if_pos hbound]
  rfl

/-- The digits of a number are read as that number. -/
lemma readDigits_toDigits {n : Nat} (hn : n < bound) :
    readDigits bound 0 (Nat.toDigits 10 n) = .ok n := by
  induction n using Nat.strongRecOn with
  | _ n ih =>
    rw [Nat.toDigits_eq_if (by decide)]
    split
    · next hlt =>
      rw [readDigits_digitChar hlt (by omega), Nat.mul_zero, Nat.zero_add]
    · next hge =>
      -- The last digit is read behind those of the tenth part.
      rw [readDigits_append, ih (n / 10) (by omega) (by omega)]
      change readDigits bound (n / 10) [(n % 10).digitChar] = .ok n
      rw [readDigits_digitChar (by omega) (by omega)]
      congr 1
      omega

lemma isDigit_of_mem_repr {n : Nat} {c : Char} (h : c ∈ n.repr.toList) : c.isDigit = true := by
  rw [Nat.toList_repr] at h
  exact Nat.isDigit_of_mem_toDigits (by decide) (by decide) h

lemma readNatural_repr {n : Nat} (hn : n < bound) : readNatural bound n.repr = .ok n := by
  have hdigits := readDigits_toDigits hn
  have hdigit : ∀ c ∈ n.repr.toList, c.isDigit = true := fun c => isDigit_of_mem_repr
  unfold readNatural
  rw [← Nat.toList_repr] at hdigits
  -- A numeral is not empty, and it does not begin with a sign.
  split
  · next hnil => simp [Nat.toList_repr, Nat.toDigits_ne_nil] at hnil
  · next hplus =>
    rw [hplus] at hdigit
    exact absurd (hdigit '+' List.mem_cons_self) (by decide)
  · next hplus =>
    rw [hplus] at hdigit
    exact absurd (hdigit '+' List.mem_cons_self) (by decide)
  · exact hdigits

lemma readWord_toString (n : UInt64) : readWord (toString n) = .ok n := by
  change (readNatural UInt64.size n.toNat.repr).map UInt64.ofNat = .ok n
  rw [readNatural_repr n.toNat_lt]
  exact congrArg Except.ok UInt64.ofNat_toNat

end Mend.Text
