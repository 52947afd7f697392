/-!
# Rows of words

Four 32-bit words that are mixed lane by lane. The mixing steps of hash functions and stream ciphers work on
four such rows at once.
-/

namespace Mend.Word

/-- Four words. -/
structure Row where
  (x y z w : UInt32)
  deriving DecidableEq, Repr

namespace Row

/-- Joins two rows lane by lane. -/
def zip (f : UInt32 → UInt32 → UInt32) (a b : Row) : Row :=
  ⟨f a.x b.x, f a.y b.y, f a.z b.z, f a.w b.w⟩

/-- Rotates every word to the right by `n` bits. -/
def rotateBits (n : UInt32) (a : Row) : Row :=
  let turn (v : UInt32) : UInt32 := (v >>> n) ||| (v <<< (32 - n))
  ⟨turn a.x, turn a.y, turn a.z, turn a.w⟩

/-- Moves every word one lane to the left. -/
def shift (a : Row) : Row := ⟨a.y, a.z, a.w, a.x⟩

/-- The four words in order. -/
def toList (a : Row) : List UInt32 := [a.x, a.y, a.z, a.w]

end Row

end Mend.Word
