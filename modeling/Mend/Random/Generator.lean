import Mend.Word.Row

/-!
# Random numbers

The ChaCha stream with twelve rounds as a source of random numbers. Block `n` of the stream depends on the
key and on `n` alone, so a generator is a key and the count of numbers drawn from it. The key is made from
a 64-bit seed by a linear congruential generator with permuted output.
-/

namespace Mend.Random

open Word (Row)

/-- The key of a stream: eight words. -/
structure Key where
  (low high : Row)
  deriving DecidableEq, Repr

/-- One step of the generator that makes keys. -/
def seedStep (state : UInt64) : UInt64 := state * 6364136223846793005 + 11634580027462260723

/-- The word that a state gives: its upper bits folded together and rotated by the uppermost five. -/
def seedWord (state : UInt64) : UInt32 :=
  let folded := (((state >>> 18) ^^^ state) >>> 27).toUInt32
  let turn := (state >>> 59).toUInt32
  (folded >>> turn) ||| (folded <<< ((32 - turn) % 32))

/-- The next four words, and the state after them. -/
def seedRow (state : UInt64) : Row × UInt64 :=
  let s1 := seedStep state
  let s2 := seedStep s1
  let s3 := seedStep s2
  let s4 := seedStep s3
  (⟨seedWord s1, seedWord s2, seedWord s3, seedWord s4⟩, s4)

/-- The key of a seed. -/
def Key.ofSeed (seed : UInt64) : Key :=
  let (low, state) := seedRow seed
  ⟨low, (seedRow state).1⟩

/-- Four rows of words. -/
structure State where
  (a b c d : Row)
  deriving DecidableEq, Repr

namespace State

/-- The quarter round on four lanes at once. -/
def mix (s : State) : State :=
  let a := s.a.zip (· + ·) s.b
  let d := (s.d.zip (· ^^^ ·) a).rotateBits 16
  let c := s.c.zip (· + ·) d
  let b := (s.b.zip (· ^^^ ·) c).rotateBits 20
  let a := a.zip (· + ·) b
  let d := (d.zip (· ^^^ ·) a).rotateBits 24
  let c := c.zip (· + ·) d
  let b := (b.zip (· ^^^ ·) c).rotateBits 25
  ⟨a, b, c, d⟩

/-- Two rounds: the columns, then the diagonals. -/
def doubleRound (s : State) : State :=
  let s := s.mix
  let s := mix ⟨s.a, s.b.shift, s.c.shift.shift, s.d.shift.shift.shift⟩
  ⟨s.a, s.b.shift.shift.shift, s.c.shift.shift, s.d.shift⟩

/-- `n` times two rounds. -/
def doubleRounds : Nat → State → State
  | 0, s => s
  | n + 1, s => doubleRounds n s.doubleRound

/-- The words row by row. -/
def words (s : State) : List UInt32 :=
  s.a.toList ++ s.b.toList ++ s.c.toList ++ s.d.toList

end State

/-- The words that spell the name of the cipher's expansion. -/
def expansion : Row := ⟨0x61707865, 0x3320646E, 0x79622D32, 0x6B206574⟩

/-- Block `n` of the stream. -/
def block (key : Key) (n : UInt64) : List UInt32 :=
  let start : State := ⟨expansion, key.low, key.high, ⟨n.toUInt32, (n >>> 32).toUInt32, 0, 0⟩⟩
  let mixed := start.doubleRounds 6
  let sum : State :=
    ⟨mixed.a.zip (· + ·) start.a, mixed.b.zip (· + ·) start.b, mixed.c.zip (· + ·) start.c,
     mixed.d.zip (· + ·) start.d⟩
  sum.words

/-- A stream of 64-bit numbers and how many of them were drawn. -/
structure Generator where
  key : Key
  drawn : Nat
  deriving DecidableEq, Repr

namespace Generator

/-- The generator of a seed, before any draw. -/
def ofSeed (seed : UInt64) : Generator := ⟨.ofSeed seed, 0⟩

/-- The next number: two words of the stream, the lower one first. A block holds eight numbers. -/
def next (g : Generator) : UInt64 × Generator :=
  let words := (block g.key (UInt64.ofNat (g.drawn / 8))).drop (2 * (g.drawn % 8))
  let value := match words with
    | low :: high :: _ => (high.toUInt64 <<< 32) ||| low.toUInt64
    | _ => 0
  (value, { g with drawn := g.drawn + 1 })

/-- A number in the unit interval, a multiple of `2 ^ -53`. -/
def unit (g : Generator) : Float × Generator :=
  let (v, g) := g.next
  ((v >>> 11).toFloat / 9007199254740992.0, g)

/-- The largest multiple of `n` that is a power of two times `n` and fits into a word, less one. -/
def zone (n : Nat) : Nat := n * Nat.pow 2 (63 - n.log2) - 1

/-- How many numbers a stream has before it starts again. -/
def period : Nat := Nat.pow 2 67

/-- Draws until the lower half of the product with `n` is at most the zone, which makes all results equally
likely; the upper half is the result. -/
def drawBelow (n : Nat) : Nat → Generator → Nat × Generator
  | 0, g => (0, g)
  | attempts + 1, g =>
    let (v, g) := g.next
    let product := v.toNat * n
    if product % UInt64.size ≤ zone n then (product / UInt64.size, g) else drawBelow n attempts g

/-- A number below `n`. -/
def below (n : Nat) (g : Generator) : Nat × Generator := drawBelow n period g

end Generator

end Mend.Random
