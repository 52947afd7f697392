import Mend.Word.Row

/-!
# BLAKE3

The BLAKE3 hash in its default mode, cut to the first eight bytes of its output. A message is split into
chunks of 1024 bytes, a chunk into blocks of 64; every block is mixed into a chaining value by seven
rounds, and the chunks are joined by a binary tree whose left side holds the largest power of two of
chunks that leaves something for the right side. The last compression, at the root, gives the output.

The sixteen words of the mixing state are kept as four rows of four. One quarter round then works on whole
rows, and the diagonal half of a round is the same step on rows rotated against each other.
-/

namespace Mend.Digest.Blake3

open Word (Row)

/-- The first row of initial values. -/
def ivLow : Row := ⟨0x6A09E667, 0xBB67AE85, 0x3C6EF372, 0xA54FF53A⟩

/-- The second row of initial values. -/
def ivHigh : Row := ⟨0x510E527F, 0x9B05688C, 0x1F83D9AB, 0x5BE0CD19⟩

/-- The mixing state. -/
structure State where
  (a b c d : Row)

/-- The quarter round on four lanes at once, with the two message words of each lane. -/
def State.mix (s : State) (mx my : Row) : State :=
  let a := (s.a.zip (· + ·) s.b).zip (· + ·) mx
  let d := (s.d.zip (· ^^^ ·) a).rotateBits 16
  let c := s.c.zip (· + ·) d
  let b := (s.b.zip (· ^^^ ·) c).rotateBits 12
  let a := (a.zip (· + ·) b).zip (· + ·) my
  let d := (d.zip (· ^^^ ·) a).rotateBits 8
  let c := c.zip (· + ·) d
  let b := (b.zip (· ^^^ ·) c).rotateBits 7
  ⟨a, b, c, d⟩

/-- One round: the columns, then the diagonals. -/
def State.round (s : State) (m : Vector UInt32 16) : State :=
  let s := s.mix ⟨m[0], m[2], m[4], m[6]⟩ ⟨m[1], m[3], m[5], m[7]⟩
  let s : State := ⟨s.a, s.b.shift, s.c.shift.shift, s.d.shift.shift.shift⟩
  let s := s.mix ⟨m[8], m[10], m[12], m[14]⟩ ⟨m[9], m[11], m[13], m[15]⟩
  ⟨s.a, s.b.shift.shift.shift, s.c.shift.shift, s.d.shift⟩

/-- The order in which the next round reads the message words. -/
def permute (m : Vector UInt32 16) : Vector UInt32 16 :=
  #v[m[2], m[6], m[3], m[10], m[7], m[0], m[4], m[13],
     m[1], m[11], m[12], m[5], m[9], m[14], m[15], m[8]]

/-- `n` rounds, the message permuted between them. -/
def State.rounds : Nat → State → Vector UInt32 16 → State
  | 0, s, _ => s
  | n + 1, s, m => State.rounds n (s.round m) (permute m)

/-- A chaining value: eight words. -/
structure Chain where
  (low high : Row)
  deriving DecidableEq, Repr

/-- The chaining value that every chunk and every join starts from. -/
def Chain.initial : Chain := ⟨ivLow, ivHigh⟩

/-- Marks the first block of a chunk. -/
def chunkStart : UInt32 := 1
/-- Marks the last block of a chunk. -/
def chunkEnd : UInt32 := 2
/-- Marks the join of two subtrees. -/
def parentNode : UInt32 := 4
/-- Marks the compression that gives the output. -/
def rootNode : UInt32 := 8

/-- Everything one compression reads. -/
structure Input where
  chain : Chain
  words : Vector UInt32 16
  /-- The number of the chunk. -/
  counter : UInt64
  /-- The number of bytes that the block holds. -/
  length : UInt32
  flags : UInt32

/-- Mixes a block into its chaining value. -/
def Input.compress (i : Input) : Chain :=
  let d : Row := ⟨i.counter.toUInt32, (i.counter >>> 32).toUInt32, i.length, i.flags⟩
  let s := State.rounds 7 ⟨i.chain.low, i.chain.high, ivLow, d⟩ i.words
  ⟨s.a.zip (· ^^^ ·) s.c, s.b.zip (· ^^^ ·) s.d⟩

/-- The byte at `i`; past `stop`, zero. -/
def byteBelow (bytes : ByteArray) (stop i : Nat) : UInt8 :=
  if i < stop then (bytes[i]?).getD 0 else 0

/-- The block at `start`, as little-endian words, filled up with zeros from `stop`. -/
def blockWords (bytes : ByteArray) (start stop : Nat) : Vector UInt32 16 :=
  Vector.ofFn fun j : Fin 16 =>
    let byte k := (byteBelow bytes stop (start + 4 * j.val + k)).toUInt32
    byte 0 ||| (byte 1 <<< 8) ||| (byte 2 <<< 16) ||| (byte 3 <<< 24)

/-- The last compression of the chunk that runs from `start` to `stop`, when `chain` holds the blocks
mixed so far and `flags` the mark of the first block as long as it is not mixed. -/
def chunkInput (bytes : ByteArray) (counter : UInt64) (start stop : Nat) (chain : Chain)
    (flags : UInt32) : Input :=
  if stop ≤ start + 64 then
    ⟨chain, blockWords bytes start stop, counter, UInt32.ofNat (stop - start), flags ||| chunkEnd⟩
  else
    let block : Input := ⟨chain, blockWords bytes start stop, counter, 64, flags⟩
    chunkInput bytes counter (start + 64) stop block.compress 0
termination_by stop - start

/-- The sixteen words of a join: the two chaining values side by side. -/
def joinWords (l r : Chain) : Vector UInt32 16 :=
  #v[l.low.x, l.low.y, l.low.z, l.low.w, l.high.x, l.high.y, l.high.z, l.high.w,
     r.low.x, r.low.y, r.low.z, r.low.w, r.high.x, r.high.y, r.high.z, r.high.w]

/-- The number of bytes on the left of a subtree of `length` bytes: the largest power of two of chunks
that leaves something on the right. -/
def leftLength (length : Nat) : Nat :=
  1024 * Nat.pow 2 (Nat.log2 ((length - 1) / 1024))

theorem leftLength_pos (length : Nat) : 0 < leftLength length :=
  Nat.mul_pos (by decide) (Nat.pow_pos (by decide))

theorem leftLength_lt {length : Nat} (h : 1024 < length) : leftLength length < length := by
  have hq : (length - 1) / 1024 ≠ 0 := by omega
  have := Nat.log2_self_le hq
  have := Nat.mul_le_mul_left 1024 this
  have := Nat.div_mul_le_self (length - 1) 1024
  simp only [leftLength, Nat.pow_eq]
  omega

/-- The last compression of the subtree over `length` bytes from `start`. -/
def treeInput (bytes : ByteArray) (start length : Nat) : Input :=
  if 1024 < length then
    let left := leftLength length
    let l := (treeInput bytes start left).compress
    let r := (treeInput bytes (start + left) (length - left)).compress
    ⟨.initial, joinWords l r, 0, 64, parentNode⟩
  else
    chunkInput bytes (UInt64.ofNat (start / 1024)) start (start + length) .initial chunkStart
termination_by length
decreasing_by
  · exact leftLength_lt ‹1024 < length›
  · exact Nat.sub_lt (Nat.zero_lt_of_lt ‹1024 < length›) (leftLength_pos length)

/-- The first eight bytes of the hash of `bytes`, as a little-endian number. -/
def hash (bytes : ByteArray) : UInt64 :=
  let root := treeInput bytes 0 bytes.size
  let out := Input.compress { root with flags := root.flags ||| rootNode }
  out.low.x.toUInt64 ||| (out.low.y.toUInt64 <<< 32)

end Mend.Digest.Blake3
