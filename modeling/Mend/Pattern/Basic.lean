import Mend.Pattern.CharClass

/-!
# Patterns

Patterns that a text is searched for. The positions of a text, from before its first character to after its
last, are the bits of a natural number, so a set of positions is one number. A pattern leads from a set of
positions to the set of positions where a match that started in the first set can end; a text holds a match
if the set reached from all positions is not empty.
-/

namespace Mend.Pattern

/-- A condition on the characters before and after a position. -/
inductive Look where
  | textStart
  | textEnd
  | lineStart
  | lineEnd
  /-- The start of a line that may end in a carriage return as well. -/
  | looseLineStart
  /-- The end of a line that may end in a carriage return as well. -/
  | looseLineEnd
  /-- Between a word character and another character. -/
  | wordEdge (word : CharClass)
  | noWordEdge (word : CharClass)
  | wordStart (word : CharClass)
  | wordEnd (word : CharClass)
  /-- Not after a word character. -/
  | wordStartHalf (word : CharClass)
  /-- Not before a word character. -/
  | wordEndHalf (word : CharClass)
  deriving DecidableEq, Repr

namespace Look

/-- Whether the condition holds between two characters; at the ends of the text there is none. -/
def holds (look : Look) (before after : Option Char) : Bool :=
  match look with
  | textStart => before.isNone
  | textEnd => after.isNone
  | lineStart => before.isNone || before == some '\n'
  | lineEnd => after.isNone || after == some '\n'
  | looseLineStart =>
    before.isNone || before == some '\n' || (before == some '\r' && after != some '\n')
  | looseLineEnd =>
    after.isNone || after == some '\r' || (after == some '\n' && before != some '\r')
  | wordEdge word => before.any word.contains != after.any word.contains
  | noWordEdge word => before.any word.contains == after.any word.contains
  | wordStart word => !before.any word.contains && after.any word.contains
  | wordEnd word => before.any word.contains && !after.any word.contains
  | wordStartHalf word => !before.any word.contains
  | wordEndHalf word => !after.any word.contains

end Look

/-- A pattern. -/
inductive Regex where
  /-- Matches the empty text. -/
  | empty
  /-- Matches one character of a set. -/
  | one (k : CharClass)
  | look (l : Look)
  | seq (a b : Regex)
  | alt (a b : Regex)
  /-- Matches a number of times in a row, with a least and perhaps a greatest number. -/
  | times (a : Regex) (least : Nat) (greatest : Option Nat)
  deriving DecidableEq, Repr

/-- A set of positions: position `i` is a member if bit `i` is set. -/
abbrev Positions := Nat

/-- The positions below `n` that satisfy a condition. -/
def positionsWhere (n : Nat) (p : Nat → Bool) : Positions :=
  (List.range n).foldl (fun s i => if p i then s ||| 1 <<< i else s) 0

/-- What is reached by `n` steps. -/
def stepTimes (step : Positions → Positions) : Nat → Positions → Positions
  | 0, s => s
  | n + 1, s => stepTimes step n (step s)

/-- What is reached by up to `n` steps, as far as steps lead to anything new. -/
def stepUpTo (step : Positions → Positions) : Nat → Positions → Positions
  | 0, s => s
  | n + 1, s =>
    let t := s ||| step s
    if t == s then s else stepUpTo step n t

namespace Regex

/-- Where a match can end that starts at one of some positions. -/
def advance (text : Array Char) : Regex → Positions → Positions
  | empty, s => s
  | one k, s => (s &&& positionsWhere text.size fun i => text[i]?.any k.contains) <<< 1
  | look l, s =>
    s &&& positionsWhere (text.size + 1) fun i =>
      l.holds (if i = 0 then none else text[i - 1]?) text[i]?
  | seq a b, s => b.advance text (a.advance text s)
  | alt a b, s => a.advance text s ||| b.advance text s
  | times a least greatest, s =>
    let more := greatest.elim (text.size + 1) (· - least)
    stepUpTo (a.advance text) more (stepTimes (a.advance text) least s)

/-- Whether a match stands somewhere in a text. -/
def isIn (r : Regex) (text : String) : Bool :=
  let chars := text.toList.toArray
  r.advance chars (Nat.pow 2 (chars.size + 1) - 1) != 0

/-- How many places a pattern has when every repetition is written out. -/
def size : Regex → Nat
  | empty | one _ | look _ => 1
  | seq a b | alt a b => a.size + b.size
  | times a least greatest => a.size * max 1 (greatest.getD least)

end Regex

end Mend.Pattern
