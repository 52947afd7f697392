import Mend.Text.Basic

/-!
# Sentinels

Special values that a guard can test for, and sets of them. Sets are written in two ways: in braces for
people, and with bars between the names where they are read back. Numbers in hexadecimal may stand for
names when a set is read, so a set can hold a bit that has no name.
-/

namespace Mend

/-- A kind of special value. -/
inductive Sentinel where
  /-- Anything that counts as false. -/
  | falsey
  /-- Anything that counts as true. -/
  | truthy
  | undefined
  | null
  | nan
  /-- The empty string. -/
  | blank
  | zero
  deriving DecidableEq, Repr, Inhabited

namespace Sentinel

/-- All sentinels, in the order in which they are written. -/
def all : List Sentinel := [falsey, truthy, undefined, null, nan, blank, zero]

/-- The written name. -/
def text : Sentinel → String
  | falsey => "FALSEY"
  | truthy => "TRUTHY"
  | undefined => "UNDEFINED"
  | null => "NULL"
  | nan => "NAN"
  | blank => "BLANK"
  | zero => "ZERO"

/-- The bit of a sentinel in a set. -/
def index : Sentinel → Nat
  | falsey => 0
  | truthy => 1
  | undefined => 2
  | null => 3
  | nan => 4
  | blank => 5
  | zero => 6

/-- The sentinel with a written name. -/
def ofText? (s : String) : Option Sentinel := all.find? fun x => x.text == s

end Sentinel

/-- A set of sentinels. -/
structure SentinelSet where
  bits : BitVec 8
  deriving DecidableEq, Repr, Inhabited

namespace SentinelSet

/-- The set without members. -/
def empty : SentinelSet := ⟨0⟩

/-- The set with one member. -/
def single (x : Sentinel) : SentinelSet := ⟨BitVec.twoPow 8 x.index⟩

def union (s t : SentinelSet) : SentinelSet := ⟨s.bits ||| t.bits⟩

def inter (s t : SentinelSet) : SentinelSet := ⟨s.bits &&& t.bits⟩

def ofList (l : List Sentinel) : SentinelSet := l.foldl (fun s x => s.union (single x)) empty

/-- Whether a sentinel is a member. -/
def contains (s : SentinelSet) (x : Sentinel) : Bool := s.bits.getLsbD x.index

/-- The members, in the order in which they are written. -/
def toList (s : SentinelSet) : List Sentinel := Sentinel.all.filter s.contains

/-- Whether two sets have a member in common. -/
def meets (s t : SentinelSet) : Bool := (s.inter t).bits != 0

/-- The sentinels whose exclusion protects a later dereference. -/
def dereferenceGuards : SentinelSet := ofList [.falsey, .null, .undefined]

/-- The set in braces. -/
def text (s : SentinelSet) : String :=
  "\x7b" ++ ", ".intercalate (s.toList.map (·.text)) ++ "\x7d"

/-- The bits of a set that have no name. -/
def unnamed (s : SentinelSet) : Nat := (s.bits &&& 0x80).toNat

/-- The set with bars between the names, and the nameless bits at the end. -/
def flags (s : SentinelSet) : String :=
  let rest := if s.unnamed = 0 then []
    else ["0x" ++ String.ofList (Nat.toDigits 16 s.unnamed)]
  " | ".intercalate (s.toList.map (·.text) ++ rest)

/-- The value of a hexadecimal digit. -/
def hexValue? (c : Char) : Option Nat :=
  if c.isDigit then some (c.toNat - '0'.toNat)
  else if 'a' ≤ c ∧ c ≤ 'f' then some (c.toNat - 'a'.toNat + 10)
  else if 'A' ≤ c ∧ c ≤ 'F' then some (c.toNat - 'A'.toNat + 10)
  else none

/-- Reads a byte in hexadecimal; a plus sign may stand in front. -/
def hexByte? (digits : List Char) : Option (BitVec 8) := do
  let digits := match digits with
    | '+' :: r => r
    | r => r
  if digits.isEmpty then none
  let values ← digits.mapM hexValue?
  let v := values.foldl (fun v d => 16 * v + d) 0
  if v < 256 then some (BitVec.ofNat 8 v) else none

/-- Reads one flag: a name, or bits in hexadecimal. -/
def ofFlag? (flag : String) : Option SentinelSet :=
  match flag.toList with
  | '0' :: 'x' :: digits => (hexByte? digits).map (⟨·⟩)
  | _ => (Sentinel.ofText? flag).map single

/-- Reads a set with bars between the flags; blanks around a flag do not count. -/
def ofFlags? (s : String) : Option SentinelSet :=
  if Text.isBlankText s then some empty
  else
    ((Text.splitAt '|' s).mapM fun flag => ofFlag? (Text.trim Text.isBlank flag)).map fun sets =>
      sets.foldl union empty

end SentinelSet

end Mend
