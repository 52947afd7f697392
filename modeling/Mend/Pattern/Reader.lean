import Mend.Pattern.Bracket

/-!
# Reading patterns

A pattern is read sign by sign. Groups that are still open are kept as levels, the innermost first; a level
holds the alternatives that are complete and the items of the one that is being read.
-/

namespace Mend.Pattern

/-- The inside of a group, as far as it has been read. -/
structure Level where
  /-- The complete alternatives, the last one first. -/
  alternatives : List Regex
  /-- The items of the alternative being read, the last one first; flags are an item that is no pattern. -/
  items : List (Option Regex)
  /-- The flags before the group. -/
  outer : Flags

namespace Level

/-- The start of a group. -/
def start (outer : Flags) : Level := ⟨[], [], outer⟩

/-- Adds an item. -/
def push (l : Level) (item : Option Regex) : Level := { l with items := item :: l.items }

/-- The alternative being read. -/
def current (l : Level) : Regex :=
  match l.items.filterMap id with
  | [] => .empty
  | last :: before => before.foldl (fun r item => .seq item r) last

/-- Ends an alternative. -/
def next (l : Level) : Level := { l with alternatives := l.current :: l.alternatives, items := [] }

/-- The pattern of the whole group. -/
def close (l : Level) : Regex := l.alternatives.foldl (fun r alternative => .alt alternative r) l.current

/-- Repeats the last item. -/
def repeatLast (l : Level) (least : Nat) (greatest : Option Nat) : Except PatternError Level :=
  match l.items with
  | some r :: items => .ok { l with items := some (.times r least greatest) :: items }
  | _ => .error .nothingToRepeat

end Level

/-- A pattern that is being read. -/
structure Reading where
  level : Level
  outside : List Level
  flags : Flags
  /-- The names of groups so far. -/
  names : List (List Char)

/-- A character of the name of a group. -/
def isNameChar (c : Char) : Bool :=
  c == '_' || c == '.' || c == '[' || c == ']' || Text.isAlphanumeric c

/-- Reads the name of a group, up to its closing angle. -/
def readName : Reader (List Char) := fun cs =>
  let name := cs.takeWhile (· != '>')
  match name, cs.drop name.length with
  | first :: rest, _ :: r =>
    if (first == '_' || Text.isLetter first) && rest.all isNameChar then .ok (name, r)
    else .error .badGroup
  | _, _ => .error .badGroup

/-- The greatest count of a repetition. -/
def greatestCount : Nat := UInt32.size - 1

/-- Reads a count, with blanks around it; nothing if there are no digits. -/
def readCount (cs : List Char) : Except PatternError (Option Nat × List Char) :=
  let cs := cs.dropWhile Text.isBlank
  let digits := cs.takeWhile Char.isDigit
  let r := (cs.drop digits.length).dropWhile Text.isBlank
  if digits.isEmpty then .ok (none, r)
  else
    let n := Text.digitsValue digits
    if n ≤ greatestCount then .ok (some n, r) else .error .badCount

/-- Reads the counts of a repetition, behind the opening brace. -/
def readCounts : Reader (Nat × Option Nat) := fun cs => do
  match ← readCount cs with
  | (some least, '\x7d' :: r) => return ((least, some least), r)
  | (some least, ',' :: r) =>
    match ← readCount r with
    | (none, '\x7d' :: r) => return ((least, none), r)
    | (some greatest, '\x7d' :: r) =>
      if least ≤ greatest then return ((least, some greatest), r) else throw .badCount
    | _ => throw .badCount
  | _ => throw .badCount

/-- The pattern without a question mark at its front. -/
def dropMark : List Char → List Char
  | '?' :: r => r
  | cs => cs

namespace Reading

/-- The start of a pattern. -/
def start (f : Flags) : Reading := ⟨.start f, [], f, []⟩

/-- Adds a pattern as the next item. -/
def push (s : Reading) (r : Regex) : Reading := { s with level := s.level.push (some r) }

/-- Opens a group. -/
def openGroup (s : Reading) (inner : Flags) : Reading :=
  { s with level := .start s.flags, outside := s.level :: s.outside, flags := inner }

/-- Opens a group with a name. -/
def openNamed (s : Reading) (cs : List Char) : Except PatternError (Reading × List Char) := do
  let (name, r) ← readName cs
  if s.names.contains name then throw .badGroup
  return ({ s.openGroup s.flags with names := name :: s.names }, r)

/-- Reads what follows an opening parenthesis. -/
def readGroup (s : Reading) (cs : List Char) : Except PatternError (Reading × List Char) :=
  match s.flags.skip cs with
  | '?' :: 'P' :: '<' :: r => s.openNamed r
  | '?' :: '<' :: r => s.openNamed r
  | '?' :: r => do
    let (f, rest) ← s.flags.read [] r
    match rest with
    | ':' :: rest => return (s.openGroup f, rest)
    | _ :: rest =>
      if r.head? == some ')' then throw .nothingToRepeat
      return ({ s with level := s.level.push none, flags := f }, rest)
    | [] => throw .badFlag
  | cs => .ok (s.openGroup s.flags, cs)

/-- Closes the innermost group. -/
def closeGroup (s : Reading) : Except PatternError Reading :=
  match s.outside with
  | [] => .error .unopenedGroup
  | outer :: outside =>
    .ok { s with
      level := outer.push (some s.level.close)
      outside
      flags := s.level.outer }

/-- Repeats the last item. -/
def repeatLast (s : Reading) (least : Nat) (greatest : Option Nat) : Except PatternError Reading := do
  return { s with level := ← s.level.repeatLast least greatest }

/-- Reads one sign and what belongs to it. -/
def step (s : Reading) (c : Char) (r : List Char) : Except PatternError (Reading × List Char) :=
  let f := s.flags
  match c with
  | '(' => s.readGroup r
  | ')' => do return (← s.closeGroup, r)
  | '|' => .ok ({ s with level := s.level.next }, r)
  | '[' => do
    let (k, r) ← readClass f r
    return (s.push (← f.one k), r)
  | '?' => do return (← s.repeatLast 0 (some 1), dropMark r)
  | '*' => do return (← s.repeatLast 0 none, dropMark r)
  | '+' => do return (← s.repeatLast 1 none, dropMark r)
  | '\x7b' => do
    if s.level.items.isEmpty then throw .nothingToRepeat
    let ((least, greatest), r) ← readCounts (f.skip r)
    return (← s.repeatLast least greatest, dropMark (f.skip r))
  | '\\' => do
    let (atom, r) ← readEscape f r
    match atom with
    | .char c => return (s.push (← f.literal c), r)
    | .set k => return (s.push (← f.one k), r)
    | .look l => return (s.push (.look l), r)
  | '.' => do return (s.push (← f.dot), r)
  | '^' => .ok (s.push (.look f.start), r)
  | '$' => .ok (s.push (.look f.stop), r)
  | c => do return (s.push (← f.literal c), r)

/-- Reads sign after sign. Every round takes at least one, so `fuel` need not be more than their number. -/
def run : Nat → Reading → List Char → Except PatternError Reading
  | 0, s, _ => .ok s
  | fuel + 1, s, cs =>
    match s.flags.skip cs with
    | [] => .ok s
    | c :: r => do
      let (s, r) ← s.step c r
      run fuel s r

end Reading

/-- How large a pattern may be when its repetitions are written out. -/
def sizeLimit : Nat := Nat.pow 2 18

namespace Regex

/-- Reads a pattern under some flags. -/
def ofText (f : Flags) (text : String) : Except PatternError Regex := do
  let cs := text.toList
  let s ← Reading.run (cs.length + 1) (.start f) cs
  if !s.outside.isEmpty then throw .unclosedGroup
  let r := s.level.close
  if r.size ≤ sizeLimit then return r else throw .tooLarge

end Regex

end Mend.Pattern
