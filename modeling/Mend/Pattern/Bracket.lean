import Mend.Pattern.Escape

/-!
# Classes in brackets

A class in brackets holds characters, ranges, named sets and further classes in brackets, and may combine
sets by operators. The operators have no precedence: each takes all that stands before it in its brackets.
-/

namespace Mend.Pattern

/-- The operators between sets. -/
inductive SetOperator where
  | both
  | butNot
  | exactlyOne
  deriving DecidableEq, Repr

/-- Joins two sets. -/
def SetOperator.apply : SetOperator → CharClass → CharClass → CharClass
  | both => .inter
  | butNot => .diff
  | exactlyOne => .oneOf

/-- An open pair of brackets. -/
structure Bracket where
  isNegated : Bool
  /-- What stands before the last operator, with the operator. -/
  pending : Option (CharClass × SetOperator)
  /-- The union of what has been read since. -/
  items : CharClass

namespace Bracket

/-- Adds a set. -/
def add (b : Bracket) (k : CharClass) : Bracket := { b with items := .union b.items k }

/-- What the brackets hold so far. -/
def contents (b : Bracket) (f : Flags) : CharClass :=
  match b.pending with
  | none => f.fold b.items
  | some (before, op) => op.apply (f.fold before) (f.fold b.items)

/-- Goes on after an operator. -/
def operate (b : Bracket) (f : Flags) (op : SetOperator) : Bracket :=
  { b with pending := some (b.contents f, op), items := .none }

/-- The set of the brackets. -/
def close (b : Bracket) (f : Flags) : CharClass :=
  let k := f.fold (b.contents f)
  if b.isNegated then .complement k else k

end Bracket

/-- Reads hyphens at the front of a class, which stand for themselves. -/
def readHyphens (f : Flags) (b : Bracket) : List Char → Bracket × List Char
  | [] => (b, [])
  | c :: r =>
    if c == '-' then readHyphens f (b.add (.single '-')) r
    else if f.verbose && Text.isBlank c then readHyphens f b r
    else (b, c :: r)

/-- Reads the front of a class, behind its opening bracket: a caret, hyphens, and a closing bracket that
stands for itself because nothing stands before it. -/
def openBracket (f : Flags) : Reader Bracket := fun cs =>
  let cs := f.skip cs
  let (isNegated, cs) := match cs with
    | '^' :: r => (true, f.skip r)
    | cs => (false, cs)
  let empty : Bracket := ⟨isNegated, none, .none⟩
  let (b, rest) := match cs with
    | ']' :: r => (empty.add (.single ']'), f.skip r)
    | cs => readHyphens f empty cs
  if rest.isEmpty then .error .unclosedClass else .ok (b, rest)

/-- Reads the name of a set between colons, behind an opening bracket; nothing if there is none. -/
def readAsciiSet? (cs : List Char) : Option (CharClass × List Char) :=
  match cs with
  | ':' :: r =>
    let (isNegated, r) := match r with
      | '^' :: r => (true, r)
      | r => (false, r)
    let name := r.takeWhile (· != ':')
    match r.drop name.length, CharClass.ofAsciiName? (String.ofList name) with
    | ':' :: ']' :: rest, some k => some (if isNegated then .complement k else k, rest)
    | _, _ => none
  | _ => none

/-- Reads one character or named set. -/
def readItem (f : Flags) : Reader Atom := fun cs =>
  match cs with
  | '\\' :: r => readEscape f r
  | c :: r => .ok (.char c, r)
  | [] => .error .unclosedClass

/-- Whether what follows an item makes it the start of a range: a hyphen that is neither last nor part of
an operator. -/
def startsRange (f : Flags) (cs : List Char) : Bool :=
  match cs with
  | '-' :: r =>
    match f.skip r with
    | ']' :: _ | '-' :: _ => false
    | _ => true
  | _ => false

/-- Reads an item or a range. -/
def readRange (f : Flags) : Reader CharClass := fun cs => do
  let (first, r) ← readItem f cs
  let r := f.skip r
  if r.isEmpty then throw .unclosedClass
  if startsRange f r then
    let (last, r) ← readItem f (f.next r)
    match first, last with
    | .char a, .char z =>
      if a ≤ z then return (.range a z, r) else throw .badClass
    | _, _ => throw .badClass
  else
    match first with
    | .char c => return (.single c, r)
    | .set k => return (k, r)
    | .look _ => throw .badClass

/-- Reads the rest of a class, with the brackets around the innermost open one. Every round takes at least
one sign, so `fuel` need not be more than their number. -/
def readBrackets (f : Flags) : Nat → Bracket → List Bracket → Reader CharClass
  | 0, _, _, _ => .error .unclosedClass
  | fuel + 1, b, outside, cs =>
    match f.skip cs with
    | [] => .error .unclosedClass
    | '[' :: r =>
      match readAsciiSet? r with
      | some (k, r) => readBrackets f fuel (b.add k) outside r
      | none => do
        let (inner, r) ← openBracket f r
        readBrackets f fuel inner (b :: outside) r
    | ']' :: r =>
      match outside with
      | [] => .ok (b.close f, r)
      | outer :: outside => readBrackets f fuel (outer.add (b.close f)) outside r
    | '&' :: '&' :: r => readBrackets f fuel (b.operate f .both) outside r
    | '-' :: '-' :: r => readBrackets f fuel (b.operate f .butNot) outside r
    | '~' :: '~' :: r => readBrackets f fuel (b.operate f .exactlyOne) outside r
    | cs => do
      let (k, r) ← readRange f cs
      readBrackets f fuel (b.add k) outside r

/-- Reads a class in brackets, behind its opening bracket. -/
def readClass (f : Flags) : Reader CharClass := fun cs => do
  let (b, r) ← openBracket f cs
  readBrackets f (r.length + 1) b [] r

end Mend.Pattern
