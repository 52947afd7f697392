import Mend.Pattern.Flags
import Mend.Text.Decimal

/-!
# Escapes

What a backslash and the signs after it stand for, inside and outside of brackets.
-/

namespace Mend.Pattern

/-- What an escape stands for. -/
inductive Atom where
  | char (c : Char)
  | set (k : CharClass)
  | look (l : Look)
  deriving DecidableEq, Repr

/-- The result of reading something at the front of a pattern: the thing, and the pattern after it. -/
abbrev Reader (α : Type) := List Char → Except PatternError (α × List Char)

/-- The value of a hexadecimal digit. -/
def hexDigit? (c : Char) : Option Nat :=
  if c.isDigit then some (c.toNat - '0'.toNat)
  else if 'a' ≤ c ∧ c ≤ 'f' then some (c.toNat - 'a'.toNat + 10)
  else if 'A' ≤ c ∧ c ≤ 'F' then some (c.toNat - 'A'.toNat + 10)
  else none

/-- The character with a code point. -/
def charOf (point : Nat) : Except PatternError Char :=
  if point.isValidChar then .ok (Char.ofNat point) else .error .badEscape

/-- Reads exactly `n` hexadecimal digits. -/
def readHexDigits (f : Flags) : Nat → Nat → Reader Nat
  | 0, value, cs => .ok (value, cs)
  | n + 1, value, c :: r =>
    match hexDigit? c with
    | some d => readHexDigits f n (16 * value + d) (f.skip r)
    | none => .error .badEscape
  | _ + 1, _, [] => .error .badEscape

/-- Splits a pattern at the first closing brace. -/
def takeBraced (f : Flags) (cs : List Char) : Except PatternError (List Char × List Char) :=
  match cs.dropWhile (· != '\x7d') with
  | _ :: r => .ok (blankless (cs.takeWhile (· != '\x7d')), r)
  | [] => .error .badEscape
where
  /-- The characters that count. -/
  blankless (inside : List Char) : List Char :=
    if f.verbose then inside.filter (!Text.isBlank ·) else inside

/-- Reads the code point of a character: so many hexadecimal digits, or any number of them in braces. -/
def readHex (f : Flags) (count : Nat) : Reader Char := fun cs => do
  match f.skip cs with
  | '\x7b' :: r =>
    let (inside, r) ← takeBraced f r
    match inside.mapM hexDigit? with
    | some (d :: ds) => return (← charOf ((d :: ds).foldl (fun v d => 16 * v + d) 0), f.skip r)
    | _ => throw .badEscape
  | cs =>
    let (point, r) ← readHexDigits f count 0 cs
    return (← charOf point, r)

/-- The groups of categories by their long names. -/
def groupNames : List (String × Char) :=
  [("other", 'C'), ("letter", 'L'), ("mark", 'M'), ("combiningmark", 'M'), ("number", 'N'),
   ("punctuation", 'P'), ("punct", 'P'), ("symbol", 'S'), ("separator", 'Z')]

/-- The categories by their long names. -/
def categoryNames : List (String × Text.Category) :=
  [("control", ⟨'C', 'c'⟩), ("cntrl", ⟨'C', 'c'⟩), ("format", ⟨'C', 'f'⟩),
   ("unassigned", ⟨'C', 'n'⟩), ("privateuse", ⟨'C', 'o'⟩), ("lowercaseletter", ⟨'L', 'l'⟩),
   ("modifierletter", ⟨'L', 'm'⟩), ("otherletter", ⟨'L', 'o'⟩), ("titlecaseletter", ⟨'L', 't'⟩),
   ("uppercaseletter", ⟨'L', 'u'⟩), ("spacingmark", ⟨'M', 'c'⟩), ("enclosingmark", ⟨'M', 'e'⟩),
   ("nonspacingmark", ⟨'M', 'n'⟩), ("decimalnumber", ⟨'N', 'd'⟩), ("digit", ⟨'N', 'd'⟩),
   ("letternumber", ⟨'N', 'l'⟩), ("othernumber", ⟨'N', 'o'⟩),
   ("connectorpunctuation", ⟨'P', 'c'⟩), ("dashpunctuation", ⟨'P', 'd'⟩),
   ("closepunctuation", ⟨'P', 'e'⟩), ("finalpunctuation", ⟨'P', 'f'⟩),
   ("initialpunctuation", ⟨'P', 'i'⟩), ("otherpunctuation", ⟨'P', 'o'⟩),
   ("openpunctuation", ⟨'P', 's'⟩), ("currencysymbol", ⟨'S', 'c'⟩),
   ("modifiersymbol", ⟨'S', 'k'⟩), ("mathsymbol", ⟨'S', 'm'⟩), ("othersymbol", ⟨'S', 'o'⟩),
   ("lineseparator", ⟨'Z', 'l'⟩), ("paragraphseparator", ⟨'Z', 'p'⟩),
   ("spaceseparator", ⟨'Z', 's'⟩)]

/-- A name of a property as names are compared: in lower case, without blanks, hyphens, underscores and a
leading "is". -/
def plainName (name : List Char) : List Char :=
  let plain := (name.map Char.toLower).filter fun c => !(c == ' ' || c == '-' || c == '_')
  match plain with
  | 'i' :: 's' :: r => if r.isEmpty then plain else r
  | _ => plain

/-- The groups of categories by their letters. -/
def groupLetters : List Char := ['c', 'l', 'm', 'n', 'p', 's', 'z']

/-- The set of a property. -/
def propertyOf? (name : List Char) : Option CharClass :=
  let plain := plainName name
  let text := String.ofList plain
  match plain with
  | [g] => if groupLetters.contains g then some (.property (.group g.toUpper)) else none
  | ['l', 'c'] => some casedLetter
  | [g, m] => ((categoryNames.map (·.2)).find? (· == ⟨g.toUpper, m⟩)).map fun k =>
    .property (.category k)
  | _ =>
    match text with
    | "any" => some (.property .any)
    | "ascii" => some (.property .ascii)
    | "assigned" => some (.property .assigned)
    | "whitespace" | "space" => some (.property .blank)
    | "casedletter" => some casedLetter
    | _ =>
      match groupNames.lookup text with
      | some g => some (.property (.group g))
      | none => (categoryNames.lookup text).map fun k => .property (.category k)
where
  /-- The letters with a case. -/
  casedLetter : CharClass :=
    .union (.property (.category ⟨'L', 'u'⟩)) <|
      .union (.property (.category ⟨'L', 'l'⟩)) (.property (.category ⟨'L', 't'⟩))

/-- The set of a property that is given as the value of the general category. -/
def categoryValue? (inside : List Char) : Option CharClass :=
  let name := inside.takeWhile fun c => c != '=' && c != ':'
  let value := (inside.drop name.length).drop 1
  let isNegated := name.getLast? == some '!'
  let name := if isNegated then name.dropLast else name
  if ["gc".toList, "generalcategory".toList].contains (plainName name) then
    (propertyOf? value).map fun k => if isNegated then .complement k else k
  else none

/-- Reads the name of a property: one letter, or a name in braces. -/
def readProperty (f : Flags) : Reader CharClass := fun cs => do
  if !f.unicode then throw .partOfCharacter
  match f.skip cs with
  | '\x7b' :: r =>
    let (inside, r) ← takeBraced f r
    let set := if inside.any fun c => c == '=' || c == ':' then categoryValue? inside
      else propertyOf? inside
    match set with
    | some k => return (k, r)
    | none => throw .unknownProperty
  | c :: r =>
    match propertyOf? [c] with
    | some k => return (k, f.skip r)
    | none => throw .unknownProperty
  | [] => throw .badEscape

/-- The set of a letter for digits, blanks or word characters. -/
def namedSet? (f : Flags) (letter : Char) : Option CharClass :=
  match letter with
  | 'd' => some (if f.unicode then .property .digit else .asciiDigit)
  | 's' => some (if f.unicode then .property .blank else .asciiBlank)
  | 'w' => some f.word
  | 'D' => some (.complement (if f.unicode then .property .digit else .asciiDigit))
  | 'S' => some (.complement (if f.unicode then .property .blank else .asciiBlank))
  | 'W' => some (.complement f.word)
  | _ => none

/-- The control character of a letter. -/
def control? (letter : Char) : Option Char :=
  match letter with
  | 'a' => some '\x07'
  | 'f' => some '\x0c'
  | 't' => some '\t'
  | 'n' => some '\n'
  | 'r' => some '\r'
  | 'v' => some '\x0b'
  | _ => none

/-- The condition of a letter or angle. -/
def look? (f : Flags) (letter : Char) : Option Look :=
  match letter with
  | 'A' => some .textStart
  | 'z' => some .textEnd
  | 'b' => some (.wordEdge f.word)
  | 'B' => some (.noWordEdge f.word)
  | '<' => some (.wordStart f.word)
  | '>' => some (.wordEnd f.word)
  | _ => none

/-- The condition of a name in braces after `b`. -/
def namedEdge? (f : Flags) (name : List Char) : Option Look :=
  match String.ofList name with
  | "start" => some (.wordStart f.word)
  | "end" => some (.wordEnd f.word)
  | "start-half" => some (.wordStartHalf f.word)
  | "end-half" => some (.wordEndHalf f.word)
  | _ => none

/-- A character of the names of word edges. -/
def isEdgeNameChar (c : Char) : Bool := c.isAlpha || c == '-'

/-- Reads what follows `b`: perhaps a name in braces. Braces that hold no name are left for a
repetition. -/
def readEdge (f : Flags) : Reader Look := fun cs =>
  match cs with
  | '\x7b' :: r =>
    match f.skip r with
    | [] => .error .badEscape
    | c :: rest =>
      if isEdgeNameChar c then
        let inside := (c :: rest).takeWhile fun c => isEdgeNameChar c || (f.verbose && Text.isBlank c)
        match (c :: rest).drop inside.length, namedEdge? f (inside.filter isEdgeNameChar) with
        | '\x7d' :: rest, some l => .ok (l, rest)
        | _, _ => .error .badEscape
      else .ok (.wordEdge f.word, cs)
  | _ => .ok (.wordEdge f.word, cs)

/-- Signs that may be written behind a backslash to stand for themselves. -/
def isPlainEscape (c : Char) : Bool :=
  c.toNat < 128 && !c.isAlphanum && c != '<' && c != '>'

/-- Reads what stands behind a backslash. -/
def readEscape (f : Flags) : Reader Atom := fun cs =>
  match cs with
  | [] => .error .badEscape
  | 'x' :: r => (readHex f 2 r).map fun (c, r) => (.char c, r)
  | 'u' :: r => (readHex f 4 r).map fun (c, r) => (.char c, r)
  | 'U' :: r => (readHex f 8 r).map fun (c, r) => (.char c, r)
  | 'p' :: r => (readProperty f r).map fun (k, r) => (.set k, r)
  | 'P' :: r => (readProperty f r).map fun (k, r) => (.set (.complement k), r)
  | 'b' :: r => (readEdge f r).map fun (l, r) => (.look l, r)
  | c :: r =>
    if isPlainEscape c then .ok (.char c, r)
    else
      match control? c, namedSet? f c, look? f c with
      | some d, _, _ => .ok (.char d, r)
      | _, some k, _ => .ok (.set k, r)
      | _, _, some l => .ok (.look l, r)
      | _, _, _ => .error .badEscape

end Mend.Pattern
