import Mend.Pattern.Basic

/-!
# Flags of patterns

Flags change what the signs of a pattern mean. They are switched on and off inside a pattern.
-/

namespace Mend.Pattern

/-- Why a text is no pattern. -/
inductive PatternError where
  | unclosedGroup
  | unopenedGroup
  | badGroup
  | badFlag
  | nothingToRepeat
  | badCount
  | unclosedClass
  | badClass
  | badEscape
  | unknownProperty
  /-- The pattern would match part of a character. -/
  | partOfCharacter
  | tooLarge
  deriving DecidableEq, Repr

/-- The text of an error. -/
def PatternError.message : PatternError → String
  | unclosedGroup => "unclosed group"
  | unopenedGroup => "unopened group"
  | badGroup => "invalid group"
  | badFlag => "invalid flags"
  | nothingToRepeat => "repetition operator missing expression"
  | badCount => "invalid repetition count"
  | unclosedClass => "unclosed character class"
  | badClass => "invalid character class"
  | badEscape => "unrecognized escape sequence"
  | unknownProperty => "unknown character property"
  | partOfCharacter => "pattern can match invalid UTF-8"
  | tooLarge => "pattern too large"

/-- The flags. -/
structure Flags where
  /-- Case does not matter. -/
  anyCase : Bool := false
  /-- `^` and `$` stand for the ends of lines. -/
  multiLine : Bool := false
  /-- `.` stands for line ends as well. -/
  dotAll : Bool := false
  /-- Lines may end in carriage returns. -/
  looseLines : Bool := false
  /-- Classes hold characters of all scripts. -/
  unicode : Bool := true
  /-- Blanks and comments in the pattern do not count. -/
  verbose : Bool := false
  /-- Repetitions are lazy unless marked; this does not change what can be found. -/
  lazy : Bool := false
  deriving DecidableEq, Repr

namespace Flags

/-- Switches the flag of a letter. -/
def set (f : Flags) (letter : Char) (on : Bool) : Except PatternError Flags :=
  match letter with
  | 'i' => .ok { f with anyCase := on }
  | 'm' => .ok { f with multiLine := on }
  | 's' => .ok { f with dotAll := on }
  | 'R' => .ok { f with looseLines := on }
  | 'u' => .ok { f with unicode := on }
  | 'x' => .ok { f with verbose := on }
  | 'U' => .ok { f with lazy := on }
  | _ => .error .badFlag

/-- Reads flags up to a colon or a closing parenthesis, which stays. A minus sign switches off all flags
after it; no flag and no minus sign may come twice, and the minus sign may not come last. -/
def read (f : Flags) (seen : List Char) : List Char → Except PatternError (Flags × List Char)
  | [] => .error .badFlag
  | c :: r =>
    if c == ':' || c == ')' then
      if seen.head? == some '-' then .error .badFlag else .ok (f, c :: r)
    else if seen.contains c then .error .badFlag
    else if c == '-' then read f ('-' :: seen) r
    else do
      let f ← f.set c (!seen.contains '-')
      read f (c :: seen) r

/-- The pattern without what does not count in front of the next sign. -/
def skip (f : Flags) (cs : List Char) : List Char :=
  if f.verbose then go false cs else cs
where
  /-- Skips blanks and comments, from inside a comment or not. -/
  go (inComment : Bool) : List Char → List Char
    | [] => []
    | c :: r =>
      if inComment then go (c != '\n') r
      else if Text.isBlank c then go false r
      else if c == '#' then go true r
      else c :: r

/-- The sign after one sign, without what does not count between them. -/
def next (f : Flags) (cs : List Char) : List Char := f.skip (cs.drop 1)

/-- The set of characters of words. -/
def word (f : Flags) : CharClass := if f.unicode then .property .word else .asciiWord

/-- The set in its bounds: without regard to case if that is wanted. -/
def fold (f : Flags) (k : CharClass) : CharClass := if f.anyCase then .anyCase k else k

/-- The pattern of a set. A set of bytes must not hold parts of characters. -/
def one (f : Flags) (k : CharClass) : Except PatternError Regex :=
  if f.unicode then .ok (.one k)
  else if k.holdsHighByte then .error .partOfCharacter
  else .ok (.one (.inter k (.range '\x00' '\x7f')))

/-- The pattern of one character. -/
def literal (f : Flags) (c : Char) : Except PatternError Regex := f.one (f.fold (.single c))

/-- The pattern of `.`. -/
def dot (f : Flags) : Except PatternError Regex :=
  f.one (if f.dotAll then .property .any
    else if f.looseLines then .complement (.ofRanges [('\n', '\n'), ('\r', '\r')])
    else .complement (.single '\n'))

/-- The condition of `^`. -/
def start (f : Flags) : Look :=
  if f.multiLine then if f.looseLines then .looseLineStart else .lineStart else .textStart

/-- The condition of `$`. -/
def stop (f : Flags) : Look :=
  if f.multiLine then if f.looseLines then .looseLineEnd else .lineEnd else .textEnd

end Flags

end Mend.Pattern
