/-!
# Failures

Everything that can go wrong while a file pair is compared, a data set read or a history mined. Each
failure has a short category, a text, and a disposition: recoverable failures skip the pair, row or
cohort at hand, all others end the run.
-/

namespace Mend

/-- The two files of a comparison. -/
inductive Side where
  /-- The file before the repair. -/
  | buggy
  /-- The file after the repair. -/
  | repaired
  deriving DecidableEq, Repr, Inhabited

/-- The word for a side in texts. -/
def Side.text : Side → String
  | .buggy => "buggy"
  | .repaired => "repaired"

/-- Why a file or folder cannot be used. -/
inductive FileError where
  | missing
  | alreadyThere
  | notAFolder
  | isAFolder
  | nameTooLong
  | denied
  /-- The content is no UTF-8 text. -/
  | notText
  | other (reason : String)
  deriving DecidableEq, Repr

namespace FileError

/-- The reason in words. -/
def reason : FileError → String
  | missing => "No such file or directory"
  | alreadyThere => "File exists"
  | notAFolder => "Not a directory"
  | isAFolder => "Is a directory"
  | nameTooLong => "File name too long"
  | denied => "Permission denied"
  | notText => "stream did not contain valid UTF-8"
  | other reason => reason

/-- The number that the operating system has for an error. -/
def number? : FileError → Option Nat
  | missing => some 2
  | denied => some 13
  | alreadyThere => some 17
  | notAFolder => some 20
  | isAFolder => some 21
  | nameTooLong => some 36
  | notText | other _ => none

/-- The text of a file error. -/
def message (e : FileError) : String :=
  match e.number? with
  | some n => s!"{e.reason} (os error {n})"
  | none => e.reason

end FileError

/-- Why a repository cannot be used. -/
inductive RepositoryError where
  /-- There is nothing at a path. -/
  | unresolved (path : String) (reason : FileError)
  /-- What is at a path is no repository. -/
  | notFound (path : String)
  /-- A repository cannot be copied into a folder that holds something. -/
  | notEmpty (path : String)
  /-- There is no way to copy from a location. -/
  | unsupported
  | noLocation
  /-- There is no commit yet. -/
  | noCommits
  deriving DecidableEq, Repr

namespace RepositoryError

/-- The text of an error, with its class and code. -/
def message : RepositoryError → String
  | unresolved path reason =>
    s!"failed to resolve path '{path}': {reason.reason}; class=Os (2); code=NotFound (-3)"
  | notFound path =>
    s!"could not find repository at '{path}'; class=Repository (6); code=NotFound (-3)"
  | notEmpty path =>
    s!"'{path}' exists and is not an empty directory; class=Invalid (3); code=Exists (-4)"
  | unsupported => "unsupported URL protocol; class=Net (12)"
  | noLocation => "cannot set empty URL; class=Invalid (3); code=InvalidSpec (-12)"
  | noCommits =>
    "reference 'refs/heads/master' not found; class=Reference (4); code=NotFound (-3)"

end RepositoryError

/-- A reason why an operation gives no result. -/
inductive Failure where
  /-- One side of the pair has no content: a file added or deleted by the repair. -/
  | emptyInput (side : Side)
  /-- One side is not a program. -/
  | syntaxError (side : Side) (reason : String) (line : Nat)
  /-- The labels of a comparison do not fit its pairing. -/
  | brokenInvariant (what : String)
  /-- Anything else that went wrong in a comparison. -/
  | internal (what : String)
  /-- A file or folder cannot be read or written. -/
  | file (path : String) (reason : FileError)
  /-- A written feature vector cannot be read. -/
  | malformedVector (reason : String)
  /-- The clusterer refuses its rows or its settings. -/
  | clusterer (reason : String)
  /-- A repository cannot be opened or walked. -/
  | repository (reason : RepositoryError)
  /-- The bug-fix pattern is no pattern. -/
  | pattern (reason : String)
  deriving DecidableEq, Repr

namespace Failure

/-- The short tag printed next to a failure. -/
def category : Failure → String
  | emptyInput _ => "EMPTY_INPUT"
  | syntaxError .. => "AST_BUILD"
  | brokenInvariant _ => "INVARIANT_VIOLATION"
  | internal _ => "INTERNAL"
  | file .. => "IO"
  | malformedVector _ => "MALFORMED_VECTOR"
  | clusterer _ => "CLUSTERER"
  | repository _ => "GIT"
  | pattern _ => "PATTERN"

/-- Whether the failure only skips what is at hand. -/
def isRecoverable : Failure → Bool
  | emptyInput _ | syntaxError .. | malformedVector _ | clusterer _ => true
  | brokenInvariant _ | internal _ | file .. | repository _ | pattern _ => false

/-- The text of a failure. -/
def message : Failure → String
  | emptyInput side => s!"empty input: {side.text} file has no content"
  | syntaxError side reason line =>
    s!"cannot build AST for {side.text} file: {reason} (line {line})"
  | brokenInvariant what => s!"invariant violation: {what}"
  | internal what => s!"internal error: {what}"
  | file path reason => s!"i/o error on {path}: {reason.message}"
  | malformedVector reason => s!"malformed feature vector: {reason}"
  | clusterer reason => s!"clusterer failed: {reason}"
  | repository reason => s!"git error: {reason.message}"
  | pattern reason => s!"invalid bug fix pattern: {reason}"

/-- The text of a failure, and behind it the text of what caused it. -/
def chain (f : Failure) : List String :=
  f.message :: match f with
    | file _ reason => [reason.message]
    | repository reason => [reason.message]
    | pattern reason => [reason]
    | emptyInput _ | syntaxError .. | brokenInvariant _ | internal _ | malformedVector _
    | clusterer _ => []

end Failure

end Mend
