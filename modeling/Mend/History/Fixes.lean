import Mend.Batch.Report
import Mend.History.Basic
import Mend.Pattern.Reader

/-!
# Bug fixes in a history

A commit with one parent and a message in which a pattern is found is taken for a bug fix. Every script
that it modifies gives a file pair.
-/

namespace Mend

/-- What the messages of bug fixes are searched for unless something else is asked for. -/
def defaultFixPattern : String := "fix|bug|repair|patch|defect|fault|error|issue"

/-- Reads a pattern for messages, in which case does not matter. -/
def fixPattern (text : String) : Except Failure Pattern.Regex :=
  (Pattern.Regex.ofText { anyCase := true } text).mapError fun e => .pattern e.message

/-- Whether a path is that of a script: its last part ends in `.js`, with something before. -/
def isScriptPath (path : String) : Bool :=
  let name := path.toList.reverse.takeWhile (· != '/')
  match name with
  | 's' :: 'j' :: '.' :: _ :: _ => true
  | _ => false

namespace Commit

/-- The files that a commit modifies, with both versions, in the order of their paths. -/
def modified (c parent : Commit) : List (String × Blob × Blob) :=
  let both := c.files.filterMap fun (path, new) =>
    (parent.file? path).bind fun old =>
      if old.bytes == new.bytes then none else some (path, old, new)
  both.mergeSort fun a b => a.1 ≤ b.1

/-- The pairs of the scripts that a commit modifies; files that are no text are left out. -/
def filePairs (project : String) (c parent : Commit) : List FilePair :=
  (c.modified parent).filterMap fun (path, old, new) =>
    if isScriptPath path && !Blob.isBinary old.bytes && !Blob.isBinary new.bytes then
      some ⟨.ofPath project parent.id c.id path, old.source, new.source⟩
    else none

end Commit

namespace History

/-- The commits that are taken for bug fixes, each with its parent. -/
def fixes (h : History) (pattern : Pattern.Regex) : List (Commit × Commit) :=
  h.reached.filterMap fun c =>
    (h.onlyParent? c).bind fun parent => if pattern.isIn c.text then some (c, parent) else none

/-- The file pairs of all bug fixes. -/
def filePairs (h : History) (project : String) (pattern : Pattern.Regex) : List FilePair :=
  (h.fixes pattern).flatMap fun (c, parent) => c.filePairs project parent

end History

end Mend
