/-!
# Provenance of a file pair

A comparison is always between one file as it was in a commit and the same file in the commit that
repaired it. The provenance names project, files and commits; it goes unchanged into every finding and
every feature vector.
-/

namespace Mend

/-- Where a buggy file and its repair come from. -/
structure Provenance where
  project : String
  buggyFile : String
  repairedFile : String
  buggyCommit : String
  repairedCommit : String
  deriving DecidableEq, Repr, Inhabited

namespace Provenance

/-- No project, no files, no commits. -/
def empty : Provenance := ⟨"", "", "", "", ""⟩

/-- One path in two commits. -/
def ofPath (project buggyCommit repairedCommit path : String) : Provenance :=
  ⟨project, path, path, buggyCommit, repairedCommit⟩

/-- The one-line rendering: project, repaired file, and the two commits. -/
def text (p : Provenance) : String :=
  s!"{p.project}:{p.repairedFile}@{p.buggyCommit}..{p.repairedCommit}"

/-- A character that ends a part of a repository's location. -/
def endsPart (c : Char) : Bool := c == '/' || c == '\\' || c == ':'

/-- The name of a project at a location: the last part of the location, slashes at the end and one ending
`.git` left out. -/
def projectName (location : String) : String :=
  let trimmed := location.toList.reverse.dropWhile fun c => c == '/' || c == '\\'
  let last := trimmed.takeWhile fun c => !endsPart c
  let ending := ".git".toList.reverse
  let name := if ending.isPrefixOf last then last.drop ending.length else last
  if name.isEmpty then "project" else String.ofList name.reverse

end Provenance

end Mend
