import Mend.Text.Basic

/-!
# Paths

A path is a text with slashes between the names of folders and at most one file.
-/

namespace Mend.Path

/-- A slash. -/
def isSlash (c : Char) : Bool := c == '/'

/-- A path below a folder. -/
def below (folder name : String) : String :=
  if folder.toList.getLast?.all isSlash then folder ++ name else s!"{folder}/{name}"

/-- The text, read from its end, behind slashes and the names of the folder itself. -/
def dropSelf : List Char → List Char
  | '/' :: r => dropSelf r
  | ['.'] => ['.']
  | '.' :: '/' :: r => dropSelf ('/' :: r)
  | cs => cs
termination_by cs => cs.length

/-- The folder of a path: what stands before its last name, without slashes at the end. Nothing is the
folder of the outermost folder. -/
def folder? (path : String) : Option String :=
  match dropSelf path.toList.reverse with
  | [] => none
  | cs =>
    let rest := cs.dropWhile fun c => !isSlash c
    let folder := dropSelf rest
    some (if folder.isEmpty && !rest.isEmpty then "/" else String.ofList folder.reverse)

/-- The names of a path. A leading slash is a name of its own. -/
def names (path : String) : List String :=
  let names := (Text.splitAt '/' path).filter (!·.isEmpty)
  if path.toList.head?.any isSlash then "/" :: names else names

/-- Whether a path ends in a slash, so that it can only be that of a folder. -/
def isFolder (path : String) : Bool := path.toList.getLast?.any isSlash

end Mend.Path
