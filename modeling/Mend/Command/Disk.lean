import Mend.Command.Path
import Mend.Failure
import Mend.History.Basic
import Mend.Text.Decode

/-!
# A disk in memory

Files, folders and repositories by their places. A place is the list of the names that lead to it from the
working folder.
-/

namespace Mend

/-- What is at a place. -/
inductive Entry where
  /-- A file with its bytes, and the parser's tree if it is a program. -/
  | file (bytes : List UInt8) (tree : Syntax.Concrete)
  | folder
  /-- The folder of a repository. -/
  | repository (history : History)

/-- Whether something can be below an entry. -/
def Entry.isFolder : Entry → Bool
  | file .. => false
  | folder | repository _ => true

/-- Where something is on a disk. -/
abbrev Place := List String

/-- A disk. The working folder is always there. -/
structure Disk where
  entries : List (Place × Entry)

namespace Disk

/-- The disk with nothing in the working folder. -/
def empty : Disk := ⟨[]⟩

/-- What is at a place. -/
def entry? (d : Disk) (p : Place) : Option Entry :=
  if p.isEmpty then some .folder else d.entries.lookup p

/-- Puts something at a place, instead of what was there. -/
def put (d : Disk) (p : Place) (e : Entry) : Disk :=
  ⟨d.entries.filter (·.1 != p) ++ [(p, e)]⟩

/-- The greatest length of a name in bytes. -/
def longestName : Nat := 255

/-- Follows names from a place. Nothing is asked of the last name. -/
def follow (d : Disk) (here : Place) : List String → Except FileError Place
  | [] => .ok here
  | name :: rest =>
    match d.entry? here with
    | none => .error .missing
    | some e =>
      if !e.isFolder then .error .notAFolder
      else if name == "." then d.follow here rest
      else if name == ".." then d.follow here.dropLast rest
      else if longestName < name.utf8ByteSize then .error .nameTooLong
      else d.follow (here ++ [name]) rest

/-- The place of a path. -/
def placeOf (d : Disk) (path : String) : Except FileError Place :=
  d.follow [] (Path.names path ++ if Path.isFolder path then ["."] else [])

/-- What is at a path, with its place. -/
def at? (d : Disk) (path : String) : Except FileError (Place × Entry) := do
  let p ← d.placeOf path
  match d.entry? p with
  | some e => return (p, e)
  | none => throw .missing

/-- Whether there is anything at a path. -/
def isThere (d : Disk) (path : String) : Bool := (d.at? path).isOk

/-- The bytes of a file, and its tree. -/
def read (d : Disk) (path : String) : Except FileError (List UInt8 × Syntax.Concrete) := do
  match ← d.at? path with
  | (_, .file bytes tree) => return (bytes, tree)
  | _ => throw .isAFolder

/-- The program in a file. -/
def readSource (d : Disk) (path : String) : Except FileError Syntax.Source := do
  let (bytes, tree) ← d.read path
  match Text.decode? bytes with
  | some text => return ⟨text, tree⟩
  | none => throw .notText

/-- Writes a file. -/
def write (d : Disk) (path text : String) : Except FileError Disk := do
  if Path.isFolder path then throw .isAFolder
  let p ← d.placeOf path
  match d.entry? p with
  | some (.file ..) | none => return d.put p (.file (Text.encode text) .nil)
  | some _ => throw .isAFolder

/-- Makes the folders that names lead through from a place. -/
def makeAlong (d : Disk) (here : Place) : List String → Except FileError Disk
  | [] => .ok d
  | name :: rest =>
    if name == "." then d.makeAlong here rest
    else if name == ".." then d.makeAlong here.dropLast rest
    else if longestName < name.utf8ByteSize then .error .nameTooLong
    else
      let next := here ++ [name]
      match d.entry? next with
      | none => (d.put next .folder).makeAlong next rest
      | some e =>
        if e.isFolder then d.makeAlong next rest
        else if rest.isEmpty then .error .alreadyThere
        else .error .notAFolder

/-- Makes the folders of a path. -/
def makeFolders (d : Disk) (path : String) : Except FileError Disk := d.makeAlong [] (Path.names path)

/-- What is directly in a folder. -/
def inside (d : Disk) (p : Place) : List (String × Entry) :=
  d.entries.filterMap fun (q, e) =>
    match q.getLast? with
    | some name => if q.dropLast == p then some (name, e) else none
    | none => none

/-! ## Repositories -/

/-- The name of the folder in which a repository keeps its history. -/
def historyFolder : String := ".git"

/-- Puts a repository at a place. -/
def putRepository (d : Disk) (p : Place) (h : History) : Disk :=
  (d.put p (.repository h)).put (p ++ [historyFolder]) .folder

/-- The repository of a folder or of the folder of its history, with its place. -/
def repositoryAt? (d : Disk) (p : Place) : Option (Place × History) :=
  let owner := if p.getLast? == some historyFolder then p.dropLast else p
  match d.entry? owner with
  | some (.repository h) => some (owner, h)
  | _ => none

/-- The repository at a path. -/
def openRepository (d : Disk) (path : String) : Except RepositoryError (Place × History) := do
  let (p, _) ← (d.at? path).mapError (.unresolved path)
  match d.repositoryAt? p with
  | some found => return found
  | none => throw (.notFound path)

/-- The files of the last commit of a history, put into a folder. -/
def checkOut (d : Disk) (p : Place) (h : History) : Disk :=
  let files := (h.commits.getLast?).elim [] (·.files)
  files.foldl (fun d (path, blob) =>
    let d := (d.makeAlong p (Path.names path).dropLast).toOption.getD d
    d.put (p ++ Path.names path) (.file blob.bytes blob.source.tree)) d

/-- Whether a repository may be copied to a place: nothing is there, or a folder that holds nothing. -/
def isFree (d : Disk) (p : Place) : Bool :=
  match d.entry? p with
  | none => true
  | some e => e.isFolder && (d.inside p).isEmpty

/-- Copies a repository from a path to a new folder. -/
def copyRepository (d : Disk) (location target : String) :
    Except RepositoryError (Disk × Place × History) := do
  let p ← (d.placeOf target).mapError (.unresolved target)
  unless d.isFree p do throw (.notEmpty target)
  if location.isEmpty then throw .noLocation
  match d.at? location with
  | .error _ | .ok (_, .file ..) => throw .unsupported
  | .ok _ =>
    let (_, h) ← d.openRepository location
    return ((d.putRepository p h).checkOut p h, p, h)

end Disk

end Mend
