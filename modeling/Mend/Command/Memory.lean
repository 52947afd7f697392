import Mend.Command.Disk
import Mend.Command.Host

/-!
# Running in memory

A host with a disk in memory that keeps what is printed.
-/

namespace Mend

/-- A system in memory. -/
structure Memory where
  disk : Disk
  environment : Variables
  /-- What was printed. -/
  printed : String
  /-- What was printed about things that went wrong or were left out. -/
  warned : String

namespace Memory

/-- A system on which nothing has run yet. -/
def start (disk : Disk) (environment : Variables) : Memory := ⟨disk, environment, "", ""⟩

/-- Asks the disk. -/
def ask {ε α : Type} (f : Disk → Except ε α) : StateM Memory (Except ε α) := do
  return f (← get).disk

/-- Changes the disk, unless that fails. -/
def change {ε α : Type} (f : Disk → Except ε (Disk × α)) : StateM Memory (Except ε α) := do
  match f (← get).disk with
  | .ok (disk, a) =>
    modify fun s => { s with disk }
    return .ok a
  | .error e => return .error e

/-- The repository at a place. -/
def repository : Place × History → Repository
  | (p, h) => ⟨"/".intercalate p, h⟩

/-- The host. -/
def host : Host (StateM Memory) where
  environment := return (← get).environment
  read path := ask fun d => (d.read path).map Prod.fst
  readSource path := ask fun d => d.readSource path
  write path text := change fun d => (d.write path text).map (·, ())
  makeFolders path := change fun d => (d.makeFolders path).map (·, ())
  isThere path := return (← get).disk.isThere path
  openRepository path := ask fun d => (d.openRepository path).map repository
  copyRepository location target := change fun d =>
    (d.copyRepository location target).map fun (d, found) => (d, repository found)
  print text := modify fun s => { s with printed := s.printed ++ text }
  warn text := modify fun s => { s with warned := s.warned ++ text }

end Memory

end Mend
