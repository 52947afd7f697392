/-!
# Change labels

Comparing a buggy file with its repair gives every syntax node, every flow node and every keyword use a
change label. The labels are written in upper case, and a written label that names no label is refused
with the vocabulary it was looked up in.
-/

namespace Mend

/-- How one thing differs between the buggy and the repaired file. The order of the constructors is the
order in which labels are sorted. -/
inductive Change where
  | unchanged
  | inserted
  | removed
  | updated
  | moved
  /-- Not compared yet; in a filter, any label. -/
  | unknown
  deriving DecidableEq, Repr, Inhabited

/-- A word that its vocabulary does not hold. -/
structure UnknownWord where
  vocabulary : String
  word : String
  deriving DecidableEq, Repr

/-- The text shown for an unknown word. -/
def UnknownWord.message (e : UnknownWord) : String :=
  s!"unknown {e.vocabulary} `{e.word}`"

/-- Looks `word` up among `values` by their written form. -/
def lookUpWord {α : Type} (vocabulary : String) (values : List α) (text : α → String)
    (word : String) : Except UnknownWord α :=
  match values.find? (fun v => text v == word) with
  | some v => .ok v
  | none => .error ⟨vocabulary, word⟩

namespace Change

/-- All labels, in sorting order. -/
def all : List Change := [unchanged, inserted, removed, updated, moved, unknown]

/-- The written form of a label. -/
def text : Change → String
  | unchanged => "UNCHANGED"
  | inserted => "INSERTED"
  | removed => "REMOVED"
  | updated => "UPDATED"
  | moved => "MOVED"
  | unknown => "UNKNOWN"

/-- The place of a label in the sorting order. -/
def rank : Change → Nat
  | unchanged => 0
  | inserted => 1
  | removed => 2
  | updated => 3
  | moved => 4
  | unknown => 5

theorem rank_inj {a b : Change} (h : a.rank = b.rank) : a = b := by
  cases a <;> cases b <;> simp_all [rank]

/-- Reads a written label. -/
def ofText (word : String) : Except UnknownWord Change :=
  lookUpWord "change type" all text word

/-- A label that says something changed. -/
def isChange : Change → Bool
  | unchanged | unknown => false
  | inserted | removed | updated | moved => true

end Change

end Mend
