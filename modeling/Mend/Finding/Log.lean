import Mend.Finding.Basic

/-!
# Logs of findings

A log is a collection of findings as it is kept while findings come in: the findings in order, and beside
them those seen so far, in which a new one is looked up. Nothing in the type ties the two to each other, so
that it rests with the calls to keep them in step.

Calls go to any number of collections, told apart by numbers. What a collection is does not matter to the
calls (`Keeping`): it may be a log, a list without repetitions, or all that ever came in.
-/

namespace Mend.Findings

/-- Findings in order, and beside them those seen so far. -/
structure Log where
  findings : List Finding
  /-- The findings seen so far, the last one first. -/
  seen : List Finding
  deriving DecidableEq, Repr

namespace Log

/-- The log without findings. -/
def new : Log := ⟨[], []⟩

/-- Adds a finding at the end, unless it was seen before, and tells whether it was added. -/
def register (s : Log) (f : Finding) : Log × Bool :=
  if s.seen.contains f then (s, false) else (⟨s.findings ++ [f], f :: s.seen⟩, true)

/-- Adds findings one after the other. -/
def registerAll (s : Log) (fs : List Finding) : Log := fs.foldl (fun s f => (s.register f).1) s

/-- Adds the findings of another log, in their order. What that log has seen is of no interest. -/
def merge (s t : Log) : Log := s.registerAll t.findings

end Log

/-- What can be done with collections that have numbers. -/
inductive Call where
  | register (i : Nat) (f : Finding)
  /-- Adds the findings of collection `j` to collection `i`. This uses `j` up: it has no findings then. -/
  | merge (i j : Nat)

/-- A way to keep findings. -/
structure Keeping (α : Type) where
  new : α
  register : α → Finding → α
  merge : α → α → α

namespace Keeping

variable {α : Type}

/-- Carries out a call. -/
def call (k : Keeping α) (s : Nat → α) : Call → Nat → α
  | .register i f => fun n => if n = i then k.register (s i) f else s n
  | .merge i j => fun n => if n = i then k.merge (s i) (s j) else if n = j then k.new else s n

/-- Carries out calls one after the other, on collections that are all new. -/
def run (k : Keeping α) (calls : List Call) : Nat → α := calls.foldl k.call fun _ => k.new

/-- Findings kept in logs. -/
def log : Keeping Log := ⟨.new, fun s f => (s.register f).1, .merge⟩

/-- Findings kept in lists without repetitions. -/
def findings : Keeping Findings := ⟨.empty, .register, .merge⟩

/-- All that came in, repetitions included. What is merged comes in as the findings of the other collection:
each where it came first. -/
def stream : Keeping (List Finding) := ⟨[], fun fs f => fs ++ [f], fun fs gs => fs ++ gs.eraseDups⟩

end Keeping

end Mend.Findings
