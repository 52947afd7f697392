import Mend.Provenance
import Mend.Sentinel.Set

/-!
# Findings

A finding says that a repair has one of the known shapes. Findings are collected in the order in which they
come, each one once.
-/

namespace Mend

/-- The known shapes of repairs. -/
inductive RepairPattern where
  /-- A call that was there before now stands in a new `try` statement. -/
  | errorHandlingAdded (call : String)
  /-- A function that was there before now calls its error callback. -/
  | callbackErrorAdded (callback : String)
  /-- A dereference that was there before is now guarded against special values. -/
  | specialValueGuardAdded (variable_ : String) (sentinels : SentinelSet)
  deriving DecidableEq, Repr

/-- The name of a shape. -/
def RepairPattern.tag : RepairPattern → String
  | errorHandlingAdded _ => "ERROR_HANDLING_ADDED"
  | callbackErrorAdded _ => "CALLBACK_ERROR_ADDED"
  | specialValueGuardAdded .. => "SPECIAL_VALUE_GUARD_ADDED"

/-- One repair pattern found in one function. -/
structure Finding where
  provenance : Provenance
  function : String
  line : Nat
  pattern : RepairPattern
  description : String
  deriving DecidableEq, Repr

/-- What a shape says about the function it was found in. -/
def RepairPattern.describe (p : RepairPattern) (function : String) : String :=
  match p with
  | errorHandlingAdded call => s!"{p.tag}: call `{call}` newly protected by inserted try"
  | callbackErrorAdded callback =>
    s!"{p.tag}: callback-error `{callback}` newly propagated in function {function}"
  | specialValueGuardAdded v sentinels => s!"{p.tag}: `{v}` newly guarded against {sentinels.text}"

namespace Finding

/-- A finding with the usual description. -/
def of (provenance : Provenance) (function : String) (line : Nat) (pattern : RepairPattern) :
    Finding :=
  ⟨provenance, function, line, pattern, pattern.describe function⟩

/-- The one-line rendering. -/
def text (f : Finding) : String :=
  s!"{f.provenance.text} [{f.function}:{f.line}] {f.description}"

end Finding

/-- Findings in the order in which they came, each once. -/
structure Findings where
  toList : List Finding
  nodup : toList.Nodup

namespace Findings

/-- No findings. -/
def empty : Findings := ⟨[], List.nodup_nil⟩

instance : Inhabited Findings := ⟨empty⟩

/-- Whether a finding has come before. -/
def contains (s : Findings) (f : Finding) : Bool := s.toList.contains f

/-- Adds a finding, unless it has come before. -/
def register (s : Findings) (f : Finding) : Findings :=
  if h : s.contains f = true then s
  else
    { toList := s.toList ++ [f]
      nodup := by
        have hf : f ∉ s.toList := by simpa [contains] using h
        rw [List.nodup_append]
        refine ⟨s.nodup, by simp, ?_⟩
        intro a ha b hb
        rw [List.mem_singleton.1 hb]
        exact fun e => hf (e ▸ ha) }

/-- Adds findings one after the other. -/
def registerAll (s : Findings) (fs : List Finding) : Findings := fs.foldl register s

/-- Adds the findings of another collection, in their order. -/
def merge (s t : Findings) : Findings := s.registerAll t.toList

def length (s : Findings) : Nat := s.toList.length

end Findings

end Mend
