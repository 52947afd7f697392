import Mend.Finding.Log
import Mend.Proofs.Batch.Gather

/-!
# Logs hold what came first

A log that was given a stream holds the first occurrences of the stream and has seen these and no others
(`Log.Holds`). Registering and merging keep this, so that it is so after any calls on any number of logs, and
the log answers by what came in (`Keeping.run_log`). A stream may be cut at will and its parts be registered
apart and merged: that makes no difference (`Log.foldl_merge`).
-/

namespace Mend

section EraseDups

variable {α : Type} [BEq α] [LawfulBEq α]

/-- What was dropped from a list before is dropped from it with more behind it. -/
lemma eraseDups_eraseDups_append (l m : List α) : (l.eraseDups ++ m).eraseDups = (l ++ m).eraseDups := by
  have hkeep : m.removeAll l.eraseDups = m.removeAll l := by
    refine List.filter_congr fun x _ => ?_
    rw [Bool.eq_iff_iff]
    simp [List.mem_eraseDups]
  rw [List.eraseDups_append, List.eraseDups_append, hkeep, eraseDups_of_nodup (nodup_eraseDups l)]

end EraseDups

namespace Findings

namespace Log

variable {s t : Log} {stream more : List Finding} {f : Finding}

/-- Findings are registered one list after the other. -/
lemma registerAll_append (s : Log) (fs gs : List Finding) :
    s.registerAll (fs ++ gs) = (s.registerAll fs).registerAll gs := List.foldl_append

/-- The last finding is registered last. -/
lemma registerAll_concat (s : Log) (fs : List Finding) (f : Finding) :
    s.registerAll (fs ++ [f]) = ((s.registerAll fs).register f).1 := s.registerAll_append fs [f]

/-- A log that was given a stream. -/
structure Holds (s : Log) (stream : List Finding) : Prop where
  /-- The findings are those of the stream, each where it comes first. -/
  findings : s.findings = stream.eraseDups
  /-- Seen are the findings of the log, each once. -/
  seen : s.seen.Perm s.findings

namespace Holds

/-- A new log holds nothing. -/
lemma new : new.Holds [] := ⟨rfl, .nil⟩

/-- A log has seen what is in its stream. -/
lemma mem_seen (h : s.Holds stream) : f ∈ s.seen ↔ f ∈ stream := by
  rw [h.seen.mem_iff, h.findings, List.mem_eraseDups]

/-- Whether a log has seen a finding, told from its stream. -/
lemma contains_seen (h : s.Holds stream) (f : Finding) : s.seen.contains f = stream.contains f := by
  rw [Bool.eq_iff_iff, List.contains_iff_mem, List.contains_iff_mem, h.mem_seen]

/-- A finding is added just if it has not come in. -/
lemma snd_register (h : s.Holds stream) (f : Finding) : (s.register f).2 = !stream.contains f := by
  rw [register, h.contains_seen]
  cases stream.contains f <;> rfl

/-- Registering one more finding extends the stream by it. -/
lemma register (h : s.Holds stream) (f : Finding) : (s.register f).1.Holds (stream ++ [f]) := by
  rw [Log.register, h.contains_seen]
  have hfirst : (stream ++ [f]).eraseDups = _ := eraseDups_append_singleton
  cases hcontains : stream.contains f with
  | true =>
    rw [hcontains, if_pos rfl] at hfirst
    exact ⟨h.findings.trans hfirst.symm, h.seen⟩
  | false =>
    rw [hcontains, if_neg Bool.false_ne_true] at hfirst
    refine ⟨?_, (h.seen.cons f).trans (List.perm_append_singleton f s.findings).symm⟩
    rw [hfirst, ← h.findings]
    rfl

/-- Registering findings extends the stream by them. -/
lemma registerAll (h : s.Holds stream) (fs : List Finding) : (s.registerAll fs).Holds (stream ++ fs) := by
  induction fs using List.reverseRecOn with
  | nil => exact (List.append_nil stream).symm ▸ h
  | append_singleton fs f ih =>
    rw [registerAll_concat, ← List.append_assoc]
    exact ih.register f

/-- Merging a log extends the stream by what the other holds, each once. -/
lemma merge (h : s.Holds stream) (ht : t.Holds more) : (s.merge t).Holds (stream ++ more.eraseDups) := by
  rw [Log.merge, ht.findings]
  exact h.registerAll more.eraseDups

end Holds

/-- Registering a finding again changes nothing. -/
lemma register_of_mem_seen (h : f ∈ s.seen) : (s.register f).1 = s := by
  rw [register, List.contains_iff_mem.2 h]
  rfl

/-- What was registered has been seen. -/
lemma mem_seen_registerAll (s : Log) {fs : List Finding} (hf : f ∈ fs) : f ∈ (s.registerAll fs).seen := by
  induction fs using List.reverseRecOn with
  | nil => cases hf
  | append_singleton fs g ih =>
    rw [registerAll_concat, register]
    split
    · next hg =>
      rcases List.mem_append.1 hf with hf | hf
      · exact ih hf
      · exact List.mem_singleton.1 hf ▸ List.contains_iff_mem.1 hg
    · rcases List.mem_append.1 hf with hf | hf
      · exact List.mem_cons_of_mem _ (ih hf)
      · exact List.mem_singleton.1 hf ▸ List.mem_cons_self

/-- What comes again makes no difference. -/
lemma registerAll_eraseDups (s : Log) (fs : List Finding) :
    s.registerAll fs.eraseDups = s.registerAll fs := by
  induction fs using List.reverseRecOn with
  | nil => rfl
  | append_singleton fs f ih =>
    rw [eraseDups_append_singleton, registerAll_concat]
    split
    · next hf =>
      rw [ih, register_of_mem_seen (s.mem_seen_registerAll (List.contains_iff_mem.1 hf))]
    · rw [registerAll_concat, ih]

/-- Merging a new log is registering what was registered in it. -/
lemma merge_registerAll (s : Log) (fs : List Finding) : s.merge (new.registerAll fs) = s.registerAll fs := by
  rw [merge, (Holds.new.registerAll fs).findings, List.nil_append, registerAll_eraseDups]

/-- The parts of a stream, each registered apart and merged in order, give what the stream gives. -/
lemma foldl_merge (s : Log) (parts : List (List Finding)) :
    (parts.map new.registerAll).foldl merge s = s.registerAll parts.flatten := by
  induction parts generalizing s with
  | nil => rfl
  | cons part parts ih =>
    rw [List.map_cons, List.foldl_cons, merge_registerAll, ih, List.flatten_cons, registerAll_append]

end Log

/-- The list without repetitions of a stream. -/
lemma toList_register_of_eq {s : Findings} {stream : List Finding} (h : s.toList = stream.eraseDups)
    (f : Finding) : (s.register f).toList = (stream ++ [f]).eraseDups := by
  have hstep : (s.register f).toList = (s.toList ++ [f]).eraseDups := s.toList_registerAll [f]
  rw [hstep, h, eraseDups_eraseDups_append]

namespace Keeping

variable {α β : Type} {k : Keeping α} {l : Keeping β} {R : α → β → Prop}

/-- Two ways to keep findings that agree in each call agree in all. -/
lemma run_rel (hnew : R k.new l.new) (hregister : ∀ s t f, R s t → R (k.register s f) (l.register t f))
    (hmerge : ∀ s t s' t', R s t → R s' t' → R (k.merge s s') (l.merge t t')) (calls : List Call) (n : Nat) :
    R (k.run calls n) (l.run calls n) := by
  induction calls using List.reverseRecOn generalizing n with
  | nil => exact hnew
  | append_singleton calls c ih =>
    rw [run, run, List.foldl_append, List.foldl_append]
    cases c with
    | register i f =>
      change R (if n = i then _ else _) (if n = i then _ else _)
      split
      · exact hregister _ _ f (ih i)
      · exact ih n
    | merge i j =>
      change R (if n = i then _ else if n = j then _ else _) (if n = i then _ else if n = j then _ else _)
      split
      · exact hmerge _ _ _ _ (ih i) (ih j)
      · split
        · exact hnew
        · exact ih n

/-- After any calls, each log holds its stream. -/
lemma holds_run (calls : List Call) (n : Nat) : (log.run calls n).Holds (stream.run calls n) :=
  run_rel .new (fun _ _ f h => h.register f) (fun _ _ _ _ h h' => h.merge h') calls n

/-- After any calls, the findings are those of the stream, each once. -/
lemma toList_run_findings (calls : List Call) (n : Nat) :
    (findings.run calls n).toList = (stream.run calls n).eraseDups := by
  let R (s : Findings) (fs : List Finding) : Prop := s.toList = fs.eraseDups
  have hmerge : ∀ s fs t gs, R s fs → R t gs → R (s.merge t) (fs ++ gs.eraseDups) := by
    intro s fs t gs hs ht
    change (s.registerAll t.toList).toList = (fs ++ gs.eraseDups).eraseDups
    rw [toList_registerAll, hs, ht, eraseDups_eraseDups_append]
  exact run_rel (R := R) rfl (fun _ _ f h => toList_register_of_eq h f) hmerge calls n

/-- After any calls on any number of logs, each log holds the first occurrences of the stream that came into
it, in order. Seen are these and no others, and a further finding is added just if it is not in the stream.
The lists without repetitions come to the same. Parts of a stream that are registered apart and merged into
the log in order leave it as the stream itself does. -/
theorem run_log (calls : List Call) (n : Nat) :
    let s := log.run calls n
    let fs := stream.run calls n
    s.findings = fs.eraseDups ∧ s.seen.Nodup ∧ (∀ f, f ∈ s.seen ↔ f ∈ s.findings) ∧
    (∀ f, ((s.register f).2 = true ↔ f ∉ fs) ∧
      (s.register f).1 = if f ∈ fs then s else ⟨s.findings ++ [f], f :: s.seen⟩) ∧
    (findings.run calls n).toList = s.findings ∧
    ∀ parts : List (List Finding),
      (parts.map Log.new.registerAll).foldl Log.merge s = s.registerAll parts.flatten := by
  intro s fs
  have h : s.Holds fs := holds_run calls n
  refine ⟨h.findings, ?_, fun f => h.seen.mem_iff, fun f => ⟨?_, ?_⟩, ?_, s.foldl_merge⟩
  · rw [h.seen.nodup_iff, h.findings]
    exact nodup_eraseDups fs
  · rw [h.snd_register, Bool.not_eq_true', ← Bool.not_eq_true, List.contains_iff_mem]
  · rw [Log.register, h.contains_seen]
    by_cases hf : f ∈ fs <;> simp [hf]
  · rw [toList_run_findings, h.findings]

end Keeping

end Findings

end Mend
