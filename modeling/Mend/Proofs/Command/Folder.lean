import Mathlib.Data.List.Basic
import Mend.Command.Memory
import Mend.Command.RunDataSet
import Mend.Proofs.Text.Fields

/-!
# Files written into a folder

Making folders leaves what is there (`entry?_makeAlong`), and writing a file replaces what is at one place,
where nothing but a file may have been (`write_ok`). So the paths that lead somewhere keep leading there
(`Keeps.follow`), and files of one folder with different names stay out of each other's way
(`read_of_writeFiles_of_ne`). Of the files of one name that are written in turn the last one is there in the
end (`read_of_writeFiles`).
-/

namespace Mend

namespace Path

/-- The name of a file, and not the way to one. -/
structure IsName (name : String) : Prop where
  ne_empty : name ≠ ""
  slash_not_mem : '/' ∉ name.toList
  ne_here : name ≠ "."
  ne_outside : name ≠ ".."

/-- One step of a path: a name, or the way to the folder itself or out of it. -/
structure IsStep (step : String) : Prop where
  ne_empty : step ≠ ""
  slash_not_mem : '/' ∉ step.toList

/-- The names of a path, but for the slash at its beginning. -/
def inner (path : String) : List String := (Text.splitAt '/' path).filter (!·.isEmpty)

/-- The steps of a path behind another are the steps of both. -/
lemma inner_append (s t : String) : inner (s ++ "/" ++ t) = inner s ++ inner t := by
  have hsplit : Text.splitAt '/' (s ++ "/" ++ t) = Text.splitAt '/' s ++ Text.splitAt '/' t :=
    Text.splitAt_append '/' s t
  rw [inner, hsplit, List.filter_append]
  rfl

variable {name : String}

/-- A name is a step of a path. -/
lemma IsName.isStep (h : IsName name) : IsStep name := ⟨h.ne_empty, h.slash_not_mem⟩

/-- A step holds no slash. -/
lemma IsStep.isSlash_eq_false (h : IsStep name) {c : Char} (hc : c ∈ name.toList) : isSlash c = false :=
  beq_eq_false_iff_ne.2 fun heq => h.slash_not_mem (heq ▸ hc)

/-- A step is the only step of itself. -/
lemma IsStep.inner_eq (h : IsStep name) : inner name = [name] := by
  have hsplit : Text.splitAt '/' name = [name] := by
    rw [Text.splitAt, Text.splitList_of_forall fun c hc => ?_]
    · rw [List.map_singleton, String.ofList_toList]
    · exact h.isSlash_eq_false hc
  rw [inner, hsplit]
  simp [h.ne_empty]

/-- What a path ends in does not change how it begins. -/
lemma names_append {folder s : String} (hne : folder ≠ "") (h : inner (folder ++ s) = inner folder ++ [name]) :
    names (folder ++ s) = names folder ++ [name] := by
  have hhead : (folder ++ s).toList.head? = folder.toList.head? := by
    rw [String.toList_append]
    exact List.head?_append_of_ne_nil _ fun hl => hne (String.toList_eq_nil_iff.1 hl)
  change (if (folder ++ s).toList.head?.any isSlash then "/" :: inner (folder ++ s) else inner (folder ++ s)) =
    (if folder.toList.head?.any isSlash then "/" :: inner folder else inner folder) ++ [name]
  rw [hhead, h]
  split <;> rfl

/-- What is in a folder is reached through the folder. -/
lemma IsStep.names_below (h : IsStep name) (folder : String) :
    names (below folder name) = names folder ++ [name] := by
  by_cases hne : folder = ""
  · have hhead : ¬ name.toList.head?.any isSlash := by
      rw [Option.any_eq_true]
      rintro ⟨c, hc, hslash⟩
      rw [h.isSlash_eq_false (List.mem_of_head? hc)] at hslash
      cases hslash
    rw [hne]
    change names ("" ++ name) = [name]
    rw [String.empty_append]
    exact (if_neg hhead).trans h.inner_eq
  rw [below]
  split
  · next hlast =>
    have hend : ∃ front, folder = front ++ "/" := by
      obtain hnil | ⟨front, c, hfront⟩ := List.eq_nil_or_concat' folder.toList
      · exact absurd (String.toList_eq_nil_iff.1 hnil) hne
      · rw [hfront, List.getLast?_concat] at hlast
        refine ⟨String.ofList front, String.toList_inj.1 ?_⟩
        rw [hfront, beq_iff_eq.1 hlast, String.toList_append, String.toList_ofList]
        rfl
    obtain ⟨front, rfl⟩ := hend
    have hfront : inner (front ++ "/") = inner front := by
      have h := inner_append front ""
      rw [String.append_empty] at h
      exact h.trans (List.append_nil _)
    exact names_append hne (by rw [inner_append, h.inner_eq, hfront])
  · change names (folder ++ "/" ++ name) = _
    rw [String.append_assoc]
    exact names_append hne (by rw [← String.append_assoc, inner_append, h.inner_eq])

/-- A path that ends in a step names no folder outright. -/
lemma IsStep.isFolder_below (h : IsStep name) (folder : String) : isFolder (below folder name) = false := by
  have hlast : ∀ front : String, isFolder (front ++ name) = false := by
    intro front
    have hne : name.toList ≠ [] := fun hl => h.ne_empty (String.toList_eq_nil_iff.1 hl)
    rw [isFolder, String.toList_append, List.getLast?_append_of_ne_nil _ hne, Option.any_eq_false]
    exact fun c hc => h.isSlash_eq_false (List.mem_of_getLast? hc)
  rw [below]
  split
  · exact hlast folder
  · exact hlast (folder ++ "/")

end Path

namespace Disk

variable {d d' d'' : Disk} {p q : Place} {e : Entry} {folder name text path : String}

/-! ## Places -/

/-- Taking out one place leaves the others as they were. -/
lemma lookup_filter_of_ne {l : List (Place × Entry)} (h : q ≠ p) :
    (l.filter (·.1 != p)).lookup q = l.lookup q := by
  induction l with
  | nil => rfl
  | cons a l ih =>
    obtain ⟨r, e⟩ := a
    rw [List.filter_cons, List.lookup_cons]
    split
    · rw [List.lookup_cons, ih]
    · next hr =>
      have hr : r = p := by simpa using hr
      rw [ih, hr, beq_eq_false_iff_ne.2 h]

/-- A place taken out is not found. -/
lemma lookup_filter_self {l : List (Place × Entry)} : (l.filter (·.1 != p)).lookup p = none := by
  rw [List.lookup_eq_none_iff]
  intro a ha
  have hne := (List.mem_filter.1 ha).2
  rwa [bne_comm]

/-- What was put at a place is found there. -/
lemma entry?_put_self (hp : p ≠ []) : entry? (d.put p e) p = some e := by
  unfold entry? put
  rw [if_neg (by simpa using hp), List.lookup_append, lookup_filter_self]
  simp

/-- Putting an entry leaves the other places as they were. -/
lemma entry?_put_of_ne (h : q ≠ p) : entry? (d.put p e) q = d.entry? q := by
  have hlast : [(p, e)].lookup q = none := by
    rw [List.lookup_cons, beq_eq_false_iff_ne.2 h]
    rfl
  unfold entry? put
  rw [List.lookup_append, lookup_filter_of_ne h, hlast, Option.or_none]

/-- Where one name leads from a folder. -/
def next (here : Place) (name : String) : Except FileError Place :=
  if name == "." then .ok here
  else if name == ".." then .ok here.dropLast
  else if longestName < name.utf8ByteSize then .error .nameTooLong
  else .ok (here ++ [name])

/-- A name leads one place down. -/
lemma next_of_isName (h : Path.IsName name) (hp : next p name = .ok q) : q = p ++ [name] := by
  rw [next, beq_eq_false_iff_ne.2 h.ne_here, beq_eq_false_iff_ne.2 h.ne_outside] at hp
  simp only [Bool.false_eq_true, if_false] at hp
  split at hp
  · cases hp
  · cases hp
    rfl

/-- Whether something can be below a place. -/
def IsOpen (d : Disk) (p : Place) : Prop := ∃ e, d.entry? p = some e ∧ e.isFolder = true

/-- Steps are followed one by one from open places. -/
lemma follow_cons_iff {names : List String} : d.follow p (name :: names) = .ok q ↔
    d.IsOpen p ∧ ∃ r, next p name = .ok r ∧ d.follow r names = .ok q := by
  rw [follow, IsOpen, next]
  cases d.entry? p with
  | none => simp
  | some e =>
    cases hfolder : e.isFolder with
    | false => simp [hfolder]
    | true =>
      simp only [hfolder, Bool.not_true, Bool.false_eq_true, if_false, Option.some.injEq, exists_eq_left',
        true_and]
      split_ifs <;> simp

/-- Steps in two parts are followed one part after the other. -/
lemma follow_append_iff {names names' : List String} : d.follow p (names ++ names') = .ok q ↔
    ∃ r, d.follow p names = .ok r ∧ d.follow r names' = .ok q := by
  induction names generalizing p with
  | nil => simp [follow]
  | cons name names ih =>
    simp only [List.cons_append, follow_cons_iff, ih]
    tauto

/-- The last step is taken from an open place. -/
lemma follow_concat_iff {names : List String} : d.follow p (names ++ [name]) = .ok q ↔
    ∃ r, d.follow p names = .ok r ∧ d.IsOpen r ∧ next r name = .ok q := by
  have hone : ∀ r, d.follow r [name] = .ok q ↔ d.IsOpen r ∧ next r name = .ok q := by
    intro r
    rw [follow_cons_iff]
    simp only [follow, Except.ok.injEq, exists_eq_right]
  simp only [follow_append_iff, hone]

/-- Nothing is gone, and what could have something below it still can. -/
def Keeps (d d' : Disk) : Prop :=
  ∀ p e, d.entry? p = some e → ∃ e', d'.entry? p = some e' ∧ e'.isFolder = e.isFolder

/-- Paths that lead somewhere keep leading there. -/
lemma Keeps.follow (h : d.Keeps d') {names : List String} (hq : d.follow p names = .ok q) :
    d'.follow p names = .ok q := by
  induction names generalizing p with
  | nil => exact hq
  | cons name names ih =>
    obtain ⟨⟨e, he, hfolder⟩, r, hr, hq⟩ := follow_cons_iff.1 hq
    obtain ⟨e', he', heq⟩ := h p e he
    exact follow_cons_iff.2 ⟨⟨e', he', heq.trans hfolder⟩, r, hr, ih hq⟩

/-! ## Making folders and writing -/

/-- Folders are made where nothing is. -/
lemma entry?_makeAlong {names : List String} (h : d.makeAlong q names = .ok d') (he : d.entry? p = some e) :
    d'.entry? p = some e := by
  fun_induction makeAlong d q names with
  | case1 =>
    cases h
    exact he
  | case2 _ _ _ _ _ ih => exact ih h he
  | case3 _ _ _ _ _ _ ih => exact ih h he
  | case5 d _ _ _ _ _ _ _ hnone ih =>
    refine ih h ((entry?_put_of_ne ?_).trans he)
    rintro rfl
    rw [hnone] at he
    cases he
  | case6 _ _ _ _ _ _ _ _ _ _ _ ih => exact ih h he
  | case4 | case7 | case8 => cases h

/-- A disk with all the entries of another keeps it. -/
lemma keeps_of_forall (h : ∀ p e, d.entry? p = some e → d'.entry? p = some e) : d.Keeps d' :=
  fun p e he => ⟨e, h p e he, rfl⟩

/-- Writing replaces a file or makes one. -/
lemma write_ok (h : d.write path text = .ok d') : ∃ p, d.placeOf path = .ok p ∧ p ≠ [] ∧
    (∀ e, d.entry? p = some e → e.isFolder = false) ∧ d' = d.put p (.file (Text.encode text) .nil) := by
  rw [write] at h
  split at h
  · cases h
  dsimp only at h
  cases hp : d.placeOf path with
  | error e =>
    rw [hp] at h
    cases h
  | ok p =>
    rw [hp] at h
    have hput : (∀ e, d.entry? p = some e → e.isFolder = false) ∧
        d' = d.put p (.file (Text.encode text) .nil) := by
      cases he : d.entry? p with
      | none =>
        simp only [bind, Except.bind, he] at h
        cases h
        exact ⟨nofun, rfl⟩
      | some e =>
        cases e with
        | file bytes tree =>
          simp only [bind, Except.bind, he] at h
          cases h
          exact ⟨fun e heq => by cases heq; rfl, rfl⟩
        | folder =>
          simp only [bind, Except.bind, he] at h
          cases h
        | repository history =>
          simp only [bind, Except.bind, he] at h
          cases h
    refine ⟨p, rfl, ?_, hput⟩
    rintro rfl
    cases hput.1 .folder rfl

/-- Putting a file where no folder is keeps the disk. -/
lemma keeps_put {p : Place} (hp : p ≠ []) (hfile : ∀ e, d.entry? p = some e → e.isFolder = false)
    (he : e.isFolder = false) : d.Keeps (d.put p e) := by
  intro q e' he'
  by_cases hq : q = p
  · subst hq
    exact ⟨e, entry?_put_self hp, he.trans (hfile e' he').symm⟩
  · exact ⟨e', (entry?_put_of_ne hq).trans he', rfl⟩

/-- A file is read iff its path leads to one. -/
lemma read_iff {bytes : List UInt8} {tree : Syntax.Concrete} : d.read path = .ok (bytes, tree) ↔
    ∃ p, d.placeOf path = .ok p ∧ d.entry? p = some (.file bytes tree) := by
  rw [read, at?]
  cases d.placeOf path with
  | error e => simp [bind, Except.bind]
  | ok p =>
    cases he : d.entry? p with
    | none => simp [bind, Except.bind, he, throw, throwThe, MonadExceptOf.throw]
    | some e => cases e <;> simp [bind, Except.bind, he, pure, Except.pure, throw, throwThe, MonadExceptOf.throw]

/-- What is written can be read. -/
lemma read_of_write (h : d.write path text = .ok d') : d'.read path = .ok (Text.encode text, .nil) := by
  obtain ⟨p, hp, hne, hfile, rfl⟩ := write_ok h
  exact read_iff.2 ⟨p, (keeps_put hne hfile rfl).follow hp, entry?_put_self hne⟩

variable {bytes : List UInt8} {tree : Syntax.Concrete}

/-- Making folders changes no file. -/
lemma read_of_makeFolders (h : d.makeFolders folder = .ok d') (hread : d.read path = .ok (bytes, tree)) :
    d'.read path = .ok (bytes, tree) := by
  obtain ⟨p, hp, he⟩ := read_iff.1 hread
  have hkept : ∀ p e, d.entry? p = some e → d'.entry? p = some e := fun p e => entry?_makeAlong h
  exact read_iff.2 ⟨p, (keeps_of_forall hkept).follow hp, hkept p _ he⟩

/-- The place of a path below a folder is one step from the place of the folder. -/
lemma placeOf_below_iff (h : Path.IsStep name) : d.placeOf (Path.below folder name) = .ok p ↔
    ∃ q, d.placeOf folder = .ok q ∧ d.IsOpen q ∧ next q name = .ok p := by
  rw [placeOf, placeOf, h.names_below, h.isFolder_below]
  simp only [Bool.false_eq_true, if_false, List.append_nil, follow_concat_iff]
  split
  · -- A slash at the end of the folder's path asks for nothing that the step does not ask for as well.
    have hhere : ∀ r, next r "." = .ok r := fun _ => rfl
    simp only [follow_concat_iff, hhere, Except.ok.injEq]
    constructor
    · rintro ⟨q, hq, hopen, hp⟩
      exact ⟨q, ⟨q, hq, hopen, rfl⟩, hopen, hp⟩
    · rintro ⟨q, ⟨_, hq, -, rfl⟩, hopen, hp⟩
      exact ⟨_, hq, hopen, hp⟩
  · rw [List.append_nil]

/-- The place of a file in a folder ends in the name of the file. -/
lemma getLast?_of_placeOf_below (hname : Path.IsName name) (hp : d.placeOf (Path.below folder name) = .ok p) :
    p.getLast? = some name := by
  obtain ⟨q, -, -, hnext⟩ := (placeOf_below_iff hname.isStep).1 hp
  rw [next_of_isName hname hnext]
  exact List.getLast?_concat

/-- Writing a file of a folder changes no file of it with another name. -/
lemma read_of_write_of_ne {name' : String} (hname : Path.IsName name) (hname' : Path.IsName name')
    (hne : name ≠ name') (h : d.write (Path.below folder name') text = .ok d')
    (hread : d.read (Path.below folder name) = .ok (bytes, tree)) :
    d'.read (Path.below folder name) = .ok (bytes, tree) := by
  obtain ⟨p', hp', hroot, hfile, rfl⟩ := write_ok h
  obtain ⟨p, hp, he⟩ := read_iff.1 hread
  -- The two places end in the two names, wherever the folder is.
  have hpp : p ≠ p' := by
    rintro rfl
    have hlast := getLast?_of_placeOf_below hname' hp'
    rw [getLast?_of_placeOf_below hname hp] at hlast
    exact hne (Option.some.inj hlast)
  exact read_iff.2 ⟨p, (keeps_put hroot hfile rfl).follow hp, (entry?_put_of_ne hpp).trans he⟩

end Disk

namespace Command

variable {α β : Type} {s s' : Memory}

/-! ## Actions in memory -/

/-- A mapped result is there iff the result is. -/
lemma map_ok {ε : Type} {x : Except ε α} {g : α → β} {b : β} (h : x.map g = .ok b) :
    ∃ a, x = .ok a ∧ g a = b := by
  cases x with
  | error e => cases h
  | ok a => exact ⟨a, rfl, Except.ok.inj h⟩

/-- An action ends where its first part fails, or else as its second part does. -/
lemma bind_cases {x : Action (StateM Memory) α} {k : α → Action (StateM Memory) β} {result : Except Trouble β}
    (h : (x >>= k) s = (result, s')) :
    (∃ e, x s = (.error e, s') ∧ result = .error e) ∨ ∃ a s₁, x s = (.ok a, s₁) ∧ k a s₁ = (result, s') := by
  have hrun : (x >>= k) s = ExceptT.bindCont k (x s).1 (x s).2 := rfl
  rw [hrun] at h
  cases hx : x s with
  | mk first s₁ =>
    rw [hx] at h
    cases first with
    | error e =>
      cases h
      exact .inl ⟨e, rfl, rfl⟩
    | ok a => exact .inr ⟨a, s₁, rfl, h⟩

/-- Two actions in a row succeed iff both do. -/
lemma bind_ok {x : Action (StateM Memory) α} {k : α → Action (StateM Memory) β} {b : β}
    (h : (x >>= k) s = (.ok b, s')) : ∃ a s₁, x s = (.ok a, s₁) ∧ k a s₁ = (.ok b, s') := by
  obtain ⟨e, -, herror⟩ | hboth := bind_cases h
  · cases herror
  · exact hboth

/-- A change of the disk, run on a memory. -/
lemma change_apply {ε : Type} (f : Disk → Except ε (Disk × α)) (s : Memory) :
    Memory.change f s =
      match f s.disk with
      | .ok (disk, a) => (.ok a, { s with disk })
      | .error e => (.error e, s) := by
  have hget : ∀ k : Memory → StateM Memory (Except ε α), (get >>= k) s = k s s := fun _ => rfl
  rw [Memory.change, hget]
  cases f s.disk <;> rfl

/-- Where something is done to the disk, it is changed and nothing else, or nothing at all. -/
lemma during_change_cases {ε : Type} {activity : String} {g : ε → Failure} {f : Disk → Except ε (Disk × α)}
    {result : Except Trouble α}
    (h : (do during activity ((← ExceptT.lift (Memory.change f)).mapError g) : Action (StateM Memory) α) s =
      (result, s')) :
    (∃ d a, f s.disk = .ok (d, a) ∧ result = .ok a ∧ s' = { s with disk := d }) ∨
      (∃ e, result = .error e) ∧ s' = s := by
  have hrun : (do during activity ((← ExceptT.lift (Memory.change f)).mapError g) : Action (StateM Memory) α) s =
      (during activity ((Memory.change f s).1.mapError g) : Action (StateM Memory) α) (Memory.change f s).2 := rfl
  rw [hrun, change_apply] at h
  cases hf : f s.disk with
  | error e =>
    rw [hf] at h
    cases h
    exact .inr ⟨⟨_, rfl⟩, rfl⟩
  | ok changed =>
    rw [hf] at h
    cases h
    exact .inl ⟨changed.1, changed.2, rfl, rfl, rfl⟩

/-- A change of one file succeeds on the changed disk or leaves the memory. -/
lemma onFile_change_cases {path activity : String} {f : Disk → Except FileError Disk} {result : Except Trouble Unit}
    (h : (onFile path activity (Memory.change fun d => (f d).map (·, ())) : Action (StateM Memory) Unit) s =
      (result, s')) :
    (∃ d, f s.disk = .ok d ∧ result = .ok () ∧ s' = { s with disk := d }) ∨
      (∃ e, result = .error e) ∧ s' = s := by
  rw [onFile] at h
  obtain ⟨d, ⟨⟩, hmap, hresult, hs⟩ | hnothing := during_change_cases h
  · obtain ⟨_, hd, ⟨⟩⟩ := map_ok hmap
    exact .inl ⟨d, hd, hresult, hs⟩
  · exact .inr hnothing

/-- A change of one file that succeeds changes the disk alone. -/
lemma onFile_change_ok {path activity : String} {f : Disk → Except FileError Disk}
    (h : (onFile path activity (Memory.change fun d => (f d).map (·, ())) : Action (StateM Memory) Unit) s =
      (.ok (), s')) :
    ∃ d, f s.disk = .ok d ∧ s' = { s with disk := d } := by
  obtain ⟨d, hd, -, hs⟩ | ⟨⟨e, herror⟩, -⟩ := onFile_change_cases h
  · exact ⟨d, hd, hs⟩
  · cases herror

/-! ## Files of one folder -/

variable {folder activity : String} {files : List (String × String)} {name text : String}

/-- The first file is written, and the others behind it. -/
lemma writeFiles_cons_ok
    (h : writeFiles Memory.host folder activity ((name, text) :: files) s = (.ok (), s')) :
    ∃ d₁ d₂, s.disk.makeFolders folder = .ok d₁ ∧ d₁.write (Path.below folder name) text = .ok d₂ ∧
      writeFiles Memory.host folder activity files { s with disk := d₂ } = (.ok (), s') := by
  rw [writeFiles, List.forM] at h
  obtain ⟨⟨⟩, s₂, hfile, hrest⟩ := bind_ok h
  obtain ⟨⟨⟩, s₁, hmake, hwrite⟩ := bind_ok hfile
  obtain ⟨d₁, hd₁, rfl⟩ := onFile_change_ok (f := (·.makeFolders folder)) hmake
  obtain ⟨d₂, hd₂, rfl⟩ := onFile_change_ok (f := (·.write (Path.below folder name) text)) hwrite
  exact ⟨d₁, d₂, hd₁, hd₂, hrest⟩

/-- Files with other names leave a file of the folder as it is. -/
lemma read_of_writeFiles_of_ne {bytes : List UInt8} {tree : Syntax.Concrete} (hname : Path.IsName name)
    (hfiles : ∀ f ∈ files, Path.IsName f.1 ∧ name ≠ f.1)
    (h : writeFiles Memory.host folder activity files s = (.ok (), s'))
    (hread : s.disk.read (Path.below folder name) = .ok (bytes, tree)) :
    s'.disk.read (Path.below folder name) = .ok (bytes, tree) := by
  induction files generalizing s with
  | nil =>
    cases h
    exact hread
  | cons f files ih =>
    obtain ⟨name', text'⟩ := f
    obtain ⟨hname', hne⟩ := hfiles _ List.mem_cons_self
    obtain ⟨d₁, d₂, hmake, hwrite, hrest⟩ := writeFiles_cons_ok h
    refine ih (fun f hf => hfiles f (List.mem_cons_of_mem _ hf)) hrest ?_
    exact Disk.read_of_write_of_ne hname hname' hne hwrite (Disk.read_of_makeFolders hmake hread)

/-- A file of the folder holds what was written under its name last. -/
lemma read_of_writeFiles {before after : List (String × String)}
    (hfiles : ∀ f ∈ before ++ (name, text) :: after, Path.IsName f.1) (hlast : ∀ f ∈ after, name ≠ f.1)
    (h : writeFiles Memory.host folder activity (before ++ (name, text) :: after) s = (.ok (), s')) :
    s'.disk.read (Path.below folder name) = .ok (Text.encode text, .nil) := by
  induction before generalizing s with
  | nil =>
    obtain ⟨d₁, d₂, -, hwrite, hrest⟩ := writeFiles_cons_ok h
    have hothers : ∀ f ∈ after, Path.IsName f.1 ∧ name ≠ f.1 := fun f hf =>
      ⟨hfiles f (List.mem_cons_of_mem _ hf), hlast f hf⟩
    exact read_of_writeFiles_of_ne (hfiles _ List.mem_cons_self) hothers hrest (Disk.read_of_write hwrite)
  | cons f before ih =>
    obtain ⟨name', text'⟩ := f
    obtain ⟨d₁, d₂, -, -, hrest⟩ := writeFiles_cons_ok h
    exact ih (fun f hf => hfiles f (List.mem_cons_of_mem _ hf)) hrest

end Command

end Mend
