import Mend.Command.RunAnalysis
import Mend.Proofs.Command.Folder
import Mend.Proofs.Provenance

/-!
# Where repositories are copied to

A path leads to one place on every disk (`placeOf_eq`), so the place of a copy is told by the checkout folder and
the name of the project alone. Copying changes nothing outside of the checkout folder but for folders that it
makes (`agreesOutside_copyRepository`). That holds even where the name leads out of the checkout folder, since the
folder around it is not empty (`not_isFree_dropLast`).
-/

namespace Mend

namespace Path

/-- Where one step of a path leads. -/
def step (here : Place) (name : String) : Place :=
  if name == "." then here else if name == ".." then here.dropLast else here ++ [name]

/-- The place that a path leads to, if anything is there. -/
def place (path : String) : Place := (names path).foldl step []

/-- A path that ends in a step leads one step further. -/
lemma IsStep.place_below {name : String} (h : IsStep name) (folder : String) :
    place (below folder name) = step (place folder) name := by
  rw [place, h.names_below, List.foldl_append]
  rfl

end Path

namespace Disk

variable {d d' d'' : Disk} {p q r : Place} {path name location target : String} {names : List String}

/-! ## The place of a path -/

/-- Where a step leads is where its text leads. -/
lemma next_eq_step (h : next p name = .ok q) : q = Path.step p name := by
  rw [next] at h
  rw [Path.step]
  split_ifs at h ⊢ <;> cases h <;> rfl

/-- Where steps lead is where their texts lead, one by one. -/
lemma follow_eq_foldl (h : d.follow p names = .ok q) : q = names.foldl Path.step p := by
  induction names generalizing p with
  | nil =>
    cases h
    rfl
  | cons name names ih =>
    obtain ⟨-, r, hr, hq⟩ := follow_cons_iff.1 h
    rw [List.foldl_cons, ← next_eq_step hr]
    exact ih hq

/-- A path leads to the same place on every disk. -/
lemma placeOf_eq (h : d.placeOf path = .ok p) : p = Path.place path := by
  rw [follow_eq_foldl h, List.foldl_append, Path.place]
  split <;> rfl

/-- All folders around a place are there. -/
def IsReached (d : Disk) (p : Place) : Prop := ∀ q, q <+: p → q ≠ p → d.IsOpen q

/-- The root of the disk is reached. -/
lemma isReached_nil (d : Disk) : d.IsReached [] := fun _ hq hne => absurd (List.prefix_nil.1 hq) hne

/-- A step from an open place reached reaches the next. -/
lemma IsReached.next (h : d.IsReached p) (hopen : d.IsOpen p) (hq : next p name = .ok q) : d.IsReached q := by
  intro r hr hne
  rw [next_eq_step hq, Path.step] at hr hne
  split_ifs at hr hne with hhere houtside
  · exact h r hr hne
  · refine h r (hr.trans (List.dropLast_prefix p)) fun heq => hne ?_
    have hfix : p.dropLast = p := (List.dropLast_prefix p).eq_of_length_le (heq ▸ hr).length_le
    rw [hfix, heq]
  · rcases List.prefix_concat_iff.1 hr with rfl | hr
    · exact absurd rfl hne
    · by_cases heq : r = p
      · exact heq ▸ hopen
      · exact h r hr heq

/-- Steps from a place reached reach where they lead. -/
lemma IsReached.follow (h : d.IsReached p) (hq : d.follow p names = .ok q) : d.IsReached q := by
  induction names generalizing p with
  | nil =>
    cases hq
    exact h
  | cons name names ih =>
    obtain ⟨hopen, r, hr, hq⟩ := follow_cons_iff.1 hq
    exact ih (h.next hopen hr) hq

/-- The place of a path is reached. -/
lemma isReached_of_placeOf (h : d.placeOf path = .ok p) : d.IsReached p := (isReached_nil d).follow h

/-- The folder around a folder is not empty. -/
lemma not_isFree_dropLast (h : d.IsReached p) (hopen : d.IsOpen p) (hne : p ≠ []) : d.isFree p.dropLast = false := by
  obtain ⟨front, name, rfl⟩ := (List.eq_nil_or_concat' p).resolve_left hne
  obtain ⟨e, he, -⟩ := hopen
  obtain ⟨around, haround, hfolder⟩ := h front (List.prefix_append _ _) (by simp)
  unfold entry? at he
  rw [if_neg (by simp), List.lookup_eq_some_iff] at he
  obtain ⟨before, after, hentries, -⟩ := he
  have hinside : (name, e) ∈ d.inside front := by
    refine List.mem_filterMap.2 ⟨(front ++ [name], e), hentries ▸ by simp, ?_⟩
    simp
  rw [List.dropLast_concat, isFree, haround]
  simp [hfolder, List.ne_nil_of_mem hinside]

/-! ## What changes -/

/-- Outside of a place nothing changes, but for folders that are made where nothing was. -/
def AgreesOutside (q : Place) (d d' : Disk) : Prop :=
  ∀ p, ¬q <+: p → d'.entry? p = d.entry? p ∨ d.entry? p = none ∧ d'.entry? p = some .folder

/-- A disk agrees with itself everywhere. -/
lemma AgreesOutside.refl (q : Place) (d : Disk) : AgreesOutside q d d := fun _ _ => .inl rfl

/-- Agreement outside a place is transitive. -/
lemma AgreesOutside.trans (h : AgreesOutside q d d') (h' : AgreesOutside q d' d'') : AgreesOutside q d d'' := by
  intro p hp
  rcases h p hp with heq | ⟨hnone, hfolder⟩
  · rw [← heq]
    exact h' p hp
  · rcases h' p hp with heq | ⟨hnone', -⟩
    · exact .inr ⟨hnone, heq.trans hfolder⟩
    · rw [hfolder] at hnone'
      cases hnone'

/-- Disks that agree outside a place agree outside any place above it. -/
lemma AgreesOutside.mono (h : AgreesOutside q d d') (hr : r <+: q) : AgreesOutside r d d' :=
  fun p hp => h p fun hq => hp (hr.trans hq)

/-- Putting an entry at or below a place changes nothing outside it. -/
lemma agreesOutside_put (e : Entry) (h : q <+: p) : AgreesOutside q d (d.put p e) :=
  fun _ hr => .inl (entry?_put_of_ne fun heq => hr (heq ▸ h))

/-- Folders are made where nothing is. -/
lemma agreesOutside_makeAlong (q : Place) (h : d.makeAlong p names = .ok d') : AgreesOutside q d d' := by
  fun_induction makeAlong d p names with
  | case1 =>
    cases h
    exact .refl q _
  | case2 _ _ _ _ _ ih | case3 _ _ _ _ _ _ ih | case6 _ _ _ _ _ _ _ _ _ _ _ ih => exact ih h
  | case5 d here _ _ _ _ _ here' hnone ih =>
    refine AgreesOutside.trans (fun r _ => ?_) (ih h)
    by_cases hr : r = here'
    · rw [hr]
      exact .inr ⟨hnone, entry?_put_self (by simp [here'])⟩
    · exact .inl (entry?_put_of_ne hr)
  | case4 | case7 | case8 => cases h

/-- Checking out a history below a place changes nothing outside it. -/
lemma agreesOutside_checkOut (h : q <+: p) (history : History) : AgreesOutside q d (d.checkOut p history) := by
  rw [checkOut]
  dsimp only
  generalize (history.commits.getLast?).elim [] (·.files) = files
  induction files generalizing d with
  | nil => exact .refl q d
  | cons f files ih =>
    obtain ⟨path, blob⟩ := f
    refine AgreesOutside.trans ?_ ih
    refine AgreesOutside.trans ?_ (agreesOutside_put _ (h.trans (List.prefix_append _ _)))
    cases hmake : d.makeAlong p (Path.names path).dropLast with
    | error e => exact .refl q d
    | ok d' => exact agreesOutside_makeAlong q hmake

/-- A repository is copied to a free place. -/
lemma copyRepository_ok {found : Place × History} (h : d.copyRepository location target = .ok (d', found)) :
    d.placeOf target = .ok found.1 ∧ d.isFree found.1 = true ∧
      d' = (d.putRepository found.1 found.2).checkOut found.1 found.2 := by
  rw [copyRepository] at h
  cases hp : d.placeOf target with
  | error e =>
    rw [hp] at h
    cases h
  | ok p =>
    rw [hp] at h
    cases hfree : d.isFree p with
    | false => simp [bind, Except.bind, Except.mapError, hfree, throw, throwThe, MonadExceptOf.throw] at h
    | true =>
      simp only [bind, Except.bind, Except.mapError, hfree, if_true] at h
      split at h
      · cases h
      split at h
      · cases h
      · cases h
      · cases hopen : d.openRepository location with
        | error e =>
          rw [hopen] at h
          cases h
        | ok opened =>
          rw [hopen] at h
          cases h
          exact ⟨rfl, hfree, rfl⟩

/-- Copying a repository changes what is at its place and below, and nothing else. -/
lemma agreesOutside_copyRepository {found : Place × History}
    (h : d.copyRepository location target = .ok (d', found)) : AgreesOutside found.1 d d' := by
  obtain ⟨-, -, rfl⟩ := copyRepository_ok h
  have hself : found.1 <+: found.1 := List.prefix_refl _
  refine AgreesOutside.trans ?_ (agreesOutside_checkOut hself _)
  exact (agreesOutside_put _ hself).trans (agreesOutside_put _ (List.prefix_append _ _))

/-- The repository of a folder is the folder itself, or has its history there. -/
lemma repositoryAt?_eq_some {found : Place × History} (h : d.repositoryAt? p = some found) :
    found.1 = p ∨ found.1 ++ [historyFolder] = p := by
  rw [repositoryAt?] at h
  split at h
  · cases h
    dsimp only
    split
    · next hlast => exact .inr (List.dropLast_append_getLast? _ (beq_iff_eq.1 hlast))
    · exact .inl rfl
  · cases h

/-- A repository is opened where the path to it leads, or around it. -/
lemma openRepository_ok {found : Place × History} (h : d.openRepository path = .ok found) :
    found.1 = Path.place path ∨ found.1 ++ [historyFolder] = Path.place path := by
  rw [openRepository, at?] at h
  cases hp : d.placeOf path with
  | error e =>
    rw [hp] at h
    cases h
  | ok p =>
    rw [← placeOf_eq hp]
    cases he : d.entry? p with
    | none => simp [bind, Except.bind, Except.mapError, hp, he, throw, throwThe, MonadExceptOf.throw] at h
    | some e =>
      simp only [bind, Except.bind, Except.mapError, hp, he, pure, Except.pure] at h
      cases hfound : d.repositoryAt? p with
      | none =>
        rw [hfound] at h
        cases h
      | some _ =>
        rw [hfound] at h
        cases h
        exact repositoryAt?_eq_some hfound

end Disk

namespace Command

open Provenance (projectName EndsIn endsPart projectName_ne_empty not_endsPart_of_mem_projectName
  projectName_eq_here_iff projectName_eq_outside_iff)

variable {uri checkout activity : String} {s s' : Memory} {result : Except Trouble Repository}

/-- Asking whether a path is there changes nothing. -/
lemma isThere_apply (path : String) (s : Memory) :
    (ExceptT.lift (Memory.host.isThere path) : Action (StateM Memory) Bool) s = (.ok (s.disk.isThere path), s) := rfl

/-- Opening a repository only asks the disk. -/
lemma host_openRepository (path : String) :
    Memory.host.openRepository path = Memory.ask fun d => (d.openRepository path).map Memory.repository := rfl

/-- Making folders changes the disk. -/
lemma host_makeFolders (path : String) :
    Memory.host.makeFolders path = Memory.change fun d => (d.makeFolders path).map (·, ()) := rfl

/-- Copying a repository changes the disk and gives the repository. -/
lemma host_copyRepository (location target : String) :
    Memory.host.copyRepository location target = Memory.change fun d =>
      (d.copyRepository location target).map fun (d, found) => (d, Memory.repository found) := rfl

/-- Looking for a repository changes nothing. -/
lemma opened_ask_cases {f : Disk → Except RepositoryError Repository}
    (h : opened activity (Memory.ask f) s = (result, s')) :
    s' = s ∧ ∀ r, result = .ok r → f s.disk = .ok r := by
  have hrun : opened activity (Memory.ask f) s =
      (during activity ((f s.disk).mapError .repository) : Action (StateM Memory) Repository) s := rfl
  rw [hrun] at h
  cases hf : f s.disk with
  | error e =>
    rw [hf] at h
    cases h
    exact ⟨rfl, nofun⟩
  | ok found =>
    rw [hf] at h
    cases h
    exact ⟨rfl, fun r hr => congrArg _ (Except.ok.inj hr)⟩

/-- A repository from elsewhere is opened where it was copied to before, or the checkout folder is made and it is
copied. -/
lemma openAt_remote_cases (h : openAt Memory.host (.remote uri checkout) s = (result, s')) :
    let target := Path.below checkout (projectName uri)
    (s' = s ∧ ∀ r, result = .ok r → ∃ found, s.disk.openRepository target = .ok found ∧ r = Memory.repository found) ∨
    ∃ d, s.disk.makeFolders checkout = .ok d ∧
      ((s' = { s with disk := d } ∧ ∃ e, result = .error e) ∨
        ∃ d' found, d.copyRepository uri target = .ok (d', found) ∧ s' = { s with disk := d' } ∧
          result = .ok (Memory.repository found)) := by
  intro target
  rw [openAt] at h
  obtain ⟨e, hthere, -⟩ | ⟨there, s₁, hthere, h⟩ := bind_cases h
  · rw [isThere_apply] at hthere
    cases hthere
  obtain rfl : s = s₁ := by
    rw [isThere_apply] at hthere
    exact (Prod.mk.inj hthere).2
  split at h
  · rw [host_openRepository] at h
    obtain ⟨hs, hfound⟩ := opened_ask_cases h
    refine .inl ⟨hs, fun r hr => ?_⟩
    obtain ⟨found, hopen, hfound⟩ := map_ok (hfound r hr)
    exact ⟨found, hopen, hfound.symm⟩
  · rw [host_makeFolders, host_copyRepository] at h
    obtain ⟨e, hmake, hresult⟩ | ⟨⟨⟩, s₂, hmake, hcopy⟩ := bind_cases h
    · obtain ⟨d, -, hok, -⟩ | ⟨-, hs⟩ := onFile_change_cases (f := (·.makeFolders checkout)) hmake
      · cases hok
      · refine .inl ⟨hs, fun r hr => ?_⟩
        rw [hresult] at hr
        cases hr
    · obtain ⟨d, hd, rfl⟩ := onFile_change_ok (f := (·.makeFolders checkout)) hmake
      refine .inr ⟨d, hd, ?_⟩
      rw [opened] at hcopy
      obtain ⟨d', r, hmap, hr, hs⟩ | ⟨herror, hs⟩ := during_change_cases hcopy
      · obtain ⟨⟨_, found⟩, hcopy, ⟨⟩⟩ := map_ok hmap
        exact .inr ⟨d', found, hcopy, hs, hr⟩
      · exact .inl ⟨hs, herror⟩

/-- The name of a project is one step of a path. -/
lemma isStep_projectName (uri : String) : Path.IsStep (projectName uri) :=
  ⟨projectName_ne_empty uri, fun hslash => by cases not_endsPart_of_mem_projectName hslash⟩

/-- Nothing is copied to a place outside of the checkout folder. -/
lemma prefix_of_copyRepository {d d' : Disk} {found : Place × History}
    (h : d.copyRepository uri (Path.below checkout (projectName uri)) = .ok (d', found)) :
    Path.place checkout <+: found.1 := by
  obtain ⟨hplace, hfree, -⟩ := Disk.copyRepository_ok h
  obtain ⟨home, hhome, hopen, hnext⟩ := (Disk.placeOf_below_iff (isStep_projectName uri)).1 hplace
  rw [← Disk.placeOf_eq hhome]
  have hstep : found.1 = Path.step home (projectName uri) := Disk.next_eq_step hnext
  rw [Path.step] at hstep
  split_ifs at hstep
  · exact hstep ▸ List.prefix_refl home
  · -- The folder around the checkout folder holds the checkout folder, so it is not free.
    by_cases hne : home = []
    · exact hne ▸ List.nil_prefix
    · have hnot := Disk.not_isFree_dropLast (Disk.isReached_of_placeOf hhome) hopen hne
      rw [← hstep, hfree] at hnot
      cases hnot
  · exact hstep ▸ List.prefix_append _ _

/-- A run that opens a repository from elsewhere changes nothing outside of the checkout folder. -/
lemma agreesOutside_openAt (h : openAt Memory.host (.remote uri checkout) s = (result, s')) :
    s.disk.AgreesOutside (Path.place checkout) s'.disk := by
  obtain ⟨rfl, -⟩ | ⟨d, hmake, ⟨rfl, -⟩ | ⟨d', found, hcopy, rfl, -⟩⟩ := openAt_remote_cases h
  · exact .refl _ _
  · exact Disk.agreesOutside_makeAlong _ hmake
  · exact (Disk.agreesOutside_makeAlong _ hmake).trans
      ((Disk.agreesOutside_copyRepository hcopy).mono (prefix_of_copyRepository hcopy))

/-- A repository from elsewhere is one that was there, or a copy that changed nothing but its own folder. -/
lemma openAt_remote_ok {r : Repository} (h : openAt Memory.host (.remote uri checkout) s = (.ok r, s')) :
    let target := Path.place (Path.below checkout (projectName uri))
    (s' = s ∨ Path.place checkout <+: target) ∧
      ∃ owner, (owner = target ∨ owner ++ [Disk.historyFolder] = target) ∧ r.folder = "/".intercalate owner ∧
        s.disk.AgreesOutside owner s'.disk := by
  obtain ⟨rfl, hfound⟩ | ⟨d, hmake, ⟨-, e, herror⟩ | ⟨d', found, hcopy, rfl, hr⟩⟩ := openAt_remote_cases h
  · obtain ⟨found, hopen, rfl⟩ := hfound r rfl
    exact ⟨.inl rfl, found.1, Disk.openRepository_ok hopen, rfl, .refl _ _⟩
  · cases herror
  · cases hr
    have hplace := Disk.placeOf_eq (Disk.copyRepository_ok hcopy).1
    refine ⟨.inr (hplace ▸ prefix_of_copyRepository hcopy), found.1, .inl hplace, rfl, ?_⟩
    exact (Disk.agreesOutside_makeAlong _ hmake).trans (Disk.agreesOutside_copyRepository hcopy)

/-- The name of a project is a text without separators, and not empty. It is `.` or `..` for the locations that
end in one of these, with or without `.git` behind it, and for no others. With every other name the place of a
copy is directly in the checkout folder; with these it is the checkout folder or the folder around it. However
the opening of a repository from elsewhere ends, nothing is changed outside of the checkout folder. If it succeeds,
the repository is the one at that place, and nothing is changed outside of the repository's folder. -/
theorem checkouts_inside (uri checkout : String) :
    let name := projectName uri
    let home := Path.place checkout
    let target := Path.place (Path.below checkout name)
    name ≠ "" ∧ (∀ c ∈ name.toList, c ≠ '/' ∧ c ≠ '\\' ∧ c ≠ ':') ∧
      (name = "." ↔ EndsIn uri "." ∨ EndsIn uri "..git") ∧
      (name = ".." ↔ EndsIn uri ".." ∨ EndsIn uri "...git") ∧
      target = (if name = "." then home else if name = ".." then home.dropLast else home ++ [name]) ∧
      ∀ s result s', openAt Memory.host (.remote uri checkout) s = (result, s') →
        s.disk.AgreesOutside home s'.disk ∧
        ∀ r, result = .ok r → (s' = s ∨ home <+: target) ∧
          ∃ owner, (owner = target ∨ owner ++ [Disk.historyFolder] = target) ∧
            r.folder = "/".intercalate owner ∧ s.disk.AgreesOutside owner s'.disk := by
  intro name home target
  refine ⟨projectName_ne_empty uri, fun c hc => ?_, projectName_eq_here_iff, projectName_eq_outside_iff, ?_, ?_⟩
  · have hnot := not_endsPart_of_mem_projectName hc
    simpa [endsPart, and_assoc] using hnot
  · have hstep : target = Path.step home name := (isStep_projectName uri).place_below checkout
    rw [hstep, Path.step]
    simp only [beq_iff_eq]
  · intro s result s' h
    refine ⟨agreesOutside_openAt h, ?_⟩
    rintro r rfl
    exact openAt_remote_ok h

/-- A disk with nothing but a repository without commits. -/
def diskWith (p : Place) : Disk := (⟨[(p.dropLast, .folder)]⟩ : Disk).putRepository p ⟨[]⟩

/-- The folder of the repository that is opened for a location. -/
def openedFolder? (uri checkout : String) (d : Disk) : Option String :=
  (openAt Memory.host (.remote uri checkout) (.start d [])).1.toOption.map (·.folder)

/-- A repository is copied into a folder that is named for it, and nothing else changes. -/
theorem checkouts_inside_lib :
    let d := diskWith ["work", "lib.git"]
    ∃ r s', openAt Memory.host (.remote "work/lib.git/" "checkouts") (.start d []) = (.ok r, s') ∧
      r.folder = "checkouts/lib" ∧ d.AgreesOutside ["checkouts", "lib"] s'.disk := by
  intro d
  have hok : (openAt Memory.host (.remote "work/lib.git/" "checkouts") (.start d [])).1.isOk = true := by
    decide +kernel
  cases hrun : openAt Memory.host (.remote "work/lib.git/" "checkouts") (.start d []) with
  | mk result s' =>
    rw [hrun] at hok
    cases result with
    | error e => cases hok
    | ok r =>
      obtain ⟨-, -, -, -, -, hruns⟩ := checkouts_inside "work/lib.git/" "checkouts"
      have htarget : Path.place (Path.below "checkouts" (projectName "work/lib.git/")) = ["checkouts", "lib"] := by
        decide +kernel
      obtain ⟨-, hopened⟩ := hruns _ _ _ hrun
      obtain ⟨-, owner, howner, hfolder, hagrees⟩ := hopened r rfl
      rw [htarget] at howner
      obtain rfl : owner = ["checkouts", "lib"] := by
        refine howner.resolve_right fun hgit => ?_
        have hlast := congrArg List.getLast? hgit
        rw [List.getLast?_concat] at hlast
        exact absurd hlast (by decide)
      exact ⟨r, s', rfl, hfolder, hagrees⟩

/-- Projects named `.` and `..` have no folder of their own in the checkout folder. A copy of the first is put
into the checkout folder itself, and for the second the repository around the checkout folder is opened. -/
theorem checkouts_astray :
    projectName "." = "." ∧ projectName ".." = ".." ∧ projectName "host:lib/..git" = "." ∧
      Path.place (Path.below "checkouts" (projectName "lib/.")) = Path.place "checkouts" ∧
      openedFolder? "lib/." "checkouts" (diskWith ["lib"]) = some "checkouts" ∧
      Path.place (Path.below "app/checkouts" (projectName "host:lib/..")) = ["app"] ∧
      openedFolder? "host:lib/.." "app/checkouts" ((diskWith ["app"]).put ["app", "checkouts"] .folder) =
        some "app" := by
  decide +kernel

end Command

end Mend
