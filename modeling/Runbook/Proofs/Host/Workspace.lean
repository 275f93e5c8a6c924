import Runbook.Proofs.Files.Directory
import Runbook.Proofs.Host.Action
import Runbook.Proofs.Text.Digit

/-!
What a workspace does to the files. Making one adds it, empty, and the directories above it; removing it takes away what
is in it and leaves everything else; and an action that is confined to it changes nothing else in between.
-/
namespace Runbook

variable {α β : Type} {a b : Allocator} {h h' h₁ h₂ : Host} {above files : FileTree} {place cwd q : Place} {path : Path}
  {act : Action α} {f : α → Action β} {stop : Stop}

/-- The files of a host are a tree in which its working directory stands. -/
structure Host.IsSound (h : Host) : Prop where
  isTree : h.files.IsTree
  cwd : h.files.entry? h.cwd = some .directory

namespace Allocator

/-- A name tells the token of its allocator and its number. -/
theorem nextName_inj {m n : Nat} (h : a.nextName m = b.nextName n) : a.token = b.token ∧ a.next = b.next := by
  have hunder : '_'.isAlphanum = false := by decide
  have hcut : ∀ f t : Text, f ++ ("_" : Text) ++ t = f ++ '_' :: t := fun f t => List.append_assoc ..
  simp only [nextName, hcut] at h
  obtain ⟨h, hn⟩ := Text.last_inj (Text.not_mem_ofNat hunder _) (Text.not_mem_ofNat hunder _) h
  obtain ⟨-, ht⟩ := Text.last_inj (Text.not_mem_hex hunder _ _) (Text.not_mem_hex hunder _ _) h
  exact ⟨Text.hex_injective 8 ht, Text.ofNat_injective hn⟩

/-! Making and removing one workspace -/

/-- Nothing is in the way of the next workspace: the directories above it can be made, and then the workspace. -/
structure Opens (a : Allocator) (h : Host) (above files : FileTree) : Prop where
  baseName : '\x00' ∉ (a.base h).toText
  pathName : '\x00' ∉ (a.nextPath h).toText
  ensured : h.files.ensureDirectories h.cwd (a.base h) = .ok above
  made : above.makeDirectory h.cwd (a.nextPath h) = .ok files

def canOpen (a : Allocator) (h : Host) : Bool :=
  decide ('\x00' ∉ (a.base h).toText ∧ '\x00' ∉ (a.nextPath h).toText) &&
    match h.files.ensureDirectories h.cwd (a.base h) with
    | .ok above => (above.makeDirectory h.cwd (a.nextPath h)).isOk
    | .error _ => false

theorem canOpen_eq_true_iff : a.canOpen h = true ↔ ∃ above files, a.Opens h above files := by
  rw [canOpen, Bool.and_eq_true, decide_eq_true_iff]
  constructor
  · rintro ⟨⟨hbase, hpath⟩, hmade⟩
    cases hensured : h.files.ensureDirectories h.cwd (a.base h) with
    | error fault =>
      rw [hensured] at hmade
      cases hmade
    | ok above =>
      rw [hensured] at hmade
      dsimp only at hmade
      cases hfiles : above.makeDirectory h.cwd (a.nextPath h) with
      | error cause =>
        rw [hfiles] at hmade
        cases hmade
      | ok files => exact ⟨above, files, hbase, hpath, hensured, hfiles⟩
  · rintro ⟨above, files, ho⟩
    refine ⟨⟨ho.baseName, ho.pathName⟩, ?_⟩
    rw [ho.ensured]
    dsimp only
    rw [ho.made]
    rfl

/-- The host once the next workspace has been made. -/
def entered (a : Allocator) (h : Host) (files : FileTree) : Host :=
  { h with
    files
    workspaces := h.workspaces ++ [a.nextPath h]
    journal := h.journal ++ [.of .debug "executors.workspace" ("Acquired workspace " ++ (a.nextPath h).toText)] }

/-- The host once a workspace has been removed. -/
def removed (path : Path) (h : Host) : Host :=
  { h with
    files := h.files.remove (Place.follow h.cwd path)
    journal := h.journal ++ [.of .debug "executors.workspace" ("Released workspace " ++ path.toText)] }

theorem run_enter (ho : a.Opens h above files) : a.enter h = (.ok (a.nextPath h), a.entered h files) := by
  have hmade : makeAt (a.nextPath h) above h.cwd = .ok files := by rw [makeAt, ho.made]
  have hbase : Action.checkPath (a.base h) h = (.ok (), h) := by
    rw [Action.checkPath, if_neg ho.baseName]
    rfl
  have habove : Action.makeDirectories (a.base h) h = (.ok (), { h with files := above }) :=
    Action.makeDirectories_eq_ok_iff.mpr ⟨above, ho.ensured, rfl⟩
  have hpath : Action.checkPath (a.nextPath h) { h with files := above } = (.ok (), { h with files := above }) := by
    rw [Action.checkPath, if_neg ho.pathName]
    rfl
  have hmake : Action.changeFiles (makeAt (a.nextPath h)) { h with files := above } = (.ok (), { h with files }) :=
    Action.changeFiles_eq_ok_iff.mpr ⟨files, hmade, rfl⟩
  have hhost : Action.host h = (.ok h, h) := rfl
  rw [enter, Action.run_bind, hhost]
  dsimp only
  rw [Action.run_bind, hbase]
  dsimp only
  rw [Action.run_bind, habove]
  dsimp only
  rw [Action.run_bind, hpath]
  dsimp only
  rw [Action.run_bind, hmake]
  rfl

theorem enter_of_canOpen (hopen : a.canOpen h = true) : a.enter h = (.ok (a.nextPath h), (a.enter h).2) := by
  obtain ⟨above, files, ho⟩ := canOpen_eq_true_iff.mp hopen
  rw [run_enter ho]

/-- What keeps a workspace from being made is a path or a file, and at most directories above it have been made. -/
theorem exists_of_not_opens (hsound : h.IsSound) (ho : ∀ above files, ¬ a.Opens h above files) : ∃ stop files,
    a.enter h = (.error stop, { h with files }) ∧ h.files.Extends files (FileTree.OnWay h.cwd (a.base h)) := by
  have hhost : Action.host h = (.ok h, h) := rfl
  rw [enter, Action.run_bind, hhost]
  dsimp only
  by_cases hbase : '\x00' ∈ (a.base h).toText
  · refine ⟨.crash "mkdir: embedded null character in path", h.files, ?_, .refl hsound.isTree _⟩
    rw [Action.run_bind, Action.checkPath, if_pos hbase]
    rfl
  rw [Action.run_bind, Action.checkPath, if_neg hbase, show (pure () : Action Unit) h = (.ok (), h) from rfl]
  dsimp only
  rw [Action.run_bind, Action.run_makeDirectories]
  cases hensured : h.files.ensureDirectories h.cwd (a.base h) with
  | error fault => exact ⟨.file fault, _, rfl, FileTree.extends_leftAbove hsound.isTree hsound.cwd _ _⟩
  | ok above =>
    have hextends := FileTree.extends_ensureAbove hsound.isTree hsound.cwd hensured
    dsimp only
    by_cases hpath : '\x00' ∈ (a.nextPath h).toText
    · refine ⟨.crash "mkdir: embedded null character in path", above, ?_, hextends⟩
      rw [Action.run_bind, Action.checkPath, if_pos hpath]
      rfl
    rw [Action.run_bind, Action.checkPath, if_neg hpath,
      show (pure () : Action Unit) { h with files := above } = (.ok (), { h with files := above }) from rfl]
    dsimp only
    cases hmade : above.makeDirectory h.cwd (a.nextPath h) with
    | ok files => exact (ho above files ⟨hbase, hpath, hensured, hmade⟩).elim
    | error cause =>
      refine ⟨.file ⟨cause, a.nextPath h⟩, above, ?_, hextends⟩
      rw [Action.run_bind, Action.run_changeFiles, makeAt, hmade]

/-- A workspace that is given is the next one. -/
theorem exists_of_enter (hsound : h.IsSound) (hstart : a.enter h = (.ok path, h₁)) :
    path = a.nextPath h ∧ ∃ above files, a.Opens h above files ∧ h₁ = a.entered h files := by
  by_cases hopen : ∃ above files, a.Opens h above files
  · obtain ⟨above, files, ho⟩ := hopen
    rw [run_enter ho] at hstart
    cases hstart
    exact ⟨rfl, above, files, ho, rfl⟩
  · push Not at hopen
    obtain ⟨stop, files, hstop, -⟩ := exists_of_not_opens hsound hopen
    rw [hstop] at hstart
    cases hstart

theorem run_leave (path : Path) (h : Host) : leave path h = (.ok (), removed path h) := rfl

theorem run_acquire (ho : a.Opens h above files) (body : Path → Action α) : a.acquire body h =
    let run := body (a.nextPath h) (a.entered h files)
    (run.1, removed (a.nextPath h) run.2) := by
  rw [acquire, Action.run_bind, run_enter ho]
  rfl

theorem run_acquire_of_error (hstop : a.enter h = (.error stop, h')) (body : Path → Action α) :
    a.acquire body h = (.error stop, h') := by
  rw [acquire, Action.run_bind, hstop]

/-- The place of the next workspace. -/
def nextPlace (a : Allocator) (h : Host) : Place := Place.follow h.cwd (a.nextPath h)

/-- What making a workspace does: it was not there, it is there now with nothing in it, and all else that is new are
directories on the way to the root of the workspaces. -/
structure Made (a : Allocator) (h h' : Host) : Prop where
  isSound : h'.IsSound
  cwd : h'.cwd = h.cwd
  free : h.files.entry? (a.nextPlace h) = none
  there : h'.files.entry? (a.nextPlace h) = some .directory
  located : h'.files.locate h.cwd (a.nextPath h) = .ok (a.nextPlace h)
  empty : ∀ q, a.nextPlace h <+: q → q ≠ a.nextPlace h → h'.files.entry? q = none
  extended : h.files.Extends h'.files fun q => q = a.nextPlace h ∨ FileTree.OnWay h.cwd (a.base h) q

theorem made_entered (hsound : h.IsSound) (ho : a.Opens h above files) : a.Made h (a.entered h files) := by
  have habove := FileTree.extends_ensureAbove hsound.isTree hsound.cwd ho.ensured
  have hcwd := habove.grows _ _ hsound.cwd
  have hentry := FileTree.entry?_of_makeDirectory ho.made
  obtain ⟨hlocate, hfree, rfl⟩ := FileTree.exists_of_makeDirectory ho.made
  have hisTree := habove.isTree.put_of_stands (FileTree.stands_of_locate habove.isTree hcwd hlocate) (by simp [hfree])
    .directory
  have hgrows := FileTree.grows_makeDirectory ho.made
  refine ⟨⟨hisTree, hgrows _ _ hcwd⟩, rfl, ?_, ?_, hgrows.keepsDirectories.locate hlocate, ?_, hisTree,
    habove.grows.trans hgrows, ?_⟩
  · cases he : h.files.entry? (a.nextPlace h) with
    | none => rfl
    | some e =>
      have hold := habove.grows _ _ he
      rw [nextPlace, hfree] at hold
      cases hold
  · exact (hentry _).trans (if_pos rfl)
  · intro q hq hne
    refine ((hentry q).trans (if_neg hne)).trans ?_
    cases he : above.entry? q with
    | none => rfl
    | some e =>
      have hdir := habove.isTree.directory_of_prefix hq (Ne.symm hne) he
      rw [nextPlace, hfree] at hdir
      cases hdir
  · intro q e he
    have he := (hentry q).symm.trans he
    split at he
    · cases he
      exact .inr ⟨rfl, .inl ‹_›⟩
    · exact (habove.new q e he).imp_right fun hnew => ⟨hnew.1, .inr hnew.2⟩

/-- The working directory is never in a workspace that was not there. -/
theorem not_prefix_cwd (hsound : h.IsSound) (hfree : h.files.entry? place = none) : ¬ place <+: h.cwd := by
  intro hin
  rw [hsound.isTree.directory_of_directory hin hsound.cwd] at hfree
  cases hfree

/-- Where a workspace is made there was nothing before. -/
theorem Made.nothing_below (hmade : a.Made h h₁) (hsound : h.IsSound) (q : Place) (hin : a.nextPlace h <+: q) :
    h.files.entry? q = none := by
  cases he : h.files.entry? q with
  | none => rfl
  | some e =>
    have hfree := hmade.free
    by_cases hq : a.nextPlace h = q
    · rwa [hq, he] at hfree
    · rw [hsound.isTree.directory_of_prefix hin hq he] at hfree
      cases hfree

theorem Made.nextPlace_ne_nil (hmade : a.Made h h₁) : a.nextPlace h ≠ [] := by
  refine FileTree.ne_nil_of_entry?_ne (?_ : h.files.entry? (a.nextPlace h) ≠ some .directory)
  simp [hmade.free]

/-- What is in a workspace goes with it, and nothing else. -/
theorem Made.entry?_removed (hmade : a.Made h h₁) (hcwd : h₂.cwd = h.cwd) (q : Place) :
    (removed (a.nextPath h) h₂).files.entry? q = if a.nextPlace h <+: q then none else h₂.files.entry? q := by
  rw [removed, hcwd]
  exact FileTree.entry?_remove hmade.nextPlace_ne_nil _ q

theorem Made.isSound_removed (hmade : a.Made h h₁) (hsound : h.IsSound) (hcwd : h₂.cwd = h.cwd) (hsound₂ : h₂.IsSound) :
    (removed (a.nextPath h) h₂).IsSound := by
  have hout := not_prefix_cwd hsound hmade.free
  constructor
  · rw [removed, hcwd]
    exact hsound₂.isTree.remove hmade.nextPlace_ne_nil
  · refine (hmade.entry?_removed hcwd _).trans ?_
    have hout₂ : ¬ a.nextPlace h <+: h₂.cwd := by rwa [hcwd]
    exact (if_neg hout₂).trans hsound₂.cwd

end Allocator

/-! What an action changes -/

/-- The files are the same, and so is all that decides where workspaces are. -/
structure Host.SameFiles (h h' : Host) : Prop where
  files : h'.files = h.files
  cwd : h'.cwd = h.cwd
  scratch : h'.scratch = h.scratch
  workspaces : h'.workspaces = h.workspaces

theorem Host.SameFiles.refl (h : Host) : h.SameFiles h := ⟨rfl, rfl, rfl, rfl⟩

theorem Host.SameFiles.trans (h₁₂ : h.SameFiles h₁) (h₂₃ : h₁.SameFiles h₂) : h.SameFiles h₂ :=
  ⟨h₂₃.files.trans h₁₂.files, h₂₃.cwd.trans h₁₂.cwd, h₂₃.scratch.trans h₁₂.scratch,
    h₂₃.workspaces.trans h₁₂.workspaces⟩

theorem Host.SameFiles.isSound (hsame : h.SameFiles h') (hsound : h.IsSound) : h'.IsSound := by
  constructor
  · rw [hsame.files]
    exact hsound.isTree
  · rw [hsame.files, hsame.cwd]
    exact hsound.cwd

/-- Only what is below a place has changed, and the place is still there. -/
structure ChangesBelow (place : Place) (h h' : Host) : Prop where
  isSound : h'.IsSound
  cwd : h'.cwd = h.cwd
  workspaces : h'.workspaces = h.workspaces
  there : h'.files.entry? place = some .directory
  outside : ∀ q, ¬ place <+: q → h'.files.entry? q = h.files.entry? q

theorem ChangesBelow.of_same (hsame : h.SameFiles h') (hsound : h.IsSound)
    (hthere : h.files.entry? place = some .directory) : ChangesBelow place h h' := by
  refine ⟨hsame.isSound hsound, hsame.cwd, hsame.workspaces, ?_, fun q _ => ?_⟩
  · rw [hsame.files, hthere]
  · rw [hsame.files]

theorem ChangesBelow.trans (h₁₂ : ChangesBelow place h h₁) (h₂₃ : ChangesBelow place h₁ h₂) : ChangesBelow place h h₂ :=
  ⟨h₂₃.isSound, h₂₃.cwd.trans h₁₂.cwd, h₂₃.workspaces.trans h₁₂.workspaces, h₂₃.there,
    fun q hq => (h₂₃.outside q hq).trans (h₁₂.outside q hq)⟩

/-- After a stay that changed only what is below the workspace, the files are what they were but for directories above
the workspaces. -/
theorem Allocator.Made.extends_removed (hmade : a.Made h h₁) (hsound : h.IsSound)
    (hchanges : ChangesBelow (a.nextPlace h) h₁ h₂) :
    h.files.Extends (Allocator.removed (a.nextPath h) h₂).files (FileTree.OnWay h.cwd (a.base h)) := by
  have hcwd := hchanges.cwd.trans hmade.cwd
  have hentry := hmade.entry?_removed hcwd
  refine ⟨(hmade.isSound_removed hsound hcwd hchanges.isSound).isTree, fun q e he => ?_, fun q e he => ?_⟩
  · have hout : ¬ a.nextPlace h <+: q := fun hin => by simpa [he] using hmade.nothing_below hsound q hin
    rw [hentry, if_neg hout, hchanges.outside q hout]
    exact hmade.extended.grows q e he
  · rw [hentry] at he
    split at he
    · cases he
    · rename_i hout
      rw [hchanges.outside q hout] at he
      rcases hmade.extended.new q e he with hold | ⟨hdir, hplace | hway⟩
      · exact .inl hold
      · exact (hout (by rw [hplace])).elim
      · exact .inr ⟨hdir, hway⟩

namespace Action

/-- However the action ends, the files are as they were. -/
def LeavesFiles (act : Action α) : Prop := ∀ h : Host, h.SameFiles (act h).2

theorem leavesFiles_pure (a : α) : LeavesFiles (pure a : Action α) := Host.SameFiles.refl

theorem leavesFiles_throw (stop : Stop) : LeavesFiles (throw stop : Action α) := Host.SameFiles.refl

theorem leavesFiles_throw_bind (stop : Stop) (f : α → Action β) : LeavesFiles ((throw stop : Action α) >>= f) := by
  intro h
  rw [run_bind]
  exact .refl h

theorem leavesFiles_host : LeavesFiles host := Host.SameFiles.refl

theorem leavesFiles_now : LeavesFiles now := Host.SameFiles.refl

theorem leavesFiles_hasTool (tool : Text) : LeavesFiles (hasTool tool) := Host.SameFiles.refl

theorem leavesFiles_ofExcept (x : Except Stop α) : LeavesFiles (MonadExcept.ofExcept x : Action α) := by
  cases x <;> exact Host.SameFiles.refl

theorem leavesFiles_log (level : LogLevel) (logger : String) (message : Text) :
    LeavesFiles (log level logger message) := fun _ => ⟨rfl, rfl, rfl, rfl⟩

theorem LeavesFiles.bind (hact : LeavesFiles act) (hf : ∀ a, LeavesFiles (f a)) : LeavesFiles (act >>= f) := by
  intro h
  have hfirst := hact h
  rw [run_bind]
  rcases hrun : act h with ⟨stop | a, h₁⟩
  · rwa [hrun] at hfirst
  · rw [hrun] at hfirst
    exact hfirst.trans (hf a h₁)

/-- However the action ends, it has changed nothing that is not below the place. -/
def Confined (cwd place : Place) (act : Action α) : Prop :=
  ∀ h : Host, h.cwd = cwd → h.IsSound → h.files.entry? place = some .directory → ChangesBelow place h (act h).2

theorem LeavesFiles.confined (hact : LeavesFiles act) (cwd place : Place) : Confined cwd place act :=
  fun h _ => .of_same (hact h)

theorem Confined.bind (hact : Confined cwd place act) (hf : ∀ a, Confined cwd place (f a)) :
    Confined cwd place (act >>= f) := by
  intro h hcwd hsound hthere
  have hfirst := hact h hcwd hsound hthere
  rw [run_bind]
  rcases hrun : act h with ⟨stop | a, h₁⟩
  · rwa [hrun] at hfirst
  · rw [hrun] at hfirst
    exact hfirst.trans (hf a h₁ (hfirst.cwd.trans hcwd) hfirst.isSound hfirst.there)

theorem Confined.tryCatch {handler : Stop → Action α} (hact : Confined cwd place act)
    (hcatch : ∀ stop, Confined cwd place (handler stop)) : Confined cwd place (tryCatch act handler) := by
  intro h hcwd hsound hthere
  have hfirst := hact h hcwd hsound hthere
  rw [run_tryCatch]
  rcases hrun : act h with ⟨stop | a, h₁⟩
  · rw [hrun] at hfirst
    exact hfirst.trans (hcatch stop h₁ (hfirst.cwd.trans hcwd) hfirst.isSound hfirst.there)
  · rwa [hrun] at hfirst

theorem run_changeFiles_of_error {g : FileTree → Place → Except FileFault FileTree} {fault : FileFault}
    (hg : g h.files h.cwd = .error fault) : changeFiles g h = (.error (.file fault), h) := by
  rw [run_changeFiles, hg]

/-- A file is written below the place. -/
theorem confined_write {p : Path} (hin : place <+: Place.follow cwd p) (content : List UInt8) :
    Confined cwd place (changeFiles fun files cwd => files.write cwd p content) := by
  rintro h rfl hsound hthere
  cases hwrite : h.files.write h.cwd p content with
  | error fault =>
    rw [run_changeFiles_of_error hwrite]
    exact .of_same (.refl h) hsound hthere
  | ok files =>
    have hkeeps := FileTree.keepsDirectories_of_write hwrite
    have hisTree := hsound.isTree.write hsound.cwd hwrite
    rw [changeFiles_eq_ok_iff.mpr ⟨files, hwrite, rfl⟩]
    refine ⟨⟨hisTree, hkeeps _ hsound.cwd⟩, rfl, rfl, hkeeps _ hthere, fun q hq => ?_⟩
    obtain ⟨-, hfree, rfl⟩ := FileTree.exists_of_write hwrite
    refine (FileTree.entry?_put (FileTree.ne_nil_of_entry?_ne hfree) _ _ q).trans (if_neg ?_)
    rintro rfl
    exact hq hin

/-- Directories are made below the place, or above it, where they are already. -/
theorem confined_makeDirectories {place' : Place} (hplace : "..".toList ∉ place') (hin : place <+: place') :
    Confined cwd place (makeDirectories (.ofPlace place')) := by
  rintro h rfl hsound hthere
  have hbelow : ∀ files, h.files.Extends files (FileTree.OnWay h.cwd (.ofPlace place')) →
      ChangesBelow place h { h with files } := by
    intro files hextends
    refine ⟨⟨hextends.isTree, hextends.grows _ _ hsound.cwd⟩, rfl, rfl, hextends.grows _ _ hthere, fun q hq => ?_⟩
    cases he : h.files.entry? q with
    | some e => exact hextends.grows _ _ he
    | none =>
      cases he' : files.entry? q with
      | none => rfl
      | some e =>
        rcases hextends.new q e he' with hold | ⟨-, hway⟩
        · rw [he] at hold
          cases hold
        · rcases List.prefix_or_prefix_of_prefix (hway.prefix_of_ofPlace hplace) hin with habove | hin
          · rw [hsound.isTree.directory_of_directory habove hthere] at he
            cases he
          · exact (hq hin).elim
  rw [run_makeDirectories]
  cases hmade : h.files.ensureDirectories h.cwd (.ofPlace place') with
  | ok files => exact hbelow files (FileTree.extends_ensureAbove hsound.isTree hsound.cwd hmade)
  | error fault => exact hbelow _ (FileTree.extends_leftAbove hsound.isTree hsound.cwd _ _)

end Action
end Runbook
