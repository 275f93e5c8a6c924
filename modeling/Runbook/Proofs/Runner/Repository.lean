import Runbook.Proofs.Files.Placement
import Runbook.Proofs.Runner.Command

/-!
The files of a repository. Each entry is written where its path leads, or told to have failed, and the next one is tried
all the same; what the commands find is what was written last to each place.
-/
namespace Runbook

variable {s : Settings} {h h' start : Host} {root place q : Place} {path : Text} {tree tree' : FileTree}
  {files errors : Fields Text} {writes : List (Place × Text)} {bytes : List UInt8} {p : GitRepository}

namespace FileTree

/-- An entry that cannot be written: its path leads out of the root, or the tree does not admit its place. At most
directories on the way to it have come. -/
inductive Fails (root : Place) (path : Text) (tree : FileTree) : Text → FileTree → Prop
  | escapes (hinside : Place.inside? root (Path.ofText path) = none) :
    Fails root path tree "path escapes the workspace" tree
  | rejected {place : Place} {tree' : FileTree} (fault : FileFault)
    (hinside : Place.inside? root (Path.ofText path) = some place) (hrejects : ¬ tree.Admits place)
    (hextends : tree.Extends tree' (· <+: place.dropLast)) : Fails root path tree fault.message tree'

/-- All entries are tried in order. Those that fail are errors, the others writes. -/
inductive WritesAll (root : Place) : Fields Text → FileTree → Fields Text → List (Place × Text) → FileTree → Prop
  | done (tree : FileTree) : WritesAll root [] tree [] [] tree
  | written {path content : Text} {place : Place} {files errors : Fields Text} {writes : List (Place × Text)}
    {tree tree₁ tree₂ : FileTree} (hinside : Place.inside? root (Path.ofText path) = some place)
    (hplaced : Placed place (Text.utf8 content) tree tree₁) (hrest : WritesAll root files tree₁ errors writes tree₂) :
    WritesAll root ((path, content) :: files) tree errors ((place, content) :: writes) tree₂
  | failed {path content error : Text} {files errors : Fields Text} {writes : List (Place × Text)}
    {tree tree₁ tree₂ : FileTree} (hfails : Fails root path tree error tree₁)
    (hrest : WritesAll root files tree₁ errors writes tree₂) :
    WritesAll root ((path, content) :: files) tree ((path, error) :: errors) writes tree₂

/-- What was written last to a place. -/
def lastWrite : List (Place × Text) → Place → Option Text
  | [], _ => none
  | (place, content) :: writes, q => lastWrite writes q <|> if q = place then some content else none

theorem Fails.file_iff {error : Text} (hfails : Fails root path tree error tree') :
    tree'.entry? q = some (.file bytes) ↔ tree.entry? q = some (.file bytes) := by
  cases hfails with
  | escapes => rfl
  | rejected fault hinside hrejects hextends => exact hextends.file_iff

namespace WritesAll

theorem length_add (hw : WritesAll root files tree errors writes tree') :
    writes.length + errors.length = files.length := by
  induction hw with
  | done tree => rfl
  | written _ _ _ ih | failed _ _ ih =>
    simp only [List.length_cons]
    omega

/-- A file is what was written last to its place, or what stood there before. -/
theorem file_iff (hw : WritesAll root files tree errors writes tree') : tree'.entry? q = some (.file bytes) ↔
    match lastWrite writes q with
    | some content => bytes = Text.utf8 content
    | none => tree.entry? q = some (.file bytes) := by
  induction hw with
  | done tree => rfl
  | @written path content place _ _ writes _ _ _ _ hplaced _ ih =>
    rw [ih, lastWrite]
    cases lastWrite writes q with
    | some later => rfl
    | none =>
      dsimp only
      rw [hplaced.file_iff]
      by_cases hq : q = place
      · simp [hq]
      · simp [hq]
  | failed hfails _ ih =>
    rw [ih]
    cases lastWrite _ q with
    | some later => rfl
    | none => exact hfails.file_iff

end WritesAll

/-- What the files of a root are after all entries have been tried. -/
structure Materialized (root : Place) (files : Fields Text) (start : FileTree) (errors : Fields Text)
    (writes : List (Place × Text)) (tree : FileTree) : Prop where
  attempts : WritesAll root files start errors writes tree
  count : writes.length + errors.length = files.length
  inside : ∀ q bytes, root <+: q → (tree.entry? q = some (.file bytes) ↔
    ∃ content, lastWrite writes q = some content ∧ bytes = Text.utf8 content)
  outside : ∀ q, ¬ root <+: q → tree.entry? q = start.entry? q
  listed : ∀ name bytes, (name, bytes) ∈ tree.listing root ↔ ∃ names content, name = Text.join "/" names ∧
    lastWrite writes (root ++ names) = some content ∧ bytes = Text.utf8 content

end FileTree

open FileTree

namespace Runner

theorem run_writeFile (hpath : '\x00' ∉ path) (hsound : h.IsSound) (hthere : h.files.entry? root = some .directory)
    (content : Text) : ∃ error files journal, writeFile root path content h = (.ok error, { h with files, journal }) ∧
      match error with
      | none => ∃ place, Place.inside? root (Path.ofText path) = some place ∧ Placed place (Text.utf8 content) h.files files
      | some error => Fails root path h.files error files := by
  unfold writeFile
  rw [if_neg hpath]
  cases hinside : Place.inside? root (Path.ofText path) with
  | none => exact ⟨_, h.files, _, rfl, .escapes hinside⟩
  | some place =>
    obtain ⟨hplace, hroot, hin⟩ := Place.inside?_eq_some_iff.mp hinside
    have hnames : "..".toList ∉ place := hplace ▸ Place.not_mem_follow (hsound.isTree.names root _ hthere) _
    have hne : place ≠ [] := by
      rintro rfl
      exact hroot (List.prefix_nil.mp hin).symm
    have hway : ∀ q, OnWay h.cwd (Path.ofPlace place).parent q → q <+: place.dropLast := fun q hq =>
      OnWay.prefix_of_ofPlace (Place.not_mem_dropLast hnames) hq
    have hadmits : h.files.Admits place → ∃ tree', Puts h.cwd place (Text.utf8 content) h.files tree' := fun hadmits =>
      exists_puts hsound.isTree hsound.cwd hnames hne hadmits _
    dsimp only
    rw [Action.run_tryCatch, Action.run_bind, Action.run_makeDirectories]
    cases hmade : h.files.ensureDirectories h.cwd (Path.ofPlace place).parent with
    | error fault =>
      refine ⟨_, h.files.leftDirectories h.cwd (Path.ofPlace place).parent, _, rfl, .rejected fault hinside ?_ ?_⟩
      · intro hadmits'
        obtain ⟨-, made, hmade', -⟩ := hadmits hadmits'
        rw [hmade] at hmade'
        cases hmade'
      · exact (extends_leftAbove hsound.isTree hsound.cwd _ _).mono hway
    | ok made =>
      have hextends := (extends_ensureAbove hsound.isTree hsound.cwd hmade).mono hway
      dsimp only
      rw [Action.run_bind, Action.run_changeFiles]
      dsimp only
      cases hwrite : made.writeText h.cwd (Path.ofPlace place) content with
      | error fault =>
        refine ⟨_, made, _, rfl, .rejected fault hinside ?_ hextends⟩
        intro hadmits'
        obtain ⟨tree', made', hmade', hwrite'⟩ := hadmits hadmits'
        rw [hmade] at hmade'
        cases hmade'
        rw [FileTree.writeText, hwrite'] at hwrite
        cases hwrite
      | ok tree' =>
        exact ⟨none, tree', h.journal, rfl, place, rfl,
          placed_of_puts hsound.isTree hsound.cwd hnames ⟨made, hmade, hwrite⟩⟩

theorem run_writeFiles (hpaths : ∀ path ∈ Fields.keys files, '\x00' ∉ path) (hsound : h.IsSound)
    (hthere : h.files.entry? root = some .directory) : ∃ errors writes tree journal,
      writeFiles root files h = (.ok errors, { h with files := tree, journal }) ∧
      WritesAll root files h.files errors writes tree := by
  induction files generalizing h with
  | nil => exact ⟨[], [], h.files, h.journal, rfl, .done _⟩
  | cons file files ih =>
    obtain ⟨path, content⟩ := file
    rw [Fields.keys, List.map_cons, List.forall_mem_cons] at hpaths
    obtain ⟨error, tree₁, journal₁, hfirst, hattempt⟩ := run_writeFile hpaths.1 hsound hthere content
    have hchanges := confined_writeFile h.cwd root path content h rfl hsound hthere
    rw [hfirst] at hchanges
    obtain ⟨errors, writes, tree₂, journal₂, hrest, hwrites⟩ := ih hpaths.2 hchanges.isSound hchanges.there
    cases error with
    | none =>
      obtain ⟨place, hinside, hplaced⟩ := hattempt
      refine ⟨errors, (place, content) :: writes, tree₂, journal₂, ?_, .written hinside hplaced hwrites⟩
      exact Action.bind_eq_ok_iff.mpr ⟨none, _, hfirst, Action.bind_eq_ok_iff.mpr ⟨errors, _, hrest, rfl⟩⟩
    | some error =>
      refine ⟨(path, error) :: errors, writes, tree₂, journal₂, ?_, .failed hattempt hwrites⟩
      exact Action.bind_eq_ok_iff.mpr ⟨some error, _, hfirst, Action.bind_eq_ok_iff.mpr ⟨errors, _, hrest, rfl⟩⟩

/-- In an empty root the files are what was written, and nothing outside it has changed. -/
theorem materialized_of_writesAll (hwrites : WritesAll root files start.files errors writes h'.files)
    (hchanges : ChangesBelow root start h') (hempty : ∀ q, root <+: q → q ≠ root → start.files.entry? q = none)
    (hthere : start.files.entry? root = some .directory) (hroot : root ≠ []) :
    Materialized root files start.files errors writes h'.files := by
  have hinside : ∀ q bytes, root <+: q → (h'.files.entry? q = some (.file bytes) ↔
      ∃ content, lastWrite writes q = some content ∧ bytes = Text.utf8 content) := by
    intro q bytes hq
    rw [hwrites.file_iff]
    cases lastWrite writes q with
    | some content => simp
    | none =>
      have hnone : start.files.entry? q ≠ some (.file bytes) := by
        by_cases hsame : q = root
        · simp [hsame, hthere]
        · simp [hempty q hq hsame]
      simp [hnone]
  refine ⟨hwrites, hwrites.length_add, hinside, hchanges.outside, fun name bytes => ?_⟩
  rw [mem_listing_iff hchanges.isSound.isTree]
  constructor
  · rintro ⟨names, -, rfl, he⟩
    obtain ⟨content, hlast, rfl⟩ := (hinside _ _ (List.prefix_append _ _)).mp he
    exact ⟨names, content, rfl, hlast, rfl⟩
  · rintro ⟨names, content, rfl, hlast, rfl⟩
    exact ⟨names, by simp [hroot], rfl, (hinside _ _ (List.prefix_append _ _)).mpr ⟨content, hlast, rfl⟩⟩

/-- In a new workspace all files are tried, and then all commands are asked for, whatever has come of the files. -/
theorem run_materialize {a : Allocator} (hmade : a.Made h start) (hshell : "sh".toList ∈ start.tools)
    (hpaths : ∀ path ∈ Fields.keys p.files, '\x00' ∉ path) (hcalm : start.IsCalm p.initCommands.length) :
    ∃ errors writes tree outcomes h', materialize s p (a.nextPath h) start = (.ok (errors, outcomes), h') ∧
      Materialized (a.nextPlace h) p.files start.files errors writes tree ∧ outcomes.map (·.unit) = p.initCommands ∧
      h'.calls = start.calls ++ p.initCommands.map fun line => callIn s (a.nextPath h) (tree.listing (a.nextPlace h))
        ["sh", "-c", line] (some (authorEnvironment s start.environment)) := by
  have hplace : Place.follow start.cwd (a.nextPath h) = a.nextPlace h := by rw [hmade.cwd, Allocator.nextPlace]
  obtain ⟨errors, writes, tree, journal, hfiles, hwrites⟩ := run_writeFiles hpaths hmade.isSound hmade.there
  set h₂ : Host := { start with files := tree, journal }
  have hchanges : ChangesBelow (a.nextPlace h) start h₂ := by
    have hall := confined_writeFiles start.cwd (a.nextPlace h) p.files start rfl hmade.isSound hmade.there
    rwa [hfiles] at hall
  have hfinds : Finds h₂ (a.nextPath h) (tree.listing (a.nextPlace h)) := congrArg tree.listing hplace
  have hcalm₂ : h₂.IsCalm (p.initCommands.map fun line => (line, line)).length := by
    rw [List.length_map]
    exact hcalm
  have hshell₂ : "sh".toList ∈ h₂.tools := hshell
  obtain ⟨outcomes, h₃, hunits, hlabels, hasked⟩ := run_commands (s := s) (fun line => ["sh", "-c", line]) _
    (fun _ => ⟨_, rfl, hshell₂⟩) hcalm₂ (some (a.nextPath h)) (some (authorEnvironment s start.environment))
  refine ⟨errors, writes, tree, outcomes, h₃, ?_,
    materialized_of_writesAll hwrites hchanges hmade.empty hmade.there hmade.nextPlace_ne_nil, ?_, ?_⟩
  · rw [← hplace] at hfiles
    exact Action.bind_eq_ok_iff.mpr ⟨start, start, rfl, Action.bind_eq_ok_iff.mpr ⟨errors, h₂, hfiles,
      Action.bind_eq_ok_iff.mpr ⟨outcomes, h₃, hunits, rfl⟩⟩⟩
  · rw [hlabels]
    simp [Function.comp_def]
  · rw [hasked.calls, List.map_map]
    exact congrArg (start.calls ++ ·) (List.map_congr_left fun line _ => hfinds.seenOn_callOf _ _)

/-- Every file of a repository is tried in order, and those that cannot be written are told. When the commands run, all of
them in order and in the workspace, its files are those that were written last, and nothing outside it has been
written. -/
theorem runGit_materializes (hgit : "git".toList ∈ h.tools) (hshell : "sh".toList ∈ h.tools)
    (hpaths : ∀ path ∈ Fields.keys p.files, '\x00' ∉ path) (hroom : (ofLanguage s .git).hasRoom s h)
    (hsound : h.IsSound) (hcalm : h.IsCalm p.initCommands.length) :
    let allocator := (ofLanguage s .git).allocatorOf s h
    ∃ o h' start errors writes tree, (ofLanguage s .git).runGit s p h = (.ok o, h') ∧
      Starts (ofLanguage s .git) s h start ∧
      Materialized (allocator.nextPlace h) p.files start.files errors writes tree ∧
      o.isOk = true ∧ Fields.get? "files_created" o.details = some (.int writes.length) ∧
      Fields.get? "file_errors" o.details = some (.list (errors.map fun (path, error) => fileError path error)) ∧
      o.units.map (·.unit) = p.initCommands ∧
      h'.calls = h.calls ++ p.initCommands.map fun line =>
        { command := ["sh", "-c", line]
          directory := some (allocator.nextPath h)
          timeout := some (.whole s.timeout)
          environment := some (authorEnvironment s h.environment)
          files := some (tree.listing (allocator.nextPlace h)) } := by
  intro a
  obtain ⟨start, hstarts, hrun⟩ := exists_inWorkspace hroom hsound
  obtain ⟨errors, writes, tree, outcomes, h₃, hbody, hmaterialized, hlabels, hcalls⟩ := run_materialize (s := s) hstarts.made
    (hstarts.tools ▸ hshell) hpaths (hcalm.congr hstarts.endings)
  have hrun := hrun (materialize s p)
  rw [hbody] at hrun
  have hwhole : (ofLanguage s .git).runGit s p h = (.ok (Outcome.batch "git" outcomes false (
      Fields.one "files_created" (.int (p.files.length - errors.length : Nat)) ++
      Fields.one "file_errors" (.list (errors.map fun (path, error) => fileError path error)) ++
      Fields.one "git_output" (.list (outcomes.map fun u => .text u.output))) h₃.clock),
      Allocator.removed (a.nextPath h) h₃) := by
    refine Action.bind_eq_ok_iff.mpr ⟨h, h, rfl, ?_⟩
    rw [if_pos (isAvailable_of_mem List.mem_cons_self hgit)]
    exact Action.bind_eq_ok_iff.mpr ⟨(errors, outcomes), _, hrun, rfl⟩
  have hcount : p.files.length - errors.length = writes.length := by
    have hlength := hmaterialized.count
    omega
  refine ⟨_, _, start, errors, writes, tree, hwhole, hstarts, hmaterialized, rfl, ?_, rfl, hlabels, ?_⟩
  · rw [← hcount]
    rfl
  · rw [hstarts.calls, hstarts.environment] at hcalls
    exact hcalls

/-- The second file replaces the first, the third needs a directory where a file is, the fourth leads out of the workspace,
and the last two cannot both be. -/
theorem runGit_materializes_clashes :
    let p : GitRepository := ⟨[("a", "1"), ("./a", "2"), ("a/b", "3"), ("../x", "4"), ("d/e", "5"), ("d", "6")],
      ["git init", "false"]⟩
    let h : Host := { tools := ["git", "sh"], endings := [.exit 1 none [], .expiry none], clock := default }
    let allocator := (ofLanguage {} .git).allocatorOf {} h
    ∃ o h' start errors writes tree, (ofLanguage {} .git).runGit {} p h = (.ok o, h') ∧
      Starts (ofLanguage {} .git) {} h start ∧
      Materialized (allocator.nextPlace h) p.files start.files errors writes tree ∧
      o.isOk = true ∧ Fields.get? "files_created" o.details = some (.int writes.length) ∧
      Fields.get? "file_errors" o.details = some (.list (errors.map fun (path, error) => fileError path error)) ∧
      o.units.map (·.unit) = p.initCommands ∧
      h'.calls = h.calls ++ p.initCommands.map fun line =>
        { command := ["sh", "-c", line]
          directory := some (allocator.nextPath h)
          timeout := some (.whole 300)
          environment := some (authorEnvironment {} [])
          files := some (tree.listing (allocator.nextPlace h)) } := by
  intro p h
  have hcalm : h.IsCalm p.initCommands.length := by simp [Host.IsCalm, h, p, Ending.IsCrash]
  exact runGit_materializes (by decide +kernel) (by decide +kernel) (by decide +kernel) (by decide +kernel) ⟨.nil, rfl⟩ hcalm

/-- A root whose name is too long for a directory leaves no room, and then no file is tried. -/
theorem runGit_longRoot :
    let s : Settings := { workspaceRoot := .text (Text.repeated 300 'x') }
    let p : GitRepository := ⟨[("a", "x")], ["git init"]⟩
    let h : Host := { tools := ["git", "sh"], clock := default }
    let run := Action.run ((ofLanguage s .git).runGit s p) h
    run.1.isOk = false ∧ run.2.calls = [] ∧ run.2.files = [] := by
  intro s p h run
  refine ⟨?_, ?_, ?_⟩ <;> decide +kernel

end Runner
end Runbook
