import Runbook.Proofs.Host.Session
import Runbook.Runner.Execution

/-!
A run leaves no workspace behind, whatever it is given and however its processes end. All that it can leave are
directories on the way to the root of the workspaces.
-/
namespace Runbook

open Runbook.Action (LeavesFiles Confined leavesFiles_pure leavesFiles_throw leavesFiles_host leavesFiles_now
  leavesFiles_log)

variable {α β ι : Type} {act : Action α} {f : α → Action β} {r : Runner} {s : Settings} {a : Allocator} {h h' h₁ h₂ : Host}
  {place cwd root q : Place} {path : Path}

/-! What the parts of a run do to the files -/

theorem Call.leavesFiles_start (call : Call) : LeavesFiles call.start := fun _ => ⟨rfl, rfl, rfl, rfl⟩

theorem Call.leavesFiles_run (call : Call) : LeavesFiles call.run := by
  unfold Call.run
  split
  · exact leavesFiles_throw _
  · refine (Action.leavesFiles_hasTool _).bind fun there => ?_
    split
    · exact call.leavesFiles_start.bind fun _ => Action.leavesFiles_ofExcept _
    · exact leavesFiles_pure _

namespace Runner

theorem leavesFiles_command (argv : List Text) (directory : Option Path) (input : Option Text)
    (environment : Option (Fields Text)) : LeavesFiles (command s argv directory input environment) := by
  refine (leavesFiles_log _ _ _).bind fun _ => (Call.leavesFiles_run _).bind fun run => ?_
  dsimp only
  split
  · exact (leavesFiles_log _ _ _).bind fun _ => leavesFiles_pure _
  · exact leavesFiles_pure _

theorem leavesFiles_runUnits {one : Text → Text → Action ProcessRun} (hone : ∀ label unit, LeavesFiles (one label unit))
    (units : List (Text × Text)) : LeavesFiles (runUnits one units) := by
  induction units with
  | nil => exact leavesFiles_pure _
  | cons unit units ih => exact (hone _ _).bind fun _ => ih.bind fun _ => leavesFiles_pure _

theorem leavesFiles_mock (wouldRun : Text) (onNote : Text → Moment → Outcome) : LeavesFiles (r.mock s wouldRun onNote) := by
  refine leavesFiles_now.bind fun now => ?_
  split
  · exact (leavesFiles_log _ _ _).bind fun _ => leavesFiles_pure _
  · exact (leavesFiles_log _ _ _).bind fun _ => leavesFiles_pure _

theorem confined_writeText {name : Text} (hname : name ≠ "..") (cwd : Place) (p : Path) (t : Text) :
    Confined cwd (Place.follow cwd p) (writeText (p.child name) t) := by
  refine Action.confined_write ?_ (Text.utf8 t)
  rw [Place.follow_child hname]
  exact List.prefix_append _ _

theorem confined_writeFile (cwd root : Place) (path content : Text) : Confined cwd root (writeFile root path content) := by
  intro h hcwd hsound hthere
  -- what stands in a tree is reached without a step back
  have hroot := hsound.isTree.names root _ hthere
  refine (?_ : Confined cwd root (writeFile root path content)) h hcwd hsound hthere
  unfold writeFile
  by_cases hpath : '\x00' ∈ path
  · rw [if_pos hpath]
    exact (Action.leavesFiles_throw_bind _ _).confined _ _
  · rw [if_neg hpath]
    cases hinside : Place.inside? root (Path.ofText path) with
    | none => exact ((leavesFiles_log _ _ _).bind fun _ => leavesFiles_pure _).confined _ _
    | some place =>
      obtain ⟨hplace, hne, hin⟩ := Place.inside?_eq_some_iff.mp hinside
      have hnames : "..".toList ∉ place := hplace ▸ Place.not_mem_follow hroot _
      have habove : root <+: place.dropLast := Place.prefix_dropLast hin (Ne.symm hne)
      dsimp only
      refine Action.Confined.tryCatch ?_ fun stop => ?_
      · refine (Action.confined_makeDirectories (Place.not_mem_dropLast hnames) habove).bind fun _ => ?_
        refine (Action.confined_write ?_ (Text.utf8 content)).bind fun _ => (leavesFiles_pure _).confined _ _
        rwa [Place.follow_ofPlace hnames]
      · cases stop with
        | file fault => exact ((leavesFiles_log _ _ _).bind fun _ => leavesFiles_pure _).confined _ _
        | _ => exact (leavesFiles_throw _).confined _ _

theorem confined_writeFiles (cwd root : Place) (files : Fields Text) : Confined cwd root (writeFiles root files) := by
  induction files with
  | nil => exact (leavesFiles_pure _).confined _ _
  | cons file files ih =>
    exact (confined_writeFile cwd root file.1 file.2).bind fun _ => ih.bind fun _ => (leavesFiles_pure _).confined _ _

theorem confined_materialize (p : GitRepository) (cwd : Place) (path : Path) :
    Confined cwd (Place.follow cwd path) (materialize s p path) := by
  rintro h rfl hsound hthere
  have hunits := leavesFiles_runUnits (fun _ line => leavesFiles_command (s := s) ["sh".toList, "-c".toList, line]
    (some path) none (some (authorEnvironment s h.environment))) (p.initCommands.map fun line => (line, line))
  have hbody := (confined_writeFiles h.cwd (Place.follow h.cwd path) p.files).bind fun errors =>
    (hunits.bind fun units => leavesFiles_pure (errors, units)).confined h.cwd (Place.follow h.cwd path)
  have hhost : Action.host h = (.ok h, h) := rfl
  rw [materialize, Action.run_bind, hhost]
  exact hbody h rfl hsound hthere

/-! What a run does to the files -/

/-- Nothing is lost, all that has come are directories on the way to the root of the workspaces, and where a workspace was
there is nothing, before and after. -/
structure Swept (s : Settings) (h h' : Host) : Prop where
  isSound : h'.IsSound
  cwd : h'.cwd = h.cwd
  extended : h.files.Extends h'.files (FileTree.OnWay h.cwd ((workspaceRoot s).getD (.ofPlace h.scratch)))
  gone : ∃ made, h'.workspaces = h.workspaces ++ made ∧ ∀ path ∈ made, ∀ q, Place.follow h.cwd path <+: q →
    h.files.entry? q = none ∧ h'.files.entry? q = none

/-- However the action ends, the workspaces that it has made are gone. -/
def Sweeps (s : Settings) (act : Action α) : Prop := ∀ h : Host, h.IsSound → Swept s h (act h).2

theorem sweeps_of_leavesFiles (hact : LeavesFiles act) : Sweeps s act := by
  intro h hsound
  have hsame := hact h
  refine ⟨hsame.isSound hsound, hsame.cwd, ?_, [], by rw [hsame.workspaces, List.append_nil], nofun⟩
  rw [hsame.files]
  exact .refl hsound.isTree _

theorem Sweeps.bind (hact : Sweeps s act) (hf : ∀ a, LeavesFiles (f a)) : Sweeps s (act >>= f) := by
  intro h hsound
  have hfirst := hact h hsound
  rw [Action.run_bind]
  rcases hrun : act h with ⟨stop | a, h₁⟩
  · rwa [hrun] at hfirst
  · rw [hrun] at hfirst
    have hsame := hf a h₁
    refine ⟨hsame.isSound hfirst.isSound, hsame.cwd.trans hfirst.cwd, ?_, ?_⟩
    · rw [hsame.files]
      exact hfirst.extended
    · rw [hsame.files, hsame.workspaces]
      exact hfirst.gone

theorem sweeps_bind (hact : LeavesFiles act) (hf : ∀ h a h₁, act h = (.ok a, h₁) → Sweeps s (f a)) :
    Sweeps s (act >>= f) := by
  intro h hsound
  have hsame := hact h
  rw [Action.run_bind]
  rcases hrun : act h with ⟨stop | a, h₁⟩
  · rw [hrun] at hsame
    have hstill : Sweeps s act := sweeps_of_leavesFiles hact
    have hswept := hstill h hsound
    rwa [hrun] at hswept
  · rw [hrun] at hsame
    obtain ⟨hsound', hcwd, hextended, hgone⟩ := hf h a h₁ hrun h₁ (hsame.isSound hsound)
    rw [hsame.files, hsame.cwd, hsame.scratch] at hextended
    rw [hsame.files, hsame.cwd, hsame.workspaces] at hgone
    exact ⟨hsound', hcwd.trans hsame.cwd, hextended, hgone⟩

theorem sweeps_acquire {body : Path → Action α} (hroot : a.root = workspaceRoot s)
    (hbody : ∀ cwd path, Confined cwd (Place.follow cwd path) (body path)) : Sweeps s (a.acquire body) := by
  intro h hsound
  have hbase : a.base h = (workspaceRoot s).getD (.ofPlace h.scratch) := by rw [Allocator.base, hroot]
  by_cases hopen : ∃ above files, a.Opens h above files
  · obtain ⟨above, files, ho⟩ := hopen
    have hmade := Allocator.made_entered hsound ho
    have hchanges := hbody h.cwd (a.nextPath h) (a.entered h files) rfl hmade.isSound hmade.there
    rw [Allocator.run_acquire ho]
    dsimp only
    generalize (body (a.nextPath h) (a.entered h files)).2 = h₂ at hchanges ⊢
    have hcwd : h₂.cwd = h.cwd := hchanges.cwd
    refine ⟨hmade.isSound_removed hsound hcwd hchanges.isSound, hcwd, ?_, [a.nextPath h], hchanges.workspaces, ?_⟩
    · rw [← hbase]
      exact hmade.extends_removed hsound hchanges
    · intro path hpath q hq
      obtain rfl := List.mem_singleton.mp hpath
      exact ⟨hmade.nothing_below hsound q hq, (hmade.entry?_removed hcwd q).trans (if_pos hq)⟩
  · push Not at hopen
    obtain ⟨stop, files, hstop, hextends⟩ := Allocator.exists_of_not_opens hsound hopen
    rw [Allocator.run_acquire_of_error hstop]
    rw [hbase] at hextends
    exact ⟨⟨hextends.isTree, hextends.grows _ _ hsound.cwd⟩, rfl, hextends, [], (List.append_nil _).symm, nofun⟩

theorem Sweeps.tryCatch {handler : Stop → Action α} (hact : Sweeps s act) (hcatch : ∀ stop, LeavesFiles (handler stop)) :
    Sweeps s (tryCatch act handler) := by
  intro h hsound
  have hfirst := hact h hsound
  rw [Action.run_tryCatch]
  rcases hrun : act h with ⟨stop | a, h₁⟩
  · rw [hrun] at hfirst
    have hsame := hcatch stop h₁
    refine ⟨hsame.isSound hfirst.isSound, hsame.cwd.trans hfirst.cwd, ?_, ?_⟩
    · rw [hsame.files]
      exact hfirst.extended
    · rw [hsame.files, hsame.workspaces]
      exact hfirst.gone
  · rwa [hrun] at hfirst

theorem sweeps_inWorkspace {body : Path → Action α}
    (hbody : ∀ cwd path, Confined cwd (Place.follow cwd path) (body path)) : Sweeps s (r.inWorkspace s body) := by
  have hcreate : LeavesFiles (Allocator.create ("polyglot_" ++ r.name ++ "_") (workspaceRoot s)) :=
    fun _ => ⟨rfl, rfl, rfl, rfl⟩
  refine sweeps_bind hcreate fun h a h₁ hcreated => ?_
  cases hcreated
  exact sweeps_acquire rfl hbody

theorem sweeps_runPlan (p : Plan) : Sweeps s (r.runPlan s p) := by
  cases p with
  | docker p =>
    refine sweeps_bind leavesFiles_host fun h _ _ _ => ?_
    split
    · refine (sweeps_inWorkspace fun cwd path => ?_).bind fun run => leavesFiles_now.bind fun now => ?_
      · exact (confined_writeText (by decide) cwd path _).bind fun _ => (leavesFiles_command _ _ _ _).confined _ _
      · dsimp only
        split
        · exact (leavesFiles_log _ _ _).bind fun _ => leavesFiles_pure _
        · exact leavesFiles_pure _
    · exact sweeps_of_leavesFiles (leavesFiles_mock _ _)
  | terraform p =>
    refine sweeps_bind leavesFiles_host fun h _ _ _ => ?_
    split
    · refine (sweeps_inWorkspace fun cwd path => ?_).bind fun _ => leavesFiles_now.bind fun _ => leavesFiles_pure _
      refine (confined_writeText (by decide) cwd path _).bind fun _ => Action.LeavesFiles.confined ?_ _ _
      refine (leavesFiles_command _ _ _ _).bind fun first => ?_
      split
      · exact (leavesFiles_command _ _ _ _).bind fun _ => leavesFiles_pure _
      · exact leavesFiles_pure _
    · exact sweeps_of_leavesFiles (leavesFiles_mock _ _)
  | kubernetes p =>
    refine sweeps_of_leavesFiles ?_
    unfold runPlan runKubernetes
    dsimp only
    split
    · exact leavesFiles_throw _
    · refine leavesFiles_host.bind fun h => ?_
      split
      · refine (leavesFiles_runUnits (fun _ _ => leavesFiles_command _ _ _ _) _).bind fun _ => ?_
        exact (leavesFiles_log _ _ _).bind fun _ => leavesFiles_now.bind fun _ => leavesFiles_pure _
      · exact leavesFiles_mock _ _
  | git p =>
    refine sweeps_bind leavesFiles_host fun h _ _ _ => ?_
    split
    · refine (sweeps_inWorkspace fun cwd path => ?_).bind fun _ => leavesFiles_now.bind fun _ => leavesFiles_pure _
      exact confined_materialize p cwd path
    · exact sweeps_of_leavesFiles (leavesFiles_mock _ _)
  | bash p =>
    refine sweeps_bind leavesFiles_host fun h _ _ _ => ?_
    split
    · refine (sweeps_inWorkspace fun cwd path => ?_).bind fun _ => leavesFiles_now.bind fun _ => leavesFiles_pure _
      exact (leavesFiles_command _ _ _ _).confined _ _
    · exact sweeps_of_leavesFiles (leavesFiles_mock _ _)
  | sql p =>
    refine sweeps_bind leavesFiles_host fun h _ _ _ => ?_
    split
    · refine (sweeps_inWorkspace fun cwd path => ?_).bind fun _ => leavesFiles_now.bind fun _ => leavesFiles_pure _
      exact (leavesFiles_runUnits (fun _ _ => leavesFiles_command _ _ _ _) _).confined _ _
    · exact sweeps_of_leavesFiles (leavesFiles_mock _ _)

theorem leavesFiles_refuse (reason : Text) : LeavesFiles (r.refuse reason) :=
  leavesFiles_now.bind fun _ => leavesFiles_pure _

theorem sweeps_attempt (source : Source) : Sweeps s (r.attempt s source) := by
  refine sweeps_bind (Action.leavesFiles_ofExcept _) fun _ plan _ _ => ?_
  cases plan with
  | error fault => exact sweeps_of_leavesFiles ((leavesFiles_log _ _ _).bind fun _ => leavesFiles_refuse _)
  | ok p =>
    dsimp only
    split
    · exact sweeps_runPlan p
    · exact sweeps_of_leavesFiles (leavesFiles_refuse _)

theorem sweeps_execute (r : Runner) (s : Settings) (source : Source) : Sweeps s (r.execute s source) := by
  unfold execute
  split
  · exact sweeps_of_leavesFiles (leavesFiles_now.bind fun _ => leavesFiles_pure _)
  · exact (sweeps_attempt source).tryCatch fun _ =>
      (leavesFiles_log _ _ _).bind fun _ => leavesFiles_now.bind fun _ => leavesFiles_pure _

theorem exists_execute (r : Runner) (s : Settings) (source : Source) (h : Host) :
    ∃ o h', r.execute s source h = (.ok o, h') := by
  unfold execute
  split
  · exact ⟨_, _, rfl⟩
  · rw [Action.run_tryCatch]
    rcases r.attempt s source h with ⟨stop | o, h'⟩
    · exact ⟨_, _, rfl⟩
    · exact ⟨o, h', rfl⟩

/-- In a session of allocators with tokens of their own no two stays have one name, and every stay is fresh: its workspace
was not there, is empty at the start and gone afterwards, and nothing else goes with it. What is executed at any time
returns and leaves no workspace behind. -/
theorem stays_are_fresh_and_swept [DecidableEq ι] {pool pool' : ι → Allocator} {stays : List Stay}
    (htokens : Function.Injective fun i => (pool i).token) (hsound : h.IsSound) (hs : Session pool h stays pool' h') :
    (stays.map Stay.name).Nodup ∧ (∀ stay ∈ stays, stay.IsFresh) ∧
      ∀ (r : Runner) (s : Settings) (source : Source), ∃ o h₁, r.execute s source h' = (.ok o, h₁) ∧ Swept s h' h₁ := by
  obtain ⟨hsound', hfresh⟩ := hs.isSound_and_isFresh hsound
  refine ⟨hs.nodup_names htokens, hfresh, fun r s source => ?_⟩
  obtain ⟨o, h₁, hrun⟩ := exists_execute r s source h'
  have hswept := sweeps_execute r s source h' hsound'
  rw [hrun] at hswept
  exact ⟨o, h₁, hrun, hswept⟩

/-- Two allocators below one root: a stay of the second within a stay of the first, which is stopped with it. -/
theorem stays_are_fresh_and_swept_nested :
    let pool : Bool → Allocator := fun b => { stem := "w_", root := some ⟨0, []⟩, token := b.toNat }
    let inner : Path → Action Unit := fun _ => throw (.crash "boom")
    let outer : Path → Action Unit := fun _ => (Allocator.take pool false true).acquire inner
    let h : Host := { clock := default }
    h.IsSound ∧ ∃ stays pool', Session pool h stays pool' ((pool false).acquire outer h).2 ∧
      stays.length = 2 ∧ (stays.map Stay.name).Nodup ∧ (∀ stay ∈ stays, stay.IsFresh) ∧
      ∀ (r : Runner) (s : Settings) (source : Source), ∃ o h₁,
        r.execute s source ((pool false).acquire outer h).2 = (.ok o, h₁) ∧
          Swept s ((pool false).acquire outer h).2 h₁ := by
  intro pool inner outer h
  have hsound : h.IsSound := ⟨.nil, rfl⟩
  have htokens : Function.Injective fun b => (pool b).token := by
    intro b b' hb
    cases b <;> cases b' <;> first | rfl | cases hb
  have hstopped : ∀ (pool : Bool → Allocator) (i : Bool) (h h₁ : Host) (path : Path),
      (pool i).enter h = (.ok path, h₁) → ∃ stays pool', stays.length = 1 ∧
        Session pool h stays pool' ((pool i).acquire inner h).2 := by
    intro pool i h h₁ path hstart
    exact ⟨_, _, rfl, .stay i inner hstart (.done _ _) rfl (.done _ _)⟩
  have hopen : (pool false).canOpen h = true := by decide +kernel
  have hopen' : (Allocator.take pool false true).canOpen ((pool false).enter h).2 = true := by decide +kernel
  have hback : (outer ((pool false).nextPath h) ((pool false).enter h).2).2.cwd = ((pool false).enter h).2.cwd := by
    decide +kernel
  obtain ⟨stays, pool', hlength, hinner⟩ := hstopped _ true _ _ _ (Allocator.enter_of_canOpen hopen')
  have hs := Session.stay false outer (Allocator.enter_of_canOpen hopen) hinner hback (.done _ _)
  exact ⟨hsound, _, _, hs, by simp [hlength], stays_are_fresh_and_swept htokens hsound hs⟩
end Runner
end Runbook
