import Runbook.Proofs.Runner.Batch
import Runbook.Proofs.Runner.Workspace

/-!
One command whose tool is there asks for exactly one process, with the files that its directory has then, and takes the
next ending. A row of commands asks for theirs in order.
-/
namespace Runbook

variable {s : Settings} {h h' h₁ h₂ : Host} {call : Call} {argv : List Text} {run : ProcessRun} {directory : Path}
  {files : List (Text × List UInt8)}

/-- How the next process will end. -/
def Host.nextEnding (h : Host) : Ending := h.endings.headD .usual

namespace Call

/-- The call as it is recorded on a host. -/
def seenOn (call : Call) (h : Host) : Call :=
  { call with files := call.directory.map fun d => h.files.listing (Place.follow h.cwd d) }

theorem run_eq (htool : h.Offers call.command) (hrun : call.ended h.nextEnding = .ok run) :
    call.run h = (.ok run, { h with endings := h.endings.tail, calls := h.calls ++ [call.seenOn h] }) := by
  have hstart : call.start h =
      (.ok h.nextEnding, { h with endings := h.endings.tail, calls := h.calls ++ [call.seenOn h] }) := rfl
  rw [call.run_of_offers htool, Action.run_bind, hstart]
  dsimp only
  rw [hrun]
  rfl

theorem seenOn_congr (hsame : h.SameFiles h') (call : Call) : call.seenOn h' = call.seenOn h := by
  rw [seenOn, hsame.files, hsame.cwd, seenOn]

end Call

namespace Host

/-- All that asking for some processes changes, besides the log. -/
structure Asked (h : Host) (calls : List Call) (h' : Host) : Prop where
  tools : h'.tools = h.tools
  environment : h'.environment = h.environment
  endings : h'.endings = h.endings.drop calls.length
  calls : h'.calls = h.calls ++ calls
  files : h.SameFiles h'

theorem Asked.refl (h : Host) : h.Asked [] h := ⟨rfl, rfl, rfl, (List.append_nil _).symm, .refl h⟩

theorem Asked.trans {cs ds : List Call} (hc : h.Asked cs h₁) (hd : h₁.Asked ds h₂) : h.Asked (cs ++ ds) h₂ := by
  refine ⟨hd.tools.trans hc.tools, hd.environment.trans hc.environment, ?_, ?_, hc.files.trans hd.files⟩
  · rw [hd.endings, hc.endings, List.drop_drop, List.length_append]
  · rw [hd.calls, hc.calls, List.append_assoc]

theorem Asked.spawned {calls : List Call} (hasked : h.Asked calls h') : Action.Spawned calls h h' :=
  ⟨hasked.tools, hasked.endings, hasked.calls⟩

theorem nextEnding_congr (hendings : h'.endings = h.endings) : h'.nextEnding = h.nextEnding := by
  rw [nextEnding, hendings, nextEnding]

/-- None of the next processes ends in a way that stops the caller. -/
def IsCalm (h : Host) (n : Nat) : Prop := ∀ e ∈ h.endings.take n, ¬ e.IsCrash

theorem IsCalm.congr {n : Nat} (hcalm : h.IsCalm n) (hendings : h'.endings = h.endings) : h'.IsCalm n := by
  rwa [IsCalm, hendings]

theorem IsCalm.next {n : Nat} (hcalm : h.IsCalm (n + 1)) : ¬ h.nextEnding.IsCrash := by
  unfold nextEnding
  cases hes : h.endings with
  | nil => exact not_false
  | cons e es => exact hcalm e (by simp [hes])

theorem IsCalm.rest {n : Nat} (hcalm : h.IsCalm (n + 1)) (hrest : h'.endings = h.endings.drop 1) : h'.IsCalm n := by
  intro e he
  rw [hrest] at he
  refine hcalm e ?_
  cases hes : h.endings with
  | nil => simp [hes] at he
  | cons e' es =>
    rw [hes] at he
    exact List.mem_cons_of_mem _ he

end Host

namespace Runner

/-- The call of a command. -/
def callOf (s : Settings) (argv : List Text) (directory : Option Path) (input : Option Text)
    (environment : Option (Fields Text)) : Call :=
  { command := argv, directory, input, environment, timeout := some (.whole s.timeout) }

theorem run_command (htool : h.Offers argv) (hcalm : ¬ h.nextEnding.IsCrash) (directory : Option Path)
    (input : Option Text) (environment : Option (Fields Text)) :
    ∃ run h', command s argv directory input environment h = (.ok run, h') ∧
      (callOf s argv directory input environment).ended h.nextEnding = .ok run ∧
      h.Asked [(callOf s argv directory input environment).seenOn h] h' := by
  obtain ⟨run, hended⟩ := (callOf s argv directory input environment).exists_ended hcalm
  set call := callOf s argv directory input environment
  set h₁ : Host := { h with journal := h.journal ++ [.of .info "executors.base" ("Running " ++ spaced argv)] }
  set h₂ : Host := { h₁ with endings := h₁.endings.tail, calls := h₁.calls ++ [call.seenOn h₁] }
  have hrun : call.run h₁ = (.ok run, h₂) := Call.run_eq htool hended
  have hlogged : ∀ (h : Host) (rs : List LogRecord), h.Asked [] { h with journal := h.journal ++ rs } :=
    fun h _ => ⟨rfl, rfl, rfl, (List.append_nil _).symm, rfl, rfl, rfl, rfl⟩
  have hasked : h.Asked [call.seenOn h] h₂ := ⟨rfl, rfl, List.drop_one.symm, rfl, rfl, rfl, rfl, rfl⟩
  by_cases hok : run.isOk = true
  · refine ⟨run, h₂, Action.bind_eq_ok_iff.mpr ⟨(), h₁, rfl, Action.bind_eq_ok_iff.mpr ⟨run, h₂, hrun, ?_⟩⟩, hended, hasked⟩
    rw [if_neg (by simp [hok])]
    rfl
  · set told : LogRecord := .of .error "executors.base" (argv.headD [] ++ " exited with " ++ Text.ofInt run.code ++ " (" ++
      run.outcome.name ++ ")")
    refine ⟨run, { h₂ with journal := h₂.journal ++ [told] }, Action.bind_eq_ok_iff.mpr ⟨(), h₁, rfl,
      Action.bind_eq_ok_iff.mpr ⟨run, h₂, hrun, ?_⟩⟩, hended, hasked.trans (hlogged h₂ [told])⟩
    rw [if_pos (by simpa using hok)]
    rfl

/-- Commands in the same directory with the same environment: their processes are asked for in order, each with the files
that were there at first. -/
theorem run_commands (argvOf : Text → List Text) (units : List (Text × Text))
    (htool : ∀ line, h.Offers (argvOf line)) (hcalm : h.IsCalm units.length) (directory : Option Path)
    (environment : Option (Fields Text)) :
    ∃ outcomes h', runUnits (fun _ line => command s (argvOf line) directory none environment) units h = (.ok outcomes, h') ∧
      outcomes.map (·.unit) = units.map (·.1) ∧
      h.Asked (units.map fun unit => (callOf s (argvOf unit.2) directory none environment).seenOn h) h' := by
  induction units generalizing h with
  | nil => exact ⟨[], h, rfl, rfl, .refl h⟩
  | cons unit units ih =>
    obtain ⟨label, line⟩ := unit
    obtain ⟨run, h₁, hrun, -, hasked⟩ := run_command (s := s) (htool line) hcalm.next directory none environment
    have htool₁ : ∀ line, h₁.Offers (argvOf line) := fun line => by rw [Host.Offers, hasked.tools]; exact htool line
    obtain ⟨outcomes, h₂, hrest, hlabels, hasked'⟩ := ih htool₁ (hcalm.rest hasked.endings)
    refine ⟨run.toUnit label :: outcomes, h₂, ?_, congrArg (label :: ·) hlabels, ?_⟩
    · exact Action.bind_eq_ok_iff.mpr ⟨run, h₁, hrun, Action.bind_eq_ok_iff.mpr ⟨outcomes, h₂, hrest, rfl⟩⟩
    · simp only [Call.seenOn_congr hasked.files] at hasked'
      exact hasked.trans hasked'

/-! In a directory -/

/-- The call of a command in a directory that holds these files. -/
def callIn (s : Settings) (directory : Path) (files : List (Text × List UInt8)) (argv : List Text)
    (environment : Option (Fields Text)) : Call :=
  { callOf s argv (some directory) none environment with files := some files }

/-- What there is of files in the directory. -/
def Finds (h : Host) (directory : Path) (files : List (Text × List UInt8)) : Prop :=
  h.files.listing (Place.follow h.cwd directory) = files

theorem Finds.congr (hfinds : Finds h directory files) (hsame : h.SameFiles h') : Finds h' directory files := by
  rw [Finds, hsame.files, hsame.cwd]
  exact hfinds

theorem Finds.seenOn_callOf (hfinds : Finds h directory files) (argv : List Text) (environment : Option (Fields Text)) :
    (callOf s argv (some directory) none environment).seenOn h = callIn s directory files argv environment := by
  rw [callIn, ← hfinds]
  rfl

/-! In a workspace -/

/-- The host at the start of a stay in a workspace of the runner. -/
structure Starts (r : Runner) (s : Settings) (h start : Host) : Prop where
  made : (r.allocatorOf s h).Made h start
  tools : start.tools = h.tools
  environment : start.environment = h.environment
  endings : start.endings = h.endings
  calls : start.calls = h.calls

/-- Where there is room, the body runs in the workspace, and all that comes after it is the removal. -/
theorem exists_inWorkspace {r : Runner} (hroom : r.hasRoom s h) (hsound : h.IsSound) :
    ∃ start, Starts r s h start ∧ ∀ {α : Type} (body : Path → Action α), r.inWorkspace s body h =
      ((body ((r.allocatorOf s h).nextPath h) start).1,
        Allocator.removed ((r.allocatorOf s h).nextPath h) (body ((r.allocatorOf s h).nextPath h) start).2) := by
  obtain ⟨above, files, ho⟩ := exists_of_hasRoom hroom
  have hsound₀ : Host.IsSound { h with allocators := h.allocators + 1 } := ⟨hsound.isTree, hsound.cwd⟩
  have hmade := Allocator.made_entered hsound₀ ho
  refine ⟨_, ⟨⟨hmade.isSound, hmade.cwd, hmade.free, hmade.there, hmade.located, hmade.empty, hmade.extended⟩, rfl, rfl, rfl,
    rfl⟩, ?_⟩
  intro α body
  have hcreate : Allocator.create ("polyglot_" ++ r.name ++ "_") (workspaceRoot s) h =
      (.ok (r.allocatorOf s h), { h with allocators := h.allocators + 1 }) := rfl
  rw [inWorkspace, Action.run_bind, hcreate]
  exact Allocator.run_acquire ho body

end Runner
end Runbook
