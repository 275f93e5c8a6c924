import Runbook.Proofs.Host.Action
import Runbook.Proofs.Value.Fields
import Runbook.Runner.Execution

/-!
Every run ends with an outcome, and all failures have one shape. Whatever stops a run on its way becomes a failure of
that shape too.
-/
namespace Runbook

open Runbook.Action (Gives gives_pure gives_bind)

variable {α : Type} {P : α → Prop} {r : Runner} {s : Settings} {l : Language} {h h' : Host} {o : Outcome} {run : ProcessRun}

namespace Outcome

/-- The one shape of failures: a kind, and in the details an exit code and an output. Only a tool that has failed has an
exit code of its own, which is not zero. -/
structure Shaped (o : Outcome) : Prop where
  failed_iff : o.isOk = false ↔ o.error.isSome = true
  details : o.isOk = false → ∃ code output,
    Fields.get? "code" o.details = some (.int code) ∧ Fields.get? "output" o.details = some (.text output) ∧
      (code ≠ -1 → o.error = some .toolFailed) ∧ (o.error = some .toolFailed → code ≠ 0)
  mock : o.mock = true → o.isOk = true

/-- A success carries no kind of failure, so nothing is asked of its details. -/
theorem shaped_of_isOk (hok : o.isOk = true) (herror : o.error = none) : o.Shaped := by
  constructor
  · simp [hok, herror]
  · intro hfailed
    rw [hok] at hfailed
    cases hfailed
  · intro _
    exact hok

theorem shaped_success (target : Text) (mock : Bool) (details : Fields Value) (now : Moment) :
    (success target mock details now).Shaped := shaped_of_isOk rfl rfl

/-- Details of a failure beside its code and output, which they leave as they are. -/
def IsExtra (details : Fields Value) : Prop := ∀ key ∈ Fields.keys details, key ≠ "code" ∧ key ≠ "output"

theorem shaped_failure {kind : FailureKind} {code : Int} {details : Fields Value}
    (hcode : code ≠ -1 → kind = .toolFailed) (hkind : kind = .toolFailed → code ≠ 0) (hd : IsExtra details)
    (target output : Text) (now : Moment) : (failure target kind output code details now).Shaped := by
  have hc : ("code" : Text) ∉ Fields.keys details := fun hm => (hd _ hm).1 rfl
  have ho : ("output" : Text) ∉ Fields.keys details := fun hm => (hd _ hm).2 rfl
  constructor
  · exact ⟨fun _ => rfl, fun _ => rfl⟩
  · intro _
    refine ⟨code, output, ?_, ?_, fun h => congrArg some (hcode h), fun h => hkind (Option.some.inj h)⟩
    · exact Fields.get?_merge_of_not_mem hc _
    · exact Fields.get?_merge_of_not_mem ho _
  · intro hmock
    cases hmock

/-- A failure in which no process took part. -/
theorem shaped_failure_of_ne {kind : FailureKind} (hkind : kind ≠ .toolFailed) (target output : Text) (now : Moment) :
    (failure target kind output (-1) [] now).Shaped :=
  shaped_failure (fun h => (h rfl).elim) (fun h => (hkind h).elim) (fun _ hm => absurd hm List.not_mem_nil) _ _ _

/-- An outcome of a run that has begun: no kind of failure in it says that nothing was run. -/
structure Begun (o : Outcome) : Prop where
  shaped : o.Shaped
  planned : o.error ≠ some .transpileFailed
  installed : o.error ≠ some .toolNotInstalled
  found : o.error ≠ some .notFound

theorem begun_of_isOk (hok : o.isOk = true) (herror : o.error = none) : o.Begun :=
  ⟨shaped_of_isOk hok herror, by simp [herror], by simp [herror], by simp [herror]⟩

end Outcome

namespace ProcessRun

/-- Only a process that has completed has an exit code of its own. -/
def IsGenuine (run : ProcessRun) : Prop := run.outcome ≠ .completed → run.code = -1

theorem code_ne_zero (hfailed : run.isOk = false) (hdone : run.outcome = .completed) : run.code ≠ 0 := by
  intro hcode
  simp [isOk, hdone, hcode] at hfailed

theorem begun_toFailure (hrun : run.IsGenuine) (hfailed : run.isOk = false) {details : Fields Value}
    (hd : Outcome.IsExtra details) (target : Text) (now : Moment) : (run.toFailure target details now).Begun := by
  have herror : (run.toFailure target details now).error = some (run.error?.getD .toolFailed) := rfl
  cases hout : run.outcome with
  | completed =>
    have hkind : run.error?.getD .toolFailed = .toolFailed := by simp [error?, hfailed, hout]
    refine ⟨?_, by simp [herror, hkind], by simp [herror, hkind], by simp [herror, hkind]⟩
    exact Outcome.shaped_failure (fun _ => hkind) (fun _ => code_ne_zero hfailed hout) hd _ _ _
  | absent | raised =>
    have hcode : run.code = -1 := hrun (by simp [hout])
    have hkind : run.error?.getD .toolFailed = .invocationFailed := by simp [error?, hfailed, hout]
    refine ⟨?_, by simp [herror, hkind], by simp [herror, hkind], by simp [herror, hkind]⟩
    exact Outcome.shaped_failure (fun h => (h hcode).elim) (fun h => by simp [hkind] at h) hd _ _ _
  | timeout =>
    have hcode : run.code = -1 := hrun (by simp [hout])
    have hkind : run.error?.getD .toolFailed = .timeout := by simp [error?, hfailed, hout]
    refine ⟨?_, by simp [herror, hkind], by simp [herror, hkind], by simp [herror, hkind]⟩
    exact Outcome.shaped_failure (fun h => (h hcode).elim) (fun h => by simp [hkind] at h) hd _ _ _

end ProcessRun

theorem Call.isGenuine_of_ended {call : Call} {e : Ending} (hrun : call.ended e = .ok run) : run.IsGenuine := by
  cases e with
  | exit code output errors =>
    cases hrun
    intro hne
    exact (hne rfl).elim
  | expiry output | refusal message | failure message =>
    cases hrun
    intro _
    rfl
  | crash message => cases hrun

theorem Call.gives_run (call : Call) : Gives call.run ProcessRun.IsGenuine := by
  unfold Call.run
  split
  · intro h run h' hrun
    cases hrun
  · refine gives_bind _ fun there => ?_
    split
    · refine gives_bind _ fun e h run h' hrun => ?_
      cases hended : call.ended e with
      | ok run' =>
        rw [hended] at hrun
        cases hrun
        exact isGenuine_of_ended hended
      | error stop =>
        rw [hended] at hrun
        cases hrun
    · refine gives_pure fun _ => ?_
      rfl

theorem Action.Gives.andFinally {act : Action α} (hact : Gives act P) (last : Action Unit) :
    Gives (act.andFinally last) P := by
  intro h a h' ha
  have hresult : (act h).1 = .ok a := congrArg Prod.fst ha
  exact hact h a (act h).2 (Prod.ext hresult rfl)

namespace Runner

theorem gives_command (argv : List Text) (directory : Option Path) (input : Option Text)
    (environment : Option (Fields Text)) :
    Gives (command s argv directory input environment) ProcessRun.IsGenuine := by
  refine gives_bind _ fun _ => (Call.gives_run _).bind fun run hrun => ?_
  dsimp only
  split
  · exact gives_bind _ fun _ => gives_pure hrun
  · exact gives_pure hrun

theorem gives_inWorkspace {body : Path → Action α} (hbody : ∀ path, Gives (body path) P) :
    Gives (r.inWorkspace s body) P := by
  exact gives_bind _ fun allocator => gives_bind _ fun path => (hbody path).andFinally _

/-! What each run gives, once it has begun -/

/-- The outcome of an action has the shape, and where it tells that nothing was run no process was asked for. It never
tells that there was no document. -/
def Settles (act : Action Outcome) : Prop :=
  ∀ h o h', act h = (.ok o, h') → o.Shaped ∧
    (o.error = some .transpileFailed ∨ o.error = some .toolNotInstalled → h'.calls = h.calls) ∧
    o.error ≠ some .notFound

theorem settles_of_begun {act : Action Outcome} (hact : Gives act Outcome.Begun) : Settles act := by
  intro h o h' ho
  have hbegun := hact h o h' ho
  refine ⟨hbegun.shaped, ?_, hbegun.found⟩
  rintro (hkind | hkind)
  · exact (hbegun.planned hkind).elim
  · exact (hbegun.installed hkind).elim

theorem settles_host {f : Host → Action Outcome} (hf : ∀ h, Settles (f h)) : Settles (Action.host >>= f) := by
  intro h o h' ho
  obtain ⟨_, h₁, hhost, ho⟩ := Action.bind_eq_ok_iff.mp ho
  cases hhost
  exact hf h h o h' ho

theorem settles_log {f : Unit → Action Outcome} (hf : Settles (f ())) (level : LogLevel) (logger : String)
    (message : Text) : Settles (Action.log level logger message >>= f) := by
  intro h o h' ho
  obtain ⟨_, h₁, hlog, ho⟩ := Action.bind_eq_ok_iff.mp ho
  cases hlog
  have hlogged := hf _ o h' ho
  exact hlogged

/-- A missing tool asks for no process, neither in the one way nor in the other. -/
theorem settles_mock {wouldRun : Text} {onNote : Text → Moment → Outcome}
    (hnote : ∀ note now, (onNote note now).isOk = true ∧ (onNote note now).error = none) :
    Settles (r.mock s wouldRun onNote) := by
  intro h o h' ho
  obtain ⟨now, h₁, hnow, ho⟩ := Action.bind_eq_ok_iff.mp ho
  cases hnow
  split at ho
  · obtain ⟨_, h₂, hlog, ho⟩ := Action.bind_eq_ok_iff.mp ho
    cases hlog
    cases ho
    obtain ⟨hok, herror⟩ := hnote (r.note wouldRun) h.clock
    exact ⟨Outcome.shaped_of_isOk hok herror, fun _ => rfl, by simp [herror]⟩
  · obtain ⟨_, h₂, hlog, ho⟩ := Action.bind_eq_ok_iff.mp ho
    cases hlog
    cases ho
    exact ⟨Outcome.shaped_failure_of_ne (by simp) _ _ _, fun _ => rfl, by simp [Outcome.failure]⟩

theorem settles_mockSuccess (wouldRun : Text) (details : Fields Value) :
    Settles (r.mockSuccess s wouldRun details) := settles_mock fun _ _ => ⟨rfl, rfl⟩

theorem isExtra_of_keys {details : Fields Value} (h : (Fields.keys details).all fun key => key ≠ "code" && key ≠ "output") :
    Outcome.IsExtra details := by
  intro key hkey
  obtain ⟨hcode, houtput⟩ := Bool.and_eq_true_iff.mp (List.all_eq_true.mp h key hkey)
  exact ⟨of_decide_eq_true hcode, of_decide_eq_true houtput⟩

theorem settles_runDocker (p : DockerBuild) : Settles (r.runDocker s p) := by
  refine settles_host fun h => ?_
  split
  · refine settles_of_begun ?_
    refine (gives_inWorkspace fun path => gives_bind _ fun _ => gives_command _ _ _ _).bind fun run hrun => ?_
    refine gives_bind _ fun now => ?_
    dsimp only
    split
    · exact gives_bind _ fun _ => gives_pure (Outcome.begun_of_isOk rfl rfl)
    · rename_i hfailed
      exact gives_pure (ProcessRun.begun_toFailure hrun (by simpa using hfailed) (isExtra_of_keys rfl) _ _)
  · exact settles_mockSuccess _ _

/-- A step that is told to have failed comes with a run that has failed. -/
def IsStep (result : Option Text × ProcessRun) : Prop :=
  result.2.IsGenuine ∧ (result.1.isSome = true → result.2.isOk = false)

theorem gives_terraformSteps (p : TerraformPlan) (directory : Path) : Gives (terraformSteps s p directory) IsStep := by
  refine gives_bind _ fun _ => (gives_command _ _ _ _).bind fun first hfirst => ?_
  split
  · refine (gives_command _ _ _ _).bind fun last hlast => gives_pure ⟨hlast, fun hsome => ?_⟩
    by_cases hok : last.isOk = true
    · simp [hok] at hsome
    · simpa using hok
  · rename_i hfailed
    exact gives_pure ⟨hfirst, fun _ => by simpa using hfailed⟩

theorem settles_runTerraform (p : TerraformPlan) : Settles (r.runTerraform s p) := by
  refine settles_host fun h => ?_
  split
  · refine settles_of_begun ?_
    refine (gives_inWorkspace (gives_terraformSteps p)).bind fun result hresult => ?_
    obtain ⟨failed, run⟩ := result
    refine gives_bind _ fun now => gives_pure ?_
    cases failed with
    | none => exact Outcome.begun_of_isOk rfl rfl
    | some step => exact ProcessRun.begun_toFailure hresult.1 (hresult.2 rfl) (isExtra_of_keys rfl) _ _
  · exact settles_mockSuccess _ _

theorem settles_runScript (p : ShellScript) : Settles (r.runScript s p) := by
  refine settles_host fun h => ?_
  split
  · refine settles_of_begun ?_
    refine (gives_inWorkspace fun path => gives_command _ _ _ _).bind fun run hrun => ?_
    refine gives_bind _ fun now => gives_pure ?_
    split
    · exact Outcome.begun_of_isOk rfl rfl
    · rename_i hfailed
      exact ProcessRun.begun_toFailure hrun (by simpa using hfailed) (isExtra_of_keys rfl) _ _
  · exact settles_mockSuccess _ _

theorem settles_runKubernetes (p : KubernetesApply) : Settles (r.runKubernetes s p) := by
  unfold runKubernetes
  split
  · intro h o h' ho
    cases ho
  · refine settles_host fun h => ?_
    split
    · refine settles_of_begun (gives_bind _ fun units => gives_bind _ fun _ => gives_bind _ fun now => ?_)
      exact gives_pure (Outcome.begun_of_isOk rfl rfl)
    · exact settles_mock fun _ _ => ⟨rfl, rfl⟩

theorem settles_runGit (p : GitRepository) : Settles (r.runGit s p) := by
  refine settles_host fun h => ?_
  split
  · refine settles_of_begun (gives_bind _ fun result => gives_bind _ fun now => ?_)
    exact gives_pure (Outcome.begun_of_isOk rfl rfl)
  · exact settles_mockSuccess _ _

theorem settles_runSql (p : SqlBatch) : Settles (r.runSql s p) := by
  refine settles_host fun h => ?_
  split
  · refine settles_of_begun (gives_bind _ fun units => gives_bind _ fun now => ?_)
    exact gives_pure (Outcome.begun_of_isOk rfl rfl)
  · exact settles_mock fun _ _ => ⟨rfl, rfl⟩

theorem settles_runPlan (p : Plan) : Settles (r.runPlan s p) := by
  cases p with
  | docker p => exact settles_runDocker p
  | terraform p => exact settles_runTerraform p
  | kubernetes p => exact settles_runKubernetes p
  | git p => exact settles_runGit p
  | bash p => exact settles_runScript p
  | sql p => exact settles_runSql p

/-! Execution -/

theorem settles_refuse (reason : Text) : Settles (r.refuse reason) := by
  intro h o h' ho
  obtain ⟨now, h₁, hnow, ho⟩ := Action.bind_eq_ok_iff.mp ho
  cases hnow
  cases ho
  exact ⟨Outcome.shaped_failure_of_ne (by simp) _ _ _, fun _ => rfl, by simp [Outcome.failure]⟩

theorem settles_attempt (source : Source) : Settles (r.attempt s source) := by
  intro h o h' ho
  obtain ⟨plan, h₁, hplan, ho⟩ := Action.bind_eq_ok_iff.mp ho
  have hsame : h₁ = h := by
    cases hp : r.planOf s source with
    | error stop =>
      rw [hp] at hplan
      cases hplan
    | ok drafted =>
      rw [hp] at hplan
      cases hplan
      rfl
  subst hsame
  cases plan with
  | error f =>
    exact settles_log (settles_refuse _) _ _ _ _ o h' ho
  | ok p =>
    dsimp only at ho
    split at ho
    · exact settles_runPlan p _ o h' ho
    · exact settles_refuse _ _ o h' ho

/-- No run tells that its document is not there. -/
theorem error_ne_notFound_of_execute {source : Source} (ho : (ofLanguage s l).execute s source h = (.ok o, h')) :
    o.error ≠ some .notFound := by
  unfold execute at ho
  split at ho
  · cases ho
    simp [Outcome.success]
  · rw [Action.run_tryCatch] at ho
    rcases hattempt : (ofLanguage s l).attempt s source h with ⟨stop | o', h₁⟩
    · rw [hattempt] at ho
      cases ho
      simp [Outcome.failure]
    · rw [hattempt] at ho
      cases ho
      exact (settles_attempt source h o h' hattempt).2.2

/-- Whatever it is given and whatever happens on its way, a run ends with an outcome of the one shape. Where it says that
there was no plan, or no tool, no process was asked for. -/
theorem execute_total (s : Settings) (l : Language) (source : Source) (h : Host) :
    ∃ o h', (ofLanguage s l).execute s source h = (.ok o, h') ∧ o.Shaped ∧
      (o.error = some .transpileFailed ∨ o.error = some .toolNotInstalled → h'.calls = h.calls) := by
  unfold execute
  split
  · exact ⟨_, _, rfl, Outcome.shaped_success _ _ _ _, fun _ => rfl⟩
  · rw [Action.run_tryCatch]
    rcases hattempt : (ofLanguage s l).attempt s source h with ⟨stop | o, h'⟩
    · refine ⟨_, _, rfl, ?_, ?_⟩
      · exact Outcome.shaped_failure_of_ne (by simp) _ _ _
      · rintro (hkind | hkind) <;> cases hkind
    · obtain ⟨hshaped, hquiet, -⟩ := settles_attempt source h o h' hattempt
      exact ⟨o, h', rfl, hshaped, hquiet⟩

end Runner
end Runbook
