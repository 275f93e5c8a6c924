import Runbook.Runner.Single
import Runbook.Runner.Batch
import Runbook.Document.Annotation

/-!
Execution of a document, or of a plan made before, by a runner. Whatever happens there is an outcome: an unmet plan, a
plan for another target and every stop become failures.
-/
namespace Runbook

/-- What a runner is given. -/
inductive Source
  | document (d : Document)
  | plan (p : Except PlanFault Plan)

namespace Runner

/-- The plan of a document for the target of the runner. -/
def plan (r : Runner) (s : Settings) (d : Document) : Except Stop (Except PlanFault Plan) :=
  match r.target with
  | some t => .ok (Plan.draft t d.artifacts d.metadata s.planDefaults)
  | none => .error (.noTarget r.name)

def planOf (r : Runner) (s : Settings) : Source → Except Stop (Except PlanFault Plan)
  | .document d => r.plan s d
  | .plan p => .ok p

def runPlan (r : Runner) (s : Settings) : Plan → Action Outcome
  | .docker p => r.runDocker s p
  | .terraform p => r.runTerraform s p
  | .kubernetes p => r.runKubernetes s p
  | .git p => r.runGit s p
  | .bash p => r.runScript s p
  | .sql p => r.runSql s p

/-- A failure before anything is run. -/
def refuse (r : Runner) (reason : Text) : Action Outcome :=
  return Outcome.failure r.name .transpileFailed reason (-1) [] (← Action.now)

def attempt (r : Runner) (s : Settings) (source : Source) : Action Outcome := do
  match ← MonadExcept.ofExcept (r.planOf s source) with
  | .error f =>
    Action.log .error "executors.base" ("Cannot execute " ++ r.name ++ ": " ++ f.reason)
    r.refuse f.reason
  | .ok p =>
    if r.target = some p.target then r.runPlan s p
    else r.refuse (p.target.name ++ " configuration given to ".toList ++ r.name ++ " executor")

def documentation (r : Runner) : Action Outcome :=
  return Outcome.success r.name false (Fields.one "message" (.text "documentation only")) (← Action.now)

/-- Runs what it is given; a runner without target has nothing to run. -/
def execute (r : Runner) (s : Settings) (source : Source) : Action Outcome :=
  if r.target.isNone then r.documentation
  else
    tryCatch (r.attempt s source) fun stop => do
      Action.log .error "executors.base" (r.name ++ " executor failed unexpectedly")
      return Outcome.failure r.name .unhandled stop.message (-1) [] (← Action.now)

end Runner
end Runbook
