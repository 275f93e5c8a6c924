import Runbook.Runner.Basic

/-! Runs of one tool for a whole document: an image build, a plan of changes and a script. -/
namespace Runbook.Runner

variable (r : Runner) (s : Settings)

/-- Builds in a directory that holds the Dockerfile and nothing else. -/
def runDocker (p : DockerBuild) : Action Outcome := do
  if r.isAvailable (← Action.host) then
    let run ← r.inWorkspace s fun context => do
      writeText (context.child DockerBuild.fileName) p.dockerfile
      command s p.command (some context) none none
    let now ← Action.now
    if run.isOk then Action.log .info "executors.docker" ("Built image " ++ p.tag)
    return if run.isOk then
        Outcome.success r.name false (
          Fields.one "image" (.text p.tag) ++ Fields.one "output" (.text run.output) ++
          Fields.one "built_at" (.text ((Outcome.zoned now).toText 'T'))) now
      else run.toFailure r.name [] now
  else r.mockSuccess s (spaced p.command) (Fields.one "image" (.text p.tag))

def configurationFile : Text := "main.tf"

def initCommand : List Text := Text.ofStrings ["terraform", "init", "-input=false", "-no-color"]

def planCommand (p : TerraformPlan) : List Text :=
  p.planCommand ++ Text.ofStrings ["-no-color"] ++ s.planArguments

/-- The step that failed and its run, or the run of the last step. -/
def terraformSteps (p : TerraformPlan) (directory : Path) : Action (Option Text × ProcessRun) := do
  writeText (directory.child configurationFile) p.configuration
  let first ← command s initCommand (some directory) none none
  if first.isOk then
    let last ← command s (planCommand s p) (some directory) none none
    return (if last.isOk then none else some "plan".toList, last)
  else return (some "init".toList, first)

/-- Plans and never applies. -/
def runTerraform (p : TerraformPlan) : Action Outcome := do
  if r.isAvailable (← Action.host) then
    let (failed, run) ← r.inWorkspace s (terraformSteps s p)
    let now ← Action.now
    return match failed with
      | some step => run.toFailure r.name (Fields.one "step" (.text step)) now
      | none =>
        Outcome.success r.name false (
          Fields.one "plan" (.text run.output) ++
          Fields.one "next_step" (.text (spaced p.applyCommand))) now
  else
    r.mockSuccess s (spaced p.planCommand) (
      Fields.one "plan" (.text "Terraform not installed - would execute: terraform plan") ++
      Fields.one "next_step" (.text "Install terraform to execute"))

/-- Runs the script with the first shell there is, in the environment of the host and the document. -/
def runScript (p : ShellScript) : Action Outcome := do
  let h ← Action.host
  match r.tool? h with
  | some shell =>
    let environment := Fields.merge h.environment p.environment
    let run ← r.inWorkspace s fun directory =>
      command s [shell, "-c", p.script] (some directory) none (some environment)
    let now ← Action.now
    return if run.isOk then
        Outcome.success r.name false (
          Fields.one "output" (.text run.output) ++ Fields.one "exit_code" (.int 0) ++
          Fields.one "shell" (.text shell)) now
      else
        run.toFailure r.name (
          Fields.one "exit_code" (.int run.code) ++ Fields.one "shell" (.text shell)) now
  | none =>
    r.mockSuccess s ("bash -c <script of " ++ Text.ofNat p.script.length ++ " chars>") []

end Runbook.Runner
