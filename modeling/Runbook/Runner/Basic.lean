import Runbook.Host.Workspace
import Runbook.Outcome.Basic
import Runbook.Settings.Basic

/-!
Runners: one for each language, with the tools any one of which lets it run. A runner whose tools are all missing
tells what it would have done, or fails where the settings ask for that.
-/
namespace Runbook

structure Runner where
  name : Text
  target : Option Target
  tools : List Text
  deriving DecidableEq, Repr, Inhabited

namespace Runner

/-- The texts in order, each at its first place only. -/
def distinct : List Text → List Text
  | [] => []
  | t :: ts => t :: (distinct ts).filter (· ≠ t)

def ofLanguage (s : Settings) : Language → Runner
  | .dockerfile => ⟨"docker", some .docker, ["docker"]⟩
  | .terraform => ⟨"terraform", some .terraform, ["terraform"]⟩
  | .kubernetes => ⟨"kubernetes", some .kubernetes, ["kubectl"]⟩
  | .executable => ⟨"shell", some .bash, distinct [s.preferredShell.toText, "bash", "sh"]⟩
  | .git => ⟨"git", some .git, ["git"]⟩
  | .sql => ⟨"sql", some .sql, [s.sqlClient.toText]⟩
  | .none => ⟨"noop", none, []⟩

/-- The target that runs the documents of a language. -/
def targetOf (l : Language) : Option Target := (ofLanguage {} l).target

/-- The first tool that is on the search path. -/
def tool? (r : Runner) (h : Host) : Option Text := r.tools.find? (· ∈ h.tools)

def isAvailable (r : Runner) (h : Host) : Bool := r.tools.isEmpty || (r.tool? h).isSome

def toFields (r : Runner) (h : Host) : Fields Value :=
  Fields.one "name" (.text r.name) ++
  Fields.one "target" (.ofOption (r.target.map fun t => t.name.toList)) ++
  Fields.one "binaries" (.list (r.tools.map .text)) ++
  Fields.one "available" (.bool (r.isAvailable h))

/-- The first line that the tool says of its version. -/
def version (r : Runner) : Action (Option Text) := do
  match r.tool? (← Action.host) with
  | none => return none
  | some tool =>
    let run ← Call.run { command := [tool, "--version"], timeout := some (.whole 10) }
    let said := run.output.strip
    return if !run.isOk ∨ said.isEmpty then none else some (said.cut '\n').1

def mainTool (r : Runner) : Text := r.tools.headD r.name

/-- What a runner says that would have run, were its tool there. -/
def note (r : Runner) (wouldRun : Text) : Text :=
  r.mainTool ++ " not installed - would execute: " ++ wouldRun

/-- The outcome of a run whose tool is missing: a success in name, or a failure where the settings want no such. -/
def mock (r : Runner) (s : Settings) (wouldRun : Text) (onNote : Text → Moment → Outcome) :
    Action Outcome := do
  let now ← Action.now
  if s.mockMissingTools.isTrue then
    Action.log .warning "executors.base" (r.note wouldRun)
    return onNote (r.note wouldRun) now
  else
    Action.log .error "executors.base" (r.mainTool ++ " is not installed")
    return Outcome.failure r.name .toolNotInstalled (r.mainTool ++ " not installed") (-1) [] now

/-- A mock with a note and more details. -/
def mockSuccess (r : Runner) (s : Settings) (wouldRun : Text) (details : Fields Value) :
    Action Outcome :=
  r.mock s wouldRun fun note now =>
    Outcome.success r.name true (Fields.one "note" (.text note) ++ details) now

def spaced (ts : List Text) : Text := Text.join " " ts

/-- Runs a command under the time limit of the settings. -/
def command (s : Settings) (argv : List Text) (directory : Option Path) (input : Option Text)
    (environment : Option (Fields Text)) : Action ProcessRun := do
  Action.log .info "executors.base" ("Running " ++ spaced argv)
  let run ← Call.run
    { command := argv, directory, input, environment, timeout := some (.whole s.timeout) }
  if !run.isOk then
    Action.log .error "executors.base" (argv.headD [] ++ " exited with " ++ Text.ofInt run.code ++
      " (" ++ run.outcome.name ++ ")")
  return run

def workspaceRoot (s : Settings) : Option Path :=
  match s.workspaceRoot with
  | .null => none
  | v => some (Path.ofText v.toText)

/-- Gives the body a workspace of the runner. -/
def inWorkspace {α : Type} (r : Runner) (s : Settings) (body : Path → Action α) : Action α := do
  let allocator ← Allocator.create ("polyglot_" ++ r.name ++ "_") (workspaceRoot s)
  allocator.acquire body

def writeText (p : Path) (t : Text) : Action Unit :=
  Action.changeFiles fun files cwd => files.writeText cwd p t

end Runner
end Runbook
