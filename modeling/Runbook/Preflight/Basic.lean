import Runbook.Runner.Basic

/-!
The preflight check: which of the tools that runners use are there, in which version, and whether a missing one is
an error or only means that its documents run in name.
-/
namespace Runbook

structure ToolCheck where
  name : Text
  isAvailable : Bool
  version : Option Text := none
  isRequired : Bool := false
  path : Option Text := none
  message : Text := []
  target : Text := []
  deriving DecidableEq, Repr, Inhabited

def ToolCheck.toValue (c : ToolCheck) : Value :=
  .ofFields (
    Fields.one "name" (.text c.name) ++ Fields.one "target" (.text c.target) ++
    Fields.one "available" (.bool c.isAvailable) ++ Fields.one "version" (.ofOption c.version) ++
    Fields.one "required" (.bool c.isRequired) ++ Fields.one "path" (.ofOption c.path) ++
    Fields.one "message" (.text c.message))

structure Preflight where
  isOk : Bool := true
  checks : List ToolCheck := []
  errors : List Text := []
  warnings : List Text := []
  deriving DecidableEq, Repr, Inhabited

namespace Preflight

/-- A missing tool is an error when it is required, and a warning otherwise. -/
def add (p : Preflight) (c : ToolCheck) : Preflight :=
  let p := { p with checks := p.checks ++ [c] }
  if c.isAvailable then p
  else if c.isRequired then
    { p with isOk := false, errors := p.errors ++ ["Required tool not found: " ++ c.name] }
  else
    { p with
      warnings := p.warnings ++ [c.name ++ " not found: " ++ c.target ++ " will run in mock mode"] }

def allAvailable (p : Preflight) : Bool := p.checks.all (·.isAvailable)

def toValue (p : Preflight) : Value :=
  .ofFields (
    Fields.one "success" (.bool p.isOk) ++ Fields.one "all_available" (.bool p.allAvailable) ++
    Fields.one "checks" (.list (p.checks.map ToolCheck.toValue)) ++
    Fields.one "errors" (.list (p.errors.map .text)) ++
    Fields.one "warnings" (.list (p.warnings.map .text)))

/-- The first line of what a process says on success, or of its error output if it says nothing. -/
def versionOf : Ending → Except Stop (Option Text)
  | .exit 0 none _ => .error .noOutput
  | .exit 0 (some output) errors =>
    let said := if output.strip.isEmpty then errors.strip else output.strip
    .ok (if said.isEmpty then none else some (said.cut '\n').1)
  | .exit _ _ _ | .expiry _ | .refusal _ => .ok none
  | .failure m => .error (.process m)
  | .crash m => .error (.crash m)

/-- Asks a command for its version, whether or not it is on the search path. -/
def version (timeout : Seconds) (command : Text) (arguments : List Text) : Action (Option Text) := do
  MonadExcept.ofExcept
    (versionOf (← Call.start { command := command :: arguments, timeout := some timeout }))

def pathOf (tool : Text) : Text := "/usr/bin/" ++ tool

/-- Checks one tool. What it is for is told when it is there, and where to get it when it is not. -/
def checkTool (timeout : Seconds) (target tool : Text) (arguments : List Text) (purpose hint : Text) :
    Action ToolCheck := do
  if ← Action.hasTool tool then
    return {
      name := tool, isAvailable := true, version := ← version timeout tool arguments
      path := some (pathOf tool), message := purpose, target }
  else
    let message := if hint.isEmpty then "Not installed".toList else "Install from: " ++ hint
    return { name := tool, isAvailable := false, message, target }

def versionArguments : List Text := ["--version"]

/-- Checks the preferred shell, or the plain one that stands in for it. -/
def checkShell (timeout : Seconds) (preferred : Text) : Action ToolCheck := do
  let h ← Action.host
  match (Runner.distinct [preferred, "sh"]).find? (· ∈ h.tools) with
  | some shell =>
    let check ← checkTool timeout "executable" shell versionArguments "Script execution" []
    return if shell = preferred then check
      else { check with message := preferred ++ " missing, falling back to " ++ shell }
  | none =>
    return { name := preferred, isAvailable := false, message := "No POSIX shell found"
             target := "executable" }

def clientHint (client : Text) : Text :=
  if client = "sqlite3" then "https://sqlite.org/download.html"
  else if client = "psql" then "https://www.postgresql.org/download/"
  else []

def checkClient (timeout : Seconds) (client : Text) : Action ToolCheck :=
  checkTool timeout "sql" client versionArguments "SQL statements" (clientHint client)

/-- A tool with its target, the arguments that ask for its version, its purpose and where to get it. -/
structure ToolSpec where
  target : Text
  tool : Text
  arguments : List Text
  purpose : Text
  hint : Text

def toolSpecs : List ToolSpec := [
  ⟨"docker", "docker", ["--version"], "Image builds", "https://docs.docker.com/get-docker/"⟩,
  ⟨"terraform", "terraform", ["version"], "Plans",
    "https://developer.hashicorp.com/terraform/install"⟩,
  ⟨"kubernetes", "kubectl", ["version", "--client"], "Manifest apply",
    "https://kubernetes.io/docs/tasks/tools/"⟩,
  ⟨"git", "git", ["--version"], "Repository materialization", "https://git-scm.com"⟩]

def checkSpecs (timeout : Seconds) : List ToolSpec → Action (List ToolCheck)
  | [] => return []
  | t :: ts => do
    let check ← checkTool timeout t.target t.tool t.arguments t.purpose t.hint
    return check :: (← checkSpecs timeout ts)

/-- Checks the tools of all runners; they are required where the settings want no runs in name. -/
def checkAll (timeout : Seconds) (s : Settings) : Action Preflight := do
  let tools ← checkSpecs timeout toolSpecs
  let shell ← checkShell timeout s.preferredShell.toText
  let client ← checkClient timeout s.sqlClient.toText
  let checks := (tools ++ [shell, client]).map fun c =>
    { c with isRequired := !s.mockMissingTools.isTrue }
  return checks.foldl add {}

end Preflight
end Runbook
