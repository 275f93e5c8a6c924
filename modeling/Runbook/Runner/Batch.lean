import Runbook.Runner.Basic
import Runbook.Document.Manifest

/-!
Runs of one process a unit: manifests, the commands of a repository, and statements. A unit that fails is recorded and
the next one runs all the same.
-/
namespace Runbook.Runner

variable (r : Runner) (s : Settings)

/-- The units of a batch that runs in name only. -/
def mockUnits (labels : List Text) (output : Text) : List UnitOutcome :=
  labels.map fun label => { unit := label, isOk := true, output }

/-- Runs all commands in order, whatever becomes of each. -/
def runUnits (one : Text → Text → Action ProcessRun) : List (Text × Text) → Action (List UnitOutcome)
  | [] => return []
  | (label, unit) :: rest => do
    let run ← one label unit
    return run.toUnit label :: (← runUnits one rest)

def contextOf : Option Text :=
  if s.kubeContext.isTrue then some s.kubeContext.toText else none

/-- The label of each manifest, or the first fault that its YAML has. -/
def manifestLabels (index : Nat) : List Text → Except ReadFault (List Text)
  | [] => .ok []
  | m :: ms => do
    let label ← Manifest.label index m
    .ok (label :: (← manifestLabels (index + 1) ms))

def runKubernetes (p : KubernetesApply) : Action Outcome := do
  match manifestLabels 1 p.manifests with
  | .error f => throw (.unread f)
  | .ok labels =>
    let argv := KubernetesApply.command p.scope (contextOf s)
    if r.isAvailable (← Action.host) then
      let units ← runUnits (fun _ manifest => command s argv none (some manifest) none)
        (labels.zip p.manifests)
      let applied := (units.filter (·.isOk)).length
      Action.log .info "executors.kubernetes" ("Applied " ++ Text.ofNat applied ++ " manifest(s), " ++
        Text.ofNat (units.length - applied) ++ " failed")
      return Outcome.batch r.name units false (Fields.one "namespace" (.ofOption p.scope)) (← Action.now)
    else
      r.mock s (spaced argv) fun note now =>
        Outcome.batch r.name (mockUnits labels "kubectl not installed - mock execution") true
          (Fields.one "note" (.text note)) now

/-- The environment that names the author of a commit. -/
def authorEnvironment (environment : Fields Text) : Fields Text :=
  let name := s.authorName.toText
  let email := s.authorEmail.toText
  Fields.merge environment (
    Fields.one "GIT_AUTHOR_NAME" name ++ Fields.one "GIT_AUTHOR_EMAIL" email ++
    Fields.one "GIT_COMMITTER_NAME" name ++ Fields.one "GIT_COMMITTER_EMAIL" email)

/-- Writes one file with the directories above it. -/
def writeFile (root : Place) (path content : Text) : Action (Option Text) := do
  if '\x00' ∈ path then throw .nul
  match Place.inside? root (Path.ofText path) with
  | none =>
    Action.log .error "executors.git" ("Refusing to write " ++ path ++ ": path escapes the workspace")
    return some "path escapes the workspace".toList
  | some place =>
    let file := Path.ofPlace place
    try
      Action.makeDirectories file.parent
      Action.changeFiles fun files cwd => files.writeText cwd file content
      pure none
    catch
      | .file f =>
        Action.log .error "executors.git" ("Cannot write " ++ path ++ ": " ++ f.message)
        pure (some f.message)
      | stop => throw stop

/-- Writes every file it can, and tells which it could not write and why. -/
def writeFiles (root : Place) : Fields Text → Action (Fields Text)
  | [] => return []
  | (path, content) :: rest => do
    let error ← writeFile root path content
    let errors ← writeFiles root rest
    return match error with
      | some e => (path, e) :: errors
      | none => errors

def fileError (path error : Text) : Value :=
  .ofFields (Fields.one "path" (.text path) ++ Fields.one "error" (.text error))

/-- The errors of the files and the outcomes of the commands that follow them. -/
def materialize (p : GitRepository) (repository : Path) :
    Action (Fields Text × List UnitOutcome) := do
  let h ← Action.host
  let environment := authorEnvironment s h.environment
  let errors ← writeFiles (Place.follow h.cwd repository) p.files
  let units ← runUnits
    (fun _ line => command s ["sh", "-c", line] (some repository) none (some environment))
    (p.initCommands.map fun line => (line, line))
  return (errors, units)

def runGit (p : GitRepository) : Action Outcome := do
  if r.isAvailable (← Action.host) then
    let (errors, units) ← r.inWorkspace s (materialize s p)
    return Outcome.batch r.name units false (
      Fields.one "files_created" (.int (p.files.length - errors.length : Nat)) ++
      Fields.one "file_errors" (.list (errors.map fun (path, e) => fileError path e)) ++
      Fields.one "git_output" (.list (units.map fun u => .text u.output))) (← Action.now)
  else
    r.mockSuccess s (Text.join "; " p.initCommands) (
      Fields.one "files_created" (.int 0) ++
      Fields.one "files" (.list ((Text.sortBy id p.files.keys).map .text)))

def scratchDatabase : Text := "polyglot.db"

/-- The command for a statement, and what it reads: one client takes the statement as an argument, the other as
its input. A database without a name counts as none. -/
def sqlCommand (client : Text) (database : Option Text) (statement : Text) :
    List Text × Option Text :=
  let database := database.filter (· ≠ [])
  if client = "psql" then
    let connection := match database with
      | some d => ["-d".toList, d]
      | none => []
    (Text.ofStrings ["psql", "-X", "-q", "-v", "ON_ERROR_STOP=1"] ++ connection ++
      ["-c".toList, statement], none)
  else
    (Text.ofStrings ["sqlite3", "-batch", "-bail"] ++ [database.getD scratchDatabase], some statement)

/-- The database of a batch: without one, a file of the workspace that all statements share. -/
def databaseIn (client : Text) (database : Option Text) (directory : Path) : Option Text :=
  if database.isNone ∧ client = "sqlite3" then some (directory.child scratchDatabase).toText else database

def runSql (p : SqlBatch) : Action Outcome := do
  let client := s.sqlClient.toText
  let labels := p.statements.map (Sql.label 60)
  if r.isAvailable (← Action.host) then
    let units ← r.inWorkspace s fun directory =>
      let database := databaseIn client p.database directory
      runUnits (fun _ statement =>
        let (argv, input) := sqlCommand client database statement
        command s argv (some directory) input none) (labels.zip p.statements)
    return Outcome.batch r.name units false (
      Fields.one "executed" (.int units.length) ++
      Fields.one "database" (.ofOption p.database)) (← Action.now)
  else
    r.mock s (Text.ofNat labels.length ++ " statement(s) via " ++ client) fun note now =>
      Outcome.batch r.name (mockUnits labels (client ++ " not installed - mock execution")) true (
        Fields.one "executed" (.int labels.length) ++ Fields.one "note" (.text note)) now

end Runbook.Runner
