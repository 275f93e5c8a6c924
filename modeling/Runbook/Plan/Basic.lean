import Runbook.Document.Artifact
import Runbook.Value.Show

/-!
Plans: everything that a tool is given in order to run a document, with the commands spelled out. A plan is data and
runs nothing.
-/
namespace Runbook

inductive Target
  | docker
  | terraform
  | kubernetes
  | git
  | bash
  | sql
  deriving DecidableEq, Repr, Inhabited

namespace Target

def name : Target → String
  | .docker => "docker"
  | .terraform => "terraform"
  | .kubernetes => "kubernetes"
  | .git => "git"
  | .bash => "bash"
  | .sql => "sql"

def all : List Target := [.docker, .terraform, .kubernetes, .git, .bash, .sql]

def ofText? (t : Text) : Option Target := all.find? fun g => g.name.toList = t

end Target

structure DockerBuild where
  dockerfile : Text
  tag : Text
  command : List Text
  deriving DecidableEq, Repr, Inhabited

structure TerraformPlan where
  configuration : Text
  vars : Fields Text
  planCommand : List Text
  applyCommand : List Text
  deriving DecidableEq, Repr, Inhabited

/-- Each manifest is applied on its own. -/
structure KubernetesApply where
  manifests : List Text
  scope : Option Text
  applyCommand : List Text
  deriving DecidableEq, Repr, Inhabited

/-- Files under their paths, and the shell commands that make a repository of them. -/
structure GitRepository where
  files : Fields Text
  initCommands : List Text
  deriving DecidableEq, Repr, Inhabited

structure ShellScript where
  script : Text
  shebang : Text
  environment : Fields Text
  deriving DecidableEq, Repr, Inhabited

/-- Each statement is run on its own. -/
structure SqlBatch where
  statements : List Text
  database : Option Text
  deriving DecidableEq, Repr, Inhabited

inductive Plan
  | docker (p : DockerBuild)
  | terraform (p : TerraformPlan)
  | kubernetes (p : KubernetesApply)
  | git (p : GitRepository)
  | bash (p : ShellScript)
  | sql (p : SqlBatch)
  deriving DecidableEq, Repr, Inhabited

/-- Why a document has no plan for a target. -/
inductive PlanFault
  | noDockerfile
  | noTerraform
  | noManifests
  | noFiles
  | noExecutable
  | noSql
  | noStatements
  | notARecord (t : Target)
  deriving DecidableEq, Repr, Inhabited

namespace PlanFault

def target : PlanFault → Target
  | .noDockerfile => .docker
  | .noTerraform => .terraform
  | .noManifests => .kubernetes
  | .noFiles => .git
  | .noExecutable => .bash
  | .noSql | .noStatements => .sql
  | .notARecord t => t

def reason : PlanFault → String
  | .noDockerfile => "no_dockerfile_found"
  | .noTerraform => "no_terraform_found"
  | .noManifests => "no_manifests_found"
  | .noFiles => "no_files_found"
  | .noExecutable => "no_executable_found"
  | .noSql => "no_sql_found"
  | .noStatements => "no_statements_found"
  | .notARecord _ => "not_a_record"

def toValue (f : PlanFault) : Value :=
  .ofFields (
    Fields.one "ok" (.bool false) ++ Fields.one "target" (.text f.target.name) ++
    Fields.one "error" (.text f.reason))

end PlanFault

namespace Plan

def target : Plan → Target
  | .docker _ => .docker
  | .terraform _ => .terraform
  | .kubernetes _ => .kubernetes
  | .git _ => .git
  | .bash _ => .bash
  | .sql _ => .sql

def texts (ts : List Text) : Value := .list (ts.map .text)

def textRecord (es : Fields Text) : Value := .ofFields (es.map fun (k, v) => (k, .text v))

def fields : Plan → Fields Value
  | .docker p =>
    Fields.one "dockerfile" (.text p.dockerfile) ++ Fields.one "tag" (.text p.tag) ++
    Fields.one "command" (texts p.command)
  | .terraform p =>
    Fields.one "configuration" (.text p.configuration) ++
    Fields.one "variables" (textRecord p.vars) ++
    Fields.one "plan_command" (texts p.planCommand) ++
    Fields.one "apply_command" (texts p.applyCommand)
  | .kubernetes p =>
    Fields.one "manifests" (texts p.manifests) ++ Fields.one "namespace" (.ofOption p.scope) ++
    Fields.one "apply_command" (texts p.applyCommand)
  | .git p =>
    Fields.one "files" (textRecord p.files) ++ Fields.one "init_commands" (texts p.initCommands)
  | .bash p =>
    Fields.one "script" (.text p.script) ++ Fields.one "shebang" (.text p.shebang) ++
    Fields.one "environment" (textRecord p.environment)
  | .sql p =>
    Fields.one "statements" (texts p.statements) ++ Fields.one "database" (.ofOption p.database)

def toValue (p : Plan) : Value :=
  .ofFields (
    Fields.one "ok" (.bool true) ++ Fields.one "target" (.text p.target.name) ++ p.fields)

end Plan
end Runbook
