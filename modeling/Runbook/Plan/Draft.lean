import Runbook.Plan.Basic
import Runbook.Sql.Statement
import Runbook.Text.Words

/-!
Plans drafted from the artifacts of a document. What the document says of itself wins over the defaults, and a value
that counts as false says nothing.
-/
namespace Runbook

/-- What a plan takes where the document is silent. -/
structure PlanDefaults where
  dockerTag : Text := "polyglot:latest"
  scope : Option Text := none
  commitMessage : Text := "Initial commit from polyglot markdown"
  database : Option Text := none
  deriving DecidableEq, Repr, Inhabited

namespace Plan

/-- The parameters that a document sets. -/
def params (metadata : Fields Value) : Fields Value :=
  match Fields.get? "params" metadata with
  | some (.map es) => Value.textEntries es
  | _ => []

/-- A parameter as text, unless it counts as false. -/
def param? (key : Text) (metadata : Fields Value) : Option Text :=
  ((Fields.get? key (params metadata)).filter Value.isTrue).map Value.toText

/-- A record of texts in the metadata; a false value is an empty one. -/
def record (t : Target) (key : Text) (metadata : Fields Value) : Except PlanFault (Fields Text) :=
  match Fields.get? key metadata with
  | some (.map es) => .ok (es.map fun (k, v) => (k.toText, v.toText))
  | some v => if v.isTrue then .error (.notARecord t) else .ok []
  | none => .ok []

def contents (kind : ArtifactKind) (artifacts : List Artifact) : List Text :=
  (artifacts.filter (·.kind = kind)).map (·.content)

def paragraphs (ts : List Text) : Text := Text.join "\n\n" ts

end Plan

namespace DockerBuild

def fileName : Text := "Dockerfile"

def buildCommand (tag dockerfile : Text) : List Text :=
  ["docker", "build", "-f", dockerfile, "-t", tag, "."]

/-- The first Dockerfile is built and no other. -/
def draft (artifacts : List Artifact) (metadata : Fields Value) (defaults : PlanDefaults) :
    Except PlanFault DockerBuild :=
  match Plan.contents .dockerfile artifacts with
  | [] => .error .noDockerfile
  | dockerfile :: _ =>
    let tag := (Plan.param? "tag" metadata).getD defaults.dockerTag
    .ok ⟨dockerfile, tag, buildCommand tag fileName⟩

end DockerBuild

namespace TerraformPlan

/-- One argument for each variable, in the order of their names. -/
def varArguments (vars : Fields Text) : List Text :=
  (Text.sortBy (·.1) vars).map fun (name, value) => "-var=" ++ name ++ "=" ++ value

/-- All blocks are one configuration. -/
def draft (artifacts : List Artifact) (metadata : Fields Value) :
    Except PlanFault TerraformPlan :=
  match Plan.contents .terraform artifacts with
  | [] => .error .noTerraform
  | blocks => do
    let vars ← Plan.record .terraform "terraform_vars" metadata
    let arguments := varArguments vars
    .ok {
      configuration := Plan.paragraphs blocks
      vars
      planCommand := Text.ofStrings ["terraform", "plan", "-input=false"] ++ arguments
      applyCommand :=
        Text.ofStrings ["terraform", "apply", "-input=false", "-auto-approve"] ++ arguments }

end TerraformPlan

namespace KubernetesApply

def option (flag : Text) : Option Text → List Text
  | some (c :: t) => [flag, c :: t]
  | _ => []

/-- Applies the manifest on standard input; an empty context or namespace is none. -/
def command (scope context : Option Text) : List Text :=
  Text.ofStrings ["kubectl"] ++ option "--context" context ++
    Text.ofStrings ["apply", "-f", "-"] ++ option "-n" scope

def draft (artifacts : List Artifact) (metadata : Fields Value) (defaults : PlanDefaults) :
    Except PlanFault KubernetesApply :=
  match Plan.contents .kubernetes artifacts with
  | [] => .error .noManifests
  | manifests =>
    let scope := (Plan.param? "namespace" metadata).or defaults.scope
    .ok ⟨manifests, scope, command scope none⟩

end KubernetesApply

namespace GitRepository

/-- The path of a file block; an empty path is none. -/
def path? (a : Artifact) : Option Text :=
  if a.kind = .file then a.location.filter (· ≠ []) else none

/-- The files by path; of two blocks with one path the later holds. -/
def filesOf (artifacts : List Artifact) : Fields Text :=
  artifacts.foldl (fun files a =>
    match path? a with
    | some path => Fields.put path a.content files
    | none => files) []

def commands (message : Text) : List Text :=
  ["git init", "git add .", "git commit -m " ++ Words.quote message]

def draft (artifacts : List Artifact) (metadata : Fields Value) (defaults : PlanDefaults) :
    Except PlanFault GitRepository :=
  match filesOf artifacts with
  | [] => .error .noFiles
  | files =>
    let message := (Plan.param? "commit_message" metadata).getD defaults.commitMessage
    .ok ⟨files, commands message⟩

end GitRepository

namespace ShellScript

def defaultShebang : Text := "#!/bin/bash"

/-- A first line that names an interpreter, and the text below it. -/
def splitShebang (t : Text) : Option Text × Text :=
  if t.startsWith "#!" then
    let (first, rest) := t.cut '\n'
    (some first.strip, rest.getD [])
  else (none, t)

def isScript (a : Artifact) : Bool := a.kind = .bash || a.kind = .executable

/-- All scripts are one, under the shebang of the first. -/
def draft (artifacts : List Artifact) (metadata : Fields Value) : Except PlanFault ShellScript :=
  match (artifacts.filter isScript).map (·.content) with
  | [] => .error .noExecutable
  | first :: rest => do
    let environment ← Plan.record .bash "environment" metadata
    let bodies := (first :: rest).map fun t => (splitShebang t).2.trim (· = '\n')
    .ok {
      script := Plan.paragraphs bodies
      shebang := (splitShebang first).1.getD defaultShebang
      environment }

end ShellScript

namespace SqlBatch

/-- The statements of all blocks in order. -/
def draft (artifacts : List Artifact) (metadata : Fields Value) (defaults : PlanDefaults) :
    Except PlanFault SqlBatch :=
  match Plan.contents .sql artifacts with
  | [] => .error .noSql
  | blocks =>
    match blocks.flatMap Sql.statements with
    | [] => .error .noStatements
    | statements => .ok ⟨statements, (Plan.param? "database" metadata).or defaults.database⟩

end SqlBatch

/-- The plan of a document for a target. -/
def Plan.draft (t : Target) (artifacts : List Artifact) (metadata : Fields Value)
    (defaults : PlanDefaults) : Except PlanFault Plan :=
  match t with
  | .docker => .docker <$> DockerBuild.draft artifacts metadata defaults
  | .terraform => .terraform <$> TerraformPlan.draft artifacts metadata
  | .kubernetes => .kubernetes <$> KubernetesApply.draft artifacts metadata defaults
  | .git => .git <$> GitRepository.draft artifacts metadata defaults
  | .bash => .bash <$> ShellScript.draft artifacts metadata
  | .sql => .sql <$> SqlBatch.draft artifacts metadata defaults

end Runbook
