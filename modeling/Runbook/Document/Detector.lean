import Runbook.Document.Artifact
import Runbook.Document.Manifest
import Runbook.Markup.Fence
import Runbook.Markup.Directive
import Runbook.Sql.Statement

/-! Detectors: one for each language, which picks from the fences of a document the artifacts of its kind. -/
namespace Runbook

abbrev Detected := Except ReadFault (List Artifact)

namespace Detector

def isDockerfile (f : Fence) : Bool := f.lang = "dockerfile"

def isTerraform (f : Fence) : Bool := f.lang = "terraform" || f.lang = "hcl"

def isShell (f : Fence) : Bool := f.lang = "bash" || f.lang = "sh" || f.lang = "shell"

def isSql (f : Fence) : Bool := f.lang = "sql"

def dockerfile (fences : List Fence) : List Artifact :=
  (fences.filter isDockerfile).map fun f =>
    { kind := .dockerfile, content := f.content, line := some f.line }

def terraform (fences : List Fence) : List Artifact :=
  (fences.filter isTerraform).map fun f =>
    { kind := .terraform, content := f.content.strip, line := some f.line }

/-- Fences that may hold a manifest: no other detector claims them, and both keys occur in them. -/
def mayBeManifest (f : Fence) : Bool :=
  !(isDockerfile f || isTerraform f || isShell f || isSql f) && f.filePath.isNone &&
    f.content.includes "apiVersion" && f.content.includes "kind"

def kubernetes : List Fence → Detected
  | [] => .ok []
  | f :: fs => do
    if mayBeManifest f then
      match ← Manifest.kind? f.content with
      | some kind => do
        let a : Artifact :=
          { kind := .kubernetes, content := f.content.strip, line := some f.line, detail := some kind.lower }
        .ok (a :: (← kubernetes fs))
      | none => kubernetes fs
    else kubernetes fs

/-- Whether a directive declares that the shell fences of its document are to be run. -/
def declaresExecutable (d : Directive) : Bool :=
  d.space = .polyglot && (d.name = "executable" || d.value = some "executable".toList)

def shellKind? (f : Fence) : Option ArtifactKind :=
  if isShell f then some .bash
  else if f.lang = [] ∧ f.content.startsWith "#!" then some .executable
  else none

def executable (fences : List Fence) (directives : List Directive) : List Artifact :=
  if directives.any declaresExecutable then
    fences.filterMap fun f => (shellKind? f).map fun kind =>
      { kind, content := f.content.strip, executable := true, line := some f.line }
  else []

def file (fences : List Fence) : List Artifact :=
  fences.filterMap fun f => f.filePath.map fun path =>
    { kind := .file, content := f.content, location := some path, line := some f.line }

def sql (fences : List Fence) : List Artifact :=
  (fences.filter isSql).map fun f =>
    { kind := .sql, content := f.content.strip, executable := true, line := some f.line
      detail := some (Sql.operation f.content.strip) }

/-- The detector of a language. -/
def detect (language : Language) (fences : List Fence) (directives : List Directive) : Detected :=
  match language with
  | .dockerfile => .ok (dockerfile fences)
  | .terraform => .ok (terraform fences)
  | .kubernetes => kubernetes fences
  | .executable => .ok (executable fences directives)
  | .git => .ok (file fences)
  | .sql => .ok (sql fences)
  | .none => .ok []

/-- The languages in the order in which the first one with an artifact decides. -/
def priority : List Language := [.dockerfile, .terraform, .kubernetes, .executable, .git, .sql]

end Detector
end Runbook
