import Runbook.Value.Basic

/-! What a document holds to be run: artifacts of several kinds, and the one language that decides how it is run. -/
namespace Runbook

inductive Language
  | dockerfile
  | terraform
  | kubernetes
  | executable
  | git
  | sql
  | none
  deriving DecidableEq, Repr, Inhabited

namespace Language

def name : Language → String
  | .dockerfile => "dockerfile"
  | .terraform => "terraform"
  | .kubernetes => "kubernetes"
  | .executable => "executable"
  | .git => "git"
  | .sql => "sql"
  | .none => "none"

def all : List Language := [.dockerfile, .terraform, .kubernetes, .executable, .git, .sql, .none]

def ofText? (t : Text) : Option Language := all.find? fun l => l.name.toList = t

end Language

inductive ArtifactKind
  | dockerfile
  | terraform
  | kubernetes
  | sql
  | file
  | bash
  | executable
  deriving DecidableEq, Repr, Inhabited

namespace ArtifactKind

def name : ArtifactKind → String
  | .dockerfile => "dockerfile"
  | .terraform => "terraform"
  | .kubernetes => "kubernetes"
  | .sql => "sql"
  | .file => "file"
  | .bash => "bash"
  | .executable => "executable"

def all : List ArtifactKind :=
  [.dockerfile, .terraform, .kubernetes, .sql, .file, .bash, .executable]

def ofText? (t : Text) : Option ArtifactKind := all.find? fun k => k.name.toList = t

end ArtifactKind

/-- One block of a document: its text, the path of a file, whether it is meant to be run, the line of its opening
fence, and what it is about more closely. -/
structure Artifact where
  kind : ArtifactKind
  content : Text
  location : Option Text := none
  executable : Bool := false
  line : Option Int := none
  detail : Option Text := none
  deriving DecidableEq, Repr, Inhabited

def Artifact.toValue (a : Artifact) : Value :=
  .ofFields (
    Fields.one "type" (.text a.kind.name) ++ Fields.one "content" (.text a.content) ++
    Fields.one "executable" (.bool a.executable) ++ Fields.opt "location" (a.location.map .text) ++
    Fields.opt "line" (a.line.map .int) ++ Fields.opt "kind" (a.detail.map .text))

end Runbook
