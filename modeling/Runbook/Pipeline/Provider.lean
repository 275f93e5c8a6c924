import Runbook.Host.Basic

/-! Where documents come from. A document that is not there is none; only what nobody expects stops the caller. -/
namespace Runbook

inductive Provider
  | memory (documents : Fields Text)
  | failing
  | files (root : Place)
  deriving Repr, Inhabited

namespace Provider

/-- A document of a directory. An id that leads out of the root names none, nor does what is not UTF-8. -/
def readFile (root : Place) (id : Text) : Action (Option Text) := do
  if '\x00' ∈ id then throw .nul
  let place := Place.follow root (Path.ofText id)
  if Place.isWithin place root then
    let h ← Action.host
    match h.files.stat h.cwd (Path.ofPlace place) with
    | .ok (.file content) => return (Text.ofUtf8? content).map Text.anyLines
    | .error .nameTooLong => throw (.file ⟨.nameTooLong, Path.ofPlace place⟩)
    | _ => return none
  else return none

def get (id : Text) : Provider → Action (Option Text)
  | .memory documents => return Fields.get? id documents
  | .failing => throw (.provider id)
  | .files root => readFile root id

end Provider
end Runbook
