import Runbook.Host.Basic

/-!
Workspaces: fresh directories that are removed however their use ends. A name holds the process, a token of the
allocator and a counter, so no two workspaces share one.
-/
namespace Runbook

/-- Hands out workspaces below a root, or below the scratch directory of the host. -/
structure Allocator where
  stem : Text
  root : Option Path
  token : Nat
  next : Nat := 1
  deriving DecidableEq, Repr, Inhabited

namespace Allocator

def create (stem : Text) (root : Option Path) : Action Allocator := do
  let h ← Action.host
  set { h with allocators := h.allocators + 1 }
  return { stem, root, token := h.allocators }

def nextName (a : Allocator) (processId : Nat) : Text :=
  a.stem ++ Text.ofNat processId ++ "_" ++ Text.hex 8 a.token ++ "_" ++ Text.ofNat a.next

def advance (a : Allocator) : Allocator := { a with next := a.next + 1 }

/-- The directory below which workspaces are made. -/
def base (a : Allocator) (h : Host) : Path := a.root.getD (Path.ofPlace h.scratch)

/-- The path of the next workspace. -/
def nextPath (a : Allocator) (h : Host) : Path := (a.base h).below (Path.ofText (a.nextName h.processId))

/-- The directory of a workspace is made, and must not be there. -/
def makeAt (path : Path) (files : FileTree) (cwd : Place) : Except FileFault FileTree :=
  match files.makeDirectory cwd path with
  | .ok files => .ok files
  | .error cause => .error ⟨cause, path⟩

/-- Makes a workspace of the next name. -/
def enter (a : Allocator) : Action Path := do
  let h ← Action.host
  Action.checkPath (a.base h)
  Action.makeDirectories (a.base h)
  Action.checkPath (a.nextPath h)
  Action.changeFiles (makeAt (a.nextPath h))
  modify fun h' => { h' with workspaces := h'.workspaces ++ [a.nextPath h] }
  Action.log .debug "executors.workspace" ("Acquired workspace " ++ (a.nextPath h).toText)
  return a.nextPath h

/-- Removes a workspace with all that is in it. -/
def leave (path : Path) : Action Unit := do
  Action.changeFiles fun files cwd => .ok (files.remove (Place.follow cwd path))
  Action.log .debug "executors.workspace" ("Released workspace " ++ path.toText)

/-- Gives the body a workspace of the next name, and removes it afterwards. -/
def acquire {α : Type} (a : Allocator) (body : Path → Action α) : Action α := do
  let path ← a.enter
  (body path).andFinally (leave path)

end Allocator
end Runbook
