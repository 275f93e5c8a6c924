import Runbook.Files.Tree
import Runbook.Log.Basic
import Runbook.Yaml.Value

/-!
The host that a document runs on, as a value: the tools on its search path, its environment, files and clock, and what
the next processes will do. An action changes the host and may stop for a cause that nobody below it handles.
-/
namespace Runbook

/-- A time limit as it is set: whole seconds or a part of them. -/
inductive Seconds
  | whole (n : Int)
  | part (x : Binary64)
  deriving DecidableEq, Repr, Inhabited

def Seconds.toText : Seconds → Text
  | .whole n => Text.ofInt n
  | .part x => x.toText

/-- How one process will end, once it is asked for. -/
inductive Ending
  | exit (code : Int) (output : Option Text) (errors : Text)
  | expiry (output : Option (List UInt8))
  | refusal (message : Text)
  | failure (message : Text)
  | crash (message : Text)
  deriving DecidableEq, Repr, Inhabited

/-- A process as it was asked for, with the files of its directory at that time. -/
structure Call where
  command : List Text
  directory : Option Path := none
  input : Option Text := none
  timeout : Option Seconds := none
  environment : Option (Fields Text) := none
  files : Option (List (Text × List UInt8)) := none
  deriving DecidableEq, Repr, Inhabited

structure Host where
  tools : List Text := []
  environment : Fields Text := []
  endings : List Ending := []
  files : FileTree := []
  cwd : Place := []
  scratch : Place := []
  clock : Moment
  processId : Nat := 1
  allocators : Nat := 0
  calls : List Call := []
  workspaces : List Path := []
  journal : List LogRecord := []
  deriving Repr, Inhabited

/-- What stops an action. -/
inductive Stop
  | file (f : FileFault)
  | nul
  | process (message : Text)
  | crash (message : Text)
  | unread (f : ReadFault)
  | provider (id : Text)
  | noTarget (runner : Text)
  | noOutput
  | outOfRange
  deriving DecidableEq, Repr

def Stop.message : Stop → Text
  | .file f => f.message
  | .nul => "lstat: embedded null character in path"
  | .process m => m
  | .crash m => m
  | .unread f => f.message
  | .provider id => "provider failed for " ++ id
  | .noTarget runner => runner ++ " executor has no transpilation target"
  | .noOutput => "'NoneType' object has no attribute 'strip'"
  | .outOfRange => "date value out of range"

abbrev Action (α : Type) := ExceptT Stop (StateM Host) α

namespace Action

variable {α β : Type}

def host : Action Host := get

def now : Action Moment := return (← get).clock

def hasTool (tool : Text) : Action Bool := return tool ∈ (← get).tools

def record (rs : List LogRecord) : Action Unit :=
  modify fun h => { h with journal := h.journal ++ rs }

def log (level : LogLevel) (logger : String) (message : Text) : Action Unit :=
  record [.of level logger message]

/-- A change of the files, stopped by its failure. -/
def changeFiles (f : FileTree → Place → Except FileFault FileTree) : Action Unit := do
  let h ← get
  match f h.files h.cwd with
  | .ok files => set { h with files }
  | .error fault => throw (.file fault)

/-- Makes a directory with all directories above it. A failure does not take back those it has made. -/
def makeDirectories (p : Path) : Action Unit := do
  let h ← get
  match h.files.ensureDirectories h.cwd p with
  | .ok files => set { h with files }
  | .error fault =>
    set { h with files := h.files.leftDirectories h.cwd p }
    throw (.file fault)

/-- A directory cannot be made where the path has an octet of zero in it. -/
def checkPath (p : Path) : Action Unit :=
  if '\x00' ∈ p.toText then throw (.crash "mkdir: embedded null character in path") else pure ()

/-- Runs the second action however the first ends. -/
def andFinally (act : Action α) (last : Action Unit) : Action α := fun h =>
  let (result, h) := act h
  (result, (last h).2)

/-- The result of an action, or what stopped it, in place. -/
def outcome (act : Action α) : Action (Except Stop α) := fun h =>
  let (result, h) := act h
  (.ok result, h)

def run (act : Action α) (h : Host) : Except Stop α × Host := act h

end Action
end Runbook
