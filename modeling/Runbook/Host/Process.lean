import Runbook.Host.Basic
import Runbook.Number.Shortest
import Runbook.Text.Utf8

/-!
Processes. A command that is not on the search path starts none. Of the ways in which a process can end, all but one
become a result; the one that is left stops the caller.
-/
namespace Runbook

inductive ProcessOutcome
  | absent
  | completed
  | raised
  | timeout
  deriving DecidableEq, Repr, Inhabited

def ProcessOutcome.name : ProcessOutcome → String
  | .absent => "absent"
  | .completed => "completed"
  | .raised => "raised"
  | .timeout => "timeout"

/-- How one command went: its exit code, which is -1 unless the process completed, and its output or why there is
none. -/
structure ProcessRun where
  outcome : ProcessOutcome
  code : Int
  output : Text
  command : List Text
  deriving DecidableEq, Repr, Inhabited

def ProcessRun.isOk (r : ProcessRun) : Bool := r.outcome = .completed && r.code = 0

namespace Ending

def usual : Ending := .exit 0 (some "ok\n") []

end Ending

namespace Call

/-- Asks for a process and takes the next ending. -/
def start (call : Call) : Action Ending := do
  let h ← Action.host
  let files := call.directory.map fun d => h.files.listing (Place.follow h.cwd d)
  set { h with endings := h.endings.tail, calls := h.calls ++ [{ call with files }] }
  return h.endings.headD .usual

def name (call : Call) : Text := call.command.headD []

def expired (call : Call) : Text :=
  name call ++ " timed out after " ++ ((call.timeout.map Seconds.toText).getD []) ++ "s"

/-- The result of a command that has ended. -/
def ended (call : Call) : Ending → Except Stop ProcessRun
  | .exit code output _ => .ok ⟨.completed, code, output.getD [], call.command⟩
  | .expiry output =>
    let partialOutput := Text.ofUtf8Lossy (output.getD [])
    let text := if partialOutput.isEmpty then expired call else partialOutput ++ '\n' :: expired call
    .ok ⟨.timeout, -1, text, call.command⟩
  | .refusal m | .failure m => .ok ⟨.raised, -1, name call ++ " failed to start: " ++ m, call.command⟩
  | .crash m => .error (.crash m)

/-- Runs a command to its end. One that names no tool at all stops the caller. -/
def run (call : Call) : Action ProcessRun :=
  match call.command with
  | [] => throw (.crash "tuple index out of range")
  | tool :: _ => do
    if ← Action.hasTool tool then
      MonadExcept.ofExcept (ended call (← start call))
    else
      return ⟨.absent, -1, tool ++ ": command not found", call.command⟩

end Call
end Runbook
