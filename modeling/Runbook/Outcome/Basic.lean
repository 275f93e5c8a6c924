import Runbook.Host.Process
import Runbook.Value.Convert

/-!
Outcomes: what is left of a run when it is over. A failure tells its exit code and output in one shape for all tools; a
batch tells how each of its units went and is never a failure itself.
-/
namespace Runbook

inductive FailureKind
  | transpileFailed
  | toolFailed
  | invocationFailed
  | timeout
  | toolNotInstalled
  | notFound
  | unhandled
  deriving DecidableEq, Repr, Inhabited

namespace FailureKind

def name : FailureKind → String
  | .transpileFailed => "transpile_failed"
  | .toolFailed => "tool_failed"
  | .invocationFailed => "invocation_failed"
  | .timeout => "timeout"
  | .toolNotInstalled => "tool_not_installed"
  | .notFound => "not_found"
  | .unhandled => "unhandled"

def all : List FailureKind :=
  [.transpileFailed, .toolFailed, .invocationFailed, .timeout, .toolNotInstalled, .notFound, .unhandled]

def ofText? (t : Text) : Option FailureKind := all.find? fun k => k.name.toList = t

end FailureKind

/-- One unit of a batch: a manifest, a command or a statement. -/
structure UnitOutcome where
  unit : Text
  isOk : Bool
  output : Text := []
  code : Int := 0
  error : Option FailureKind := none
  deriving DecidableEq, Repr, Inhabited

def UnitOutcome.toValue (u : UnitOutcome) : Value :=
  .ofFields (
    Fields.one "unit" (.text u.unit) ++ Fields.one "ok" (.bool u.isOk) ++
    Fields.one "output" (.text u.output) ++ Fields.one "code" (.int u.code) ++
    Fields.opt "error" (u.error.map fun e => .text e.name))

structure Outcome where
  target : Text
  isOk : Bool
  details : Fields Value := []
  error : Option FailureKind := none
  mock : Bool := false
  units : List UnitOutcome := []
  finishedAt : Moment
  deriving Repr, Inhabited

namespace Outcome

/-- A moment without a zone is one of universal time. -/
def zoned (t : Moment) : Moment := { t with offset := some (t.offset.getD 0) }

def success (target : Text) (mock : Bool) (details : Fields Value) (now : Moment) : Outcome :=
  { target, isOk := true, details, mock, finishedAt := zoned now }

def failure (target : Text) (error : FailureKind) (output : Text) (code : Int) (details : Fields Value)
    (now : Moment) : Outcome :=
  { target, isOk := false, error := some error, finishedAt := zoned now
    details := Fields.merge
      (Fields.one "code" (.int code) ++ Fields.one "output" (.text output)) details }

def batch (target : Text) (units : List UnitOutcome) (mock : Bool) (details : Fields Value)
    (now : Moment) : Outcome :=
  let applied := (units.filter (·.isOk)).length
  { target, isOk := true, mock, units, finishedAt := zoned now
    details := Fields.merge
      (Fields.one "applied" (.int applied) ++ Fields.one "failed" (.int (units.length - applied : Nat)) ++
        Fields.one "results" (.list (units.map UnitOutcome.toValue))) details }

def count (key : Text) (o : Outcome) : Except IntegerFault Int :=
  ((Fields.get? key o.details).getD (.int 0)).toInteger

def applied (o : Outcome) : Except IntegerFault Int := o.count "applied"

def failed (o : Outcome) : Except IntegerFault Int := o.count "failed"

def toFields (o : Outcome) : Fields Value :=
  Fields.one "target" (.text o.target) ++ Fields.one "ok" (.bool o.isOk) ++
  Fields.one "mock" (.bool o.mock) ++ Fields.one "details" (.ofFields o.details) ++
  Fields.one "finished_at" (.text (o.finishedAt.toText 'T')) ++
  Fields.opt "error" (o.error.map fun e => .text e.name)

def toValue (o : Outcome) : Value := .ofFields o.toFields

end Outcome

namespace ProcessRun

/-- Why a run failed. -/
def error? (r : ProcessRun) : Option FailureKind :=
  if r.isOk then none
  else match r.outcome with
    | .absent | .raised => some .invocationFailed
    | .completed => some .toolFailed
    | .timeout => some .timeout

def toFailure (r : ProcessRun) (target : Text) (details : Fields Value) (now : Moment) : Outcome :=
  Outcome.failure target (r.error?.getD .toolFailed) r.output r.code details now

def toUnit (r : ProcessRun) (unit : Text) : UnitOutcome :=
  ⟨unit, r.isOk, r.output, r.code, r.error?⟩

end ProcessRun
end Runbook
