import Runbook.CommandLine.Command
import Runbook.Document.Annotation
import Runbook.Json.Printer
import Runbook.Preflight.Basic

/-! What commands print: values as JSON, and documents, outcomes and preflights as lines for a reader. -/
namespace Runbook

/-- What is left of a command: its exit code, what it prints and logs, and what ended it early. -/
structure Reply where
  code : Nat := 0
  output : Text := []
  errors : Text := []
  failure : Option Failure := none
  deriving Repr, Inhabited

namespace Reply

/-- A wrong use of the command line has an exit code of its own. -/
def ofFailure (f : Failure) : Reply :=
  match f with
  | .usage _ => { code := 2, failure := some f }
  | _ => { code := 1, failure := some f }

def refused : Reply := { code := 1 }

def say (lines : List Text) : Text := lines.flatMap (· ++ ['\n'])

/-- A value as indented JSON in which only control characters and quotes are escaped. -/
def json (v : Value) : Text := say [Json.print ⟨false, some 2⟩ v]

/-- A sequence that controls a terminal: an opening bracket after the escape, numbers, and a letter. -/
def controlAt : Text.Pattern Unit := fun _ t =>
  match t with
  | '\x1b' :: '[' :: t =>
    let numbers := t.takeWhile fun c => c.isDigit || c = ';' || c = '?'
    match t.drop numbers.length with
    | c :: _ => if c.isAlpha then some ((), numbers.length + 3) else none
    | [] => none
  | _ => none

/-- The text without what controls a terminal. -/
def plain (t : Text) : Text := Text.substitute controlAt (fun _ => []) t

/-- A part of a line that is there only when its text is not empty. -/
def optional (before : String) (t : Option Text) (after : String) : Text :=
  match t with
  | none | some [] => []
  | some t => before ++ t ++ after

def artifactLine (a : Artifact) : Text :=
  let line := match a.line with
    | some n => Text.ofInt n
    | none => "None"
  "  • " ++ a.kind.name.toList ++ optional " (" a.detail ")" ++ optional " -> " a.location "" ++ " @ line " ++ line ++
    if a.executable then " [executable]" else ""

def typeLines (metadata : Fields Value) : List Text :=
  match Fields.get? "type" metadata with
  | some v =>
    if v.isTrue then
      ["Type: " ++ v.toText ++ "/" ++ ((Fields.get? "subtype" metadata).getD (.text [])).toText]
    else []
  | none => []

def hiddenLine (v : Value) : Text :=
  "Hidden payload at offset " ++ ((v.get? "offset").getD .null).toText ++ ": " ++
    ((v.get? "text").getD (.text "<binary>")).toText

def hiddenLines (metadata : Fields Value) : List Text :=
  (((Fields.get? "hidden" metadata).bind Value.elements?).getD []).map hiddenLine

def classification (d : Document) : Text :=
  let counted : Text := "Artifacts: " ++ Text.ofNat d.artifacts.length
  say (["Language: " ++ d.language.name.toList, counted] ++
    d.artifacts.map artifactLine ++ typeLines d.metadata ++ hiddenLines d.metadata)

def mark (isOk : Bool) : Text := if isOk then "✅" else "❌"

def detail (o : Outcome) (name : String) (fallback : Value) : Text :=
  ((Fields.get? name.toList o.details).getD fallback).toText

def headLines (o : Outcome) : List Text :=
  if !o.isOk then
    ["❌ " ++ o.target ++ ": " ++ Report.errorName o ++ " (code " ++ detail o "code" .null ++ ")"]
  else if o.mock then
    ["⚠️  " ++ o.target ++ ": mock result", "   └─ " ++ detail o "note" (.text [])]
  else ["✅ " ++ o.target ++ ": ok"]

def unitLine (u : Value) : Text :=
  "   " ++ mark (Report.isGiven (u.get? "ok")) ++ " " ++ ((u.get? "unit").getD .null).toText

def unitLines (o : Outcome) : List Text :=
  match Fields.get? "results" o.details with
  | none => []
  | some results =>
    ("   applied: " ++ detail o "applied" .null ++ ", failed: " ++ detail o "failed" .null) ::
      (results.elements?.getD []).map unitLine

def detailLines (o : Outcome) : List Text :=
  ["image", "message", "next_step"].filterMap fun name =>
    match Report.detail o name with
    | some v => if v.isTrue then some ("   " ++ name.toList ++ ": " ++ v.toText) else none
    | none => none

def outputLines (o : Outcome) : List Text :=
  match Report.outputOf o with
  | some v => if v.isTrue then [[], Display.lineBody v.toText] else []
  | none => []

def outcome (o : Outcome) : Text :=
  say (headLines o ++ unitLines o ++ detailLines o ++ outputLines o)

def checkLines (c : ToolCheck) : List Text :=
  let head := "  " ++ mark c.isAvailable ++ " " ++ c.name ++ optional " (" c.version ")" ++ " [" ++ c.target ++ "]"
  let more := if c.isAvailable then optional "     └─ " c.path "" else "     └─ " ++ c.message
  head :: (if more.isEmpty then [] else [more])

def bullets (ts : List Text) : List Text := ts.map fun t => "   • " ++ t

def verdictLines (p : Preflight) : List Text :=
  if !p.errors.isEmpty then ("❌ Preflight check FAILED" : Text) :: bullets p.errors
  else if !p.warnings.isEmpty then ("⚠️  Some tools are missing" : Text) :: bullets p.warnings
  else ["✅ All tools available"]

def preflight (p : Preflight) : Text :=
  say ([[], "🔍 Preflight Check Results", []] ++ p.checks.flatMap checkLines ++ [[]] ++ verdictLines p)

end Reply
end Runbook
