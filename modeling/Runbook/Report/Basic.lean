import Runbook.Outcome.Basic
import Runbook.Report.Display

/-!
Reports: a table of all documents with the outcome of each, and a section for each document with what its outcome tells.
-/
namespace Runbook

structure ReportEntry where
  document : Text
  outcome : Outcome
  language : Option Text := none
  deriving Repr, Inhabited

/-- Why a report cannot be written. -/
inductive ReportFault
  | unknownTemplate (name : Text)
  | outOfRange
  | noSequence
  | noText
  deriving DecidableEq, Repr

def ReportFault.message : ReportFault → Text
  | .unknownTemplate name => "Template not found: " ++ name
  | .outOfRange => "date value out of range"
  | .noSequence | .noText => []

namespace Report

def template : Text := "report.md.j2"

def defaultLines : Int := 40

/-- A value in the report; one that is not there is empty. -/
def shown : Option Value → Text
  | some v => v.toText
  | none => []

def isGiven (v : Option Value) : Bool := v.any Value.isTrue

def detail (o : Outcome) (name : String) : Option Value := Fields.get? name o.details

def errorName (o : Outcome) : Text := (o.error.map fun e => e.name.toList).getD []

def status (o : Outcome) : Text :=
  if o.isOk then if o.mock then "mock" else "ok" else errorName o

def code (t : Text) : Text := "\x60" ++ t ++ "\x60"

/-- Cells between bars, as one line. -/
def row (cells : List Text) : Text := "| " ++ Text.join " | " cells ++ " |\n"

def summaryRow (e : ReportEntry) : Text :=
  let language := match e.language with
    | some (c :: t) => c :: t
    | _ => "n/a"
  row [code e.document, language, e.outcome.target, status e.outcome]

def timeLine (t : Option Text) : Except ReportFault Text :=
  match Display.time? t with
  | some shown => .ok shown
  | none => .error .outOfRange

def bullet (name : String) (value : Text) : Text := "- **" ++ name ++ "**: " ++ value ++ "\n"

/-- A line that is there only when the detail is given. -/
def detailLine (o : Outcome) (name key : String) (decorate : Text → Text) : Text :=
  let v := detail o key
  if isGiven v then bullet name (decorate (shown v)) else []

/-- A bar inside a cell does not end it. -/
def escapeBars (t : Text) : Text := t.flatMap fun c => if c = '|' then "\\|" else [c]

def unitRow (unit : Value) : Text :=
  let status : Text := if isGiven (unit.get? "ok") then "ok" else shown (unit.get? "error")
  row [code (escapeBars (shown (unit.get? "unit"))), status, shown (unit.get? "code")]

def unitTable (o : Outcome) : Except ReportFault Text :=
  match detail o "results" with
  | none => .ok []
  | some results =>
    match results.elements? with
    | none => .error .noSequence
    | some units => .ok (
        "- **Applied**: " ++ shown (detail o "applied") ++ ", **failed**: " ++ shown (detail o "failed") ++
        "\n\n| Unit | Status | Code |\n|------|--------|------|\n" ++ units.flatMap unitRow)

/-- The output of an outcome, or else its plan. -/
def outputOf (o : Outcome) : Option Value :=
  if isGiven (detail o "output") then detail o "output" else detail o "plan"

def outputBlock (most : Int) (o : Outcome) : Except ReportFault Text :=
  match outputOf o with
  | some (.text []) | none => .ok []
  | some (.text t) => .ok ("\n" ++ Display.fenced "text" (Display.tail most t) ++ "\n")
  | some v => if v.isTrue then .error .noText else .ok []

def section? (most : Int) (e : ReportEntry) : Except ReportFault Text := do
  let o := e.outcome
  let finished ← timeLine (some (o.finishedAt.toText 'T'))
  let units ← unitTable o
  let output ← outputBlock most o
  .ok ("\n## " ++ e.document ++ "\n\n" ++ bullet "Executor" o.target ++ bullet "Finished" finished ++
    (if o.mock then bullet "Mock" (shown (detail o "note")) else []) ++
    (if o.isOk then [] else bullet "Error" (errorName o ++ " (code " ++ shown (detail o "code") ++ ")")) ++
    detailLine o "Image" "image" code ++ detailLine o "Next step" "next_step" code ++
    detailLine o "Message" "message" id ++ units ++ output)

def sections (most : Int) : List ReportEntry → Except ReportFault Text
  | [] => .ok []
  | e :: es => do
    let first ← section? most e
    .ok (first ++ (← sections most es))

def succeeded (es : List ReportEntry) : Nat := (es.filter (·.outcome.isOk)).length

/-- The report of all entries in order, with at most so many lines of output for each. -/
def render (most : Int) (generatedAt : Moment) (es : List ReportEntry) : Except ReportFault Text := do
  let generated ← match Display.stamp? generatedAt with
    | some t => .ok t
    | none => .error .outOfRange
  let body ← sections most es
  .ok ("# Polyglot Execution Report\n\nGenerated: " ++ generated ++ "\nDocuments: " ++
    Text.ofNat es.length ++ " (" ++ Text.ofNat (succeeded es) ++ " succeeded, " ++
    Text.ofNat (es.length - succeeded es) ++ " failed)\n\n" ++
    "| Document | Language | Executor | Status |\n|----------|----------|----------|--------|\n" ++
    es.flatMap summaryRow ++ body)

end Report
end Runbook
