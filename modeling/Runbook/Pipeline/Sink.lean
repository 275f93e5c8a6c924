import Runbook.Report.File
import Runbook.Json.Printer

/-! Where outcomes go: a record in memory, a JSON file for each document, or one report of all documents. -/
namespace Runbook

inductive Sink
  | memory (outcomes : Fields Outcome)
  | json (directory : Path)
  | report (path : Path) (most : Int) (entries : Fields ReportEntry)
  deriving Repr, Inhabited

namespace Sink

def isSafe (c : Char) : Bool := c.isAlphanum || c = '.' || c = '_' || c = '-'

/-- Each run of characters that no file name should have becomes one underscore. -/
def safeName (id : Text) : Text :=
  Text.substitute (Text.runOf (!isSafe ·)) (fun _ => "_") id

/-- The name of the file for a document: no dot or underscore at its ends, and never empty. -/
def fileName (id : Text) : Text :=
  let name := Text.trim (fun c => c = '.' || c = '_') (safeName id)
  (if name.isEmpty then "document".toList else name) ++ ".json"

def fileFor (directory : Path) (id : Text) : Path := directory.child (fileName id)

def payload (id : Text) (o : Outcome) : Text :=
  Json.print ⟨true, some 2⟩ (.ofFields (Fields.merge (Fields.one "document_id" (.text id)) o.toFields))

def writeJson (directory : Path) (id : Text) (o : Outcome) : Action Unit := do
  Action.makeDirectories directory
  Action.changeFiles fun files cwd => files.writeText cwd (fileFor directory id) (payload id o)

/-- Stores an outcome in place of an earlier one of the same document, and tells whether that was possible. -/
def store (id : Text) (o : Outcome) : Sink → Action (Except ReportFault Bool × Sink)
  | .memory outcomes => return (.ok true, .memory (Fields.put id o outcomes))
  | .json directory => do
    try
      writeJson directory id o
      return (.ok true, .json directory)
    catch
      | .file _ => return (.ok false, .json directory)
      | stop => throw stop
  | .report path most entries => do
    let entries := Fields.put id { document := id, outcome := o } entries
    let sink := Sink.report path most entries
    try
      match ← Report.writeTo path most (entries.map (·.2)) with
      | .ok () => return (.ok true, sink)
      | .error (.unknownTemplate _) => return (.ok false, sink)
      | .error f => return (.error f, sink)
    catch
      | .file _ => return (.ok false, sink)
      | stop => throw stop

end Sink
end Runbook
