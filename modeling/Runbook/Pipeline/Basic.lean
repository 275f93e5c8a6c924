import Runbook.Runner.Execution
import Runbook.Pipeline.Provider
import Runbook.Pipeline.Sink
import Runbook.Log.Reading

/-!
The pipeline: a document is fetched, read, run and its outcome stored. Whatever stops that becomes an outcome, which is
stored like any other.
-/
namespace Runbook.Pipeline

def target : Text := "pipeline"

/-- Reads a document and logs the steps. -/
def parse (t : Text) : Action Document := do
  Action.record (Log.reading t)
  match Document.ofText t with
  | .ok d => return d
  | .error f => throw (.unread f)

/-- Runs a document with the runner of its language. -/
def execute (s : Settings) (d : Document) : Action Outcome := do
  let r := Runner.ofLanguage s d.language
  Action.log .info "pipeline" ("Executing " ++ d.language.name ++ " document with " ++ r.name ++ " executor")
  r.execute s (.document d)

/-- One document to be processed: the name it is stored under, where its text comes from, and how that is run. -/
structure Request where
  id : Text
  fetch : Action (Option Text)
  run : Text → Action Outcome

/-- The request for a document of a provider, which is read and run with the settings. -/
def Request.ofProvider (s : Settings) (provider : Provider) (id : Text) : Request where
  id := id
  fetch := provider.get id
  run t := do execute s (← parse t)

/-- The outcome of a request. -/
def outcomeOf (q : Request) : Action Outcome := do
  match ← q.fetch with
  | none =>
    Action.log .error "pipeline" ("Document not found: " ++ q.id)
    return Outcome.failure target .notFound ("document not found: " ++ q.id) (-1) [] (← Action.now)
  | some t => q.run t

/-- The outcome of a request, or of what stopped it. -/
def attempt (q : Request) : Action Outcome :=
  tryCatch (outcomeOf q) fun stop => do
    Action.log .error "pipeline" ("Processing " ++ q.id ++ " failed unexpectedly")
    return Outcome.failure target .unhandled stop.message (-1) [] (← Action.now)

/-- A sink as the pipeline sees it: it takes an outcome under the id of its document, and tells whether it has it. -/
abbrev Storing (σ : Type) := Text → Outcome → σ → Action (Except ReportFault Bool × σ)

/-- Hands the outcome of a request over to a sink, once. -/
def deliver {σ : Type} (store : Storing σ) (q : Request) (sink : σ) :
    Action (Outcome × Except ReportFault Bool × σ) := do
  let outcome ← attempt q
  let (stored, sink) ← store q.id outcome sink
  if let .ok false := stored then
    Action.log .warning "pipeline" ("Result for " ++ q.id ++ " was not stored")
  return (outcome, stored, sink)

/-- What is left when a document has been processed: its outcome, whether that was stored, and the sink. -/
structure Processed where
  outcome : Outcome
  stored : Except ReportFault Bool
  sink : Option Sink

/-- Processes one document and stores its outcome once. -/
def process (s : Settings) (provider : Provider) (sink : Option Sink) (id : Text) :
    Action Processed := do
  let q := Request.ofProvider s provider id
  match sink with
  | none => return ⟨← attempt q, .ok false, none⟩
  | some sink =>
    let (outcome, stored, sink) ← deliver Sink.store q sink
    return ⟨outcome, stored, some sink⟩

end Runbook.Pipeline
