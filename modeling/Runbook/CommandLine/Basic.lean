import Runbook.CommandLine.Reply
import Runbook.Markup.Sanitize
import Runbook.Pipeline.Basic
import Runbook.Settings.Template

/-!
The command line: words in, a reply out. The settings are loaded before the words of a command are read, so a fault of
the settings is reported first. A command prints only at its end; one that is stopped prints nothing.
-/
namespace Runbook

def Action.tell (level : LogLevel) (message : Text) : Action Unit :=
  Action.record [{ level, logger := LogSetup.rootLogger, message }]

namespace Command

/-- Gives the text of a file to the rest; a file that cannot be read is an error of the command. -/
def withSource (file : Path) (rest : Text → Action Reply) : Action Reply := do
  let h ← Action.host
  let refuse (reason : Text) : Action Reply := do
    Action.tell .error ("Cannot read " ++ file.toText ++ ": " ++ reason)
    return .refused
  match h.files.read h.cwd file with
  | .error f => refuse f.message
  | .ok content =>
    match Text.ofUtf8? content with
    | none => refuse "not UTF-8"
    | some t => rest (Text.anyLines t)

def withDocument (file : Path) (rest : Document → Action Reply) : Action Reply :=
  withSource file fun t => do rest (← Pipeline.parse t)

def classifyFile (file : Path) (json : Bool) : Action Reply :=
  withDocument file fun d =>
    return { output := if json then Reply.json (d.toValue false) else Reply.classification d }

def printTree (file : Path) (positions : Bool) : Action Reply :=
  withDocument file fun d =>
    return { output := Reply.json (if positions then d.tree else d.tree.withoutPositions).toValue }

/-- Writes a text below directories that are made when they are missing. -/
def writeBelow (p : Path) (t : Text) : Action Unit := do
  Action.makeDirectories p.parent
  Action.changeFiles fun files cwd => files.writeText cwd p t

def sanitizeFile (file : Path) (output : Option Path) : Action Reply :=
  withSource file fun t => do
    let sanitized := Sanitize.sanitize t
    Action.record (Log.sanitizing t sanitized)
    match output with
    | none => return { output := sanitized }
    | some p =>
      writeBelow p sanitized
      Action.tell .info ("Wrote sanitized document to " ++ p.toText)
      return {}

def transpileFile (s : Settings) (file : Path) (target : Target) : Action Reply :=
  withDocument file fun d =>
    match Plan.draft target d.artifacts d.metadata s.planDefaults with
    | .ok p => return { output := Reply.json p.toValue }
    | .error f => return { Reply.refused with output := Reply.json f.toValue }

/-- What would be run, and whether the tool for it is there. -/
def plan (s : Settings) (d : Document) : Action Reply := do
  let r := Runner.ofLanguage s d.language
  let transpiled := r.target.map fun t =>
    match Plan.draft t d.artifacts d.metadata s.planDefaults with
    | .ok p => p.toValue
    | .error f => f.toValue
  let isAvailable := r.isAvailable (← Action.host)
  return { output := Reply.json (.ofFields (
    Fields.one "language" (.text d.language.name) ++ Fields.one "executor" (.text r.name) ++
    Fields.one "tool_available" (.bool isAvailable) ++ Fields.opt "transpiled" transpiled)) }

/-- The outcome of a document as a JSON report. -/
def jsonReport (file : Path) (d : Document) (o : Outcome) : Text :=
  Json.print ⟨true, some 2⟩ (.ofFields (Fields.merge
    (Fields.one "document_id" (.text file.toText) ++ Fields.one "language" (.text d.language.name))
    o.toFields))

def writeReport (file : Path) (d : Document) (o : Outcome) (format : Text) (p : Path) :
    Action (Except ReportFault Unit) :=
  if format = "json" then do
    writeBelow p (jsonReport file d o)
    Action.tell .info ("Wrote report to " ++ p.toText)
    return .ok ()
  else
    Report.writeTo p Report.defaultLines
      [{ document := file.toText, outcome := o, language := some d.language.name }]

/-- A failure, or a batch in which a unit failed. -/
def hasFailed (o : Outcome) : Bool :=
  !o.isOk || match o.failed with
    | .ok n => 0 < n
    | .error _ => false

def runDocument (s : Settings) (file : Path) (d : Document) (report : Option Path) (format : Text)
    (json : Bool) : Action Reply := do
  let o ← Pipeline.execute s d
  let written ← match report with
    | none => pure (.ok ())
    | some p => writeReport file d o format p
  match written with
  | .error f => return .ofFailure (.report f)
  | .ok () =>
    return {
      code := if hasFailed o && s.failOnError.isTrue then 1 else 0
      output := if json then Reply.json o.toValue else Reply.outcome o }

/-- The format of a report: the one that is asked for, or else that of the settings. -/
def formatOf (s : Settings) (o : RunOptions) : Text :=
  match o.format with
  | none | some [] => s.outputFormat.toText
  | some t => t

def runFile (s : Settings) (file : Path) (report : Option Path) (o : RunOptions) : Action Reply := do
  let format := formatOf s o
  if format ∈ Settings.outputFormats then
    withDocument file fun d =>
      if o.dryRun then plan s d else runDocument s file d report format o.json
  else
    Action.tell .error ("Invalid format: " ++ format ++ ". Use 'markdown' or 'json'")
    return .refused

def checkTools (s : Settings) (json : Bool) : Action Reply := do
  let p ← Preflight.checkAll (.whole 10) s
  return {
    code := if !p.isOk then 1 else if p.allAvailable then 0 else 2
    output := if json then Reply.json p.toValue else Reply.preflight p }

def settingsFile : Path := { names := Text.ofStrings [".mdpolyglot", "config.yaml"] }

def writeSettings (force : Bool) : Action Reply := do
  let h ← Action.host
  if h.files.isThere h.cwd settingsFile ∧ ¬force then
    Action.tell .error ("Config already exists: " ++ settingsFile.toText)
    Action.tell .info "Use --force to overwrite"
    return .refused
  else
    Action.changeFiles fun files cwd => files.ensureDirectory cwd settingsFile.parent
    Action.changeFiles fun files cwd => files.writeText cwd settingsFile Settings.template
    return { output := Reply.say ["✅ Created " ++ settingsFile.toText] }

def perform (s : Settings) : Command → Action Reply
  | .classify file json => classifyFile file json
  | .ast file positions => printTree file positions
  | .sanitize file output => sanitizeFile file output
  | .transpile file target => transpileFile s file target
  | .run file report options => runFile s file report options
  | .check json => checkTools s json
  | .init force => writeSettings force

end Command

namespace CommandLine

def version : Text := "0.1.0"

/-- Whether a fault of the settings is about what the file says; any other ends the program. -/
def isReported : SettingsFault → Bool
  | .unset _ | .notAMapping _ | .timeout _ | .client _ | .format _ | .missing _ | .malformed _
  | .noMapping _ | .encoding => true
  | .integer (.numeral _) | .integer (.tooLong _) | .integer .nan => true
  | .unread .malformed | .unread (.badNumber _ _) | .unread (.badDecimal _) | .unread (.badDate _)
  | .unread .badCodePoint | .unread (.tooLong _) => true
  | _ => false

def settingsMessage (f : SettingsFault) : Text :=
  match f with
  | .missing _ => f.message
  | _ => "Failed to load config: " ++ f.message

/-- The line that tells why no settings could be loaded. -/
def settingsReply (setup : LogSetup) (now : Moment) (f : SettingsFault) : Reply :=
  if isReported f then
    let line : LogRecord :=
      { level := .error, logger := LogSetup.rootLogger, message := settingsMessage f }
    { code := 1, errors := setup.output now [line] }
  else .ofFailure (.settings f)

/-- Runs the command of a name with its words, and keeps what is logged on the way. -/
def runCommand (setup : LogSetup) (s : Settings) (name : CommandName) (words : List Text) (h : Host) :
    Reply × Host :=
  match Command.ofWords h words name with
  | .error f => (.ofFailure f, h)
  | .ok command =>
    let (result, h) := ((do
      if let some source := s.source then
        Action.tell .debug ("Loaded config from: " ++ source)
      command.perform s) : Action Reply).run { h with journal := [] }
    let reply := match result with
      | .ok reply => reply
      | .error stop => .ofFailure (.stop stop)
    ({ reply with output := Reply.plain reply.output, errors := setup.output h.clock h.journal }, h)

/-- The reply to the words of a command line. Log lines are colored when a terminal shows them. -/
def run (terminal : Bool) (words : List Text) (h : Host) : Reply × Host :=
  match Opening.ofWords h words with
  | .error f => (.ofFailure f, h)
  | .ok .version => ({ output := Reply.say ["mdpolyglot " ++ version] }, h)
  | .ok (.command o config name rest) =>
    let setup (ci : Bool) : LogSetup :=
      { LogSetup.ofSwitches o.verbose o.quiet ci with colored := terminal }
    match Settings.load h config true with
    | .error f => (settingsReply (setup o.ci) h.clock f, h)
    | .ok s => runCommand (setup (o.ci || s.jsonLog.isTrue)) s name rest h

end CommandLine
end Runbook
