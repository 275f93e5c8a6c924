import Runbook.Calendar.Basic
import Runbook.Json.Printer

/-!
Log lines. A record is written when its level reaches the threshold, as a line for a reader, with or without the time,
or as a JSON object for a program.
-/
namespace Runbook

inductive LogLevel
  | debug
  | info
  | warning
  | error
  | critical
  deriving DecidableEq, Repr, Inhabited

namespace LogLevel

def rank : LogLevel → Nat
  | .debug => 10
  | .info => 20
  | .warning => 30
  | .error => 40
  | .critical => 50

def name : LogLevel → String
  | .debug => "DEBUG"
  | .info => "INFO"
  | .warning => "WARNING"
  | .error => "ERROR"
  | .critical => "CRITICAL"

def all : List LogLevel := [.debug, .info, .warning, .error, .critical]

def ofText? (t : Text) : Option LogLevel := all.find? fun l => l.name.toList = t

/-- The number of the terminal color of a level. -/
def color : LogLevel → String
  | .debug => "90"
  | .info => "32"
  | .warning => "33"
  | .error | .critical => "31"

end LogLevel

/-- What is logged: a message, further fields for JSON lines, and the error that goes with it. -/
structure LogRecord where
  level : LogLevel
  logger : Text
  message : Text
  fields : Fields Value := []
  error : Option Text := none
  deriving Repr, Inhabited

/-- A record of one of the loggers of this library. -/
def LogRecord.of (level : LogLevel) (logger : String) (message : Text) : LogRecord :=
  { level, logger := "mdpolyglot." ++ logger.toList, message }

namespace LogRecord

/-- Names of the parts of a record, which no further field may have. -/
def reserved : List Text := Text.ofStrings ["self", "level", "msg"]

/-- A record with further fields. -/
def structured? (level : LogLevel) (logger message : Text) (fields : Fields Value) : Option LogRecord :=
  if fields.keys.any (· ∈ reserved) then none else some { level, logger, message, fields }

/-- An error by its kind and text, or by its kind alone when it has no text. -/
def errorText (kind text : Text) : Text := if text.isEmpty then kind else kind ++ ": " ++ text

end LogRecord

inductive LogMode
  | human
  | verbose
  | json
  deriving DecidableEq, Repr, Inhabited

namespace LogMode

def name : LogMode → String
  | .human => "human"
  | .verbose => "verbose"
  | .json => "json"

def ofText? (t : Text) : Option LogMode :=
  [LogMode.human, .verbose, .json].find? fun m => m.name.toList = t

end LogMode

structure LogSetup where
  mode : LogMode := .human
  threshold : LogLevel := .info
  colored : Bool := false
  deriving DecidableEq, Repr, Inhabited

namespace LogSetup

/-- The logger above all others; what is logged elsewhere is not written. -/
def rootLogger : Text := "mdpolyglot"

/-- The setup that three switches ask for: JSON wins over times, and quiet over verbose. -/
def ofSwitches (verbose quiet ci : Bool) : LogSetup where
  mode := if ci then .json else if verbose then .verbose else .human
  threshold := if quiet then .warning else if verbose then .debug else .info

def clock (t : Moment) : Text :=
  Moment.two t.hour ++ ":" ++ Moment.two t.minute ++ ":" ++ Moment.two t.second

def tag (s : LogSetup) (l : LogLevel) : Text :=
  let plain : Text := "[" ++ l.name.toList ++ "]"
  if s.colored then "\x1b[" ++ l.color.toList ++ "m" ++ plain ++ "\x1b[0m" else plain

def humanLine (s : LogSetup) (now : Moment) (r : LogRecord) : Text :=
  let time : Text := if s.mode = .verbose then "[" ++ clock now ++ "]" else []
  let error : Text := match r.error with
    | some e => '\n' :: e
    | none => []
  s.tag r.level ++ time ++ " " ++ r.message ++ error

/-- Fields of the record come after the standard ones and replace those of the same name. -/
def jsonLine (now : Moment) (r : LogRecord) : Text :=
  let standard := Fields.one "level" (.text r.level.name) ++ Fields.one "ts" (.text (now.toText 'T')) ++
    Fields.one "msg" (.text r.message) ++ Fields.one "logger" (.text r.logger)
  Json.print .compact (.ofFields (Fields.merge (Fields.merge standard r.fields)
    (Fields.opt "exc" (r.error.map .text))))

def isHeard (s : LogSetup) (r : LogRecord) : Bool :=
  s.threshold.rank ≤ r.level.rank &&
    (r.logger = rootLogger || r.logger.startsWith (rootLogger ++ ['.']))

/-- The lines of all records that are heard. -/
def output (s : LogSetup) (now : Moment) (rs : List LogRecord) : Text :=
  (rs.filter s.isHeard).flatMap fun r =>
    (if s.mode = .json then jsonLine now r else s.humanLine now r) ++ ['\n']

end LogSetup
end Runbook
