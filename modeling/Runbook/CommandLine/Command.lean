import Runbook.CommandLine.Options
import Runbook.Report.Basic
import Runbook.Settings.Reading

/-!
Commands as they are asked for. The options before the name of a command hold for all commands; what follows the name is
read by the command itself. A file to be read must be there, and no directory stands for a file.
-/
namespace Runbook

/-- What keeps a command from its reply. -/
inductive Failure
  | usage (f : UsageFault)
  | settings (f : SettingsFault)
  | report (f : ReportFault)
  | stop (s : Stop)
  deriving Repr

def Failure.message : Failure → Text
  | .usage f => f.message
  | .settings f => f.message
  | .report f => f.message
  | .stop s => s.message

/-- The options of all commands. -/
structure GlobalOptions where
  config : Option Text := none
  verbose : Bool := false
  quiet : Bool := false
  ci : Bool := false
  version : Bool := false
  deriving DecidableEq, Repr, Inhabited

def GlobalOptions.table : OptionTable GlobalOptions :=
  let config := OptionEffect.setting fun v (o : GlobalOptions) => { o with config := some v }
  let verbose := OptionEffect.switch fun (o : GlobalOptions) => { o with verbose := true }
  let quiet := OptionEffect.switch fun (o : GlobalOptions) => { o with quiet := true }
  [("--config", config), ("-c", config), ("--verbose", verbose), ("-v", verbose), ("--quiet", quiet),
    ("-q", quiet), ("--ci", .switch fun o => { o with ci := true }),
    ("--version", .switch fun o => { o with version := true })]

inductive CommandName
  | classify
  | ast
  | sanitize
  | transpile
  | run
  | check
  | init
  deriving DecidableEq, Repr, Inhabited

namespace CommandName

def name : CommandName → String
  | .classify => "classify"
  | .ast => "ast"
  | .sanitize => "sanitize"
  | .transpile => "transpile"
  | .run => "run"
  | .check => "check"
  | .init => "init"

def all : List CommandName := [.classify, .ast, .sanitize, .transpile, .run, .check, .init]

def ofText? (t : Text) : Option CommandName := all.find? fun c => c.name.toList = t

end CommandName

/-- How a document is run: whether only its plan is shown, and what is written and printed of its outcome. -/
structure RunOptions where
  report : Option Text := none
  format : Option Text := none
  dryRun : Bool := false
  json : Bool := false
  deriving DecidableEq, Repr, Inhabited

def RunOptions.table : OptionTable RunOptions :=
  let report := OptionEffect.setting fun v (o : RunOptions) => { o with report := some v }
  let format := OptionEffect.setting fun v (o : RunOptions) => { o with format := some v }
  [("--report", report), ("-r", report), ("--format", format), ("-f", format),
    ("--dry-run", .switch fun o => { o with dryRun := true }),
    ("--json", .switch fun o => { o with json := true })]

inductive Command
  | classify (file : Path) (json : Bool)
  | ast (file : Path) (positions : Bool)
  | sanitize (file : Path) (output : Option Path)
  | transpile (file : Path) (target : Target)
  | run (file : Path) (report : Option Path) (options : RunOptions)
  | check (json : Bool)
  | init (force : Bool)
  deriving Repr

namespace Command

/-- A switch that turns a flag on. -/
def turnOn : OptionEffect Bool := .switch fun _ => true

/-- One text that may be set under two spellings. -/
def textTable (long short : String) : OptionTable (Option Text) :=
  let set : OptionEffect (Option Text) := .setting fun v _ => some v
  [(long.toList, set), (short.toList, set)]

def read {σ : Type} (table : OptionTable σ) (words : List Text) (s : σ) :
    Except Failure (σ × List Text) :=
  (table.read true words s).mapError .usage

def pathOf (t : Text) : Except Failure Path :=
  if '\x00' ∈ t then .error (.stop .nul) else .ok (Path.ofText t)

/-- Whether a path says of its last name that it is a directory. -/
def wantsDirectory (t : Text) : Bool := t.endsWith "/" || t.endsWith "/."

/-- A file that is there. -/
def existingFile (h : Host) (t : Text) : Except Failure Path := do
  let p ← pathOf t
  match h.files.stat h.cwd p with
  | .ok (.file _) => if wantsDirectory t then .error (.usage (.missingFile t)) else .ok p
  | .ok .directory => .error (.usage (.directory t))
  | .error _ => .error (.usage (.missingFile t))

/-- A file to be written, which need not be there. -/
def writtenFile (h : Host) (t : Text) : Except Failure Path := do
  let p ← pathOf t
  if t ≠ [] ∧ h.files.isDirectory h.cwd p then .error (.usage (.directory t)) else .ok p

/-- The one operand of a command that reads a document. -/
def document (h : Host) : List Text → Except Failure Path
  | [] => .error (.usage .missingOperand)
  | [t] => existingFile h t
  | _ :: t :: _ => .error (.usage (.surplusOperand t))

def noOperand : List Text → Except Failure Unit
  | [] => .ok ()
  | t :: _ => .error (.usage (.surplusOperand t))

def targetOf : Option Text → Except Failure Target
  | none => .error (.usage (.missingOption "--target"))
  | some t =>
    match Target.ofText? t with
    | some target => .ok target
    | none => .error (.usage (.invalidChoice t))

/-- The command of a name with the words after it. -/
def ofWords (h : Host) (words : List Text) : CommandName → Except Failure Command
  | .classify => do
    let (json, operands) ← read [("--json", turnOn)] words false
    .ok (.classify (← document h operands) json)
  | .ast => do
    let table := [("--positions".toList, turnOn), ("--no-positions".toList, .switch fun _ => false)]
    let (positions, operands) ← read table words true
    .ok (.ast (← document h operands) positions)
  | .sanitize => do
    let (output, operands) ← read (textTable "--output" "-o") words none
    let output ← output.mapM (writtenFile h)
    .ok (.sanitize (← document h operands) output)
  | .transpile => do
    let (target, operands) ← read (textTable "--target" "-t") words none
    let target ← targetOf target
    .ok (.transpile (← document h operands) target)
  | .run => do
    let (options, operands) ← read RunOptions.table words {}
    let report ← options.report.mapM (writtenFile h)
    .ok (.run (← document h operands) report options)
  | .check => do
    let (json, operands) ← read [("--json", turnOn)] words false
    noOperand operands
    .ok (.check json)
  | .init => do
    let (force, operands) ← read [("--force", turnOn)] words false
    noOperand operands
    .ok (.init force)

end Command

/-- What the words up to the name of a command ask for. -/
inductive Opening
  | version
  | command (options : GlobalOptions) (config : Option Path) (name : CommandName) (rest : List Text)
  deriving Repr

/-- Reads the options of all commands and the name of one. -/
def Opening.ofWords (h : Host) (words : List Text) : Except Failure Opening := do
  let (o, rest) ← (GlobalOptions.table.read false words {}).mapError .usage
  if o.version then return .version
  let config ← o.config.mapM (Command.existingFile h)
  match rest with
  | [] => .error (.usage .missingCommand)
  | t :: rest =>
    match CommandName.ofText? t with
    | some name => .ok (.command o config name rest)
    | none => .error (.usage (.unknownCommand t))

end Runbook
