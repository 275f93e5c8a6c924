import Runbook.Settings.Basic
import Runbook.Settings.Substitution
import Runbook.Yaml.Document
import Runbook.Host.Basic

/-!
Settings read from a mapping, and from the file that holds it. The parts are read in a fixed order, so of several faults
the first is reported.
-/
namespace Runbook.Settings

/-- A part of the settings; one that is there but counts as false is empty. -/
def part? (name : Text) (data : Value) : Except SettingsFault (Option Value) :=
  match data.get? name with
  | none => .ok none
  | some v =>
    if !v.isTrue then .ok (some (.map []))
    else match v with
      | .map es => .ok (some (.map es))
      | _ => .error (.notAMapping name)

/-- A fault that tells a value, which must be one that can be written down. -/
def telling (fault : Value → SettingsFault) (v : Value) : SettingsFault :=
  if v.isWritable then fault v else .unread (.tooLong none)

/-- One of the texts that may be chosen; a value that cannot be looked up is refused as such. -/
def choose (valid : List Text) (fault : Value → SettingsFault) (v : Value) : Except SettingsFault Unit :=
  if !v.isKey then .error .noKey
  else match v with
    | .text t => if t ∈ valid then .ok () else .error (fault v)
    | _ => .error (telling fault v)

def timeoutOf (v : Value) : Except SettingsFault Int :=
  match v.toInteger with
  | .ok n => if 0 < n then .ok n else .error (telling (fun _ => .timeout n) (.int n))
  | .error f => .error (.integer f)

def argumentsOf (v : Value) : Except SettingsFault (List Text) :=
  match v.elements? with
  | some vs => if vs.all Value.isWritable then .ok (vs.map Value.toText) else .error (.unread (.tooLong none))
  | none => .error .noSequence

def readExecution (s : Settings) (p : Value) : Except SettingsFault Settings := do
  let timeout ← timeoutOf ((p.get? "timeout").getD (.int s.timeout))
  .ok { s with
    timeout
    workspaceRoot := (p.get? "workspace_root").getD .null
    mockMissingTools := (p.get? "mock_missing_tools").getD s.mockMissingTools }

def readDocker (s : Settings) (p : Value) : Except SettingsFault Settings :=
  .ok { s with dockerTag := (p.get? "tag").getD s.dockerTag }

def readTerraform (s : Settings) (p : Value) : Except SettingsFault Settings := do
  .ok { s with planArguments := ← argumentsOf ((p.get? "plan_args").getD (.list [])) }

def readKubernetes (s : Settings) (p : Value) : Except SettingsFault Settings :=
  .ok { s with
    kubeNamespace := (p.get? "namespace").getD .null
    kubeContext := (p.get? "context").getD .null }

def readGit (s : Settings) (p : Value) : Except SettingsFault Settings :=
  .ok { s with
    authorName := (p.get? "author_name").getD s.authorName
    authorEmail := (p.get? "author_email").getD s.authorEmail
    commitMessage := (p.get? "commit_message").getD s.commitMessage }

def readShell (s : Settings) (p : Value) : Except SettingsFault Settings :=
  .ok { s with preferredShell := (p.get? "preferred").getD s.preferredShell }

def readSql (s : Settings) (p : Value) : Except SettingsFault Settings := do
  let client := (p.get? "client").getD s.sqlClient
  choose sqlClients .client client
  .ok { s with sqlClient := client, sqlDatabase := (p.get? "database").getD .null }

def readOutput (s : Settings) (p : Value) : Except SettingsFault Settings := do
  let format := (p.get? "format").getD s.outputFormat
  choose outputFormats .format format
  .ok { s with outputFormat := format, outputPath := (p.get? "path").getD s.outputPath }

def readCi (s : Settings) (p : Value) : Except SettingsFault Settings :=
  .ok { s with
    jsonLog := (p.get? "json_output").getD (.bool false)
    failOnError := (p.get? "fail_on_error").getD (.bool true) }

/-- The parts of the settings in the order in which they are read. -/
def parts : List (String × (Settings → Value → Except SettingsFault Settings)) :=
  [("execution", readExecution), ("docker", readDocker), ("terraform", readTerraform),
    ("kubernetes", readKubernetes), ("git", readGit), ("shell", readShell), ("sql", readSql),
    ("output", readOutput), ("ci", readCi)]

/-- Reads one part after the other; a part that is not there changes nothing. -/
def readParts (data : Value) : List (String × (Settings → Value → Except SettingsFault Settings)) →
    Settings → Except SettingsFault Settings
  | [], s => .ok s
  | (name, read) :: rest, s => do
    match ← part? name.toList data with
    | none => readParts data rest s
    | some p => readParts data rest (← read s p)

/-- The settings of a mapping, all variables in it replaced first. -/
def ofValue (environment : Fields Text) (data : Value) : Except SettingsFault Settings :=
  match Substitution.value environment data with
  | .error name => .error (.unset name)
  | .ok data => readParts data parts {}

/-- The settings in a document. One that holds itself is never read to its end, unless a variable that is not set
ends the reading first. -/
def ofData (environment : Fields Text) (d : Yaml.Data) : Except SettingsFault Settings :=
  match d.toValue with
  | (v, false) => ofValue environment v
  | (v, true) =>
    match Substitution.value environment v with
    | .error name => .error (.unset name)
    | .ok _ => .error (.unread .tooDeep)

/-- The settings in the text of a file; a file without content leaves all at their defaults. -/
def ofText (environment : Fields Text) (path : Text) (t : Text) : Except SettingsFault Settings :=
  match Yaml.load t with
  | .error .malformed => .error (.malformed path)
  | .error f => .error (.unread f)
  | .ok none => .ok { source := some path }
  | .ok (some d) =>
    if !d.isTrue then .ok { source := some path }
    else if !d.isMapping then .error (.noMapping path)
    else do .ok { ← ofData environment d with source := some path }

/-- Where settings are looked for below a directory, best place first. -/
def candidates : List (List String) := [[".mdpolyglot", "config.yaml"], ["mdpolyglot.yaml"]]

/-- The first file of settings that is there. -/
def find? (h : Host) (start : Path) : Option Path :=
  let base := Path.ofPlace (Place.follow h.cwd start)
  (candidates.map fun names => { base with names := base.names ++ names.map String.toList }).find?
    (h.files.isThere h.cwd)

def readFile (h : Host) (path : Path) : Except SettingsFault Settings :=
  match h.files.read h.cwd path with
  | .error f => .error (.file f)
  | .ok content =>
    match Text.ofUtf8? content with
    | none => .error .encoding
    | some t => ofText h.environment path.toText (Text.anyLines t)

/-- The settings of a run: of the given file, which must be there, or else of the first that is found. -/
def load (h : Host) (path : Option Path) (discover : Bool) : Except SettingsFault Settings :=
  match path with
  | some path =>
    match h.files.stat h.cwd path with
    | .ok _ => readFile h path
    | .error .nameTooLong => .error (.file ⟨.nameTooLong, path⟩)
    | .error _ => .error (.missing path.toText)
  | none =>
    match if discover then find? h {} else none with
    | some path => readFile h path
    | none => .ok {}

end Runbook.Settings
