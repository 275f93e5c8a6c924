import Runbook.Plan.Draft
import Runbook.Value.Convert
import Runbook.Yaml.Value
import Runbook.Files.Tree

/-!
Settings: what a user may set for all documents. A setting keeps the value that it is given, whatever its kind, except
the time limit, which is an integer, and the arguments of a plan, which are texts.
-/
namespace Runbook

structure Settings where
  timeout : Int := 300
  workspaceRoot : Value := .null
  mockMissingTools : Value := .bool true
  dockerTag : Value := .text "polyglot:latest"
  planArguments : List Text := []
  kubeNamespace : Value := .null
  kubeContext : Value := .null
  authorName : Value := .text "mdpolyglot"
  authorEmail : Value := .text "mdpolyglot@localhost"
  commitMessage : Value := .text "Initial commit from polyglot markdown"
  preferredShell : Value := .text "bash"
  sqlClient : Value := .text "sqlite3"
  sqlDatabase : Value := .null
  outputPath : Value := .text "polyglot-report.md"
  outputFormat : Value := .text "markdown"
  jsonLog : Value := .bool false
  failOnError : Value := .bool true
  source : Option Text := none
  deriving Repr, Inhabited

/-- Why settings are refused. -/
inductive SettingsFault
  | unset (name : Text)
  | notAMapping (part : Text)
  | timeout (n : Int)
  | client (v : Value)
  | format (v : Value)
  | integer (f : IntegerFault)
  | noSequence
  | noKey
  | missing (path : Text)
  | malformed (path : Text)
  | noMapping (path : Text)
  | unread (f : ReadFault)
  | encoding
  | file (f : FileFault)
  deriving Repr

namespace SettingsFault

def choices (name : String) (v : Value) (valid : String) : Text :=
  "Invalid " ++ name ++ ": " ++ v.toText ++ ". Valid: " ++ valid

def message : SettingsFault → Text
  | .unset name => "Environment variable not set: " ++ name
  | .notAMapping part => "Config section '" ++ part ++ "' must be a mapping"
  | .timeout n => "execution.timeout must be positive (got " ++ Text.ofInt n ++ ")"
  | .client v => choices "SQL client" v "['psql', 'sqlite3']"
  | .format v => choices "output format" v "['json', 'markdown']"
  | .integer f => f.message
  | .noSequence | .noKey => []
  | .missing path => "Config file not found: " ++ path
  | .malformed path => "Invalid YAML in " ++ path
  | .noMapping path => "Config file must contain a mapping: " ++ path
  | .unread f => f.message
  | .encoding => []
  | .file f => f.message

end SettingsFault

namespace Settings

def sqlClients : List Text := ["sqlite3", "psql"]

def outputFormats : List Text := ["markdown", "json"]

def planDefaults (s : Settings) : PlanDefaults where
  dockerTag := s.dockerTag.toText
  scope := if s.kubeNamespace.isTrue then some s.kubeNamespace.toText else none
  commitMessage := s.commitMessage.toText
  database := if s.sqlDatabase.isTrue then some s.sqlDatabase.toText else none

def record (es : List (String × Value)) : Value := .ofFields (es.map fun (k, v) => (k.toList, v))

/-- The settings by their parts. -/
def toValue (s : Settings) : Value :=
  record [
    ("execution", record [("timeout", .int s.timeout), ("workspace_root", s.workspaceRoot),
      ("mock_missing_tools", s.mockMissingTools)]),
    ("docker", record [("tag", s.dockerTag)]),
    ("terraform", record [("plan_args", .list (s.planArguments.map .text))]),
    ("kubernetes", record [("namespace", s.kubeNamespace), ("context", s.kubeContext)]),
    ("git", record [("author_name", s.authorName), ("author_email", s.authorEmail),
      ("commit_message", s.commitMessage)]),
    ("shell", record [("preferred", s.preferredShell)]),
    ("sql", record [("client", s.sqlClient), ("database", s.sqlDatabase)]),
    ("output", record [("path", s.outputPath), ("format", s.outputFormat)]),
    ("ci", record [("json_output", s.jsonLog), ("fail_on_error", s.failOnError)]),
    ("_config_path", .ofOption s.source)]

end Settings
end Runbook
