import Runbook.Text.Basic

/-! The file of settings that a new project starts with. It spells out the defaults. -/
namespace Runbook.Settings

def templateLines : List String := [
  "# mdpolyglot Configuration",
  "",
  "# Settings shared by every executor",
  "execution:",
  "  timeout: 300              # Seconds before a child process is killed",
  "  # workspace_root: \"/tmp\"  # Parent directory for isolated workspaces",
  "  mock_missing_tools: true  # Mock success when docker/terraform/... is missing",
  "",
  "docker:",
  "  tag: \"polyglot:latest\"",
  "",
  "terraform:",
  "  plan_args: []             # e.g. [\"-refresh=false\"]",
  "",
  "kubernetes:",
  "  # namespace: \"default\"",
  "  # context: \"kind-dev\"",
  "",
  "git:",
  "  author_name: \"mdpolyglot\"",
  "  author_email: \"mdpolyglot@localhost\"",
  "  commit_message: \"Initial commit from polyglot markdown\"",
  "",
  "shell:",
  "  preferred: \"bash\"         # Falls back to sh when missing",
  "",
  "sql:",
  "  client: \"sqlite3\"         # sqlite3, psql",
  "  # database: \"$\x7bDATABASE_URL\x7d\"",
  "",
  "# Report output",
  "output:",
  "  path: \"polyglot-report.md\"",
  "  format: \"markdown\"        # markdown, json",
  "",
  "# CI/CD settings",
  "ci:",
  "  json_output: false",
  "  fail_on_error: true"]

def template : Text := (Text.ofStrings templateLines).flatMap (· ++ ['\n'])

end Runbook.Settings
