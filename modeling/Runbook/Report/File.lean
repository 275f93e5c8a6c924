import Runbook.Report.Basic

/-! Reports written to files. -/
namespace Runbook.Report

/-- Writes the report of all entries; a fault of the report writes nothing. -/
def writeTo (path : Path) (most : Int) (es : List ReportEntry) : Action (Except ReportFault Unit) := do
  match render most (← Action.now) es with
  | .error f => return .error f
  | .ok text =>
    Action.log .debug "templates.renderer"
      ("Rendered report (" ++ Text.ofNat text.length ++ " characters)")
    Action.makeDirectories path.parent
    Action.changeFiles fun files cwd => files.writeText cwd path text
    Action.log .info "templates.renderer" ("Wrote report to " ++ path.toText)
    return .ok ()

end Runbook.Report
