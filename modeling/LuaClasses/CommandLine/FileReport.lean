import LuaClasses.CommandLine.Snapshot
import LuaClasses.Discovery.Run
import LuaClasses.Program.Json
import LuaClasses.Source.Descent

/-! What was found in one file, or why nothing could be. -/

namespace LuaClasses.CommandLine

/-- Why a file has no program. -/
inductive LoadError where
  | unreadable (path : String) (problem : FileProblem)
  | unparsable (path : String) (problem : ParseError)
  deriving DecidableEq, Repr

namespace LoadError

/-- The problem without the file that it concerns. -/
def cause : LoadError → String
  | .unreadable _ problem => problem.message
  | .unparsable _ problem => problem.message

def message : LoadError → String
  | .unreadable path problem => s!"Failed to read {path}: {problem.message}"
  | .unparsable path problem => s!"Failed to parse {path}: {problem.message}"

end LoadError

def loadProgram (snapshot : Snapshot) (path : String) : Except LoadError Program := do
  let text ← (snapshot.read path).mapError (.unreadable path)
  (Program.ofText text).mapError (.unparsable path)

structure FileFindings where
  classes : List ClassReport
  diagnostics : List Diagnostic
  sweeps : Nat
  stage : Stage

structure FileReport where
  path : String
  outcome : Except LoadError FileFindings

namespace FileReport

/-- Report on a file: all its classes, or the first one only. -/
def ofFile (snapshot : Snapshot) (config : DiscoveryConfig) (all : Bool) (path : String) : FileReport where
  path
  outcome := do
    let program ← loadProgram snapshot path
    let discovery := discover program config
    return {
      classes := if all then discovery.reports else discovery.reports.take 1
      diagnostics := discovery.diagnostics
      sweeps := discovery.sweeps
      stage := discovery.stage }

def isFailure (report : FileReport) : Bool := !report.outcome.isOk

def withoutDiagnostics (report : FileReport) : FileReport :=
  { report with outcome := report.outcome.map fun findings => { findings with diagnostics := [] } }

def lines (findings : FileFindings) : List String :=
  (if findings.classes.isEmpty then ["(no classes)"] else findings.classes.flatMap ClassReport.lines) ++
    findings.diagnostics.map fun diagnostic => "warning: " ++ diagnostic.text

/-- The report in writing, with an empty line at its end. -/
def text (report : FileReport) : String :=
  let body := match report.outcome with
    | .ok findings => lines findings
    | .error problem => ["error: " ++ problem.message]
  String.join ((("-- " ++ report.path) :: body ++ [""]).map fun line => line ++ "\n")

/-- Diagnostics are left out where there are none. -/
def toJson (report : FileReport) : Json :=
  match report.outcome with
  | .ok findings => .object <|
      [("path", .string report.path), ("classes", .array (findings.classes.map ClassReport.toJson))] ++
      (if findings.diagnostics.isEmpty then []
        else [("diagnostics", .array (findings.diagnostics.map Diagnostic.toJson))]) ++
      [("sweeps", .integer findings.sweeps), ("state", .string findings.stage.tag)]
  | .error problem => .object [
      ("path", .string report.path), ("classes", .array []), ("sweeps", .integer 0),
      ("error", .string problem.message)]

end FileReport
end LuaClasses.CommandLine
