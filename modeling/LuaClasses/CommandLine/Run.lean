import LuaClasses.CommandLine.FileReport
import LuaClasses.CommandLine.Invocation
import LuaClasses.Settings.Environment
import LuaClasses.Settings.Toml.Printer
import LuaClasses.Source.Coverage

/-! Commands as functions of the files that they see. What a command prints and writes is its
outcome. -/

namespace LuaClasses.CommandLine

structure Outcome where
  exitCode : Nat
  /-- What is printed. -/
  output : String
  /-- What is printed as problems. -/
  errors : String
  /-- What is written into a file. -/
  writing : Option Writing

namespace Outcome

def printed (output : String) : Outcome := ⟨0, output, "", none⟩

def failed (message : String) : Outcome := ⟨1, "", "Error: " ++ message ++ "\n", none⟩

/-- Something is written and then reported, unless a problem prevents it. -/
def wrote (files : Snapshot) (writing : Writing) (message : FileProblem → String) (output : String) :
    Outcome :=
  match files.apply writing with
  | .ok _ => ⟨0, output, "", some writing⟩
  | .error problem => failed (message problem)

/-- The files once the outcome is there. -/
def after (outcome : Outcome) (files : Snapshot) : Snapshot :=
  match outcome.writing with
  | some writing => (files.apply writing).toOption.getD files
  | none => files

/-- What is printed before a failure stays. -/
def withOutput (output : String) (outcome : Outcome) : Outcome :=
  { outcome with output := output ++ outcome.output }

def withErrors (errors : String) (outcome : Outcome) : Outcome :=
  { outcome with errors := errors ++ outcome.errors }

end Outcome

/-- Everything that a command depends on besides its arguments. -/
structure Surroundings where
  files : Snapshot
  /-- The number of directories around the working directory. -/
  depth : Nat
  environment : List (String × String)
  /-- The time that reports show. -/
  time : String

def settingsDirectory : String := ".luascope"

def settingsPath : String := ".luascope/settings.toml"

def isAbsolute (path : String) : Bool := path.startsWith "/"

/-- A path as it is seen from the working directory and from each directory around it. -/
def outwards (depth : Nat) (path : String) : List String :=
  if isAbsolute path then [path]
  else (List.range (depth + 1)).map fun level => String.join (List.replicate level "../") ++ path

/-- The settings file of the innermost directory that has settings. -/
def nearestSettings (surroundings : Surroundings) : String :=
  match (outwards surroundings.depth settingsDirectory).find? surroundings.files.isDirectory with
  | some directory => Path.child directory "settings.toml"
  | none => settingsPath

/-- The settings with those of a file over them. A file that is not in the directory is looked for
in those around it, and one that is missing changes nothing. -/
def loadSettings? (surroundings : Surroundings) (path : String) : Option Settings := do
  let file ← match (outwards surroundings.depth path).find? surroundings.files.isFile with
    | some found => (surroundings.files.read found).toOption.map some
    | none => some none
  Settings.load? file surroundings.environment

/-- JSON in the form that the settings ask for, with a line feed after it. -/
def writeJson (settings : Settings) (value : Json) : String :=
  (if settings.output.pretty then value.pretty else value.compact) ++ "\n"

def runInit (files : Snapshot) (force : Bool) : Outcome :=
  if files.exists_ settingsPath && !force then
    .failed s!"Configuration file already exists at: {settingsPath}\nUse --force to overwrite"
  else
    .wrote files ⟨settingsPath, Settings.default.toToml, some settingsDirectory⟩ FileProblem.message
      s!"Created configuration file at: {settingsPath}\nEdit this file to customize your settings.\n"

def runConfig (settings : Settings) : Outcome :=
  let heading := "Current Configuration:\n" ++ String.ofList (List.replicate 50 '=') ++ "\n"
  .printed (heading ++ settings.toToml ++ "\n")

def runDiscover (files : Snapshot) (settings : Settings) (paths : List String) (all json : Bool) : Outcome :=
  let found := files.luaFiles paths
  if found.isEmpty then .failed "No .lua files found in the given paths"
  else
    let reports := found.map (FileReport.ofFile files settings.discovery all)
    let reports := if settings.output.diagnostics then reports else reports.map FileReport.withoutDiagnostics
    let output :=
      if json then writeJson settings (.array (reports.map FileReport.toJson))
      else String.join (reports.map FileReport.text)
    let failures := reports.countP FileReport.isFailure
    let outcome :=
      if failures = 0 then Outcome.printed ""
      else .failed s!"{failures} of {reports.length} files failed"
    outcome.withOutput output

/-- A failure to load a file shows its cause once more at its end. -/
def loadFailure (problem : LoadError) : Outcome := .failed (problem.message ++ ": " ++ problem.cause)

def runScopes (files : Snapshot) (settings : Settings) (file : String) : Outcome :=
  match loadProgram files file with
  | .error problem => loadFailure problem
  | .ok program =>
    let discovery := discover program settings.discovery
    let dump : Json := .object [
      ("sweeps", .integer discovery.sweeps),
      ("state", .string discovery.stage.tag),
      ("classes", .strings (discovery.classes.map discovery.tree.raw)),
      ("tree", discovery.tree.toJson),
      ("diagnostics", .array (discovery.diagnostics.map Diagnostic.toJson))]
    .printed (writeJson settings dump)

def runParse (files : Snapshot) (file : String) (output : Option String) : Outcome :=
  match loadProgram files file with
  | .error problem => loadFailure problem
  | .ok program =>
    let text := String.join (program.body.map fun stmt => stmt.toJson.compact ++ "\n")
    match output with
    | none => .printed text
    | some path =>
      .wrote files ⟨path, text, none⟩ (fun problem => s!"Failed to create {path}: {problem.message}") ""

def runAudit (surroundings : Surroundings) (settings : Settings) (file : String) (output : Option String) :
    Outcome :=
  match surroundings.files.read file with
  | .error problem => .failed s!"Failed to read file: {problem.message}"
  | .ok text =>
    let report := (Source.Coverage.ofText text settings.discovery).report surroundings.time
    match output with
    | none => .printed report
    | some path =>
      .wrote surroundings.files ⟨path, report, none⟩ FileProblem.message s!"Audit report written to {path}\n"

def runWith (surroundings : Surroundings) (settings : Settings) : Command → Outcome
  | .init force => runInit surroundings.files force
  | .config => runConfig settings
  | .discover paths all json => runDiscover surroundings.files settings paths all json
  | .scopes file => runScopes surroundings.files settings file
  | .parse file output => runParse surroundings.files file output
  | .audit file output => runAudit surroundings settings file output

/-- Run a command with its settings. Settings that cannot be read are a failure if their file was
named, and are otherwise reported and replaced by the defaults. Writing a settings file takes no
settings. -/
def run (surroundings : Surroundings) (invocation : Invocation) : Outcome :=
  match invocation.command, invocation.settingsFile with
  | .init force, _ => runInit surroundings.files force
  | command, some path =>
    match loadSettings? surroundings path with
    | some settings => runWith surroundings settings command
    | none => .failed s!"invalid settings in {path}"
  | command, none =>
    let path := nearestSettings surroundings
    match loadSettings? surroundings path with
    | some settings => runWith surroundings settings command
    | none =>
      (runWith surroundings .default command).withErrors s!"Configuration error: invalid settings in {path}\n"

/-- The paths at which a command may look for files. -/
def Command.paths : Command → List String
  | .init _ => []
  | .config => []
  | .discover paths _ _ => paths
  | .scopes file => [file]
  | .parse file output => file :: output.toList
  | .audit file output => file :: output.toList

/-- The paths at which an invocation may look for files, in a directory with so many around it. -/
def Invocation.paths (depth : Nat) (invocation : Invocation) : List String :=
  invocation.command.paths ++ outwards depth settingsPath ++
    (invocation.settingsFile.map (outwards depth)).getD []

/-- Run what the texts of the arguments say. -/
def runArguments (surroundings : Surroundings) (arguments : List String) : Outcome :=
  match Invocation.ofTexts? arguments with
  | some invocation => run surroundings invocation
  | none => ⟨2, "", "error: invalid arguments\n", none⟩

end LuaClasses.CommandLine
