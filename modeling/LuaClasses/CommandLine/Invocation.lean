/-! The arguments of a call as a command and its options. -/

namespace LuaClasses.CommandLine

inductive Command where
  /-- Write a settings file with the defaults. -/
  | init (force : Bool)
  /-- Show the settings. -/
  | config
  /-- Report the classes of files. -/
  | discover (paths : List String) (all json : Bool)
  /-- Show the scope tree of a file. -/
  | scopes (file : String)
  /-- Write the program of a file. -/
  | parse (file : String) (output : Option String)
  /-- Report how much of a file becomes part of its program. -/
  | audit (file : String) (output : Option String)
  deriving DecidableEq, Repr

structure Invocation where
  /-- A settings file in place of that of the directory. -/
  settingsFile : Option String
  command : Command
  deriving DecidableEq, Repr

/-- An option that stands alone. -/
inductive Switch where
  | force
  | all
  | json
  deriving DecidableEq, Repr

/-- An option that takes a value. -/
inductive Parameter where
  | config
  | output
  deriving DecidableEq, Repr

inductive Argument where
  | word (text : String)
  | flag (switch : Switch)
  | given (parameter : Parameter) (value : String)
  deriving DecidableEq, Repr

namespace Argument

def longSwitch? : String → Option Switch
  | "force" => some .force
  | "all" => some .all
  | "json" => some .json
  | _ => none

def longParameter? : String → Option Parameter
  | "config" => some .config
  | "output" => some .output
  | _ => none

def shortSwitch? : Char → Option Switch
  | 'f' => some .force
  | 'a' => some .all
  | _ => none

def shortParameter? : Char → Option Parameter
  | 'c' => some .config
  | 'o' => some .output
  | _ => none

/-- What a group of short options says before the value that one of them may take. -/
inductive Group where
  | complete (switches : List Switch)
  | attached (switches : List Switch) (parameter : Parameter) (value : List Char)
  | open_ (switches : List Switch) (parameter : Parameter)

def group? : List Char → Option Group
  | [] => some (.complete [])
  | char :: rest =>
    match shortParameter? char, rest with
    | some parameter, [] => some (.open_ [] parameter)
    | some parameter, '=' :: value => some (.attached [] parameter value)
    | some parameter, value => some (.attached [] parameter value)
    | none, rest => do
      let switch ← shortSwitch? char
      match ← group? rest with
      | .complete switches => some (.complete (switch :: switches))
      | .attached switches parameter value => some (.attached (switch :: switches) parameter value)
      | .open_ switches parameter => some (.open_ (switch :: switches) parameter)

/-- A value is not empty, and one that stands by itself does not begin like an option. -/
def isValue (text : String) : Bool :=
  match text.toList with
  | [] => false
  | ['-'] => true
  | '-' :: _ => false
  | _ => true

/-- Read arguments. After two dashes every argument is a word. -/
def readAll? : List String → Option (List Argument)
  | [] => some []
  | text :: rest =>
    match text.toList with
    | ['-', '-'] => some (rest.map .word)
    | '-' :: '-' :: long =>
      let name := String.ofList (long.takeWhile (· ≠ '='))
      match longParameter? name, long.dropWhile (· ≠ '='), rest with
      | some parameter, _ :: value, rest =>
        if value.isEmpty then none
        else (readAll? rest).map (.given parameter (String.ofList value) :: ·)
      | some parameter, [], value :: rest =>
        if isValue value then (readAll? rest).map (.given parameter value :: ·) else none
      | some _, [], [] => none
      | none, [], rest => do
        let switch ← longSwitch? name
        (readAll? rest).map (.flag switch :: ·)
      | none, _ :: _, _ => none
    | '-' :: char :: short =>
      match group? (char :: short), rest with
      | some (.complete switches), rest => (readAll? rest).map (switches.map .flag ++ ·)
      | some (.attached switches parameter value), rest =>
        if value.isEmpty then none
        else (readAll? rest).map (switches.map .flag ++ .given parameter (String.ofList value) :: ·)
      | some (.open_ switches parameter), value :: rest =>
        if isValue value then (readAll? rest).map (switches.map .flag ++ .given parameter value :: ·)
        else none
      | _, _ => none
    | [] => none
    | _ => (readAll? rest).map (.word text :: ·)

end Argument

namespace Invocation

def words (arguments : List Argument) : List String :=
  arguments.filterMap fun argument =>
    match argument with
    | .word text => some text
    | _ => none

def switches (arguments : List Argument) : List Switch :=
  arguments.filterMap fun argument =>
    match argument with
    | .flag switch => some switch
    | _ => none

def values (wanted : Parameter) (arguments : List Argument) : List String :=
  arguments.filterMap fun argument =>
    match argument with
    | .given parameter value => if parameter = wanted then some value else none
    | _ => none

/-- The one value of an option that may be left out and is not repeated. -/
def single? : List String → Option (Option String)
  | [] => some none
  | [value] => some (some value)
  | _ => none

/-- The command of a name with the words and options after it. No switch is repeated, and none is
given to a command that does not know it. -/
def command? (name : String) (words : List String) (switches : List Switch) (output : Option String) :
    Option Command :=
  if !switches.Nodup then none
  else
    match name, words, switches, output with
    | "init", [], [], none => some (.init false)
    | "init", [], [.force], none => some (.init true)
    | "config", [], [], none => some .config
    | "discover", path :: paths, switches, none =>
      if switches.contains .force then none
      else some (.discover (path :: paths) (switches.contains .all) (switches.contains .json))
    | "scopes", [file], [], none => some (.scopes file)
    | "parse", [file], [], output => some (.parse file output)
    | "audit", [file], [], output => some (.audit file output)
    | _, _, _, _ => none

/-- The invocation that arguments describe. Before the name of the command only the settings file
may be given; one that is given after the name takes its place. -/
def ofArguments? (arguments : List Argument) : Option Invocation := do
  let before := arguments.takeWhile fun argument => argument matches .given .config _
  match arguments.drop before.length with
  | .word name :: after =>
    let outer ← single? (values .config before)
    let inner ← single? (values .config after)
    let output ← single? (values .output after)
    let command ← command? name (words after) (switches after) output
    some { settingsFile := inner.or outer, command }
  | _ => none

def ofTexts? (texts : List String) : Option Invocation := Argument.readAll? texts >>= ofArguments?

end Invocation
end LuaClasses.CommandLine
