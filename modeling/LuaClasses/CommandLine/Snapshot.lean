import LuaClasses.CommandLine.Path

/-! The files that a command can see, at the moment at which it starts. -/

namespace LuaClasses.CommandLine

/-- Why a file cannot be read or written. -/
inductive FileProblem where
  | missing
  | alreadyThere
  | notDirectory
  | isDirectory
  | notText
  deriving DecidableEq, Repr

def FileProblem.message : FileProblem → String
  | .missing => "No such file or directory (os error 2)"
  | .alreadyThere => "File exists (os error 17)"
  | .notDirectory => "Not a directory (os error 20)"
  | .isDirectory => "Is a directory (os error 21)"
  | .notText => "stream did not contain valid UTF-8"

/-- The names on the way to a file or a directory from the root of all files. -/
abbrev Location := List String

inductive Entry where
  | file (content : ByteArray)
  | directory

/-- What a command sees. There are no links, so a file is at one location. -/
structure Snapshot where
  /-- The directory in which the command starts. -/
  working : Location
  files : List (Location × ByteArray)
  /-- Directories that are there whether or not a file lies below them. -/
  directories : List Location

/-- A text that a command puts into a file. -/
structure Writing where
  path : String
  text : String
  /-- The directory that is made first if it is missing. -/
  directory : Option String
  deriving DecidableEq, Repr

/-- Where one segment of a path leads from a directory. Nothing is around the root. -/
def Location.step (location : Location) (segment : String) : Location :=
  if segment = "" ∨ segment = "." then location
  else if segment = ".." then location.dropLast
  else location ++ [segment]

/-- The location from which a path starts. A slash at the beginning leads to the root. -/
def Location.origin (working : Location) (path : String) : Location :=
  if (Path.segments path).head? = some "" then [] else working

namespace Snapshot

/-- The snapshot of files at paths below the working directory. -/
def ofFiles (files : List (String × ByteArray)) : Snapshot where
  working := ["here"]
  files := files.map fun (path, content) =>
    ("here" :: (Path.segments path).filter fun segment => segment ≠ "" && segment ≠ ".", content)
  directories := []

/-- The files below a location, each with the names that lead to it from there. -/
def below (snapshot : Snapshot) (location : Location) : List (Location × ByteArray) :=
  snapshot.files.filterMap fun (place, content) =>
    if location.isPrefixOf place && place.length ≠ location.length then
      some (place.drop location.length, content)
    else none

def entry? (snapshot : Snapshot) (location : Location) : Option Entry :=
  match List.lookup location snapshot.files with
  | some content => some (.file content)
  | none =>
    if location.isPrefixOf snapshot.working || snapshot.directories.contains location ||
        !(snapshot.below location).isEmpty then
      some .directory
    else none

/-- One step of a path, which has to start from a directory. -/
def enter (snapshot : Snapshot) (location : Location) (segment : String) : Except FileProblem Location :=
  match snapshot.entry? location with
  | none => .error .missing
  | some (.file _) => .error .notDirectory
  | some .directory => .ok (Location.step location segment)

/-- The location to which a path leads, which is none for an empty path. Nothing needs to be there
yet, but what the path leads through has to be. -/
def locate (snapshot : Snapshot) (path : String) : Except FileProblem Location :=
  if path.isEmpty then .error .missing
  else (Path.segments path).foldlM snapshot.enter (Location.origin snapshot.working path)

def at? (snapshot : Snapshot) (path : String) : Option Entry :=
  match snapshot.locate path with
  | .ok location => snapshot.entry? location
  | .error _ => none

def isFile (snapshot : Snapshot) (path : String) : Bool :=
  match snapshot.at? path with
  | some (.file _) => true
  | _ => false

def isDirectory (snapshot : Snapshot) (path : String) : Bool :=
  match snapshot.at? path with
  | some .directory => true
  | _ => false

def exists_ (snapshot : Snapshot) (path : String) : Bool := (snapshot.at? path).isSome

/-- The text of a file. -/
def read (snapshot : Snapshot) (path : String) : Except FileProblem String := do
  let location ← snapshot.locate path
  match snapshot.entry? location with
  | none => throw .missing
  | some .directory => throw .isDirectory
  | some (.file content) =>
    match String.fromUTF8? content with
    | some text => return text
    | none => throw .notText

/-- Give a file a text, in place of what it held. -/
def write (snapshot : Snapshot) (path text : String) : Except FileProblem Snapshot := do
  let location ← snapshot.locate path
  match snapshot.entry? location with
  | some .directory => throw .isDirectory
  | _ =>
    let others := snapshot.files.filter fun file => file.1 ≠ location
    return { snapshot with files := others ++ [(location, text.toUTF8)] }

/-- Make a directory if there is none. -/
def makeDirectory (snapshot : Snapshot) (path : String) : Except FileProblem Snapshot := do
  let location ← snapshot.locate path
  match snapshot.entry? location with
  | some (.file _) => throw .alreadyThere
  | some .directory => return snapshot
  | none => return { snapshot with directories := snapshot.directories ++ [location] }

def apply (snapshot : Snapshot) (writing : Writing) : Except FileProblem Snapshot := do
  let ready ← match writing.directory with
    | some directory => snapshot.makeDirectory directory
    | none => pure snapshot
  ready.write writing.path writing.text

/-- The paths of the files below a path, written as continuations of it. -/
def walk (snapshot : Snapshot) (path : String) : List String :=
  match snapshot.locate path with
  | .error _ => []
  | .ok location => (snapshot.below location).map fun (names, _) => names.foldl Path.child path

/-- The Lua files among paths and below them, in order and each path once. A path that is named
itself counts whatever its extension is. -/
def luaFiles (snapshot : Snapshot) (paths : List String) : List String :=
  Path.arrange (paths.flatMap fun path =>
    if snapshot.isFile path then [path]
    else (snapshot.walk path).filter fun found =>
      Path.hasExtension ((Path.segments found).getLastD "") "lua")

end Snapshot
end LuaClasses.CommandLine
