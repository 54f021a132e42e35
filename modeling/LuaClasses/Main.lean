import LuaClasses.CommandLine.Run
import Std.Time.Format

/-! The command line program. It looks at the files that its arguments name, runs the command on
what it saw, and carries out the outcome. -/

namespace LuaClasses.Main

open CommandLine

/-- The time of reports, which is that of Greenwich. -/
def currentTime : IO String := do
  let now ← Std.Time.Timestamp.now
  return (Std.Time.DateTime.ofTimestampWithZone now .UTC).format "uuuu-MM-dd HH:mm:ss 'UTC'"

/-- The environment variables of this process. -/
def environment : IO (List (String × String)) := do
  try
    let content ← IO.FS.readBinFile "/proc/self/environ"
    let text := (String.fromUTF8? content).getD ""
    return (text.split (· = '\x00')).toList.filterMap fun entry =>
      let chars := entry.toString.toList
      let name := chars.takeWhile (· ≠ '=')
      if name.length = chars.length then none
      else some (String.ofList name, String.ofList (chars.drop (name.length + 1)))
  catch _ => return []

/-- The names that lead to the working directory. -/
def working : IO Location := return (← IO.currentDir).components.filter (!·.isEmpty)

/-- The Lua files below a directory. -/
partial def lookBelow (location : Location) (directory : IO.FS.DirEntry) : IO Snapshot := do
  let mut seen : Snapshot := ⟨[], [], [location]⟩
  for entry in ← directory.path.readDir do
    let place := location ++ [entry.fileName]
    if ← entry.path.isDir then
      let inside ← lookBelow place entry
      seen := ⟨[], seen.files ++ inside.files, seen.directories ++ inside.directories⟩
    else if Path.hasExtension entry.fileName "lua" then
      seen := { seen with files := seen.files ++ [(place, ← IO.FS.readBinFile entry.path)] }
  return seen

/-- What a path leads through from the working directory and what is there. -/
def look (working : Location) (path : String) : IO Snapshot := do
  let mut location := Location.origin working path
  let mut entry : IO.FS.DirEntry := ⟨← IO.currentDir, if isAbsolute path then "/" else "."⟩
  let mut directories : List Location := [location]
  for segment in Path.segments path do
    location := Location.step location segment
    entry := ⟨entry.path, if segment.isEmpty then "." else segment⟩
    if ← entry.path.isDir then directories := directories ++ [location]
  if ← entry.path.isDir then
    let inside ← lookBelow location entry
    return ⟨working, inside.files, directories ++ inside.directories⟩
  else if ← entry.path.pathExists then
    return ⟨working, [(location, ← IO.FS.readBinFile entry.path)], directories⟩
  else return ⟨working, [], directories⟩

/-- Everything that arguments may depend on. -/
def surroundings (arguments : List String) : IO Surroundings := do
  let working ← working
  let depth := working.length
  let paths := ((Invocation.ofTexts? arguments).map (Invocation.paths depth)).getD []
  let mut files : Snapshot := ⟨working, [], []⟩
  for path in paths do
    let seen ← look working path
    files := ⟨working, files.files ++ seen.files, files.directories ++ seen.directories⟩
  return { files, depth, environment := ← environment, time := ← currentTime }

def carryOut (writing : Writing) : IO Unit := do
  if let some directory := writing.directory then IO.FS.createDirAll directory
  IO.FS.writeFile writing.path writing.text

end LuaClasses.Main

open LuaClasses in
/-- Run the command that the arguments describe. -/
def main (arguments : List String) : IO UInt32 := do
  let outcome := CommandLine.runArguments (← Main.surroundings arguments) arguments
  if let some writing := outcome.writing then Main.carryOut writing
  (← IO.getStdout).putStr outcome.output
  (← IO.getStderr).putStr outcome.errors
  return UInt32.ofNat outcome.exitCode
