/-! The order of paths, which compares them part by part and not as text, and the extensions
of file names. -/

namespace LuaClasses.CommandLine

/-- A part of a path between slashes. -/
inductive PathPart where
  /-- The slash at the beginning. -/
  | root
  /-- The point at the beginning of a path that is not absolute. -/
  | here
  | up
  | name (text : String)
  deriving DecidableEq, Repr

namespace PathPart

def rank : PathPart → Nat
  | .root => 0
  | .here => 1
  | .up => 2
  | .name _ => 3

def text : PathPart → String
  | .name text => text
  | _ => ""

/-- The order of parts: names come last, in the order of their characters. -/
def compare : PathPart → PathPart → Ordering := compareLex (compareOn rank) (compareOn text)

def ofText : String → PathPart
  | "." => .here
  | ".." => .up
  | other => .name other

end PathPart

namespace Path

/-- The texts between the slashes of a path. -/
def splitSlashes : List Char → List (List Char)
  | [] => [[]]
  | char :: rest =>
    if char = '/' then [] :: splitSlashes rest
    else
      match splitSlashes rest with
      | [] => [[char]]
      | segment :: others => (char :: segment) :: others

def segments (path : String) : List String := (splitSlashes path.toList).map String.ofList

/-- The parts of a path. Repeated slashes, a slash at the end and points inside do not count. -/
def parts (path : String) : List PathPart :=
  match segments path with
  | [] => []
  | first :: others =>
    let start :=
      if !first.isEmpty then [PathPart.ofText first]
      else if others.isEmpty then [] else [.root]
    start ++ (others.filter fun segment => !segment.isEmpty && segment ≠ ".").map PathPart.ofText

def precedes (left right : String) : Bool :=
  (List.compareLex PathPart.compare (parts left) (parts right)).isLE

/-- The path of an entry of a directory. -/
def child (directory name : String) : String :=
  if directory.isEmpty || directory.endsWith "/" then directory ++ name else directory ++ "/" ++ name

/-- Whether a file name ends in an extension. A point at its very beginning starts no extension. -/
def hasExtension (name extension : String) : Bool :=
  let suffix := "." ++ extension
  name.endsWith suffix && name ≠ suffix

/-- Keep the first of neighbours that have the same parts. -/
def dropRepeats : List String → List String
  | [] => []
  | path :: rest =>
    match dropRepeats rest with
    | [] => [path]
    | next :: others => if parts next = parts path then path :: others else path :: next :: others

/-- Paths in order, each once. -/
def arrange (paths : List String) : List String := dropRepeats (paths.mergeSort precedes)

end Path
end LuaClasses.CommandLine
