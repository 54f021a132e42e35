/-! Names made of segments joined by dots. -/

namespace LuaClasses.DottedName

def splitDots : List Char → List (List Char)
  | [] => [[]]
  | char :: rest =>
    if char = '.' then [] :: splitDots rest
    else
      match splitDots rest with
      | [] => [[char]]
      | segment :: others => (char :: segment) :: others

/-- The parts of a name between its dots. There is always one at least. -/
def segments (name : String) : List String := (splitDots name.toList).map String.ofList

def join (segments : List String) : String := String.intercalate "." segments

/-- A name of one segment more. -/
def child (parent name : String) : String := parent ++ "." ++ name

/-- The part of a name before its last dot and the part after it. -/
def splitLast? (name : String) : Option (String × String) :=
  match (segments name).reverse with
  | last :: before :: others => some (join (before :: others).reverse, last)
  | _ => none

end LuaClasses.DottedName
