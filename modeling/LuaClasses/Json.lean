/-! JSON values and their two written forms: on one line, or indented by two spaces.
The members of an object are written in the order in which they are listed. -/

namespace LuaClasses

inductive Json where
  | null
  | boolean (value : Bool)
  | integer (value : Int)
  | string (value : String)
  | array (items : List Json)
  | object (members : List (String × Json))
  deriving Inhabited

namespace Json

def hexDigit (value : Nat) : Char :=
  if value < 10 then Char.ofNat ('0'.toNat + value) else Char.ofNat ('a'.toNat + (value - 10))

/-- Quotes, backslashes and control characters are escaped; everything else is written as it is. -/
def escape (char : Char) : String :=
  match char with
  | '"' => "\\\""
  | '\\' => "\\\\"
  | '\n' => "\\n"
  | '\r' => "\\r"
  | '\t' => "\\t"
  | '\x08' => "\\b"
  | '\x0c' => "\\f"
  | char =>
    if char.toNat < 32 then
      String.ofList ['\\', 'u', '0', '0', hexDigit (char.toNat / 16), hexDigit (char.toNat % 16)]
    else char.toString

def quoted (text : String) : String :=
  "\"" ++ text.foldl (fun written char => written ++ escape char) "" ++ "\""

mutual
/-- The value on one line, without blanks. -/
def compact : Json → String
  | .null => "null"
  | .boolean value => if value then "true" else "false"
  | .integer value => toString value
  | .string value => quoted value
  | .array items => "[" ++ String.intercalate "," (compactItems items) ++ "]"
  | .object members => "\x7b" ++ String.intercalate "," (compactMembers members) ++ "\x7d"

def compactItems : List Json → List String
  | [] => []
  | item :: rest => compact item :: compactItems rest

def compactMembers : List (String × Json) → List String
  | [] => []
  | (name, value) :: rest => (quoted name ++ ":" ++ compact value) :: compactMembers rest
end

/-- The lines of a bracketed list, each on a line of its own one level deeper. -/
def bracketed (margin opening closing : String) : List String → String
  | [] => opening ++ closing
  | lines =>
    opening ++ "\n" ++ String.intercalate ",\n" (lines.map fun line => margin ++ "  " ++ line)
      ++ "\n" ++ margin ++ closing

mutual
/-- The value with one item a line, where `margin` stands before the line it begins on. -/
def prettyFrom (margin : String) : Json → String
  | .null => "null"
  | .boolean value => if value then "true" else "false"
  | .integer value => toString value
  | .string value => quoted value
  | .array items => bracketed margin "[" "]" (prettyItems (margin ++ "  ") items)
  | .object members => bracketed margin "\x7b" "\x7d" (prettyMembers (margin ++ "  ") members)

def prettyItems (margin : String) : List Json → List String
  | [] => []
  | item :: rest => prettyFrom margin item :: prettyItems margin rest

def prettyMembers (margin : String) : List (String × Json) → List String
  | [] => []
  | (name, value) :: rest =>
    (quoted name ++ ": " ++ prettyFrom margin value) :: prettyMembers margin rest
end

def pretty (value : Json) : String := prettyFrom "" value

def strings (texts : List String) : Json := .array (texts.map .string)

def optional (write : α → Json) : Option α → Json
  | none => .null
  | some value => write value

end Json
end LuaClasses
