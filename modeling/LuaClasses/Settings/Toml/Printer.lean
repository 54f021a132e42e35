import LuaClasses.Settings.Basic
import LuaClasses.Settings.Toml.Document

/-! Settings written as a TOML document: one table after the other, each with a header and its
keys in their order. -/

namespace LuaClasses.Settings.Toml

/-- The four ways to write a string. -/
inductive Quoting where
  | basic
  | literal
  | basicLines
  | literalLines
  deriving DecidableEq, Repr

/-- The length of the longest run of a character. -/
def longestRun (char : Char) : List Char → Nat
  | [] => 0
  | head :: rest => max ((head :: rest).takeWhile (· = char)).length (longestRun char rest)

/-- Whether a string holds a character that only an escape can write. -/
def needsEscapes (text : List Char) : Bool := text.any fun char => isControl char && char ≠ '\n'

/-- The quoting that shows a string best: without escapes if there is one, and on one line if
that is possible. -/
def quoting (text : List Char) : Quoting :=
  let plain := !needsEscapes text
  let oneLine := !text.contains '\n'
  let double := longestRun '"' text
  let single := longestRun '\'' text
  let slashes := text.contains '\\'
  if plain && oneLine && double = 0 && !slashes then .basic
  else if plain && oneLine && single = 0 then .literal
  else if plain && double ≤ 2 && !slashes then .basicLines
  else if plain && single ≤ 2 then .literalLines
  else if oneLine then .basic
  else .basicLines

def fourDigits (value : Nat) : String :=
  let digits := Nat.toDigits 16 value
  String.ofList (List.replicate (4 - digits.length) '0' ++ digits.map Char.toUpper)

/-- A character between double quotes. -/
def escaped (char : Char) : String :=
  match char with
  | '\x08' => "\\b"
  | '\t' => "\\t"
  | '\n' => "\\n"
  | '\x0c' => "\\f"
  | '\r' => "\\r"
  | '"' => "\\\""
  | '\\' => "\\\\"
  | char => if isControl char then "\\u" ++ fourDigits char.toNat else char.toString

/-- The body of a string over several lines between double quotes. Every third quote of a run is
escaped; `run` counts those before the text. -/
def bodyOverLines (run : Nat) : List Char → String
  | [] => ""
  | char :: rest =>
    if char = '"' then
      if run = 2 then "\\\"" ++ bodyOverLines 0 rest else "\"" ++ bodyOverLines (run + 1) rest
    else if char = '\n' then "\n" ++ bodyOverLines 0 rest
    else escaped char ++ bodyOverLines 0 rest

/-- A string in quotes. One that has several lines begins on a line of its own. -/
def quoted (text : String) : String :=
  let chars := text.toList
  let opening := if chars.contains '\n' then "\n" else ""
  match quoting chars with
  | .basic => "\"" ++ String.join (chars.map escaped) ++ "\""
  | .literal => "'" ++ text ++ "'"
  | .basicLines => "\"\"\"" ++ opening ++ bodyOverLines 0 chars ++ "\"\"\""
  | .literalLines => "'''" ++ opening ++ text ++ "'''"

/-- A key, in quotes unless it needs none. A key stands on one line. -/
def key (name : String) : String :=
  let chars := name.toList
  if isBareKey name then name
  else if quoting chars = .literal then "'" ++ name ++ "'"
  else "\"" ++ String.join (chars.map escaped) ++ "\""

/-- A value that is no table, in writing. -/
def scalar? : Value → Option String
  | .boolean value => some (if value then "true" else "false")
  | .integer value => some (toString value)
  | .text value => some (quoted value)
  | _ => none

/-- The lines of the keys of a layer whose values are no tables. -/
def scalarLines (layer : Layer) : List String :=
  layer.filterMap fun (name, value) => (scalar? value).map fun written => key name ++ " = " ++ written

mutual
/-- The lines of the tables below a path. Each has a header after an empty line. -/
def tableLines (path : List String) : Layer → List String
  | [] => []
  | (name, value) :: rest => valueLines (path ++ [key name]) value ++ tableLines path rest

def valueLines (path : List String) : Value → List String
  | .table entries =>
    "" :: ("[" ++ String.intercalate "." path ++ "]") :: scalarLines entries ++ tableLines path entries
  | _ => []
end

/-- A layer as a document, each line with a line feed after it. -/
def document (layer : Layer) : String :=
  String.join ((scalarLines layer ++ tableLines [] layer).map fun line => line ++ "\n")

end Toml

/-- The settings as a TOML document. -/
def toToml (settings : Settings) : String := Toml.document settings.toLayer

end LuaClasses.Settings
