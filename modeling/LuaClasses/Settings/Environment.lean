import LuaClasses.Settings.Basic
import LuaClasses.Settings.LetterCase
import LuaClasses.Settings.Toml.Document

/-! Settings from environment variables. The name of a variable is the path of a setting, with
two underscores between its keys. Its text is a value in a small notation of its own, and a text
that is not in the notation stands for itself. -/

namespace LuaClasses.Settings

namespace Environment

/-- A text without the white space at its ends. -/
def trimmed (text : List Char) : List Char :=
  ((text.dropWhile isWhiteSpace).reverse.dropWhile isWhiteSpace).reverse

/-! ### Names -/

/-- What the names of variables begin with, in any mixture of small and capital letters. -/
def variablePrefix : List Char := "luascope_".toList

/-- The rest of a name after the common beginning, in small letters. -/
def settingName? (name : String) : Option (List Char) :=
  let chars := trimmed name.toList
  if variablePrefix.isPrefixOf (chars.map Char.toLower) then
    some (LetterCase.lower (chars.drop variablePrefix.length))
  else none

/-- Every two underscores become a dot. -/
def dotted : List Char → List Char
  | '_' :: '_' :: rest => '.' :: dotted rest
  | char :: rest => char :: dotted rest
  | [] => []

/-- The path of the setting that a variable gives. No key of a path is empty. -/
def path? (name : String) : Option (List String) := do
  let setting ← settingName? name
  let path := DottedName.segments (String.ofList (trimmed (dotted setting)))
  if path.any String.isEmpty then none else some path

/-! ### Plain values -/

/-- Whether a text is a number with a point. -/
def isDecimal (text : List Char) : Bool :=
  let (_, rest) := Toml.signed text
  let whole := rest.takeWhile Char.isDigit
  match rest.drop whole.length with
  | '.' :: rest =>
    let fraction := rest.takeWhile Char.isDigit
    (!whole.isEmpty || !fraction.isEmpty) &&
      match rest.drop fraction.length with
      | [] => true
      | mark :: rest =>
        let (_, digits) := Toml.signed rest
        (mark = 'e' || mark = 'E') && !digits.isEmpty && digits.all Char.isDigit
  | _ => false

/-- A whole number in a machine word, with or without a sign. -/
def integer? (text : List Char) : Option Int := do
  let (negative, digits) := Toml.signed text
  if digits.isEmpty then none
  let value ← Toml.numeral? 10 digits
  if negative then
    if value ≤ Nat.pow 2 63 then some (-(value : Int)) else none
  else if value < Nat.pow 2 64 then some value
  else none

def plainValue (text : List Char) : Value :=
  if isDecimal text then .other
  else
    match integer? text with
    | some value => .integer value
    | none => .text (String.ofList text)

/-! ### Values -/

/-- Pass over the white space between the parts of a value. A vertical tab is no part of it. -/
def skipBlanks (text : List Char) : List Char := text.dropWhile fun char => isBlank char && char ≠ '\x0b'

def isSeparator (char : Char) : Bool := [',', '\x7b', '\x7d', '[', ']'].contains char

def isBareKeyPart (char : Char) : Bool := char.isAlphanum || char = '_' || char = '-'

/-- The text after an opening quote, and what follows the closing one. -/
def quoted? (text : List Char) : Option (String × List Char) :=
  (Toml.basic? text).map fun (content, width) => (String.ofList content, text.drop width)

/-- The key of an entry: letters, digits and the like, or a text in quotes. -/
def key? (text : List Char) : Option (String × List Char) :=
  match text with
  | '"' :: rest => quoted? rest
  | _ =>
    let name := text.takeWhile isBareKeyPart
    if name.isEmpty then none else some (String.ofList name, text.drop name.length)

mutual
/-- A value and the blanks around it, and what follows. Each of these readers fails when its steps
run out. -/
def value? : Nat → List Char → Option (Value × List Char)
  | 0, _ => none
  | steps + 1, text => do
    let (value, rest) ← bareValue? steps (skipBlanks text)
    some (value, skipBlanks rest)

/-- A value without blanks before it. The words `true` and `false` may run on. -/
def bareValue? : Nat → List Char → Option (Value × List Char)
  | 0, _ => none
  | steps + 1, text =>
    match text with
    | 't' :: 'r' :: 'u' :: 'e' :: rest => some (.boolean true, rest)
    | 'f' :: 'a' :: 'l' :: 's' :: 'e' :: rest => some (.boolean false, rest)
    | '\x7b' :: rest => (entries? steps [] rest).map fun (entries, rest) => (.table entries, rest)
    | '[' :: rest => (items? steps rest).map fun (items, rest) => (.array items, rest)
    | '"' :: rest => (quoted? rest).map fun (content, rest) => (.text content, rest)
    | '\'' :: char :: '\'' :: rest => some (.text char.toString, rest)
    | '\'' :: _ => none
    | _ =>
      let run := text.takeWhile fun char => !isSeparator char
      some (plainValue (trimmed run), text.drop run.length)

/-- The items of an array up to its closing bracket. A comma may stand after the last one. -/
def items? : Nat → List Char → Option (List Value × List Char)
  | 0, _ => none
  | steps + 1, text =>
    match text with
    | ']' :: rest => some ([], rest)
    | _ => do
      let (first, rest) ← value? steps text
      match rest with
      | ',' :: rest =>
        let (others, rest) ← items? steps rest
        some (first :: others, rest)
      | ']' :: rest => some ([first], rest)
      | _ => none

/-- The entries of a table up to its closing brace, added to those before them. -/
def entries? : Nat → Layer → List Char → Option (Layer × List Char)
  | 0, _, _ => none
  | steps + 1, entries, text =>
    match text with
    | '\x7d' :: rest => some (entries, rest)
    | _ => do
      let (key, rest) ← key? (skipBlanks text)
      match skipBlanks rest with
      | '=' :: rest =>
        let (value, rest) ← value? steps rest
        let entries := entries.insert key value
        match rest with
        | ',' :: rest => entries? steps entries rest
        | '\x7d' :: rest => some (entries, rest)
        | _ => none
      | _ => none
end

/-- The value that the text of a variable stands for. -/
def value (text : String) : Value :=
  let chars := text.toList
  match value? (3 * chars.length + 3) chars with
  | some (value, []) => value
  | _ => .text text

/-- The settings that variables give, of which a later one goes over those before it. -/
def layer (environment : List (String × String)) : Layer :=
  environment.foldl (fun layer (name, text) =>
    match path? name with
    | some (key :: path) => Layer.over [(key, Value.nested path (value text))] layer
    | _ => layer) []

end Environment

/-- The settings of a file, which may be missing, with those of the environment over them. -/
def load? (file : Option String) (environment : List (String × String)) : Option Settings := do
  let fileLayer ← match file with
    | some text => Toml.layer? text
    | none => some []
  ofLayers? [fileLayer, Environment.layer environment]

end LuaClasses.Settings
