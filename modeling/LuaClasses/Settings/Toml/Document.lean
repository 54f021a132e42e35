import LuaClasses.Scope.DottedName
import LuaClasses.Settings.Toml.Time
import LuaClasses.Settings.Value

/-! TOML documents as tables. A document may not say anything twice: a key has one value, a
table has one header, and keys with dots only enter tables that such keys have made. -/

namespace LuaClasses.Settings.Toml

/-- How a table came to be, which decides what may be added to it. -/
inductive Origin where
  /-- It has a header of its own. -/
  | header
  /-- It holds a table that has a header. -/
  | path
  /-- A key with dots made it. -/
  | dotted
  deriving DecidableEq, Repr

inductive Item where
  | value (value : Value)
  | table (origin : Origin) (entries : List (String × Item))
  /-- Tables under one key, each with a header of its own. There is always one at least. -/
  | tables (before : List (List (String × Item))) (last : List (String × Item))

abbrev Entries := List (String × Item)

mutual
def Item.toValue : Item → Value
  | .value value => value
  | .table _ entries => .table (entriesToLayer entries)
  | .tables before last => .array (tablesToValues before ++ [.table (entriesToLayer last)])

def entriesToLayer : Entries → Layer
  | [] => []
  | (key, item) :: rest => (key, item.toValue) :: entriesToLayer rest

def tablesToValues : List Entries → List Value
  | [] => []
  | entries :: rest => .table (entriesToLayer entries) :: tablesToValues rest
end

namespace Entries

def replace (entries : Entries) (key : String) (item : Item) : Entries :=
  entries.map fun entry => if entry.1 = key then (key, item) else entry

/-- Give the key that a path leads to its value. A path leads into the last of several tables. -/
def assign (entries : Entries) (path : List String) (value : Value) : Option Entries :=
  match path with
  | [] => none
  | [key] =>
    match List.lookup key entries with
    | none => some (entries ++ [(key, .value value)])
    | some _ => none
  | key :: path =>
    match List.lookup key entries with
    | none => (assign [] path value).map fun inner => entries ++ [(key, .table .dotted inner)]
    | some (.table origin inner) =>
      if origin = .header ∨ (origin = .path ∧ path.length = 1) then none
      else (assign inner path value).map fun inner => replace entries key (.table origin inner)
    | some (.tables before last) =>
      if path.length = 1 then none
      else (assign last path value).map fun last => replace entries key (.tables before last)
    | some (.value _) => none

/-- Enter a header. `finish` says what becomes of its last key, and of what the key holds. -/
def declare (finish : Option Item → Option Item) (entries : Entries) (path : List String) :
    Option Entries :=
  match path with
  | [] => none
  | [key] => do
    let held := List.lookup key entries
    let item ← finish held
    some (if held.isSome then replace entries key item else entries ++ [(key, item)])
  | key :: path =>
    match List.lookup key entries with
    | none => (declare finish [] path).map fun inner => entries ++ [(key, .table .path inner)]
    | some (.table origin inner) =>
      (declare finish inner path).map fun inner => replace entries key (.table origin inner)
    | some (.tables before last) =>
      (declare finish last path).map fun last => replace entries key (.tables before last)
    | some (.value _) => none

/-- The header of a table. It may come after the headers of tables within it. -/
def tableHeader : Option Item → Option Item
  | none => some (.table .header [])
  | some (.table .path inner) => some (.table .header inner)
  | some _ => none

/-- The header of one more table under the same key. -/
def elementHeader : Option Item → Option Item
  | none => some (.tables [] [])
  | some (.tables before last) => some (.tables (before ++ [last]) [])
  | some _ => none

/-- Change the entries of the table that a path leads to. -/
def within (change : Entries → Option Entries) (entries : Entries) (path : List String) :
    Option Entries :=
  match path with
  | [] => change entries
  | key :: path =>
    match List.lookup key entries with
    | some (.table origin inner) =>
      (within change inner path).map fun inner => replace entries key (.table origin inner)
    | some (.tables before last) =>
      (within change last path).map fun last => replace entries key (.tables before last)
    | _ => none

end Entries

/-! ### Numbers -/

/-- The digits of a number between whose digits underscores may stand. -/
def digits? (text : List Char) : Option (List Char) :=
  let groups := (String.ofList text).split (· = '_') |>.toList.map fun group => group.toString.toList
  if groups.all fun group => !group.isEmpty then some groups.flatten else none

/-- The digits of a decimal number, which begins with a zero only if it is zero. -/
def decimal? (text : List Char) : Option Nat := do
  let digits ← digits? text
  if digits.head? = some '0' ∧ digits.length ≠ 1 then none
  numeral? 10 digits

/-- A sign and what follows it. -/
def signed (text : List Char) : Bool × List Char :=
  match text with
  | '+' :: rest => (false, rest)
  | '-' :: rest => (true, rest)
  | _ => (false, text)

def integer? (text : List Char) : Option Int := do
  let value : Int ← match text with
    | '0' :: 'x' :: rest => (digits? rest >>= numeral? 16).map Int.ofNat
    | '0' :: 'o' :: rest => (digits? rest >>= numeral? 8).map Int.ofNat
    | '0' :: 'b' :: rest => (digits? rest >>= numeral? 2).map Int.ofNat
    | _ =>
      let (negative, rest) := signed text
      (decimal? rest).map fun value => if negative then -(value : Int) else value
  let bound : Int := Nat.pow 2 63
  if -bound ≤ value ∧ value < bound then some value else none

/-- Whether `digits` times a power of ten is too large for a floating-point number: it is when it
is not less than 2^1024 by half the distance of the largest two numbers. -/
def overflows (digits : Nat) (exponent : Int) : Bool :=
  let bound := Nat.pow 2 1024 - Nat.pow 2 970
  let size : Int := (Nat.toDigits 10 digits).length + exponent
  if digits = 0 || size < 300 then false
  else if size > 320 then true
  else if 0 ≤ exponent then bound ≤ digits * Nat.pow 10 exponent.toNat
  else bound * Nat.pow 10 exponent.natAbs ≤ digits

/-- The number that digits with underscores between them write. -/
def grouped? (text : List Char) : Option (List Char × Nat) := do
  let digits ← digits? text
  some (digits, ← numeral? 10 digits)

def exponent? (text : List Char) : Option Int := do
  let (negative, rest) := signed text
  let (_, value) ← grouped? rest
  some (if negative then -(value : Int) else value)

/-- A number with a fraction, an exponent or both: the digits before and after the point, and the
exponent. -/
def realParts? (text : List Char) : Option (List Char × List Char × Int) := do
  let whole := text.takeWhile fun char => !(['.', 'e', 'E'].contains char)
  let _ ← decimal? whole
  let wholeDigits ← digits? whole
  match text.drop whole.length with
  | '.' :: rest =>
    let fraction := rest.takeWhile fun char => !(['e', 'E'].contains char)
    let (digits, _) ← grouped? fraction
    match rest.drop fraction.length with
    | [] => some (wholeDigits, digits, 0)
    | _ :: rest => some (wholeDigits, digits, ← exponent? rest)
  | _ :: rest => some (wholeDigits, [], ← exponent? rest)
  | [] => none

/-- Whether the text is a floating-point number. One that is not finite has to say so. -/
def isReal (text : List Char) : Bool :=
  let (negative, rest) := signed text
  rest = ['i', 'n', 'f'] || rest = ['n', 'a', 'n'] ||
    match realParts? rest with
    | some (whole, fraction, exponent) =>
      let digits := (numeral? 10 (whole ++ fraction)).getD 0
      negative || !overflows digits (exponent - fraction.length)
    | none => false

/-- A moment is a table of its own kind, with its text under a key that nothing else has. -/
def momentValue (moment : Moment) : Value := .table [("$__toml_private_datetime", .text moment.text)]

/-- The value that a word stands for. -/
def wordValue? (word : String) : Option Value :=
  if word = "true" then some (.boolean true)
  else if word = "false" then some (.boolean false)
  else
    match Moment.ofText? word.toList with
    | some moment => some (momentValue moment)
    | none =>
      match integer? word.toList with
      | some value => some (.integer value)
      | none => if isReal word.toList then some .other else none

/-! ### Keys -/

def isBareKey (text : String) : Bool :=
  !text.isEmpty && text.all fun char => char.isAlphanum || char = '_' || char = '-'

/-- The segments of a key and the dots between them, where a dot has no name. -/
def keyParts? : List Token → Option (List (Option String))
  | [] => some []
  | .word text :: rest => do
    let segments := (DottedName.segments text).map fun segment =>
      if segment.isEmpty then [] else [some segment]
    if segments.flatten.any fun segment => !isBareKey (segment.getD "") then none
    let others ← keyParts? rest
    some ([none].intercalate segments ++ others)
  | .quoted text false :: rest => (keyParts? rest).map (some text :: ·)
  | _ => none

/-- The names of a key, which alternate with dots. -/
def path? : List (Option String) → Option (List String)
  | [some name] => some [name]
  | some name :: none :: rest => (path? rest).map (name :: ·)
  | _ => none

def isKeyToken : Token → Bool
  | .word _ => true
  | .quoted _ _ => true
  | _ => false

/-- The number of levels that a document may not reach: names of one key, or values in values. -/
def levelLimit : Nat := 80

/-- A key at the start of tokens, and the tokens after it. -/
def key? (tokens : List Token) : Option (List String × List Token) := do
  let path ← keyParts? (tokens.takeWhile isKeyToken) >>= path?
  if path.length < levelLimit then some (path, tokens.dropWhile isKeyToken) else none

/-! ### Values and lines -/

def skipLineEnds (tokens : List Token) : List Token := tokens.dropWhile (· = .lineEnd)

mutual
/-- A value at the start of tokens, within `level` arrays and tables in braces. Each of these readers
fails when its steps run out. -/
def value? : Nat → Nat → List Token → Option (Value × List Token)
  | 0, _, _ => none
  | steps + 1, level, tokens =>
    match tokens with
    | .word text :: rest => (wordValue? text).map (·, rest)
    | .quoted text _ :: rest => some (.text text, rest)
    | .openBracket _ :: rest =>
      if level + 1 < levelLimit then
        (items? steps (level + 1) (skipLineEnds rest)).map fun (items, rest) => (.array items, rest)
      else none
    | .openBrace :: rest =>
      if level + 1 < levelLimit then
        match rest with
        | .closeBrace :: rest => some (.table [], rest)
        | _ =>
          (members? steps (level + 1) [] rest).map fun (entries, rest) =>
            (.table (entriesToLayer entries), rest)
      else none
    | _ => none

/-- The items of an array up to its closing bracket. A comma may stand after the last one. -/
def items? : Nat → Nat → List Token → Option (List Value × List Token)
  | 0, _, _ => none
  | steps + 1, level, tokens =>
    match tokens with
    | .closeBracket _ :: rest => some ([], rest)
    | _ => do
      let (first, rest) ← value? steps level tokens
      match skipLineEnds rest with
      | .comma :: rest =>
        let (others, rest) ← items? steps level (skipLineEnds rest)
        some (first :: others, rest)
      | .closeBracket _ :: rest => some ([first], rest)
      | _ => none

/-- The members of a table in braces, added to those before them. -/
def members? : Nat → Nat → Entries → List Token → Option (Entries × List Token)
  | 0, _, _, _ => none
  | steps + 1, level, entries, tokens => do
    let (entries, rest) ← member? steps level entries tokens
    match rest with
    | .comma :: rest => members? steps level entries rest
    | .closeBrace :: rest => some (entries, rest)
    | _ => none

/-- A key and its value, added to the entries before them. -/
def member? : Nat → Nat → Entries → List Token → Option (Entries × List Token)
  | 0, _, _, _ => none
  | steps + 1, level, entries, tokens => do
    match ← key? tokens with
    | (path, .equals :: rest) =>
      let (value, rest) ← value? steps level rest
      some (← Entries.assign entries path value, rest)
    | _ => none
end

/-- The tokens of the lines that follow, if a line ends here. -/
def endOfLine? : List Token → Option (List Token)
  | [] => some []
  | .lineEnd :: rest => some rest
  | _ => none

/-- Read the lines of a document into its entries. `header` is the path of the last header. -/
def lines? : Nat → List String → Entries → List Token → Option Entries
  | _, _, entries, [] => some entries
  | 0, _, _, _ => none
  | steps + 1, header, entries, .lineEnd :: rest => lines? steps header entries rest
  | steps + 1, _, entries, .openBracket true :: .openBracket _ :: rest => do
    match ← key? rest with
    | (path, .closeBracket true :: .closeBracket _ :: rest) =>
      lines? steps path (← Entries.declare Entries.elementHeader entries path) (← endOfLine? rest)
    | _ => none
  | steps + 1, _, entries, .openBracket _ :: rest => do
    match ← key? rest with
    | (path, .closeBracket _ :: rest) =>
      lines? steps path (← Entries.declare Entries.tableHeader entries path) (← endOfLine? rest)
    | _ => none
  | steps + 1, header, entries, tokens => do
    match ← key? tokens with
    | (path, .equals :: rest) =>
      let (value, rest) ← value? steps 0 rest
      let entries ← Entries.within (fun inner => Entries.assign inner path value) entries header
      lines? steps header entries (← endOfLine? rest)
    | _ => none

/-- The layer that a document describes. A byte order mark before it does not count. -/
def layer? (text : String) : Option Layer := do
  let chars := match text.toList with
    | '\ufeff' :: rest => rest
    | chars => chars
  let tokens ← tokens? chars
  let entries ← lines? (2 * tokens.length + 1) [] [] tokens
  some (entriesToLayer entries)

end LuaClasses.Settings.Toml
