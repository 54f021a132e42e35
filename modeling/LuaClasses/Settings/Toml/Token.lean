/-! The tokens of a TOML document. Numbers, booleans, dates and bare keys are all words, since only
their place tells them apart: `1.5` may be a number or a key of two segments. -/

namespace LuaClasses.Settings.Toml

inductive Token where
  /-- A run of letters, digits, signs, dots, colons and underscores. A date and the time after it
  are one word, with the space between them. -/
  | word (text : String)
  /-- A string, which may be written over several lines. -/
  | quoted (text : String) (overLines : Bool)
  /-- A bracket; `doubled` says that another one of its kind follows it directly. -/
  | openBracket (doubled : Bool)
  | closeBracket (doubled : Bool)
  | openBrace
  | closeBrace
  | comma
  | equals
  | lineEnd
  deriving DecidableEq, Repr

/-- Control characters are written as escapes only. The tab is the one exception. -/
def isControl (char : Char) : Bool := char ≠ '\t' && (char.toNat < 32 || char.toNat = 127)

/-- The characters that may stand in strings and comments. -/
def isPlain (char : Char) : Bool := !isControl char

def isWordPart (char : Char) : Bool := char.isAlphanum || ['_', '-', '+', '.', ':'].contains char

/-- Whether a text has the shape of a date. -/
def isDateLike (text : List Char) : Bool :=
  match text with
  | [a, b, c, d, '-', e, f, '-', g, h] => [a, b, c, d, e, f, g, h].all Char.isDigit
  | _ => false

/-- Whether a text begins like a time. -/
def beginsTime : List Char → Bool
  | first :: second :: ':' :: _ => first.isDigit && second.isDigit
  | _ => false

/-- The word at the start of a text. -/
def word (text : List Char) : List Char :=
  let run := text.takeWhile isWordPart
  match text.drop run.length with
  | ' ' :: rest =>
    if isDateLike run && beginsTime rest then run ++ ' ' :: rest.takeWhile isWordPart else run
  | _ => run

def digitValue? (char : Char) : Option Nat :=
  if char.isDigit then some (char.toNat - '0'.toNat)
  else if 'a' ≤ char ∧ char ≤ 'f' then some (char.toNat - 'a'.toNat + 10)
  else if 'A' ≤ char ∧ char ≤ 'F' then some (char.toNat - 'A'.toNat + 10)
  else none

/-- The number that digits write in a base, if all of them are digits of it. -/
def numeral? (base : Nat) (digits : List Char) : Option Nat :=
  digits.foldlM (fun value char => do
    let digit ← digitValue? char
    if digit < base then some (value * base + digit) else none) 0

/-- The character whose number stands at the start of a text in so many hexadecimal digits. -/
def numbered? (width : Nat) (text : List Char) : Option (Char × Nat) := do
  let digits := text.take width
  if digits.length < width then none
  let value ← numeral? 16 digits
  if value.isValidChar then some (Char.ofNat value, width + 1) else none

/-- The character for which an escape stands, and the length of the escape after its backslash. -/
def escape? : List Char → Option (Char × Nat)
  | [] => none
  | char :: rest =>
    match char with
    | 'b' => some ('\x08', 1)
    | 't' => some ('\t', 1)
    | 'n' => some ('\n', 1)
    | 'f' => some ('\x0c', 1)
    | 'r' => some ('\r', 1)
    | '"' => some ('"', 1)
    | '\\' => some ('\\', 1)
    | 'u' => numbered? 4 rest
    | 'U' => numbered? 8 rest
    | _ => none

/-- What a string in double quotes says, and its length after the opening quote. -/
def basic? : List Char → Option (List Char × Nat)
  | [] => none
  | char :: rest =>
    if char = '"' then some ([], 1)
    else if char = '\\' then do
      let (escaped, width) ← escape? rest
      let (content, more) ← basic? (rest.drop width)
      some (escaped :: content, 1 + width + more)
    else if isPlain char then do
      let (content, more) ← basic? rest
      some (char :: content, 1 + more)
    else none
  termination_by text => text.length
  decreasing_by all_goals simp only [List.length_drop, List.length_cons]; omega

/-- What a string in single quotes says, and its length after the opening quote. -/
def literal? : List Char → Option (List Char × Nat)
  | [] => none
  | char :: rest =>
    if char = '\'' then some ([], 1)
    else if isPlain char then do
      let (content, more) ← literal? rest
      some (char :: content, 1 + more)
    else none

/-- The length of a line end at the start of a text, or zero. -/
def lineEndLength : List Char → Nat
  | '\n' :: _ => 1
  | '\r' :: '\n' :: _ => 2
  | _ => 0

/-- The closing of a string over several lines: three quotes, after at most two that belong to
the string. -/
def closing? (quote : Char) (text : List Char) : Option (List Char × Nat) :=
  let run := min 5 (text.takeWhile (· = quote)).length
  if run < 3 then none else some (List.replicate (run - 3) quote, run)

/-- The length of the blanks and line ends at the start of a text. -/
def blankLength (text : List Char) : Nat :=
  (text.takeWhile fun char => char = ' ' || char = '\t' || char = '\n' || char = '\r').length

/-- Whether a backslash before the text ends its line, so that the blanks after it do not count. -/
def continuesLine (text : List Char) : Bool :=
  lineEndLength (text.dropWhile fun char => char = ' ' || char = '\t') ≠ 0

/-- What a string over several lines says, and its length after the opening quotes. Escapes
count only between double quotes. -/
def overLines? (quote : Char) : List Char → Option (List Char × Nat)
  | [] => none
  | char :: rest =>
    match closing? quote (char :: rest) with
    | some closed => some closed
    | none =>
      if char = '\\' ∧ quote = '"' then
        if continuesLine rest then do
          let width := blankLength rest
          let (content, more) ← overLines? quote (rest.drop width)
          some (content, 1 + width + more)
        else do
          let (escaped, width) ← escape? rest
          let (content, more) ← overLines? quote (rest.drop width)
          some (escaped :: content, 1 + width + more)
      else if lineEndLength (char :: rest) ≠ 0 then do
        let width := lineEndLength (char :: rest) - 1
        let (content, more) ← overLines? quote (rest.drop width)
        some ('\n' :: content, 1 + width + more)
      else if isPlain char then do
        let (content, more) ← overLines? quote rest
        some (char :: content, 1 + more)
      else none
  termination_by text => text.length
  decreasing_by all_goals simp only [List.length_drop, List.length_cons]; omega

/-- A string whose opening quote stands before the text, and its length after that quote. A line
end right after three opening quotes does not count. -/
def string? (quote : Char) (text : List Char) : Option (Token × Nat) :=
  if text.take 2 = [quote, quote] then do
    let skipped := 2 + lineEndLength (text.drop 2)
    let (content, width) ← overLines? quote (text.drop skipped)
    some (.quoted (String.ofList content) true, skipped + width)
  else do
    let (content, width) ← if quote = '"' then basic? text else literal? text
    some (.quoted (String.ofList content) false, width)

/-- The token that begins with a character, if that is no blank or comment, and how many of the
characters after it belong to it. -/
def read? (char : Char) (rest : List Char) : Option (Option Token × Nat) :=
  if char = ' ' ∨ char = '\t' then some (none, 0)
  else if char = '#' then some (none, (rest.takeWhile isPlain).length)
  else if lineEndLength (char :: rest) ≠ 0 then some (some .lineEnd, lineEndLength (char :: rest) - 1)
  else if isWordPart char then
    let found := word (char :: rest)
    some (some (.word (String.ofList found)), found.length - 1)
  else
    match char with
    | '"' => (string? '"' rest).map fun (token, width) => (some token, width)
    | '\'' => (string? '\'' rest).map fun (token, width) => (some token, width)
    | '[' => some (some (.openBracket (rest.head? = some '[')), 0)
    | ']' => some (some (.closeBracket (rest.head? = some ']')), 0)
    | '\x7b' => some (some .openBrace, 0)
    | '\x7d' => some (some .closeBrace, 0)
    | ',' => some (some .comma, 0)
    | '=' => some (some .equals, 0)
    | _ => none

/-- The tokens of a text, or none when a part of it begins no token. -/
def tokens? : List Char → Option (List Token)
  | [] => some []
  | char :: rest => do
    let (token, width) ← read? char rest
    let others ← tokens? (rest.drop width)
    some (token.toList ++ others)
  termination_by text => text.length
  decreasing_by simp only [List.length_drop, List.length_cons]; omega

end LuaClasses.Settings.Toml
