import LuaClasses.Character
import LuaClasses.Source.Token

/-! How the parts of a source text are spelled. The functions here measure, in characters,
what stands at the start of a text. -/

namespace LuaClasses.Source

def isDigit (char : Char) : Bool := '0' ≤ char && char ≤ '9'

def isHexDigit (char : Char) : Bool :=
  isDigit char || ('a' ≤ char && char ≤ 'f') || ('A' ≤ char && char ≤ 'F')

def isBinaryDigit (char : Char) : Bool := char = '0' || char = '1'

/-- The characters of symbols, quotes and escapes. None of them can stand in a word. -/
def punctuation : List Char :=
  ['+', '-', '*', '/', '%', '^', '#', '&', '~', '|', '<', '>', '=', '(', ')', '\x7b', '\x7d', '[', ']',
    ';', ':', ',', '.', '\\', '\'', '"']

def isWordPart (char : Char) : Bool :=
  !(isControl char || isBlank char || punctuation.contains char)

def isWordStart (char : Char) : Bool := isWordPart char && !isDigit char

/-! ### Numbers -/

/-- The length of a fraction or an integer with its point, or none. One digit at least
stands on one side of the point. -/
def mantissa? (digit : Char → Bool) (text : List Char) : Option Nat :=
  let whole := (text.takeWhile digit).length
  match text.drop whole with
  | '.' :: rest =>
    let part := (rest.takeWhile digit).length
    if whole = 0 && part = 0 then none else some (whole + 1 + part)
  | _ => if whole = 0 then none else some whole

/-- The length of an exponent, or zero. -/
def exponent (marks : List Char) : List Char → Nat
  | [] => 0
  | mark :: rest =>
    if marks.contains mark then
      let sign := match rest with
        | '+' :: _ => 1
        | '-' :: _ => 1
        | _ => 0
      let digits := ((rest.drop sign).takeWhile isDigit).length
      if digits = 0 then 0 else 1 + sign + digits
    else 0

def isOneOf (letters : List Char) : Option Char → Bool
  | some char => letters.contains char
  | none => false

/-- The length of an `LL` or `ULL` after an integer, or zero. -/
def integerSuffix (text : List Char) : Nat :=
  let unsigned := if isOneOf ['u', 'U'] text[0]? then 1 else 0
  if isOneOf ['l', 'L'] text[unsigned]? && isOneOf ['l', 'L'] text[unsigned + 1]? then unsigned + 2
  else 0

def imaginarySuffix (text : List Char) : Nat := if isOneOf ['i', 'I'] text[0]? then 1 else 0

/-- The length of the longest number in one base, where an exponent begins with one of `marks`. -/
def numberIn? (digit : Char → Bool) (marks text : List Char) : Option Nat :=
  let whole := (text.takeWhile digit).length
  let wide := if whole = 0 then 0 else integerSuffix (text.drop whole)
  if wide ≠ 0 then some (whole + wide)
  else do
    let body ← mantissa? digit text
    let body := body + exponent marks (text.drop body)
    some (body + imaginarySuffix (text.drop body))

def binaryNumber? (text : List Char) : Option Nat :=
  let whole := (text.takeWhile isBinaryDigit).length
  if whole = 0 then none
  else
    let wide := integerSuffix (text.drop whole)
    some (whole + if wide = 0 then imaginarySuffix (text.drop whole) else wide)

/-- The length of the longest number at the start of a text. Nothing has to separate it
from what follows. -/
def number? (text : List Char) : Option Nat :=
  let based : Option Nat :=
    match text with
    | '0' :: mark :: rest =>
      if mark = 'x' || mark = 'X' then (numberIn? isHexDigit ['p', 'P'] rest).map (· + 2)
      else if mark = 'b' || mark = 'B' then (binaryNumber? rest).map (· + 2)
      else none
    | _ => none
  based.or (numberIn? isDigit ['e', 'E'] text)

/-! ### Long brackets -/

/-- The level of a long bracket with this many equals signs. -/
def longLevel (signs : Nat) : Nat := signs % 256

/-- The length of the opening of a long bracket, and its level. -/
def longOpening? : List Char → Option (Nat × Nat)
  | '[' :: rest =>
    let signs := (rest.takeWhile (· = '=')).length
    if rest[signs]? = some '[' then some (signs + 2, longLevel signs) else none
  | _ => none

/-- The length of the closing of a long bracket. -/
def longClosing? (level : Nat) : List Char → Option Nat
  | ']' :: rest =>
    let signs := (rest.takeWhile (· = '=')).length
    if longLevel signs = level && rest[signs]? = some ']' then some (signs + 2) else none
  | _ => none

/-- The number of characters before the closing of a long bracket, added to `count`, and the
length of the closing. -/
def longContent? (level count : Nat) : List Char → Option (Nat × Nat)
  | [] => none
  | char :: rest =>
    match longClosing? level (char :: rest) with
    | some closing => some (count, closing)
    | none => longContent? level (count + 1) rest

/-- The length of what follows the opening of a long bracket, up to and with its closing. -/
def longRest? (level : Nat) (text : List Char) : Option Nat :=
  (longContent? level 0 text).map fun (content, closing) => content + closing

/-! ### Comments -/

/-- The length of the opening of a comment in long brackets, and its level. -/
def blockOpening? : List Char → Option (Nat × Nat)
  | '-' :: '-' :: rest => (longOpening? rest).map fun (width, level) => (width + 2, level)
  | _ => none

/-- Blanks and the opening of a comment after them: their length, and the level. -/
def blockOpeningAhead? (text : List Char) : Option (Nat × Nat) :=
  let blanks := (text.takeWhile isBlank).length
  (blockOpening? (text.drop blanks)).map fun (width, level) => (blanks + width, level)

/-- A bracket and equals signs that could have begun a long string belong to a comment that
follows them at once. Their length is zero where there are none. -/
def brokenOpening : List Char → Nat
  | '[' :: rest => (rest.takeWhile (· = '=')).length + 1
  | _ => 0

def endsLine (char : Char) : Bool := char = '\n' || char = '\r'

/-- Whether a line ends here. -/
def atLineEnd : List Char → Bool
  | [] => true
  | char :: _ => endsLine char

/-- The number of blanks within a line before two dashes that end it. -/
def bareDashes? (text : List Char) : Option Nat :=
  let blanks := (text.takeWhile fun char => isBlank char && !endsLine char).length
  match text.drop blanks with
  | '-' :: '-' :: rest => if atLineEnd rest then some blanks else none
  | _ => none

/-- The length of what follows the two dashes of a comment, up to the end of its line, added
to `count`. Other comments can stand before the text of a comment: one in long brackets, on
the same line or further down, or two dashes without a text. The text of as many comments as
`pending` says is still to come besides. -/
def lineComment? (pending count : Nat) : List Char → Option Nat
  | [] => some count
  | char :: rest =>
    match blockOpeningAhead? (char :: rest) with
    | some (opening, level) =>
      match longRest? level (rest.drop (opening - 1)) with
      | none => none
      | some width => lineComment? pending (count + opening + width) (rest.drop (opening - 1 + width))
    | none =>
      match bareDashes? (char :: rest) with
      | some blanks => lineComment? (pending + 1) (count + blanks + 2) (rest.drop (blanks + 1))
      | none =>
        let width := ((char :: rest).takeWhile fun char => !endsLine char).length
        match pending with
        | 0 => some (count + width)
        | pending + 1 => lineComment? pending (count + width) ((char :: rest).drop width)
  termination_by text => 2 * text.length + pending
  decreasing_by all_goals simp only [List.length_drop, List.length_cons]; omega

/-- The blanks and comments before a token. -/
structure Gap where
  length : Nat
  /-- Whether there is a comment. -/
  commented : Bool
  deriving DecidableEq, Repr

/-- A gap after a comment and what comes before that. -/
def Gap.afterComment (count : Nat) (gap : Gap) : Gap := ⟨count + gap.length, true⟩

/-- The gap at the start of a text, if every comment in it is closed. -/
def gap? (longStrings : Bool) : List Char → Option Gap
  | [] => some ⟨0, false⟩
  | char :: rest =>
    let blanks := ((char :: rest).takeWhile isBlank).length
    let text := (char :: rest).drop blanks
    let broken := if longStrings then brokenOpening text else 0
    match blockOpening? (text.drop broken) with
    | some (opening, level) =>
      match longRest? level (text.drop (broken + opening)) with
      | none => none
      | some width =>
        (gap? longStrings (rest.drop (blanks + broken + opening + width - 1))).map
          (Gap.afterComment (blanks + broken + opening + width))
    | none =>
      match text with
      | '-' :: '-' :: line =>
        match lineComment? 0 0 line with
        | none => none
        | some width =>
          (gap? longStrings (rest.drop (blanks + width + 1))).map (Gap.afterComment (blanks + 2 + width))
      | _ => some ⟨blanks, false⟩
  termination_by text => text.length
  decreasing_by all_goals simp only [List.length_drop, List.length_cons]; omega

/-! ### Quoted strings -/

/-- The length of what follows the backslash of an escape. -/
def escapeLength? : List Char → Option Nat
  | [] => none
  | char :: rest =>
    if ['\n', 'a', 'b', 'f', 'n', 'r', 't', 'v', '\\', '\'', '"'].contains char then some 1
    else if char = 'z' then some (1 + (rest.takeWhile isBlank).length)
    else if isDigit char then some (1 + ((rest.take 2).takeWhile isDigit).length)
    else if char = 'x' then
      if ((rest.take 2).takeWhile isHexDigit).length = 2 then some 3 else none
    else if char = 'u' then
      match rest with
      | '\x7b' :: digits =>
        let width := (digits.takeWhile isHexDigit).length
        if width ≠ 0 && digits[width]? = some '\x7d' then some (width + 3) else none
      | _ => none
    else none

/-- The parts of a text between quotes. -/
inductive Piece where
  | plain (text : List Char)
  | escape (text : List Char)
  /-- A comment in long brackets, with the blanks before it. It can stand after the opening
  quote, an escape or another comment. -/
  | comment (text : List Char)
  deriving DecidableEq, Repr

namespace Piece

def text : Piece → List Char
  | .plain text => text
  | .escape text => text
  | .comment text => text

def isEscape : Piece → Bool
  | .escape _ => true
  | _ => false

def isComment : Piece → Bool
  | .comment _ => true
  | _ => false

end Piece

/-- The pieces before the closing quote. -/
def pieces? (quote : Char) : List Char → Option (List Piece)
  | [] => none
  | char :: rest =>
    match blockOpeningAhead? (char :: rest) with
    | some (opening, level) =>
      match longRest? level (rest.drop (opening - 1)) with
      | none => none
      | some width =>
        (pieces? quote (rest.drop (opening - 1 + width))).map
          (.comment (char :: rest.take (opening - 1 + width)) :: ·)
    | none =>
      if char = quote then some []
      else if char = '\\' then
        match escapeLength? rest with
        | none => none
        | some width => (pieces? quote (rest.drop width)).map (.escape (char :: rest.take width) :: ·)
      else
        let width := (rest.takeWhile fun char => char ≠ quote && char ≠ '\\').length
        (pieces? quote (rest.drop width)).map (.plain (char :: rest.take width) :: ·)
  termination_by text => text.length
  decreasing_by all_goals simp only [List.length_drop, List.length_cons]; omega

/-- The length of the text that pieces make up. -/
def piecesLength (pieces : List Piece) : Nat := (pieces.flatMap Piece.text).length

/-- The string between quotes that is made up of pieces. The comments at either end of it are
no part of its content, those within it are. -/
def StringLiteral.ofPieces (pieces : List Piece) : StringLiteral where
  content :=
    let inner := ((pieces.dropWhile Piece.isComment).reverse.dropWhile Piece.isComment).reverse
    String.ofList (inner.flatMap Piece.text)
  isQuoted := true
  hasEscapes := pieces.any Piece.isEscape
  hasComments := pieces.any Piece.isComment

end LuaClasses.Source
