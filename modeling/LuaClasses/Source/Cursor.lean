import LuaClasses.Source.Spelling

/-! Reading a source text one token at a time. What the grammar admits at a place decides
which token stands there, so a token is read once the one before it has its meaning. -/

namespace LuaClasses.Source

/-- A place in a source text and what follows it. -/
structure Cursor where
  position : Position
  text : List Char
  /-- Whether a comment has been passed. -/
  commented : Bool
  deriving DecidableEq, Repr

namespace Cursor

def ofText (text : String) : Cursor := ⟨.start, text.toList, false⟩

def skip (cursor : Cursor) (count : Nat) : Cursor :=
  { cursor with
    position := cursor.position.after (cursor.text.take count)
    text := cursor.text.drop count }

/-- The place after a gap. -/
def pass (cursor : Cursor) (gap : Gap) : Cursor :=
  { cursor.skip gap.length with commented := cursor.commented || gap.commented }

end Cursor

/-! ### Tokens -/

def textOf (chars : List Char) (length : Nat) : String := String.ofList (chars.take length)

/-- The longest symbol at the start of a text among those that a place admits. -/
def symbol? (place : Place) (text : List Char) : Option Symbol :=
  Symbol.all.find? fun symbol => place.admits symbol && symbol.text.isPrefixOf text

/-- A token other than a word or a string, and its length. -/
def numberOrSymbol? (place : Place) (text : List Char) : Option (TokenKind × Nat) :=
  match if place.admitsNumber then number? text else none with
  | some width => some (.number (textOf text width), width)
  | none => (symbol? place text).map fun symbol => (.symbol symbol, symbol.text.length)

/-- The token at the start of a text, and its length. -/
def tokenKind? (place : Place) (char : Char) (rest : List Char) : Option (TokenKind × Nat) :=
  if isWordStart char then
    let width := (rest.takeWhile isWordPart).length + 1
    some (.word (textOf (char :: rest) width), width)
  else if char = '"' || char = '\'' then
    (pieces? char rest).map fun pieces => (.string (.ofPieces pieces), piecesLength pieces + 2)
  else
    match if place.admitsLongString then longOpening? (char :: rest) else none with
    | some (opening, level) =>
      let inner := (char :: rest).drop opening
      (longContent? level 0 inner).map fun (width, closing) =>
        (.string ⟨textOf inner width, false, false, false⟩, opening + width + closing)
    | none => numberOrSymbol? place (char :: rest)

/-- The token that follows, and the place after it. -/
def Cursor.token? (cursor : Cursor) (place : Place) : Option (Token × Cursor) := do
  let gap ← gap? place.admitsLongString cursor.text
  let start := cursor.pass gap
  match start.text with
  | [] => some (⟨.endOfText, ⟨start.position, start.position⟩⟩, start)
  | char :: rest =>
    let (kind, width) ← tokenKind? place char rest
    let stop := start.skip width
    some (⟨kind, ⟨start.position, stop.position⟩⟩, stop)

/-! ### Readings -/

/-- One look for a token: the kind of place, and the text from there on. -/
structure Attempt where
  place : Place
  text : List Char
  deriving DecidableEq, Repr

/-- What comes of reading: the result unless the reading fails, and all that was looked for. -/
structure Reading (α : Type) where
  result : Option α
  attempts : List Attempt

namespace Reading

variable {α β : Type}

def fail : Reading α := ⟨none, []⟩

def ofOption (result : Option α) : Reading α := ⟨result, []⟩

/-- Read on from what has been read. -/
def andThen (first : Reading α) (next : α → Reading β) : Reading β :=
  match first.result with
  | none => ⟨none, first.attempts⟩
  | some value =>
    let second := next value
    ⟨second.result, first.attempts ++ second.attempts⟩

instance : Monad Reading where
  pure value := ⟨some value, []⟩
  bind := andThen

end Reading

/-- A text as its readers see it: the token that has been read, and the place after it. -/
structure Input where
  head : Token
  rest : Cursor
  deriving DecidableEq, Repr

namespace Input

/-- What follows a cursor. There is no token at the end of a text. -/
def read (place : Place) (cursor : Cursor) : Reading Input where
  result := (cursor.token? place).map fun (token, rest) => ⟨token, rest⟩
  attempts := [⟨place, cursor.text⟩]

/-- Move past the token to the next one, which stands at a place of the given kind. -/
def next (input : Input) (place : Place) : Reading Input := read place input.rest

end Input
end LuaClasses.Source
