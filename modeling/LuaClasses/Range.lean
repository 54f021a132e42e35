/-! Places in a source text. Lines count from one and columns from zero in bytes of UTF-8. -/

namespace LuaClasses

/-- A place in a source text, before the character that stands there. -/
structure Position where
  line : Nat
  column : Nat
  deriving DecidableEq, Repr, Inhabited

namespace Position

def start : Position := ⟨1, 0⟩

/-- The place after a character that stands at this one. Only a line feed ends a line. -/
def advance (position : Position) (char : Char) : Position :=
  if char = '\n' then ⟨position.line + 1, 0⟩
  else ⟨position.line, position.column + char.utf8Size⟩

/-- The place after a run of characters that begins at this one. -/
def after (position : Position) (text : List Char) : Position := text.foldl advance position

end Position

/-- The part of a source text from one place up to another. -/
structure Span where
  start : Position
  stop : Position
  deriving DecidableEq, Repr, Inhabited

/-- The recorded form of a span. Lines are kept in 32 bits and columns in 16, so that
column 65536 is recorded as column 0. -/
structure Range where
  startLine : UInt32
  startColumn : UInt16
  endLine : UInt32
  endColumn : UInt16
  deriving DecidableEq, Repr, Inhabited

namespace Range

/-- The range of a statement that has no place in a text. -/
def none : Range := ⟨0, 0, 0, 0⟩

def ofSpan (span : Span) : Range where
  startLine := .ofNat span.start.line
  startColumn := .ofNat span.start.column
  endLine := .ofNat span.stop.line
  endColumn := .ofNat span.stop.column

/-- A range is shown by the place where it starts. -/
def text (range : Range) : String :=
  toString range.startLine.toNat ++ ":" ++ toString range.startColumn.toNat

end Range
end LuaClasses
