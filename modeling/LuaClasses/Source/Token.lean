import LuaClasses.Range

/-! The tokens of Lua source text. -/

namespace LuaClasses.Source

/-- The words of the grammar. None of them is reserved: where the grammar has no use for one of
them, it is a name like any other word. -/
inductive Keyword where
  | and
  | break_
  | do_
  | else_
  | elseif
  | end_
  | false_
  | for_
  | function
  | global
  | goto
  | if_
  | in_
  | local_
  | nil
  | not
  | or
  | repeat_
  | return_
  | then_
  | true_
  | until_
  | while_
  deriving DecidableEq, Repr

namespace Keyword

def all : List Keyword :=
  [.and, .break_, .do_, .else_, .elseif, .end_, .false_, .for_, .function, .global, .goto, .if_, .in_,
    .local_, .nil, .not, .or, .repeat_, .return_, .then_, .true_, .until_, .while_]

def text : Keyword → String
  | .and => "and"
  | .break_ => "break"
  | .do_ => "do"
  | .else_ => "else"
  | .elseif => "elseif"
  | .end_ => "end"
  | .false_ => "false"
  | .for_ => "for"
  | .function => "function"
  | .global => "global"
  | .goto => "goto"
  | .if_ => "if"
  | .in_ => "in"
  | .local_ => "local"
  | .nil => "nil"
  | .not => "not"
  | .or => "or"
  | .repeat_ => "repeat"
  | .return_ => "return"
  | .then_ => "then"
  | .true_ => "true"
  | .until_ => "until"
  | .while_ => "while"

def ofText? (text : String) : Option Keyword := all.find? fun word => word.text = text

end Keyword

inductive Symbol where
  | ellipsis
  | concat
  | eq
  | ne
  | le
  | ge
  | shl
  | shr
  | doubleSlash
  | doubleColon
  | plus
  | minus
  | star
  | slash
  | percent
  | caret
  | hash
  | ampersand
  | tilde
  | pipe
  | lt
  | gt
  | assign
  | parenOpen
  | parenClose
  | braceOpen
  | braceClose
  | bracketOpen
  | bracketClose
  | semicolon
  | colon
  | comma
  | dot
  deriving DecidableEq, Repr

namespace Symbol

/-- The symbols, longer ones first, so that the first one that fits is the longest. -/
def all : List Symbol :=
  [.ellipsis, .concat, .eq, .ne, .le, .ge, .shl, .shr, .doubleSlash, .doubleColon, .plus, .minus,
    .star, .slash, .percent, .caret, .hash, .ampersand, .tilde, .pipe, .lt, .gt, .assign, .parenOpen,
    .parenClose, .braceOpen, .braceClose, .bracketOpen, .bracketClose, .semicolon, .colon, .comma, .dot]

def text : Symbol → List Char
  | .ellipsis => ['.', '.', '.']
  | .concat => ['.', '.']
  | .eq => ['=', '=']
  | .ne => ['~', '=']
  | .le => ['<', '=']
  | .ge => ['>', '=']
  | .shl => ['<', '<']
  | .shr => ['>', '>']
  | .doubleSlash => ['/', '/']
  | .doubleColon => [':', ':']
  | .plus => ['+']
  | .minus => ['-']
  | .star => ['*']
  | .slash => ['/']
  | .percent => ['%']
  | .caret => ['^']
  | .hash => ['#']
  | .ampersand => ['&']
  | .tilde => ['~']
  | .pipe => ['|']
  | .lt => ['<']
  | .gt => ['>']
  | .assign => ['=']
  | .parenOpen => ['(']
  | .parenClose => [')']
  | .braceOpen => ['\x7b']
  | .braceClose => ['\x7d']
  | .bracketOpen => ['[']
  | .bracketClose => [']']
  | .semicolon => [';']
  | .colon => [':']
  | .comma => [',']
  | .dot => ['.']

end Symbol

/-- What may stand at a place in the text. The same characters are different tokens at
different places. -/
inductive Place where
  /-- An expression begins here. -/
  | operand
  /-- An expression that can be called ends here. -/
  | callee
  /-- A parameter of a function begins here. -/
  | parameter
  /-- The name of an attribute ends here. -/
  | attributeEnd
  | other
  deriving DecidableEq, Repr

namespace Place

/-- Where a long string may begin: as an expression, or as the argument of a call. -/
def admitsLongString : Place → Bool
  | .operand | .callee => true
  | _ => false

def admitsNumber (place : Place) : Bool := place = .operand

/-- Where three dots may stand, two dots or one may not. The sign that closes an attribute
is never part of a longer one. Elsewhere no two symbols that begin alike exclude each other. -/
def admits : Place → Symbol → Bool
  | .operand, symbol => symbol ≠ .concat && symbol ≠ .dot
  | .parameter, symbol => symbol ≠ .concat && symbol ≠ .dot
  | .attributeEnd, symbol => symbol ≠ .ge && symbol ≠ .shr
  | _, symbol => symbol ≠ .ellipsis

end Place

/-- A string as it is written: the text between its quotes or brackets, with the escapes
left as they are. Comments may stand between quotes, beside escapes. -/
structure StringLiteral where
  content : String
  /-- Written between quotes, not between long brackets. -/
  isQuoted : Bool
  hasEscapes : Bool
  hasComments : Bool
  deriving DecidableEq, Repr

inductive TokenKind where
  | word (name : String)
  | number (text : String)
  | string (literal : StringLiteral)
  | symbol (symbol : Symbol)
  | endOfText
  deriving DecidableEq, Repr

structure Token where
  kind : TokenKind
  span : Span
  deriving DecidableEq, Repr

/-- The word of the grammar that a token is spelled like. -/
def Token.keyword? (token : Token) : Option Keyword :=
  match token.kind with
  | .word name => Keyword.ofText? name
  | _ => none

end LuaClasses.Source
