import LuaClasses.Source.Cursor
import LuaClasses.Source.Tree

/-! Source text as a tree. Each reader begins at a token, and gives back what it has read and
the token after it, or fails. Whoever moves past a token says what kind of place comes next. The
mutually recursive readers are bounded by a number of nested steps; no text needs more steps
than the bound that `File.ofText?` gives. -/

namespace LuaClasses.Source
namespace Grammar

/-- Move past a token of one kind. -/
def expect (kind : TokenKind) (place : Place) (input : Input) : Reading (Span × Input) :=
  if input.head.kind = kind then do return (input.head.span, ← input.next place)
  else .fail

def symbol (symbol : Symbol) (place : Place) (input : Input) : Reading (Span × Input) :=
  expect (.symbol symbol) place input

def keyword (word : Keyword) (place : Place) (input : Input) : Reading (Span × Input) :=
  expect (.word word.text) place input

/-- Move past a name, which can be any word. -/
def name (place : Place) (input : Input) : Reading (String × Span × Input) :=
  match input.head.kind with
  | .word text => return (text, input.head.span, ← input.next place)
  | _ => .fail

def isAt (kind : Symbol) (input : Input) : Bool := input.head.kind = .symbol kind

/-- The words that end a body, before its first statement and after that. -/
structure Closers where
  first : List Keyword
  later : List Keyword

namespace Closers

/-- The statements of the whole text end with it. -/
def none : Closers := ⟨[], []⟩

/-- Where a body begins, only its own last words end it. After a statement each word that
ends some body ends this one too. -/
def ofBody (own : List Keyword) : Closers := ⟨own, [.end_, .else_, .elseif, .until_]⟩

def afterStatement (closers : Closers) : Closers := ⟨closers.later, closers.later⟩

end Closers

def endsBody (words : List Keyword) (input : Input) : Bool :=
  input.head.kind = .endOfText ||
    match input.head.keyword? with
    | some word => words.contains word
    | none => false

/-- How tightly an operator binds what stands to its left and to its right. -/
def binding : BinaryOp → Nat × Nat
  | .or => (1, 1)
  | .and => (2, 2)
  | .eq | .ne | .lt | .le | .gt | .ge => (3, 3)
  | .bitOr => (4, 4)
  | .bitXor => (5, 5)
  | .bitAnd => (6, 6)
  | .shl | .shr => (7, 7)
  | .concat => (9, 8)
  | .add | .sub => (10, 10)
  | .mul | .div | .floorDiv | .mod => (11, 11)
  | .pow => (14, 13)

/-- How tightly a unary operator binds its operand. -/
def unaryBinding : Nat := 12

def binaryOpOfSymbol? : Symbol → Option BinaryOp
  | .plus => some .add
  | .minus => some .sub
  | .star => some .mul
  | .slash => some .div
  | .doubleSlash => some .floorDiv
  | .percent => some .mod
  | .caret => some .pow
  | .concat => some .concat
  | .eq => some .eq
  | .ne => some .ne
  | .lt => some .lt
  | .le => some .le
  | .gt => some .gt
  | .ge => some .ge
  | .ampersand => some .bitAnd
  | .pipe => some .bitOr
  | .tilde => some .bitXor
  | .shl => some .shl
  | .shr => some .shr
  | _ => none

def binaryOp? (token : Token) : Option BinaryOp :=
  match token.kind with
  | .symbol symbol => binaryOpOfSymbol? symbol
  | _ =>
    match token.keyword? with
    | some .and => some .and
    | some .or => some .or
    | _ => none

def unaryOp? (token : Token) : Option UnaryOp :=
  match token.kind with
  | .symbol .minus => some .neg
  | .symbol .tilde => some .bitNot
  | .symbol .hash => some .len
  | _ => if token.keyword? = some .not then some .not else none

/-- The words that are no names where an expression begins. -/
def beginsExpression : Option Keyword → Bool
  | some .nil | some .true_ | some .false_ | some .function | some .not => true
  | _ => false

/-- The expression that a single token makes up, if it makes one up and cannot be called. -/
def literal? (token : Token) : Option TermForm :=
  match token.kind with
  | .number text => some (.number text)
  | .string literal => some (.string literal)
  | .symbol .ellipsis => some .vararg
  | _ =>
    match token.keyword? with
    | some .nil => some .nil
    | some .true_ => some (.boolean true)
    | some .false_ => some (.boolean false)
    | _ => none

/-- An attribute, if one stands here, and the place where it ends. -/
def attrib (stop : Position) (input : Input) : Reading (Bool × Position × Input) :=
  if isAt .lt input then do
    let (_, rest) ← symbol .lt .other input
    let (_, _, rest) ← name .attributeEnd rest
    let (span, rest) ← symbol .gt .other rest
    return (true, span.stop, rest)
  else pure (false, stop, input)

/-- The names of a declaration, each with its attribute if it has one. -/
def declaredNames : Nat → Input → Reading ((List (String × Span) × Bool) × Position × Input)
  | 0, _ => .fail
  | steps + 1, input => do
    let (text, span, rest) ← name .other input
    let (attributed, stop, rest) ← attrib span.stop rest
    if isAt .comma rest then
      let (_, rest) ← symbol .comma .other rest
      let ((names, others), stop, rest) ← declaredNames steps rest
      return (((text, span) :: names, attributed || others), stop, rest)
    else return (([(text, span)], attributed), stop, rest)

/-- Further names after a comma each. -/
def moreNames : Nat → Input → Reading (List String × Input)
  | 0, _ => .fail
  | steps + 1, input =>
    if isAt .comma input then do
      let (_, rest) ← symbol .comma .other input
      let (text, _, rest) ← name .other rest
      let (names, rest) ← moreNames steps rest
      return (text :: names, rest)
    else pure ([], input)

/-- The segments of a function name after the first one. -/
def nameSegments : Nat → Input → Reading (List String × Input)
  | 0, _ => .fail
  | steps + 1, input =>
    if isAt .dot input then do
      let (_, rest) ← symbol .dot .other input
      let (text, _, rest) ← name .other rest
      let (names, rest) ← nameSegments steps rest
      return (text :: names, rest)
    else pure ([], input)

def functionName (steps : Nat) (input : Input) : Reading (FunctionName × Input) := do
  let (first, _, rest) ← name .other input
  let (path, rest) ← nameSegments steps rest
  if isAt .colon rest then
    let (_, rest) ← symbol .colon .other rest
    let (method, _, rest) ← name .other rest
    return (⟨first :: path, some method⟩, rest)
  else return (⟨first :: path, none⟩, rest)

/-- Parameters up to the closing parenthesis. A name after the dots is a parameter too. -/
def parameters : Nat → Input → Reading ((List String × Bool) × Input)
  | 0, _ => .fail
  | steps + 1, input =>
    if isAt .ellipsis input then do
      let (_, rest) ← symbol .ellipsis .other input
      if isAt .parenClose rest then
        let (_, rest) ← symbol .parenClose .other rest
        return (([], true), rest)
      else
        let (text, _, rest) ← name .other rest
        let (_, rest) ← symbol .parenClose .other rest
        return (([text], true), rest)
    else do
      let (text, _, rest) ← name .other input
      if isAt .comma rest then
        let (_, rest) ← symbol .comma .parameter rest
        let ((names, vararg), rest) ← parameters steps rest
        return ((text :: names, vararg), rest)
      else
        let (_, rest) ← symbol .parenClose .other rest
        return (([text], false), rest)

def parameterList (steps : Nat) (input : Input) : Reading ((List String × Bool) × Input) := do
  let (_, rest) ← symbol .parenOpen .parameter input
  if isAt .parenClose rest then
    let (_, rest) ← symbol .parenClose .other rest
    return (([], false), rest)
  else parameters steps rest

mutual
/-- The statements up to the end of a body. A `return` is the last of them. -/
def block : Nat → Closers → Input → Reading (List Statement × Input)
  | 0, _, _ => .fail
  | steps + 1, closers, input =>
    if endsBody closers.first input then pure ([], input)
    else if input.head.keyword? = some .return_ then do
      let (statement, rest) ← returnStatement steps closers.later input
      return ([statement], rest)
    else do
      let (form, stop, rest) ← statement steps input
      let (statements, rest) ← block steps closers.afterStatement rest
      return (⟨⟨input.head.span.start, stop⟩, form⟩ :: statements, rest)

/-- The word `return`, with values or none, and a semicolon or none. -/
def returnStatement : Nat → List Keyword → Input → Reading (Statement × Input)
  | 0, _, _ => .fail
  | steps + 1, closers, input => do
    let (span, rest) ← keyword .return_ .operand input
    let (values, stop, rest) ←
      (if endsBody closers rest || isAt .semicolon rest then pure ([], span.stop, rest)
      else expressions steps rest)
    if isAt .semicolon rest then
      let (mark, rest) ← symbol .semicolon .other rest
      return (⟨⟨span.start, mark.stop⟩, .return_ values⟩, rest)
    else return (⟨⟨span.start, stop⟩, .return_ values⟩, rest)

/-- A statement, the place where it ends, and the token after it. -/
def statement : Nat → Input → Reading (StatementForm × Position × Input)
  | 0, _ => .fail
  | steps + 1, input =>
    match input.head.keyword? with
    | some .break_ => do
      let (span, rest) ← keyword .break_ .other input
      return (.break_, span.stop, rest)
    | some .goto => do
      let (_, rest) ← keyword .goto .other input
      let (label, span, rest) ← name .other rest
      return (.goto label, span.stop, rest)
    | some .do_ => do
      let (_, rest) ← keyword .do_ .other input
      let (body, stop, rest) ← blockTo steps .end_ .other rest
      return (.do_ body, stop, rest)
    | some .while_ => do
      let (_, rest) ← keyword .while_ .operand input
      let (condition, rest) ← expression steps 0 rest
      let (_, rest) ← keyword .do_ .other rest
      let (body, stop, rest) ← blockTo steps .end_ .other rest
      return (.while_ condition body, stop, rest)
    | some .repeat_ => do
      let (_, rest) ← keyword .repeat_ .other input
      let (body, _, rest) ← blockTo steps .until_ .operand rest
      let (condition, rest) ← expression steps 0 rest
      return (.repeat_ body condition, condition.span.stop, rest)
    | some .if_ => do
      let (first, rest) ← clause steps .if_ input
      let ((others, otherwise), stop, rest) ← clauses steps rest
      return (.if_ first others otherwise, stop, rest)
    | some .for_ => do
      let (_, rest) ← keyword .for_ .other input
      forStatement steps rest
    | some .function => do
      let (_, rest) ← keyword .function .other input
      let (name, rest) ← functionName steps rest
      let (body, stop, rest) ← callable steps rest
      return (.function name false body, stop, rest)
    | some .local_ => do
      let (span, rest) ← keyword .local_ .other input
      if rest.head.keyword? = some .function then namedFunction steps true rest
      else declarationStatement steps span.stop rest
    | some .global => do
      let (span, rest) ← keyword .global .callee input
      globalStatement steps span rest
    | _ =>
      if isAt .semicolon input then do
        let (span, rest) ← symbol .semicolon .other input
        return (.empty, span.stop, rest)
      else if isAt .doubleColon input then do
        let (_, rest) ← symbol .doubleColon .other input
        let (label, _, rest) ← name .other rest
        let (span, rest) ← symbol .doubleColon .other rest
        return (.label label, span.stop, rest)
      else do
        let (first, rest) ← suffixed steps input
        expressionStatement steps first rest

/-- What follows the word `global` at the start of a statement. Where it is no declaration,
the word is a name. -/
def globalStatement : Nat → Span → Input → Reading (StatementForm × Position × Input)
  | 0, _, _ => .fail
  | steps + 1, span, input =>
    match input.head.kind with
    | .word _ =>
      if input.head.keyword? = some .function then namedFunction steps false input
      else declarationStatement steps span.stop input
    | .symbol .star => do
      let (star, rest) ← symbol .star .other input
      return (.declareAll false, star.stop, rest)
    | .symbol .lt => do
      let (_, _, rest) ← attrib span.stop input
      if isAt .star rest then
        let (star, rest) ← symbol .star .other rest
        return (.declareAll true, star.stop, rest)
      else declarationStatement steps span.stop input
    | _ => do
      let (first, rest) ← suffixes steps ⟨span, .global⟩ input
      expressionStatement steps first rest

/-- A statement that begins with an expression: an assignment or a call. -/
def expressionStatement : Nat → Term → Input → Reading (StatementForm × Position × Input)
  | 0, _, _ => .fail
  | steps + 1, first, input =>
    if isAt .assign input || isAt .comma input then assignment steps first input
    else if first.isCall then pure (.call first, first.span.stop, input)
    else .fail

/-- The word `function` and a local or global function, which has a plain name. -/
def namedFunction : Nat → Bool → Input → Reading (StatementForm × Position × Input)
  | 0, _, _ => .fail
  | steps + 1, isLocal, input => do
    let (_, rest) ← keyword .function .other input
    let (text, _, rest) ← name .other rest
    let (body, stop, rest) ← callable steps rest
    return (.function (.plain text) isLocal body, stop, rest)

/-- The names that a declaration introduces and their values, if any. An attribute may stand
before them all. -/
def declarationStatement : Nat → Position → Input → Reading (StatementForm × Position × Input)
  | 0, _, _ => .fail
  | steps + 1, stop, input => do
    let (common, _, rest) ← attrib stop input
    let ((names, attributed), stop, rest) ← declaredNames steps rest
    if isAt .assign rest then
      let (_, rest) ← symbol .assign .operand rest
      let (values, stop, rest) ← expressions steps rest
      return (.define names (common || attributed) values, stop, rest)
    else return (.declare names (common || attributed), stop, rest)

/-- An assignment whose first target has been read. -/
def assignment : Nat → Term → Input → Reading (StatementForm × Position × Input)
  | 0, _, _ => .fail
  | steps + 1, first, input =>
    if first.isTarget then do
      let (others, rest) ← targets steps input
      let (_, rest) ← symbol .assign .operand rest
      let (values, stop, rest) ← expressions steps rest
      return (.assign (first :: others) values, stop, rest)
    else .fail

/-- Further targets after a comma each. -/
def targets : Nat → Input → Reading (List Term × Input)
  | 0, _ => .fail
  | steps + 1, input =>
    if isAt .comma input then do
      let (_, rest) ← symbol .comma .other input
      let (target, rest) ← suffixed steps rest
      if target.isTarget then
        let (others, rest) ← targets steps rest
        return (target :: others, rest)
      else .fail
    else pure ([], input)

/-- The statements of a body and the word that ends it, before a place of the given kind. -/
def blockTo : Nat → Keyword → Place → Input → Reading (List Statement × Position × Input)
  | 0, _, _, _ => .fail
  | steps + 1, last, place, input => do
    let (body, rest) ← block steps (.ofBody [last]) input
    let (span, rest) ← keyword last place rest
    return (body, span.stop, rest)

/-- The word that begins an arm of an `if` statement, the condition, the word `then`, and the
statements after it. -/
def clause : Nat → Keyword → Input → Reading (Clause × Input)
  | 0, _, _ => .fail
  | steps + 1, word, input => do
    let (_, rest) ← keyword word .operand input
    let (condition, rest) ← expression steps 0 rest
    let (_, rest) ← keyword .then_ .other rest
    let (body, rest) ← block steps (.ofBody [.end_, .else_, .elseif]) rest
    return (⟨condition, body⟩, rest)

/-- The further arms of an `if` statement up to its `end`. -/
def clauses : Nat → Input → Reading ((List Clause × Option Block) × Position × Input)
  | 0, _ => .fail
  | steps + 1, input =>
    match input.head.keyword? with
    | some .elseif => do
      let (first, rest) ← clause steps .elseif input
      let ((others, otherwise), stop, rest) ← clauses steps rest
      return ((first :: others, otherwise), stop, rest)
    | some .else_ => do
      let (_, rest) ← keyword .else_ .other input
      let (body, stop, rest) ← blockTo steps .end_ .other rest
      return (([], some ⟨body⟩), stop, rest)
    | _ => do
      let (span, rest) ← keyword .end_ .other input
      return (([], none), span.stop, rest)

/-- What follows the word `for`. -/
def forStatement : Nat → Input → Reading (StatementForm × Position × Input)
  | 0, _ => .fail
  | steps + 1, input => do
    let (var, _, rest) ← name .other input
    if isAt .assign rest then
      let (_, rest) ← symbol .assign .operand rest
      let (start, rest) ← expression steps 0 rest
      let (_, rest) ← symbol .comma .operand rest
      let (limit, rest) ← expression steps 0 rest
      let (step, rest) ← forStep steps rest
      let (_, rest) ← keyword .do_ .other rest
      let (body, stop, rest) ← blockTo steps .end_ .other rest
      return (.forNumeric var start limit step body, stop, rest)
    else
      let (others, rest) ← moreNames steps rest
      let (_, rest) ← keyword .in_ .operand rest
      let (exprs, _, rest) ← expressions steps rest
      let (_, rest) ← keyword .do_ .other rest
      let (body, stop, rest) ← blockTo steps .end_ .other rest
      return (.forGeneric (var :: others) exprs body, stop, rest)

/-- The step of a numeric loop, if it has one. -/
def forStep : Nat → Input → Reading (Option Term × Input)
  | 0, _ => .fail
  | steps + 1, input =>
    if isAt .comma input then do
      let (_, rest) ← symbol .comma .operand input
      let (step, rest) ← expression steps 0 rest
      return (some step, rest)
    else pure (none, input)

/-- The parameters of a function, its body and its `end`. -/
def callable : Nat → Input → Reading (Callable × Position × Input)
  | 0, _ => .fail
  | steps + 1, input => do
    let ((params, vararg), rest) ← parameterList steps input
    let (body, stop, rest) ← blockTo steps .end_ .other rest
    return (⟨params, vararg, body⟩, stop, rest)

/-- One expression or more, with a comma between any two. -/
def expressions : Nat → Input → Reading (List Term × Position × Input)
  | 0, _ => .fail
  | steps + 1, input => do
    let (first, rest) ← expression steps 0 input
    if isAt .comma rest then
      let (_, rest) ← symbol .comma .operand rest
      let (others, stop, rest) ← expressions steps rest
      return (first :: others, stop, rest)
    else return ([first], first.span.stop, rest)

/-- An expression whose binary operators all bind tighter than `limit`. -/
def expression : Nat → Nat → Input → Reading (Term × Input)
  | 0, _, _ => .fail
  | steps + 1, limit, input => do
    let (left, rest) ← operand steps input
    operators steps limit left rest

/-- The operators that follow a left operand, with their right operands. -/
def operators : Nat → Nat → Term → Input → Reading (Term × Input)
  | 0, _, _, _ => .fail
  | steps + 1, limit, left, input =>
    match binaryOp? input.head with
    | none => pure (left, input)
    | some op =>
      if limit < (binding op).1 then do
        let rest ← input.next .operand
        let (right, rest) ← expression steps (binding op).2 rest
        operators steps limit ⟨⟨left.span.start, right.span.stop⟩, .binary op left right⟩ rest
      else pure (left, input)

def operand : Nat → Input → Reading (Term × Input)
  | 0, _ => .fail
  | steps + 1, input =>
    match unaryOp? input.head with
    | some op => do
      let rest ← input.next .operand
      let (operand, rest) ← expression steps unaryBinding rest
      return (⟨⟨input.head.span.start, operand.span.stop⟩, .unary op operand⟩, rest)
    | none =>
      match literal? input.head with
      | some form => return (⟨input.head.span, form⟩, ← input.next .other)
      | none =>
        if input.head.keyword? = some .function then do
          let (span, rest) ← keyword .function .other input
          let (body, stop, rest) ← callable steps rest
          return (⟨⟨span.start, stop⟩, .function body⟩, rest)
        else if isAt .braceOpen input then do
          let (span, rest) ← symbol .braceOpen .operand input
          let (entries, stop, rest) ← fields steps .other rest
          return (⟨⟨span.start, stop⟩, .table entries⟩, rest)
        else suffixed steps input

/-- A name or a parenthesized expression, with the accesses and calls that follow it. -/
def suffixed : Nat → Input → Reading (Term × Input)
  | 0, _ => .fail
  | steps + 1, input =>
    if isAt .parenOpen input then do
      let (span, rest) ← symbol .parenOpen .operand input
      let (inner, rest) ← expression steps 0 rest
      let (close, rest) ← symbol .parenClose .callee rest
      suffixes steps ⟨⟨span.start, close.stop⟩, .paren inner⟩ rest
    else do
      let (text, span, rest) ← name .callee input
      suffixes steps ⟨span, .ofName text⟩ rest

def suffixes : Nat → Term → Input → Reading (Term × Input)
  | 0, _, _ => .fail
  | steps + 1, base, input =>
    match input.head.kind with
    | .symbol .dot => do
      let (_, rest) ← symbol .dot .other input
      let (text, span, rest) ← name .callee rest
      suffixes steps ⟨⟨base.span.start, span.stop⟩, .member base text⟩ rest
    | .symbol .bracketOpen => do
      let (_, rest) ← symbol .bracketOpen .operand input
      let (key, rest) ← expression steps 0 rest
      let (close, rest) ← symbol .bracketClose .callee rest
      suffixes steps ⟨⟨base.span.start, close.stop⟩, .index base key⟩ rest
    | .symbol .colon => do
      let (_, rest) ← symbol .colon .other input
      let (method, _, rest) ← name .callee rest
      let (args, stop, rest) ← arguments steps rest
      suffixes steps ⟨⟨base.span.start, stop⟩, .methodCall base method args⟩ rest
    | .symbol .parenOpen | .symbol .braceOpen | .string _ => do
      let (args, stop, rest) ← arguments steps input
      suffixes steps ⟨⟨base.span.start, stop⟩, .call base args⟩ rest
    | _ => pure (base, input)

/-- Call arguments: a list in parentheses, a table, or a string. -/
def arguments : Nat → Input → Reading (List Term × Position × Input)
  | 0, _ => .fail
  | steps + 1, input =>
    match input.head.kind with
    | .symbol .parenOpen => do
      let (_, rest) ← symbol .parenOpen .operand input
      if isAt .parenClose rest then
        let (close, rest) ← symbol .parenClose .callee rest
        return ([], close.stop, rest)
      else
        let (args, _, rest) ← expressions steps rest
        let (close, rest) ← symbol .parenClose .callee rest
        return (args, close.stop, rest)
    | .symbol .braceOpen => do
      let (span, rest) ← symbol .braceOpen .operand input
      let (entries, stop, rest) ← fields steps .callee rest
      return ([⟨⟨span.start, stop⟩, .table entries⟩], stop, rest)
    | .string literal => do
      let rest ← input.next .callee
      return ([⟨input.head.span, .string literal⟩], input.head.span.stop, rest)
    | _ => .fail

/-- The fields of a table up to its closing brace, before a place of the given kind. -/
def fields : Nat → Place → Input → Reading (List Field × Position × Input)
  | 0, _, _ => .fail
  | steps + 1, place, input =>
    if isAt .braceClose input then do
      let (span, rest) ← symbol .braceClose place input
      return ([], span.stop, rest)
    else do
      let (first, rest) ← field steps input
      if isAt .braceClose rest then
        let (span, rest) ← symbol .braceClose place rest
        return ([first], span.stop, rest)
      else if isAt .comma rest || isAt .semicolon rest then
        let rest ← rest.next .operand
        let (others, stop, rest) ← fields steps place rest
        return (first :: others, stop, rest)
      else .fail

/-- One field. The word `global` before an equals sign is a key in its own right. -/
def field : Nat → Input → Reading (Field × Input)
  | 0, _ => .fail
  | steps + 1, input =>
    if isAt .bracketOpen input then do
      let (_, rest) ← symbol .bracketOpen .operand input
      let (key, rest) ← expression steps 0 rest
      let (_, rest) ← symbol .bracketClose .other rest
      let (_, rest) ← symbol .assign .operand rest
      let (value, rest) ← expression steps 0 rest
      return (.keyed key value, rest)
    else
      match input.head.kind, beginsExpression input.head.keyword? with
      | .word text, false => do
        let rest ← input.next .callee
        if isAt .assign rest then
          let (_, rest) ← symbol .assign .operand rest
          let (value, rest) ← expression steps 0 rest
          if input.head.keyword? = some .global then return (.keyed ⟨input.head.span, .global⟩ value, rest)
          else return (.named text value, rest)
        else
          let (left, rest) ← suffixes steps ⟨input.head.span, .ofName text⟩ rest
          let (value, rest) ← operators steps 0 left rest
          return (.positional value, rest)
      | _, _ => do
        let (value, rest) ← expression steps 0 input
        return (.positional value, rest)
end

end Grammar

/-- Pass over what may come before the statements: a byte order mark at the start of the text, and
a line that begins with `#`. -/
def Cursor.passHeader? (cursor : Cursor) : Option (Bool × Cursor) := do
  let cursor := if cursor.text.head? = some '\ufeff' then cursor.skip 1 else cursor
  let gap ← gap? false cursor.text
  let cursor := cursor.pass gap
  if cursor.text.head? = some '#' then
    some (true, cursor.skip (cursor.text.takeWhile (· ≠ '\n')).length)
  else some (false, cursor)

/-- The reading of a source text as a tree. It fails when the text is not in the grammar. A NUL
stands in no source text. -/
def File.reading (text : String) : Reading File :=
  if text.toList.contains '\x00' then .fail
  else do
    let (hasInterpreterLine, cursor) ← .ofOption (Cursor.ofText text).passHeader?
    let input ← Input.read .other cursor
    let (body, rest) ← Grammar.block (8 * cursor.text.length + 8) .none input
    if rest.head.kind = .endOfText then
      return { hasInterpreterLine, hasComment := rest.rest.commented, body }
    else .fail

/-- A source text as a tree, if it is in the grammar. -/
def File.ofText? (text : String) : Option File := (File.reading text).result

end LuaClasses.Source
