import LuaClasses.Source.Grammar
import LuaClasses.Source.SyntaxNode

/-! The nodes of a source text. What has been read tells which nodes there are; here each of its
tokens is looked up in the text again, with the blanks and comments before it. A comment belongs to
the smallest node that has a token on either side of it, or else to the whole text. -/

namespace LuaClasses.Source

/-! ### Tokens and comments -/

/-- A comment: the blanks before it, and what comes after its two dashes. -/
structure Remark where
  gap : Blanks
  span : Span
  body : String

/-- A token, with the comments and the blanks before it. -/
structure Lexeme where
  remarks : List Remark
  gap : Blanks
  span : Span
  text : String

/-- Where the dashes of the comment at the start of a text end, and where the comment does. -/
def remarkExtent? (longStrings : Bool) (text : List Char) : Option (Nat × Nat) :=
  let broken := if longStrings then brokenOpening text else 0
  match blockOpening? (text.drop broken) with
  | some (opening, level) =>
    (longRest? level (text.drop (broken + opening))).map fun width =>
      (broken + 2, broken + opening + width)
  | none =>
    match text with
    | '-' :: '-' :: line => (lineComment? 0 0 line).map fun width => (2, 2 + width)
    | _ => none

namespace Cursor

/-- The blanks that come next, and the place after them. -/
def blanks (cursor : Cursor) : Blanks × Cursor :=
  let gap := Blanks.ofText cursor.text
  (gap, cursor.skip gap.text.length)

/-- The part of the text from one place up to another one so many characters on. -/
def spanTo (cursor : Cursor) (length : Nat) : Span :=
  ⟨cursor.position, (cursor.skip length).position⟩

def remark? (longStrings : Bool) (cursor : Cursor) : Option (Remark × Cursor) := do
  let (gap, start) := cursor.blanks
  let (dashes, length) ← remarkExtent? longStrings start.text
  let body := (start.text.take length).drop dashes
  some (⟨gap, start.spanTo length, .ofList body⟩, start.skip length)

/-- The comments that come next, and the place after them. There are no more than `limit`. -/
def remarks (longStrings : Bool) : Nat → Cursor → List Remark × Cursor
  | 0, cursor => ([], cursor)
  | limit + 1, cursor =>
    match cursor.remark? longStrings with
    | some (remark, rest) =>
      let (others, rest) := remarks longStrings limit rest
      (remark :: others, rest)
    | none => ([], cursor)

/-- All comments before the next token, and the place after them. -/
def passRemarks (longStrings : Bool) (cursor : Cursor) : List Remark × Cursor :=
  cursor.remarks longStrings ((gap? longStrings cursor.text).elim 0 Gap.length)

/-- The token that comes next, and the place after it. -/
def lexeme (place : Place) (cursor : Cursor) : Lexeme × Cursor :=
  let (remarks, rest) := cursor.passRemarks place.admitsLongString
  let (gap, start) := rest.blanks
  let width :=
    match start.text with
    | [] => 0
    | char :: rest => (tokenKind? place char rest).elim 0 Prod.snd
  (⟨remarks, gap, start.spanTo width, textOf start.text width⟩, start.skip width)

end Cursor

/-! ### Strands -/

/-- A node with what comes before its first token. -/
structure Strand where
  remarks : List Remark
  gap : Blanks
  node : SyntaxNode

/-- A child of a node, under the name of a field or none. -/
structure Child where
  field : Option FieldName
  strand : Strand

def Strand.bare (strand : Strand) : Child := ⟨none, strand⟩

def Strand.under (strand : Strand) (key : FieldName) : Child := ⟨some key, strand⟩

def Remark.edge (remark : Remark) : Edge :=
  ⟨none, remark.gap, .leaf (.named .comment) remark.span ("--" ++ remark.body)⟩

namespace Child

def node (child : Child) : SyntaxNode := child.strand.node

def edge (child : Child) : Edge := ⟨child.field, child.strand.gap, child.node⟩

/-- A child that is not the first one, after the comments before it. -/
def edges (child : Child) : List Edge := child.strand.remarks.map Remark.edge ++ [child.edge]

end Child

/-- A node at a place. What comes before its first child comes before the node. -/
def join (kind : NodeKind) (span : Span) : List Child → Strand
  | [] => ⟨[], .none, .branch (.named kind) span []⟩
  | first :: rest =>
    ⟨first.strand.remarks, first.strand.gap,
      .branch (.named kind) span (first.edge :: rest.flatMap Child.edges)⟩

/-- From the start of the first child to the end of the last one. -/
def spanOf : List Child → Span
  | [] => default
  | first :: rest =>
    ⟨first.node.span.start, ((first :: rest).getLast (List.cons_ne_nil _ _)).node.span.stop⟩

/-- A node that reaches as far as its children. -/
def gather (kind : NodeKind) (children : List Child) : Strand :=
  join kind (spanOf children) children

/-- The text from some place on, and what may stand at this place and at those after it. -/
structure Thread where
  cursor : Cursor
  places : List Place

/-- Making nodes of a text along its tokens. -/
abbrev Weave (α : Type) : Type := StateM Thread α

namespace Weave

def next : Weave Lexeme := do
  let thread ← get
  let (lexeme, cursor) := thread.cursor.lexeme (thread.places.headD .other)
  set (⟨cursor, thread.places.tail⟩ : Thread)
  return lexeme

/-- The text of the next token, which stays the next one. -/
def nextText : Weave String := do
  let thread ← get
  return (thread.cursor.lexeme (thread.places.headD .other)).1.text

/-- Some places come up a second time. -/
def skipPlaces (count : Nat) : Weave Unit :=
  modify fun thread => { thread with places := thread.places.drop count }

/-! ### Nodes of one token -/

def leaf (kind : SyntaxKind) (text : String) : Weave Strand := do
  let lexeme ← next
  return ⟨lexeme.remarks, lexeme.gap, .leaf kind lexeme.span text⟩

/-- A node that has been read, with the place where it was read. -/
def leafAt (kind : SyntaxKind) (span : Span) (text : String) : Weave Strand := do
  let lexeme ← next
  return ⟨lexeme.remarks, lexeme.gap, .leaf kind span text⟩

def sign (text : String) : Weave Strand := leaf (.sign text) text

def identifier (name : String) : Weave Strand := leaf (.named .identifier) name

/-- One of some signs, if it comes next. -/
def sign? (texts : List String) : Weave (List Child) := do
  let text ← nextText
  if texts.contains text then return [(← sign text).bare] else return []

/-- The sign that closes what an opening sign began, if there was one. -/
def closing? (opening : List Child) (text : String) : Weave (List Child) :=
  if opening.isEmpty then return [] else sign? [text]

/-- The quotes or brackets of a string are nodes of their own. -/
def string (span : Span) (literal : StringLiteral) : Weave Strand := do
  let lexeme ← next
  let chars := lexeme.text.toList
  let width := if literal.isQuoted then 1 else (longOpening? chars).elim 1 Prod.fst
  let inner : Span :=
    ⟨span.start.after (chars.take width), span.start.after (chars.take (chars.length - width))⟩
  let opening := SyntaxNode.leaf (.sign "start") ⟨span.start, inner.start⟩ (textOf chars width)
  let closing := SyntaxNode.leaf (.sign "end") ⟨inner.stop, span.stop⟩
    (.ofList (chars.drop (chars.length - width)))
  let content : List Edge :=
    if literal.isQuoted && literal.content = "" then []
    else [⟨some .content, .none, .leaf (.named .stringContent) inner literal.content⟩]
  return ⟨lexeme.remarks, lexeme.gap,
    .branch (.named .string) span (⟨none, .none, opening⟩ :: content ++ [⟨none, .none, closing⟩])⟩

/-! ### Names -/

def names : List String → Weave (List Child)
  | [] => return []
  | name :: rest => do
    let first ← identifier name
    let comma ← sign? [","]
    let others ← names rest
    return first.bare :: comma ++ others

def attribute? : Weave (List Child) := do
  if (← nextText) = "<" then
    let opening ← sign "<"
    let name ← identifier (← nextText)
    let closing ← sign ">"
    let parts := [opening.bare, name.bare, closing.bare]
    return [(gather .attribute parts).bare]
  else return []

/-- The names of a declaration, each with its attribute if it has one. -/
def declaredNames : List (String × Span) → Weave (List Child)
  | [] => return []
  | (name, span) :: rest => do
    let first ← leafAt (.named .identifier) span name
    let attr ← attribute?
    let comma ← sign? [","]
    let others ← declaredNames rest
    return first.bare :: attr ++ comma ++ others

/-- The word that begins a declaration, and the attribute for all its names, if there is one. After
the word `global` such an attribute is read twice. -/
def introduction : Weave (Child × List Child) := do
  let isGlobal := (← nextText) = "global"
  let word ← sign (if isGlobal then "global" else "local")
  let attr ← attribute?
  if isGlobal && !attr.isEmpty then skipPlaces 3
  return (word.bare, attr)

/-- The segments of a function name after what comes before them. -/
def segments (base : Strand) : List String → Weave Strand
  | [] => return base
  | name :: rest => do
    let dot ← sign "."
    let name ← identifier name
    segments (gather .dotIndexExpression [base.under .table, dot.bare, name.under .field]) rest

def functionName (name : FunctionName) : Weave Strand := do
  let first ← identifier (name.path.headD "")
  let base ← segments first name.path.tail
  match name.method with
  | none => return base
  | some method =>
    let colon ← sign ":"
    let method ← identifier method
    return gather .methodIndexExpression [base.under .table, colon.bare, method.under .method]

def dots : Weave Strand := leaf (.named .varargExpression) "..."

/-- The parameters of a function. The dots come after the last of them, or just before it. -/
def parameters (vararg : Bool) : List String → Weave (List Child)
  | [] => if vararg then return [(← dots).bare] else return []
  | name :: rest => do
    if vararg && (← nextText) = "..." then
      let dots ← dots
      let others ← names (name :: rest)
      return dots.bare :: others
    else
      let first ← identifier name
      let comma ← sign? [","]
      let others ← parameters vararg rest
      return first.bare :: comma ++ others

def parameterList (vararg : Bool) (params : List String) : Weave Strand := do
  let opening ← sign "("
  let params ← parameters vararg params
  let closing ← sign ")"
  return gather .parameters (opening.bare :: params ++ [closing.bare])

/-! ### Statements and expressions -/

/-- A single table or string is a list of arguments without parentheses. -/
def arguments (terms : Weave (List Child)) : Weave Strand := do
  let opening ← sign? ["("]
  let args ← terms
  let closing ← closing? opening ")"
  return gather .arguments (opening ++ args ++ closing)

/-- The bracket before the key of a field, which some keys can do without. -/
def bracket (optional : Bool) : Weave (List Child) := do
  if optional then sign? ["["] else return [(← sign "[").bare]

/-- The word before the declaration of a function. -/
def scope (isLocal : Bool) : Weave (List Child) := do
  if isLocal then return [(← sign "local").bare] else sign? ["global"]

/-- Statements are under one node if there are any. -/
def block (key : FieldName) (statements : Weave (List Child)) : Weave (List Child) := do
  let parts ← statements
  return if parts.isEmpty then [] else [(gather .block parts).under key]

/-- A body from the word `do` to the word `end`. -/
def enclosed (statements : Weave (List Child)) : Weave (List Child) := do
  let word ← sign "do"
  let body ← block .body statements
  let last ← sign "end"
  return word.bare :: body ++ [last.bare]

mutual
def term : Term → Weave Strand
  | ⟨span, form⟩ => termForm span form

def termForm (span : Span) : TermForm → Weave Strand
  | .nil => leafAt (.named .nilLiteral) span "nil"
  | .boolean true => leafAt (.named .trueLiteral) span "true"
  | .boolean false => leafAt (.named .falseLiteral) span "false"
  | .number text => leafAt (.named .number) span text
  | .string literal => string span literal
  | .vararg => leafAt (.named .varargExpression) span "..."
  | .name name => leafAt (.named .identifier) span name
  | .global => leafAt (.sign "global") span "global"
  | .function body => do
    let word ← sign "function"
    let parts ← callable body
    return join .functionDefinition span (word.bare :: parts)
  | .table entries => do
    let opening ← sign "\x7b"
    let parts ← fields entries
    let closing ← sign "\x7d"
    return join .tableConstructor span (opening.bare :: parts ++ [closing.bare])
  | .member object name => do
    let object ← term object
    let dot ← sign "."
    let name ← identifier name
    return join .dotIndexExpression span [object.under .table, dot.bare, name.under .field]
  | .index object key => do
    let object ← term object
    let opening ← sign "["
    let key ← term key
    let closing ← sign "]"
    return join .bracketIndexExpression span
      [object.under .table, opening.bare, key.under .field, closing.bare]
  | .call callee args => do
    let callee ← term callee
    let args ← arguments (terms args)
    return join .functionCall span [callee.under .name, args.under .arguments]
  | .methodCall object method args => do
    let object ← term object
    let colon ← sign ":"
    let method ← identifier method
    let args ← arguments (terms args)
    let callee :=
      gather .methodIndexExpression [object.under .table, colon.bare, method.under .method]
    return join .functionCall span [callee.under .name, args.under .arguments]
  | .paren inner => do
    let opening ← sign "("
    let inner ← term inner
    let closing ← sign ")"
    return join .parenthesizedExpression span [opening.bare, inner.bare, closing.bare]
  | .unary op operand => do
    let op ← sign op.token
    let operand ← term operand
    return join .unaryExpression span [op.bare, operand.under .operand]
  | .binary op left right => do
    let left ← term left
    let op ← sign op.token
    let right ← term right
    return join .binaryExpression span [left.under .left, op.bare, right.under .right]

def terms : List Term → Weave (List Child)
  | [] => return []
  | head :: rest => do
    let first ← term head
    let comma ← sign? [","]
    let others ← terms rest
    return first.bare :: comma ++ others

def fields : List Field → Weave (List Child)
  | [] => return []
  | head :: rest => do
    let first ← field head
    let mark ← sign? [",", ";"]
    let others ← fields rest
    return first.bare :: mark ++ others

/-- A key stands in brackets, but for the word `global`. -/
def field : Field → Weave Strand
  | .named name value => do
    let name ← identifier name
    let equals ← sign "="
    let value ← term value
    return gather .field [name.under .name, equals.bare, value.under .value]
  | .keyed key value => do
    let opening ← bracket key.isGlobal
    let key ← term key
    let closing ← closing? opening "]"
    let equals ← sign "="
    let value ← term value
    return gather .field (opening ++ key.under .name :: closing ++ [equals.bare, value.under .value])
  | .positional value => do
    let value ← term value
    return gather .field [value.under .value]

/-- What comes after the name of a function, or after the word `function` where there is none. -/
def callable : Callable → Weave (List Child)
  | ⟨params, vararg, body⟩ => do
    let params ← parameterList vararg params
    let body ← block .body (statements body)
    let last ← sign "end"
    return params.under .parameters :: body ++ [last.bare]

def statements : List Statement → Weave (List Child)
  | [] => return []
  | head :: rest => do
    let first ← statement head
    let others ← statements rest
    return first.bare :: others

def statement : Statement → Weave Strand
  | ⟨span, form⟩ => statementForm span form

def statementForm (span : Span) : StatementForm → Weave Strand
  | .empty => leafAt (.named .emptyStatement) span ";"
  | .declare declared _ => do
    let (word, attr) ← introduction
    let names ← declaredNames declared
    let list := gather .variableList (attr ++ names)
    return join .variableDeclaration span [word, list.bare]
  | .define declared _ values => do
    let (word, attr) ← introduction
    let names ← declaredNames declared
    let equals ← sign "="
    let values ← terms values
    let list := gather .variableList (attr ++ names)
    let values := gather .expressionList values
    let assignment := gather .assignmentStatement [list.bare, equals.bare, values.bare]
    return join .variableDeclaration span [word, assignment.bare]
  | .declareAll _ => do
    let word ← sign "global"
    let attr ← attribute?
    let star ← sign "*"
    return join .implicitVariableDeclaration span (word.bare :: attr ++ [star.bare])
  | .assign targets values => do
    let targets ← terms targets
    let equals ← sign "="
    let values ← terms values
    let list := gather .variableList targets
    let values := gather .expressionList values
    return join .assignmentStatement span [list.bare, equals.bare, values.bare]
  | .call call => term call
  | .function name isLocal body => do
    let scope ← scope isLocal
    let word ← sign "function"
    let name ← functionName name
    let parts ← callable body
    return join .functionDeclaration span (scope ++ word.bare :: name.under .name :: parts)
  | .return_ values => do
    let word ← sign "return"
    let values ← terms values
    let mark ← sign? [";"]
    let list := if values.isEmpty then [] else [(gather .expressionList values).bare]
    return join .returnStatement span (word.bare :: list ++ mark)
  | .if_ first others otherwise => do
    let word ← sign "if"
    let first ← clause first
    let others ← clauses others
    let otherwise ← otherwise_ otherwise
    let last ← sign "end"
    return join .ifStatement span (word.bare :: first ++ others ++ otherwise ++ [last.bare])
  | .while_ condition body => do
    let word ← sign "while"
    let condition ← term condition
    let parts ← enclosed (statements body)
    return join .whileStatement span (word.bare :: condition.under .condition :: parts)
  | .repeat_ body condition => do
    let word ← sign "repeat"
    let body ← block .body (statements body)
    let mark ← sign "until"
    let condition ← term condition
    return join .repeatStatement span
      (word.bare :: body ++ [mark.bare, condition.under .condition])
  | .do_ body => do
    let parts ← enclosed (statements body)
    return join .doStatement span parts
  | .forNumeric var start limit step body => do
    let word ← sign "for"
    let var ← identifier var
    let equals ← sign "="
    let start ← term start
    let comma ← sign ","
    let limit ← term limit
    let step ← stepOf step
    let clause := gather .forNumericClause
      ([var.under .name, equals.bare, start.under .start, comma.bare, limit.under .end_] ++ step)
    let parts ← enclosed (statements body)
    return join .forStatement span (word.bare :: clause.under .clause :: parts)
  | .forGeneric vars exprs body => do
    let word ← sign "for"
    let vars ← names vars
    let mark ← sign "in"
    let exprs ← terms exprs
    let list := gather .variableList vars
    let exprs := gather .expressionList exprs
    let clause := gather .forGenericClause [list.bare, mark.bare, exprs.bare]
    let parts ← enclosed (statements body)
    return join .forStatement span (word.bare :: clause.under .clause :: parts)
  | .break_ => leafAt (.named .breakStatement) span "break"
  | .goto label => do
    let word ← sign "goto"
    let name ← identifier label
    return join .gotoStatement span [word.bare, name.bare]
  | .label name => do
    let opening ← sign "::"
    let name ← identifier name
    let closing ← sign "::"
    return join .labelStatement span [opening.bare, name.bare, closing.bare]

def clause : Clause → Weave (List Child)
  | ⟨condition, body⟩ => do
    let condition ← term condition
    let mark ← sign "then"
    let body ← block .consequence (statements body)
    return condition.under .condition :: mark.bare :: body

def clauses : List Clause → Weave (List Child)
  | [] => return []
  | head :: rest => do
    let word ← sign "elseif"
    let first ← clause head
    let others ← clauses rest
    return (gather .elseifStatement (word.bare :: first)).bare :: others

def otherwise_ : Option Block → Weave (List Child)
  | none => return []
  | some ⟨body⟩ => do
    let word ← sign "else"
    let body ← block .body (statements body)
    return [(gather .elseStatement (word.bare :: body)).bare]

def stepOf : Option Term → Weave (List Child)
  | none => return []
  | some step => do
    let comma ← sign ","
    let step ← term step
    return [comma.bare, step.under .step]
end

/-! ### The whole text -/

/-- What may come before the first token: a byte order mark, comments, and a line that begins with
`#`. -/
def header (hasInterpreterLine : Bool) : Weave (List Edge) := do
  let thread ← get
  let cursor := thread.cursor
  let start := if cursor.text.head? = some '\ufeff' then cursor.skip 1 else cursor
  let (remarks, rest) := start.passRemarks false
  let edges := remarks.map Remark.edge
  if hasInterpreterLine then
    let (gap, line) := rest.blanks
    let chars := line.text.takeWhile (· ≠ '\n')
    let node := SyntaxNode.leaf (.named .hashBangLine) (line.spanTo chars.length) (.ofList chars)
    set { thread with cursor := line.skip chars.length }
    return edges ++ [⟨none, gap, node⟩]
  else
    set { thread with cursor := rest }
    return edges

/-- All statements, and the comments before the first and after the last of them. -/
def file (file : File) : Weave SyntaxNode := do
  let start := (← get).cursor.position
  let first ← header file.hasInterpreterLine
  let body ← statements file.body
  let last ← next
  return .branch (.named .chunk) ⟨start, last.span.stop⟩
    (first ++ body.flatMap Child.edges ++ last.remarks.map Remark.edge)

end Weave

/-- The nodes of a source text, if it is in the grammar. What was looked for when it was read tells
what may stand at each place. -/
def SyntaxNode.ofText? (text : String) : Option SyntaxNode :=
  let reading := File.reading text
  reading.result.map fun file =>
    ((Weave.file file).run ⟨.ofText text, reading.attempts.map Attempt.place⟩).1

end LuaClasses.Source
