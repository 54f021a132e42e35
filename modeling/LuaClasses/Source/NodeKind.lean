import LuaClasses.Source.Tree

/-! The kinds of nodes that a source tree shows in a coverage report, with their names and
the numbers that the grammar gives them. -/

namespace LuaClasses.Source

inductive NodeKind where
  | arguments
  | assignmentStatement
  | attribute
  | binaryExpression
  | block
  | bracketIndexExpression
  | breakStatement
  | chunk
  | comment
  | commentContent
  | doStatement
  | dotIndexExpression
  | elseStatement
  | elseifStatement
  | emptyStatement
  | escapeSequence
  | expressionList
  | falseLiteral
  | field
  | forGenericClause
  | forNumericClause
  | forStatement
  | functionCall
  | functionDeclaration
  | functionDefinition
  | gotoStatement
  | hashBangLine
  | identifier
  | ifStatement
  | implicitVariableDeclaration
  | labelStatement
  | methodIndexExpression
  | nilLiteral
  | number
  | parameters
  | parenthesizedExpression
  | repeatStatement
  | returnStatement
  | string
  | stringContent
  | tableConstructor
  | trueLiteral
  | unaryExpression
  | varargExpression
  | variableDeclaration
  | variableList
  | whileStatement
  deriving DecidableEq, Repr

namespace NodeKind

/-- All kinds, in the order of their names. -/
def all : List NodeKind :=
  [.arguments, .assignmentStatement, .attribute, .binaryExpression, .block, .bracketIndexExpression,
    .breakStatement, .chunk, .comment, .commentContent, .doStatement, .dotIndexExpression,
    .elseStatement, .elseifStatement, .emptyStatement, .escapeSequence, .expressionList,
    .falseLiteral, .field, .forGenericClause, .forNumericClause, .forStatement, .functionCall,
    .functionDeclaration, .functionDefinition, .gotoStatement, .hashBangLine, .identifier,
    .ifStatement, .implicitVariableDeclaration, .labelStatement, .methodIndexExpression,
    .nilLiteral, .number, .parameters, .parenthesizedExpression, .repeatStatement,
    .returnStatement, .string, .stringContent, .tableConstructor, .trueLiteral, .unaryExpression,
    .varargExpression, .variableDeclaration, .variableList, .whileStatement]

def name : NodeKind → String
  | .arguments => "arguments"
  | .assignmentStatement => "assignment_statement"
  | .attribute => "attribute"
  | .binaryExpression => "binary_expression"
  | .block => "block"
  | .bracketIndexExpression => "bracket_index_expression"
  | .breakStatement => "break_statement"
  | .chunk => "chunk"
  | .comment => "comment"
  | .commentContent => "comment_content"
  | .doStatement => "do_statement"
  | .dotIndexExpression => "dot_index_expression"
  | .elseStatement => "else_statement"
  | .elseifStatement => "elseif_statement"
  | .emptyStatement => "empty_statement"
  | .escapeSequence => "escape_sequence"
  | .expressionList => "expression_list"
  | .falseLiteral => "false"
  | .field => "field"
  | .forGenericClause => "for_generic_clause"
  | .forNumericClause => "for_numeric_clause"
  | .forStatement => "for_statement"
  | .functionCall => "function_call"
  | .functionDeclaration => "function_declaration"
  | .functionDefinition => "function_definition"
  | .gotoStatement => "goto_statement"
  | .hashBangLine => "hash_bang_line"
  | .identifier => "identifier"
  | .ifStatement => "if_statement"
  | .implicitVariableDeclaration => "implicit_variable_declaration"
  | .labelStatement => "label_statement"
  | .methodIndexExpression => "method_index_expression"
  | .nilLiteral => "nil"
  | .number => "number"
  | .parameters => "parameters"
  | .parenthesizedExpression => "parenthesized_expression"
  | .repeatStatement => "repeat_statement"
  | .returnStatement => "return_statement"
  | .string => "string"
  | .stringContent => "string_content"
  | .tableConstructor => "table_constructor"
  | .trueLiteral => "true"
  | .unaryExpression => "unary_expression"
  | .varargExpression => "vararg_expression"
  | .variableDeclaration => "variable_declaration"
  | .variableList => "variable_list"
  | .whileStatement => "while_statement"

def grammarNumber : NodeKind → Nat
  | .arguments => 125
  | .assignmentStatement => 78
  | .attribute => 106
  | .binaryExpression => 131
  | .block => 74
  | .bracketIndexExpression => 121
  | .breakStatement => 8
  | .chunk => 73
  | .comment => 133
  | .commentContent => 68
  | .doStatement => 83
  | .dotIndexExpression => 122
  | .elseStatement => 88
  | .elseifStatement => 87
  | .emptyStatement => 77
  | .escapeSequence => 37
  | .expressionList => 80
  | .falseLiteral => 30
  | .field => 130
  | .forGenericClause => 90
  | .forNumericClause => 91
  | .forStatement => 89
  | .functionCall => 123
  | .functionDeclaration => 94
  | .functionDefinition => 114
  | .gotoStatement => 82
  | .hashBangLine => 2
  | .identifier => 1
  | .ifStatement => 86
  | .implicitVariableDeclaration => 105
  | .labelStatement => 81
  | .methodIndexExpression => 124
  | .nilLiteral => 29
  | .number => 32
  | .parameters => 116
  | .parenthesizedExpression => 126
  | .repeatStatement => 85
  | .returnStatement => 76
  | .string => 109
  | .stringContent => 71
  | .tableConstructor => 127
  | .trueLiteral => 31
  | .unaryExpression => 132
  | .varargExpression => 38
  | .variableDeclaration => 101
  | .variableList => 79
  | .whileStatement => 84

/-- The kinds that reading a program takes into account. -/
def isLowered : NodeKind → Bool
  | .commentContent => false
  | .implicitVariableDeclaration => false
  | _ => true

end NodeKind

/-! ### The kinds of a tree -/

def commentKinds : List NodeKind := [.comment, .commentContent]

def StringLiteral.kinds (literal : StringLiteral) : List NodeKind :=
  .string :: (if literal.isQuoted && literal.content.isEmpty then [] else [.stringContent]) ++
    (if literal.hasEscapes then [.escapeSequence] else []) ++
    if literal.hasComments then commentKinds else []

def parameterKinds (params : List String) (vararg : Bool) : List NodeKind :=
  .parameters :: (if params.isEmpty then [] else [.identifier]) ++
    if vararg then [.varargExpression] else []

def attributeKinds (attributed : Bool) : List NodeKind :=
  if attributed then [.attribute, .identifier] else []

def functionNameKinds (name : FunctionName) : List NodeKind :=
  .identifier :: (if name.path.length ≤ 1 then [] else [.dotIndexExpression]) ++
    if name.method.isSome then [.methodIndexExpression] else []

mutual
def Term.kinds : Term → List NodeKind
  | ⟨_, form⟩ => form.kinds

def TermForm.kinds : TermForm → List NodeKind
  | .nil => [.nilLiteral]
  | .boolean value => [if value then .trueLiteral else .falseLiteral]
  | .number _ => [.number]
  | .string literal => literal.kinds
  | .vararg => [.varargExpression]
  | .name _ => [.identifier]
  | .global => []
  | .function body => .functionDefinition :: body.kinds
  | .table fields => .tableConstructor :: fieldsKinds fields
  | .member object _ => .dotIndexExpression :: .identifier :: object.kinds
  | .index object key => .bracketIndexExpression :: object.kinds ++ key.kinds
  | .call callee args => .functionCall :: .arguments :: callee.kinds ++ termsKinds args
  | .methodCall object _ args =>
    .functionCall :: .methodIndexExpression :: .identifier :: .arguments :: object.kinds ++
      termsKinds args
  | .paren inner => .parenthesizedExpression :: inner.kinds
  | .unary _ operand => .unaryExpression :: operand.kinds
  | .binary _ left right => .binaryExpression :: left.kinds ++ right.kinds

def termsKinds : List Term → List NodeKind
  | [] => []
  | head :: rest => head.kinds ++ termsKinds rest

def Field.kinds : Field → List NodeKind
  | .named _ value => .field :: .identifier :: value.kinds
  | .keyed key value => .field :: key.kinds ++ value.kinds
  | .positional value => .field :: value.kinds

def fieldsKinds : List Field → List NodeKind
  | [] => []
  | head :: rest => head.kinds ++ fieldsKinds rest

def Callable.kinds : Callable → List NodeKind
  | ⟨params, vararg, body⟩ => parameterKinds params vararg ++ blockKinds body

def Statement.kinds : Statement → List NodeKind
  | ⟨_, form⟩ => form.kinds

def StatementForm.kinds : StatementForm → List NodeKind
  | .empty => [.emptyStatement]
  | .declare _ attributed =>
    .variableDeclaration :: .variableList :: .identifier :: attributeKinds attributed
  | .define _ attributed values =>
    .variableDeclaration :: .assignmentStatement :: .variableList :: .expressionList :: .identifier ::
      attributeKinds attributed ++ termsKinds values
  | .declareAll attributed => .implicitVariableDeclaration :: attributeKinds attributed
  | .assign targets values =>
    .assignmentStatement :: .variableList :: .expressionList :: termsKinds targets ++ termsKinds values
  | .call call => call.kinds
  | .function name _ body => .functionDeclaration :: functionNameKinds name ++ body.kinds
  | .return_ values =>
    .returnStatement :: (if values.isEmpty then [] else [.expressionList]) ++ termsKinds values
  | .if_ first others otherwise =>
    .ifStatement :: first.kinds ++ (if others.isEmpty then [] else [.elseifStatement]) ++
      clausesKinds others ++
      match otherwise with
      | none => []
      | some ⟨body⟩ => .elseStatement :: blockKinds body
  | .while_ condition body => .whileStatement :: condition.kinds ++ blockKinds body
  | .repeat_ body condition => .repeatStatement :: blockKinds body ++ condition.kinds
  | .do_ body => .doStatement :: blockKinds body
  | .forNumeric _ start limit step body =>
    .forStatement :: .forNumericClause :: .identifier :: start.kinds ++ limit.kinds ++
      (match step with
      | none => []
      | some step => step.kinds) ++ blockKinds body
  | .forGeneric _ exprs body =>
    .forStatement :: .forGenericClause :: .variableList :: .identifier :: .expressionList ::
      termsKinds exprs ++ blockKinds body
  | .break_ => [.breakStatement]
  | .goto _ => [.gotoStatement, .identifier]
  | .label _ => [.labelStatement, .identifier]

def Clause.kinds : Clause → List NodeKind
  | ⟨condition, body⟩ => condition.kinds ++ blockKinds body

def clausesKinds : List Clause → List NodeKind
  | [] => []
  | head :: rest => head.kinds ++ clausesKinds rest

/-- The statements of a body. A body without statements has no block. -/
def blockKinds : List Statement → List NodeKind
  | [] => []
  | head :: rest => .block :: head.kinds ++ blockKinds rest
end

/-- The kinds that occur in a source text, each once, in the order of their names. The
statements of the text itself are no block. -/
def File.kinds (file : File) : List NodeKind :=
  let found : List NodeKind :=
    .chunk :: (if file.hasInterpreterLine then [.hashBangLine] else []) ++
      (if file.hasComment then commentKinds else []) ++
      file.body.flatMap Statement.kinds
  NodeKind.all.filter found.contains

end LuaClasses.Source
