import LuaClasses.Source.Descent

/-! The program of what has been read, by the forms of its statements and expressions. Each of them
is told its level, one below that of the one that holds it. They are visited in the order in which
the work on the nodes of the text comes to them. -/

namespace LuaClasses.Source
namespace Lowering

def enter (level : Nat) (span : Span) : Except ParseError Unit :=
  if maxLevel < level then .error (.tooDeep (.ofSpan span)) else .ok ()

def refuse (kind : String) (span : Span) : Except ParseError α :=
  .error (.unsupported kind (.ofSpan span))

/-- The names of a declaration with values are visited as the targets of the values. -/
def names (level : Nat) : List (String × Span) → Except ParseError (List String)
  | [] => .ok []
  | (name, span) :: rest => do
    enter level span
    let others ← names level rest
    return name :: others

mutual
def term (level : Nat) : Term → Except ParseError Expr
  | ⟨span, form⟩ => do
    enter level span
    termForm level span form

def termForm (level : Nat) (span : Span) : TermForm → Except ParseError Expr
  | .nil => .ok .nil
  | .boolean value => .ok (.boolean value)
  | .number text => .ok (.number text)
  | .string literal => .ok (.string literal.content)
  | .vararg => .ok .vararg
  | .name name => .ok (.name name)
  | .global => refuse "global" span
  | .function body => return .function (← callable level body)
  | .table entries => return .table (← fields level entries)
  | .member object name => return .member (← term (level + 1) object) name
  | .index object key => do
    let object ← term (level + 1) object
    return .index object (← term (level + 1) key)
  | .call callee args => do
    let args ← terms (level + 1) args
    return .call (← term (level + 1) callee) args
  | .methodCall object method args => do
    let args ← terms (level + 1) args
    return .methodCall (← term (level + 1) object) method args
  | .paren inner =>
    if inner.isGlobal then refuse "parenthesized_expression" span
    else return .paren (← term (level + 1) inner)
  | .unary op operand => return .unary op (← term (level + 1) operand)
  | .binary op left right => do
    let left ← term (level + 1) left
    return .binary op left (← term (level + 1) right)

/-- In a list the word `global` is left out, so that nothing stands in its place. -/
def terms (level : Nat) : List Term → Except ParseError (List Expr)
  | [] => .ok []
  | head :: rest =>
    if head.isGlobal then terms level rest
    else do
      let first ← term level head
      return first :: (← terms level rest)

def fields (level : Nat) : List Field → Except ParseError (List TableField)
  | [] => .ok []
  | head :: rest => do
    let first ← field level head
    return first :: (← fields level rest)

/-- The value of a field is visited before its key. -/
def field (level : Nat) : Field → Except ParseError TableField
  | .named name value => return .named name (← term (level + 1) value)
  | .keyed key value => do
    let value ← term (level + 1) value
    return .keyed (← term (level + 1) key) value
  | .positional value => return .positional (← term (level + 1) value)

def callable (level : Nat) : Callable → Except ParseError FunctionBody
  | ⟨params, vararg, body⟩ => return ⟨params, vararg, ← statements (level + 1) body⟩

/-- Empty statements have a level and are left out. -/
def statements (level : Nat) : List Statement → Except ParseError (List Stmt)
  | [] => .ok []
  | head :: rest => do
    let first ← statement level head
    let others ← statements level rest
    return first.toList ++ others

def statement (level : Nat) : Statement → Except ParseError (Option Stmt)
  | ⟨span, form⟩ => do
    enter level span
    let kind ← statementForm level span form
    return kind.map fun kind => ⟨kind, .ofSpan span⟩

def statementForm (level : Nat) (span : Span) : StatementForm → Except ParseError (Option StmtKind)
  | .empty => .ok none
  | .declare declared _ => .ok (some (.local_ (declared.map Prod.fst) []))
  | .define declared _ values => do
    let names ← names (level + 1) declared
    return some (.local_ names (← terms (level + 1) values))
  | .declareAll _ => refuse "implicit_variable_declaration" span
  | .assign targets values => do
    let targets ← terms (level + 1) targets
    return some (.assign targets (← terms (level + 1) values))
  | .call call => return some (.call (← term (level + 1) call))
  | .function name isLocal body => return some (.function name isLocal (← callable level body))
  | .return_ values => return some (.return_ (← terms (level + 1) values))
  | .if_ first others otherwise => do
    let first ← clause level first
    let others ← clauses level others
    match otherwise with
    | none => return some (.if_ (first :: others))
    | some ⟨body⟩ =>
      return some (.if_ (first :: others ++ [⟨none, ← statements (level + 1) body⟩]))
  | .while_ condition body => do
    let condition ← term (level + 1) condition
    return some (.while_ condition (← statements (level + 1) body))
  | .repeat_ body condition => do
    let body ← statements (level + 1) body
    return some (.repeat_ body (← term (level + 1) condition))
  | .do_ body => return some (.do_ (← statements (level + 1) body))
  | .forNumeric var start limit step body => do
    let body ← statements (level + 1) body
    let start ← term (level + 1) start
    let limit ← term (level + 1) limit
    match step with
    | none => return some (.forNumeric var start limit none body)
    | some step => return some (.forNumeric var start limit (some (← term (level + 1) step)) body)
  | .forGeneric names exprs body => do
    let body ← statements (level + 1) body
    return some (.forGeneric names (← terms (level + 1) exprs) body)
  | .break_ => .ok (some .break_)
  | .goto label => .ok (some (.goto label))
  | .label name => .ok (some (.label name))

def clause (level : Nat) : Clause → Except ParseError IfClause
  | ⟨condition, body⟩ => do
    let condition ← term (level + 1) condition
    return ⟨some condition, ← statements (level + 1) body⟩

def clauses (level : Nat) : List Clause → Except ParseError (List IfClause)
  | [] => .ok []
  | head :: rest => do
    let first ← clause level head
    return first :: (← clauses level rest)
end

end Lowering

/-- The program of a source tree. Its own statements have level one. -/
def File.program (file : File) : Except ParseError Program :=
  return ⟨← Lowering.statements 1 file.body⟩

end LuaClasses.Source
