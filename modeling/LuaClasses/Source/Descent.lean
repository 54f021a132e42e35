import LuaClasses.Program.Basic
import LuaClasses.Source.Weaving

/-! From the nodes of a source text to its program. Every statement and every expression is one
level below the one that holds it, and the levels are counted: a node that is entered is left again,
however the work in it ends, unless it is itself too deep. The first node that is too deep or has no
counterpart in a program is the error. -/

namespace LuaClasses

/-- Why a source text is no program. -/
inductive ParseError where
  /-- The text is not in the grammar. -/
  | malformed
  | unsupported (kind : String) (range : Range)
  | tooDeep (range : Range)
  deriving DecidableEq, Repr

namespace Source

/-- The deepest level that a statement or expression of a program may have. -/
def maxLevel : Nat := 256

end Source

namespace ParseError

def message : ParseError → String
  | .malformed => "Syntax error"
  | .unsupported kind range => s!"Unsupported node `{kind}` at {range.text}"
  | .tooDeep range => s!"Nesting deeper than {Source.maxLevel} levels at {range.text}"

end ParseError

namespace Source

/-- Work on a tree that can fail. It counts the levels that have been entered and not left. -/
abbrev Descent (α : Type) : Type := ExceptT ParseError (StateM Nat) α

namespace Descent

variable {α : Type}

/-- What comes of some work that begins at a level. -/
def outcome (work : Descent α) (level : Nat) : Except ParseError α := (work.run.run level).1

/-- The level that the count stands at after the work. -/
def levelAfter (work : Descent α) (level : Nat) : Nat := (work.run.run level).2

def unsupported (node : SyntaxNode) : Descent α :=
  throw (.unsupported node.kind.name (.ofSpan node.span))

/-- The child that a node has to have under the name of a field. -/
def child (node : SyntaxNode) (key : FieldName) : Descent node.Part :=
  match node.part? key with
  | some part => pure part
  | none => throw (.unsupported (node.kind.name ++ " without " ++ key.text) (.ofSpan node.span))

/-- Go down to the level of a node. -/
def enter (node : SyntaxNode) : Descent Unit := do
  modify (· + 1)
  if maxLevel < (← get) then throw (.tooDeep (.ofSpan node.span))

/-- Go back up to the level above. -/
def leave : Descent Unit := modify (· - 1)

/-- The work in a node, one level further down. -/
def within (node : SyntaxNode) (work : Descent α) : Descent α := do
  enter node
  let result ← ExceptT.lift work.run
  leave
  ofExcept result

/-! ### Names -/

def identifiers (nodes : List SyntaxNode) : List String :=
  (nodes.filter fun node => node.kind = .named .identifier).map SyntaxNode.text

def identifierChild (node : SyntaxNode) : Descent String :=
  match identifiers node.namedChildren with
  | name :: _ => pure name
  | [] => unsupported node

/-- Names that are joined by dots. -/
def namePath (node : SyntaxNode) : Descent (List String) :=
  match node.kind with
  | .named .identifier => pure [node.text]
  | .named .dotIndexExpression => do
    let ⟨table, _⟩ ← child node .table
    let path ← namePath table
    let ⟨field, _⟩ ← child node .field
    return path ++ [field.text]
  | _ => unsupported node
  termination_by node.size

def functionName (node : SyntaxNode) : Descent FunctionName :=
  match node.kind with
  | .named .identifier => pure (.plain node.text)
  | .named .dotIndexExpression => do
    let ⟨table, _⟩ ← child node .table
    let path ← namePath table
    let ⟨field, _⟩ ← child node .field
    return ⟨path ++ [field.text], none⟩
  | .named .methodIndexExpression => do
    let ⟨table, _⟩ ← child node .table
    let path ← namePath table
    let ⟨method, _⟩ ← child node .method
    return ⟨path, some method.text⟩
  | _ => unsupported node

/-- The names of parameters, and whether the dots are among them. -/
def parameters : List SyntaxNode → Descent (List String × Bool)
  | [] => pure ([], false)
  | node :: rest =>
    match node.kind with
    | .named .identifier => do
      let (names, vararg) ← parameters rest
      return (node.text :: names, vararg)
    | .named .varargExpression => do
      let (names, _) ← parameters rest
      return (names, true)
    | _ => unsupported node

def parametersOf (node : SyntaxNode) : Descent (List String × Bool) :=
  match node.child? .parameters with
  | some list => parameters list.namedChildren
  | none => pure ([], false)

/-- The first of the words and signs in a node that is an operator. -/
def operator (parse : String → Option α) (node : SyntaxNode) : Descent α :=
  let signs := node.children.filter fun edge => !edge.node.isNamed
  match signs.findSome? fun edge => parse edge.node.text with
  | some op => pure op
  | none => unsupported node

/-! ### Statements and expressions -/

mutual
/-- The statements of a chunk or a block. -/
def statements (node : SyntaxNode) : Descent (List Stmt) := statementList node.namedChildren
  termination_by 8 * node.size
  decreasing_by
    have := node.sizes_namedChildren_lt
    omega

/-- Some nodes are statements that a program does without. -/
def statementList : List SyntaxNode → Descent (List Stmt)
  | [] => pure []
  | node :: rest => do
    let first ← statement node
    let others ← statementList rest
    return first.toList ++ others
  termination_by nodes => 8 * SyntaxNode.sizes nodes + 7
  decreasing_by all_goals
    have := node.size_pos
    simp only [SyntaxNode.sizes]
    omega

/-- The statements of the block under the name of a field. There are none without a block. -/
def block (node : SyntaxNode) (key : FieldName) : Descent (List Stmt) :=
  match node.part? key with
  | some ⟨block, _⟩ => statements block
  | none => pure []
  termination_by 8 * node.size

def statement (node : SyntaxNode) : Descent (Option Stmt) := do
  let kind ← within node (statementKind node)
  return kind.map fun kind => ⟨kind, .ofSpan node.span⟩
  termination_by 8 * node.size + 6

def statementKind (node : SyntaxNode) : Descent (Option StmtKind) :=
  match node.kind with
  | .named .hashBangLine => pure none
  | .named .emptyStatement => pure none
  | .named .variableDeclaration => return some (← localDeclaration node node.namedChildren)
  | .named .assignmentStatement => do
    let (targets, values) ← assignment [] [] node.namedChildren
    return some (.assign targets values)
  | .named .functionCall => return some (.call (← expression node))
  | .named .functionDeclaration => return some (← functionDeclaration node)
  | .named .returnStatement =>
    match node.first? with
    | some ⟨list, _⟩ => return some (.return_ (← expressionList list))
    | none => return some (.return_ [])
  | .named .ifStatement => return some (← ifStatement node)
  | .named .whileStatement => do
    let ⟨condition, _⟩ ← child node .condition
    let condition ← expression condition
    return some (.while_ condition (← block node .body))
  | .named .repeatStatement => do
    let body ← block node .body
    let ⟨condition, _⟩ ← child node .condition
    return some (.repeat_ body (← expression condition))
  | .named .doStatement => return some (.do_ (← block node .body))
  | .named .forStatement => return some (← forStatement node)
  | .named .breakStatement => return some .break_
  | .named .gotoStatement => return some (.goto (← identifierChild node))
  | .named .labelStatement => return some (.label (← identifierChild node))
  | _ => unsupported node
  termination_by 8 * node.size + 5
  decreasing_by all_goals
    have := node.sizes_namedChildren_lt
    omega

/-- The declaration that the first list or assignment among some children of a node makes up. -/
def localDeclaration (node : SyntaxNode) : List SyntaxNode → Descent StmtKind
  | [] => unsupported node
  | part :: rest =>
    match part.kind with
    | .named .assignmentStatement => do
      let (targets, values) ← assignment [] [] part.namedChildren
      return .local_ (targets.filterMap Expr.name?) values
    | .named .variableList => return .local_ (identifiers part.namedChildren) []
    | _ => localDeclaration node rest
  termination_by parts => 8 * SyntaxNode.sizes parts + 7
  decreasing_by all_goals
    have := part.sizes_namedChildren_lt
    simp only [SyntaxNode.sizes]
    omega

/-- The targets and the values of an assignment, after those that have been found. -/
def assignment (targets values : List Expr) : List SyntaxNode → Descent (List Expr × List Expr)
  | [] => pure (targets, values)
  | part :: rest =>
    match part.kind with
    | .named .variableList => do
      let more ← expressions (part.namedChildren.filter fun node => node.kind ≠ .named .attribute)
      assignment (targets ++ more) values rest
    | .named .expressionList => do
      let values ← expressionList part
      assignment targets values rest
    | _ => unsupported part
  termination_by parts => 8 * SyntaxNode.sizes parts + 7
  decreasing_by all_goals
    have := part.sizes_namedChildren_lt
    have := SyntaxNode.sizes_filter_le (fun node => node.kind ≠ .named .attribute) part.namedChildren
    simp only [SyntaxNode.sizes]
    omega

def expressionList (node : SyntaxNode) : Descent (List Expr) :=
  if node.kind = .named .expressionList then expressions node.namedChildren
  else return [← expression node]
  termination_by 8 * node.size + 5
  decreasing_by all_goals
    have := node.sizes_namedChildren_lt
    omega

def expressions : List SyntaxNode → Descent (List Expr)
  | [] => pure []
  | node :: rest => do
    let first ← expression node
    return first :: (← expressions rest)
  termination_by nodes => 8 * SyntaxNode.sizes nodes + 7
  decreasing_by all_goals
    have := node.size_pos
    simp only [SyntaxNode.sizes]
    omega

def functionDeclaration (node : SyntaxNode) : Descent StmtKind := do
  let isLocal := node.children.any fun edge => edge.node.kind = .sign "local"
  let ⟨name, _⟩ ← child node .name
  let name ← functionName name
  return .function name isLocal (← functionBody node)
  termination_by 8 * node.size + 2

def functionBody (node : SyntaxNode) : Descent FunctionBody := do
  let (params, vararg) ← parametersOf node
  return ⟨params, vararg, ← block node .body⟩
  termination_by 8 * node.size + 1

def ifStatement (node : SyntaxNode) : Descent StmtKind := do
  let first ← arm node
  return .if_ (first :: (← arms node.namedChildren))
  termination_by 8 * node.size + 2
  decreasing_by all_goals
    have := node.sizes_namedChildren_lt
    omega

/-- A condition, and what is done if it holds. -/
def arm (node : SyntaxNode) : Descent IfClause := do
  let ⟨condition, _⟩ ← child node .condition
  let condition ← expression condition
  return ⟨some condition, ← block node .consequence⟩
  termination_by 8 * node.size + 1

/-- The arms of an `if` statement after the first one. -/
def arms : List SyntaxNode → Descent (List IfClause)
  | [] => pure []
  | node :: rest =>
    match node.kind with
    | .named .elseifStatement => do
      let first ← arm node
      return first :: (← arms rest)
    | .named .elseStatement => do
      let body ← block node .body
      return ⟨none, body⟩ :: (← arms rest)
    | _ => arms rest
  termination_by nodes => 8 * SyntaxNode.sizes nodes + 7
  decreasing_by all_goals
    have := node.size_pos
    simp only [SyntaxNode.sizes]
    omega

/-- The body of a loop is visited before its clause. -/
def forStatement (node : SyntaxNode) : Descent StmtKind := do
  let ⟨clause, _⟩ ← child node .clause
  let body ← block node .body
  match clause.kind with
  | .named .forNumericClause => do
    let ⟨var, _⟩ ← child clause .name
    let ⟨start, _⟩ ← child clause .start
    let start ← expression start
    let ⟨limit, _⟩ ← child clause .end_
    let limit ← expression limit
    return .forNumeric var.text start limit (← step clause) body
  | .named .forGenericClause => do
    let (names, exprs) ← generic [] [] clause.namedChildren
    return .forGeneric names exprs body
  | _ => unsupported clause
  termination_by 8 * node.size + 2
  decreasing_by all_goals
    have := clause.sizes_namedChildren_lt
    omega

def step (clause : SyntaxNode) : Descent (Option Expr) :=
  match clause.part? .step with
  | some ⟨step, _⟩ => return some (← expression step)
  | none => pure none
  termination_by 8 * clause.size

/-- The names and the expressions of a loop over values, unless others come after them. -/
def generic (names : List String) (exprs : List Expr) :
    List SyntaxNode → Descent (List String × List Expr)
  | [] => pure (names, exprs)
  | part :: rest =>
    match part.kind with
    | .named .variableList => generic (identifiers part.namedChildren) exprs rest
    | .named .expressionList => do
      let exprs ← expressionList part
      generic names exprs rest
    | _ => generic names exprs rest
  termination_by parts => 8 * SyntaxNode.sizes parts + 7
  decreasing_by all_goals
    have := part.size_pos
    simp only [SyntaxNode.sizes]
    omega

def expression (node : SyntaxNode) : Descent Expr := within node (expressionInner node)
  termination_by 8 * node.size + 4

def expressionInner (node : SyntaxNode) : Descent Expr :=
  match node.kind with
  | .named .nilLiteral => pure .nil
  | .named .trueLiteral => pure (.boolean true)
  | .named .falseLiteral => pure (.boolean false)
  | .named .number => pure (.number node.text)
  | .named .string => pure (.string ((node.child? .content).elim "" SyntaxNode.text))
  | .named .varargExpression => pure .vararg
  | .named .identifier => pure (.name node.text)
  | .named .functionDefinition => return .function (← functionBody node)
  | .named .tableConstructor =>
    return .table (← tableFields (node.namedChildren.filter fun child => child.kind = .named .field))
  | .named .dotIndexExpression => do
    let ⟨object, _⟩ ← child node .table
    let object ← expression object
    let ⟨name, _⟩ ← child node .field
    return .member object name.text
  | .named .bracketIndexExpression => do
    let ⟨object, _⟩ ← child node .table
    let object ← expression object
    let ⟨key, _⟩ ← child node .field
    return .index object (← expression key)
  | .named .parenthesizedExpression =>
    match node.first? with
    | some ⟨inner, _⟩ => return .paren (← expression inner)
    | none => unsupported node
  | .named .functionCall => call node
  | .named .unaryExpression => do
    let op ← operator UnaryOp.ofToken? node
    let ⟨operand, _⟩ ← child node .operand
    return .unary op (← expression operand)
  | .named .binaryExpression => do
    let op ← operator BinaryOp.ofToken? node
    let ⟨left, _⟩ ← child node .left
    let left ← expression left
    let ⟨right, _⟩ ← child node .right
    return .binary op left (← expression right)
  | _ => unsupported node
  termination_by 8 * node.size + 3
  decreasing_by all_goals
    have := SyntaxNode.sizes_filter_le (fun child => child.kind = .named .field) node.namedChildren
    have := node.sizes_namedChildren_lt
    omega

/-- The arguments of a call are visited before what is called. -/
def call (node : SyntaxNode) : Descent Expr := do
  let ⟨callee, _⟩ ← child node .name
  let args ← argumentsOf node
  if callee.kind = .named .methodIndexExpression then do
    let ⟨object, _⟩ ← child callee .table
    let object ← expression object
    let ⟨method, _⟩ ← child callee .method
    return .methodCall object method.text args
  else return .call (← expression callee) args
  termination_by 8 * node.size + 1

def argumentsOf (node : SyntaxNode) : Descent (List Expr) :=
  match node.part? .arguments with
  | some ⟨list, _⟩ => arguments list
  | none => pure []
  termination_by 8 * node.size

def arguments (node : SyntaxNode) : Descent (List Expr) :=
  if node.kind = .named .arguments then expressions node.namedChildren
  else return [← expression node]
  termination_by 8 * node.size + 5
  decreasing_by all_goals
    have := node.sizes_namedChildren_lt
    omega

def tableFields : List SyntaxNode → Descent (List TableField)
  | [] => pure []
  | node :: rest => do
    let first ← tableField node
    return first :: (← tableFields rest)
  termination_by nodes => 8 * SyntaxNode.sizes nodes + 7
  decreasing_by all_goals
    have := node.size_pos
    simp only [SyntaxNode.sizes]
    omega

/-- The value of a field is visited before its key. A name is the key itself unless it stands in
brackets. -/
def tableField (node : SyntaxNode) : Descent TableField := do
  let ⟨value, _⟩ ← child node .value
  let value ← expression value
  match node.part? .name with
  | none => return .positional value
  | some ⟨name, _⟩ =>
    if name.kind = .named .identifier && !node.opensWithBracket then return .named name.text value
    else return .keyed (← expression name) value
  termination_by 8 * node.size
end

end Descent
end Source

/-- The program of the tree of a source text. Its own statements have level one. -/
def Program.ofTree (tree : Source.SyntaxNode) : Except ParseError Program :=
  return ⟨← (Source.Descent.statements tree).outcome 0⟩

/-- The program of a source text by the tree that a parser makes of it. A text without a tree is
malformed, however deep it is nested. -/
def Program.parseWith (parse : String → Option Source.SyntaxNode) (text : String) :
    Except ParseError Program :=
  match parse text with
  | none => .error .malformed
  | some tree => ofTree tree

/-- Read a source text as a program. -/
def Program.ofText (text : String) : Except ParseError Program :=
  parseWith Source.SyntaxNode.ofText? text

end LuaClasses
