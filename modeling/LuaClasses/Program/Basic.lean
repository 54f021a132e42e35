import LuaClasses.Program.Operator
import LuaClasses.Range

/-! Lua programs as discovery sees them: statements with their ranges, and expressions as
plain trees. Comments, empty statements and attributes are already gone. -/

namespace LuaClasses

/-- How a function name attaches its last segment. -/
inductive Indexer where
  | dot
  | colon
  deriving DecidableEq, Repr

/-- The name of a declared function: segments joined by dots, and a method after a colon. -/
structure FunctionName where
  path : List String
  method : Option String
  deriving DecidableEq, Repr

mutual
inductive Expr where
  | nil
  | boolean (value : Bool)
  | number (text : String)
  | string (value : String)
  | vararg
  | function (body : FunctionBody)
  | table (fields : List TableField)
  | name (name : String)
  | member (object : Expr) (name : String)
  | index (object key : Expr)
  | call (callee : Expr) (args : List Expr)
  | methodCall (object : Expr) (method : String) (args : List Expr)
  | paren (inner : Expr)
  | unary (op : UnaryOp) (operand : Expr)
  | binary (op : BinaryOp) (left right : Expr)

inductive TableField where
  | named (name : String) (value : Expr)
  | keyed (key value : Expr)
  | positional (value : Expr)

structure FunctionBody where
  params : List String
  vararg : Bool
  body : List Stmt

inductive StmtKind where
  | local_ (names : List String) (values : List Expr)
  | assign (targets values : List Expr)
  | call (call : Expr)
  | function (name : FunctionName) (isLocal : Bool) (body : FunctionBody)
  | return_ (values : List Expr)
  | if_ (clauses : List IfClause)
  | while_ (condition : Expr) (body : List Stmt)
  | repeat_ (body : List Stmt) (condition : Expr)
  | do_ (body : List Stmt)
  | forNumeric (var : String) (start limit : Expr) (step : Option Expr) (body : List Stmt)
  | forGeneric (names : List String) (exprs : List Expr) (body : List Stmt)
  | break_
  | goto (label : String)
  | label (name : String)

/-- One arm of an `if` statement. The `else` arm has no condition. -/
structure IfClause where
  condition : Option Expr
  body : List Stmt

structure Stmt where
  kind : StmtKind
  range : Range
end

/-- The statements of one source text. -/
structure Program where
  body : List Stmt

instance : Inhabited Expr := ⟨.nil⟩

namespace FunctionName

def plain (name : String) : FunctionName := ⟨[name], none⟩

def ofMember (base : String) (indexer : Indexer) (name : String) : FunctionName :=
  match indexer with
  | .dot => ⟨[base, name], none⟩
  | .colon => ⟨[base], some name⟩

/-- The parts of `base.name` or `base:name`. Plain names and deeper paths have none. -/
def member? : FunctionName → Option (String × Indexer × String)
  | ⟨[base], some method⟩ => some (base, .colon, method)
  | ⟨[base, name], none⟩ => some (base, .dot, name)
  | _ => none

def plain? : FunctionName → Option String
  | ⟨[name], none⟩ => some name
  | _ => none

def text (name : FunctionName) : String :=
  let path := String.intercalate "." name.path
  match name.method with
  | some method => path ++ ":" ++ method
  | none => path

end FunctionName

namespace Expr

def name? : Expr → Option String
  | .name identifier => some identifier
  | _ => none

/-- The expression without the parentheses around it. -/
def unparen : Expr → Expr
  | .paren inner => unparen inner
  | expr => expr

/-- The path of a chain of member reads from a name, such as `math.pi`. Parentheses around
any part of the chain do not matter. -/
def dottedPath? : Expr → Option String
  | .paren inner => dottedPath? inner
  | .name identifier => some identifier
  | .member object key => (dottedPath? object).map fun base => base ++ "." ++ key
  | _ => none

def literalType? (expr : Expr) : Option LuaType :=
  match expr.unparen with
  | .nil => some .nil
  | .boolean _ => some .boolean
  | .number _ => some .number
  | .string _ => some .string
  | .vararg => some .vararg
  | .table _ => some .table
  | .function _ => some .function
  | _ => none

end Expr
end LuaClasses
