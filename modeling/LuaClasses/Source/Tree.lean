import LuaClasses.Program.Basic
import LuaClasses.Source.Token

/-! Lua source text as a tree. Unlike a program, the tree keeps the place of every
expression, empty statements, attributes, and the word `global` where it is used as a name. -/

namespace LuaClasses.Source

mutual
/-- An expression and its place. -/
structure Term where
  span : Span
  form : TermForm

inductive TermForm where
  | nil
  | boolean (value : Bool)
  | number (text : String)
  | string (literal : StringLiteral)
  | vararg
  | name (name : String)
  /-- The word `global` used as a name. -/
  | global
  | function (callable : Callable)
  | table (fields : List Field)
  | member (object : Term) (name : String)
  | index (object key : Term)
  | call (callee : Term) (args : List Term)
  | methodCall (object : Term) (method : String) (args : List Term)
  | paren (inner : Term)
  | unary (op : UnaryOp) (operand : Term)
  | binary (op : BinaryOp) (left right : Term)

inductive Field where
  | named (name : String) (value : Term)
  | keyed (key value : Term)
  | positional (value : Term)

/-- The parameters and body of a function. -/
structure Callable where
  params : List String
  vararg : Bool
  body : List Statement

structure Statement where
  span : Span
  form : StatementForm

inductive StatementForm where
  | empty
  /-- Names declared without values. -/
  | declare (names : List (String × Span)) (attributed : Bool)
  /-- Names declared with the values assigned to them. -/
  | define (names : List (String × Span)) (attributed : Bool) (values : List Term)
  /-- The declaration `global *`. -/
  | declareAll (attributed : Bool)
  | assign (targets values : List Term)
  | call (call : Term)
  | function (name : FunctionName) (isLocal : Bool) (callable : Callable)
  /-- Without values where the list is empty. -/
  | return_ (values : List Term)
  | if_ (first : Clause) (others : List Clause) (otherwise : Option Block)
  | while_ (condition : Term) (body : List Statement)
  | repeat_ (body : List Statement) (condition : Term)
  | do_ (body : List Statement)
  | forNumeric (var : String) (start limit : Term) (step : Option Term) (body : List Statement)
  | forGeneric (names : List String) (exprs : List Term) (body : List Statement)
  | break_
  | goto (label : String)
  | label (name : String)

structure Clause where
  condition : Term
  body : List Statement

structure Block where
  body : List Statement
end

/-- A source text: its statements, and what stands between its tokens. -/
structure File where
  hasInterpreterLine : Bool
  hasComment : Bool
  body : List Statement

/-- The form of a name. -/
def TermForm.ofName (name : String) : TermForm :=
  if name = Keyword.global.text then .global else .name name

namespace Term

def isGlobal : Term → Bool
  | ⟨_, .global⟩ => true
  | _ => false

def isCall : Term → Bool
  | ⟨_, .call _ _⟩ => true
  | ⟨_, .methodCall _ _ _⟩ => true
  | _ => false

/-- The expressions that can be assigned to. -/
def isTarget : Term → Bool
  | ⟨_, .name _⟩ => true
  | ⟨_, .global⟩ => true
  | ⟨_, .member _ _⟩ => true
  | ⟨_, .index _ _⟩ => true
  | _ => false

end Term
end LuaClasses.Source
