import LuaClasses.OrderedMap
import LuaClasses.Range
import LuaClasses.Types

/-! The entities that occupy scopes: variables, functions, constructors, tables, classes and
blocks, with the references that feed types from one entity to another. -/

namespace LuaClasses

/-- A scope, by its number in the order of creation. -/
structure ScopeId where
  index : Nat
  deriving DecidableEq, Repr, Inhabited

/-- What kind of value occupies a scope. -/
inductive ValueType where
  | class_
  | table
  | function
  | field
  | value
  | block
  deriving DecidableEq, Repr

namespace ValueType

def all : List ValueType := [.class_, .table, .function, .field, .value, .block]

def tag : ValueType → String
  | .class_ => "class"
  | .table => "table"
  | .function => "function"
  | .field => "field"
  | .value => "value"
  | .block => "block"

end ValueType

/-- A link from one entity to another. An unresolved one is looked up again, from the scope in
which it was made, until its target exists. -/
inductive Reference where
  | unresolved (target : String) (origin : ScopeId)
  | resolved (target : ScopeId)
  deriving DecidableEq, Repr

namespace Reference

def isResolved : Reference → Bool
  | .resolved _ => true
  | .unresolved _ _ => false

def target? : Reference → Option ScopeId
  | .resolved target => some target
  | .unresolved _ _ => none

end Reference

abbrev Members := OrderedMap ScopeId

structure Variable where
  name : String
  types : TypeSet
  origin : Option Range
  deriving DecidableEq

inductive FunctionKind where
  /-- `Class.name` -/
  | static
  /-- `Class:name` -/
  | method
  /-- `function name()` at the top level. -/
  | global
  deriving DecidableEq, Repr

def FunctionKind.all : List FunctionKind := [.static, .method, .global]

def FunctionKind.tag : FunctionKind → String
  | .static => "static"
  | .method => "method"
  | .global => "global"

structure Function where
  name : String
  kind : FunctionKind
  params : List ScopeId
  vararg : Bool
  values : Members
  returns : TypeSet
  /-- Whether any return statement stands in the body. -/
  hasReturn : Bool
  deriving DecidableEq

structure Constructor where
  params : List ScopeId
  vararg : Bool
  values : Members
  /-- The name that the body gives to the instance under construction. -/
  selfAlias : Option String
  deriving DecidableEq

structure Table where
  name : String
  fields : Members
  deriving DecidableEq

structure Class where
  name : String
  superclass : Option String
  superclassLink : Option ScopeId
  constructor : ScopeId
  /-- Fields of instances. -/
  fields : Members
  /-- Static values. -/
  values : Members
  /-- Static functions. -/
  functions : Members
  /-- Methods of instances. -/
  methods : Members
  deriving DecidableEq

inductive BlockKind where
  | forGeneric
  | forNumeric
  | while_
  | do_
  | repeat_
  | if_
  | ifClause
  deriving DecidableEq, Repr

namespace BlockKind

def all : List BlockKind := [.forGeneric, .forNumeric, .while_, .do_, .repeat_, .if_, .ifClause]

def tag : BlockKind → String
  | .forGeneric => "for-generic"
  | .forNumeric => "for-numeric"
  | .while_ => "while"
  | .do_ => "do"
  | .repeat_ => "repeat"
  | .if_ => "if"
  | .ifClause => "if-clause"

/-- The word that begins the names of the scopes of such blocks. -/
def stem : BlockKind → String
  | .forGeneric => "for_generic"
  | .forNumeric => "for_numeric"
  | .while_ => "while"
  | .do_ => "do"
  | .repeat_ => "repeat"
  | .if_ => "if"
  | .ifClause => "clause"

end BlockKind

structure Block where
  kind : BlockKind
  values : Members
  deriving DecidableEq

inductive EntityKind where
  | variable (var : Variable)
  | function (function : Function)
  | constructor (constructor : Constructor)
  | table (table : Table)
  | class_ (class_ : Class)
  | block (block : Block)
  deriving DecidableEq

structure Entity where
  /-- Keyed by the path of the target as it was written or, where it was known, as it is. -/
  references : OrderedMap Reference
  kind : EntityKind
  deriving DecidableEq

namespace Variable

def new (name : String) (origin : Option Range) : Variable := ⟨name, .empty, origin⟩

end Variable

namespace Function

def new (name : String) (kind : FunctionKind) : Function :=
  { name, kind, params := [], vararg := false, values := .empty, returns := .empty, hasReturn := false }

end Function

namespace Constructor

def new : Constructor := { params := [], vararg := false, values := .empty, selfAlias := none }

end Constructor

namespace Class

def new (name : String) (constructor : ScopeId) : Class :=
  { name, superclass := none, superclassLink := none, constructor, fields := .empty, values := .empty,
    functions := .empty, methods := .empty }

/-- The type of the instances of a class. -/
def instanceType (owner : Class) : LuaType := .instanceOf owner.name

end Class

namespace Entity

def new (kind : EntityKind) : Entity := ⟨.empty, kind⟩

def asVariable? (entity : Entity) : Option Variable :=
  match entity.kind with
  | .variable var => some var
  | _ => none

def asFunction? (entity : Entity) : Option Function :=
  match entity.kind with
  | .function function => some function
  | _ => none

def asConstructor? (entity : Entity) : Option Constructor :=
  match entity.kind with
  | .constructor constructor => some constructor
  | _ => none

def asClass? (entity : Entity) : Option Class :=
  match entity.kind with
  | .class_ owner => some owner
  | _ => none

def isTable (entity : Entity) : Bool :=
  match entity.kind with
  | .table _ => true
  | _ => false

/-- Change a class; other entities stay as they are. -/
def mapClass (f : Class → Class) (entity : Entity) : Entity :=
  match entity.kind with
  | .class_ owner => { entity with kind := .class_ (f owner) }
  | _ => entity

/-- The names that live directly in the scope of an entity. A variable has no such names. -/
def locals? (entity : Entity) : Option Members :=
  match entity.kind with
  | .function function => some function.values
  | .constructor constructor => some constructor.values
  | .block block => some block.values
  | .table table => some table.fields
  | .class_ owner => some owner.values
  | .variable _ => none

/-- Change the names that live directly in the scope of an entity. -/
def mapLocals (f : Members → Members) (entity : Entity) : Entity :=
  { entity with kind :=
      match entity.kind with
      | .function function => .function { function with values := f function.values }
      | .constructor constructor => .constructor { constructor with values := f constructor.values }
      | .block block => .block { block with values := f block.values }
      | .table table => .table { table with fields := f table.fields }
      | .class_ owner => .class_ { owner with values := f owner.values }
      | .variable var => .variable var }

/-- The types that an entity gathers: those of a variable, or those that a function returns. -/
def gathered? (entity : Entity) : Option TypeSet :=
  match entity.kind with
  | .variable var => some var.types
  | .function function => some function.returns
  | _ => none

/-- How many of the types would be new to an entity that gathers types. -/
def newTypes (entity : Entity) (types : TypeSet) : Nat :=
  match entity.gathered? with
  | some known => known.missing types
  | none => 0

/-- Add types to an entity that gathers types; other entities stay as they are. -/
def gather (entity : Entity) (types : TypeSet) : Entity :=
  { entity with kind :=
      match entity.kind with
      | .variable var => .variable { var with types := var.types ∪ types }
      | .function function => .function { function with returns := function.returns ∪ types }
      | kind => kind }

end Entity
end LuaClasses
