import LuaClasses.Discovery.Config
import LuaClasses.Program.Basic
import LuaClasses.Scope.Tree

/-! What an expression tells about the value it gives, and how an entity takes it in. -/

namespace LuaClasses.Discovery

/-- The place from which a body is read. -/
structure Frame where
  /-- The scope in which new locals are made. -/
  scope : ScopeId
  /-- The function that gathers the types of the values returned. -/
  function : Option ScopeId
  /-- The name of the instance in the body. -/
  selfAlias : Option String
  deriving DecidableEq

namespace Frame

def at_ (scope : ScopeId) : Frame := ⟨scope, none, none⟩

/-- The frame of the body of a function. -/
def ofFunction (id : ScopeId) : Frame := ⟨id, some id, none⟩

/-- The frame of the body of a method. -/
def ofMethod (id : ScopeId) (selfAlias : String) : Frame := ⟨id, some id, some selfAlias⟩

/-- The frame of the body of a constructor, whose returned values say nothing. -/
def ofConstructor (id : ScopeId) (selfAlias : Option String) : Frame := ⟨id, none, selfAlias⟩

/-- The same frame in a block. -/
def within (frame : Frame) (scope : ScopeId) : Frame := { frame with scope }

def isAlias (frame : Frame) (name : String) : Bool := frame.selfAlias = some name

end Frame

structure Evidence where
  types : TypeSet
  reference : Option Reference
  deriving DecidableEq

namespace Evidence

def none : Evidence := ⟨.empty, .none⟩

def ofType (type : LuaType) : Evidence := ⟨.single type, .none⟩

def resolved (target : ScopeId) : Evidence := ⟨.empty, some (.resolved target)⟩

/-- A name that leads nowhere yet. It is looked up again from the same scope later. -/
def unresolved (target : String) (origin : ScopeId) : Evidence := ⟨.empty, some (.unresolved target origin)⟩

end Evidence

/-- The type of what a constructor makes: an instance of the class around it. -/
def instanceOfConstructor? (tree : ScopeTree) (constructor : ScopeId) : Option LuaType :=
  ((tree.parent? constructor).bind tree.classAt?).map Class.instanceType

/-- Evidence for the value stored at a scope, which is read and not called. -/
def valueOf (tree : ScopeTree) (id : ScopeId) : Evidence :=
  match (tree.entity? id).map Entity.kind with
  | some (.variable _) => .resolved id
  | some (.function _) => .ofType .function
  | some (.constructor _) => .ofType .function
  | some (.class_ _) => .ofType .table
  | some (.table _) => .ofType .table
  | some (.block _) => .none
  | none => .none

/-- The types that a resolved reference feeds to the entity that holds it: those of a variable,
those that a function returns, or instances of a class. -/
def referenceTypes (tree : ScopeTree) (target : ScopeId) : TypeSet :=
  match (tree.entity? target).map Entity.kind with
  | some (.variable var) => var.types
  | some (.function function) => function.returns
  | some (.class_ owner) => .single owner.instanceType
  | some (.constructor _) =>
    match instanceOfConstructor? tree target with
    | some type => .single type
    | none => .empty
  | some (.table _) => .single .table
  | some (.block _) => .empty
  | none => .empty

section Classify

variable (config : DiscoveryConfig) (tree : ScopeTree) (frame : Frame)

/-- What a path leads to from the frame, or a reference that waits for it. -/
def classifyPath (path : String) : Evidence :=
  match tree.lookup path frame.scope with
  | some id => valueOf tree id
  | none => .unresolved path frame.scope

def classifyName (name : String) : Evidence :=
  match config.builtinType? name with
  | some type => .ofType type
  | none =>
    if frame.isAlias name then
      match tree.nearestClass frame.scope with
      | some owner => .resolved owner
      | none => .none
    else classifyPath tree frame name

/-- Evidence for a member that is read from the instance. -/
def classifyInstanceMember (name : String) : Evidence :=
  match (tree.nearestClass frame.scope).bind tree.classAt? with
  | none => .none
  | some owner =>
    match owner.fields.get? name with
    | some field => .resolved field
    | none =>
      if owner.methods.contains name || owner.functions.contains name then .ofType .function
      else
        let target := DottedName.child (DottedName.child owner.name ScopeTree.fieldsName) name
        .unresolved target frame.scope

def classifyMember (object : Expr) (name : String) : Evidence :=
  match object.dottedPath? with
  | none => .none
  | some base =>
    let path := DottedName.child base name
    match config.builtinType? path with
    | some type => .ofType type
    | none =>
      match object.name? with
      | some receiver =>
        if frame.isAlias receiver then classifyInstanceMember tree frame name
        else classifyPath tree frame path
      | none => classifyPath tree frame path

/-- The path under which the function that a call names is found. The constructor has a name of
its own, and the instance stands for its class. -/
def callTarget? (path : String) : Option String :=
  match DottedName.splitLast? path with
  | none => some path
  | some (object, method) =>
    let method := if method = config.constructorName then "constructor" else method
    if frame.isAlias object then
      ((tree.nearestClass frame.scope).bind tree.classAt?).map fun owner => DottedName.child owner.name method
    else some (DottedName.child object method)

/-- Evidence for the result of a call of a path. -/
def classifyCall (path : String) : Evidence :=
  match config.builtinType? path with
  | some type => .ofType type
  | none =>
    match callTarget? config tree frame path with
    | none => .none
    | some target =>
      match tree.lookup target frame.scope with
      | none => .unresolved target frame.scope
      | some id =>
        match (tree.entity? id).map Entity.kind with
        | some (.function _) => .resolved id
        | some (.constructor _) =>
          match instanceOfConstructor? tree id with
          | some type => .ofType type
          | none => .none
        | _ => .none

def classify : Expr → Evidence
  | .paren inner => classify inner
  | .unary op _ => .ofType op.resultType
  | .binary op left right =>
    match op.resultType? with
    | some type => .ofType type
    | none => ⟨(classify left).types ∪ (classify right).types, none⟩
  | .name name => classifyName config tree frame name
  | .member object name => classifyMember config tree frame object name
  | .call callee _ =>
    match callee.dottedPath? with
    | some path => classifyCall config tree frame path
    | none => .none
  | .methodCall object method _ =>
    match object.dottedPath? with
    | some base => classifyCall config tree frame (DottedName.child base method)
    | none => .none
  | other =>
    match other.literalType? with
    | some type => .ofType type
    | none => .none

/-- Evidence for the value that stands opposite a target. Where there is none, nothing is known. -/
def classifyValue (value : Option Expr) : Evidence :=
  match value with
  | some value => classify config tree frame value
  | none => .none

end Classify

/-- The name under which an entity keeps a reference. -/
def referenceKey (tree : ScopeTree) : Reference → String
  | .resolved target => tree.raw target
  | .unresolved target _ => target

/-- Whether a reference says more than the one kept under its name. -/
def improves (references : OrderedMap Reference) (key : String) (reference : Reference) : Bool :=
  match references.get? key with
  | none => true
  | some known => !known.isResolved && reference.isResolved

/-- Let an entity take in evidence, and count what is new to it. The types of a resolved target
are taken in at once. An entity never refers to itself. -/
def applyEvidence (tree : ScopeTree) (target : ScopeId) (evidence : Evidence) : ScopeTree × Nat :=
  let reference := evidence.reference.filter fun reference => reference.target? ≠ some target
  let types :=
    match reference.bind Reference.target? with
    | some source => evidence.types ∪ referenceTypes tree source
    | none => evidence.types
  match tree.entity? target with
  | none => (tree, 0)
  | some entity =>
    let found := entity.newTypes types
    let entity := entity.gather types
    match reference with
    | none => (tree.setEntity target entity, found)
    | some reference =>
      let key := referenceKey tree reference
      if improves entity.references key reference then
        (tree.setEntity target { entity with references := entity.references.insert key reference },
          found + 1)
      else (tree.setEntity target entity, found)

end LuaClasses.Discovery
