import LuaClasses.Discovery.Declaration
import LuaClasses.Discovery.Walk
import LuaClasses.Program.Returns

/-! The members of classes and the names of the top level. This pass runs once, after the
classes are declared. A definition that is repeated replaces the one before it; the sweeps
that follow only add. -/

namespace LuaClasses.Discovery

/-- The parameters of a function as variables without types. -/
def declareParams (owner : ScopeId) : List String → ScopeTree → ScopeTree × List ScopeId
  | [], tree => (tree, [])
  | name :: names, tree =>
    let (tree, id) := tree.internChild owner name .value
    let tree := tree.setEntity id (.new (.variable (.new name none)))
    let (tree, ids) := declareParams owner names tree
    (tree, id :: ids)

/-- The types that a body returns as far as its form tells. A body without a return statement
returns nothing. -/
def initialReturns (body : List Stmt) : TypeSet :=
  if hasReturn body then collectReturnTypes body else (collectReturnTypes body).insert .void

/-- Place a function on a scope, with its parameters below it. -/
def placeFunction (tree : ScopeTree) (id : ScopeId) (name : String) (kind : FunctionKind)
    (body : FunctionBody) : ScopeTree :=
  let (tree, params) := declareParams id body.params tree
  tree.setEntity id (.new (.function {
    name, kind, params, vararg := body.vararg, values := .empty
    returns := initialReturns body.body
    hasReturn := hasReturn body.body }))

/-! ### The top level -/

def declareGlobalFunction (name : String) (body : FunctionBody) (range : Range) (state : State) : State :=
  let (tree, id) := state.tree.internChild ScopeTree.root name .function
  let state := state.withTree tree
  let state :=
    if state.tree.hasEntity id then
      let state := state.warn .duplicateDefinition s!"global function `{name}` redefined" (some range)
      state.withTree (state.tree.clearDescendants id)
    else state
  let tree := placeFunction state.tree id name .global body
  let globals := { tree.globals with
    values := tree.globals.values.erase name
    tables := tree.globals.tables.erase name
    functions := tree.globals.functions.insert name id }
  state.withTree { tree with globals }

def declareGlobalTable (name : String) (tree : ScopeTree) : ScopeTree :=
  let (tree, id) := tree.internChild ScopeTree.root name .table
  let tree :=
    if tree.hasEntity id then tree else tree.setEntity id (.new (.table ⟨name, .empty⟩))
  { tree with globals := { tree.globals with tables := tree.globals.tables.insert name id } }

def declareGlobalValue (config : DiscoveryConfig) (name : String) (value : Option Expr) (range : Range)
    (tree : ScopeTree) : ScopeTree :=
  let evidence := classifyValue config tree (.at_ ScopeTree.root) value
  let (tree, id, _) := defineLocal tree ScopeTree.root name range
  if (tree.variableAt? id).isSome then
    let (tree, _) := applyEvidence tree id evidence
    { tree with globals := { tree.globals with values := tree.globals.values.insert name id } }
  else tree

/-- A name that the top level binds. Class declarations, and the names of classes, are left
alone. -/
def declareGlobal (config : DiscoveryConfig) (name : String) (value : Option Expr) (range : Range)
    (state : State) : State :=
  if (value.bind (deriveBase? config)).isSome || (state.tree.classId? name).isSome then state
  else
    match value.map Expr.unparen with
    | some (.function body) => declareGlobalFunction name body range state
    | some (.table _) => state.withTree (declareGlobalTable name state.tree)
    | _ => state.withTree (declareGlobalValue config name value range state.tree)

def declareGlobals (config : DiscoveryConfig) (range : Range) : List String → List Expr → State → State
  | [], _, state => state
  | name :: names, values, state =>
    declareGlobals config range names values.tail (declareGlobal config name values.head? range state)

/-- Whether a name of the top level stands for a table. -/
def isGlobalTable (tree : ScopeTree) (name : String) : Bool :=
  match (tree.lookup name ScopeTree.root).bind tree.entity? with
  | some entity => entity.isTable
  | none => false

/-- A target of a top-level assignment: a name, or a member of a table. -/
def indexTarget (config : DiscoveryConfig) (target : Expr) (value : Option Expr) (range : Range)
    (state : State) : State :=
  match target.unparen with
  | .name name => declareGlobal config name value range state
  | .member object name =>
    match object.name? with
    | none => state
    | some base =>
      if isGlobalTable state.tree base then
        let frame := Frame.at_ ScopeTree.root
        let evidence := classifyValue config state.tree frame value
        state.withTree (assignMember state.tree frame base name evidence range).1
      else state
  | _ => state

def indexTargets (config : DiscoveryConfig) (range : Range) : List Expr → List Expr → State → State
  | [], _, state => state
  | target :: targets, values, state =>
    indexTargets config range targets values.tail (indexTarget config target values.head? range state)

/-- Enter what one statement of the top level declares. -/
def indexStatement (config : DiscoveryConfig) (state : State) (stmt : Stmt) : State :=
  match stmt.kind with
  | .function name _ body =>
    match name.plain? with
    | some name => declareGlobalFunction name body stmt.range state
    | none => state
  | .local_ names values => declareGlobals config stmt.range names values state
  | .assign targets values => indexTargets config stmt.range targets values state
  | _ => state

/-! ### The members of a class -/

/-- The name that the last `return <identifier>` of a constructor gives to the instance. -/
def selfAlias? (body : List Stmt) : Option String :=
  body.reverse.findSome? fun stmt =>
    match stmt.kind with
    | .return_ values => values.head?.bind Expr.name?
    | _ => none

/-- The literal assignments to fields of the instance in one statement. -/
def literalFields (selfAlias : String) : StmtKind → List (String × LuaType)
  | .assign targets values =>
    (targets.zip values).filterMap fun (target, value) =>
      match target.unparen with
      | .member object name =>
        if object.name? = some selfAlias then value.literalType?.map (name, ·) else none
      | _ => none
  | _ => []

/-- Give a field of a class the one type of a literal, in place of what it had. -/
def placeField (owner : ScopeId) (range : Range) (tree : ScopeTree) (name : String) (type : LuaType) :
    ScopeTree :=
  let (tree, id) := tree.internField owner name
  let tree := tree.setEntity id (.new (.variable ⟨name, .single type, some range⟩))
  tree.modifyClass owner fun owner => { owner with fields := owner.fields.insert name id }

/-- Enter the literal fields of a constructor in order. `seen` holds the names met before. -/
def placeFields (owner : ScopeId) : List (String × LuaType × Range) → List String → State → State
  | [], _, state => state
  | (name, type, range) :: rest, seen, state =>
    let state :=
      if name ∈ seen then
        state.warn .duplicateDefinition s!"field `{name}` redefined" (some range)
      else state
    placeFields owner rest (name :: seen) (state.withTree (placeField owner range state.tree name type))

def placeLiteralFields (owner : ScopeId) (selfAlias : String) (body : List Stmt) (state : State) : State :=
  let fields := body.flatMap fun stmt =>
    (literalFields selfAlias stmt.kind).map fun (name, type) => (name, type, stmt.range)
  placeFields owner fields [] state

/-- Forget what an earlier constructor of a class gave it. -/
def dropConstructor (owner constructor : ScopeId) (tree : ScopeTree) : ScopeTree :=
  let tree := tree.clearDescendants constructor
  let tree :=
    match tree.child? owner ScopeTree.fieldsName with
    | some fields => tree.clearDescendants fields
    | none => tree
  tree.modifyClass owner fun owner => { owner with fields := .empty }

/-- A definition of the constructor of a class. -/
def defineConstructor (owner : ScopeId) (ownerName : String) (body : FunctionBody) (range : Range)
    (state : State) : State :=
  match state.tree.classAt? owner with
  | none => state
  | some held =>
    let constructor := held.constructor
    let state :=
      if ((state.bodies? owner).bind ClassBodies.constructor).isSome then
        let state := state.warn .duplicateDefinition s!"constructor of `{ownerName}` redefined" (some range)
        state.withTree (dropConstructor owner constructor state.tree)
      else state
    let (tree, params) := declareParams constructor body.params state.tree
    let selfAlias := selfAlias? body.body
    let tree := tree.setEntity constructor
      (.new (.constructor { params, vararg := body.vararg, values := .empty, selfAlias }))
    let state := (state.withTree tree).modifyBodies owner fun bodies =>
      { bodies with constructor := some body }
    match selfAlias with
    | some selfAlias => placeLiteralFields owner selfAlias body.body state
    | none =>
      state.warn .missingSelfAlias
        s!"constructor of `{ownerName}` has no trailing `return <identifier>`" (some range)

/-- Enter a function among the members of a class, as the last of its kind. -/
def Class.enterFunction (owner : Class) (indexer : Indexer) (name : String) (id : ScopeId) : Class :=
  let functions := owner.functions.erase name
  let methods := owner.methods.erase name
  let values := owner.values.erase name
  match indexer with
  | .dot => { owner with functions := functions.insert name id, methods, values }
  | .colon => { owner with functions, methods := methods.insert name id, values }

def ClassBodies.enterFunction (bodies : ClassBodies) (indexer : Indexer) (name : String) (id : ScopeId)
    (body : FunctionBody) : ClassBodies :=
  let functions := bodies.functions.erase name
  let methods := bodies.methods.erase name
  match indexer with
  | .dot => { bodies with functions := functions.insert name (id, body), methods }
  | .colon => { bodies with functions, methods := methods.insert name (id, body) }

/-- A definition of a function or method of a class. -/
def defineFunction (owner : ScopeId) (name : String) (indexer : Indexer) (body : FunctionBody)
    (range : Range) (state : State) : State :=
  let kind := match indexer with
    | .dot => FunctionKind.static
    | .colon => FunctionKind.method
  let (tree, id) := state.tree.internChild owner name .function
  let state := state.withTree tree
  let state :=
    if state.tree.hasEntity id then
      let ownerName := ((state.tree.classAt? owner).map Class.name).getD ""
      let shown := (FunctionName.ofMember ownerName indexer name).text
      let state := state.warn .duplicateDefinition s!"`{shown}` redefined" (some range)
      state.withTree (state.tree.clearDescendants id)
    else state
  let tree := placeFunction state.tree id name kind body
  let tree := tree.modifyClass owner fun owner => Class.enterFunction owner indexer name id
  (state.withTree tree).modifyBodies owner fun bodies => bodies.enterFunction indexer name id body

/-- A static value of a class. One that is given again adds to what is known; a name that stands
for a function is left alone. -/
def defineValue (config : DiscoveryConfig) (owner : ScopeId) (name : String) (value : Option Expr)
    (range : Range) (tree : ScopeTree) : ScopeTree :=
  let (tree, id) := tree.internChild owner name .value
  let tree :=
    if tree.hasEntity id then tree
    else
      let tree := tree.setEntity id (.new (.variable (.new name (some range))))
      tree.modifyClass owner fun owner => { owner with values := owner.values.insert name id }
  if (tree.variableAt? id).isSome then
    match value with
    | some value => (applyEvidence tree id (classify config tree (.at_ owner) value)).1
    | none => tree
  else tree

/-- A target of a top-level assignment that is a member of the class. -/
def defineTarget (config : DiscoveryConfig) (owner : ScopeId) (ownerName : String) (target : Expr)
    (value : Option Expr) (range : Range) (state : State) : State :=
  match target.unparen with
  | .member object name =>
    if object.name? = some ownerName then
      match value.map Expr.unparen with
      | some (.function body) =>
        if name = config.constructorName then defineConstructor owner ownerName body range state
        else defineFunction owner name .dot body range state
      | value => state.withTree (defineValue config owner name value range state.tree)
    else state
  | _ => state

def defineTargets (config : DiscoveryConfig) (owner : ScopeId) (ownerName : String) (range : Range) :
    List Expr → List Expr → State → State
  | [], _, state => state
  | target :: targets, values, state =>
    defineTargets config owner ownerName range targets values.tail
      (defineTarget config owner ownerName target values.head? range state)

/-- Enter what one statement of the top level defines of a class. -/
def defineStatement (config : DiscoveryConfig) (owner : ScopeId) (ownerName : String) (state : State)
    (stmt : Stmt) : State :=
  match stmt.kind with
  | .function name false body =>
    match name.member? with
    | some (base, indexer, member) =>
      if base = ownerName then
        if member = config.constructorName then defineConstructor owner ownerName body stmt.range state
        else defineFunction owner member indexer body stmt.range state
      else state
    | none => state
  | .assign targets values => defineTargets config owner ownerName stmt.range targets values state
  | _ => state

/-- Enter the members of one class. What no longer is a class has none. -/
def defineMembers (config : DiscoveryConfig) (program : Program) (state : State) (owner : ScopeId) : State :=
  match state.tree.classAt? owner with
  | none => state
  | some held => program.body.foldl (defineStatement config owner held.name) state

/-- Walk the methods of a class in the order of their definition. -/
def walkMethods (config : DiscoveryConfig) (bodies : ClassBodies) (state : State) : State × Nat :=
  bodies.methods.values.foldl (fun (state, found) (id, body) =>
    let (state, more) := walkBody config (.ofMethod id config.instanceAlias) body state
    (state, found + more)) (state, 0)

/-- Enter the top level, then the members of each class, then walk each method once. -/
def enterMembers (config : DiscoveryConfig) (program : Program) (state : State) : State :=
  let state := program.body.foldl (indexStatement config) state
  let state := (state.classes.map ClassBodies.owner).foldl (defineMembers config program) state
  state.classes.foldl (fun state bodies => (walkMethods config bodies state).1) state

end LuaClasses.Discovery
