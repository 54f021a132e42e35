import LuaClasses.Discovery.State

/-! Class declarations: `Foo = Base:derive("Foo")` at the top level of a program. -/

namespace LuaClasses.Discovery

/-- The base of a class declaration, if the value is one. A call with a dot declares nothing. -/
def deriveBase? (config : DiscoveryConfig) (value : Expr) : Option String :=
  match value.unparen with
  | .methodCall object method _ => if method = config.deriveMethod then object.name? else none
  | _ => none

/-- The targets of a statement, each with its name if it is a plain name, and the values. -/
def bindings? : StmtKind → Option (List (Option String) × List Expr)
  | .assign targets values => some (targets.map Expr.name?, values)
  | .local_ names values => some (names.map some, values)
  | _ => none

/-- Declare a class, or declare it again in place of what its name stood for. -/
def declareClass (config : DiscoveryConfig) (name base : String) (range : Range) (state : State) : State :=
  let (tree, id) := state.tree.internChild ScopeTree.root name .class_
  let state := state.withTree tree
  let state :=
    if state.tree.hasEntity id then
      let state := state.warn .duplicateDefinition s!"class `{name}` redefined" (some range)
      state.withTree (state.tree.clearDescendants id)
    else state
  let (tree, constructor) := state.tree.internChild id "constructor" .function
  let tree := tree.setEntity constructor (.new (.constructor .new))
  let superclass := if base = config.rootClass then none else some base
  let tree := tree.setEntity id (.new (.class_ { Class.new name constructor with superclass }))
  let globals := { tree.globals with classes := tree.globals.classes.insert name id }
  (state.withTree { tree with globals }).resetBodies id

/-- The declarations among the values of one statement. -/
def declareBindings (config : DiscoveryConfig) (range : Range) :
    List (Option String) → List Expr → State → State
  | _, [], state => state
  | targets, value :: values, state =>
    let state :=
      match deriveBase? config value, targets.head?.join with
      | none, _ => state
      | some base, some name => declareClass config name base range state
      | some base, none =>
        state.warn .structuralMismatch
          s!"`{base}:{config.deriveMethod}` result is not assigned to a plain name" (some range)
    declareBindings config range targets.tail values state

def declareStatement (config : DiscoveryConfig) (state : State) (stmt : Stmt) : State :=
  match bindings? stmt.kind with
  | some (targets, values) => declareBindings config stmt.range targets values state
  | none => state

/-- The superclass of a class, if it was declared before the class. -/
def superclassLink? (tree : ScopeTree) (owner : Class) : Option ScopeId := do
  let superclass ← owner.superclass
  let parent ← tree.globals.classes.position? superclass
  let own ← tree.globals.classes.position? owner.name
  if parent < own then tree.classId? superclass else none

/-- Link a class to its superclass. -/
def linkClass (tree : ScopeTree) (id : ScopeId) : ScopeTree :=
  match tree.classAt? id with
  | none => tree
  | some owner =>
    if owner.superclass.isNone then tree
    else tree.modifyClass id fun held => { held with superclassLink := superclassLink? tree owner }

/-- Declare the classes of a program and link each to its superclass. -/
def declareClasses (config : DiscoveryConfig) (program : Program) (state : State) : State :=
  let state := program.body.foldl (declareStatement config) state
  state.withTree ((state.classes.map ClassBodies.owner).foldl linkClass state.tree)

end LuaClasses.Discovery
