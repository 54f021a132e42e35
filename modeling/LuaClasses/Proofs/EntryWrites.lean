import LuaClasses.Proofs.EntrySteps
import LuaClasses.Proofs.StateGrowth

/-! The writes that enter classes and members, each in one equation. -/

namespace LuaClasses.Discovery
open ScopeTree

/-- Drop what stands below a scope whose entity is about to be replaced, and report it. -/
def State.vacate (state : State) (id : ScopeId) (message : String) (range : Range) : State :=
  if state.tree.hasEntity id then
    (state.warn .duplicateDefinition message (some range)).withTree (state.tree.clearDescendants id)
  else state

/-- The message for a function that is defined again. -/
def redefined (tree : ScopeTree) (owner : ScopeId) (indexer : Indexer) (name : String) : String :=
  let ownerName := ((tree.classAt? owner).map Class.name).getD ""
  let shown := (FunctionName.ofMember ownerName indexer name).text
  s!"`{shown}` redefined"

def FunctionKind.ofIndexer : Indexer → FunctionKind
  | .dot => .static
  | .colon => .method

/-- Place a class on a scope, with an empty constructor below it. -/
def placeClass (tree : ScopeTree) (id : ScopeId) (name : String) (superclass : Option String) : ScopeTree :=
  let below := tree.internChild id "constructor" .function
  let constructed := below.1.setEntity below.2 (.new (.constructor .new))
  constructed.setEntity id (.new (.class_ { Class.new name below.2 with superclass }))

theorem declareClass_eq (config : DiscoveryConfig) (name base : String) (range : Range) (state : State) :
    declareClass config name base range state =
      let made := state.tree.internChild ScopeTree.root name .class_
      let vacated := (state.withTree made.1).vacate made.2 s!"class `{name}` redefined" range
      let tree := placeClass vacated.tree made.2 name (if base = config.rootClass then none else some base)
      let globals := { tree.globals with classes := tree.globals.classes.insert name made.2 }
      (vacated.withTree { tree with globals }).resetBodies made.2 := by
  unfold declareClass State.vacate placeClass
  dsimp only
  split
  next => simp only [State.tree_warn]
  next => rfl

theorem declareGlobalFunction_eq (name : String) (body : FunctionBody) (range : Range) (state : State) :
    declareGlobalFunction name body range state =
      let made := state.tree.internChild ScopeTree.root name .function
      let vacated := (state.withTree made.1).vacate made.2 s!"global function `{name}` redefined" range
      let tree := placeFunction vacated.tree made.2 name .global body
      let globals := { tree.globals with
        values := tree.globals.values.erase name
        tables := tree.globals.tables.erase name
        functions := tree.globals.functions.insert name made.2 }
      vacated.withTree { tree with globals } := by
  unfold declareGlobalFunction State.vacate
  dsimp only
  split
  next => simp only [State.tree_warn]
  next => rfl

theorem defineFunction_eq (owner : ScopeId) (name : String) (indexer : Indexer) (body : FunctionBody)
    (range : Range) (state : State) :
    defineFunction owner name indexer body range state =
      let made := state.tree.internChild owner name .function
      let vacated := (state.withTree made.1).vacate made.2 (redefined made.1 owner indexer name) range
      let placed := placeFunction vacated.tree made.2 name (FunctionKind.ofIndexer indexer) body
      let listed := placed.modifyClass owner fun held => Class.enterFunction held indexer name made.2
      (vacated.withTree listed).modifyBodies owner fun bodies =>
      bodies.enterFunction indexer name made.2 body := by
  unfold defineFunction State.vacate redefined
  dsimp only
  split
  next => simp only [State.tree_warn]; cases indexer <;> rfl
  next => cases indexer <;> rfl

/-- Place a value of a class on a scope that nothing occupies. -/
def placeValue (owner : ScopeId) (name : String) (range : Range) (tree : ScopeTree) (id : ScopeId) :
    ScopeTree :=
  if tree.hasEntity id then tree
  else
    (tree.setEntity id (.new (.variable (.new name (some range))))).modifyClass owner fun held =>
      { held with values := held.values.insert name id }

/-- Apply what the value of a class tells about the variable it is given to. -/
def applyValue (config : DiscoveryConfig) (owner : ScopeId) (value : Option Expr) (tree : ScopeTree)
    (id : ScopeId) :
    ScopeTree :=
  if (tree.variableAt? id).isSome then
    match value with
    | some value => (applyEvidence tree id (classify config tree (.at_ owner) value)).1
    | none => tree
  else tree

theorem defineValue_eq (config : DiscoveryConfig) (owner : ScopeId) (name : String) (value : Option Expr)
    (range : Range) (tree : ScopeTree) :
    defineValue config owner name value range tree =
      let made := tree.internChild owner name .value
      applyValue config owner value (placeValue owner name range made.1 made.2) made.2 := rfl

/-- What applying a value keeps is what applying evidence keeps. -/
theorem applyValue_cases {motive : ScopeTree → Prop} (config : DiscoveryConfig) (owner : ScopeId)
    (value : Option Expr) {tree : ScopeTree} {id : ScopeId} (same : motive tree)
    (applied : ∀ evidence, motive (applyEvidence tree id evidence).1) :
    motive (applyValue config owner value tree id) := by
  unfold applyValue
  split
  next =>
    cases value with
    | none => exact same
    | some value => exact applied _
  next => exact same

/-- The state from which a constructor is entered. What an earlier one gave the class is gone. -/
def vacateConstructor (owner constructor : ScopeId) (ownerName : String) (range : Range) (state : State) :
    State :=
  if ((state.bodies? owner).bind ClassBodies.constructor).isSome then
    (state.warn .duplicateDefinition s!"constructor of `{ownerName}` redefined" (some range)).withTree
      (dropConstructor owner constructor state.tree)
  else state

/-- Place a constructor with its parameters, and keep its body. -/
def placeConstructor (owner constructor : ScopeId) (body : FunctionBody) (state : State) : State :=
  let params := declareParams constructor body.params state.tree
  let placed := params.1.setEntity constructor (.new (.constructor {
    params := params.2, vararg := body.vararg, values := .empty, selfAlias := selfAlias? body.body }))
  (state.withTree placed).modifyBodies owner fun bodies => { bodies with constructor := some body }

theorem defineConstructor_eq {owner : ScopeId} {state : State} {held : Class}
    (found : state.tree.classAt? owner = some held) (ownerName : String) (body : FunctionBody)
    (range : Range) :
    defineConstructor owner ownerName body range state =
      let vacated := vacateConstructor owner held.constructor ownerName range state
      let placed := placeConstructor owner held.constructor body vacated
      match selfAlias? body.body with
      | some selfAlias => placeLiteralFields owner selfAlias body.body placed
      | none =>
        placed.warn .missingSelfAlias
          s!"constructor of `{ownerName}` has no trailing `return <identifier>`" (some range) := by
  unfold defineConstructor vacateConstructor placeConstructor
  cases selfAlias? body.body <;>
    by_cases known : ((state.bodies? owner).bind ClassBodies.constructor).isSome = true <;>
    simp only [found, known, if_true, State.tree_warn]

theorem defineConstructor_outside {owner : ScopeId} {state : State}
    (absent : state.tree.classAt? owner = none) (ownerName : String) (body : FunctionBody)
    (range : Range) :
    defineConstructor owner ownerName body range state = state := by
  simp only [defineConstructor, absent]

end LuaClasses.Discovery
