import LuaClasses.Proofs.EntryWrites
import LuaClasses.Proofs.GistWalk
import LuaClasses.Proofs.Staging

/-! The entry of classes and members on gists, and with it a whole discovery: a program and
its gist are discovered alike. -/

namespace LuaClasses.Discovery

/-! ### The bodies of classes -/

namespace State

private theorem ite_gist (choice : Prop) [Decidable choice] (first second : State) :
    (if choice then first.gist else second.gist) = (if choice then first else second).gist :=
  (apply_ite State.gist choice first second).symm

private theorem bodies?_gist (state : State) (owner : ScopeId) :
    state.gist.bodies? owner = (state.bodies? owner).map ClassBodies.gist := by
  simp only [bodies?, gist, List.find?_map, Function.comp_def, ClassBodies.gist]
  rfl

private theorem modifyBodies_gist (first second : ClassBodies → ClassBodies)
    (same : ∀ bodies, first bodies.gist = (second bodies).gist) (state : State) (owner : ScopeId) :
    state.gist.modifyBodies owner first = (state.modifyBodies owner second).gist := by
  simp only [modifyBodies, gist, List.map_map]
  congr 1
  refine List.map_congr_left fun bodies _ => ?_
  simp only [Function.comp_apply, same, apply_ite ClassBodies.gist]
  rfl

private theorem vacate_gist (state : State) (id : ScopeId) (message : String) (range : Range) :
    state.gist.vacate id message range = (state.vacate id message range).gist := by
  simp only [vacate, tree_gist, warn_gist, withTree_gist, ite_gist]

private theorem resetBodies_gist (state : State) (owner : ScopeId) :
    state.gist.resetBodies owner = (state.resetBodies owner).gist := by
  unfold resetBodies
  rw [bodies?_gist]
  cases state.bodies? owner with
  | some _ => exact modifyBodies_gist (fun _ => .new owner) (fun _ => .new owner) (fun _ => rfl) state owner
  | none =>
    simp only [Option.map_none, gist, List.map_append]
    rfl

end State

private theorem ClassBodies.enterFunction_gist (bodies : ClassBodies) (indexer : Indexer) (name : String)
    (id : ScopeId) (body : FunctionBody) :
    bodies.gist.enterFunction indexer name id body.gist =
      (bodies.enterFunction indexer name id body).gist := by
  cases indexer <;>
    simp only [ClassBodies.enterFunction, ClassBodies.gist,
      OrderedMap.erase_mapValues, ← OrderedMap.insert_mapValues]

/-! ### Classes -/

private theorem declareClass_gist (config : DiscoveryConfig) (name base : String) (range : Range)
    (state : State) :
    declareClass config name base range state.gist = (declareClass config name base range state).gist := by
  simp only [declareClass_eq, State.tree_gist, State.withTree_gist, State.vacate_gist, State.resetBodies_gist]

private theorem declareBindings_gist (config : DiscoveryConfig) (range : Range)
    (targets : List (Option String)) (values : List Expr) (state : State) :
    declareBindings config range targets (values.map Expr.gistEntered) state.gist =
      (declareBindings config range targets values state).gist := by
  induction values generalizing targets state with
  | nil => unfold declareBindings; rfl
  | cons value rest ih =>
    simp only [List.map_cons, declareBindings, deriveBase?_gistEntered, ← ih]
    congr 1
    cases deriveBase? config value with
    | none => rfl
    | some base =>
      cases targets.head?.join with
      | none => exact State.warn_gist state _ _ _
      | some name => exact declareClass_gist config name base range state

private theorem declareStatement_gist (config : DiscoveryConfig) (state : State) (stmt : Stmt) :
    declareStatement config state.gist stmt.gistEntry = (declareStatement config state stmt).gist := by
  obtain ⟨kind, range⟩ := stmt
  cases kind with
  | local_ names values => exact declareBindings_gist config range _ values state
  | assign targets values =>
    have named : (targets.map Expr.gist).map Expr.name? = targets.map Expr.name? := by
      simp only [List.map_map, Function.comp_def, Expr.name?_gist]
    simp only [declareStatement, Stmt.gistEntry, StmtKind.gistEntry, bindings?, named]
    exact declareBindings_gist config range _ values state
  | _ => rfl

/-! ### The top level -/

private theorem placeFunction_gist (tree : ScopeTree) (id : ScopeId) (name : String)
    (kind : FunctionKind) (body : FunctionBody) :
    placeFunction tree id name kind body.gist = placeFunction tree id name kind body := by
  simp only [placeFunction, FunctionBody.gist, initialReturns_gist, hasReturn_gist]

private theorem declareGlobalFunction_gist (name : String) (body : FunctionBody) (range : Range)
    (state : State) :
    declareGlobalFunction name body.gist range state.gist =
      (declareGlobalFunction name body range state).gist := by
  simp only [declareGlobalFunction_eq, State.tree_gist, State.withTree_gist,
    State.vacate_gist, placeFunction_gist]

private theorem declareGlobalValue_gist (config : DiscoveryConfig) (name : String) (value : Option Expr)
    (range : Range) (tree : ScopeTree) :
    declareGlobalValue config name (value.map Expr.gistEntered) range tree =
      declareGlobalValue config name value range tree := by
  simp only [declareGlobalValue, classifyValue_gistEntered]

private theorem declareGlobal_gist (config : DiscoveryConfig) (name : String) (value : Option Expr)
    (range : Range) (state : State) :
    declareGlobal config name (value.map Expr.gistEntered) range state.gist =
      (declareGlobal config name value range state).gist := by
  have derives :
      (value.map Expr.gistEntered).bind (deriveBase? config) = value.bind (deriveBase? config) := by
    simp only [Option.bind_map, Function.comp_def, deriveBase?_gistEntered]
  have unparen : (value.map Expr.gistEntered).map Expr.unparen =
      (value.map Expr.unparen).map Expr.gistValue := by
    simp only [Option.map_map, Function.comp_def, Expr.unparen_gistEntered]
  simp only [declareGlobal, derives, unparen, State.tree_gist, declareGlobalValue_gist, State.withTree_gist]
  rw [← State.ite_gist]
  congr 1
  cases value.map Expr.unparen with
  | none => rfl
  | some bare =>
    cases bare with
    | function body => exact declareGlobalFunction_gist name body range state
    | _ => rfl

private theorem declareGlobals_gist (config : DiscoveryConfig) (range : Range) (names : List String)
    (values : List Expr) (state : State) :
    declareGlobals config range names (values.map Expr.gistEntered) state.gist =
      (declareGlobals config range names values state).gist := by
  induction names generalizing values state with
  | nil => rfl
  | cons name rest ih => simp only [declareGlobals, List.head?_map, ← List.map_tail, declareGlobal_gist, ih]

private theorem indexTarget_gist (config : DiscoveryConfig) (target : Expr) (value : Option Expr)
    (range : Range) (state : State) :
    indexTarget config target.gist (value.map Expr.gistEntered) range state.gist =
      (indexTarget config target value range state).gist := by
  simp only [indexTarget, Expr.unparen_gist]
  cases target.unparen with
  | name name => exact declareGlobal_gist config name value range state
  | member object name =>
    simp only [Expr.gist, Expr.name?_gist]
    cases object.name? with
    | none => rfl
    | some base =>
      simp only [State.tree_gist, classifyValue_gistEntered, State.withTree_gist, State.ite_gist]
  | _ => rfl

private theorem indexTargets_gist (config : DiscoveryConfig) (range : Range) (targets values : List Expr)
    (state : State) :
    indexTargets config range (targets.map Expr.gist) (values.map Expr.gistEntered) state.gist =
      (indexTargets config range targets values state).gist := by
  induction targets generalizing values state with
  | nil => rfl
  | cons target rest ih =>
    simp only [List.map_cons, indexTargets, List.head?_map, ← List.map_tail, indexTarget_gist, ih]

private theorem indexStatement_gist (config : DiscoveryConfig) (state : State) (stmt : Stmt) :
    indexStatement config state.gist stmt.gistEntry = (indexStatement config state stmt).gist := by
  obtain ⟨kind, range⟩ := stmt
  cases kind with
  | local_ names values => exact declareGlobals_gist config range names values state
  | assign targets values => exact indexTargets_gist config range targets values state
  | function name isLocal body =>
    simp only [indexStatement, Stmt.gistEntry, StmtKind.gistEntry]
    cases name.plain? with
    | none => rfl
    | some name => exact declareGlobalFunction_gist name body range state
  | _ => rfl

/-! ### Members -/

private theorem placeFields_gist (owner : ScopeId) (fields : List (String × LuaType × Range))
    (seen : List String) (state : State) :
    placeFields owner fields seen state.gist = (placeFields owner fields seen state).gist := by
  induction fields generalizing seen state with
  | nil => rfl
  | cons field rest ih =>
    obtain ⟨name, type, range⟩ := field
    simp only [placeFields, State.warn_gist, State.ite_gist, State.tree_gist, State.withTree_gist, ih]

private theorem vacateConstructor_gist (owner constructor : ScopeId) (ownerName : String) (range : Range)
    (state : State) :
    vacateConstructor owner constructor ownerName range state.gist =
      (vacateConstructor owner constructor ownerName range state).gist := by
  have given : ((state.gist.bodies? owner).bind ClassBodies.constructor).isSome =
      ((state.bodies? owner).bind ClassBodies.constructor).isSome := by
    rw [State.bodies?_gist]
    cases state.bodies? owner with
    | none => rfl
    | some bodies => exact Option.isSome_map
  simp only [vacateConstructor, given, State.tree_gist, State.warn_gist, State.withTree_gist, State.ite_gist]

private theorem placeConstructor_gist (owner constructor : ScopeId) (body : FunctionBody) (state : State) :
    placeConstructor owner constructor body.gist state.gist =
      (placeConstructor owner constructor body state).gist := by
  simp only [placeConstructor, FunctionBody.gist, selfAlias?_gist, State.tree_gist, State.withTree_gist]
  exact State.modifyBodies_gist _ (fun bodies => { bodies with constructor := some body }) (fun _ => rfl)
    _ owner

private theorem defineConstructor_gist (owner : ScopeId) (ownerName : String) (body : FunctionBody)
    (range : Range) (state : State) :
    defineConstructor owner ownerName body.gist range state.gist =
      (defineConstructor owner ownerName body range state).gist := by
  cases found : state.tree.classAt? owner with
  | none =>
    rw [defineConstructor_outside found,
      defineConstructor_outside (show state.gist.tree.classAt? owner = none from found)]
  | some held =>
    rw [defineConstructor_eq found, defineConstructor_eq
      (show state.gist.tree.classAt? owner = some held from found)]
    simp only [vacateConstructor_gist, placeConstructor_gist]
    simp only [FunctionBody.gist, selfAlias?_gist, placeLiteralFields_gist]
    cases selfAlias? body.body with
    | none => exact State.warn_gist _ _ _ _
    | some selfAlias => exact placeFields_gist owner _ [] _

private theorem defineFunction_gist (owner : ScopeId) (name : String) (indexer : Indexer)
    (body : FunctionBody) (range : Range) (state : State) :
    defineFunction owner name indexer body.gist range state.gist =
      (defineFunction owner name indexer body range state).gist := by
  simp only [defineFunction_eq, State.tree_gist, State.withTree_gist, State.vacate_gist, placeFunction_gist]
  exact State.modifyBodies_gist _ _ (fun bodies => bodies.enterFunction_gist indexer name _ body) _ owner

private theorem defineValue_gist (config : DiscoveryConfig) (owner : ScopeId) (name : String)
    (value : Option Expr) (range : Range) (tree : ScopeTree) :
    defineValue config owner name (value.map Expr.gistValue) range tree =
      defineValue config owner name value range tree := by
  cases value with
  | none => rfl
  | some value => simp only [defineValue, Option.map_some, classify_gistValue]

private theorem defineTarget_gist (config : DiscoveryConfig) (owner : ScopeId) (ownerName : String)
    (target : Expr) (value : Option Expr) (range : Range) (state : State) :
    defineTarget config owner ownerName target.gist (value.map Expr.gistEntered) range state.gist =
      (defineTarget config owner ownerName target value range state).gist := by
  have unparen : (value.map Expr.gistEntered).map Expr.unparen =
      (value.map Expr.unparen).map Expr.gistValue := by
    simp only [Option.map_map, Function.comp_def, Expr.unparen_gistEntered]
  simp only [defineTarget, Expr.unparen_gist]
  cases target.unparen with
  | member object name =>
    simp only [Expr.gist, Expr.name?_gist, unparen, State.tree_gist]
    rw [← State.ite_gist]
    congr 1
    cases value.map Expr.unparen with
    | none => rfl
    | some bare =>
      have kept : state.gist.withTree (defineValue config owner name
        ((some bare).map Expr.gistValue) range state.tree) =
          (state.withTree (defineValue config owner name (some bare) range state.tree)).gist := by
        rw [defineValue_gist, State.withTree_gist]
      cases bare with
      | function body =>
        simp only [Option.map_some, Expr.gistValue, defineConstructor_gist,
          defineFunction_gist, State.ite_gist]
      | _ => exact kept
  | _ => rfl

private theorem defineTargets_gist (config : DiscoveryConfig) (owner : ScopeId) (ownerName : String)
    (range : Range) (targets values : List Expr) (state : State) :
    defineTargets config owner ownerName range (targets.map Expr.gist)
      (values.map Expr.gistEntered) state.gist =
      (defineTargets config owner ownerName range targets values state).gist := by
  induction targets generalizing values state with
  | nil => rfl
  | cons target rest ih =>
    simp only [List.map_cons, defineTargets, List.head?_map, ← List.map_tail, defineTarget_gist, ih]

private theorem defineStatement_gist (config : DiscoveryConfig) (owner : ScopeId) (ownerName : String)
    (state : State) (stmt : Stmt) :
    defineStatement config owner ownerName state.gist stmt.gistEntry =
      (defineStatement config owner ownerName state stmt).gist := by
  obtain ⟨kind, range⟩ := stmt
  cases kind with
  | assign targets values => exact defineTargets_gist config owner ownerName range targets values state
  | function name isLocal body =>
    cases isLocal with
    | true => rfl
    | false =>
      simp only [defineStatement, Stmt.gistEntry, StmtKind.gistEntry]
      cases name.member? with
      | none => rfl
      | some parts =>
        simp only [defineConstructor_gist, defineFunction_gist, State.ite_gist]
  | _ => rfl

/-! ### Whole programs -/

/-- A pass over the top level that is the same on gists and does nothing at statements that
are not entered. -/
theorem foldl_gistEntry {step : State → Stmt → State}
    (same : ∀ state stmt, step state.gist stmt.gistEntry = (step state stmt).gist)
    (idle : ∀ state stmt, stmt.kind.isEntered = false → step state stmt = state) (program : Program)
    (state : State) :
    program.gist.body.foldl step state.gist = (program.body.foldl step state).gist := by
  obtain ⟨body⟩ := program
  simp only [Program.gist]
  induction body generalizing state with
  | nil => rfl
  | cons stmt rest ih =>
    cases entered : stmt.kind.isEntered with
    | true => simp only [List.filter_cons, entered, if_true, List.map_cons, List.foldl_cons, same, ih]
    | false =>
      simp only [List.filter_cons, entered, Bool.false_eq_true, if_false, List.foldl_cons,
        idle state stmt entered, ih]

/-- The classes of a state keep their order and their scopes. -/
theorem owners_gist (state : State) :
    state.gist.classes.map ClassBodies.owner = state.classes.map ClassBodies.owner := by
  simp only [State.gist, List.map_map]
  rfl

private theorem declared_gist (config : DiscoveryConfig) (program : Program) :
    declared config program.gist = (declared config program).gist := by
  have classes : program.gist.body.foldl (declareStatement config) (.initial config) =
      (program.body.foldl (declareStatement config) (.initial config)).gist :=
    foldl_gistEntry (declareStatement_gist config)
      (fun _ ⟨kind, _⟩ unentered => by cases kind <;> first | rfl | cases unentered) program (.initial config)
  simp only [declared, declareClasses, classes, owners_gist, State.tree_gist, State.withTree_gist]

private theorem indexed_gist (config : DiscoveryConfig) (program : Program) :
    indexed config program.gist = (indexed config program).gist := by
  rw [indexed, declared_gist]
  exact foldl_gistEntry (indexStatement_gist config)
    (fun _ ⟨kind, _⟩ unentered => by cases kind <;> first | rfl | cases unentered) program _

private theorem defineMembers_gist (config : DiscoveryConfig) (program : Program) (state : State)
    (owner : ScopeId) :
    defineMembers config program.gist state.gist owner = (defineMembers config program state owner).gist := by
  unfold defineMembers
  rw [State.tree_gist]
  cases state.tree.classAt? owner with
  | none => rfl
  | some held =>
    exact foldl_gistEntry (defineStatement_gist config owner held.name)
      (fun _ ⟨kind, _⟩ unentered => by cases kind <;> first | rfl | cases unentered) program state

private theorem defined_gist (config : DiscoveryConfig) (program : Program) :
    defined config program.gist = (defined config program).gist := by
  simp only [defined, indexed_gist, owners_gist]
  generalize (indexed config program).classes.map ClassBodies.owner = owners
  generalize indexed config program = state
  induction owners generalizing state with
  | nil => rfl
  | cons owner rest ih => simp only [List.foldl_cons, defineMembers_gist, ih]

private theorem seeded_gist (config : DiscoveryConfig) (program : Program) :
    seeded config program.gist = (seeded config program).gist := by
  rw [seeded_eq, seeded_eq, defined_gist, show (defined config program).gist.classes =
    (defined config program).classes.map ClassBodies.gist from rfl]
  generalize (defined config program).classes = classes
  generalize defined config program = state
  induction classes generalizing state with
  | nil => rfl
  | cons bodies rest ih => simp only [List.map_cons, List.foldl_cons, walkMethods_gist, ih]

/-- Nothing but the gist of a program counts for its discovery. -/
theorem discover_gist (config : DiscoveryConfig) (program : Program) :
    discover program.gist config = discover program config := by
  have ended : discover program.gist config = Run.closing
    (runToFixedPoint config 0 (seeded config program.gist)) := rfl
  rw [ended, seeded_gist]
  simp only [runToFixedPoint, sweepUntilIdle_gist, Run.closing, State.tree_gist, owners_gist]
  rfl

end LuaClasses.Discovery
