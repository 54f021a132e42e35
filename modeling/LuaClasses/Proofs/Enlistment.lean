import LuaClasses.Proofs.Sparing

/-! Classes from their declaration on. A class that no function of the top level is named like, and
that defines no member in the place of its constructor, stays a class under its name for as long as a
discovery runs. -/

namespace LuaClasses

namespace ScopeTree

/-- A class under the name by which it was declared, with its constructor in its place. -/
structure Enlisted (tree : ScopeTree) (name : String) (id : ScopeId) : Prop where
  hangs : tree.child? root name = some id
  held : ∃ owner, tree.classAt? id = some owner ∧ owner.name = name ∧ owner.Regular

variable {before after : ScopeTree} {name : String} {id : ScopeId}

theorem Enlisted.carry (enlisted : before.Enlisted name id) (links : before.Links after)
    (same : (after.classAt? id).map Class.callables = (before.classAt? id).map Class.callables) :
    after.Enlisted name id := by
  obtain ⟨owner, held, called, regular⟩ := enlisted.held
  rw [held, Option.map_some] at same
  obtain ⟨later, found, equal⟩ := Option.map_eq_some_iff.1 same
  simp only [Class.callables, Prod.mk.injEq] at equal
  obtain ⟨sameName, functions, methods⟩ := equal
  refine ⟨links enlisted.hangs, later, found, sameName.trans called, ?_⟩
  rw [Class.Regular, functions, methods]
  exact regular

/-- A class stays enlisted where what stands on its scope stays there. -/
theorem Enlisted.steady (enlisted : before.Enlisted name id) (links : before.Links after)
    (steady : before.Steady after id) :
    after.Enlisted name id := by
  obtain ⟨owner, held, _⟩ := enlisted.held
  obtain ⟨later, found, same⟩ := steady.class_ held
  exact enlisted.carry links (by rw [found, held, Option.map_some, Option.map_some, same])

end ScopeTree

namespace Discovery
open ScopeTree Relation

variable {config : DiscoveryConfig} {program : Program}

/-- Whether every scope of a list holds a class that the program declares. -/
def Enlists (config : DiscoveryConfig) (program : Program) (tree : ScopeTree) (owners : List ScopeId) :
    Prop :=
  ∀ id ∈ owners, ∃ name, program.DeclaresClass config name ∧ tree.Enlisted name id

/-- Whether these classes can be found by their names besides. -/
def Registers (config : DiscoveryConfig) (program : Program) (tree : ScopeTree) (owners : List ScopeId) :
    Prop :=
  ∀ id ∈ owners, ∃ name, program.DeclaresClass config name ∧ tree.Enlisted name id ∧
    tree.classId? name = some id

def State.owners (state : State) : List ScopeId := state.classes.map ClassBodies.owner

/-! ### Declarations -/

/-- A class whose bodies begin afresh keeps its place in the list; a new one comes last. -/
theorem owners_resetBodies (state : State) (owner : ScopeId) :
    (state.resetBodies owner).owners = if owner ∈ state.owners then state.owners else state.owners ++
    [owner] := by
  unfold State.resetBodies
  split
  next bodies held =>
    have found : state.classes.find? (fun bodies => bodies.owner = owner) = some bodies := held
    have same : bodies.owner = owner := by simpa using List.find?_some found
    have listed : owner ∈ state.owners := List.mem_map.2 ⟨bodies, List.mem_of_find?_eq_some found, same⟩
    rw [if_pos listed]
    simp only [State.owners, State.modifyBodies, List.map_map]
    apply List.map_congr_left
    intro other _
    rw [Function.comp_apply]
    split
    next equal => exact equal.symm
    next => rfl
  next absent =>
    rw [if_neg, State.owners, List.map_append, List.map_singleton]
    · rfl
    · intro listed
      obtain ⟨bodies, member, same⟩ := List.mem_map.1 listed
      exact List.find?_eq_none.1 absent bodies member (decide_eq_true same)

theorem mem_owners_resetBodies {state : State} {owner id : ScopeId}
    (listed : id = owner ∨ id ∈ state.owners) :
    id ∈ (state.resetBodies owner).owners := by
  rw [owners_resetBodies]
  split
  next known =>
    rcases listed with rfl | old
    · exact known
    · exact old
  next => exact List.mem_append.2 (listed.symm.imp_right fun same => List.mem_singleton.2 same)

theorem globals_clearDescendants (tree : ScopeTree) (id : ScopeId) :
    (tree.clearDescendants id).globals = tree.globals := by
  unfold ScopeTree.clearDescendants
  generalize tree.descendants id = ids
  induction ids generalizing tree with
  | nil => rfl
  | cons id rest ih => exact ih (tree.clearEntity id)

theorem globals_vacate (state : State) (id : ScopeId) (message : String) (range : Range) :
    (state.vacate id message range).tree.globals = state.tree.globals := by
  unfold State.vacate
  split
  next => exact globals_clearDescendants _ _
  next => rfl

@[simp] theorem globals_placeClass (tree : ScopeTree) (id : ScopeId) (name : String)
    (superclass : Option String) :
    (placeClass tree id name superclass).globals = tree.globals := by
  simp only [placeClass, globals_setEntity, globals_internChild]

theorem links_placeClass (tree : ScopeTree) (id : ScopeId) (name : String) (superclass : Option String) :
    tree.Links (placeClass tree id name superclass) := by
  intro _ _ _ found
  exact (sameShape_setEntity _ _ _).links
    ((sameShape_setEntity _ _ _).links ((grows_internChild _ _ _ _).links found))

/-- What the declaration of a class leaves: the class on its scope, and all other classes as they are. -/
structure Founds (config : DiscoveryConfig) (name base : String) (id : ScopeId) (before after : State) :
    Prop where
  hangs : after.tree.child? root name = some id
  links : before.tree.Links after.tree
  spares : before.tree.Spares after.tree id
  held : ∃ constructor, after.tree.classAt? id =
    some { Class.new name constructor with superclass := if base = config.rootClass then none else some base }
  classes : after.tree.globals.classes = before.tree.globals.classes.insert name id
  bodies : after.classes = (before.resetBodies id).classes

theorem classes_resetBodies {one two : State} (same : one.classes = two.classes) (id : ScopeId) :
    (one.resetBodies id).classes = (two.resetBodies id).classes := by
  unfold State.resetBodies State.bodies?
  rw [same]
  split
  next => exact congrArg (List.map _) same
  next => rfl

private theorem spares_vacate {state : State} (formed : state.tree.Formed) {id : ScopeId}
    (below : id ≠ root) (message : String) (range : Range) :
    state.tree.Spares (state.vacate id message range).tree id := by
  unfold State.vacate
  split
  next => exact spares_clearDescendants formed below id
  next => exact .refl _ _

theorem formed_vacate {state : State} (formed : state.tree.Formed) (id : ScopeId) (message : String)
    (range : Range) :
    (state.vacate id message range).tree.Formed := by
  unfold State.vacate
  split
  next => exact (revises_clearDescendants state.tree id formed).1
  next => exact formed

theorem founds_declareClass (config : DiscoveryConfig) {name : String} (plain : '.' ∉ name.toList)
    (base : String) (range : Range) {state : State} (formed : state.tree.Formed)
    (dotless : state.tree.Dotless) :
    ∃ id, Founds config name base id state (declareClass config name base range state) := by
  rw [declareClass_eq]
  dsimp only
  generalize given : (if base = config.rootClass then none else some base) = superclass
  have hangs := dotless.child?_internChild formed plain formed.root_lt .class_
  have first := formed.internChild formed.root_lt name .class_
  have second := dotless.internChild plain root .class_
  have made := state.tree.spares_internChild root name .class_ (state.tree.internChild root name .class_).2
  have links := (state.tree.grows_internChild root name .class_).links
  have globals := globals_internChild .class_ state.tree root name
  generalize state.tree.internChild root name .class_ = below at hangs first second made links globals ⊢
  have top := first.parent?_of_child hangs
  have same := sameShape_vacate (state.withTree below.1) below.2 s!"class `{name}` redefined" range
  have spared := @spares_vacate (state.withTree below.1) first below.2 (first.ne_root top)
    s!"class `{name}` redefined" range
  have classes := classes_vacate (state.withTree below.1) below.2 s!"class `{name}` redefined" range
  have kept := @formed_vacate (state.withTree below.1) first below.2 s!"class `{name}` redefined" range
  have globals := (globals_vacate (state.withTree below.1) below.2
    s!"class `{name}` redefined" range).trans globals
  generalize (state.withTree below.1).vacate below.2 s!"class `{name}` redefined" range = cleared
    at same spared classes kept globals ⊢
  have hung := (same.child? root name).trans hangs
  have above := (same.parent? below.2).trans top
  obtain ⟨_, inside, _⟩ := kept.child hung
  have placed := spares_placeClass kept (second.of_sameShape same) above name superclass
  have held := classAt?_placeClass (index_lt_of_node? inside) name superclass
  have further := links_placeClass cleared.tree below.2 name superclass
  have globals := (globals_placeClass cleared.tree below.2 name superclass).trans globals
  generalize placeClass cleared.tree below.2 name superclass = tree at placed held further globals ⊢
  refine ⟨below.2, ?_⟩
  constructor
  · rw [tree_resetBodies]
    exact further hung
  · rw [tree_resetBodies]
    intro _ _ _ found
    exact further (same.links (links found))
  · rw [tree_resetBodies]
    have whole := made.trans (spared.trans placed)
    exact whole
  · rw [tree_resetBodies, given]
    exact held
  · rw [tree_resetBodies, State.withTree, globals]
  · apply classes_resetBodies
    exact classes

/-- A declaration enlists its class and spares all others. -/
theorem enlisted_declareClass (config : DiscoveryConfig) {name : String} (plain : PlainName name)
    (base : String) (range : Range) {state : State} (formed : state.Formed) (tidy : state.Tidy) :
    ∃ id, (declareClass config name base range state).tree.Enlisted name id ∧
      state.tree.Spares (declareClass config name base range state).tree id ∧
      (∀ other, (declareClass config name base range state).tree.classId? other =
        if other = name then some id else state.tree.classId? other) ∧
      id ∈ (declareClass config name base range state).owners ∧
      ∀ bodies ∈ (declareClass config name base range state).classes,
        bodies ∈ state.classes ∨ bodies.owner = id := by
  obtain ⟨id, founds⟩ := founds_declareClass config plain.1 base range formed.tree tidy.tree.dotless
  obtain ⟨constructor, held⟩ := founds.held
  refine ⟨id, ⟨founds.hangs, _, held, rfl, rfl, rfl⟩, founds.spares, fun other => ?_,
    ?_, fun bodies member => ?_⟩
  · rw [classId?, founds.classes, OrderedMap.get?_insert, ← classId?]
  · rw [State.owners, founds.bodies]
    exact mem_owners_resetBodies (.inl rfl)
  · rw [founds.bodies] at member
    rcases mem_resetBodies member with old | rfl
    · exact .inl old
    · exact .inr rfl

private theorem callables_linkClass (tree : ScopeTree) (id other : ScopeId) :
    ((linkClass tree id).classAt? other).map Class.callables = (tree.classAt? other).map Class.callables := by
  unfold linkClass
  split
  next => rfl
  next owner held =>
    split
    next => rfl
    next =>
      by_cases same : other = id
      · subst same
        rw [classAt?_modifyClass_self, held]
        rfl
      · rw [classAt?, ScopeTree.modifyClass, entity?_modifyEntity, if_neg same]
        rfl

theorem classId?_linkClass (tree : ScopeTree) (id : ScopeId) (name : String) :
    (linkClass tree id).classId? name = tree.classId? name := by
  unfold linkClass
  split
  next => rfl
  next => split <;> rfl

theorem links_declareStep (plain : program.Plain) {before after : State}
    (step : DeclareStep config program before after) (formed : before.Formed) (tidy : before.Tidy)
    (free : before.tree.Fieldless) : before.tree.Links after.tree := by
  obtain ⟨last, kept⟩ := revises_declareStep step formed
  exact kept.links formed.tree tidy.tree.dotless last.tree
    (tidy_declareStep plain step formed tidy free).1.tree.dotless

private theorem registers_declareStep (plain : program.Plain) {before after : State}
    (step : DeclareStep config program before after) (formed : before.Formed) (tidy : before.Tidy)
    (free : before.tree.Fieldless) (registers : Registers config program before.tree before.owners) :
    Registers config program after.tree after.owners := by
  have links := links_declareStep plain step formed tidy free
  cases step with
  | @class_ name base range state named written =>
    obtain ⟨id, new, spares, known, _, classes⟩ :=
      enlisted_declareClass config (plain _ named) base range formed tidy
    intro owner member
    obtain ⟨bodies, listed, rfl⟩ := List.mem_map.1 member
    by_cases same : bodies.owner = id
    · exact ⟨name, written, same ▸ new, by rw [known, if_pos rfl, same]⟩
    · obtain ⟨other, declared, enlisted, registered⟩ := registers bodies.owner
        (List.mem_map_of_mem ((classes bodies listed).resolve_right same))
      have top := formed.tree.parent?_of_child enlisted.hangs
      refine ⟨other, declared, enlisted.steady links (spares.steady top same), ?_⟩
      rw [known, if_neg, registered]
      rintro rfl
      exact same (Option.some.inj ((links enlisted.hangs).symm.trans new.hangs))
  | skip message range state =>
    intro owner member
    rw [State.owners, State.classes_warn] at member
    rw [State.tree_warn]
    exact registers owner member
  | link id state =>
    intro owner member
    obtain ⟨name, declared, enlisted, registered⟩ := registers owner member
    exact ⟨name, declared, enlisted.carry links (callables_linkClass _ _ _),
      (classId?_linkClass _ _ _).trans registered⟩

/-- What every declaration keeps stays from any moment of the declarations to their end. -/
theorem declareSteps_keep (plain : program.Plain) (property : State → Prop)
    (each : ∀ {before after}, DeclareStep config program before after → before.Formed → before.Tidy →
      before.tree.Fieldless → property before → property after)
    {state last : State} (reached : ReflTransGen (DeclareStep config program) (.initial config) state)
    (left : ReflTransGen (DeclareStep config program) state last) (holds : property state) :
    property last := by
  induction left with
  | refl => exact holds
  | tail before step ih =>
    obtain ⟨formed, tidy, free⟩ := tidy_declareSteps plain (reached.trans before)
    exact each step formed tidy free ih

theorem registers_declared (config : DiscoveryConfig) (plain : program.Plain) :
    Registers config program (declared config program).tree (declared config program).owners :=
  declareSteps_keep plain (fun state => Registers config program state.tree state.owners)
    (registers_declareStep plain) .refl
    (declared_steps config program) nofun

/-! ### The top level -/

theorem globals_declareParams (owner : ScopeId) (names : List String) (tree : ScopeTree) :
    (declareParams owner names tree).1.globals = tree.globals := by
  induction names generalizing tree with
  | nil => rfl
  | cons name rest ih =>
    rw [declareParams]
    exact (ih _).trans (globals_internChild .value tree owner name)

theorem globals_placeFunction (tree : ScopeTree) (id : ScopeId) (name : String) (kind : FunctionKind)
    (body : FunctionBody) :
    (placeFunction tree id name kind body).globals = tree.globals :=
  globals_declareParams id body.params tree

private theorem classId?_declareGlobalFunction (name : String) (body : FunctionBody) (range : Range)
    (state : State) (other : String) :
    (declareGlobalFunction name body range state).tree.classId? other = state.tree.classId? other := by
  simp only [declareGlobalFunction_eq, State.withTree, classId?, globals_placeFunction,
    globals_vacate, globals_internChild]

theorem classes_declareGlobalFunction (name : String) (body : FunctionBody) (range : Range) (state : State) :
    (declareGlobalFunction name body range state).classes = state.classes := by
  rw [declareGlobalFunction_eq]
  exact classes_vacate _ _ _ _

private theorem classId?_declareGlobalTable (name : String) (tree : ScopeTree) (other : String) :
    (declareGlobalTable name tree).classId? other = tree.classId? other := by
  unfold declareGlobalTable
  dsimp only
  split <;> simp only [classId?, globals_setEntity, globals_internChild]

private theorem classId?_declareGlobalValue (config : DiscoveryConfig) {tree : ScopeTree}
    (formed : tree.Formed) (name : String) (value : Option Expr) (range : Range) (other : String) :
    (declareGlobalValue config name value range tree).classId? other = tree.classId? other := by
  have defined := advances_defineLocal tree formed.root_lt name range
  unfold declareGlobalValue
  dsimp only
  split
  next =>
    obtain ⟨_, grows⟩ := defined.trans (advances_applyEvidence _ _
      (classifyValue config tree (.at_ root) value)) formed
    exact congrArg (fun globals => globals.classes.get? other) grows.globals
  next => exact congrArg (fun globals => globals.classes.get? other) (defined formed).2.globals

/-- The top level declares no further classes. -/
theorem classId?_indexStep {before after : State} (step : IndexStep config program before after)
    (formed : before.Formed) (name : String) : after.tree.classId? name = before.tree.classId? name := by
  cases step with
  | function range named within free => exact classId?_declareGlobalFunction _ _ range before name
  | table named free => exact classId?_declareGlobalTable _ _ name
  | value value range named free => exact classId?_declareGlobalValue config formed.tree _ value range name
  | @member base member value range state owned named table =>
    have inside : (Frame.at_ root).scope.index < before.tree.size := formed.tree.root_lt
    obtain ⟨_, grows⟩ := advances_assignMember before.tree (.at_ root) inside base member
      (classifyValue config before.tree (.at_ root) value) range formed.tree
    exact congrArg (fun globals => globals.classes.get? name) grows.globals

theorem owners_indexStep {before after : State} (step : IndexStep config program before after) :
    after.owners = before.owners := by
  cases step with
  | function range named within free => rw [State.owners, classes_declareGlobalFunction]; rfl
  | table named free => rfl
  | value value range named free => rfl
  | member value range owned named table => rfl

theorem links_indexStep (plain : program.Plain) {before after : State}
    (step : IndexStep config program before after) (formed : before.Formed) (tidy : before.Tidy) :
    before.tree.Links after.tree := by
  obtain ⟨last, kept⟩ := revises_indexStep step formed
  exact kept.links formed.tree tidy.tree.dotless last.tree
    (tidy_indexStep plain step formed tidy).tree.dotless

/-- A class that no function of the top level is named like stays enlisted and can still be found by its
name. -/
theorem enlisted_indexStep (plain : program.Plain) {name : String}
    (spared : ¬program.DeclaresFunction name) {id : ScopeId} {before after : State}
    (step : IndexStep config program before after) (formed : before.Formed) (tidy : before.Tidy)
    (enlisted : before.tree.Enlisted name id) (registered : before.tree.classId? name = some id) :
    after.tree.Enlisted name id ∧ after.tree.classId? name = some id := by
  have last := (revises_indexStep step formed).1
  have links := links_indexStep plain step formed tidy
  refine ⟨?_, (classId?_indexStep step formed name).trans registered⟩
  rcases steady_indexStep plain step formed tidy (formed.tree.parent?_of_child enlisted.hangs) with
    steady | ⟨other, hangs, _, free⟩
  · exact enlisted.steady links steady
  · -- A function in its place would have its name.
    obtain ⟨_, rfl⟩ := last.tree.child_unique (links enlisted.hangs) hangs
    rcases free with function | unknown
    · exact absurd function spared
    · rw [unknown] at registered
      cases registered

private theorem registers_indexStep (plain : program.Plain)
    (spared : ∀ name, program.DeclaresClass config name → ¬program.DeclaresFunction name)
    {before after : State} (step : IndexStep config program before after) (formed : before.Formed)
    (tidy : before.Tidy) (registers : Registers config program before.tree before.owners) :
    Registers config program after.tree after.owners := by
  intro owner member
  rw [owners_indexStep step] at member
  obtain ⟨name, declared, enlisted, registered⟩ := registers owner member
  exact ⟨name, declared, enlisted_indexStep plain (spared name declared) step formed tidy enlisted registered⟩

theorem indexSteps_keep (plain : program.Plain) (property : State → Prop)
    (each : ∀ {before after}, IndexStep config program before after → before.Formed →
      before.Tidy → property before →
      property after)
    {state last : State} (reached : ReflTransGen (IndexStep config program) (declared config program) state)
    (left : ReflTransGen (IndexStep config program) state last) (holds : property state) : property last := by
  induction left with
  | refl => exact holds
  | tail before step ih =>
    obtain ⟨formed, tidy⟩ := tidy_indexSteps plain (reached.trans before)
    exact each step formed tidy ih

theorem registers_indexed (config : DiscoveryConfig) (plain : program.Plain)
    (spared : ∀ name, program.DeclaresClass config name → ¬program.DeclaresFunction name) :
    Registers config program (indexed config program).tree (indexed config program).owners :=
  indexSteps_keep plain (fun state => Registers config program state.tree state.owners)
    (registers_indexStep plain spared) .refl
    (indexed_steps config program) (registers_declared config plain)

/-! ### The members of a class -/

section Define

variable {owner : ScopeId} {ownerName : String}

theorem classes_placeFields (fields : List (String × LuaType × Range)) (seen : List String) (state : State) :
    (placeFields owner fields seen state).classes = state.classes := by
  induction fields generalizing seen state with
  | nil => rfl
  | cons field rest ih =>
    obtain ⟨name, type, range⟩ := field
    rw [placeFields, ih]
    split
    next => exact state.classes_warn _ _ _
    next => rfl

/-- The definition of a constructor keeps of the bodies all but the one of the constructor. -/
theorem map_defineConstructor {α : Type} (view : ClassBodies → α)
    (same : ∀ bodies body, view { bodies with constructor := some body } = view bodies)
    (body : FunctionBody) (range : Range) (state : State) :
    (defineConstructor owner ownerName body range state).classes.map view = state.classes.map view := by
  cases found : state.tree.classAt? owner with
  | none => rw [defineConstructor_outside found]
  | some held =>
    rw [defineConstructor_eq found]
    dsimp only
    have vacated : (vacateConstructor owner held.constructor ownerName range state).classes =
        state.classes := by
      unfold vacateConstructor
      split
      next => exact state.classes_warn _ _ _
      next => rfl
    generalize vacateConstructor owner held.constructor ownerName range state = cleared at vacated ⊢
    have placed : (placeConstructor owner held.constructor body cleared).classes.map view =
        state.classes.map view :=
      (map_modifyBodies view _ owner fun bodies => same bodies body).trans (congrArg (List.map view) vacated)
    split
    next => rw [placeLiteralFields, classes_placeFields, placed]
    next => rw [State.classes_warn, placed]

private theorem owners_defineStep {before after : State}
    (step : DefineStep config program owner ownerName before after) :
    after.owners = before.owners := by
  cases step with
  | constructor range state within =>
    exact map_defineConstructor ClassBodies.owner (fun _ _ => rfl) _ range before
  | function indexer range state named within written other =>
    rw [defineFunction_eq]
    refine (map_modifyBodies ClassBodies.owner _ owner fun bodies => ?_).trans ?_
    · cases indexer <;> rfl
    · exact congrArg (List.map ClassBodies.owner) (classes_vacate _ _ _ _)
  | value value range state named => rfl

theorem links_defineStep (plain : program.Plain) {before after : State}
    (step : DefineStep config program owner ownerName before after) (formed : before.Formed)
    (tidy : before.Tidy) (isClass : (before.tree.classAt? owner).isSome = true) :
    before.tree.Links after.tree := by
  obtain ⟨held, found⟩ := Option.isSome_iff_exists.1 isClass
  obtain ⟨last, kept⟩ := revises_defineStep step
    (index_lt_of_entity? (classAt?_eq_some found).choose_spec) formed
  exact kept.links formed.tree tidy.tree.dotless last.tree
    (tidy_defineStep plain step formed tidy isClass).1.tree.dotless

/-- The definition of a member leaves the callables of its class, or enters one function among them. -/
theorem callables_defineStep (plain : program.Plain) {before after : State}
    (step : DefineStep config program owner ownerName before after) (formed : before.Formed)
    (tidy : before.Tidy) {held : Class} (found : before.tree.classAt? owner = some held) :
    ∃ later, after.tree.classAt? owner = some later ∧ (later.callables = held.callables ∨
      ∃ indexer name id, later = Class.enterFunction held indexer name id ∧
        program.DefinesFunction ownerName name ∧
        name ≠ config.constructorName) := by
  cases step with
  | constructor range state within =>
    obtain ⟨_, outline⟩ := tidy_defineConstructor formed tidy found ownerName
      (fun name member => plain name (within member)) range
    obtain ⟨later, reached, equal⟩ := Option.map_eq_some_iff.1 outline
    have same := congrArg Class.callables equal
    exact ⟨later, reached, .inl same⟩
  | @function name indexer body range state named within written other =>
    obtain ⟨_, id, entered⟩ := tidy_defineFunction formed tidy
      (tidy.tree.shaped found).top (plain _ named) indexer
      (fun name member => plain name (within member)) range
    rw [found, Option.map_some] at entered
    exact ⟨_, entered, .inr ⟨indexer, name, id, rfl, written, other⟩⟩
  | value value range state named =>
    obtain ⟨_, _, grows⟩ := tends_defineValue config formed.tree tidy.tree found (plain _ named) value
      range formed.tree tidy.tree
    obtain ⟨later, reached, same⟩ := (grows.steady owner).class_ found
    exact ⟨later, reached, .inl same⟩

/-- While the members of one class are defined, every class stays enlisted. -/
theorem enlisted_defineStep (plain : program.Plain) {before after : State}
    (step : DefineStep config program owner ownerName before after) (formed : before.Formed)
    (tidy : before.Tidy) (isClass : (before.tree.classAt? owner).isSome = true) {name : String}
    {id : ScopeId} (enlisted : before.tree.Enlisted name id)
    (apart : id = owner → program.DefinesFunction ownerName "constructor" →
      config.constructorName = "constructor")
    :
    after.tree.Enlisted name id := by
  have links := links_defineStep plain step formed tidy isClass
  by_cases same : id = owner
  · subst same
    obtain ⟨held, found, called, regular⟩ := enlisted.held
    obtain ⟨later, reached, same | ⟨indexer, member, child, rfl, written, other⟩⟩ :=
      callables_defineStep plain step formed tidy found
    · exact enlisted.carry links (by rw [reached, found, Option.map_some, Option.map_some, same])
    · have kept : (Class.enterFunction held indexer member child).name = held.name := by cases indexer <;> rfl
      refine ⟨links enlisted.hangs, _, reached, kept.trans called, regular_enterFunction.2 ⟨?_, regular⟩⟩
      rintro rfl
      exact other (apart rfl written).symm
  · have top := formed.tree.parent?_of_child enlisted.hangs
    exact enlisted.steady links (steady_defineStep plain step formed tidy isClass top same)

/-- What every step keeps that defines a member of a class under its name, the definition of all its members
keeps. -/
theorem defineMembers_keeps (plain : program.Plain) (property : State → Prop) {owner : ScopeId}
    (each : ∀ {held before after}, DefineStep config program owner held.name before after →
      before.Formed → before.Tidy →
      before.tree.classAt? owner = some held → property before → property after)
    {state : State} (formed : state.Formed) (tidy : state.Tidy) (holds : property state) :
    property (defineMembers config program state owner) := by
  cases found : state.tree.classAt? owner with
  | none => rw [defineMembers_outside config program found]; exact holds
  | some held =>
    suffices ∀ after, ReflTransGen (DefineStep config program owner held.name) state after →
        (∃ later, after.tree.classAt? owner = some later ∧ later.name = held.name) ∧ property after from
      (this _ (defineMembers_steps config program found)).2
    intro after steps
    induction steps with
    | refl => exact ⟨⟨held, found, rfl⟩, holds⟩
    | tail before step ih =>
      obtain ⟨⟨later, reached, called⟩, kept⟩ := ih
      obtain ⟨formed, tidy, _⟩ := tidy_defineSteps plain before formed tidy (Option.isSome_of_eq_some found)
      rw [← called] at step ⊢
      refine ⟨?_, each step formed tidy reached kept⟩
      obtain ⟨last, there, same | ⟨indexer, name, id, rfl, _⟩⟩ :=
        callables_defineStep plain step formed tidy reached
      · exact ⟨last, there, congrArg Prod.fst same⟩
      · exact ⟨_, there, by cases indexer <;> rfl⟩

theorem defineAll_keeps (config : DiscoveryConfig) (plain : program.Plain) (property : State → Prop)
    (each : ∀ {owner held before after}, DefineStep config program owner held.name before after →
      before.Formed →
      before.Tidy → before.tree.classAt? owner = some held → property before → property after)
    (owners : List ScopeId) {state : State} (formed : state.Formed) (tidy : state.Tidy)
    (holds : property state) :
    (owners.foldl (defineMembers config program) state).Formed ∧
    (owners.foldl (defineMembers config program) state).Tidy ∧
      property (owners.foldl (defineMembers config program) state) := by
  induction owners generalizing state with
  | nil => exact ⟨formed, tidy, holds⟩
  | cons owner rest ih =>
    obtain ⟨last, kept⟩ : (defineMembers config program state owner).Formed ∧
        (defineMembers config program state owner).Tidy :=
      tidy_defineMembers plain formed tidy owner
    exact ih last kept (defineMembers_keeps plain property each formed tidy holds)

end Define

theorem owners_defined (config : DiscoveryConfig) (plain : program.Plain) :
    (defined config program).owners = (indexed config program).owners :=
  (defineAll_keeps config plain (fun state => state.owners = (indexed config program).owners)
    (fun step _ _ _ same => (owners_defineStep step).trans same) _ (formed_indexed config program)
    (tidy_indexed config plain) rfl).2.2

private theorem enlists_defined (config : DiscoveryConfig) (plain : program.Plain)
    (spared : ∀ name, program.DeclaresClass config name → ¬program.DeclaresFunction name)
    (apart : ∀ name, program.DeclaresClass config name → program.DefinesFunction name "constructor" →
      config.constructorName = "constructor") :
    Enlists config program (defined config program).tree (defined config program).owners := by
  rw [owners_defined config plain]
  refine (defineAll_keeps config plain (fun state => Enlists config program state.tree
    (indexed config program).owners)
    (fun {owner held before after} step formed tidy found enlists => ?_) _ (formed_indexed config program)
    (tidy_indexed config plain) fun id member => ?_).2.2
  · intro id member
    obtain ⟨name, declared, enlisted⟩ := enlists id member
    refine ⟨name, declared, enlisted_defineStep plain step formed tidy
      (Option.isSome_of_eq_some found) enlisted ?_⟩
    rintro rfl
    obtain ⟨_, same, rfl, _⟩ := enlisted.held
    cases found.symm.trans same
    exact apart _ declared
  · obtain ⟨name, declared, enlisted, _⟩ := registers_indexed config plain spared id member
    exact ⟨name, declared, enlisted⟩

/-- What stands at the end of a discovery has grown out of what is there once the members are defined. -/
theorem grows_discover (config : DiscoveryConfig) (program : Program) :
    (defined config program).tree.Grows (discover program config).tree ∧
      (discover program config).classes = (defined config program).owners := by
  have reached : Run.Reached program config (Run.start program config).seed := .seeded
  obtain ⟨_, first⟩ := advances_seeded (formed_defined config program)
  obtain ⟨_, second⟩ := reached.advances_resolve reached.formed
  exact ⟨(first.trans second).tree, congrArg (List.map ClassBodies.owner) (first.trans second).classes⟩

/-- When a discovery ends, all that it declared as classes are still classes. -/
theorem enlists_discover (config : DiscoveryConfig) (plain : program.Plain)
    (spared : ∀ name, program.DeclaresClass config name → ¬program.DeclaresFunction name)
    (apart : ∀ name, program.DeclaresClass config name → program.DefinesFunction name "constructor" →
      config.constructorName = "constructor") :
    Enlists config program (discover program config).tree (discover program config).classes := by
  obtain ⟨grows, owners⟩ := grows_discover config program
  intro id member
  rw [owners] at member
  obtain ⟨name, declared, enlisted⟩ := enlists_defined config plain spared apart id member
  exact ⟨name, declared, enlisted.steady grows.links (grows.steady id)⟩

end Discovery
end LuaClasses
