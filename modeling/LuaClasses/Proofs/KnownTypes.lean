import LuaClasses.Proofs.Convergence
import LuaClasses.Proofs.FirstReport
import LuaClasses.Proofs.ReturnAgreement
import LuaClasses.Proofs.TypeTexts

/-! The types that a discovery can come upon. Every class that a variable or a function has among its
types is one that the program declares or that the types of configured paths name, whatever the discovery
has done so far. A step is shown to keep to these types by a horizon that has them and all the paths and
reference names that the step needs. -/

namespace LuaClasses
open Discovery

/-- The kinds of Lua value, the types of configured paths and the instances of the declared classes. -/
def Program.knownTypes (program : Program) (config : DiscoveryConfig) : List LuaType :=
  LuaType.kinds ++ config.builtins.values ++ (program.classNames config).map .instanceOf

theorem Program.mem_knownTypes_kind (program : Program) (config : DiscoveryConfig) {type : LuaType}
    (kind : type.isInstance = false) :
    type ∈ program.knownTypes config := by
  rw [knownTypes, List.append_assoc]
  exact List.mem_append_left _ (LuaType.mem_kinds.2 kind)

/-- Whether a class is declared under its name, and all types that an entity gathers are known. -/
structure Entity.Known (program : Program) (config : DiscoveryConfig) (entity : Entity) : Prop where
  name : ∀ owner, entity.asClass? = some owner → owner.name ∈ program.classNames config
  types : ∀ type ∈ entity.gathered, type ∈ program.knownTypes config

/-! ### Types that follow from a form -/

private theorem isInstance_of_returnType? {value : Option Expr} {type : LuaType}
    (told : returnType? value = some type) :
    type.isInstance = false := by
  cases value with
  | none => cases told; rfl
  | some value =>
    rw [returnType?] at told
    split at told
    next op _ _ => cases told; exact op.resultType_plain
    next => exact Expr.literalType?_plain told

theorem isInstance_of_mem_initialReturns {body : List Stmt} {type : LuaType}
    (member : type ∈ initialReturns body) :
    type.isInstance = false := by
  have collected {type : LuaType} (member : type ∈ collectReturnTypes body) : type.isInstance = false := by
    obtain ⟨value, _, told⟩ := mem_collectReturnTypes.1 member
    exact isInstance_of_returnType? told
  rw [initialReturns] at member
  split at member
  next => exact collected member
  next =>
    rcases TypeSet.mem_insert.1 member with rfl | member
    · rfl
    · exact collected member

theorem isInstance_of_mem_literalFields {selfAlias : String} {kind : StmtKind} {entry : String × LuaType}
    (member : entry ∈ literalFields selfAlias kind) : entry.2.isInstance = false := by
  unfold literalFields at member
  split at member
  next =>
    obtain ⟨⟨target, value⟩, _, given⟩ := List.mem_filterMap.1 member
    dsimp only at given
    split at given
    next =>
      split at given
      next =>
        obtain ⟨type, told, rfl⟩ := Option.map_eq_some_iff.1 given
        exact Expr.literalType?_plain told
      next => cases given
    next => cases given
  next => cases member

namespace Horizon

/-- Whether a horizon has the classes and types of a program, and some paths and reference names beside
others. -/
structure Suits (horizon : Horizon) (program : Program) (config : DiscoveryConfig)
    (paths keys : List String) : Prop where
  names : horizon.names = program.classNames config
  types : horizon.types = program.knownTypes config
  paths : paths ⊆ horizon.paths
  keys : keys ⊆ horizon.keys
  closed : horizon.Closed config

/-- What a value tells is within a horizon that has the targets of the value. -/
theorem Suits.admits {horizon : Horizon} {program : Program} {config : DiscoveryConfig}
    {paths : List String} {value : Option Expr}
    (suits : horizon.Suits program config paths
      (value.toList.flatMap (Expr.targets config (program.classNames config))))
    {tree : ScopeTree} (holds : horizon.Holds tree) (frame : Frame) :
    horizon.Admits (classifyValue config tree frame value) := by
  refine admits_classifyValue holds suits.closed frame fun expr given target left => ?_
  rw [suits.names] at left
  exact suits.keys (List.mem_flatMap.2 ⟨expr, given, left⟩)

end Horizon

namespace ScopeTree

/-- Whether all entities of a tree are known. -/
def Known (program : Program) (config : DiscoveryConfig) (tree : ScopeTree) : Prop :=
  ∀ ⦃id entity⦄, tree.entity? id = some entity → entity.Known program config

namespace Known

variable {program : Program} {config : DiscoveryConfig} {tree after : ScopeTree}
  (known : tree.Known program config)
include known

/-- A known tree is within a horizon that has whatever paths and reference names are wanted. -/
theorem exists_horizon (paths keys : List String) :
    ∃ horizon : Horizon, horizon.Suits program config paths keys ∧ horizon.Holds tree := by
  let entities := tree.nodes.filterMap Node.entity
  let horizon : Horizon := {
    paths := tree.nodes.map Node.raw ++ paths
    names := program.classNames config
    types := program.knownTypes config
    keys := "" :: (tree.nodes.map Node.raw ++ paths ++
      entities.flatMap (fun entity => entity.references.keys) ++ keys) }
  refine ⟨horizon, ⟨rfl, rfl, List.subset_append_right _ _, ?_, ?_⟩, ?_⟩
  · exact List.subset_cons_of_subset _ (List.subset_append_right _ _)
  · refine ⟨fun type => program.mem_knownTypes_kind config, fun {path type} told => ?_, fun name listed => ?_,
      fun path listed => ?_, List.mem_cons_self⟩
    · have listed : type ∈ config.builtins.values :=
        List.mem_map.2 ⟨(path, type), OrderedMap.mem_entries_of_get? told, rfl⟩
      exact List.mem_append_left _ (List.mem_append_right _ listed)
    · exact List.mem_append_right _ (List.mem_map_of_mem listed)
    · exact List.mem_cons_of_mem _ (List.mem_append_left _ (List.mem_append_left _ listed))
  · refine ⟨fun {id node} found => ?_, fun {id entity} held => ?_⟩
    · exact List.mem_append_left _ (List.mem_map_of_mem (ScopeTree.mem_nodes found))
    · obtain ⟨node, found, occupied⟩ := Option.bind_eq_some_iff.1 held
      have listed : entity ∈ entities :=
        List.mem_filterMap.2 ⟨node, ScopeTree.mem_nodes found, occupied⟩
      refine ⟨(known held).name, (known held).types, fun key member => ?_⟩
      exact List.mem_cons_of_mem _ (List.mem_append_left _
        (List.mem_append_right _ (List.mem_flatMap.2 ⟨entity, listed, member⟩)))

/-- What stays within each horizon that has what is needed keeps to what is known. -/
theorem through (paths keys : List String)
    (kept : ∀ horizon : Horizon, horizon.Suits program config paths keys →
      horizon.Holds tree → horizon.Holds after)
    :
    after.Known program config := by
  obtain ⟨horizon, suits, holds⟩ := known.exists_horizon paths keys
  intro id entity held
  have allows := (kept horizon suits holds).entities held
  exact ⟨fun owner same => suits.names ▸ allows.name owner same,
    fun type member => suits.types ▸ allows.types type member⟩

theorem of_entities (kept : ∀ id entity, after.entity? id = some entity → tree.entity? id = some entity) :
    after.Known program config := fun _ _ held => known (kept _ _ held)

/-! ### Writes on a tree -/

theorem internChild (parent : ScopeId) (name : String) (valueType : ValueType) :
    (tree.internChild parent name valueType).1.Known program config :=
  known.of_entities fun id entity held => by rwa [entity?_internChild] at held

theorem internField (owner : ScopeId) (name : String) :
    (tree.internField owner name).1.Known program config :=
  (known.internChild owner fieldsName .table).internChild _ name .field

theorem withGlobals (globals : Globals) : ({ tree with globals } : ScopeTree).Known program config :=
  known.of_entities fun _ _ held => held

theorem clearDescendants (id : ScopeId) : (tree.clearDescendants id).Known program config :=
  known.of_entities fun _ _ held => tree.entity?_of_clearDescendants held

theorem setEntity (id : ScopeId) {entity : Entity} (fits : entity.Known program config) :
    (tree.setEntity id entity).Known program config := by
  intro other held found
  rw [entity?_setEntity] at found
  split at found
  next =>
    obtain ⟨_, _, rfl⟩ := Option.map_eq_some_iff.1 found
    exact fits
  next => exact known found

/-- Any entity but a class that begins without types may be placed. -/
theorem place (id : ScopeId) {kind : EntityKind} (nameless : (Entity.new kind).asClass? = none)
    (bare : (Entity.new kind).gathered = .empty) : (tree.setEntity id (.new kind)).Known program config := by
  refine known.setEntity id ⟨fun owner same => ?_, fun type member => ?_⟩
  · cases nameless.symm.trans same
  · rw [bare] at member
    cases member

theorem modifyClass (id : ScopeId) {f : Class → Class} (same : ∀ owner, (f owner).name = owner.name) :
    (tree.modifyClass id f).Known program config :=
  known.through [] [] fun _ _ holds => holds.modifyEntity id fun _ allows => allows.mapClass same

/-! ### Walks and propagation -/

theorem applyEvidence (id : ScopeId) (frame : Frame) (value : Option Expr) :
    (Discovery.applyEvidence tree id (classifyValue config tree frame value)).1.Known program config :=
  known.through [] _ fun _ suits holds => holds.applyEvidence suits.closed (suits.admits holds frame) id

theorem defineLocal (scope : ScopeId) (name : String) (range : Range) :
    (Discovery.defineLocal tree scope name range).1.Known program config :=
  known.through [_] [] fun _ suits holds => holds.defineLocal (suits.paths List.mem_cons_self) range

theorem propagateInto (owner : ScopeId) : (Discovery.propagateInto tree owner).1.Known program config :=
  known.through [] [] fun _ suits holds => holds.propagateInto suits.closed owner

end Known

namespace Known

variable {program : Program} {config : DiscoveryConfig} {tree : ScopeTree} {before after state : State}

theorem site (known : state.tree.Known program config) (formed : state.tree.Formed) (frame : Frame)
    (site : Site) :
    (site.run config frame state).1.tree.Known program config :=
  known.through site.paths (site.targets config (program.classNames config)) fun _ suits holds =>
    holds.site suits.closed formed frame ⟨suits.paths, suits.names ▸ suits.keys⟩

/-! ### The entry of classes and members -/

theorem vacate (known : state.tree.Known program config) (id : ScopeId) (message : String) (range : Range) :
    (state.vacate id message range).tree.Known program config := by
  unfold State.vacate
  split
  next => exact known.clearDescendants id
  next => exact known

/-- A child that takes the place of what its path stood for. -/
theorem vacateChild (known : state.tree.Known program config) (parent : ScopeId) (name : String)
    (valueType : ValueType) (message : String) (range : Range) :
    ((state.withTree (state.tree.internChild parent name valueType).1).vacate
      (state.tree.internChild parent name valueType).2
      message range).tree.Known program config := by
  have made : (state.withTree (state.tree.internChild parent name valueType).1).tree.Known program config :=
    known.internChild parent name valueType
  exact made.vacate _ message range

theorem declareParams (known : tree.Known program config) (owner : ScopeId) (names : List String) :
    (Discovery.declareParams owner names tree).1.Known program config := by
  induction names generalizing tree with
  | nil => exact known
  | cons name rest ih => exact ih ((known.internChild owner name .value).place _ rfl rfl)

theorem placeFunction (known : tree.Known program config) (id : ScopeId) (name : String) (kind : FunctionKind)
    (body : FunctionBody) : (Discovery.placeFunction tree id name kind body).Known program config :=
  (known.declareParams id body.params).setEntity id
    ⟨nofun, fun _ member => program.mem_knownTypes_kind config (isInstance_of_mem_initialReturns member)⟩

theorem placeClass (known : tree.Known program config) (id : ScopeId) {name : String}
    (declared : name ∈ program.classNames config) (superclass : Option String) :
    (Discovery.placeClass tree id name superclass).Known program config := by
  refine ((known.internChild id "constructor" .function).place _ rfl rfl).setEntity id
    ⟨fun owner same => ?_, nofun⟩
  cases same
  exact declared

theorem declareStep (known : before.tree.Known program config)
    (step : DeclareStep config program before after) :
    after.tree.Known program config := by
  cases step with
  | @class_ name base range state named written =>
    have vacated := known.vacateChild root name .class_ s!"class `{name}` redefined" range
    rw [declareClass_eq]
    dsimp only
    rw [tree_resetBodies]
    exact (vacated.placeClass _ (Program.mem_classNames.2 written) _).withGlobals _
  | skip message range =>
    rw [State.tree_warn]
    exact known
  | link id =>
    show (linkClass before.tree id).Known program config
    unfold linkClass
    split
    next => exact known
    next =>
      split
      next => exact known
      next => exact known.modifyClass id fun _ => rfl

theorem indexStep (known : before.tree.Known program config) (step : IndexStep config program before after) :
    after.tree.Known program config := by
  cases step with
  | @function name body range state named within free =>
    have vacated := known.vacateChild root name .function s!"global function `{name}` redefined" range
    rw [declareGlobalFunction_eq]
    exact (vacated.placeFunction _ name .global body).withGlobals _
  | @table name state named free =>
    have made := known.internChild ScopeTree.root name .table
    show (declareGlobalTable name before.tree).Known program config
    unfold declareGlobalTable
    dsimp only
    split
    next => exact made.withGlobals _
    next => exact (made.place _ rfl rfl).withGlobals _
  | @value name value range state named free =>
    have defined := known.defineLocal ScopeTree.root name range
    have applied : (Discovery.applyEvidence (Discovery.defineLocal before.tree ScopeTree.root name range).1
        (Discovery.defineLocal before.tree ScopeTree.root name range).2.1
        (classifyValue config before.tree (.at_ ScopeTree.root) value)).1.Known program config :=
      known.through [_] _ fun _ suits holds =>
        (holds.defineLocal (suits.paths List.mem_cons_self) range).applyEvidence
        suits.closed (suits.admits holds _) _
    show (declareGlobalValue config name value range before.tree).Known program config
    unfold declareGlobalValue
    dsimp only
    split
    next => exact applied.withGlobals _
    next => exact defined
  | member value range owned named table =>
    exact known.through [_, _] _ fun _ suits holds =>
      holds.assignMember suits.closed (suits.admits holds _) (suits.paths List.mem_cons_self)
        (suits.paths (List.mem_cons_of_mem _ List.mem_cons_self)) range

theorem placeFields (known : state.tree.Known program config) (owner : ScopeId)
    {fields : List (String × LuaType × Range)} (kinds : ∀ field ∈ fields, field.2.1.isInstance = false)
    (seen : List String) :
    (Discovery.placeFields owner fields seen state).tree.Known program config := by
  induction fields generalizing seen state with
  | nil => exact known
  | cons field rest ih =>
    obtain ⟨name, type, range⟩ := field
    obtain ⟨kind, others⟩ := List.forall_mem_cons.1 kinds
    have placed : ∀ kept : State, kept.tree = state.tree →
        (placeField owner range kept.tree name type).Known program config := by
      intro kept same
      rw [same]
      refine ((known.internField owner name).setEntity _ ⟨fun _ same => ?_,
        fun other member => ?_⟩).modifyClass owner fun _ => rfl
      · cases same
      · rw [TypeSet.mem_single.1 member]
        exact program.mem_knownTypes_kind config kind
    rw [Discovery.placeFields]
    refine ih ?_ others _
    apply placed
    split
    next => exact State.tree_warn state _ _ _
    next => rfl

theorem dropConstructor (known : tree.Known program config) (owner constructor : ScopeId) :
    (Discovery.dropConstructor owner constructor tree).Known program config := by
  have cleared := known.clearDescendants constructor
  unfold Discovery.dropConstructor
  dsimp only
  split
  next => exact (cleared.clearDescendants _).modifyClass owner fun _ => rfl
  next => exact cleared.modifyClass owner fun _ => rfl

theorem defineConstructor (known : state.tree.Known program config) (owner : ScopeId)
    (ownerName : String) (body : FunctionBody) (range : Range) :
    (Discovery.defineConstructor owner ownerName body range state).tree.Known program config := by
  cases held : state.tree.classAt? owner with
  | none =>
    rw [defineConstructor_outside held]
    exact known
  | some owned =>
    have vacated : (vacateConstructor owner owned.constructor ownerName range state).tree.Known program
        config := by
      unfold vacateConstructor
      split
      next => exact known.dropConstructor owner owned.constructor
      next => exact known
    have declared := vacated.declareParams owned.constructor body.params
    have placed (made : Constructor) :=
      declared.place owned.constructor (show (Entity.new (.constructor made)).asClass? = none from rfl) rfl
    rw [defineConstructor_eq held]
    dsimp only
    split
    next =>
      refine placeFields (placed _) owner (fun field member => ?_) []
      obtain ⟨stmt, _, listed⟩ := List.mem_flatMap.1 member
      obtain ⟨entry, literal, rfl⟩ := List.mem_map.1 listed
      exact isInstance_of_mem_literalFields literal
    next =>
      rw [State.tree_warn]
      exact placed _

theorem defineValue (known : tree.Known program config) (owner : ScopeId) (name : String)
    (value : Option Expr) (range : Range) :
    (Discovery.defineValue config owner name value range tree).Known program config := by
  have made := known.internChild owner name .value
  rw [defineValue_eq]
  dsimp only
  have placed : (placeValue owner name range (tree.internChild owner name .value).1
      (tree.internChild owner name .value).2).Known program config := by
    unfold placeValue
    split
    next => exact made
    next => exact (made.place _ rfl rfl).modifyClass owner fun _ => rfl
  unfold applyValue
  split
  next =>
    cases value with
    | none => exact placed
    | some value => exact placed.applyEvidence _ (.at_ owner) (some value)
  next => exact placed

theorem defineStep {owner : ScopeId} {ownerName : String} (known : before.tree.Known program config)
    (step : DefineStep config program owner ownerName before after) : after.tree.Known program config := by
  cases step with
  | constructor range state within => exact defineConstructor known owner ownerName _ range
  | @function name indexer body range state named within written other =>
    have vacated := known.vacateChild owner name .function
      (redefined (before.tree.internChild owner name .function).1 owner indexer name) range
    rw [defineFunction_eq]
    exact (vacated.placeFunction _ name _ body).modifyClass owner fun _ => by cases indexer <;> rfl
  | value value range state named => exact known.defineValue owner _ value range

/-- Whatever a discovery has done, its tree is known. -/
theorem of_arises (arises : Arises program config state) : state.tree.Known program config := by
  induction arises with
  | initial =>
    intro id entity held
    rw [State.initial, entity?_new] at held
    cases held
  | declared _ step ih => exact ih.declareStep step
  | indexed _ step ih => exact ih.indexStep step
  | defined _ _ step ih => exact ih.defineStep step
  | walked frame site arises ih => exact ih.site arises.formed.tree frame site
  | propagated owner _ ih => exact ih.propagateInto owner
  | warned kind message range _ ih =>
    rw [State.tree_warn]
    exact ih

end Known
end ScopeTree
end LuaClasses
