import LuaClasses.Proofs.Reached

/-! No entity ever refers to itself. Evidence that leads back to the entity that takes it in is not kept,
no reference is settled on its holder, and all other writes leave the references of an entity alone or
begin with none. -/

namespace LuaClasses

namespace Entity

/-- No reference of an entity leads to the scope of the entity. -/
def Outward (id : ScopeId) (entity : Entity) : Prop := .resolved id ∉ entity.references.values

theorem Outward.of_references {id : ScopeId} {before after : Entity} (outward : before.Outward id)
    (same : after.references = before.references) : after.Outward id := by
  rw [Outward, same]
  exact outward

private theorem outward_new (id : ScopeId) (kind : EntityKind) : (Entity.new kind).Outward id := by
  intro member
  cases member

private theorem Outward.insertReference {id : ScopeId} (entity : Entity) (outward : entity.Outward id)
    {reference : Reference} (apart : reference ≠ .resolved id) (key : String) :
    ({ entity with references := entity.references.insert key reference } : Entity).Outward id := by
  intro member
  obtain ⟨entry, listed, same⟩ := List.mem_map.1 member
  rcases OrderedMap.mem_insert listed with rfl | old
  · exact apart same
  · apply outward
    rw [← same]
    exact List.mem_map_of_mem old

private theorem references_mapLocals (entity : Entity) (f : Members → Members) :
    (entity.mapLocals f).references = entity.references :=
  rfl

theorem references_mapClass (entity : Entity) (f : Class → Class) :
    (entity.mapClass f).references = entity.references := by
  obtain ⟨references, kind⟩ := entity
  cases kind <;> rfl

end Entity

namespace ScopeTree

def Outward (tree : ScopeTree) : Prop := ∀ id entity, tree.entity? id = some entity → entity.Outward id

namespace Outward

variable {tree : ScopeTree}

theorem of_entities {after : ScopeTree} (outward : tree.Outward)
    (kept : ∀ id entity, after.entity? id = some entity → tree.entity? id = some entity) : after.Outward :=
  fun id entity held => outward id entity (kept id entity held)

theorem internChild (outward : tree.Outward) (parent : ScopeId) (name : String) (valueType : ValueType) :
    (tree.internChild parent name valueType).1.Outward := by
  apply outward.of_entities
  intro id entity held
  rwa [entity?_internChild] at held

theorem internField (outward : tree.Outward) (owner : ScopeId) (name : String) :
    (tree.internField owner name).1.Outward :=
  (outward.internChild owner fieldsName .table).internChild _ name .field

theorem withGlobals (outward : tree.Outward) (globals : Globals) :
    ({ tree with globals } : ScopeTree).Outward :=
  outward.of_entities fun _ _ held => held

theorem setEntity (outward : tree.Outward) {id : ScopeId} {entity : Entity} (placed : entity.Outward id) :
    (tree.setEntity id entity).Outward := by
  intro other held found
  rw [entity?_setEntity] at found
  split at found
  next same =>
    obtain ⟨_, _, rfl⟩ := Option.map_eq_some_iff.1 found
    rw [same]
    exact placed
  next => exact outward other held found

theorem place (outward : tree.Outward) (id : ScopeId) (kind : EntityKind) :
    (tree.setEntity id (.new kind)).Outward :=
  outward.setEntity (Entity.outward_new id kind)

theorem occupy (outward : tree.Outward) (id : ScopeId) (name : String) (range : Range) :
    (tree.occupy id name range).Outward := by
  unfold ScopeTree.occupy
  split
  next => exact outward
  next => exact outward.place id _

theorem modifyEntity (outward : tree.Outward) (id : ScopeId) {f : Entity → Entity}
    (same : ∀ entity, (f entity).references = entity.references) : (tree.modifyEntity id f).Outward := by
  intro other held found
  rw [entity?_modifyEntity] at found
  split at found
  next at_ =>
    obtain ⟨entity, present, rfl⟩ := Option.map_eq_some_iff.1 found
    rw [at_]
    exact (outward id entity present).of_references (same entity)
  next => exact outward other held found

theorem mapLocals (outward : tree.Outward) (id : ScopeId) (f : Members → Members) :
    (tree.modifyEntity id (Entity.mapLocals f)).Outward :=
  outward.modifyEntity id fun entity => entity.references_mapLocals f

theorem modifyClass (outward : tree.Outward) (id : ScopeId) (f : Class → Class) :
    (tree.modifyClass id f).Outward :=
  outward.modifyEntity id fun entity => entity.references_mapClass f

theorem clearDescendants (outward : tree.Outward) (id : ScopeId) : (tree.clearDescendants id).Outward :=
  outward.of_entities fun _ _ held => tree.entity?_of_clearDescendants held

end Outward
end ScopeTree

namespace Discovery
open ScopeTree Relation

/-- Evidence that leads back to the entity that takes it in is not kept. -/
theorem Evidence.outward_absorb {entity : Entity} {target : ScopeId} (outward : entity.Outward target)
    (evidence : Evidence) (tree : ScopeTree) :
    (evidence.absorb tree target entity).1.Outward target := by
  unfold absorb
  split
  next => exact outward.of_references rfl
  next reference kept =>
    have apart : reference ≠ .resolved target := by
      intro same
      have filtered := (Option.filter_eq_some_iff.1 kept).2
      simp [same, Reference.target?] at filtered
    dsimp only
    split
    next => exact Entity.Outward.insertReference (entity.gather _) (outward.of_references rfl) apart _
    next => exact outward.of_references rfl

/-- No reference is settled on its holder. -/
theorem settle_ne_self {tree : ScopeTree} {owner : ScopeId} {reference : Reference}
    (apart : reference ≠ .resolved owner) :
    settle tree owner reference ≠ .resolved owner := by
  cases reference with
  | resolved target => exact apart
  | unresolved target origin =>
    unfold settle
    cases found : destination? tree owner (.unresolved target origin) with
    | none => exact apart
    | some other =>
      intro same
      cases same
      have filtered := (Option.filter_eq_some_iff.1 found).2
      simp at filtered

end Discovery

namespace ScopeTree.Outward
open Discovery

variable {tree : ScopeTree}

/-! ### The writes of a walk -/

theorem applyEvidence (outward : tree.Outward) (target : ScopeId) (evidence : Evidence) :
    (Discovery.applyEvidence tree target evidence).1.Outward := by
  cases held : tree.entity? target with
  | none =>
    rw [applyEvidence_vacant tree held]
    exact outward
  | some entity =>
    rw [applyEvidence_held tree held]
    exact outward.setEntity (evidence.outward_absorb (outward target entity held) tree)

theorem enterBlock (outward : tree.Outward) (parent : ScopeId) (kind : BlockKind) (index : Nat) :
    (Discovery.enterBlock tree parent kind index).1.Outward := by
  have made := outward.internChild parent (blockName kind index) .block
  rw [enterBlock_eq]
  dsimp only
  split
  next => exact made
  next => exact made.place _ _

theorem defineLocal (outward : tree.Outward) (scope : ScopeId) (name : String) (range : Range) :
    (Discovery.defineLocal tree scope name range).1.Outward := by
  have made := outward.internChild scope name .value
  rw [defineLocal_eq]
  dsimp only
  split
  next => exact made
  next => exact (made.place _ _).mapLocals scope _

theorem assignField (outward : tree.Outward) (frame : Frame) (name : String) (evidence : Evidence)
    (range : Range) :
    (Discovery.assignField tree frame name evidence range).1.Outward := by
  cases nearest : tree.nearestClass frame.scope with
  | none =>
    rw [assignField_outside tree nearest]
    exact outward
  | some owner =>
    have made := outward.internField owner name
    rw [assignField_eq tree nearest]
    exact ((made.occupy _ name range).modifyClass owner _).applyEvidence _ evidence

theorem assignMember (outward : tree.Outward) (frame : Frame) (base name : String) (evidence : Evidence)
    (range : Range) :
    (Discovery.assignMember tree frame base name evidence range).1.Outward := by
  have based : (baseScope tree frame.scope base).1.Outward := by
    rw [baseScope_eq]
    split
    next => exact outward
    next => exact outward.internChild frame.scope base .table
  have member : ∀ parent, (memberScope (baseScope tree frame.scope base).1 parent name range).1.Outward := by
    intro parent
    unfold memberScope
    dsimp only
    generalize (if ((baseScope tree frame.scope base).1.classAt? parent).isSome then ValueType.value
      else .field) = valueType
    have made := based.internChild parent name valueType
    split
    next => exact made
    next => exact (made.place _ _).mapLocals parent _
  rw [assignMember_eq]
  dsimp only
  split
  next => exact (member _).applyEvidence _ evidence
  next => exact member _

theorem assign {state : State} (outward : state.tree.Outward) (frame : Frame) (target : Expr)
    (evidence : Evidence) (range : Range) :
    (Discovery.assign state frame target evidence range).1.tree.Outward := by
  unfold Discovery.assign
  split
  next name _ =>
    unfold assignName
    split
    next => exact (outward.defineLocal frame.scope name range).applyEvidence _ evidence
    next id _ =>
      split
      next => exact outward.applyEvidence id evidence
      next =>
        rw [State.tree_warn]
        exact outward
  next object name _ =>
    split
    next base _ =>
      dsimp only
      split
      next => exact outward.assignField frame name evidence range
      next => exact outward.assignMember frame base name evidence range
    next =>
      dsimp only
      rw [State.tree_warn]
      exact outward
  next =>
    rw [State.tree_warn]
    exact outward

theorem site (config : DiscoveryConfig) {state : State} (outward : state.tree.Outward) (frame : Frame)
    (site : Site) :
    (site.run config frame state).1.tree.Outward := by
  unfold Site.run
  split
  next scope _ =>
    cases site.action with
    | block kind index => exact outward.enterBlock scope kind index
    | local_ name value => exact (outward.defineLocal scope name site.range).applyEvidence _ _
    | target expr value => exact outward.assign _ expr _ site.range
    | return_ values =>
      simp only [Action.run]
      split
      next => exact outward
      next => exact outward.applyEvidence _ _
  next => exact outward

theorem runTours (config : DiscoveryConfig) {state : State} (outward : state.tree.Outward)
    (tours : List Tour) :
    (Discovery.runTours config tours state).1.tree.Outward :=
  runEach_keeps (fun state : State => state.tree.Outward) (fun tour _ _ held =>
    runEach_keeps (fun state : State => state.tree.Outward)
      (fun step _ _ kept => site config kept (Tour.frame tour) step) held) outward

/-! ### Sweeps -/

theorem propagateInto (outward : tree.Outward) (owner : ScopeId) :
    (Discovery.propagateInto tree owner).1.Outward := by
  cases held : tree.entity? owner with
  | none =>
    rw [propagateInto_vacant tree held]
    exact outward
  | some entity =>
    rw [propagateInto_held tree held]
    apply outward.setEntity
    intro member
    obtain ⟨entry, listed, same⟩ := List.mem_map.1 member
    obtain ⟨before, present, rfl⟩ := List.mem_map.1 listed
    refine settle_ne_self (fun self => outward owner entity held ?_) same
    rw [← self]
    exact List.mem_map_of_mem present

theorem propagate (outward : tree.Outward) : (Discovery.propagate tree).1.Outward := by
  rw [propagate_eq]
  exact runEach_keeps Outward (fun owner _ _ kept => kept.propagateInto owner) outward

theorem sweep (config : DiscoveryConfig) {state : State} (formed : state.Formed)
    (outward : state.tree.Outward) :
    (Discovery.sweep config state).1.tree.Outward := by
  rw [sweep_eq config formed]
  exact (outward.runTours config (tours config state)).propagate

/-! ### The entry of classes and members -/

theorem declareParams (outward : tree.Outward) (owner : ScopeId) (names : List String) :
    (Discovery.declareParams owner names tree).1.Outward := by
  induction names generalizing tree with
  | nil => exact outward
  | cons name rest ih => exact ih ((outward.internChild owner name .value).place _ _)

theorem placeFunction (outward : tree.Outward) (id : ScopeId) (name : String) (kind : FunctionKind)
    (body : FunctionBody) :
    (Discovery.placeFunction tree id name kind body).Outward :=
  (outward.declareParams id body.params).place id _

theorem vacate (state : State) (outward : state.tree.Outward) (id : ScopeId) (message : String)
    (range : Range) :
    (state.vacate id message range).tree.Outward := by
  unfold State.vacate
  split
  next => exact outward.clearDescendants id
  next => exact outward

theorem placeClass (outward : tree.Outward) (id : ScopeId) (name : String) (superclass : Option String) :
    (Discovery.placeClass tree id name superclass).Outward :=
  ((outward.internChild id "constructor" .function).place _ _).place id _

theorem declareStep {config : DiscoveryConfig} {program : Program} {before after : State}
    (step : DeclareStep config program before after) (outward : before.tree.Outward) :
    after.tree.Outward := by
  cases step with
  | @class_ name base range state named =>
    have made := outward.internChild ScopeTree.root name .class_
    have vacated := vacate (before.withTree _) made (before.tree.internChild ScopeTree.root name .class_).2
      s!"class `{name}` redefined" range
    rw [declareClass_eq]
    dsimp only
    unfold State.resetBodies
    split
    next => exact (vacated.placeClass _ name _).withGlobals _
    next => exact (vacated.placeClass _ name _).withGlobals _
  | skip message range =>
    rw [State.tree_warn]
    exact outward
  | link id =>
    show (linkClass before.tree id).Outward
    unfold linkClass
    split
    next => exact outward
    next =>
      split
      next => exact outward
      next => exact outward.modifyClass id _

theorem indexStep {config : DiscoveryConfig} {program : Program} {before after : State}
    (step : IndexStep config program before after) (outward : before.tree.Outward) : after.tree.Outward := by
  cases step with
  | @function name body range state named within free =>
    have made := outward.internChild ScopeTree.root name .function
    have vacated := vacate (before.withTree _) made (before.tree.internChild ScopeTree.root name .function).2
      s!"global function `{name}` redefined" range
    rw [declareGlobalFunction_eq]
    exact (vacated.placeFunction _ name .global body).withGlobals _
  | @table name state named free =>
    have made := outward.internChild ScopeTree.root name .table
    show (declareGlobalTable name before.tree).Outward
    unfold declareGlobalTable
    dsimp only
    split
    next => exact made.withGlobals _
    next => exact (made.place _ _).withGlobals _
  | @value name value range state named free =>
    have made := outward.defineLocal ScopeTree.root name range
    show (declareGlobalValue config name value range before.tree).Outward
    unfold declareGlobalValue
    dsimp only
    split
    next => exact (made.applyEvidence _ _).withGlobals _
    next => exact made
  | member value range owned named table => exact outward.assignMember _ _ _ _ range

theorem placeFields {state : State} (outward : state.tree.Outward) (owner : ScopeId)
    (fields : List (String × LuaType × Range)) (seen : List String) :
    (Discovery.placeFields owner fields seen state).tree.Outward := by
  induction fields generalizing seen state with
  | nil => exact outward
  | cons field rest ih =>
    obtain ⟨name, type, range⟩ := field
    have warned : ∀ kept : State, kept.tree = state.tree →
        (placeField owner range kept.tree name type).Outward := by
      intro kept same
      rw [same]
      exact ((outward.internField owner name).place _ _).modifyClass owner _
    rw [Discovery.placeFields]
    apply ih
    apply warned
    split
    next => exact State.tree_warn state _ _ _
    next => rfl

theorem dropConstructor (outward : tree.Outward) (owner constructor : ScopeId) :
    (Discovery.dropConstructor owner constructor tree).Outward := by
  have cleared := outward.clearDescendants constructor
  unfold Discovery.dropConstructor
  dsimp only
  split
  next => exact (cleared.clearDescendants _).modifyClass owner _
  next => exact cleared.modifyClass owner _

theorem defineConstructor {state : State} (outward : state.tree.Outward) (owner : ScopeId)
    (ownerName : String) (body : FunctionBody) (range : Range) :
    (Discovery.defineConstructor owner ownerName body range state).tree.Outward := by
  cases held : state.tree.classAt? owner with
  | none =>
    rw [defineConstructor_outside held]
    exact outward
  | some owned =>
    have vacated : (vacateConstructor owner owned.constructor ownerName range state).tree.Outward := by
      unfold vacateConstructor
      split
      next => exact outward.dropConstructor owner owned.constructor
      next => exact outward
    have placed := (vacated.declareParams owned.constructor body.params).place
      owned.constructor (.constructor {
      params := (Discovery.declareParams owned.constructor body.params
        (vacateConstructor owner owned.constructor ownerName range state).tree).2
      vararg := body.vararg, values := .empty, selfAlias := selfAlias? body.body })
    rw [defineConstructor_eq held]
    dsimp only
    split
    next => exact placeFields placed owner _ []
    next =>
      rw [State.tree_warn]
      exact placed

theorem defineValue (outward : tree.Outward) (config : DiscoveryConfig) (owner : ScopeId) (name : String)
    (value : Option Expr) (range : Range) :
    (Discovery.defineValue config owner name value range tree).Outward := by
  have made := outward.internChild owner name .value
  rw [defineValue_eq]
  dsimp only
  suffices placed : (placeValue owner name range (tree.internChild owner name .value).1
      (tree.internChild owner name .value).2).Outward from
    applyValue_cases config owner value placed fun _ => placed.applyEvidence _ _
  unfold placeValue
  split
  next => exact made
  next => exact (made.place _ _).modifyClass owner _

theorem defineStep {config : DiscoveryConfig} {program : Program} {owner : ScopeId} {ownerName : String}
    {before after : State} (step : DefineStep config program owner ownerName before after)
    (outward : before.tree.Outward) : after.tree.Outward := by
  cases step with
  | constructor range state within => exact defineConstructor outward owner ownerName _ range
  | @function name indexer body range state named within written other =>
    have made := outward.internChild owner name .function
    have vacated := vacate (before.withTree _) made (before.tree.internChild owner name .function).2
      (redefined (before.tree.internChild owner name .function).1 owner indexer name) range
    rw [defineFunction_eq]
    exact (vacated.placeFunction _ name _ body).modifyClass owner _
  | value value range state named => exact outward.defineValue config owner _ value range

end ScopeTree.Outward

namespace Discovery
open ScopeTree Relation

variable (config : DiscoveryConfig) (program : Program)

private theorem outward_steps {step : State → State → Prop}
    (each : ∀ {before after}, step before after → before.tree.Outward → after.tree.Outward)
    {before after : State} (steps : ReflTransGen step before after) (outward : before.tree.Outward) :
    after.tree.Outward := by
  induction steps with
  | refl => exact outward
  | tail _ last ih => exact each last ih

private theorem outward_initial : (State.initial config).tree.Outward := by
  intro id entity held
  rw [State.initial, entity?_new] at held
  cases held

theorem outward_defined : (defined config program).tree.Outward := by
  have classes := outward_steps Outward.declareStep (declared_steps config program) (outward_initial config)
  have outward := outward_steps Outward.indexStep (indexed_steps config program) classes
  unfold defined
  generalize (indexed config program).classes.map ClassBodies.owner = owners
  generalize indexed config program = state at outward ⊢
  induction owners generalizing state with
  | nil => exact outward
  | cons owner rest ih =>
    apply ih
    cases found : state.tree.classAt? owner with
    | none =>
      rw [defineMembers_outside config program found]
      exact outward
    | some held => exact outward_steps Outward.defineStep (defineMembers_steps config program found) outward

end Discovery
end LuaClasses
