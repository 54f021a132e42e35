import LuaClasses.Proofs.Enlistment

/-! The lineage of classes: their names, the superclasses that they derive from and the links to those.
It is settled once the classes are declared, since whatever comes later makes no class and leaves the
lineage of those that stay. -/

namespace LuaClasses

/-- What a class is called and what it derives from. -/
def Class.lineage (owner : Class) : String × Option String × Option ScopeId :=
  (owner.name, owner.superclass, owner.superclassLink)

def Entity.lineage? (entity : Entity) : Option (String × Option String × Option ScopeId) :=
  entity.asClass?.map Class.lineage

theorem Entity.Grows.lineage? {before after : Entity} (grows : before.Grows after) :
    after.lineage? = before.lineage? := by
  have unchanged : ∀ kind : EntityKind, Entity.lineage? ⟨.empty, kind.outline⟩ =
      Entity.lineage? ⟨.empty, kind⟩ := by
    intro kind
    cases kind <;> rfl
  have same := unchanged after.kind
  rw [grows.outline, unchanged before.kind] at same
  exact same.symm

namespace ScopeTree

/-- The lineage of the class on a scope, if it holds one. -/
def lineage? (tree : ScopeTree) (id : ScopeId) : Option (String × Option String × Option ScopeId) :=
  (tree.entity? id).bind Entity.lineage?

/-- A change that brings in no class, neither on a scope nor among the names, and leaves the lineage of
the classes that stay. -/
structure Lineal (before after : ScopeTree) : Prop where
  lineage : ∀ {id line}, after.lineage? id = some line → before.lineage? id = some line
  classes : after.globals.classes = before.globals.classes

variable {tree before after : ScopeTree}

private theorem lineage?_eq (tree : ScopeTree) (id : ScopeId) :
    tree.lineage? id = (tree.classAt? id).map Class.lineage := by
  rw [lineage?, classAt?, Option.map_bind]
  rfl

theorem Lineal.refl (tree : ScopeTree) : tree.Lineal tree := ⟨fun held => held, rfl⟩

theorem Lineal.trans {first second third : ScopeTree} (one : first.Lineal second)
    (two : second.Lineal third) : first.Lineal third :=
  ⟨fun held => one.lineage (two.lineage held), two.classes.trans one.classes⟩

/-- Of a class that stays there was one of the same lineage. -/
theorem Lineal.classAt? (lineal : before.Lineal after) {id : ScopeId} {owner : Class}
    (held : after.classAt? id = some owner) :
    ∃ earlier, before.classAt? id = some earlier ∧ earlier.lineage = owner.lineage := by
  have line : after.lineage? id = some owner.lineage := by rw [lineage?_eq, held, Option.map_some]
  rw [← Option.map_eq_some_iff, ← lineage?_eq]
  exact lineal.lineage line

theorem Grows.lineal (grows : before.Grows after) : before.Lineal after where
  lineage := by
    intro id line held
    obtain ⟨later, found, derived⟩ := Option.bind_eq_some_iff.1 held
    cases old : before.entity? id with
    | none =>
      -- What a walk places is no class.
      have placed := grows.placed id later old found
      obtain ⟨references, kind⟩ := later
      cases kind with
      | class_ _ => cases placed
      | _ => cases derived
    | some entity =>
      obtain ⟨same, reached, grown⟩ := grows.entity? old
      cases found.symm.trans reached
      rw [lineage?, old, Option.bind_some, ← grown.lineage?]
      exact derived
  classes := congrArg Globals.classes grows.globals

theorem lineal_internChild (tree : ScopeTree) (parent : ScopeId) (name : String) (valueType : ValueType) :
    tree.Lineal (tree.internChild parent name valueType).1 :=
  (grows_internChild tree parent name valueType).lineal

private theorem lineal_setEntity (tree : ScopeTree) (id : ScopeId) {entity : Entity}
    (same : ∀ line, entity.lineage? = some line → tree.lineage? id = some line) :
    tree.Lineal (tree.setEntity id entity) where
  lineage := by
    intro other line held
    obtain ⟨later, found, derived⟩ := Option.bind_eq_some_iff.1 held
    rw [entity?_setEntity] at found
    split at found
    next equal =>
      obtain ⟨_, _, rfl⟩ := Option.map_eq_some_iff.1 found
      rw [equal]
      exact same line derived
    next => exact Option.bind_eq_some_iff.2 ⟨later, found, derived⟩
  classes := by rw [globals_setEntity]

theorem lineal_setEntity_classless (tree : ScopeTree) (id : ScopeId) {entity : Entity}
    (classless : entity.lineage? = none) :
    tree.Lineal (tree.setEntity id entity) :=
  tree.lineal_setEntity id fun line derived => by rw [classless] at derived; cases derived

private theorem lineal_modifyEntity (tree : ScopeTree) (id : ScopeId) {f : Entity → Entity}
    (same : ∀ entity, (f entity).lineage? = entity.lineage?) : tree.Lineal (tree.modifyEntity id f) where
  lineage := by
    intro other line held
    rw [lineage?, entity?_modifyEntity] at held
    split at held
    next equal =>
      subst equal
      rw [Option.bind_map] at held
      exact (Option.bind_congr fun entity _ => same entity).symm.trans held
    next => exact held
  classes := by rw [globals_modifyEntity]

private theorem lineal_modifyClass (tree : ScopeTree) (id : ScopeId) {f : Class → Class}
    (same : ∀ owner, (f owner).lineage = owner.lineage) :
    tree.Lineal (tree.modifyClass id f) := by
  refine tree.lineal_modifyEntity id fun entity => ?_
  obtain ⟨references, kind⟩ := entity
  cases kind with
  | class_ owner => exact congrArg some (same owner)
  | _ => rfl

private theorem lineal_clearDescendants (tree : ScopeTree) (id : ScopeId) :
    tree.Lineal (tree.clearDescendants id) where
  lineage := by
    intro other line held
    obtain ⟨entity, found, derived⟩ := Option.bind_eq_some_iff.1 held
    exact Option.bind_eq_some_iff.2 ⟨entity, tree.entity?_of_clearDescendants found, derived⟩
  classes := by rw [Discovery.globals_clearDescendants]

private theorem lineal_withGlobals {globals : Globals} (same : globals.classes = tree.globals.classes) :
    tree.Lineal { tree with globals } :=
  ⟨fun held => held, same⟩

end ScopeTree

namespace Discovery
open ScopeTree Relation

variable {config : DiscoveryConfig} {program : Program}

/-! ### The writes of the entry -/

private theorem lineal_applyEvidence (tree : ScopeTree) (target : ScopeId) (evidence : Evidence) :
    tree.Lineal (applyEvidence tree target evidence).1 := by
  cases held : tree.entity? target with
  | none => rw [applyEvidence_vacant tree held]; exact .refl _
  | some entity =>
    rw [applyEvidence_held tree held]
    refine lineal_setEntity _ _ fun line derived => ?_
    rw [lineage?, held, Option.bind_some, ← (evidence.grows_absorb tree target entity).lineage?]
    exact derived

theorem lineal_vacate (state : State) (id : ScopeId) (message : String) (range : Range) :
    state.tree.Lineal (state.vacate id message range).tree := by
  unfold State.vacate
  split
  next => exact lineal_clearDescendants _ _
  next => exact .refl _

private theorem lineal_declareParams (owner : ScopeId) (names : List String) (tree : ScopeTree) :
    tree.Lineal (declareParams owner names tree).1 := by
  induction names generalizing tree with
  | nil => exact .refl tree
  | cons name rest ih =>
    exact ((lineal_internChild _ _ _ _).trans (lineal_setEntity_classless _ _ rfl)).trans (ih _)

private theorem lineal_placeFunction (tree : ScopeTree) (id : ScopeId) (name : String)
    (kind : FunctionKind) (body : FunctionBody) :
    tree.Lineal (placeFunction tree id name kind body) :=
  (lineal_declareParams id body.params tree).trans (lineal_setEntity_classless _ _ rfl)

/-- Function, parameters and all, in place of what its name stood for. -/
theorem lineal_replace (state : State) (parent : ScopeId) (name : String) (message : String)
    (range : Range) (kind : FunctionKind) (body : FunctionBody) :
    let made := state.tree.internChild parent name .function
    state.tree.Lineal (placeFunction ((state.withTree made.1).vacate made.2 message range).tree
      made.2 name kind body) := by
  intro made
  have vacated := lineal_vacate (state.withTree made.1) made.2 message range
  exact ((lineal_internChild state.tree parent name .function).trans vacated).trans
    (lineal_placeFunction _ _ _ _ _)

private theorem lineal_indexStep {before after : State} (step : IndexStep config program before after)
    (formed : before.Formed) :
    before.tree.Lineal after.tree := by
  cases step with
  | @function name body range state named within free =>
    rw [declareGlobalFunction_eq]
    dsimp only
    exact (lineal_replace before root name s!"global function `{name}` redefined" range
      .global body).trans (lineal_withGlobals rfl)
  | @table name state named free =>
    rw [State.withTree, declareGlobalTable]
    dsimp only
    refine (lineal_internChild before.tree root name .table).trans (.trans ?_ (lineal_withGlobals rfl))
    split
    next => exact .refl _
    next => exact lineal_setEntity_classless _ _ rfl
  | @value name value range state named free =>
    obtain ⟨_, grows⟩ := advances_defineLocal before.tree formed.tree.root_lt name range formed.tree
    rw [State.withTree, declareGlobalValue]
    dsimp only
    split
    next =>
      exact (grows.lineal.trans (lineal_applyEvidence _ _ _)).trans (lineal_withGlobals rfl)
    next => exact grows.lineal
  | @member base name value range state owned named table =>
    have inside : (Frame.at_ root).scope.index < before.tree.size := formed.tree.root_lt
    exact (advances_assignMember before.tree (.at_ root) inside base name
      (classifyValue config before.tree (.at_ root) value) range
      formed.tree).2.lineal

/-! ### The members of a class -/

section Define

variable {owner : ScopeId} {ownerName : String}

private theorem lineal_placeField (owner : ScopeId) (range : Range) (tree : ScopeTree) (name : String)
    (type : LuaType) :
    tree.Lineal (placeField owner range tree name type) := by
  rw [placeField, internField]
  exact (((lineal_internChild _ _ _ _).trans (lineal_internChild _ _ _ _)).trans
    (lineal_setEntity_classless _ _ rfl)).trans
    (lineal_modifyClass _ _ fun _ => rfl)

private theorem lineal_placeFields (fields : List (String × LuaType × Range)) (seen : List String)
    (state : State) :
    state.tree.Lineal (placeFields owner fields seen state).tree := by
  induction fields generalizing seen state with
  | nil => exact .refl _
  | cons field rest ih =>
    obtain ⟨name, type, range⟩ := field
    rw [placeFields]
    refine .trans ?_ (ih _ _)
    split
    next =>
      have placed := lineal_placeField owner range
        (state.warn .duplicateDefinition s!"field `{name}` redefined" (some range)).tree name type
      rw [State.tree_warn] at placed
      simp only [State.withTree, State.tree_warn]
      exact placed
    next => exact lineal_placeField owner range state.tree name type

private theorem lineal_dropConstructor (owner constructor : ScopeId) (tree : ScopeTree) :
    tree.Lineal (dropConstructor owner constructor tree) := by
  rw [dropConstructor]
  refine (lineal_clearDescendants tree constructor).trans (.trans ?_ (lineal_modifyClass _ _ fun _ => rfl))
  split
  next => exact lineal_clearDescendants _ _
  next => exact .refl _

private theorem lineal_defineConstructor (body : FunctionBody) (range : Range) (state : State) :
    state.tree.Lineal (defineConstructor owner ownerName body range state).tree := by
  cases found : state.tree.classAt? owner with
  | none => rw [defineConstructor_outside found]; exact .refl _
  | some held =>
    rw [defineConstructor_eq found]
    dsimp only
    have vacated : state.tree.Lineal (vacateConstructor owner held.constructor
        ownerName range state).tree := by
      unfold vacateConstructor
      split
      next => exact lineal_dropConstructor owner held.constructor state.tree
      next => exact .refl _
    generalize vacateConstructor owner held.constructor ownerName range state = cleared at vacated ⊢
    have params := lineal_declareParams held.constructor body.params cleared.tree
    have placed : cleared.tree.Lineal (placeConstructor owner held.constructor body cleared).tree :=
      params.trans (lineal_setEntity_classless _ _ rfl)
    split
    next => exact (vacated.trans placed).trans (lineal_placeFields _ _ _)
    next => rw [State.tree_warn]; exact vacated.trans placed

private theorem lineal_defineStep {before after : State}
    (step : DefineStep config program owner ownerName before after) :
    before.tree.Lineal after.tree := by
  cases step with
  | constructor range state within => exact lineal_defineConstructor _ range before
  | @function name indexer body range state named within written other =>
    rw [defineFunction_eq]
    dsimp only
    refine (lineal_replace before owner name _ range (FunctionKind.ofIndexer indexer) body).trans
      (lineal_modifyClass _ _ fun held => ?_)
    cases indexer <;> rfl
  | @value name value range state named =>
    rw [State.withTree, defineValue_eq]
    dsimp only
    have placed : ∀ tree id, ScopeTree.Lineal tree (placeValue owner name range tree id) := by
      intro tree id
      unfold placeValue
      split
      next => exact .refl _
      next => exact (lineal_setEntity_classless _ _ rfl).trans (lineal_modifyClass _ _ fun _ => rfl)
    have made := lineal_internChild before.tree owner name .value
    generalize before.tree.internChild owner name .value = below at made ⊢
    have applied := applyValue_cases config owner value (.refl _)
      (lineal_applyEvidence (placeValue owner name range below.1 below.2) below.2)
    exact made.trans ((placed below.1 below.2).trans applied)

end Define

private theorem lineal_defineSteps {owner : ScopeId} {ownerName : String} {before after : State}
    (steps : ReflTransGen (DefineStep config program owner ownerName) before after) :
    before.tree.Lineal after.tree := by
  induction steps with
  | refl => exact .refl _
  | tail _ last ih => exact ih.trans (lineal_defineStep last)

theorem lineal_indexed (config : DiscoveryConfig) (program : Program) :
    (declared config program).tree.Lineal (indexed config program).tree := by
  have steps := indexed_steps config program
  generalize indexed config program = last at steps
  induction steps with
  | refl => exact .refl _
  | tail before step ih =>
    exact ih.trans (lineal_indexStep step
      (revises_steps revises_indexStep before (formed_declared config program)).1)

theorem lineal_defined (config : DiscoveryConfig) (program : Program) :
    (indexed config program).tree.Lineal (defined config program).tree := by
  suffices ∀ (owners : List ScopeId) (state : State),
    state.tree.Lineal (owners.foldl (defineMembers config program) state).tree from
    this _ _
  intro owners
  induction owners with
  | nil => exact fun state => .refl _
  | cons owner rest ih =>
    refine fun state => .trans ?_ (ih _)
    cases found : state.tree.classAt? owner with
    | none => rw [defineMembers_outside config program found]; exact .refl _
    | some held => exact lineal_defineSteps (defineMembers_steps config program found)

/-- When a discovery ends, its classes have the lineage that they were declared with. -/
theorem lineal_discover (config : DiscoveryConfig) (program : Program) :
    (declared config program).tree.Lineal (discover program config).tree :=
  ((lineal_indexed config program).trans (lineal_defined config program)).trans
  (grows_discover config program).1.lineal

end Discovery
end LuaClasses
