import LuaClasses.Proofs.BlankClasses

/-! What the entry of members leads to, step by step. After some definitions each class holds the bodies
of the last of each name, and the fields of the last constructor that have literals. -/

namespace LuaClasses.Discovery
open ScopeTree

/-- The fields that the literals of a constructor give, if there is a constructor. -/
def literalsOf (definition : Option (Indexer × FunctionBody)) : List (String × LuaType × Range) :=
  (definition.map fun given => FunctionBody.literals given.2).getD []

/-- The body of a definition that is made with an indexer. -/
def bodyOf? (indexer : Indexer) (definition : Option (Indexer × FunctionBody)) : Option FunctionBody :=
  definition.bind fun given => if given.1 = indexer then some given.2 else none

/-- The functions or the methods of a class, with their bodies. -/
def ClassBodies.listed (bodies : ClassBodies) : Indexer → OrderedMap (ScopeId × FunctionBody)
  | .dot => bodies.functions
  | .colon => bodies.methods

/-- The name that a definition binds in the class. -/
def MemberStep.bound : MemberStep → String
  | .function _ name _ _ => name
  | .value name _ _ => name

/-- What a class is like once some definitions of its members are entered. -/
structure ClassEntered (config : DiscoveryConfig) (done : List MemberStep)
    (tree : ScopeTree) (owner : ScopeId)
    (held : Class) : Prop where
  fields : ∀ name, held.fields.contains name = true →
    ∃ type range, (name, type, range) ∈ literalsOf (lastDefinition? done config.constructorName)
  sown : (∀ step ∈ done, step.bound ≠ fieldsName) →
    Sown tree owner held.fields (literalsOf (lastDefinition? done config.constructorName))
  selfAlias : held.Regular → ∀ indexer body,
    lastDefinition? done config.constructorName = some (indexer, body) →
    selfAliasAt? tree held.constructor = selfAlias? body.body

/-- What the bodies of a class are once some definitions of its members are entered. -/
structure ClassBodies.Entered (config : DiscoveryConfig) (done : List MemberStep)
    (tree : ScopeTree) (bodies : ClassBodies) :
    Prop where
  constructor : bodies.constructor = (lastDefinition? done config.constructorName).map Prod.snd
  members : ∀ indexer name, ((bodies.listed indexer).get? name).map Prod.snd =
    if name = config.constructorName then none else bodyOf? indexer (lastDefinition? done name)
  housed : bodies.Housed tree
  node : tree.ClassNode bodies.owner
  held : ∀ held, tree.classAt? bodies.owner = some held → ClassEntered config done tree bodies.owner held

/-- All classes, each with the definitions that are entered into it. -/
structure Roster (config : DiscoveryConfig) (done : ScopeId → List MemberStep) (state : State) : Prop where
  formed : state.Formed
  level : state.tree.Level
  distinct : state.owners.Nodup
  entered : ∀ bodies ∈ state.classes, bodies.Entered config (done bodies.owner) state.tree

variable {config : DiscoveryConfig}

private theorem eq_empty_of_contains {α : Type} {map : OrderedMap α}
    (bare : ∀ name, ¬map.contains name = true) : map = .empty := by
  refine OrderedMap.ext (List.eq_nil_iff_forall_not_mem.2 fun entry member => bare entry.1 ?_)
  rw [← OrderedMap.mem_keys_iff_contains]
  exact List.mem_map_of_mem member

theorem Sown.carry {before after : ScopeTree} {owner : ScopeId} {fields : Members}
    {literals : List (String × LuaType × Range)} (sown : Sown before owner fields literals)
    (stays : before.Stays after)
    (kept : ∀ {name id}, before.FieldAt owner name id → after.entity? id = before.entity? id) :
    Sown after owner fields literals := by
  intro name id listed
  obtain ⟨there, type, range, member, entity⟩ := sown name id listed
  refine ⟨?_, type, range, member, (kept there).trans entity⟩
  obtain ⟨outer, first, second⟩ := there
  exact ⟨outer, stays.child? first, stays.child? second⟩

/-! ### Steps of other classes -/

/-- What a step of one class does to the others: their entities and bodies stay. -/
structure Spared (owner : ScopeId) (before after : State) : Prop where
  formed : after.Formed
  confined : Confined owner before.tree after.tree
  bodies : ∃ f : ClassBodies → ClassBodies, (∀ bodies, (f bodies).owner = bodies.owner) ∧
    after.classes = before.classes.map fun bodies => if bodies.owner = owner then f bodies else bodies

namespace Spared

variable {owner : ScopeId} {before after : State} (spared : Spared owner before after)
include spared

theorem owners : after.owners = before.owners := by
  obtain ⟨f, same, classes⟩ := spared.bodies
  rw [State.owners, classes, List.map_map]
  refine List.map_congr_left fun bodies _ => ?_
  rw [Function.comp_apply]
  split
  next => exact same bodies
  next => rfl

/-- Of another class all entities stay, on it and below it. -/
theorem kept (level : before.tree.Level) {other id : ScopeId} (node : before.tree.ClassNode owner)
    (another : before.tree.ClassNode other) (apart : other ≠ owner)
    (below : other ∈ before.tree.ancestors id) :
    after.tree.entity? id = before.tree.entity? id := by
  have stays := spared.confined.stays
  have last := spared.confined.level level
  exact spared.confined.apart spared.formed.tree ((node.stays stays).top last)
    ((another.stays stays).top last) apart
    (stays.mem_ancestors below)

theorem entered {bodies : ClassBodies} {done : List MemberStep} (formed : before.Formed)
    (level : before.tree.Level) (node : before.tree.ClassNode owner) (apart : bodies.owner ≠ owner)
    (entered : bodies.Entered config done before.tree) :
    bodies.Entered config done after.tree := by
  have stays := spared.confined.stays
  have around : ∀ {id : ScopeId}, before.tree.parent? id = some bodies.owner →
      bodies.owner ∈ before.tree.ancestors id :=
    fun above => by
      rw [ancestors_of_parent? formed.tree above]
      exact List.mem_cons_of_mem _ (self_mem_ancestors _ _)
  have kept : ∀ {id : ScopeId}, bodies.owner ∈ before.tree.ancestors id → after.tree.entity? id =
      before.tree.entity? id :=
    fun below => spared.kept level node entered.node apart below
  have same := kept (self_mem_ancestors before.tree bodies.owner)
  refine ⟨entered.constructor, entered.members,
    fun entry member => stays.child? (entered.housed entry member),
    entered.node.stays stays, fun held found => ?_⟩
  rw [classAt?, same, ← classAt?] at found
  have old := entered.held held found
  refine ⟨old.fields, fun apart => (old.sown apart).carry stays fun {name id} there => kept ?_,
    fun regular indexer body last => ?_⟩
  · obtain ⟨outer, first, second⟩ := there
    rw [ancestors_of_parent? formed.tree (formed.tree.parent?_of_child second)]
    exact List.mem_cons_of_mem _ (around (formed.tree.parent?_of_child first))
  · rw [selfAliasAt?, kept (around (formed.tree.parent?_of_child
      (formed.tree.child?_constructor level.dotless found)))]
    exact old.selfAlias regular indexer body last

end Spared

/-! ### Steps of the class itself -/

section Steps

variable {state : State} {owner : ScopeId} {held : Class} {done : List MemberStep}

/-- A step of one class that enters one more definition into its bodies. -/
structure Enters (config : DiscoveryConfig) (owner : ScopeId) (done all : List MemberStep)
    (before after : State) : Prop where
  formed : after.Formed
  confined : Confined owner before.tree after.tree
  name : (after.tree.classAt? owner).map Class.name = (before.tree.classAt? owner).map Class.name
  bodies : ∃ f : ClassBodies → ClassBodies, (∀ bodies, (f bodies).owner = bodies.owner) ∧
    (after.classes = before.classes.map fun bodies => if bodies.owner = owner then f bodies else bodies) ∧
    ∀ bodies : ClassBodies, bodies.owner = owner → bodies.Entered config done before.tree →
      (f bodies).Entered config all after.tree

theorem Enters.spared {all : List MemberStep} {after : State}
    (enters : Enters config owner done all state after) :
    Spared owner state after := by
  obtain ⟨f, same, classes, _⟩ := enters.bodies
  exact ⟨enters.formed, enters.confined, f, same, classes⟩

theorem index_lt_of_classAt? (found : state.tree.classAt? owner = some held) :
    owner.index < state.tree.size := by
  obtain ⟨references, entity⟩ := classAt?_eq_some found
  exact index_lt_of_entity? entity

theorem exists_bodies? (listed : owner ∈ state.owners) :
    ∃ bodies ∈ state.classes, state.bodies? owner = some bodies ∧ bodies.owner = owner := by
  obtain ⟨first, member, same⟩ := List.mem_map.1 listed
  have known : (state.bodies? owner).isSome = true := List.find?_isSome.2 ⟨first, member, decide_eq_true same⟩
  obtain ⟨bodies, found⟩ := Option.isSome_iff_exists.1 known
  have own := List.find?_some found
  exact ⟨bodies, List.mem_of_find?_eq_some found, found, of_decide_eq_true own⟩

/-- A class whose constructor is still to come has no fields. -/
theorem fields_eq_empty (listed : owner ∈ state.owners)
    (all : ∀ bodies ∈ state.classes, bodies.owner = owner → bodies.Entered config done state.tree)
    (found : state.tree.classAt? owner = some held)
    (first : (state.bodies? owner).bind ClassBodies.constructor = none) :
    held.fields = .empty := by
  obtain ⟨bodies, member, same, own⟩ := exists_bodies? listed
  have entered := all bodies member own
  rw [same, Option.bind_some, entered.constructor, Option.map_eq_none_iff] at first
  refine eq_empty_of_contains fun name contained => ?_
  obtain ⟨type, range, literal⟩ := (entered.held held (own ▸ found)).fields name contained
  rw [first] at literal
  cases literal

private theorem enters_constructor (formed : state.Formed) (level : state.tree.Level)
    (listed : owner ∈ state.owners)
    (all : ∀ bodies ∈ state.classes, bodies.owner = owner → bodies.Entered config done state.tree)
    (found : state.tree.classAt? owner = some held) (indexer : Indexer) {body : FunctionBody}
    (plain : ∀ name ∈ bodyNames body, '.' ∉ name.toList) (range : Range) :
    Enters config owner done (done ++ [.function indexer config.constructorName body range]) state
      (defineConstructor owner held.name body range state) := by
  have bare := fields_eq_empty listed all found
  have last := revises_defineConstructor (index_lt_of_classAt? found) held.name body range formed
  obtain ⟨confined, ⟨fields, known, sown⟩, stands, classes⟩ :=
    defineConstructor_entered formed.tree level found bare held.name plain range
  have defined : lastDefinition? (done ++ [.function indexer config.constructorName body range])
    config.constructorName =
      some (indexer, body) := by
    rw [lastDefinition?_concat, MemberStep.definition?, if_pos rfl]
    rfl
  refine ⟨last.1, confined, by
    rw [known, found]; rfl, fun bodies => { bodies with constructor := some body }, fun _ => rfl,
    classes, fun bodies same entered => ⟨?_, ?_, ?_, ?_, ?_⟩⟩
  · rw [defined]
    rfl
  · intro kind name
    have same : ({ bodies with constructor := some body } : ClassBodies).listed
        kind = bodies.listed kind := by
      cases kind <;> rfl
    rw [same, entered.members, lastDefinition?_concat, MemberStep.definition?]
    by_cases equal : name = config.constructorName
    · rw [if_pos equal, if_pos equal]
    · rw [if_neg equal, if_neg equal, if_neg (Ne.symm equal), Option.none_or]
  · exact fun entry member => confined.stays.child? (entered.housed entry member)
  · exact entered.node.stays confined.stays
  · intro later reached
    rw [same, known] at reached
    cases reached
    refine ⟨fun name contained => ?_, fun _ => ?_, fun _ indexer' body' given => ?_⟩
    · obtain ⟨id, given⟩ := Option.isSome_iff_exists.1 (fields.contains_eq_isSome_get? name ▸ contained)
      obtain ⟨_, type, range, literal, _⟩ := sown name id given
      exact ⟨type, range, by rw [defined]; exact literal⟩
    · rw [defined, same]
      exact sown
    · rw [defined] at given
      cases given
      exact selfAliasAt?_of_stands stands

theorem get?_listed_enter (bodies : ClassBodies) (indexer kind : Indexer) (name : String) (id : ScopeId)
    (body : FunctionBody) (called : String) :
    ((bodies.enterFunction indexer name id body).listed kind).get? called =
      if called = name then if indexer = kind then some
        (id, body) else none else (bodies.listed kind).get? called := by
  have entered : ∀ map : OrderedMap (ScopeId × FunctionBody),
    ((map.erase name).insert name (id, body)).get? called =
      if called = name then some (id, body) else map.get? called := fun map => by
    rw [OrderedMap.get?_insert, OrderedMap.get?_erase]
    by_cases same : called = name
    · rw [if_pos same, if_pos same]
    · rw [if_neg same, if_neg same, if_neg same]
  cases indexer <;> cases kind
  · exact entered bodies.functions
  · exact OrderedMap.get?_erase bodies.methods name called
  · exact OrderedMap.get?_erase bodies.functions name called
  · exact entered bodies.methods

private theorem enters_function (formed : state.Formed) (level : state.tree.Level)
    (found : state.tree.classAt? owner = some held) {name : String} (plain : '.' ∉ name.toList)
    (other : name ≠ config.constructorName) (indexer : Indexer) {body : FunctionBody}
    (params : ∀ name ∈ body.params, '.' ∉ name.toList) (range : Range) :
    Enters config owner done (done ++ [.function indexer name body range]) state
      (defineFunction owner name indexer body range state) := by
  have inside := index_lt_of_classAt? found
  have last := (revises_defineFunction inside name indexer body range formed).1
  obtain ⟨placed, id, place, tree, classes⟩ := defineFunction_inPlace formed.tree level inside
    plain indexer params range
  have known : (defineFunction owner name indexer body range state).tree.classAt? owner =
      some (Class.enterFunction held indexer name id) := by
    rw [tree, classAt?_modifyClass_self, classAt?, place.owner_kept, ← classAt?, found]
    rfl
  have confined : Confined owner state.tree (defineFunction owner name indexer body range state).tree :=
    tree ▸ place.listed _
  have hangs : (defineFunction owner name indexer body range state).tree.child? owner name = some id := by
    rw [tree]
    exact ((sameShape_modifyEntity placed owner _).child? owner name).trans place.hangs
  have others : ∀ {scope : ScopeId}, scope ≠ owner →
      (defineFunction owner name indexer body range state).tree.entity? scope = placed.entity? scope :=
      fun apart => by
    rw [tree, modifyClass, entity?_modifyEntity, if_neg apart]
  have defined : ∀ called, lastDefinition? (done ++ [.function indexer name body range]) called =
      if called = name then some (indexer, body) else lastDefinition? done called := by
    intro called
    rw [lastDefinition?_concat, MemberStep.definition?]
    by_cases same : called = name
    · rw [if_pos same.symm, if_pos same]
      rfl
    · rw [if_neg (Ne.symm same), if_neg same]
      rfl
  have constructor : lastDefinition? (done ++ [.function indexer name body range]) config.constructorName =
      lastDefinition? done config.constructorName := (defined _).trans (if_neg (Ne.symm other))
  refine ⟨last, confined, ?_, fun bodies => bodies.enterFunction indexer name id body,
    fun bodies => by cases indexer <;> rfl,
    classes, fun bodies same entered => ⟨?_, ?_, ?_, ?_, ?_⟩⟩
  · rw [known, found]
    cases indexer <;> rfl
  · rw [constructor, ← entered.constructor]
    cases indexer <;> rfl
  · intro kind called
    rw [get?_listed_enter, defined]
    by_cases equal : called = name
    · subst equal
      rw [if_pos rfl, if_pos rfl, if_neg other]
      cases indexer <;> cases kind <;> rfl
    · rw [if_neg equal, if_neg equal, entered.members]
  · intro entry member
    have own : (bodies.enterFunction indexer name id body).owner = owner := by cases indexer <;> exact same
    rw [own]
    rcases mem_members_enterFunction member with rfl | former
    · exact hangs
    · exact confined.stays.child? (same ▸ entered.housed entry former)
  · have own : (bodies.enterFunction indexer name id body).owner = bodies.owner := by cases indexer <;> rfl
    exact own ▸ entered.node.stays confined.stays
  · intro later reached
    have own : (bodies.enterFunction indexer name id body).owner = owner := by cases indexer <;> exact same
    rw [own] at reached ⊢
    cases known.symm.trans reached
    have old := entered.held held (same ▸ found)
    rw [same] at old
    refine ⟨?_, fun apart => ?_, fun regular indexer' body' given => ?_⟩
    · rw [constructor, fields_enterFunction]
      exact old.fields
    · rw [constructor, fields_enterFunction]
      refine (old.sown fun step member => apart step (List.mem_append_left _ member)).carry
        confined.stays fun there => ?_
      have free := apart _ (List.mem_append_right _ (List.mem_singleton_self _))
      obtain ⟨away, outside⟩ := place.field_apart there free
      exact (others away).trans (place.confined.others outside)
    · obtain ⟨free, regular⟩ := regular_enterFunction.1 regular
      have above := formed.tree.child?_constructor level.dotless found
      have apart : held.constructor ≠ id := fun equal =>
        free (place.formed.child_unique place.hangs (equal ▸ place.confined.stays.child? above)).2
      have parent := formed.tree.parent?_of_child above
      have away : held.constructor ≠ owner := fun equal =>
        Nat.lt_irrefl _ (equal ▸ formed.tree.older parent)
      rw [constructor_enterFunction, selfAliasAt?, others away, place.sibling_kept parent apart]
      exact old.selfAlias regular indexer' body' (constructor ▸ given)

private theorem selfAliasAt?_applyEvidence (tree : ScopeTree) (target : ScopeId) (evidence : Evidence)
    (id : ScopeId) :
    selfAliasAt? (applyEvidence tree target evidence).1 id = selfAliasAt? tree id := by
  cases held : tree.entity? target with
  | none => rw [applyEvidence_vacant tree held]
  | some entity =>
    rw [applyEvidence_held tree held, selfAliasAt?, entity?_setEntity]
    split
    next same =>
      subst same
      obtain ⟨node, present, _⟩ := Option.bind_eq_some_iff.1 held
      rw [present, Option.map_some, Option.bind_some, selfAliasAt?, held,
        Option.bind_some, Entity.asConstructor?,
        evidence.kind_absorb tree id entity]
      obtain ⟨references, kind⟩ := entity
      cases kind <;> rfl
    next => rfl

/-- What the entry of a value does to its class. Of the other scopes only that of the value may change. -/
structure ValueEntered (before after : ScopeTree) (owner id : ScopeId) (held : Class) : Prop where
  found : ∃ values, after.classAt? owner = some { held with values }
  others : ∀ {other}, other ≠ owner → other ≠ id → after.entity? other = before.entity? other
  selfAlias : ∀ {other}, other ≠ owner → selfAliasAt? after other = selfAliasAt? before other

private theorem valueEntered_placeValue {tree : ScopeTree} {id : ScopeId} (inside : id.index < tree.size)
    (apart : id ≠ owner) (found : tree.classAt? owner = some held) (name : String) (range : Range) :
    ValueEntered tree (placeValue owner name range tree id) owner id held := by
  unfold placeValue
  split
  next => exact ⟨⟨held.values, found⟩, fun _ _ => rfl, fun _ => rfl⟩
  next vacant =>
    have others : ∀ {other : ScopeId}, other ≠ owner → other ≠ id →
        ((tree.setEntity id (.new (.variable (.new name (some range))))).modifyClass owner fun held =>
          { held with values := held.values.insert name id }).entity? other = tree.entity? other :=
          fun away off => by
      rw [modifyClass, entity?_modifyEntity, if_neg away, entity?_setEntity, if_neg off]
    refine ⟨⟨held.values.insert name id, ?_⟩, others, fun {other} away => ?_⟩
    · rw [classAt?_modifyClass_self, classAt?, entity?_setEntity, if_neg apart.symm, ← classAt?, found]
      rfl
    · by_cases same : other = id
      · subst same
        rw [selfAliasAt?, modifyClass, entity?_modifyEntity, if_neg away,
          entity?_setEntity_self inside, selfAliasAt?,
          Option.not_isSome_iff_eq_none.1 vacant]
        rfl
      · rw [selfAliasAt?, others away same, selfAliasAt?]

theorem valueEntered_defineValue (config : DiscoveryConfig) {tree : ScopeTree} (formed : tree.Formed)
    (level : tree.Level) (found : tree.classAt? owner = some held) (inside : owner.index < tree.size)
    {name : String} (plain : '.' ∉ name.toList) (value : Option Expr) (range : Range) :
    ValueEntered tree (defineValue config owner name value range tree) owner
      (tree.internChild owner name .value).2 held := by
  have place := inPlace_value formed level inside plain
  have there := index_internChild .value tree owner name
  have entities := entity?_internChild .value tree owner name
  rw [defineValue_eq]
  dsimp only
  generalize tree.internChild owner name .value = made at place there entities ⊢
  have apart : made.2 ≠ owner := fun equal =>
    place.formed.not_around (place.formed.parent?_of_child place.hangs) (equal ▸ self_mem_ancestors _ _)
  have known : made.1.classAt? owner = some held := by rw [classAt?, entities, ← classAt?, found]
  have placed := valueEntered_placeValue there apart known name range
  have kept : ValueEntered tree (placeValue owner name range made.1 made.2) owner made.2 held := by
    refine ⟨placed.found, fun away off => (placed.others away off).trans (entities _), fun away => ?_⟩
    rw [placed.selfAlias away, selfAliasAt?, entities, selfAliasAt?]
  refine applyValue_cases (motive := fun after => ValueEntered tree after owner made.2 held) config owner
    value kept
    fun evidence => ⟨?_, fun away off => ?_, fun {other} away => ?_⟩
  · obtain ⟨values, known⟩ := kept.found
    exact ⟨values, (congrArg (Option.bind · Entity.asClass?)
      (entity?_applyEvidence_other apart.symm evidence)).trans known⟩
  · exact (entity?_applyEvidence_other off evidence).trans (kept.others away off)
  · exact (selfAliasAt?_applyEvidence _ _ evidence other).trans (kept.selfAlias away)

private theorem enters_value (formed : state.Formed) (level : state.tree.Level)
    (found : state.tree.classAt? owner = some held) {name : String} (plain : '.' ∉ name.toList)
    (value : Option Expr) (range : Range) :
    Enters config owner done (done ++ [.value name value range]) state
      (state.withTree (defineValue config owner name value range state.tree)) := by
  have inside := index_lt_of_classAt? found
  have last := (state.revises_withTree (revises_defineValue config inside name value range) formed).1
  have confined := confined_defineValue config formed.tree level inside plain value range
  have place := inPlace_value formed.tree level inside plain
  obtain ⟨⟨values, known⟩, others, selfAlias⟩ := valueEntered_defineValue config formed.tree level
    found inside plain value range
  have defined : ∀ called, lastDefinition? (done ++ [.value name value range]) called =
      lastDefinition? done called := fun called => by
    rw [lastDefinition?_concat, MemberStep.definition?, Option.none_or]
  generalize defineValue config owner name value range state.tree =
    after at last confined known others selfAlias ⊢
  refine ⟨last, confined, ?_, id, fun _ => rfl, ?_,
    fun bodies same entered => ⟨?_, fun kind called => ?_, ?_, ?_, ?_⟩⟩
  · rw [State.withTree, known, found]
    rfl
  · simp [State.withTree]
  · rw [defined]
    exact entered.constructor
  · rw [defined]
    exact entered.members kind called
  · exact fun entry member => confined.stays.child? (entered.housed entry member)
  · exact entered.node.stays confined.stays
  · intro later reached
    rw [id_eq, same] at reached ⊢
    cases known.symm.trans reached
    have old := entered.held held (same ▸ found)
    rw [same] at old
    refine ⟨?_, fun apart => ?_, fun regular indexer body given => ?_⟩
    · rw [defined]
      exact old.fields
    · rw [defined]
      refine (old.sown fun step member => apart step (List.mem_append_left _ member)).carry
        confined.stays fun there => ?_
      have free := apart _ (List.mem_append_right _ (List.mem_singleton_self _))
      obtain ⟨away, outside⟩ := place.field_apart there free
      exact others away fun equal => outside (equal ▸ self_mem_ancestors _ _)
    · have away : held.constructor ≠ owner := fun equal =>
        Nat.lt_irrefl _ (equal ▸ formed.tree.older
          (formed.tree.parent?_of_child (formed.tree.child?_constructor level.dotless found)))
      exact (selfAlias away).trans (old.selfAlias regular indexer body (defined _ ▸ given))

private theorem enters_run (formed : state.Formed) (level : state.tree.Level)
    (listed : owner ∈ state.owners)
    (all : ∀ bodies ∈ state.classes, bodies.owner = owner → bodies.Entered config done state.tree)
    (found : state.tree.classAt? owner = some held) (step : MemberStep)
    (plain : ∀ name ∈ step.names, '.' ∉ name.toList) :
    Enters config owner done (done ++ [step]) state (step.run config owner held.name state) := by
  cases step with
  | function indexer name body range =>
    have within : ∀ name ∈ bodyNames body, '.' ∉ name.toList := fun name member =>
      plain name (List.mem_cons_of_mem _ member)
    rw [MemberStep.run]
    split
    next same =>
      subst same
      exact enters_constructor formed level listed all found indexer within range
    next other =>
      exact enters_function formed level found (plain name List.mem_cons_self) other indexer
        (fun param member => within param (params_subset body member)) range
  | value name value range =>
    exact enters_value formed level found (plain name List.mem_cons_self) value range

end Steps

/-! ### The whole entry -/

section Whole

variable {program : Program} {state : State} {done : ScopeId → List MemberStep}

/-- The definitions that the top level has for what stands on a scope. -/
def stepsOf (program : Program) (tree : ScopeTree) (id : ScopeId) : List MemberStep :=
  ((tree.classAt? id).map fun held => program.memberSteps held.name).getD []

/-- The classes that stay the classes that they are, by the same names. -/
structure Retains (before after : State) : Prop where
  owners : after.owners = before.owners
  names : ∀ id ∈ before.owners, (after.tree.classAt? id).map Class.name =
    (before.tree.classAt? id).map Class.name

namespace Retains

theorem refl (state : State) : Retains state state := ⟨rfl, fun _ _ => rfl⟩

theorem trans {first second third : State} (one : Retains first second) (two : Retains second third) :
    Retains first third where
  owners := two.owners.trans one.owners
  names := fun id listed => (two.names id (one.owners ▸ listed)).trans (one.names id listed)

theorem stepsOf {before after : State} (retains : Retains before after) (program : Program)
    {id : ScopeId} (listed : id ∈ before.owners) :
    Discovery.stepsOf program after.tree id = Discovery.stepsOf program before.tree id := by
  have same := congrArg (fun name => (Option.map program.memberSteps name).getD []) (retains.names id listed)
  simp only [Option.map_map] at same
  exact same

end Retains

/-- The definitions that are entered, with some more of one class. -/
def entering (done : ScopeId → List MemberStep) (owner : ScopeId) (steps : List MemberStep) :
    ScopeId → List MemberStep :=
  fun id => if id = owner then done owner ++ steps else done id

theorem entering_nil (done : ScopeId → List MemberStep) (owner : ScopeId) :
    entering done owner [] = done := by
  funext id
  by_cases equal : id = owner <;> simp [entering, equal]

theorem entering_cons (done : ScopeId → List MemberStep) (owner : ScopeId) (step : MemberStep)
    (rest : List MemberStep) :
    entering (entering done owner [step]) owner rest = entering done owner (step :: rest) := by
  funext id
  by_cases equal : id = owner <;> simp [entering, equal]

theorem Roster.node (roster : Roster config done state) {owner : ScopeId} (listed : owner ∈ state.owners) :
    state.tree.ClassNode owner := by
  obtain ⟨bodies, member, rfl⟩ := List.mem_map.1 listed
  exact (roster.entered bodies member).node

theorem Roster.enters (roster : Roster config done state) {owner : ScopeId}
    (listed : owner ∈ state.owners) {held : Class} (found : state.tree.classAt? owner = some held)
    (step : MemberStep) (plain : ∀ name ∈ step.names, '.' ∉ name.toList) :
    Enters config owner (done owner) (done owner ++ [step]) state (step.run config owner held.name state) :=
  enters_run roster.formed roster.level listed
    (fun bodies member same => same ▸ roster.entered bodies member) found step plain

theorem Roster.run (roster : Roster config done state) {owner : ScopeId} (listed : owner ∈ state.owners)
    {held : Class} (found : state.tree.classAt? owner = some held) (step : MemberStep)
    (plain : ∀ name ∈ step.names, '.' ∉ name.toList) :
    Roster config (entering done owner [step]) (step.run config owner held.name state) ∧
      Retains state (step.run config owner held.name state) := by
  have own : ∀ bodies ∈ state.classes, bodies.owner = owner → bodies.Entered config (done owner) state.tree :=
    fun bodies member same => same ▸ roster.entered bodies member
  have node := roster.node listed
  have enters := roster.enters listed found step plain
  have spared := enters.spared
  refine ⟨⟨enters.formed, enters.confined.level roster.level, spared.owners ▸ roster.distinct,
    fun bodies member => ?_⟩,
    spared.owners, fun id other => ?_⟩
  · obtain ⟨f, keeps, classes, entered⟩ := enters.bodies
    rw [classes] at member
    obtain ⟨old, known, rfl⟩ := List.mem_map.1 member
    by_cases same : old.owner = owner
    · rw [if_pos same, entering, if_pos ((keeps old).trans same)]
      exact entered old same (own old known same)
    · rw [if_neg same, entering, if_neg same]
      exact spared.entered roster.formed roster.level node same (roster.entered old known)
  · by_cases same : id = owner
    · exact same ▸ enters.name
    · obtain ⟨bodies, member, rfl⟩ := List.mem_map.1 other
      rw [classAt?, spared.kept roster.level node (roster.entered bodies member).node same
        (self_mem_ancestors _ _), ← classAt?]

/-! What each step keeps of a state and the definitions that are entered into it, the whole entry keeps. -/

section Enter

variable {holds : (ScopeId → List MemberStep) → State → Prop}
  (each : ∀ {done state owner held step}, holds done state → owner ∈ state.owners →
    state.tree.classAt? owner = some held →
    step ∈ program.memberSteps held.name → holds (entering done owner [step])
      (step.run config owner held.name state) ∧
      Retains state (step.run config owner held.name state))
include each

private theorem enter_steps (begun : holds done state) {owner : ScopeId} (listed : owner ∈ state.owners)
    {held : Class} (found : state.tree.classAt? owner = some held) {steps : List MemberStep}
    (within : steps ⊆ program.memberSteps held.name) :
    holds (entering done owner steps) (steps.foldl (MemberStep.run config owner held.name) state) ∧
      Retains state (steps.foldl (MemberStep.run config owner held.name) state) := by
  induction steps generalizing state done held with
  | nil => exact ⟨(entering_nil done owner).symm ▸ begun, .refl state⟩
  | cons step rest ih =>
    obtain ⟨first, others⟩ := List.cons_subset.1 within
    obtain ⟨next, retains⟩ := each begun listed found first
    have named := retains.names owner listed
    rw [found, Option.map_some] at named
    obtain ⟨later, reached, same⟩ := Option.map_eq_some_iff.1 named
    obtain ⟨last, kept⟩ := ih next (retains.owners ▸ listed) reached (same ▸ others)
    rw [same, entering_cons] at last
    rw [same] at kept
    exact ⟨last, retains.trans kept⟩

private theorem enter_members (begun : holds done state) {owner : ScopeId} (listed : owner ∈ state.owners) :
    holds (entering done owner (stepsOf program state.tree owner))
      (defineMembers config program state owner) ∧
      Retains state (defineMembers config program state owner) := by
  cases found : state.tree.classAt? owner with
  | none =>
    rw [defineMembers_outside config program found, stepsOf, found, Option.map_none,
      Option.getD_none, entering_nil]
    exact ⟨begun, .refl state⟩
  | some held =>
    rw [defineMembers_eq config program owner found, stepsOf, found]
    exact enter_steps each begun listed found (List.Subset.refl _)

theorem enter_all {owners : List ScopeId} (begun : holds done state) (distinct : owners.Nodup)
    (within : owners ⊆ state.owners) (fresh : ∀ id ∈ owners, done id = []) :
    ∃ all, holds all (owners.foldl (defineMembers config program) state) ∧
      Retains state (owners.foldl (defineMembers config program) state) ∧
        (∀ id, id ∉ owners → all id = done id) ∧
      ∀ id ∈ owners, all id = stepsOf program (owners.foldl (defineMembers config program) state).tree
        id := by
  induction owners generalizing state done with
  | nil => exact ⟨done, begun, .refl state, fun _ _ => rfl, nofun⟩
  | cons owner rest ih =>
    have listed := within List.mem_cons_self
    obtain ⟨apart, others⟩ := List.nodup_cons.1 distinct
    obtain ⟨next, retains⟩ := enter_members each begun listed
    obtain ⟨all, last, kept, same, entered⟩ := ih next others
      (fun id member => retains.owners ▸ within (List.mem_cons_of_mem _ member))
      (fun id member => by
        rw [entering, if_neg fun equal : id = owner => apart (equal ▸ member)]
        exact fresh id (List.mem_cons_of_mem _ member))
    refine ⟨all, last, retains.trans kept, fun id outside => ?_, fun id member => ?_⟩
    · obtain ⟨other, outside⟩ := not_or.1 (List.mem_cons.not.1 outside)
      rw [same id outside, entering, if_neg other]
    · rcases List.mem_cons.1 member with rfl | later
      · rw [same id apart, entering, if_pos rfl, fresh id List.mem_cons_self, List.nil_append]
        exact ((retains.trans kept).stepsOf program listed).symm
      · exact entered id later

end Enter

theorem roster_indexed (config : DiscoveryConfig) (dotless : ∀ name ∈ program.names, '.' ∉ name.toList) :
    Roster config (fun _ => []) (indexed config program) := by
  obtain ⟨blank, distinct, bare⟩ := awaits_indexed config dotless
  refine ⟨formed_indexed config program, blank.level, distinct, fun bodies member => ?_⟩
  obtain ⟨same, node⟩ := bare bodies member
  rw [same]
  refine ⟨rfl, fun kind name => ?_, nofun, node, fun held found => ?_⟩
  · cases kind <;> split <;> rfl
  · have empty : held.fields = .empty := by
      obtain ⟨references, entity⟩ := classAt?_eq_some found
      rw [← blank.fieldless bodies.owner]
      exact (fieldsOf_of_held _ entity).symm
    refine ⟨fun name contained => ?_, fun _ name id given => ?_, fun _ _ _ => nofun⟩
    · rw [empty] at contained
      cases contained
    · rw [empty] at given
      cases given

/-- Once all members are entered, each class holds what the last definitions in the program say. -/
theorem roster_defined (config : DiscoveryConfig) (dotless : ∀ name ∈ program.names, '.' ∉ name.toList) :
    Roster config (stepsOf program (defined config program).tree) (defined config program) := by
  have first := roster_indexed config dotless
  obtain ⟨all, last, retains, _, entered⟩ := enter_all
    (fun roster listed found member => roster.run listed found _ fun name named =>
      dotless name (names_memberSteps member named))
    first first.distinct (List.Subset.refl _) fun _ _ => rfl
  refine ⟨last.formed, last.level, last.distinct, fun bodies member => ?_⟩
  have listed : bodies.owner ∈ (indexed config program).owners := retains.owners ▸ List.mem_map_of_mem member
  exact entered bodies.owner listed ▸ last.entered bodies member

end Whole

end LuaClasses.Discovery
