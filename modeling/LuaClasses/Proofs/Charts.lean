import LuaClasses.Proofs.Clearing
import LuaClasses.Proofs.WalkGrowth

/-! Trees told by paths. Two discoveries may make the same scopes in another order and so give them other
numbers. A chart says what stands at each path with paths in place of numbers, and each write of a
discovery changes a chart at few paths. -/

namespace LuaClasses

/-- A reference told by paths. -/
inductive Lead where
  | unresolved (target origin : String)
  | resolved (target : String)
  deriving DecidableEq

namespace Lead

/-- The name under which an entity keeps a reference. -/
def key : Lead → String
  | .unresolved target _ => target
  | .resolved target => target

def isResolved : Lead → Bool
  | .unresolved _ _ => false
  | .resolved _ => true

end Lead

namespace Reference

def lead (raw : ScopeId → String) : Reference → Lead
  | .unresolved target origin => .unresolved target (raw origin)
  | .resolved target => .resolved (raw target)

/-- The scope that a reference leads to or waits at. -/
def scope : Reference → ScopeId
  | .unresolved _ origin => origin
  | .resolved target => target

private theorem lead_congr {raw raw' : ScopeId → String} {reference : Reference}
    (same : raw reference.scope = raw' reference.scope) :
    reference.lead raw = reference.lead raw' := by
  cases reference with
  | unresolved target origin => exact congrArg (Lead.unresolved target) same
  | resolved target => exact congrArg Lead.resolved same

@[simp] theorem isResolved_lead (raw : ScopeId → String) (reference : Reference) :
    (reference.lead raw).isResolved = reference.isResolved := by
  cases reference <;> rfl

end Reference

/-- A class told by paths. -/
structure ClassLook where
  name : String
  superclass : Option String
  constructor : String
  fields : OrderedMap String
  values : OrderedMap String
  functions : OrderedMap String
  methods : OrderedMap String

/-- What an entity is, told by paths. The names that live in the scope of an entity say no more than the
paths below it, but for those of a class, which are in order. -/
inductive Shape where
  | «variable» (name : String)
  | function (params : List String) (vararg : Bool)
  | constructor (params : List String) (vararg : Bool) (selfAlias : Option String)
  | table
  | class_ (held : ClassLook)
  | block

/-- An entity told by paths. -/
structure Look where
  references : OrderedMap Lead
  types : TypeSet
  shape : Shape

section Look

variable (raw : ScopeId → String)

def Class.look (owner : Class) : ClassLook where
  name := owner.name
  superclass := owner.superclass
  constructor := raw owner.constructor
  fields := owner.fields.mapValues raw
  values := owner.values.mapValues raw
  functions := owner.functions.mapValues raw
  methods := owner.methods.mapValues raw

def EntityKind.shape : EntityKind → Shape
  | .variable held => .variable held.name
  | .function held => .function (held.params.map raw) held.vararg
  | .constructor held => .constructor (held.params.map raw) held.vararg held.selfAlias
  | .table _ => .table
  | .class_ held => .class_ (held.look raw)
  | .block _ => .block

def Entity.look (entity : Entity) : Look :=
  ⟨entity.references.mapValues (Reference.lead raw), entity.gathered, entity.kind.shape raw⟩

end Look

/-- The scopes that are told of an entity besides its references. -/
def EntityKind.scopes : EntityKind → List ScopeId
  | .function held => held.params
  | .constructor held => held.params
  | .class_ held =>
    held.constructor :: (held.fields.values ++ held.values.values ++
      held.functions.values ++ held.methods.values)
  | _ => []

def Entity.scopes (entity : Entity) : List ScopeId :=
  entity.references.values.map Reference.scope ++ entity.kind.scopes

theorem OrderedMap.mapValues_congr {α β : Type} {f g : α → β} {map : OrderedMap α}
    (same : ∀ value ∈ map.values, f value = g value) :
    map.mapValues f = map.mapValues g :=
  OrderedMap.ext (List.map_congr_left fun entry member => by rw [same entry.2 (List.mem_map_of_mem member)])

private theorem Entity.look_congr {raw raw' : ScopeId → String} {entity : Entity}
    (same : ∀ id ∈ entity.scopes, raw id = raw' id) :
    entity.look raw = entity.look raw' := by
  have references : entity.references.mapValues (Reference.lead raw) =
      entity.references.mapValues (Reference.lead raw') :=
    OrderedMap.mapValues_congr fun reference member =>
      Reference.lead_congr (same _ (List.mem_append_left _ (List.mem_map_of_mem member)))
  have shape : entity.kind.shape raw = entity.kind.shape raw' := by
    replace same : ∀ id ∈ entity.kind.scopes, raw id = raw' id := fun id member =>
      same id (List.mem_append_right _ member)
    cases kind : entity.kind with
    | function held =>
      rw [EntityKind.shape, EntityKind.shape, List.map_congr_left
        fun id (member : id ∈ held.params) => same id (kind ▸ member)]
    | constructor held =>
      rw [EntityKind.shape, EntityKind.shape, List.map_congr_left
        fun id (member : id ∈ held.params) => same id (kind ▸ member)]
    | class_ held =>
      simp only [kind, EntityKind.scopes, List.mem_cons, List.mem_append] at same
      simp only [EntityKind.shape, Class.look, same held.constructor (.inl rfl)]
      rw [OrderedMap.mapValues_congr fun id (member : id ∈ held.fields.values) => same id (by simp [member]),
        OrderedMap.mapValues_congr fun id (member : id ∈ held.values.values) => same id (by simp [member]),
        OrderedMap.mapValues_congr fun id (member : id ∈ held.functions.values) => same id (by simp [member]),
        OrderedMap.mapValues_congr fun id (member : id ∈ held.methods.values) => same id (by simp [member])]
    | _ => rfl
  rw [look, look, references, shape]

namespace ScopeTree
open DottedName

variable {tree : ScopeTree}

/-- What stands at a path. -/
def chart (tree : ScopeTree) (path : String) : Option Look :=
  ((tree.find? path).bind tree.entity?).map (Entity.look tree.raw)

/-- Whether a chart tells all of a tree: scopes stand at paths of their own, and entities tell of scopes
of the tree only. -/
structure Sound (tree : ScopeTree) : Prop where
  shaped : tree.WellShaped
  moored : ∀ {id entity}, tree.entity? id = some entity → ∀ scope ∈ entity.scopes, scope.index < tree.size

theorem WellShaped.find?_raw (shaped : tree.WellShaped) {id : ScopeId} (inside : id.index < tree.size) :
    tree.find? (tree.raw id) = some id := by
  obtain ⟨frame, formed, _, same⟩ := shaped
  rw [same.find?, same.raw]
  exact formed.find?_raw (same.size ▸ inside)

theorem WellShaped.raw_inj (shaped : tree.WellShaped) {one two : ScopeId} (left : one.index < tree.size)
    (right : two.index < tree.size) (same : tree.raw one = tree.raw two) : one = two := by
  rw [← Option.some_inj, ← shaped.find?_raw left, same, shaped.find?_raw right]

theorem chart_raw (shaped : tree.WellShaped) {id : ScopeId} (inside : id.index < tree.size) :
    tree.chart (tree.raw id) = (tree.entity? id).map (Entity.look tree.raw) := by
  rw [chart, shaped.find?_raw inside, Option.bind_some]

theorem chart_eq_some {path : String} {look : Look} (found : tree.chart path = some look) :
    ∃ id entity, tree.find? path = some id ∧ tree.entity? id = some entity ∧ entity.look tree.raw = look := by
  obtain ⟨entity, held, same⟩ := Option.map_eq_some_iff.1 found
  obtain ⟨id, there, held⟩ := Option.bind_eq_some_iff.1 held
  exact ⟨id, entity, there, held, same⟩

/-- What is told of a scope that has changed, where the others have not. -/
theorem chart_of_entities {after : ScopeTree} (shaped : tree.WellShaped) (same : SameShape after tree)
    {id : ScopeId} (inside : id.index < tree.size)
    (others : ∀ other, other ≠ id → after.entity? other = tree.entity? other) (path : String) :
    after.chart path = if path = tree.raw id then (after.entity? id).map
      (Entity.look tree.raw) else tree.chart path := by
  have raw : after.raw = tree.raw := funext same.raw
  rw [chart, chart, same.find?, raw]
  split
  next at_ => rw [at_, shaped.find?_raw inside, Option.bind_some]
  next away =>
    cases found : tree.find? path with
    | none => rfl
    | some other =>
      have apart : other ≠ id := fun equal => away (by rw [← raw_of_find? found, equal])
      rw [Option.bind_some, Option.bind_some, others other apart]

theorem chart_setEntity (shaped : tree.WellShaped) {id : ScopeId} (inside : id.index < tree.size)
    (entity : Entity) (path : String) :
    (tree.setEntity id entity).chart path = if path = tree.raw id then some
    (entity.look tree.raw) else tree.chart path := by
  rw [chart_of_entities shaped (sameShape_setEntity tree id entity) inside
    fun other apart => by rw [entity?_setEntity, if_neg apart]]
  rw [entity?_setEntity_self inside, Option.map_some]

theorem chart_modifyEntity (shaped : tree.WellShaped) {id : ScopeId} (inside : id.index < tree.size)
    (f : Entity → Entity) (path : String) : (tree.modifyEntity id f).chart path =
      if path = tree.raw id then (tree.entity? id).map fun entity =>
        (f entity).look tree.raw else tree.chart path := by
  rw [chart_of_entities shaped (sameShape_modifyEntity tree id f) inside
    fun other apart => by rw [entity?_modifyEntity, if_neg apart]]
  rw [entity?_modifyEntity, if_pos rfl, Option.map_map]
  rfl

theorem chart_clearDescendants (shaped : tree.WellShaped) {id : ScopeId} (inside : id.index < tree.size)
    (path : String) :
    (tree.clearDescendants id).chart path = if Beneath (tree.raw id) path then none else tree.chart path := by
  have same := sameShape_clearDescendants tree id
  rw [chart, chart, same.find?, funext same.raw]
  cases found : tree.find? path with
  | none => rw [Option.bind_none, Option.bind_none, Option.map_none, ite_self]
  | some other =>
    rw [Option.bind_some, Option.bind_some, shaped.entity?_clearDescendants inside, raw_of_find? found]
    split <;> rfl

theorem Keeps.raw_shaped {after : ScopeTree} (keeps : tree.Keeps after) (shaped : tree.WellShaped)
    {id : ScopeId} (inside : id.index < tree.size) : after.raw id = tree.raw id :=
  raw_of_find? (keeps _ _ (shaped.find?_raw inside))

theorem Keeps.inside {after : ScopeTree} (keeps : tree.Keeps after) (shaped : tree.WellShaped) {id : ScopeId}
    (inside : id.index < tree.size) : id.index < after.size :=
  index_lt_of_find? (keeps _ _ (shaped.find?_raw inside))

/-- A chart stays as it is at a path where no entity has changed. -/
theorem chart_of_kept {after : ScopeTree} (sound : tree.Sound) (keeps : tree.Keeps after) {path : String}
    (kept : ∀ id, after.find? path = some id → after.entity? id = tree.entity? id) :
    after.chart path = tree.chart path := by
  rw [chart, chart]
  cases found : tree.find? path with
  | some id =>
    have reached := keeps _ _ found
    rw [reached, Option.bind_some, Option.bind_some, kept id reached]
    refine Option.map_congr fun entity held => Entity.look_congr fun scope member => ?_
    exact keeps.raw_shaped sound.shaped (sound.moored held scope member)
  | none =>
    cases reached : after.find? path with
    | none => rfl
    | some id =>
      rw [Option.bind_some, kept id reached]
      cases held : tree.entity? id with
      | none => rfl
      | some entity =>
        -- An entity stands on an old scope only, whose path would have been found before.
        have inside := index_lt_of_entity? held
        have old := sound.shaped.find?_raw inside
        rw [← keeps.raw_shaped sound.shaped inside, raw_of_find? reached, found] at old
        cases old

/-- A new scope has no entity, so a chart does not show it. -/
theorem chart_internChild (sound : tree.Sound) (parent : ScopeId) (name : String) (valueType : ValueType) :
    (tree.internChild parent name valueType).1.chart = tree.chart :=
  funext fun _ => chart_of_kept sound (fun _ _ found =>
    (tree.grows_internChild parent name valueType).find? found)
    fun id _ => entity?_internChild valueType tree parent name id

namespace Sound

theorem internChild (sound : tree.Sound) {parent : ScopeId} (inside : parent.index < tree.size)
    {name : String} (plain : '.' ∉ name.toList) (valueType : ValueType) :
    (tree.internChild parent name valueType).1.Sound where
  shaped := sound.shaped.internChild inside plain valueType
  moored := by
    intro id entity held scope member
    rw [entity?_internChild] at held
    exact (tree.grows_internChild parent name valueType).index_lt (sound.moored held scope member)

/-- Entities that tell of scopes of the tree only may be placed and changed. -/
theorem of_entities {after : ScopeTree} (sound : tree.Sound) (same : SameShape after tree)
    (moored : ∀ {id entity}, after.entity? id = some entity →
      (∀ scope ∈ entity.scopes, scope.index < tree.size) ∨ tree.entity? id = some entity) : after.Sound where
  shaped := sound.shaped.of_sameShape same
  moored := by
    intro id entity held scope member
    rw [same.size]
    exact (moored held).elim (fun fresh => fresh scope member) fun old => sound.moored old scope member

theorem setEntity (sound : tree.Sound) (id : ScopeId) {entity : Entity}
    (moored : ∀ scope ∈ entity.scopes, scope.index < tree.size) :
    (tree.setEntity id entity).Sound := by
  refine sound.of_entities (sameShape_setEntity tree id entity) fun {other found} held => ?_
  rw [entity?_setEntity] at held
  split at held
  next => obtain ⟨_, _, rfl⟩ := Option.map_eq_some_iff.1 held; exact .inl moored
  next => exact .inr held

theorem modifyEntity (sound : tree.Sound) (id : ScopeId) {f : Entity → Entity}
    (moored : ∀ {entity}, tree.entity? id = some entity →
      ∀ scope ∈ (f entity).scopes, scope.index < tree.size)
    :
    (tree.modifyEntity id f).Sound := by
  refine sound.of_entities (sameShape_modifyEntity tree id f) fun {other found} held => ?_
  rw [entity?_modifyEntity] at held
  split at held
  next => obtain ⟨entity, old, rfl⟩ := Option.map_eq_some_iff.1 held; exact .inl (moored old)
  next => exact .inr held

theorem clearDescendants (sound : tree.Sound) (id : ScopeId) : (tree.clearDescendants id).Sound :=
  sound.of_entities (sameShape_clearDescendants tree id) fun held =>
    .inr (tree.entity?_of_clearDescendants held)

end Sound
end ScopeTree
end LuaClasses
