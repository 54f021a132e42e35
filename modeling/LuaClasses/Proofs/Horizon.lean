import LuaClasses.Proofs.SweepTours
import LuaClasses.Proofs.Weight
import Mathlib.Data.List.Nodup

/-! Finitely many paths, class names, types and reference names. A tree that stays within them has a
bounded weight, and the writes of a sweep stay within a horizon that has the paths and the reference
names that they need. -/

namespace LuaClasses

structure Horizon where
  paths : List String
  /-- The names of classes. -/
  names : List String
  types : List LuaType
  /-- The names under which references are kept. -/
  keys : List String

namespace Horizon

/-- Whether an entity is called, gathers and refers to what is within a horizon. -/
structure Allows (horizon : Horizon) (entity : Entity) : Prop where
  name : ∀ owner, entity.asClass? = some owner → owner.name ∈ horizon.names
  types : ∀ type ∈ entity.gathered, type ∈ horizon.types
  keys : entity.references.keys ⊆ horizon.keys

/-- Whether a tree is within a horizon. -/
structure Holds (horizon : Horizon) (tree : ScopeTree) : Prop where
  paths : ∀ {id node}, tree.node? id = some node → node.raw ∈ horizon.paths
  entities : ∀ {id entity}, tree.entity? id = some entity → horizon.Allows entity

/-- The most that a node may weigh. -/
def heaviest (horizon : Horizon) : Nat := 2 + horizon.types.length + 2 * horizon.keys.length

/-- The most that a tree may weigh. -/
def capacity (horizon : Horizon) : Nat := horizon.paths.length * horizon.heaviest

variable {horizon : Horizon} {tree : ScopeTree}

private theorem referencesWeight_le (references : OrderedMap Reference) :
    referencesWeight references ≤ 2 * references.keys.length := by
  unfold referencesWeight OrderedMap.values OrderedMap.keys
  rw [List.length_map]
  induction references.entries with
  | nil => exact Nat.le_refl _
  | cons entry rest ih =>
    have one : entry.2.weight ≤ 2 := by unfold Reference.weight; split <;> omega
    simp only [List.map_cons, List.sum_cons, List.length_cons] at ih ⊢
    omega

private theorem weight_entity {entity : Entity} (allows : horizon.Allows entity) :
    entity.weight + 1 ≤ horizon.heaviest := by
  have types : entity.gathered.size ≤ horizon.types.length :=
    length_le_of_subset entity.gathered.nodup allows.types
  have keys : entity.references.keys.length ≤ horizon.keys.length :=
    length_le_of_subset entity.references.distinct allows.keys
  have references := referencesWeight_le entity.references
  unfold Entity.weight heaviest
  omega

private theorem Holds.weight_node (holds : horizon.Holds tree) {id : ScopeId} {node : Node}
    (found : tree.node? id = some node) :
    node.weight ≤ horizon.heaviest := by
  unfold Node.weight
  cases held : node.entity with
  | none =>
    simp only [Option.map_none, Option.getD_none, heaviest]
    omega
  | some entity =>
    have occupied : tree.entity? id = some entity := by rw [ScopeTree.entity?, found, Option.bind_some, held]
    have light := weight_entity (holds.entities occupied)
    simp only [Option.map_some, Option.getD_some]
    omega

/-- No two nodes share a path, so there are no more nodes than paths. -/
theorem Holds.size_le (holds : horizon.Holds tree) (formed : tree.Formed) :
    tree.size ≤ horizon.paths.length := by
  have distinct : (tree.nodes.map Node.raw).Nodup := by
    rw [List.nodup_iff_getElem?_ne_getElem?]
    intro first second before inside same
    rw [List.length_map, ScopeTree.length_nodes] at inside
    obtain ⟨two, held⟩ := ScopeTree.exists_node? (show (ScopeId.mk second).index < tree.size from inside)
    obtain ⟨one, present⟩ := ScopeTree.exists_node?
      (show (ScopeId.mk first).index < tree.size from Nat.lt_trans before inside)
    have raws : (tree.node? ⟨first⟩).map Node.raw = (tree.node? ⟨second⟩).map Node.raw := by
      simpa only [← ScopeTree.getElem?_nodes, List.getElem?_map] using same
    rw [present, held] at raws
    cases formed.distinct present held (Option.some.inj raws)
    exact absurd before (Nat.lt_irrefl _)
  have within : tree.nodes.map Node.raw ⊆ horizon.paths := by
    intro path member
    obtain ⟨node, listed, rfl⟩ := List.mem_map.1 member
    obtain ⟨id, found⟩ := ScopeTree.exists_of_mem_nodes listed
    exact holds.paths found
  have shorter := length_le_of_subset distinct within
  rw [List.length_map, ScopeTree.length_nodes] at shorter
  exact shorter

/-- No node of a tree within a horizon weighs more than the heaviest. -/
theorem Holds.weight_le_size (holds : horizon.Holds tree) : tree.weight ≤ tree.size * horizon.heaviest := by
  have total : ∀ nodes : List Node, (∀ node ∈ nodes, node.weight ≤ horizon.heaviest) →
      (nodes.map Node.weight).sum ≤ nodes.length * horizon.heaviest := by
    intro nodes
    induction nodes with
    | nil => simp
    | cons node rest ih =>
      intro light
      have first := light node List.mem_cons_self
      have others := ih fun other member => light other (List.mem_cons_of_mem _ member)
      simp only [List.map_cons, List.sum_cons, List.length_cons]
      rw [Nat.succ_mul]
      omega
  have bound := total tree.nodes fun node member => by
    obtain ⟨id, found⟩ := ScopeTree.exists_of_mem_nodes member
    exact holds.weight_node found
  rw [ScopeTree.length_nodes] at bound
  exact bound

/-- The weight of a tree within a horizon is bounded. -/
theorem Holds.weight_le (holds : horizon.Holds tree) (formed : tree.Formed) :
    tree.weight ≤ horizon.capacity :=
  Nat.le_trans holds.weight_le_size (Nat.mul_le_mul_right _ (holds.size_le formed))

end Horizon
end LuaClasses

/-! ### What a horizon is closed under -/

namespace LuaClasses
open Discovery

namespace Horizon

/-- Whether a horizon has the types that a body may come upon, and the names of references that lead
somewhere. -/
structure Closed (horizon : Horizon) (config : DiscoveryConfig) : Prop where
  plain : ∀ type : LuaType, type.isInstance = false → type ∈ horizon.types
  builtin : ∀ {path type}, config.builtinType? path = some type → type ∈ horizon.types
  instances : ∀ name ∈ horizon.names, .instanceOf name ∈ horizon.types
  resolved : horizon.paths ⊆ horizon.keys
  nowhere : "" ∈ horizon.keys

structure Admits (horizon : Horizon) (evidence : Evidence) : Prop where
  types : ∀ type ∈ evidence.types, type ∈ horizon.types
  keys : ∀ target origin, evidence.reference = some (.unresolved target origin) → target ∈ horizon.keys

variable {horizon : Horizon} {tree : ScopeTree}

section Entities

variable {entity : Entity}

private theorem allows_variable (name : String) (range : Option Range) :
    horizon.Allows (.new (.variable (.new name range))) :=
  ⟨nofun, nofun, nofun⟩

private theorem allows_block (kind : BlockKind) (members : Members) :
    horizon.Allows (.new (.block ⟨kind, members⟩)) :=
  ⟨nofun, nofun, nofun⟩

theorem Allows.gather (allows : horizon.Allows entity) {types : TypeSet}
    (within : ∀ type ∈ types, type ∈ horizon.types) :
    horizon.Allows (entity.gather types) := by
  refine ⟨?_, fun type member => ?_, allows.keys⟩
  · obtain ⟨references, kind⟩ := entity
    cases kind with
    | class_ owner => exact allows.name
    | _ => exact nofun
  · have bound := allows.types type
    obtain ⟨references, kind⟩ := entity
    cases kind with
    | «variable» held => exact (TypeSet.mem_union.1 member).elim bound (within type)
    | function held => exact (TypeSet.mem_union.1 member).elim bound (within type)
    | _ => cases member

theorem Allows.mapLocals (allows : horizon.Allows entity) (f : Members → Members) :
    horizon.Allows (entity.mapLocals f) := by
  obtain ⟨references, kind⟩ := entity
  cases kind with
  | class_ owner =>
    refine ⟨fun later same => ?_, allows.types, allows.keys⟩
    cases same
    exact allows.name owner rfl
  | _ => exact ⟨nofun, allows.types, allows.keys⟩

theorem Allows.mapClass (allows : horizon.Allows entity) {f : Class → Class}
    (same : ∀ owner, (f owner).name = owner.name) :
    horizon.Allows (entity.mapClass f) := by
  obtain ⟨references, kind⟩ := entity
  cases kind with
  | class_ owner =>
    refine ⟨fun later equal => ?_, allows.types, allows.keys⟩
    cases equal
    rw [same]
    exact allows.name owner rfl
  | _ => exact allows

private theorem Allows.refer (allows : horizon.Allows entity) {key : String}
    (within : key ∈ horizon.keys) (reference : Reference) :
    horizon.Allows { entity with references := entity.references.insert key reference } := by
  refine ⟨allows.name, allows.types, ?_⟩
  rw [OrderedMap.keys_insert]
  split
  next => exact allows.keys
  next => exact List.append_subset.2 ⟨allows.keys, List.cons_subset.2 ⟨within, List.nil_subset _⟩⟩

end Entities

namespace Holds

variable {config : DiscoveryConfig} (holds : horizon.Holds tree)
include holds

private theorem raw_mem (closed : horizon.Closed config) (id : ScopeId) : tree.raw id ∈ horizon.keys := by
  unfold ScopeTree.raw
  cases found : tree.node? id with
  | none => exact closed.nowhere
  | some node => exact closed.resolved (holds.paths found)

theorem className {id : ScopeId} {owner : Class} (held : tree.classAt? id = some owner) :
    owner.name ∈ horizon.names := by
  obtain ⟨entity, found, asClass⟩ := Option.bind_eq_some_iff.1 held
  exact (holds.entities found).name owner asClass

theorem instanceType (closed : horizon.Closed config) {id : ScopeId} {owner : Class}
    (held : tree.classAt? id = some owner) :
    owner.instanceType ∈ horizon.types :=
  closed.instances _ (holds.className held)

theorem instanceOfConstructor? (closed : horizon.Closed config) {id : ScopeId} {type : LuaType}
    (made : Discovery.instanceOfConstructor? tree id = some type) : type ∈ horizon.types := by
  obtain ⟨owner, held, rfl⟩ := Option.map_eq_some_iff.1 made
  obtain ⟨parent, _, found⟩ := Option.bind_eq_some_iff.1 held
  exact holds.instanceType closed found

theorem referenceTypes (closed : horizon.Closed config) (id : ScopeId) :
    ∀ type ∈ Discovery.referenceTypes tree id, type ∈ horizon.types := by
  intro type member
  unfold Discovery.referenceTypes at member
  cases found : tree.entity? id with
  | none => rw [found] at member; cases member
  | some entity =>
    have allows := holds.entities found
    rw [found] at member
    obtain ⟨references, kind⟩ := entity
    cases kind with
    | «variable» var => exact allows.types type member
    | function held => exact allows.types type member
    | class_ owner =>
      rw [List.mem_singleton.1 member]
      exact closed.instances _ (allows.name owner rfl)
    | constructor held =>
      simp only [Option.map_some] at member
      split at member
      next made =>
        rw [List.mem_singleton.1 member]
        exact holds.instanceOfConstructor? closed made
      next => cases member
    | table held =>
      rw [List.mem_singleton.1 member]
      exact closed.plain _ rfl
    | block held => cases member

theorem typesFor (closed : horizon.Closed config) {evidence : Evidence}
    (admits : horizon.Admits evidence) (target : ScopeId) :
    ∀ type ∈ evidence.typesFor tree target, type ∈ horizon.types := by
  intro type member
  unfold Evidence.typesFor at member
  split at member
  next source _ =>
    exact (TypeSet.mem_union.1 member).elim (admits.types type) (holds.referenceTypes closed source type)
  next => exact admits.types type member

theorem referenceKey (closed : horizon.Closed config) {evidence : Evidence} (admits : horizon.Admits evidence)
    {target : ScopeId} {reference : Reference} (taken : evidence.referenceOf target = some reference) :
    Discovery.referenceKey tree reference ∈ horizon.keys := by
  cases reference with
  | resolved source => exact holds.raw_mem closed source
  | unresolved path origin => exact admits.keys path origin (Option.filter_eq_some_iff.1 taken).1

theorem absorb (closed : horizon.Closed config) {evidence : Evidence} (admits : horizon.Admits evidence)
    (target : ScopeId) {entity : Entity} (allows : horizon.Allows entity) :
    horizon.Allows (evidence.absorb tree target entity).1 := by
  have gathered := allows.gather (holds.typesFor closed admits target)
  unfold Evidence.absorb
  split
  next => exact gathered
  next reference taken =>
    dsimp only
    split
    next => exact gathered.refer (holds.referenceKey closed admits taken) reference
    next => exact gathered

/-! ### Writes on a tree -/

theorem setEntity (id : ScopeId) {entity : Entity} (allows : horizon.Allows entity) :
    horizon.Holds (tree.setEntity id entity) where
  paths := by
    intro other node found
    obtain ⟨old, there, same⟩ := (tree.sameShape_setEntity id entity).node? found
    rw [show node.raw = old.raw from (congrArg Node.raw same).symm]
    exact holds.paths there
  entities := by
    intro other held found
    rw [ScopeTree.entity?_setEntity] at found
    split at found
    next =>
      obtain ⟨_, _, rfl⟩ := Option.map_eq_some_iff.1 found
      exact allows
    next => exact holds.entities found

theorem modifyEntity (id : ScopeId) {f : Entity → Entity}
    (allows : ∀ entity, horizon.Allows entity → horizon.Allows (f entity)) :
    horizon.Holds (tree.modifyEntity id f) where
  paths := by
    intro other node found
    obtain ⟨old, there, same⟩ := (tree.sameShape_modifyEntity id f).node? found
    rw [show node.raw = old.raw from (congrArg Node.raw same).symm]
    exact holds.paths there
  entities := by
    intro other held found
    rw [ScopeTree.entity?_modifyEntity] at found
    split at found
    next =>
      obtain ⟨entity, present, rfl⟩ := Option.map_eq_some_iff.1 found
      exact allows entity (holds.entities present)
    next => exact holds.entities found

theorem internChild {parent : ScopeId} {name : String}
    (within : DottedName.child (tree.raw parent) name ∈ horizon.paths) (valueType : ValueType) :
    horizon.Holds (tree.internChild parent name valueType).1 := by
  refine ⟨fun {id node} found => ?_, fun {id entity} found => ?_⟩
  · cases known : tree.find? (DottedName.child (tree.raw parent) name) with
    | some _ => exact holds.paths (ScopeTree.internChild_found valueType known ▸ found)
    | none =>
      rw [ScopeTree.node?_internChild valueType known] at found
      split at found
      next => cases found; exact within
      next =>
        split at found
        next =>
          obtain ⟨old, there, rfl⟩ := Option.map_eq_some_iff.1 found
          have kept := holds.paths there
          exact kept
        next => exact holds.paths found
  · rw [ScopeTree.entity?_internChild] at found
    exact holds.entities found

theorem occupy (id : ScopeId) (name : String) (range : Range) :
    horizon.Holds (tree.occupy id name range) := by
  unfold ScopeTree.occupy
  split
  next => exact holds
  next => exact holds.setEntity id (allows_variable name (some range))

theorem internField {owner : ScopeId} {name : String}
    (fields : DottedName.child (tree.raw owner) ScopeTree.fieldsName ∈ horizon.paths)
    (field : DottedName.child (DottedName.child (tree.raw owner) ScopeTree.fieldsName) name ∈ horizon.paths) :
    horizon.Holds (tree.internField owner name).1 := by
  have made := holds.internChild fields .table
  have raw := ScopeTree.raw_of_find? (ScopeTree.find?_internChild .table tree owner ScopeTree.fieldsName)
  unfold ScopeTree.internField
  generalize tree.internChild owner ScopeTree.fieldsName .table = first at made raw ⊢
  rw [← raw] at field
  exact made.internChild field .field

/-! ### Writes of a walk -/

theorem applyEvidence (closed : horizon.Closed config) {evidence : Evidence}
    (admits : horizon.Admits evidence) (target : ScopeId) :
    horizon.Holds (Discovery.applyEvidence tree target evidence).1 := by
  cases held : tree.entity? target with
  | none => rw [applyEvidence_vacant tree held]; exact holds
  | some entity =>
    rw [applyEvidence_held tree held]
    exact holds.setEntity target (holds.absorb closed admits target (holds.entities held))

theorem enterBlock {parent : ScopeId} {kind : BlockKind} {index : Nat}
    (within : DottedName.child (tree.raw parent) (blockName kind index) ∈ horizon.paths) :
    horizon.Holds (Discovery.enterBlock tree parent kind index).1 := by
  have made := holds.internChild within .block
  rw [enterBlock_eq]
  dsimp only
  split
  next => exact made
  next => exact made.setEntity _ (allows_block kind .empty)

theorem defineLocal {scope : ScopeId} {name : String}
    (within : DottedName.child (tree.raw scope) name ∈ horizon.paths) (range : Range) :
    horizon.Holds (Discovery.defineLocal tree scope name range).1 := by
  have made := holds.internChild within .value
  rw [defineLocal_eq]
  dsimp only
  split
  next => exact made
  next =>
    exact (made.setEntity _ (allows_variable name
      (some range))).modifyEntity scope fun _ allows => allows.mapLocals _

theorem assignField (closed : horizon.Closed config) {frame : Frame} {name : String} {evidence : Evidence}
    (admits : horizon.Admits evidence)
    (fields : ∀ owner, tree.nearestClass frame.scope = some owner →
      DottedName.child (tree.raw owner) ScopeTree.fieldsName ∈ horizon.paths ∧
      DottedName.child (DottedName.child (tree.raw owner) ScopeTree.fieldsName) name ∈ horizon.paths)
    (range : Range) : horizon.Holds (Discovery.assignField tree frame name evidence range).1 := by
  cases nearest : tree.nearestClass frame.scope with
  | none => rw [assignField_outside tree nearest]; exact holds
  | some owner =>
    rw [assignField_eq tree nearest]
    obtain ⟨table, field⟩ := fields owner nearest
    have occupied := (holds.internField table field).occupy (tree.internField owner name).2 name range
    have listed := occupied.modifyEntity owner (f := Entity.mapClass fun held =>
      { held with fields := held.fields.insertNew name (tree.internField owner name).2 }) fun _ allows =>
      allows.mapClass fun _ => rfl
    exact listed.applyEvidence closed admits (tree.internField owner name).2

theorem baseScope {scope : ScopeId} {base : String}
    (within : DottedName.child (tree.raw scope) base ∈ horizon.paths) :
    horizon.Holds (Discovery.baseScope tree scope base).1 := by
  rw [baseScope_eq]
  split
  next => exact holds
  next => exact holds.internChild within .table

theorem memberScope {parent : ScopeId} {name : String}
    (within : DottedName.child (tree.raw parent) name ∈ horizon.paths) (range : Range) :
    horizon.Holds (Discovery.memberScope tree parent name range).1 := by
  unfold Discovery.memberScope
  dsimp only
  generalize (if (tree.classAt? parent).isSome then ValueType.value else ValueType.field) = valueType
  have made := holds.internChild within valueType
  split
  next => exact made
  next =>
    exact (made.setEntity _ (allows_variable name
      (some range))).modifyEntity parent fun _ allows => allows.mapLocals _

theorem assignMember (closed : horizon.Closed config) {frame : Frame}
    {base name : String} {evidence : Evidence}
    (admits : horizon.Admits evidence) (bases : DottedName.child (tree.raw frame.scope) base ∈ horizon.paths)
    (within : DottedName.child ((Discovery.baseScope tree frame.scope base).1.raw
      (Discovery.baseScope tree frame.scope base).2.1)
      name ∈ horizon.paths)
    (range : Range) : horizon.Holds (Discovery.assignMember tree frame base name evidence range).1 := by
  have member := (holds.baseScope bases).memberScope within range
  rw [assignMember_eq]
  dsimp only
  split
  next => exact member.applyEvidence closed admits _
  next => exact member

/-! ### Propagation -/

theorem incoming (closed : horizon.Closed config) (owner : ScopeId) (references : List Reference) :
    ∀ type ∈ Discovery.incoming tree owner references, type ∈ horizon.types := by
  intro type member
  obtain ⟨_, _, target, _, offered⟩ := mem_incoming.1 member
  exact holds.referenceTypes closed target type offered

theorem propagateInto (closed : horizon.Closed config) (owner : ScopeId) :
    horizon.Holds (Discovery.propagateInto tree owner).1 := by
  cases held : tree.entity? owner with
  | none => rw [propagateInto_vacant tree held]; exact holds
  | some entity =>
    rw [propagateInto_held tree held]
    have allows := holds.entities held
    have settled : horizon.Allows { entity with references := entity.references.mapValues (settle tree owner) } := by
      refine ⟨allows.name, allows.types, ?_⟩
      have same : (entity.references.mapValues (settle tree owner)).keys = entity.references.keys := by
        simp only [OrderedMap.keys, OrderedMap.mapValues, List.map_map, Function.comp_def]
      rw [same]
      exact allows.keys
    exact holds.setEntity owner (settled.gather (holds.incoming closed owner entity.references.values))

theorem propagate (closed : horizon.Closed config) : horizon.Holds (Discovery.propagate tree).1 := by
  rw [propagate_eq]
  generalize referrers tree = owners
  induction owners generalizing tree with
  | nil => exact holds
  | cons owner rest ih => exact ih (holds.propagateInto closed owner)

end Holds
end Horizon
end LuaClasses
