import LuaClasses.Proofs.BlockPaths
import LuaClasses.Proofs.FieldsApart
import LuaClasses.Proofs.FunctionIntake
import LuaClasses.Proofs.ScopeNames

/-! The scopes of blocks, in programs none of whose names is spelled like that of a block. A walk places
a block on such a scope and nothing else, and enters no such scope among the names that an entity
stores. -/

namespace LuaClasses

/-- The kind of a block. Other entities have none. -/
def Entity.blockKind? (entity : Entity) : Option BlockKind :=
  match entity.kind with
  | .block held => some held.kind
  | _ => none

namespace Entity

private theorem blockKind?_gather (entity : Entity) (types : TypeSet) :
    (entity.gather types).blockKind? = entity.blockKind? := by
  obtain ⟨references, kind⟩ := entity
  cases kind <;> rfl

private theorem blockKind?_mapLocals (entity : Entity) (f : Members → Members) :
    (entity.mapLocals f).blockKind? = entity.blockKind? := by
  obtain ⟨references, kind⟩ := entity
  cases kind <;> rfl

private theorem blockKind?_mapClass (entity : Entity) (f : Class → Class) :
    (entity.mapClass f).blockKind? = entity.blockKind? := by
  obtain ⟨references, kind⟩ := entity
  cases kind <;> rfl

end Entity

namespace Discovery
open ScopeTree DottedName

/-- A name of one segment that is not spelled like that of a block. -/
def Unmarked (name : String) : Prop := '.' ∉ name.toList ∧ ¬NamesBlock name

variable {tree before after : ScopeTree}

/-- Whether the path of a scope ends in a name that is not spelled like that of a block. -/
def OffBlocks (tree : ScopeTree) (id : ScopeId) : Prop :=
  ∃ outer name, tree.find? (child outer name) = some id ∧ Unmarked name

/-- Whether the path of a scope ends in the name of a block of a kind. -/
def BlockAt (tree : ScopeTree) (id : ScopeId) (kind : BlockKind) : Prop :=
  ∃ outer index, tree.find? (child outer (blockName kind index)) = some id

theorem OffBlocks.not_blockAt {id : ScopeId} (off : OffBlocks tree id) (kind : BlockKind) :
    ¬BlockAt tree id kind := by
  rintro ⟨other, index, there⟩
  obtain ⟨outer, name, found, dotless, unmarked⟩ := off
  have same := (child_inj dotless (plain_blockName kind index).1
    ((raw_of_find? found).symm.trans (raw_of_find? there))).2
  exact unmarked ⟨kind, index, same⟩

theorem BlockAt.unique {id : ScopeId} {kind other : BlockKind} (one : BlockAt tree id kind)
    (two : BlockAt tree id other) :
    kind = other := by
  obtain ⟨_, index, found⟩ := one
  obtain ⟨_, place, there⟩ := two
  have same := child_inj (plain_blockName kind index).1 (plain_blockName other place).1
    ((raw_of_find? found).symm.trans (raw_of_find? there))
  exact (blockName_inj same.2).1

/-- Whether blocks stand on the scopes that are named like blocks, and nothing else does, nor stores any
entity or index one. -/
structure Walled (tree : ScopeTree) : Prop where
  held : ∀ {id kind entity}, BlockAt tree id kind → tree.entity? id = some entity →
    entity.blockKind? = some kind
  stored : ∀ {id entity slot}, tree.entity? id = some entity →
    slot ∈ entity.kind.stored → OffBlocks tree slot.2
  globals : ∀ id ∈ tree.globals.stored, OffBlocks tree id

/-- A change that places blocks on the scopes of blocks and all else elsewhere. -/
structure Walls (before after : ScopeTree) : Prop where
  found : ∀ {path id}, before.find? path = some id → after.find? path = some id
  entity : ∀ {id entity}, after.entity? id = some entity →
    (∃ former, before.entity? id = some former ∧ entity.blockKind? = former.blockKind?) ∨ OffBlocks after id ∨
      ∃ kind, BlockAt after id kind ∧ entity.blockKind? = some kind
  stored : ∀ {id entity slot}, after.entity? id = some entity → slot ∈ entity.kind.stored →
    (∃ former, before.entity? id = some former ∧ slot ∈ former.kind.stored) ∨ OffBlocks after slot.2
  globals : after.globals = before.globals

namespace Walls

variable {first second third : ScopeTree}

section Found

variable (found : ∀ {path id}, before.find? path = some id → after.find? path = some id) {id : ScopeId}
include found

private theorem offBlocks (off : OffBlocks before id) : OffBlocks after id := by
  obtain ⟨outer, name, there, unmarked⟩ := off
  exact ⟨outer, name, found there, unmarked⟩

private theorem blockAt {kind : BlockKind} (at_ : BlockAt before id kind) : BlockAt after id kind := by
  obtain ⟨outer, index, there⟩ := at_
  exact ⟨outer, index, found there⟩

end Found

/-- A change that leaves the entities alone. -/
theorem of_entities (found : ∀ {path id}, first.find? path = some id → second.find? path = some id)
    (same : ∀ id, second.entity? id = first.entity? id) (globals : second.globals = first.globals) :
    Walls first second where
  found := found
  entity := fun {id entity} held => .inl ⟨entity, (same id).symm.trans held, rfl⟩
  stored := fun {id entity _} held member => .inl ⟨entity, (same id).symm.trans held, member⟩
  globals := globals

theorem refl (tree : ScopeTree) : Walls tree tree := of_entities id (fun _ => rfl) rfl

theorem trans (one : Walls first second) (two : Walls second third) : Walls first third where
  found := fun there => two.found (one.found there)
  entity := by
    intro id entity held
    rcases two.entity held with ⟨middle, known, same⟩ | new
    · rw [same]
      refine (one.entity known).imp_right (Or.imp (offBlocks two.found) ?_)
      exact fun ⟨kind, at_, block⟩ => ⟨kind, blockAt two.found at_, block⟩
    · exact .inr new
  stored := by
    intro id entity slot held member
    rcases two.stored held member with ⟨middle, known, listed⟩ | new
    · exact (one.stored known listed).imp_right (offBlocks two.found)
    · exact .inr new
  globals := two.globals.trans one.globals

/-- What is walled stays so. -/
theorem walled (walls : Walls before after) (formed : before.Formed) (walled : Walled before) :
    Walled after where
  held := by
    intro id kind entity at_ held
    rcases walls.entity held with ⟨former, known, same⟩ | off | ⟨other, there, block⟩
    · rw [same]
      refine walled.held ?_ known
      obtain ⟨outer, index, found⟩ := at_
      have old := formed.find?_raw (index_lt_of_entity? known)
      rw [(raw_of_find? (walls.found old)).symm.trans (raw_of_find? found)] at old
      exact ⟨outer, index, old⟩
    · exact absurd at_ (off.not_blockAt kind)
    · rw [block, there.unique at_]
  stored := by
    intro id entity slot held member
    rcases walls.stored held member with ⟨former, known, listed⟩ | new
    · exact offBlocks walls.found (walled.stored known listed)
    · exact new
  globals := by
    intro id member
    rw [walls.globals] at member
    exact offBlocks walls.found (walled.globals id member)

theorem internChild (tree : ScopeTree) (parent : ScopeId) (name : String) (valueType : ValueType) :
    Walls tree (tree.internChild parent name valueType).1 :=
  of_entities (tree.grows_internChild parent name valueType).find?
    (entity?_internChild valueType tree parent name)
    (globals_internChild valueType tree parent name)

/-- An entity may stand where it belongs if it stores nothing. -/
theorem setEntity {id : ScopeId} {entity : Entity}
    (fits : (∃ former, tree.entity? id = some former ∧ entity.blockKind? = former.blockKind?) ∨
      OffBlocks tree id ∨
      ∃ kind, BlockAt tree id kind ∧ entity.blockKind? = some kind)
    (stored : ∀ slot ∈ entity.kind.stored, ∃ former, tree.entity? id = some former ∧
      slot ∈ former.kind.stored) :
    Walls tree (tree.setEntity id entity) := by
  have same := sameShape_setEntity tree id entity
  have kept : ∀ {path other}, tree.find? path = some other →
      (tree.setEntity id entity).find? path = some other :=
    fun found => (same.find? _).trans found
  have later : ∀ {other found}, (tree.setEntity id entity).entity? other = some found →
      other = id ∧ found = entity ∨ tree.entity? other = some found := by
    intro other found held
    rw [entity?_setEntity] at held
    split at held
    next equal =>
      obtain ⟨_, _, rfl⟩ := Option.map_eq_some_iff.1 held
      exact .inl ⟨equal, rfl⟩
    next => exact .inr held
  refine ⟨kept, fun {other found} held => ?_, fun {other found slot} held member => ?_, rfl⟩
  · rcases later held with ⟨rfl, rfl⟩ | old
    · refine fits.imp_right (Or.imp (offBlocks kept) ?_)
      exact fun ⟨kind, at_, block⟩ => ⟨kind, blockAt kept at_, block⟩
    · exact .inl ⟨found, old, rfl⟩
  · rcases later held with ⟨rfl, rfl⟩ | old
    · exact .inl (stored slot member)
    · exact .inl ⟨found, old, member⟩

theorem modifyEntity {id : ScopeId} {f : Entity → Entity}
    (block : ∀ entity, (f entity).blockKind? = entity.blockKind?)
    (stored : ∀ {entity slot}, slot ∈ (f entity).kind.stored → OffBlocks tree slot.2 ∨
      slot ∈ entity.kind.stored)
    :
    Walls tree (tree.modifyEntity id f) := by
  have same := sameShape_modifyEntity tree id f
  have kept : ∀ {path other}, tree.find? path = some other →
      (tree.modifyEntity id f).find? path = some other :=
    fun found => (same.find? _).trans found
  have later : ∀ {other found}, (tree.modifyEntity id f).entity? other = some found →
      ∃ former, tree.entity? other = some former ∧ (found = f former ∨ found = former) := by
    intro other found held
    rw [entity?_modifyEntity] at held
    split at held
    next equal =>
      obtain ⟨former, known, rfl⟩ := Option.map_eq_some_iff.1 held
      exact ⟨former, equal ▸ known, .inl rfl⟩
    next => exact ⟨found, held, .inr rfl⟩
  refine ⟨kept, fun {other found} held => ?_, fun {other found slot} held member => ?_, rfl⟩
  · obtain ⟨former, known, rfl | rfl⟩ := later held
    · exact .inl ⟨former, known, block former⟩
    · exact .inl ⟨found, known, rfl⟩
  · obtain ⟨former, known, rfl | rfl⟩ := later held
    · exact (stored member).symm.imp (⟨former, known, ·⟩) (offBlocks kept)
    · exact .inl ⟨found, known, member⟩

end Walls

/-! ### The writes of a walk -/

private theorem walls_applyEvidence (target : ScopeId) (evidence : Evidence) :
    Walls tree (applyEvidence tree target evidence).1 := by
  cases held : tree.entity? target with
  | none => rw [applyEvidence_vacant tree held]; exact .refl tree
  | some entity =>
    rw [applyEvidence_held tree held]
    have kind := evidence.kind_absorb tree target entity
    refine .setEntity (.inl ⟨entity, held, ?_⟩) fun slot member => ⟨entity, held, ?_⟩
    · rw [Entity.blockKind?, kind]
      exact entity.blockKind?_gather _
    · rw [kind, Entity.stored_gather] at member
      exact member

theorem walls_propagateInto (owner : ScopeId) : Walls tree (propagateInto tree owner).1 := by
  cases held : tree.entity? owner with
  | none => rw [propagateInto_vacant tree held]; exact .refl tree
  | some entity =>
    rw [propagateInto_held tree held]
    refine .setEntity (.inl ⟨entity, held, Entity.blockKind?_gather _ _⟩)
      fun slot member => ⟨entity, held, ?_⟩
    rw [Entity.stored_gather] at member
    exact member

private theorem walls_enterBlock (parent : ScopeId) (kind : BlockKind) (index : Nat) :
    Walls tree (enterBlock tree parent kind index).1 := by
  have made := Walls.internChild tree parent (blockName kind index) .block
  have found := find?_internChild .block tree parent (blockName kind index)
  rw [enterBlock_eq]
  dsimp only
  split
  next => exact made
  next => exact made.trans (.setEntity (.inr (.inr ⟨kind, ⟨_, index, found⟩, rfl⟩)) nofun)

/-- A variable may be placed on a scope that is no block's and entered among the names of another. -/
theorem walls_addLocal {scope id : ScopeId} {name : String} (off : OffBlocks tree id)
    (origin : Option Range) {f : Members → Members}
    (added : ∀ names entry, entry ∈ (f names).entries → entry = (name, id) ∨ entry ∈ names.entries) :
    Walls tree ((tree.setEntity id (.new (.variable (.new name origin)))).modifyEntity scope
      (Entity.mapLocals f)) := by
  have placed : Walls tree (tree.setEntity id (.new (.variable (.new name origin)))) :=
    .setEntity (.inr (.inl off)) nofun
  refine placed.trans (.modifyEntity (fun entity => entity.blockKind?_mapLocals f) fun member => ?_)
  rcases Entity.stored_mapLocals added member with rfl | old
  · exact .inl (Walls.offBlocks placed.found off)
  · exact .inr old

private theorem walls_defineLocal (scope : ScopeId) {name : String} (unmarked : Unmarked name)
    (range : Range) :
    Walls tree (defineLocal tree scope name range).1 := by
  have made := Walls.internChild tree scope name .value
  have found := find?_internChild .value tree scope name
  rw [defineLocal_eq]
  dsimp only
  split
  next => exact made
  next =>
    exact made.trans (walls_addLocal ⟨_, name, found, unmarked⟩ (some range) fun _ _ member =>
      OrderedMap.mem_insert member)

private theorem walls_baseScope (scope : ScopeId) (base : String) :
    Walls tree (baseScope tree scope base).1 := by
  rw [baseScope_eq]
  split
  next => exact .refl tree
  next => exact .internChild tree scope base .table

private theorem walls_memberScope (tree : ScopeTree) (parent : ScopeId) {name : String}
    (unmarked : Unmarked name) (range : Range) :
    Walls tree (memberScope tree parent name range).1 := by
  unfold memberScope
  dsimp only
  generalize (if (tree.classAt? parent).isSome then ValueType.value else ValueType.field) = valueType
  have made := Walls.internChild tree parent name valueType
  have found := find?_internChild valueType tree parent name
  split
  next => exact made
  next =>
    exact made.trans (walls_addLocal ⟨_, name, found, unmarked⟩ (some range) fun _ _ member =>
      OrderedMap.mem_insertNew member)

private theorem walls_assignMember (frame : Frame) (base : String) {name : String}
    (unmarked : Unmarked name) (evidence : Evidence) (range : Range) :
    Walls tree (assignMember tree frame base name evidence range).1 := by
  have member := (walls_baseScope frame.scope base).trans
    (walls_memberScope (baseScope tree frame.scope base).1
      (baseScope tree frame.scope base).2.1 unmarked range)
  rw [assignMember_eq]
  dsimp only
  split
  next => exact member.trans (walls_applyEvidence _ evidence)
  next => exact member

private theorem walls_assignField (frame : Frame) {name : String} (unmarked : Unmarked name)
    (evidence : Evidence) (range : Range) :
    Walls tree (assignField tree frame name evidence range).1 := by
  cases nearest : tree.nearestClass frame.scope with
  | none => rw [assignField_outside tree nearest]; exact .refl tree
  | some owner =>
    rw [assignField_eq tree nearest]
    have made : Walls tree (tree.internField owner name).1 :=
      (Walls.internChild tree owner fieldsName .table).trans (.internChild _ _ name .field)
    have off : OffBlocks (tree.internField owner name).1 (tree.internField owner name).2 :=
      ⟨_, name, find?_internField tree owner name, unmarked⟩
    dsimp only
    generalize tree.internField owner name = field at made off ⊢
    have occupied : Walls field.1 (field.1.occupy field.2 name range) := by
      unfold occupy
      split
      next => exact .refl _
      next => exact .setEntity (.inr (.inl off)) nofun
    have listed : Walls (field.1.occupy field.2 name range)
        ((field.1.occupy field.2 name range).modifyClass owner fun held =>
        { held with fields := held.fields.insertNew name field.2 }) := by
      refine .modifyEntity (fun entity => entity.blockKind?_mapClass _) fun member => ?_
      rcases Entity.stored_mapFields (fun _ _ added => OrderedMap.mem_insertNew added) member with rfl | old
      · exact .inl (Walls.offBlocks occupied.found off)
      · exact .inr old
    exact ((made.trans occupied).trans listed).trans (walls_applyEvidence _ evidence)

/-! ### Steps of a body -/

section Steps

variable {state : State} (frame : Frame)

private theorem walls_assign {target : Expr} (unmarked : ∀ name ∈ target.names, Unmarked name)
    (evidence : Evidence) (range : Range) :
    Walls state.tree (assign state frame target evidence range).1.tree := by
  rw [← Expr.names_unparen] at unmarked
  unfold assign
  generalize target.unparen = form at unmarked ⊢
  cases form with
  | name name =>
    dsimp only
    unfold assignName
    split
    next =>
      exact (walls_defineLocal frame.scope (unmarked name List.mem_cons_self) range).trans
        (walls_applyEvidence _ evidence)
    next id _ =>
      split
      next => exact walls_applyEvidence id evidence
      next => rw [State.tree_warn]; exact .refl _
  | member object name =>
    have named := unmarked name (List.mem_append_right _ (List.mem_singleton_self name))
    dsimp only
    split
    next base _ =>
      split
      next => exact walls_assignField frame named evidence range
      next => exact walls_assignMember frame base named evidence range
    next => rw [State.tree_warn]; exact .refl _
  | _ => dsimp only; rw [State.tree_warn]; exact .refl _

private theorem walls_action (config : DiscoveryConfig) {action : Action}
    (unmarked : ∀ name ∈ action.names, Unmarked name) (range : Range) :
    Walls state.tree (action.run config frame range state).1.tree := by
  cases action with
  | block kind index => exact walls_enterBlock frame.scope kind index
  | local_ name value =>
    exact (walls_defineLocal frame.scope (unmarked name List.mem_cons_self) range).trans
      (walls_applyEvidence _ _)
  | target expr value => exact walls_assign frame unmarked _ range
  | return_ values =>
    rw [Action.run]
    split
    next => exact .refl _
    next => exact walls_applyEvidence _ _

theorem walls_site (config : DiscoveryConfig) {site : Site}
    (unmarked : ∀ name ∈ site.action.names, Unmarked name) :
    Walls state.tree (site.run config frame state).1.tree := by
  unfold Site.run
  split
  next => exact walls_action _ config unmarked site.range
  next => exact .refl _

end Steps

end Discovery
end LuaClasses
