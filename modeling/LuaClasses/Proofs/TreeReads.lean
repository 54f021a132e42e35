import LuaClasses.Discovery.Walk
import LuaClasses.Proofs.Maps

/-! What is read from a tree of scopes after a write. Writing an entity leaves all nodes where
they are; making a child adds one node at the end and one entry to its parent. A node is read off
two tables, and what is read off a node is what either table has. -/

namespace LuaClasses

theorem ScopeId.eq_of_index {first second : ScopeId} (same : first.index = second.index) :
    first = second := by
  cases first; cases second; simp_all

/-- A path leads to the scope that has it. -/
theorem Arena.InStep.find?_eq_some_iff {arena : Arena} (inStep : arena.InStep) {raw : String} {id : ScopeId} :
    arena.find? raw = some id ↔ ∃ path, arena.path? id = some path ∧ path.raw = raw := by
  rw [find?, OrderedMap.get?_eq_some_iff, inStep.known, List.mem_iff_getElem?]
  simp only [List.getElem?_mapIdx, Array.getElem?_toList, Option.map_eq_some_iff, Prod.mk.injEq, path?]
  constructor
  · rintro ⟨index, path, found, rfl, rfl⟩
    exact ⟨path, found, rfl⟩
  · rintro ⟨path, found, rfl⟩
    exact ⟨id.index, path, found, rfl, rfl⟩

/-- A node as it is when nothing occupies it. -/
def Node.vacant (node : Node) : Node := { node with entity := none }

namespace ScopeTree

variable (tree : ScopeTree)

/-! ### The tables -/

theorem node?_eq_some_iff {id : ScopeId} {node : Node} :
    tree.node? id = some node ↔ ∃ path, tree.path? id = some path ∧
      path.node (tree.toArena.entity? id) = node :=
  Option.map_eq_some_iff

theorem raw_eq (id : ScopeId) : tree.raw id = tree.toArena.raw id := by
  simp only [raw, node?, Arena.raw, Option.map_map]
  rfl

theorem parent?_eq (id : ScopeId) : tree.parent? id = tree.toArena.parent? id := by
  simp only [parent?, node?, Arena.parent?, Option.bind_map]
  rfl

theorem child?_eq (id : ScopeId) (name : String) : tree.child? id name = tree.toArena.child? id name := by
  simp only [child?, node?, Arena.child?, Option.bind_map]
  rfl

theorem children_eq (id : ScopeId) : tree.children id = tree.toArena.children id := by
  simp only [children, node?, Arena.children, Option.map_map]
  rfl

/-- There is an entity only where there is a path, since the tables are in step. -/
theorem entity?_eq (id : ScopeId) : tree.entity? id = tree.toArena.entity? id := by
  simp only [entity?, node?, Option.bind_map]
  cases found : tree.path? id with
  | some path => rfl
  | none =>
    have beyond : tree.entities.size ≤ id.index := tree.inStep.slots ▸ Array.getElem?_eq_none_iff.1 found
    simp only [Arena.entity?, Array.getElem?_eq_none beyond]
    rfl

theorem getElem?_nodes (index : Nat) : tree.nodes[index]? = tree.node? ⟨index⟩ := by
  simp only [nodes, List.getElem?_mapIdx, Array.getElem?_toList]
  rfl

theorem length_nodes : tree.nodes.length = tree.size := by
  simp only [nodes, List.length_mapIdx, Array.length_toList, size]

theorem mem_nodes {tree : ScopeTree} {id : ScopeId} {node : Node} (found : tree.node? id = some node) :
    node ∈ tree.nodes :=
  List.mem_iff_getElem?.2 ⟨id.index, (getElem?_nodes tree id.index).trans found⟩

theorem exists_of_mem_nodes {tree : ScopeTree} {node : Node} (listed : node ∈ tree.nodes) :
    ∃ id, tree.node? id = some node := by
  obtain ⟨index, found⟩ := List.mem_iff_getElem?.1 listed
  exact ⟨⟨index⟩, (getElem?_nodes tree index).symm.trans found⟩

private theorem node?_isSome (id : ScopeId) : (tree.node? id).isSome ↔ id.index < tree.size := by
  simp [node?, size, Arena.path?]

theorem size_eq_iff_node? {tree other : ScopeTree}
    (same : ∀ id, (tree.node? id).isSome = (other.node? id).isSome) : tree.size = other.size := by
  have first := node?_isSome tree ⟨other.size⟩
  have second := node?_isSome other ⟨tree.size⟩
  rw [same] at first
  rw [← same] at second
  have left := node?_isSome tree ⟨tree.size⟩
  have right := node?_isSome other ⟨other.size⟩
  simp only [Nat.lt_irrefl, iff_false] at left right
  have := mt first.2 right
  have := mt second.2 left
  dsimp only at *
  omega

theorem index_lt_of_node? {tree : ScopeTree} {id : ScopeId} {node : Node}
    (found : tree.node? id = some node) :
    id.index < tree.size :=
  (node?_isSome tree id).1 (by rw [found]; rfl)

theorem exists_node? {tree : ScopeTree} {id : ScopeId} (inside : id.index < tree.size) :
    ∃ node, tree.node? id = some node :=
  Option.isSome_iff_exists.1 ((node?_isSome tree id).2 inside)

theorem index_lt_of_entity? {tree : ScopeTree} {id : ScopeId} {entity : Entity}
    (found : tree.entity? id = some entity) : id.index < tree.size := by
  obtain ⟨node, present, _⟩ := Option.bind_eq_some_iff.1 found
  exact index_lt_of_node? present

theorem node?_of_size_le {tree : ScopeTree} {id : ScopeId} (beyond : tree.size ≤ id.index) :
    tree.node? id = none := by
  rw [node?, Arena.path?, Array.getElem?_eq_none beyond]
  rfl

theorem node?_modifySlot (id other : ScopeId) (f : Option Entity → Option Entity) :
    (tree.modifySlot id f).node? other =
      if other = id then (tree.node? id).map fun node =>
        { node with entity := f node.entity } else tree.node? other := by
  by_cases same : other = id
  · subst same
    have slot : tree.path? other = none ∨ ∃ entity, tree.entities[other.index]? = some entity := by
      by_cases inside : other.index < tree.paths.size
      · exact .inr ⟨_, Array.getElem?_eq_getElem (tree.inStep.slots ▸ inside)⟩
      · exact .inl (Array.getElem?_eq_none (Nat.le_of_not_lt inside))
    simp only [node?, modifySlot, Arena.modifySlot, Arena.entity?, if_true,
      Option.map_map, Array.getElem?_modify]
    rcases slot with absent | ⟨entity, held⟩
    · simp only [Arena.path?] at absent ⊢
      simp only [absent, Option.map_none]
    · simp only [held, Option.map_some, Option.join_some]
      rfl
  · have apart : id.index ≠ other.index := fun equal => same (ScopeId.eq_of_index equal.symm)
    simp only [node?, modifySlot, Arena.modifySlot, Arena.entity?, Array.getElem?_modify,
      if_neg same, if_neg apart]
    rfl

theorem find?_eq_some_iff {path : String} {id : ScopeId} :
    tree.find? path = some id ↔ ∃ node, tree.node? id = some node ∧ node.raw = path := by
  rw [find?, ← Arena.find?, tree.inStep.find?_eq_some_iff]
  simp only [node?_eq_some_iff]
  constructor
  · rintro ⟨place, found, rfl⟩
    exact ⟨_, ⟨place, found, rfl⟩, rfl⟩
  · rintro ⟨_, ⟨place, found, rfl⟩, rfl⟩
    exact ⟨place, found, rfl⟩

theorem find?_eq_none_iff {path : String} :
    tree.find? path = none ↔ ∀ id node, tree.node? id = some node → node.raw ≠ path := by
  simp only [Option.eq_none_iff_forall_ne_some, ne_eq, find?_eq_some_iff, not_exists, not_and]

theorem raw_of_node? {tree : ScopeTree} {id : ScopeId} {node : Node} (found : tree.node? id = some node) :
    tree.raw id = node.raw := by
  simp [raw, found]

theorem index_lt_of_find? {tree : ScopeTree} {path : String} {id : ScopeId}
    (found : tree.find? path = some id) :
    id.index < tree.size := by
  obtain ⟨node, present, _⟩ := (find?_eq_some_iff tree).1 found
  exact index_lt_of_node? present

theorem raw_of_find? {tree : ScopeTree} {path : String} {id : ScopeId} (found : tree.find? path = some id) :
    tree.raw id = path := by
  obtain ⟨node, present, same⟩ := (find?_eq_some_iff tree).1 found
  rw [raw_of_node? present, same]

/-- Two trees with the same nodes, whatever occupies them. -/
def SameShape (first second : ScopeTree) : Prop :=
  ∀ id, (first.node? id).map Node.vacant = (second.node? id).map Node.vacant

namespace SameShape

variable {first second third : ScopeTree}

theorem refl (tree : ScopeTree) : SameShape tree tree := fun _ => rfl

theorem symm (same : SameShape first second) : SameShape second first := fun id => (same id).symm

theorem trans (one : SameShape first second) (two : SameShape second third) : SameShape first third :=
  fun id => (one id).trans (two id)

theorem node? (same : SameShape first second) {id : ScopeId} {node : Node}
    (found : first.node? id = some node) :
    ∃ other, second.node? id = some other ∧ other.vacant = node.vacant := by
  have equal := same id
  rw [found] at equal
  exact Option.map_eq_some_iff.1 equal.symm

theorem size (same : SameShape first second) : first.size = second.size :=
  size_eq_iff_node? fun id => by simpa using congrArg Option.isSome (same id)

/-- What does not depend on the entity of a node is read alike in both trees. -/
theorem read {α : Type} (same : SameShape first second) (id : ScopeId) (f : Node → Option α)
    (unmoved : ∀ node, f node.vacant = f node) : (first.node? id).bind f = (second.node? id).bind f := by
  have equal := congrArg (Option.bind · f) (same id)
  simpa only [Option.bind_map, Function.comp_def, unmoved] using equal

theorem raw (same : SameShape first second) (id : ScopeId) : first.raw id = second.raw id := by
  have equal := same.read id (fun node => some node.raw) fun _ => rfl
  simpa only [ScopeTree.raw, Option.map_eq_bind, Function.comp_def] using congrArg (Option.getD · "") equal

theorem parent? (same : SameShape first second) (id : ScopeId) : first.parent? id = second.parent? id :=
  same.read id Node.parent fun _ => rfl

theorem child? (same : SameShape first second) (id : ScopeId) (name : String) :
    first.child? id name = second.child? id name :=
  same.read id (fun node => node.children.get? name) fun _ => rfl

theorem find? (same : SameShape first second) (path : String) : first.find? path = second.find? path := by
  have moved : ∀ {one two : ScopeTree} {id : ScopeId}, SameShape one two → one.find? path = some id →
      two.find? path = some id := by
    intro one two id alike found
    obtain ⟨node, present, raw⟩ := (find?_eq_some_iff one).1 found
    obtain ⟨other, there, equal⟩ := alike.node? present
    exact (find?_eq_some_iff two).2 ⟨other, there, (congrArg Node.raw equal).trans raw⟩
  cases found : first.find? path with
  | some id => exact (moved same found).symm
  | none =>
    cases other : second.find? path with
    | none => rfl
    | some id => rw [moved same.symm other] at found; cases found

end SameShape
/-! ### Writing entities -/

private theorem sameShape_modifySlot (id : ScopeId) (f : Option Entity → Option Entity) :
    SameShape (tree.modifySlot id f) tree := by
  intro other
  rw [node?_modifySlot]
  split
  next same => subst same; rw [Option.map_map]; rfl
  next => rfl

theorem sameShape_setEntity (id : ScopeId) (entity : Entity) : SameShape (tree.setEntity id entity) tree :=
  sameShape_modifySlot tree id _

theorem sameShape_clearEntity (id : ScopeId) : SameShape (tree.clearEntity id) tree :=
  sameShape_modifySlot tree id _

theorem sameShape_modifyEntity (id : ScopeId) (f : Entity → Entity) :
    SameShape (tree.modifyEntity id f) tree :=
  sameShape_modifySlot tree id _

theorem entity?_setEntity (id other : ScopeId) (entity : Entity) :
    (tree.setEntity id entity).entity? other =
      if other = id then (tree.node? id).map fun _ => entity else tree.entity? other := by
  simp only [entity?, setEntity, node?_modifySlot]
  split
  next => cases tree.node? id <;> rfl
  next => rfl

theorem entity?_setEntity_self {tree : ScopeTree} {id : ScopeId} (inside : id.index < tree.size)
    (entity : Entity) :
    (tree.setEntity id entity).entity? id = some entity := by
  obtain ⟨node, found⟩ := exists_node? inside
  simp [entity?_setEntity, found]

theorem hasEntity_setEntity_self {tree : ScopeTree} {id : ScopeId} (inside : id.index < tree.size)
    (entity : Entity) :
    (tree.setEntity id entity).hasEntity id = true := by
  rw [hasEntity, entity?_setEntity_self inside]
  rfl

theorem entity?_clearEntity (id other : ScopeId) :
    (tree.clearEntity id).entity? other = if other = id then none else tree.entity? other := by
  simp only [entity?, clearEntity, node?_modifySlot]
  split
  next => cases tree.node? id <;> rfl
  next => rfl

theorem entity?_modifyEntity (id other : ScopeId) (f : Entity → Entity) :
    (tree.modifyEntity id f).entity? other =
      if other = id then (tree.entity? id).map f else tree.entity? other := by
  simp only [entity?, modifyEntity, node?_modifySlot]
  split
  next => cases tree.node? id <;> rfl
  next => rfl

@[simp] theorem globals_setEntity (id : ScopeId) (entity : Entity) :
    (tree.setEntity id entity).globals = tree.globals := rfl

@[simp] theorem globals_modifyEntity (id : ScopeId) (f : Entity → Entity) :
    (tree.modifyEntity id f).globals = tree.globals := rfl

/-- The tables of a tree are told by its nodes. -/
theorem eq_of_node? {first second : ScopeTree} (nodes : ∀ id, first.node? id = second.node? id)
    (globals : first.globals = second.globals) : first = second := by
  have paths : first.paths = second.paths := Array.ext_getElem? fun index => by
    have same := congrArg (Option.map fun node : Node => ScopePath.mk node.raw node.name node.parent
      node.children node.valueType)
      (nodes ⟨index⟩)
    simpa only [node?, Option.map_map, Function.comp_def, ScopePath.node,
      Option.map_id', Arena.path?] using same
  have entities : first.entities = second.entities := by
    refine Array.ext (by rw [first.inStep.slots, second.inStep.slots, paths]) fun index left right => ?_
    have same : first.entity? ⟨index⟩ = second.entity? ⟨index⟩ := by rw [entity?, entity?, nodes]
    rw [entity?_eq, entity?_eq, Arena.entity?, Arena.entity?, Array.getElem?_eq_getElem left,
      Array.getElem?_eq_getElem right] at same
    exact same
  have known : first.byRaw = second.byRaw :=
    OrderedMap.ext (by rw [first.inStep.known, second.inStep.known, paths])
  obtain ⟨⟨_, _, _⟩, _, _⟩ := first
  obtain ⟨⟨_, _, _⟩, _, _⟩ := second
  cases paths
  cases entities
  cases known
  cases globals
  rfl

/-- Placing the entity that is already there changes nothing. -/
theorem setEntity_self {tree : ScopeTree} {id : ScopeId} {entity : Entity}
    (held : tree.entity? id = some entity) :
    tree.setEntity id entity = tree := by
  obtain ⟨node, found, equal⟩ := Option.bind_eq_some_iff.1 held
  refine eq_of_node? (fun other => ?_) rfl
  rw [setEntity, node?_modifySlot]
  split
  next same => subst same; rw [found, Option.map_some, ← equal]
  next => rfl

end ScopeTree
end LuaClasses
