import LuaClasses.Proofs.Growth

/-! Trees that are put together properly. Every scope but the root hangs below an older one by
its name, its path says so, and what an entity stores are scopes at the paths that its names
say. This holds whatever the names are; with dots in them two names may share a path. -/

namespace LuaClasses

/-- Members with the paths at which they stand below a path. -/
def placed (path : String) (members : Members) : List (String × ScopeId) :=
  members.entries.map fun entry => (DottedName.child path entry.1, entry.2)

/-- The scopes that an entity stores by name, each with the path that it has if the entity
stands at `path`. -/
def EntityKind.slots (path : String) : EntityKind → List (String × ScopeId)
  | .variable _ => []
  | .function held => placed path held.values
  | .constructor held => placed path held.values
  | .table held => placed path held.fields
  | .class_ held =>
    (DottedName.child path "constructor", held.constructor) ::
      (placed path held.values ++ placed path held.functions ++ placed path held.methods ++
        placed (DottedName.child path ScopeTree.fieldsName) held.fields)
  | .block held => placed path held.values

/-- The parameters of a function or constructor. Other entities have none. -/
def EntityKind.params : EntityKind → List ScopeId
  | .function held => held.params
  | .constructor held => held.params
  | _ => []

namespace ScopeTree

/-- Whether what an entity at a path stores are scopes of the tree at the right paths. -/
structure Fits (tree : ScopeTree) (path : String) (kind : EntityKind) : Prop where
  slots : ∀ slot ∈ kind.slots path, tree.find? slot.1 = some slot.2
  params : ∀ param ∈ kind.params, ∃ name, tree.find? (DottedName.child path name) = some param

structure Formed (tree : ScopeTree) : Prop where
  root : ∃ node, tree.node? root = some node ∧ node.parent = none
  distinct : ∀ {first second one two}, tree.node? first = some one → tree.node? second = some two →
    one.raw = two.raw → first = second
  below : ∀ {id node}, tree.node? id = some node → id ≠ ScopeTree.root →
    ∃ parent, node.parent = some parent ∧ parent.index < id.index ∧ tree.child? parent node.name = some id
  child : ∀ {parent name id}, tree.child? parent name = some id →
    ∃ node, tree.node? id = some node ∧ node.name = name ∧ node.parent = some parent ∧
      parent.index < id.index ∧ node.raw = DottedName.child (tree.raw parent) name
  entity : ∀ {id entity}, tree.entity? id = some entity → tree.Fits (tree.raw id) entity.kind

namespace Fits

variable {tree : ScopeTree} {path : String} {kind : EntityKind}

theorem mono {after : ScopeTree} (fits : tree.Fits path kind)
    (kept : ∀ path id, tree.find? path = some id → after.find? path = some id) : after.Fits path kind where
  slots := fun slot member => kept _ _ (fits.slots slot member)
  params := fun param member => (fits.params param member).imp fun _ found => kept _ _ found

/-- What grows of an entity besides the names below it does not matter. -/
theorem gather (entity : Entity) (types : TypeSet) (fits : tree.Fits path entity.kind) :
    tree.Fits path (entity.gather types).kind := by
  obtain ⟨references, kind⟩ := entity
  cases kind <;> exact ⟨fits.slots, fits.params⟩

theorem locals (entity : Entity) (fits : tree.Fits path entity.kind) :
    ∀ slot ∈ placed path entity.locals, tree.find? slot.1 = some slot.2 := by
  obtain ⟨references, kind⟩ := entity
  intro slot member
  cases kind with
  | «variable» held => simp [Entity.locals, Entity.locals?, placed, OrderedMap.empty] at member
  | class_ held =>
    exact fits.slots slot (List.mem_cons_of_mem _
      (by simp only [List.append_assoc]; exact List.mem_append_left _ member))
  | _ => exact fits.slots slot member

theorem mapLocals (entity : Entity) (f : Members → Members) (fits : tree.Fits path entity.kind)
    (names : ∀ slot ∈ placed path (f entity.locals), tree.find? slot.1 = some slot.2) :
    tree.Fits path (entity.mapLocals f).kind := by
  obtain ⟨references, kind⟩ := entity
  cases kind with
  | «variable» held => exact fits
  | class_ held =>
    refine ⟨fun slot member => ?_, fits.params⟩
    simp only [Entity.mapLocals, EntityKind.slots, List.append_assoc, List.mem_cons,
      List.mem_append] at member
    rcases member with rfl | member | member
    · exact fits.slots _ List.mem_cons_self
    · exact names slot member
    · refine fits.slots slot (List.mem_cons_of_mem _ ?_)
      simp only [List.append_assoc, List.mem_append]
      exact .inr member
  | _ => exact ⟨names, fits.params⟩

/-- A further name of an entity has to stand below it. -/
theorem addLocal (entity : Entity) {name : String} {id : ScopeId} (f : Members → Members)
    (added : ∀ names entry, entry ∈ (f names).entries → entry = (name, id) ∨ entry ∈ names.entries)
    (fits : tree.Fits path entity.kind) (found : tree.find? (DottedName.child path name) = some id) :
    tree.Fits path (entity.mapLocals f).kind := by
  refine fits.mapLocals entity f fun slot member => ?_
  obtain ⟨entry, present, rfl⟩ := List.mem_map.1 member
  rcases added _ entry present with rfl | held
  · exact found
  · exact fits.locals entity _ (List.mem_map_of_mem held)

theorem addField (entity : Entity) {name : String} {id : ScopeId} (fits : tree.Fits path entity.kind)
    (f : Members → Members)
    (added : ∀ names entry, entry ∈ (f names).entries → entry = (name, id) ∨ entry ∈ names.entries)
    (found : tree.find? (DottedName.child (DottedName.child path fieldsName) name) = some id) :
    tree.Fits path (entity.mapClass fun owner => { owner with fields := f owner.fields }).kind := by
  obtain ⟨references, kind⟩ := entity
  cases kind with
  | class_ held =>
    refine ⟨fun slot member => ?_, fits.params⟩
    simp only [Entity.mapClass, EntityKind.slots, ← List.cons_append, List.mem_append] at member
    rcases member with member | member
    · exact fits.slots slot (by
        simp only [EntityKind.slots, ← List.cons_append, List.mem_append]; exact .inl member)
    · obtain ⟨entry, present, rfl⟩ := List.mem_map.1 member
      rcases added _ entry present with rfl | old
      · exact found
      · refine fits.slots _ ?_
        simp only [EntityKind.slots, ← List.cons_append, List.mem_append]
        exact .inr (List.mem_map_of_mem old)
  | _ => exact fits

end Fits

/-! ### A new scope -/

section Hang

variable {tree : ScopeTree} {parent : ScopeId} {name : String} {valueType : ValueType}
  (absent : tree.find? (DottedName.child (tree.raw parent) name) = none)
include absent

private theorem node?_internChild_last (inside : parent.index < tree.size) (valueType : ValueType) :
    (tree.internChild parent name valueType).1.node? ⟨tree.size⟩ = some
      { raw := DottedName.child (tree.raw parent) name, name, valueType, children := .empty, entity := none
        parent := some parent } := by
  simp [node?_internChild valueType absent, inside]

/-- But for the new scope, all scopes were there before, with their names and parents. -/
theorem node?_internChild_older {id : ScopeId} {node : Node}
    (found : (tree.internChild parent name valueType).1.node? id = some node) (apart : id ≠ ⟨tree.size⟩) :
    ∃ old, tree.node? id = some old ∧ node.raw = old.raw ∧ node.name = old.name ∧
      node.parent = old.parent := by
  rw [node?_internChild valueType absent, if_neg fun last => apart (ScopeId.eq_of_index last)] at found
  split at found
  · obtain ⟨old, there, rfl⟩ := Option.map_eq_some_iff.1 found
    exact ⟨old, there, rfl, rfl, rfl⟩
  · exact ⟨node, found, rfl, rfl, rfl⟩

private theorem child?_internChild_last (inside : parent.index < tree.size)
    (fresh : tree.child? parent name = none) :
    (tree.internChild parent name valueType).1.child? parent name = some ⟨tree.size⟩ := by
  obtain ⟨node, found⟩ := exists_node? inside
  have unheld : node.children.get? name = none := by simpa [child?, found] using fresh
  simp [child?, node?_internChild valueType absent, Nat.ne_of_lt inside, found,
    OrderedMap.get?_insertNew, unheld]

theorem child?_internChild_older {holder id : ScopeId} {other : String}
    (found : (tree.internChild parent name valueType).1.child? holder other = some id)
    (apart : ¬(holder = parent ∧ other = name)) : tree.child? holder other = some id := by
  rw [child?, node?_internChild valueType absent] at found
  split at found
  · simp [OrderedMap.get?, OrderedMap.empty] at found
  · split at found
    next same =>
      subst same
      obtain ⟨node, there, held⟩ := Option.bind_eq_some_iff.1 found
      obtain ⟨old, present, rfl⟩ := Option.map_eq_some_iff.1 there
      rw [OrderedMap.get?_insertNew, if_neg fun equal => apart ⟨rfl, equal⟩] at held
      exact Option.bind_eq_some_iff.2 ⟨old, present, held⟩
    next => exact found

end Hang

namespace Formed

variable {tree : ScopeTree}

/-- The path of a scope leads back to it. -/
theorem find?_raw (formed : tree.Formed) {id : ScopeId} (inside : id.index < tree.size) :
    tree.find? (tree.raw id) = some id := by
  obtain ⟨node, found⟩ := exists_node? inside
  rw [raw_of_node? found]
  cases other : tree.find? node.raw with
  | none => exact absurd rfl ((find?_eq_none_iff tree).1 other id node found)
  | some first =>
    obtain ⟨held, present, same⟩ := (find?_eq_some_iff tree).1 other
    rw [formed.distinct present found same]

theorem find?_child (formed : tree.Formed) {parent id : ScopeId} {name : String}
    (found : tree.child? parent name = some id) :
    tree.find? (DottedName.child (tree.raw parent) name) = some id := by
  obtain ⟨node, present, _, _, _, raw⟩ := formed.child found
  rw [← raw, ← raw_of_node? present]
  exact formed.find?_raw (index_lt_of_node? present)

/-- Only what occupies scopes has changed. -/
theorem of_sameShape {after : ScopeTree} (formed : tree.Formed) (same : SameShape after tree)
    (fits : ∀ id entity, after.entity? id = some entity → tree.Fits (tree.raw id) entity.kind) :
    after.Formed where
  root := by
    obtain ⟨node, found, top⟩ := formed.root
    obtain ⟨other, there, equal⟩ := same.symm.node? found
    exact ⟨other, there, (congrArg Node.parent equal).trans top⟩
  distinct := by
    intro first second one two left right raw
    obtain ⟨one', there, equal⟩ := same.node? left
    obtain ⟨two', place, alike⟩ := same.node? right
    exact formed.distinct there place (((congrArg Node.raw equal).trans raw).trans
      (congrArg Node.raw alike).symm)
  below := by
    intro id node found apart
    obtain ⟨old, there, equal⟩ := same.node? found
    obtain ⟨parent, above, older, hangs⟩ := formed.below there apart
    refine ⟨parent, (congrArg Node.parent equal).symm.trans above, older, ?_⟩
    rw [same.child?, ← hangs]
    exact congrArg _ (congrArg Node.name equal).symm
  child := by
    intro parent name id found
    rw [same.child?] at found
    obtain ⟨node, present, named, above, older, raw⟩ := formed.child found
    obtain ⟨other, there, equal⟩ := same.symm.node? present
    refine ⟨other, there, (congrArg Node.name equal).trans named,
      (congrArg Node.parent equal).trans above, older, ?_⟩
    rw [same.raw]
    exact (congrArg Node.raw equal).trans raw
  entity := by
    intro id entity held
    rw [same.raw]
    exact (fits id entity held).mono fun path id found => (same.find? path).trans found

theorem setEntity (formed : tree.Formed) {id : ScopeId} {entity : Entity}
    (fits : tree.Fits (tree.raw id) entity.kind) : (tree.setEntity id entity).Formed := by
  refine formed.of_sameShape (sameShape_setEntity tree id entity) fun other held found => ?_
  rw [entity?_setEntity] at found
  split at found
  next same =>
    subst same
    obtain ⟨_, _, rfl⟩ := Option.map_eq_some_iff.1 found
    exact fits
  next => exact formed.entity found

theorem modifyEntity (formed : tree.Formed) {id : ScopeId} {f : Entity → Entity}
    (fits : ∀ entity, tree.entity? id = some entity → tree.Fits (tree.raw id) (f entity).kind) :
    (tree.modifyEntity id f).Formed := by
  refine formed.of_sameShape (sameShape_modifyEntity tree id f) fun other held found => ?_
  rw [entity?_modifyEntity] at found
  split at found
  next same =>
    subst same
    obtain ⟨entity, present, rfl⟩ := Option.map_eq_some_iff.1 found
    exact fits entity present
  next => exact formed.entity found

theorem withGlobals (formed : tree.Formed) (globals : Globals) : ({ tree with globals } : ScopeTree).Formed :=
  formed.of_sameShape (fun _ => rfl) fun _ _ found => formed.entity found

private theorem internChild_new (formed : tree.Formed) {parent : ScopeId} {name : String}
    (inside : parent.index < tree.size)
    (absent : tree.find? (DottedName.child (tree.raw parent) name) = none) (valueType : ValueType) :
    (tree.internChild parent name valueType).1.Formed := by
  have grows := grows_internChild tree parent name valueType
  have newest := node?_internChild_last absent inside valueType
  have fresh : tree.child? parent name = none := by
    cases found : tree.child? parent name with
    | none => rfl
    | some id => rw [formed.find?_child found] at absent; cases absent
  have linked : (tree.internChild parent name valueType).1.child? parent name = some ⟨tree.size⟩ :=
    child?_internChild_last absent inside fresh
  -- No older scope has the path of the new one.
  have apart : ∀ {id node}, (tree.internChild parent name valueType).1.node? id =
    some node → id ≠ ⟨tree.size⟩ →
      node.raw ≠ DottedName.child (tree.raw parent) name := by
    intro id node found differs same
    obtain ⟨old, there, equal, _⟩ := node?_internChild_older absent found differs
    exact (find?_eq_none_iff tree).1 absent id old there (equal.symm.trans same)
  constructor
  case root =>
    obtain ⟨node, found, top⟩ := formed.root
    obtain ⟨later, there, grown⟩ := grows.nodes _ _ found
    exact ⟨later, there, grown.parent.trans top⟩
  case distinct =>
    intro first second one two left right raw
    by_cases firstNew : first = ⟨tree.size⟩ <;> by_cases secondNew : second = ⟨tree.size⟩
    · rw [firstNew, secondNew]
    · subst firstNew
      cases newest.symm.trans left
      exact absurd raw.symm (apart right secondNew)
    · subst secondNew
      cases newest.symm.trans right
      exact absurd raw (apart left firstNew)
    · obtain ⟨one', there, equal, _⟩ := node?_internChild_older absent left firstNew
      obtain ⟨two', place, alike, _⟩ := node?_internChild_older absent right secondNew
      exact formed.distinct there place (equal.symm.trans (raw.trans alike))
  case below =>
    intro id node found notRoot
    by_cases new : id = ⟨tree.size⟩
    · subst new
      cases newest.symm.trans found
      exact ⟨parent, rfl, inside, linked⟩
    · obtain ⟨old, there, _, named, above⟩ := node?_internChild_older absent found new
      obtain ⟨holder, holds, before, hangs⟩ := formed.below there notRoot
      exact ⟨holder, above.trans holds, before, by rw [named]; exact grows.child? hangs⟩
  case child =>
    intro holder other id found
    by_cases new : holder = parent ∧ other = name
    · obtain ⟨rfl, rfl⟩ := new
      cases linked.symm.trans found
      refine ⟨_, newest, rfl, rfl, inside, ?_⟩
      rw [grows.raw inside]
    · have kept := child?_internChild_older absent found new
      obtain ⟨node, present, named, above, before, raw⟩ := formed.child kept
      obtain ⟨later, there, grown⟩ := grows.nodes _ _ present
      refine ⟨later, there, grown.name.trans named, grown.parent.trans above, before, grown.raw.trans ?_⟩
      rw [raw, grows.raw (Nat.lt_trans before (index_lt_of_node? present))]
  case entity =>
    intro id entity held
    rw [entity?_internChild] at held
    rw [grows.raw (index_lt_of_entity? held)]
    exact (formed.entity held).mono fun path id found => grows.find? found

theorem internChild (formed : tree.Formed) {parent : ScopeId} (inside : parent.index < tree.size)
    (name : String) (valueType : ValueType) : (tree.internChild parent name valueType).1.Formed := by
  cases found : tree.find? (DottedName.child (tree.raw parent) name) with
  | some id => rw [internChild_found valueType found]; exact formed
  | none => exact formed.internChild_new inside found valueType

end Formed
end ScopeTree
end LuaClasses
