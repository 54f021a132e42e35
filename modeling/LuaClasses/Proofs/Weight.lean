import LuaClasses.Proofs.WalkSites
import Mathlib.Algebra.GroupWithZero.Nat
import Mathlib.Data.List.Perm.Subperm

/-! A finite measure of what a tree knows: its scopes, its entities, their types and their references.
Whatever a sweep counts adds to the measure, and nothing that a sweep does takes away from it. -/

namespace LuaClasses

variable {α : Type}

/-- A list without repetition is no longer than a list that has all its members. -/
theorem length_le_of_subset {first second : List α} (distinct : first.Nodup) (within : first ⊆ second) :
    first.length ≤ second.length :=
  (distinct.subperm within).length_le

private theorem sum_modify {items : List α} {index : Nat} {item : α} (held : items[index]? = some item)
    (weight : α → Nat) (f : α → α) :
    ((items.modify index f).map weight).sum + weight item = (items.map weight).sum + weight (f item) := by
  induction items generalizing index with
  | nil => cases held
  | cons first rest ih =>
    cases index with
    | zero =>
      cases held
      simp only [List.modify_zero_cons, List.map_cons, List.sum_cons]
      omega
    | succ index =>
      have others := ih held
      simp only [List.modify_succ_cons, List.map_cons, List.sum_cons]
      omega

private theorem sum_map_modify_same {weight : α → Nat} {f : α → α} (items : List α) (index : Nat)
    (same : ∀ item, weight (f item) = weight item) :
    ((items.modify index f).map weight).sum = (items.map weight).sum := by
  cases held : items[index]? with
  | none => rw [List.modify_eq_self (List.getElem?_eq_none_iff.1 held)]
  | some item =>
    have changed := sum_modify held weight f
    rw [same] at changed
    omega

namespace TypeSet

theorem nodup (set : TypeSet) : set.types.Nodup := by
  refine set.ordered.imp fun {first second} before same => ?_
  subst same
  have self : first.compare first = .eq := Std.ReflCmp.compare_self
  rw [self] at before
  cases before

/-- The types that were missing are there after a union, next to those that were not. -/
theorem size_union (set types : TypeSet) : set.size + set.missing types ≤ (set ∪ types).size := by
  have distinct : (set.types ++ types.types.filter fun type => !set.contains type).Nodup := by
    refine List.nodup_append.2 ⟨set.nodup, types.nodup.filter _, fun type member other new same => ?_⟩
    subst same
    have absent := (List.mem_filter.1 new).2
    simp [contains, member] at absent
  have kept : ∀ type ∈ set.types ++ types.types.filter fun type => !set.contains type,
      type ∈ (set ∪ types).types := by
    intro type member
    rcases List.mem_append.1 member with old | new
    · exact mem_union.2 (.inl old)
    · exact mem_union.2 (.inr (List.mem_filter.1 new).1)
  have within := length_le_of_subset distinct kept
  rw [List.length_append] at within
  exact within

end TypeSet

/-! ### Entities -/

/-- A reference that leads somewhere weighs more than one that does not yet. -/
def Reference.weight (reference : Reference) : Nat := if reference.isResolved then 2 else 1

def referencesWeight (references : OrderedMap Reference) : Nat := (references.values.map Reference.weight).sum

namespace Entity

def weight (entity : Entity) : Nat := 1 + entity.gathered.size + referencesWeight entity.references

theorem weight_gather (entity : Entity) (types : TypeSet) :
    entity.weight + entity.newTypes types ≤ (entity.gather types).weight := by
  obtain ⟨references, kind⟩ := entity
  cases kind with
  | «variable» var =>
    have more := var.types.size_union types
    simp only [weight, gathered, gathered?, gather, newTypes, Option.getD_some]
    omega
  | function held =>
    have more := held.returns.size_union types
    simp only [weight, gathered, gathered?, gather, newTypes, Option.getD_some]
    omega
  | _ => exact Nat.le_refl _

theorem weight_mapLocals (entity : Entity) (f : Members → Members) :
    (entity.mapLocals f).weight = entity.weight := by
  obtain ⟨references, kind⟩ := entity
  cases kind <;> rfl

theorem weight_mapClass (entity : Entity) (f : Class → Class) :
    (entity.mapClass f).weight = entity.weight := by
  obtain ⟨references, kind⟩ := entity
  cases kind <;> rfl

end Entity

/-- A reference that is put in place of another makes up for it. -/
theorem weight_replace {entries : List (String × Reference)} {key : String} {old : Reference}
    (distinct : (entries.map Prod.fst).Nodup) (held : entries.lookup key = some old) (reference : Reference) :
    ((entries.map fun entry => if entry.1 = key then (key, reference) else entry).map
      fun entry => entry.2.weight).sum +
        old.weight = (entries.map fun entry => entry.2.weight).sum + reference.weight := by
  induction entries with
  | nil => cases held
  | cons entry rest ih =>
    obtain ⟨name, kept⟩ := entry
    obtain ⟨fresh, distinct⟩ := List.nodup_cons.1 distinct
    by_cases same : name = key
    · subst same
      have untouched : (rest.map fun entry => if entry.1 = name then (name, reference) else entry) =
          rest := by
        refine (List.map_congr_left fun other member => if_neg fun equal => fresh ?_).trans (List.map_id _)
        exact List.mem_map.2 ⟨other, member, equal⟩
      simp only [List.lookup_cons, beq_self_eq_true, Option.some.injEq] at held
      subst held
      simp only [List.map_cons, if_true, List.sum_cons, untouched]
      omega
    · rw [List.lookup_cons, beq_eq_false_iff_ne.2 (Ne.symm same)] at held
      have others := ih distinct held
      simp only [List.map_cons, if_neg same, List.sum_cons]
      omega

theorem weight_insertReference {references : OrderedMap Reference} {key : String} {reference : Reference}
    (better : Discovery.improves references key reference = true) :
    referencesWeight references + 1 ≤ referencesWeight (references.insert key reference) := by
  have positive : 1 ≤ reference.weight := by unfold Reference.weight; split <;> omega
  unfold OrderedMap.insert
  split
  next =>
    simp only [referencesWeight, OrderedMap.values, List.map_append, List.map_cons,
      List.map_nil, List.sum_append,
      List.sum_cons, List.sum_nil]
    omega
  next present =>
    have held : (references.get? key).isSome = true := by
      rw [← OrderedMap.contains_eq_isSome_get?]
      simpa using present
    obtain ⟨old, found⟩ := Option.isSome_iff_exists.1 held
    have more := weight_replace references.distinct found reference
    simp only [Discovery.improves, found, Bool.and_eq_true, Bool.not_eq_true'] at better
    have light : old.weight = 1 := by simp [Reference.weight, better.1]
    have heavy : reference.weight = 2 := by simp [Reference.weight, better.2]
    simp only [referencesWeight, OrderedMap.values, List.map_map, Function.comp_def] at more ⊢
    omega

/-! ### Trees -/

def Node.weight (node : Node) : Nat := 1 + (node.entity.map Entity.weight).getD 0

namespace ScopeTree

def weight (tree : ScopeTree) : Nat := (tree.nodes.map Node.weight).sum

variable {tree : ScopeTree}

private theorem nodes_modifySlot (tree : ScopeTree) (id : ScopeId) (f : Option Entity → Option Entity) :
    (tree.modifySlot id f).nodes = tree.nodes.modify id.index fun node =>
    { node with entity := f node.entity } := by
  refine List.ext_getElem? fun index => ?_
  rw [getElem?_nodes, node?_modifySlot, List.getElem?_modify, getElem?_nodes]
  split
  next same => subst same; simp only [if_true, Option.map_eq_map]
  next apart =>
    have apart : id.index ≠ index := fun same => apart (ScopeId.eq_of_index same.symm)
    simp only [apart, if_false, id_map']

private theorem weight_modifySlot {id : ScopeId} {node : Node} (found : tree.node? id = some node)
    (f : Option Entity → Option Entity) :
    (tree.modifySlot id f).weight + node.weight = tree.weight +
    { node with entity := f node.entity }.weight := by
  rw [weight, nodes_modifySlot]
  exact sum_modify ((getElem?_nodes tree id.index).trans found) Node.weight _

private theorem modifySlot_outside {id : ScopeId} (absent : tree.node? id = none)
    (f : Option Entity → Option Entity) :
    tree.modifySlot id f = tree := by
  refine eq_of_node? (fun other => ?_) rfl
  rw [node?_modifySlot]
  split
  next same => subst same; rw [absent]; rfl
  next => rfl

theorem weight_modifyEntity (id : ScopeId) {f : Entity → Entity}
    (same : ∀ entity, (f entity).weight = entity.weight) :
    (tree.modifyEntity id f).weight = tree.weight := by
  cases found : tree.node? id with
  | none => rw [modifyEntity, modifySlot_outside found]
  | some node =>
    have unchanged : Node.weight { node with entity := node.entity.map f } = node.weight := by
      simp only [Node.weight, Option.map_map, Function.comp_def, same]
    have changed := weight_modifySlot found (Option.map f)
    rw [unchanged] at changed
    exact Nat.add_right_cancel changed

theorem weight_setEntity {id : ScopeId} {entity : Entity} (held : tree.entity? id = some entity)
    (later : Entity) :
    (tree.setEntity id later).weight + entity.weight = tree.weight + later.weight := by
  obtain ⟨node, found, occupied⟩ := Option.bind_eq_some_iff.1 held
  have changed := weight_modifySlot found fun _ => some later
  simp only [Node.weight, occupied, Option.map_some, Option.getD_some] at changed
  unfold setEntity
  omega

theorem weight_place {id : ScopeId} (inside : id.index < tree.size) (vacant : tree.hasEntity id = false)
    (entity : Entity) :
    (tree.setEntity id entity).weight = tree.weight + entity.weight := by
  obtain ⟨node, found⟩ := exists_node? inside
  have absent : node.entity = none := by
    rw [hasEntity, entity?, found, Option.bind_some] at vacant
    simpa using vacant
  have changed := weight_modifySlot found fun _ => some entity
  simp only [Node.weight, absent, Option.map_some, Option.map_none, Option.getD_some,
    Option.getD_none] at changed
  unfold setEntity
  omega

/-- A new child is the last node, and beside it only the children of its parent change. -/
theorem nodes_internChild {parent : ScopeId} {name : String}
    (absent : tree.find? (DottedName.child (tree.raw parent) name) = none) (valueType : ValueType) :
    (tree.internChild parent name valueType).1.nodes =
      tree.nodes.modify parent.index (fun node =>
        { node with children := node.children.insertNew name ⟨tree.size⟩ }) ++
        [{ raw := DottedName.child (tree.raw parent) name, name, valueType, children := .empty, entity := none
           parent := if parent.index < tree.size then some parent else none }] := by
  refine List.ext_getElem? fun index => ?_
  rw [getElem?_nodes, node?_internChild valueType absent, List.getElem?_append,
    List.length_modify, length_nodes,
    List.getElem?_modify, getElem?_nodes]
  by_cases last : index = tree.size
  · simp [last]
  by_cases inside : index < tree.size
  · by_cases same : parent.index = index
    · subst same
      simp [last, inside]
    · have apart : ⟨index⟩ ≠ parent := fun equal => same (congrArg ScopeId.index equal).symm
      simp [last, inside, same, apart]
  · have beyond : tree.node? ⟨index⟩ = none := node?_of_size_le (Nat.le_of_not_lt inside)
    have further : index - tree.size ≠ 0 := by omega
    simp [last, inside, beyond, further]

theorem weight_internChild (tree : ScopeTree) (parent : ScopeId) (name : String) (valueType : ValueType) :
    (tree.internChild parent name valueType).1.weight =
      tree.weight + if tree.size < (tree.internChild parent name valueType).1.size then 1 else 0 := by
  cases found : tree.find? (DottedName.child (tree.raw parent) name) with
  | some id => simp [internChild_found valueType found]
  | none =>
    have same : ∀ node : Node, ({ node with children := node.children.insertNew name ⟨tree.size⟩ } :
        Node).weight = node.weight :=
      fun _ => rfl
    have linked := sum_map_modify_same tree.nodes parent.index same
    rw [weight, nodes_internChild found, List.map_append, List.sum_append, linked,
      size_internChild valueType found, if_pos (Nat.lt_succ_self _)]
    rfl

end ScopeTree
end LuaClasses
