import LuaClasses.Proofs.TreeReads

/-! Making the child of a scope. The path of a child decides whether it is there already; where
it is not, one node is added at the end of the tree. -/

namespace LuaClasses

namespace Arena

variable {arena : Arena} {raw name : String} {parent : Option ScopeId} {valueType : ValueType}

theorem internPath_found {id : ScopeId} (found : arena.find? raw = some id) :
    arena.internPath raw name parent valueType = (arena, id) := by
  rw [internPath, show arena.byRaw.get? raw = some id from found]

variable (absent : arena.find? raw = none)
include absent

private theorem internPath_snd : (arena.internPath raw name parent valueType).2 = ⟨arena.size⟩ := by
  simp only [internPath, show arena.byRaw.get? raw = none from absent]
  cases parent.filter fun parent => parent.index < arena.paths.size <;> rfl

private theorem size_internPath : (arena.internPath raw name parent valueType).1.size = arena.size + 1 := by
  simp only [internPath, show arena.byRaw.get? raw = none from absent, size]
  cases parent.filter fun parent => parent.index < arena.paths.size with
  | none => exact Array.size_push _
  | some parent => exact Array.size_modify.trans (Array.size_push _)

/-- A new place for an entity is vacant, and those that are there stay as they are. -/
theorem entity?_internPath (other : ScopeId) :
    (arena.internPath raw name parent valueType).1.entity? other = arena.entity? other := by
  have pushed : (arena.entities.push none)[other.index]?.join = arena.entities[other.index]?.join := by
    rw [Array.getElem?_push]
    split
    next last => rw [last, Array.getElem?_eq_none (Nat.le_refl _)]; rfl
    next => rfl
  simp only [internPath, show arena.byRaw.get? raw = none from absent]
  cases parent.filter fun parent => parent.index < arena.paths.size <;> exact pushed

theorem path?_internPath (other : ScopeId) :
    (arena.internPath raw name parent valueType).1.path? other =
      if other.index = arena.size then
        some ⟨raw, name, parent.filter fun parent => parent.index < arena.size, .empty, valueType⟩
      else if parent = some other then
        (arena.path? other).map fun path =>
        { path with children := path.children.insertNew name ⟨arena.size⟩ }
      else arena.path? other := by
  simp only [internPath, show arena.byRaw.get? raw = none from absent]
  cases parent with
  | none => simp only [Option.filter_none, path?, Array.getElem?_push, size, reduceCtorEq, if_false]
  | some parent =>
    by_cases inside : parent.index < arena.paths.size
    · simp only [Option.filter, size, inside, decide_true, if_true, addChild, path?,
        Array.getElem?_modify, Array.getElem?_push,
        Option.some_inj]
      by_cases same : parent = other
      · subst same
        simp only [Nat.ne_of_lt inside, if_true, if_false]
      · have apart : parent.index ≠ other.index := fun equal => same (ScopeId.eq_of_index equal)
        simp only [apart, same, if_false]
    · simp only [Option.filter, size, inside, decide_false, Bool.false_eq_true, if_false, path?,
        Array.getElem?_push, Option.some_inj]
      by_cases same : parent = other
      · subst same
        simp only [Array.getElem?_eq_none (Nat.le_of_not_lt inside), if_true, Option.map_none]
      · simp only [same, if_false]

end Arena

namespace ScopeTree

variable (tree : ScopeTree)

/-- The node that a path which is not known yet is given. -/
def added (tree : ScopeTree) (raw name : String) (parent : Option ScopeId) (valueType : ValueType) :
    Node where
  raw := raw
  name := name
  parent := parent.filter fun parent => parent.index < tree.size
  children := .empty
  valueType := valueType
  entity := none

variable {tree} {raw name : String} {parent : Option ScopeId} {valueType : ValueType}

theorem eq_of_toArena {first second : ScopeTree} (tables : first.toArena = second.toArena)
    (globals : first.globals = second.globals) : first = second := by
  cases first
  cases second
  cases tables
  cases globals
  rfl

private theorem intern_found {id : ScopeId} (found : tree.find? raw = some id) :
    tree.intern raw name parent valueType = (tree, id) := by
  have known : tree.internPath raw name parent valueType = (tree.toArena, id) := Arena.internPath_found found
  have tables : (tree.intern raw name parent valueType).1.toArena = tree.toArena := congrArg Prod.fst known
  have number : (tree.intern raw name parent valueType).2 = id := congrArg Prod.snd known
  exact Prod.ext (eq_of_toArena tables rfl) number

private theorem node?_intern (absent : tree.find? raw = none) (other : ScopeId) :
    (tree.intern raw name parent valueType).1.node? other =
      if other.index = tree.size then some (tree.added raw name parent valueType)
      else if parent = some other then
        (tree.node? other).map fun node => { node with children := node.children.insertNew name ⟨tree.size⟩ }
      else tree.node? other := by
  have joined : (tree.intern raw name parent valueType).1.node? other =
      ((tree.internPath raw name parent valueType).1.path? other).map fun path =>
      path.node (tree.toArena.entity? other) := by
    rw [← Arena.entity?_internPath absent]
    rfl
  rw [joined, Arena.path?_internPath absent, show tree.toArena.size = tree.size from rfl]
  split
  next last =>
    have vacant : tree.toArena.entity? other = none := by
      rw [Arena.entity?, Array.getElem?_eq_none (by rw [tree.inStep.slots]; exact Nat.le_of_eq last.symm)]
      rfl
    rw [Option.map_some, vacant]
    rfl
  next =>
    split
    next => rw [node?, Option.map_map, Option.map_map]; rfl
    next => rfl

/-! ### A new child -/

section Child

variable {parent : ScopeId} (valueType)

theorem internChild_found {id : ScopeId}
    (found : tree.find? (DottedName.child (tree.raw parent) name) = some id) :
    tree.internChild parent name valueType = (tree, id) :=
  intern_found found

theorem internChild_snd (absent : tree.find? (DottedName.child (tree.raw parent) name) = none) :
    (tree.internChild parent name valueType).2 = ⟨tree.size⟩ :=
  Arena.internPath_snd absent

theorem node?_internChild (absent : tree.find? (DottedName.child (tree.raw parent) name) = none)
    (other : ScopeId) :
    (tree.internChild parent name valueType).1.node? other =
      if other.index = tree.size then
        some { raw := DottedName.child (tree.raw parent) name, name, valueType, children := .empty, entity := none
               parent := if parent.index < tree.size then some parent else none }
      else if other = parent then
        (tree.node? other).map fun node => { node with children := node.children.insertNew name ⟨tree.size⟩ }
      else tree.node? other := by
  rw [internChild, node?_intern absent]
  simp only [added, Option.filter, decide_eq_true_eq, Option.some_inj, @eq_comm _ parent]

theorem size_internChild (absent : tree.find? (DottedName.child (tree.raw parent) name) = none) :
    (tree.internChild parent name valueType).1.size = tree.size + 1 :=
  Arena.size_internPath absent

/-- Making a child gives no scope an entity and takes none away. -/
theorem entity?_internChild (tree : ScopeTree) (parent : ScopeId) (name : String) (other : ScopeId) :
    (tree.internChild parent name valueType).1.entity? other = tree.entity? other := by
  cases found : tree.find? (DottedName.child (tree.raw parent) name) with
  | some id => rw [internChild_found valueType found]
  | none =>
    rw [entity?_eq, entity?_eq]
    exact Arena.entity?_internPath found other

@[simp] theorem globals_internChild (tree : ScopeTree) (parent : ScopeId) (name : String) :
    (tree.internChild parent name valueType).1.globals = tree.globals := rfl

theorem raw_internChild_of_lt (tree : ScopeTree) (parent : ScopeId) (name : String) {other : ScopeId}
    (inside : other.index < tree.size) :
    (tree.internChild parent name valueType).1.raw other = tree.raw other := by
  cases found : tree.find? (DottedName.child (tree.raw parent) name) with
  | some id => rw [internChild_found valueType found]
  | none =>
    simp only [raw, node?_internChild valueType found, Nat.ne_of_lt inside, if_false]
    split
    next => cases tree.node? other <;> rfl
    next => rfl

/-- The path of a child leads to it. -/
theorem find?_internChild (tree : ScopeTree) (parent : ScopeId) (name : String) :
    (tree.internChild parent name valueType).1.find? (DottedName.child (tree.raw parent) name) =
      some (tree.internChild parent name valueType).2 := by
  cases found : tree.find? (DottedName.child (tree.raw parent) name) with
  | some id => rw [internChild_found valueType found]; exact found
  | none =>
    rw [internChild_snd valueType found, find?_eq_some_iff]
    exact ⟨_, by rw [node?_internChild valueType found, if_pos rfl], rfl⟩

theorem index_internChild (tree : ScopeTree) (parent : ScopeId) (name : String) :
    (tree.internChild parent name valueType).2.index < (tree.internChild parent name valueType).1.size :=
  index_lt_of_find? (find?_internChild valueType tree parent name)

/-- A scope that has an entity after it was made was there before. -/
theorem internChild_of_entity {id : ScopeId} (same : (tree.internChild parent name valueType).2 = id)
    (occupied : (tree.internChild parent name valueType).1.hasEntity id = true) :
    tree.internChild parent name valueType = (tree, id) := by
  cases found : tree.find? (DottedName.child (tree.raw parent) name) with
  | some other =>
    rw [internChild_found valueType found] at same ⊢
    rw [← same]
  | none =>
    have beyond : tree.node? ⟨tree.size⟩ = none := node?_of_size_le (Nat.le_refl _)
    rw [internChild_snd valueType found] at same
    rw [hasEntity, entity?_internChild, ← same, entity?, beyond] at occupied
    cases occupied

end Child

end ScopeTree
end LuaClasses
