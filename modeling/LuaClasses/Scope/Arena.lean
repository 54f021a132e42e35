import LuaClasses.Scope.DottedName
import LuaClasses.Scope.Entity

/-! The tables behind a tree of scopes. The paths of the scopes and the entities on them stand in two
arrays, both by the number of the scope, and a third table leads from a path back to the number. A write
goes to each of the tables that it concerns; that they stay in step is proved of the writes one by
one. -/

namespace LuaClasses

/-- The path of a scope, with the scopes next to it. -/
structure ScopePath where
  /-- The dotted path from the root. -/
  raw : String
  name : String
  parent : Option ScopeId
  children : Members
  valueType : ValueType
  deriving DecidableEq

structure Arena where
  paths : Array ScopePath
  entities : Array (Option Entity)
  byRaw : OrderedMap ScopeId
  deriving DecidableEq

/-- The child of a class under which its instance fields stand. It is no identifier, so no local and no
member of the class has the same path. -/
def ScopeTree.fieldsName : String := "@fields"

namespace Arena

/-- The tables that hold only the root. -/
def new (root : String) : Arena where
  paths := #[{ raw := root, name := root, parent := none, children := .empty, valueType := .table }]
  entities := #[none]
  byRaw := OrderedMap.empty.insert root ⟨0⟩

def size (arena : Arena) : Nat := arena.paths.size

def path? (arena : Arena) (id : ScopeId) : Option ScopePath := arena.paths[id.index]?

def find? (arena : Arena) (raw : String) : Option ScopeId := arena.byRaw.get? raw

def raw (arena : Arena) (id : ScopeId) : String := ((arena.path? id).map ScopePath.raw).getD ""

def parent? (arena : Arena) (id : ScopeId) : Option ScopeId := (arena.path? id).bind ScopePath.parent

def child? (arena : Arena) (id : ScopeId) (name : String) : Option ScopeId :=
  (arena.path? id).bind fun path => path.children.get? name

def children (arena : Arena) (id : ScopeId) : List ScopeId :=
  ((arena.path? id).map fun path => path.children.values).getD []

def entity? (arena : Arena) (id : ScopeId) : Option Entity := arena.entities[id.index]?.join

/-- Enter a child with its parent, which keeps the first of two children of one name. -/
def addChild (arena : Arena) (parent : ScopeId) (name : String) (id : ScopeId) : Arena :=
  { arena with
    paths := arena.paths.modify parent.index fun path =>
      { path with children := path.children.insertNew name id } }

/-- The number of a path. One that is known leads to its scope, whatever parent and value type are given;
otherwise a scope without an entity is added to each table. Only a scope that is there can be a
parent. -/
def internPath (arena : Arena) (raw name : String) (parent : Option ScopeId) (valueType : ValueType) :
    Arena × ScopeId :=
  match arena.byRaw.get? raw with
  | some id => (arena, id)
  | none =>
    let id : ScopeId := ⟨arena.paths.size⟩
    let parent := parent.filter fun parent => parent.index < arena.paths.size
    let grown : Arena := {
      paths := arena.paths.push { raw, name, parent, children := .empty, valueType }
      entities := arena.entities.push none
      byRaw := arena.byRaw.insert raw id }
    match parent with
    | none => (grown, id)
    | some parent => (grown.addChild parent name id, id)

def internChild (arena : Arena) (parent : ScopeId) (name : String) (valueType : ValueType) :
    Arena × ScopeId :=
  arena.internPath (DottedName.child (arena.raw parent) name) name (some parent) valueType

/-- The scope of an instance field of a class. -/
def internField (arena : Arena) (owner : ScopeId) (name : String) : Arena × ScopeId :=
  let (arena, fields) := arena.internChild owner ScopeTree.fieldsName .table
  arena.internChild fields name .field

/-- Change what stands in the place for the entity of a scope. -/
def modifySlot (arena : Arena) (id : ScopeId) (f : Option Entity → Option Entity) : Arena :=
  { arena with entities := arena.entities.modify id.index f }

/-- Place an entity on a scope in place of the one there. -/
def setEntity (arena : Arena) (id : ScopeId) (entity : Entity) : Arena :=
  arena.modifySlot id fun _ => some entity

def clearEntity (arena : Arena) (id : ScopeId) : Arena := arena.modifySlot id fun _ => none

/-- The scopes below a scope. A child is always newer than its parent. -/
def descendants (arena : Arena) (id : ScopeId) : List ScopeId :=
  (arena.children id).flatMap fun child =>
    if _newer : id.index < child.index ∧ child.index < arena.size then child ::
      arena.descendants child else []
  termination_by arena.size - id.index
  decreasing_by omega

/-- Drop the entities of all scopes below a scope. Their paths stay. -/
def clearDescendants (arena : Arena) (id : ScopeId) : Arena := (arena.descendants id).foldl clearEntity arena

/-- A scope and the scopes around it, up to the root. A parent is always older than its child. -/
def ancestors (arena : Arena) (id : ScopeId) : List ScopeId :=
  match arena.parent? id with
  | some parent => if _older : parent.index < id.index then id :: arena.ancestors parent else [id]
  | none => [id]
  termination_by id.index

/-! ### The tables in step -/

/-- There is a place for an entity for each path, and each path leads to its number, and nothing else does. -/
structure InStep (arena : Arena) : Prop where
  slots : arena.entities.size = arena.paths.size
  known : arena.byRaw.entries = arena.paths.toList.mapIdx fun index path => (path.raw, ⟨index⟩)

namespace InStep

variable {arena : Arena}

theorem new (root : String) : (Arena.new root).InStep := ⟨rfl, rfl⟩

/-- The numbers by path do not depend on the children of the paths. -/
theorem addChild (inStep : arena.InStep) (parent : ScopeId) (name : String) (id : ScopeId) :
    (arena.addChild parent name id).InStep := by
  refine ⟨by rw [Arena.addChild, Array.size_modify, inStep.slots], inStep.known.trans ?_⟩
  refine List.ext_getElem? fun index => ?_
  simp only [Arena.addChild, List.getElem?_mapIdx, Array.toList_modify, List.getElem?_modify]
  cases arena.paths.toList[index]? with
  | none => rfl
  | some path => by_cases same : parent.index = index <;> simp [same]

theorem internPath (inStep : arena.InStep) (raw name : String) (parent : Option ScopeId)
    (valueType : ValueType) :
    (arena.internPath raw name parent valueType).1.InStep := by
  unfold Arena.internPath
  cases found : arena.byRaw.get? raw with
  | some id => exact inStep
  | none =>
    have absent : arena.byRaw.contains raw = false := by rw [OrderedMap.contains_eq_isSome_get?, found]; rfl
    have grown (path : ScopePath) (named : path.raw = raw) :
        (Arena.mk (arena.paths.push path) (arena.entities.push none)
          (arena.byRaw.insert raw ⟨arena.paths.size⟩)).InStep := by
      refine ⟨by rw [Array.size_push, Array.size_push, inStep.slots], ?_⟩
      simp only [OrderedMap.insert, absent, dif_pos, Array.toList_push, List.mapIdx_append,
        List.mapIdx_cons, List.mapIdx_nil,
        inStep.known, named, Array.length_toList, Nat.zero_add]
    cases parent.filter fun parent => parent.index < arena.paths.size with
    | none => exact grown _ rfl
    | some parent => exact (grown _ rfl).addChild parent name _

theorem internChild (inStep : arena.InStep) (parent : ScopeId) (name : String) (valueType : ValueType) :
    (arena.internChild parent name valueType).1.InStep :=
  inStep.internPath _ name (some parent) valueType

theorem internField (inStep : arena.InStep) (owner : ScopeId) (name : String) :
    (arena.internField owner name).1.InStep :=
  (inStep.internChild owner ScopeTree.fieldsName .table).internChild _ name .field

theorem modifySlot (inStep : arena.InStep) (id : ScopeId) (f : Option Entity → Option Entity) :
    (arena.modifySlot id f).InStep :=
  ⟨by rw [Arena.modifySlot, Array.size_modify, inStep.slots], inStep.known⟩

end InStep

end Arena
end LuaClasses
