import LuaClasses.Scope.Arena

/-! The tree of scopes. Scopes are addressed by their number in the order of their creation; a scope
names its parent and its children by number. Every scope has a path of its own, and a path once given
always leads to the same scope. Its tables are those of an `Arena` in step; what is read from them is
read through a node, which has the path of a scope and the entity on it. -/

namespace LuaClasses

/-- A scope with what occupies it. -/
structure Node where
  /-- The dotted path from the root, unique in the tree. -/
  raw : String
  name : String
  parent : Option ScopeId
  children : Members
  valueType : ValueType
  entity : Option Entity
  deriving DecidableEq

/-- The node of a scope with what occupies it. -/
def ScopePath.node (path : ScopePath) (entity : Option Entity) : Node :=
  { path with entity }

/-- The names of the top level, by what they stand for, each in the order of declaration. -/
structure Globals where
  values : Members
  functions : Members
  tables : Members
  classes : Members
  deriving DecidableEq

structure ScopeTree extends Arena where
  globals : Globals
  inStep : toArena.InStep
  deriving DecidableEq

namespace ScopeTree

/-- The tree that holds only the root. -/
def new (root : String) : ScopeTree where
  toArena := .new root
  globals := ⟨.empty, .empty, .empty, .empty⟩
  inStep := .new root

def root : ScopeId := ⟨0⟩

def size (tree : ScopeTree) : Nat := tree.paths.size

/-- Whether there is no scope but the root. -/
def isEmpty (tree : ScopeTree) : Bool := tree.size ≤ 1

/-- The path of a scope from the one table and its entity from the other. -/
def node? (tree : ScopeTree) (id : ScopeId) : Option Node :=
  (tree.path? id).map fun path => path.node (tree.toArena.entity? id)

/-- The nodes in the order of creation. -/
def nodes (tree : ScopeTree) : List Node :=
  tree.paths.toList.mapIdx fun index path => path.node (tree.toArena.entity? ⟨index⟩)

def find? (tree : ScopeTree) (raw : String) : Option ScopeId := tree.byRaw.get? raw

def raw (tree : ScopeTree) (id : ScopeId) : String := ((tree.node? id).map Node.raw).getD ""

def parent? (tree : ScopeTree) (id : ScopeId) : Option ScopeId := (tree.node? id).bind Node.parent

def child? (tree : ScopeTree) (id : ScopeId) (name : String) : Option ScopeId :=
  (tree.node? id).bind fun node => node.children.get? name

def children (tree : ScopeTree) (id : ScopeId) : List ScopeId :=
  ((tree.node? id).map fun node => node.children.values).getD []

def entity? (tree : ScopeTree) (id : ScopeId) : Option Entity := (tree.node? id).bind Node.entity

def hasEntity (tree : ScopeTree) (id : ScopeId) : Bool := (tree.entity? id).isSome

/-- The scope at a path. An existing one is left as it is, whatever parent and value type are given;
otherwise a scope without an entity is added. Only a scope of the tree can be a parent, and of two
children of one name it keeps the first. -/
def intern (tree : ScopeTree) (raw name : String) (parent : Option ScopeId) (valueType : ValueType) :
    ScopeTree × ScopeId :=
  let interned := tree.internPath raw name parent valueType
  (⟨interned.1, tree.globals, tree.inStep.internPath raw name parent valueType⟩, interned.2)

def internChild (tree : ScopeTree) (parent : ScopeId) (name : String) (valueType : ValueType) :
    ScopeTree × ScopeId :=
  tree.intern (DottedName.child (tree.raw parent) name) name (some parent) valueType

/-- The scope of an instance field of a class. -/
def internField (tree : ScopeTree) (owner : ScopeId) (name : String) : ScopeTree × ScopeId :=
  let (tree, fields) := tree.internChild owner fieldsName .table
  tree.internChild fields name .field

/-- Change what stands in the place for the entity of a scope. -/
def modifySlot (tree : ScopeTree) (id : ScopeId) (f : Option Entity → Option Entity) : ScopeTree :=
  ⟨tree.toArena.modifySlot id f, tree.globals, tree.inStep.modifySlot id f⟩

/-- Place an entity on a scope in place of the one there. -/
def setEntity (tree : ScopeTree) (id : ScopeId) (entity : Entity) : ScopeTree :=
  tree.modifySlot id fun _ => some entity

def clearEntity (tree : ScopeTree) (id : ScopeId) : ScopeTree := tree.modifySlot id fun _ => none

/-- Change the entity of a scope, if it has one. -/
def modifyEntity (tree : ScopeTree) (id : ScopeId) (f : Entity → Entity) : ScopeTree :=
  tree.modifySlot id (Option.map f)

def modifyClass (tree : ScopeTree) (id : ScopeId) (f : Class → Class) : ScopeTree :=
  tree.modifyEntity id (Entity.mapClass f)

/-- The scopes below a scope. -/
def descendants (tree : ScopeTree) (id : ScopeId) : List ScopeId := tree.toArena.descendants id

/-- Drop the entities of all scopes below a scope. Their paths stay. -/
def clearDescendants (tree : ScopeTree) (id : ScopeId) : ScopeTree :=
  (tree.descendants id).foldl clearEntity tree

/-- A scope and the scopes around it, up to the root. -/
def ancestors (tree : ScopeTree) (id : ScopeId) : List ScopeId := tree.toArena.ancestors id

/-- Descend from a scope through the segments of a name. -/
def resolveRelative (tree : ScopeTree) (origin : ScopeId) (name : String) : Option ScopeId :=
  (DottedName.segments name).foldlM (fun scope segment => tree.child? scope segment) origin

/-- Look a name up, innermost scope first: the first scope around `origin` below which the name
leads to an entity decides. -/
def lookup (tree : ScopeTree) (name : String) (origin : ScopeId) : Option ScopeId :=
  (tree.ancestors origin).findSome? fun level =>
    (tree.resolveRelative level name).filter fun found => tree.hasEntity found

/-- The innermost class around a scope, which may be the scope itself. -/
def nearestClass (tree : ScopeTree) (origin : ScopeId) : Option ScopeId :=
  (tree.ancestors origin).find? fun id =>
    match tree.node? id with
    | some node => node.valueType = .class_ && node.entity.isSome
    | none => false

def classId? (tree : ScopeTree) (name : String) : Option ScopeId := tree.globals.classes.get? name

/-- The class on a scope, if it holds one. -/
def classAt? (tree : ScopeTree) (id : ScopeId) : Option Class := (tree.entity? id).bind Entity.asClass?

def class? (tree : ScopeTree) (name : String) : Option Class := (tree.classId? name).bind tree.classAt?

def variableAt? (tree : ScopeTree) (id : ScopeId) : Option Variable :=
  (tree.entity? id).bind Entity.asVariable?

/-- The scopes that hold an entity, in the order of creation. -/
def occupied (tree : ScopeTree) : List (ScopeId × Node × Entity) :=
  tree.nodes.zipIdx.filterMap fun (node, id) => node.entity.map fun entity => (⟨id⟩, node, entity)

end ScopeTree
end LuaClasses
