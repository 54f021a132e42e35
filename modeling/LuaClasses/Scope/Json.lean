import LuaClasses.Diagnostic
import LuaClasses.Scope.Tree

/-! Scopes and entities written as JSON. -/

namespace LuaClasses

def LuaType.toJson (type : LuaType) : Json := .string type.text

def TypeSet.toJson (set : TypeSet) : Json := .array (set.types.map LuaType.toJson)

def OrderedMap.toJson (write : α → Json) (map : OrderedMap α) : Json :=
  .object (map.entries.map fun (name, value) => (name, write value))

def scopeJson (id : ScopeId) : Json := .integer id.index

def membersJson (members : Members) : Json := members.toJson scopeJson

def Reference.toJson : Reference → Json
  | .unresolved target origin => .object [
      ("state", .string "unresolved"), ("target", .string target), ("from", scopeJson origin)]
  | .resolved target => .object [("state", .string "resolved"), ("target", scopeJson target)]

/-- The members of a class in JSON. -/
def Class.jsonMembers (owner : Class) : List (String × Json) := [
  ("name", .string owner.name),
  ("superclass", .optional .string owner.superclass),
  ("superclass_link", .optional scopeJson owner.superclassLink),
  ("constructor", scopeJson owner.constructor),
  ("fields", membersJson owner.fields),
  ("values", membersJson owner.values),
  ("functions", membersJson owner.functions),
  ("methods", membersJson owner.methods)]

def EntityKind.toJson : EntityKind → Json
  | .variable held => .object [
      ("entity", .string "variable"),
      ("name", .string held.name),
      ("types", held.types.toJson),
      ("origin", .optional Range.toJson held.origin)]
  | .function held => .object [
      ("entity", .string "function"),
      ("name", .string held.name),
      ("kind", .string held.kind.tag),
      ("params", .array (held.params.map scopeJson)),
      ("vararg", .boolean held.vararg),
      ("values", membersJson held.values),
      ("returns", held.returns.toJson),
      ("has_return", .boolean held.hasReturn)]
  | .constructor held => .object [
      ("entity", .string "constructor"),
      ("params", .array (held.params.map scopeJson)),
      ("vararg", .boolean held.vararg),
      ("values", membersJson held.values),
      ("self_alias", .optional .string held.selfAlias)]
  | .table held => .object [
      ("entity", .string "table"),
      ("name", .string held.name),
      ("fields", membersJson held.fields)]
  | .class_ held => .object (("entity", .string "class") :: held.jsonMembers)
  | .block held => .object [
      ("entity", .string "block"),
      ("kind", .string held.kind.tag),
      ("values", membersJson held.values)]

def Entity.toJson (id : ScopeId) (entity : Entity) : Json := .object [
  ("scope", scopeJson id),
  ("references", entity.references.toJson Reference.toJson),
  ("kind", entity.kind.toJson)]

/-- The scopes that hold an entity. -/
def ScopeTree.toJson (tree : ScopeTree) : Json :=
  .array (tree.occupied.map fun (id, node, entity) => .object [
    ("id", scopeJson id),
    ("raw", .string node.raw),
    ("value_type", .string node.valueType.tag),
    ("parent", .optional scopeJson node.parent),
    ("entity", entity.toJson id)])

end LuaClasses
