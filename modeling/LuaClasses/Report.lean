import LuaClasses.Scope.Json

/-! What was discovered about one class, as an editor shows it: names with their types in
writing. -/

namespace LuaClasses

structure Param where
  name : String
  type : String
  deriving DecidableEq, Repr

namespace Param

def text (param : Param) : String := param.name ++ ": " ++ param.type

def toJson (param : Param) : Json :=
  .object [("name", .string param.name), ("type", .string param.type)]

end Param

structure Signature where
  params : List Param
  returns : String
  deriving DecidableEq, Repr

namespace Signature

def listText (params : List Param) : String :=
  "(" ++ String.intercalate ", " (params.map Param.text) ++ ")"

def text (signature : Signature) : String :=
  listText signature.params ++ " -> " ++ signature.returns

def toJson (signature : Signature) : Json :=
  .object [("params", .array (signature.params.map Param.toJson)), ("returns", .string signature.returns)]

end Signature

structure ClassReport where
  name : String
  superclass : Option String
  constructor : List Param
  fields : OrderedMap String
  values : OrderedMap String
  /-- The signatures of each method. Lua has no overloading, so there is one for each name. -/
  methods : OrderedMap (List Signature)
  functions : OrderedMap (List Signature)
  deriving DecidableEq

namespace ClassReport

/-- The parameters that are variables of the tree. A variable number of arguments is the last. -/
def params (tree : ScopeTree) (ids : List ScopeId) (vararg : Bool) : List Param :=
  (ids.filterMap fun id => (tree.variableAt? id).map fun var => ⟨var.name, var.types.render⟩) ++
    if vararg then [⟨"...", "..."⟩] else []

/-- The types of the members that are variables. -/
def valueTypes (tree : ScopeTree) (members : Members) : OrderedMap String :=
  members.filterMapValues fun id => (tree.variableAt? id).map fun var => var.types.render

def signatures (tree : ScopeTree) (members : Members) : OrderedMap (List Signature) :=
  members.filterMapValues fun id =>
    ((tree.entity? id).bind Entity.asFunction?).map fun function =>
      [⟨params tree function.params function.vararg, function.returns.render⟩]

/-- The report on the class at a scope, if there is one. -/
def ofScope? (tree : ScopeTree) (id : ScopeId) : Option ClassReport :=
  (tree.classAt? id).map fun owner => {
    name := owner.name
    superclass := owner.superclass
    constructor :=
      match (tree.entity? owner.constructor).bind Entity.asConstructor? with
      | some constructor => params tree constructor.params constructor.vararg
      | none => []
    fields := valueTypes tree owner.fields
    values := valueTypes tree owner.values
    methods := signatures tree owner.methods
    functions := signatures tree owner.functions }

def lines (report : ClassReport) : List String :=
  let header := match report.superclass with
    | some parent => "class " ++ report.name ++ " : " ++ parent
    | none => "class " ++ report.name
  let callables (word : String) (members : OrderedMap (List Signature)) : List String :=
    members.entries.flatMap fun (name, overloads) =>
      overloads.map fun signature => "  " ++ word ++ " " ++ name ++ signature.text
  header :: ("  new" ++ Signature.listText report.constructor) ::
    (report.fields.entries.map fun (name, type) => "  field " ++ name ++ ": " ++ type) ++
    (report.values.entries.map fun (name, type) => "  value " ++ name ++ ": " ++ type) ++
    callables "method" report.methods ++ callables "function" report.functions

/-- The report in writing, each line with a line feed after it. -/
def text (report : ClassReport) : String :=
  String.join (report.lines.map fun line => line ++ "\n")

def toJson (report : ClassReport) : Json :=
  let overloads (signatures : List Signature) : Json := .array (signatures.map Signature.toJson)
  .object [
    ("name", .string report.name),
    ("superclass", .optional .string report.superclass),
    ("constructor", .array (report.constructor.map Param.toJson)),
    ("fields", report.fields.toJson .string),
    ("values", report.values.toJson .string),
    ("methods", report.methods.toJson overloads),
    ("functions", report.functions.toJson overloads)]

end ClassReport
end LuaClasses
