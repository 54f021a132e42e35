import LuaClasses.Json
import LuaClasses.Diagnostic
import LuaClasses.Program.Basic

/-! Programs written as JSON. Each object begins with its `type`. -/

namespace LuaClasses

def FunctionName.toJson (name : FunctionName) : Json := .object [
  ("path", .strings name.path), ("method", .optional .string name.method)]

/-- An object that begins with the name of its form. -/
def Json.tagged (type : String) (members : List (String × Json)) : Json :=
  .object (("type", .string type) :: members)

mutual
def Expr.toJson : Expr → Json
  | .nil => .tagged "nil" []
  | .boolean value => .tagged "boolean" [("value", .boolean value)]
  | .number text => .tagged "number" [("text", .string text)]
  | .string value => .tagged "string" [("value", .string value)]
  | .vararg => .tagged "vararg" []
  | .function body => .tagged "function" [("body", body.toJson)]
  | .table fields => .tagged "table" [("fields", .array (fieldsToJson fields))]
  | .name name => .tagged "name" [("name", .string name)]
  | .member object name => .tagged "member" [("object", object.toJson), ("name", .string name)]
  | .index object key => .tagged "index" [("object", object.toJson), ("key", key.toJson)]
  | .call callee args =>
    .tagged "call" [("callee", callee.toJson), ("args", .array (exprsToJson args))]
  | .methodCall object method args => .tagged "method_call" [
      ("object", object.toJson), ("method", .string method), ("args", .array (exprsToJson args))]
  | .paren inner => .tagged "paren" [("inner", inner.toJson)]
  | .unary op operand => .tagged "unary" [("op", .string op.tag), ("operand", operand.toJson)]
  | .binary op left right => .tagged "binary" [
      ("op", .string op.tag), ("left", left.toJson), ("right", right.toJson)]

def exprsToJson : List Expr → List Json
  | [] => []
  | expr :: rest => expr.toJson :: exprsToJson rest

def TableField.toJson : TableField → Json
  | .named name value =>
    .object [("named", .object [("name", .string name), ("value", value.toJson)])]
  | .keyed key value =>
    .object [("keyed", .object [("key", key.toJson), ("value", value.toJson)])]
  | .positional value => .object [("positional", .object [("value", value.toJson)])]

def fieldsToJson : List TableField → List Json
  | [] => []
  | field :: rest => field.toJson :: fieldsToJson rest

def FunctionBody.toJson : FunctionBody → Json
  | ⟨params, vararg, body⟩ => .object [("params", .strings params),
      ("vararg", .boolean vararg), ("body", .array (stmtsToJson body))]

def StmtKind.toJson : StmtKind → Json
  | .local_ names values =>
    .tagged "local" [("names", .strings names), ("values", .array (exprsToJson values))]
  | .assign targets values => .tagged "assign" [
      ("targets", .array (exprsToJson targets)), ("values", .array (exprsToJson values))]
  | .call call => .tagged "call" [("call", call.toJson)]
  | .function name isLocal body => .tagged "function" [
      ("name", name.toJson), ("local", .boolean isLocal), ("body", body.toJson)]
  | .return_ values => .tagged "return" [("values", .array (exprsToJson values))]
  | .if_ clauses => .tagged "if" [("clauses", .array (clausesToJson clauses))]
  | .while_ condition body =>
    .tagged "while" [("condition", condition.toJson), ("body", .array (stmtsToJson body))]
  | .repeat_ body condition =>
    .tagged "repeat" [("body", .array (stmtsToJson body)), ("condition", condition.toJson)]
  | .do_ body => .tagged "do" [("body", .array (stmtsToJson body))]
  | .forNumeric var start limit step body => .tagged "for_numeric" [
      ("var", .string var), ("start", start.toJson), ("limit", limit.toJson),
      ("step", match step with | some step => step.toJson | none => .null),
      ("body", .array (stmtsToJson body))]
  | .forGeneric names exprs body => .tagged "for_generic" [
      ("names", .strings names), ("exprs", .array (exprsToJson exprs)),
      ("body", .array (stmtsToJson body))]
  | .break_ => .tagged "break" []
  | .goto label => .tagged "goto" [("label", .string label)]
  | .label name => .tagged "label" [("name", .string name)]

def IfClause.toJson : IfClause → Json
  | ⟨condition, body⟩ => .object [
      ("condition", match condition with | some condition => condition.toJson | none => .null),
      ("body", .array (stmtsToJson body))]

def clausesToJson : List IfClause → List Json
  | [] => []
  | clause :: rest => clause.toJson :: clausesToJson rest

def Stmt.toJson : Stmt → Json
  | ⟨kind, range⟩ => .object [("kind", kind.toJson), ("range", range.toJson)]

def stmtsToJson : List Stmt → List Json
  | [] => []
  | stmt :: rest => stmt.toJson :: stmtsToJson rest
end

def Program.toJson (program : Program) : Json :=
  .object [("body", .array (stmtsToJson program.body))]

end LuaClasses
