import LuaClasses.Program.Basic
import LuaClasses.Scope.Tree

/-! The names in a program, at any depth. -/

namespace LuaClasses

mutual
def Expr.names : Expr → List String
  | .nil => []
  | .boolean _ => []
  | .number _ => []
  | .string _ => []
  | .vararg => []
  | .function body => bodyNames body
  | .table fields => fieldsNames fields
  | .name name => [name]
  | .member object name => object.names ++ [name]
  | .index object key => object.names ++ key.names
  | .call callee args => callee.names ++ exprsNames args
  | .methodCall object method args => object.names ++ method :: exprsNames args
  | .paren inner => inner.names
  | .unary _ operand => operand.names
  | .binary _ left right => left.names ++ right.names

def exprsNames : List Expr → List String
  | [] => []
  | first :: rest => first.names ++ exprsNames rest

def fieldsNames : List TableField → List String
  | [] => []
  | first :: rest => fieldNames first ++ fieldsNames rest

def fieldNames : TableField → List String
  | .named name value => name :: value.names
  | .keyed key value => key.names ++ value.names
  | .positional value => value.names

def bodyNames : FunctionBody → List String
  | ⟨params, _, body⟩ => params ++ stmtsNames body

def stmtsNames : List Stmt → List String
  | [] => []
  | first :: rest => stmtNames first ++ stmtsNames rest

def stmtNames : Stmt → List String
  | ⟨kind, _⟩ => kindNames kind

def kindNames : StmtKind → List String
  | .local_ names values => names ++ exprsNames values
  | .assign targets values => exprsNames targets ++ exprsNames values
  | .call call => call.names
  | .function name _ body => name.path ++ name.method.toList ++ bodyNames body
  | .return_ values => exprsNames values
  | .if_ clauses => clausesNames clauses
  | .while_ condition body => condition.names ++ stmtsNames body
  | .repeat_ body condition => stmtsNames body ++ condition.names
  | .do_ body => stmtsNames body
  | .forNumeric var start limit step body =>
    var :: start.names ++ limit.names ++ optionNames step ++ stmtsNames body
  | .forGeneric names exprs body => names ++ exprsNames exprs ++ stmtsNames body
  | .break_ => []
  | .goto label => [label]
  | .label name => [name]

def clausesNames : List IfClause → List String
  | [] => []
  | first :: rest => clauseNames first ++ clausesNames rest

def clauseNames : IfClause → List String
  | ⟨condition, body⟩ => optionNames condition ++ stmtsNames body

def optionNames : Option Expr → List String
  | none => []
  | some expr => expr.names
end

/-- A name of one segment that is not the one that stands for the instance fields of a class. -/
def PlainName (name : String) : Prop := '.' ∉ name.toList ∧ name ≠ ScopeTree.fieldsName

instance (name : String) : Decidable (PlainName name) := inferInstanceAs (Decidable (_ ∧ _))

namespace Program

def names (program : Program) : List String := stmtsNames program.body

def Plain (program : Program) : Prop := ∀ name ∈ program.names, PlainName name

instance (program : Program) : Decidable program.Plain := inferInstanceAs (Decidable (∀ _ ∈ _, _))

end Program

theorem stmtNames_subset {body : List Stmt} {stmt : Stmt} (member : stmt ∈ body) :
    stmtNames stmt ⊆ stmtsNames body := by
  induction body with
  | nil => cases member
  | cons first rest ih =>
    rcases List.mem_cons.1 member with rfl | later
    · exact List.subset_append_left _ _
    · exact List.Subset.trans (ih later) (List.subset_append_right _ _)

theorem params_subset (body : FunctionBody) : body.params ⊆ bodyNames body := by
  obtain ⟨params, vararg, stmts⟩ := body
  exact List.subset_append_left _ _

theorem exprNames_subset {exprs : List Expr} {expr : Expr} (member : expr ∈ exprs) :
    expr.names ⊆ exprsNames exprs := by
  induction exprs with
  | nil => cases member
  | cons first rest ih =>
    rcases List.mem_cons.1 member with rfl | later
    · exact List.subset_append_left _ _
    · exact List.Subset.trans (ih later) (List.subset_append_right _ _)

@[simp] theorem Expr.names_unparen (expr : Expr) : expr.unparen.names = expr.names := by
  induction expr using Expr.unparen.induct with
  | case1 inner ih => simpa only [Expr.unparen, Expr.names] using ih
  | case2 expr notParen => rw [Expr.unparen]; exact notParen

theorem FunctionName.plain?_eq_some {written : FunctionName} {name : String} :
    written.plain? = some name ↔ written = .plain name := by
  constructor
  · intro found
    unfold plain? at found
    split at found <;> cases found
    rfl
  · rintro rfl
    rfl

theorem FunctionName.member?_eq_some {written : FunctionName} {base name : String} {indexer : Indexer} :
    written.member? = some (base, indexer, name) ↔ written = .ofMember base indexer name := by
  constructor
  · intro found
    unfold member? at found
    split at found <;> cases found <;> rfl
  · rintro rfl
    cases indexer <;> rfl

theorem Expr.name_mem_names {expr : Expr} {name : String} (named : expr.name? = some name) :
    name ∈ expr.names := by
  cases expr <;> cases named
  exact List.mem_singleton_self _

end LuaClasses
