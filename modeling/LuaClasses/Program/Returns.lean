import LuaClasses.Program.Basic

/-! The return statements of a body and the types that follow from their form alone. Names
and calls that are returned give no type here; the sweeps find theirs later. -/

namespace LuaClasses

mutual
/-- The first value of each return statement of a body, in order, at any depth of blocks.
The returns of nested functions belong to those functions. -/
def returnsOf : List Stmt → List (Option Expr)
  | [] => []
  | stmt :: rest => returnsOfStmt stmt ++ returnsOf rest

def returnsOfStmt : Stmt → List (Option Expr)
  | ⟨kind, _⟩ => returnsOfKind kind

def returnsOfKind : StmtKind → List (Option Expr)
  | .return_ values => [values.head?]
  | .if_ clauses => returnsOfClauses clauses
  | .while_ _ body => returnsOf body
  | .repeat_ body _ => returnsOf body
  | .do_ body => returnsOf body
  | .forNumeric _ _ _ _ body => returnsOf body
  | .forGeneric _ _ body => returnsOf body
  | _ => []

def returnsOfClauses : List IfClause → List (Option Expr)
  | [] => []
  | clause :: rest => returnsOfClause clause ++ returnsOfClauses rest

def returnsOfClause : IfClause → List (Option Expr)
  | ⟨_, body⟩ => returnsOf body
end

/-- The type of what one return statement gives back, where its form decides it. -/
def returnType? : Option Expr → Option LuaType
  | none => some .void
  | some value =>
    match value.unparen with
    | .unary op _ => some op.resultType
    | other => other.literalType?

def collectReturnTypes (body : List Stmt) : TypeSet :=
  TypeSet.ofList ((returnsOf body).filterMap returnType?)

mutual
/-- Whether there is a return statement in a body, at any depth of blocks outside nested functions. -/
def hasReturn : List Stmt → Bool
  | [] => false
  | stmt :: rest => hasReturnStmt stmt || hasReturn rest

def hasReturnStmt : Stmt → Bool
  | ⟨kind, _⟩ => hasReturnKind kind

def hasReturnKind : StmtKind → Bool
  | .return_ _ => true
  | .if_ clauses => hasReturnClauses clauses
  | .while_ _ body => hasReturn body
  | .repeat_ body _ => hasReturn body
  | .do_ body => hasReturn body
  | .forNumeric _ _ _ _ body => hasReturn body
  | .forGeneric _ _ body => hasReturn body
  | _ => false

def hasReturnClauses : List IfClause → Bool
  | [] => false
  | clause :: rest => hasReturnClause clause || hasReturnClauses rest

def hasReturnClause : IfClause → Bool
  | ⟨_, body⟩ => hasReturn body
end

mutual
/-- A body has a return statement exactly if something is collected from its return statements. -/
theorem hasReturn_eq (body : List Stmt) : hasReturn body = !(returnsOf body).isEmpty := by
  cases body with
  | nil => simp only [hasReturn, returnsOf, List.isEmpty_nil, Bool.not_true]
  | cons stmt rest =>
    rw [hasReturn, returnsOf, hasReturnStmt_eq stmt, hasReturn_eq rest]
    cases returnsOfStmt stmt <;> rfl

private theorem hasReturnStmt_eq (stmt : Stmt) : hasReturnStmt stmt = !(returnsOfStmt stmt).isEmpty := by
  obtain ⟨kind, range⟩ := stmt
  rw [hasReturnStmt, returnsOfStmt, hasReturnKind_eq kind]

private theorem hasReturnKind_eq (kind : StmtKind) : hasReturnKind kind = !(returnsOfKind kind).isEmpty := by
  cases kind with
  | return_ values => simp only [hasReturnKind, returnsOfKind, List.isEmpty_cons, Bool.not_false]
  | if_ clauses => rw [hasReturnKind, returnsOfKind, hasReturnClauses_eq clauses]
  | while_ condition body => rw [hasReturnKind, returnsOfKind, hasReturn_eq body]
  | repeat_ body condition => rw [hasReturnKind, returnsOfKind, hasReturn_eq body]
  | do_ body => rw [hasReturnKind, returnsOfKind, hasReturn_eq body]
  | forNumeric name start limit step body => rw [hasReturnKind, returnsOfKind, hasReturn_eq body]
  | forGeneric names values body => rw [hasReturnKind, returnsOfKind, hasReturn_eq body]
  | _ => simp only [hasReturnKind, returnsOfKind, List.isEmpty_nil, Bool.not_true]

private theorem hasReturnClauses_eq (clauses : List IfClause) :
    hasReturnClauses clauses = !(returnsOfClauses clauses).isEmpty := by
  cases clauses with
  | nil => simp only [hasReturnClauses, returnsOfClauses, List.isEmpty_nil, Bool.not_true]
  | cons clause rest =>
    rw [hasReturnClauses, returnsOfClauses, hasReturnClause_eq clause, hasReturnClauses_eq rest]
    cases returnsOfClause clause <;> rfl

private theorem hasReturnClause_eq (clause : IfClause) :
    hasReturnClause clause = !(returnsOfClause clause).isEmpty := by
  obtain ⟨condition, body⟩ := clause
  rw [hasReturnClause, returnsOfClause, hasReturn_eq body]
end

end LuaClasses
