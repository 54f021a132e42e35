import LuaClasses.Proofs.GistEntry

/-! Parentheses around values: those around a value that a statement binds, and those around
an operand of `and` or `or`. Programs that differ in nothing else are discovered alike. -/

namespace LuaClasses

/-- An operand, without the parentheses around it where the operator gives back an operand. -/
def BinaryOp.bareOperand (op : BinaryOp) (operand : Expr) : Expr :=
  match op with
  | .and | .or => operand.unparen
  | _ => operand

mutual
/-- An expression without the parentheses around values inside it, at any depth. Those around the
expression itself stay, and so do those around a base of a member, a callee or an index. -/
def Expr.bare : Expr → Expr
  | .function body => .function body.bare
  | .table fields => .table (bareFields fields)
  | .member object key => .member object.bare key
  | .index object key => .index object.bare key.bare
  | .call callee args => .call callee.bare (bareExprs args)
  | .methodCall object method args => .methodCall object.bare method (bareExprs args)
  | .paren inner => .paren inner.bare
  | .unary op operand => .unary op operand.bare
  | .binary op left right => .binary op (op.bareOperand left.bare) (op.bareOperand right.bare)
  | .nil => .nil
  | .boolean value => .boolean value
  | .number text => .number text
  | .string value => .string value
  | .vararg => .vararg
  | .name name => .name name

def bareExprs : List Expr → List Expr
  | [] => []
  | first :: rest => first.bare :: bareExprs rest

/-- The values that a statement binds, without parentheses around them or inside. -/
def bareValues : List Expr → List Expr
  | [] => []
  | first :: rest => first.bare.unparen :: bareValues rest

def bareOption : Option Expr → Option Expr
  | none => none
  | some expr => some expr.bare

def TableField.bare : TableField → TableField
  | .named name value => .named name value.bare
  | .keyed key value => .keyed key.bare value.bare
  | .positional value => .positional value.bare

def bareFields : List TableField → List TableField
  | [] => []
  | first :: rest => first.bare :: bareFields rest

def FunctionBody.bare : FunctionBody → FunctionBody
  | ⟨params, vararg, body⟩ => ⟨params, vararg, bareStmts body⟩

def bareStmts : List Stmt → List Stmt
  | [] => []
  | first :: rest => first.bare :: bareStmts rest

def Stmt.bare : Stmt → Stmt
  | ⟨kind, range⟩ => ⟨kind.bare, range⟩

def StmtKind.bare : StmtKind → StmtKind
  | .local_ names values => .local_ names (bareValues values)
  | .assign targets values => .assign (bareExprs targets) (bareValues values)
  | .call call => .call call.bare
  | .function name isLocal body => .function name isLocal body.bare
  | .return_ values => .return_ (bareExprs values)
  | .if_ clauses => .if_ (bareClauses clauses)
  | .while_ condition body => .while_ condition.bare (bareStmts body)
  | .repeat_ body condition => .repeat_ (bareStmts body) condition.bare
  | .do_ body => .do_ (bareStmts body)
  | .forNumeric var start limit step body =>
    .forNumeric var start.bare limit.bare (bareOption step) (bareStmts body)
  | .forGeneric names exprs body => .forGeneric names (bareExprs exprs) (bareStmts body)
  | .break_ => .break_
  | .goto label => .goto label
  | .label name => .label name

def IfClause.bare : IfClause → IfClause
  | ⟨condition, body⟩ => ⟨bareOption condition, bareStmts body⟩

def bareClauses : List IfClause → List IfClause
  | [] => []
  | first :: rest => first.bare :: bareClauses rest
end

/-- A program without the parentheses around values, wherever they stand. -/
def Program.bare (program : Program) : Program := ⟨bareStmts program.body⟩

/-! ### The gist of a program has none of them -/

private theorem bareExprs_eq_map (exprs : List Expr) : bareExprs exprs = exprs.map Expr.bare := by
  induction exprs with
  | nil => rfl
  | cons first rest ih => rw [bareExprs, ih, List.map_cons]

private theorem bareValues_eq_map (values : List Expr) :
    bareValues values = values.map fun value => value.bare.unparen := by
  induction values with
  | nil => rfl
  | cons first rest ih => rw [bareValues, ih, List.map_cons]

private theorem BinaryOp.readOperand_bare {op : BinaryOp} {bare operand : Expr}
    (same : bare.gist = operand.gist) :
    op.readOperand (op.bareOperand bare).gist = op.readOperand operand.gist := by
  cases op with
  | and | or =>
    have stripped : bare.unparen.gist.unparen = operand.gist.unparen := by
      rw [← Expr.unparen_gist, Expr.unparen_unparen, same]
    exact stripped
  | _ => rfl

private theorem Expr.gist_bare : (expr : Expr) → expr.bare.gist = expr.gist
  | .member object key => congrArg (Expr.member · key) object.gist_bare
  | .call callee args => congrArg (Expr.call · []) callee.gist_bare
  | .methodCall object method args => congrArg (Expr.methodCall · method []) object.gist_bare
  | .paren inner => congrArg Expr.paren inner.gist_bare
  | .binary op left right => by
    simp only [bare, gist, BinaryOp.readOperand_bare left.gist_bare,
      BinaryOp.readOperand_bare right.gist_bare]
  | .function _ | .table _ | .index _ _ | .unary _ _ => rfl
  | .nil | .boolean _ | .number _ | .string _ | .vararg | .name _ => rfl

private theorem map_gist_bare (exprs : List Expr) :
    (bareExprs exprs).map Expr.gist = exprs.map Expr.gist := by
  simp only [bareExprs_eq_map, List.map_map, Function.comp_def, Expr.gist_bare]

private theorem map_gistBound_bare (values : List Expr) :
    (bareValues values).map Expr.gistBound = values.map Expr.gistBound := by
  rw [bareValues_eq_map, List.map_map]
  refine List.map_congr_left fun value _ => ?_
  rw [Function.comp_apply, Expr.gistBound, ← Expr.unparen_gist, Expr.unparen_unparen,
    Expr.gist_bare, Expr.gistBound]

private theorem isWalked_bare (kind : StmtKind) : kind.bare.isWalked = kind.isWalked := by
  cases kind <;> rfl

private theorem isEntered_bare (kind : StmtKind) : kind.bare.isEntered = kind.isEntered := by
  cases kind <;> rfl

mutual
theorem gistStmts_bare : (body : List Stmt) → gistStmts (bareStmts body) = gistStmts body
  | [] => rfl
  | ⟨kind, range⟩ :: rest => by
    simp only [bareStmts, Stmt.bare, gistStmts, gistStmt, isWalked_bare,
      gistKind_bare kind, gistStmts_bare rest]

theorem gistKind_bare : (kind : StmtKind) → gistKind kind.bare = gistKind kind
  | .local_ names values => congrArg (StmtKind.local_ names) (map_gistBound_bare values)
  | .assign targets values => congrArg₂ StmtKind.assign (map_gist_bare targets) (map_gistBound_bare values)
  | .return_ values => by simp only [StmtKind.bare, gistKind, List.map_take, map_gist_bare]
  | .if_ clauses => congrArg StmtKind.if_ (gistClauses_bare clauses)
  | .while_ _ body => congrArg (StmtKind.while_ .nil) (gistStmts_bare body)
  | .repeat_ body _ => congrArg (StmtKind.repeat_ · .nil) (gistStmts_bare body)
  | .do_ body => congrArg StmtKind.do_ (gistStmts_bare body)
  | .forNumeric var _ _ _ body => congrArg (StmtKind.forNumeric var .nil .nil none) (gistStmts_bare body)
  | .forGeneric names _ body => congrArg (StmtKind.forGeneric names []) (gistStmts_bare body)
  | .call _ | .function _ _ _ | .break_ | .goto _ | .label _ => rfl

theorem gistClauses_bare : (clauses : List IfClause) → gistClauses (bareClauses clauses) = gistClauses clauses
  | [] => rfl
  | ⟨condition, body⟩ :: rest => by
    simp only [bareClauses, IfClause.bare, gistClauses, gistClause,
      gistStmts_bare body, gistClauses_bare rest]
end

private theorem FunctionBody.gist_bare (body : FunctionBody) : body.bare.gist = body.gist := by
  obtain ⟨params, vararg, stmts⟩ := body
  simp only [bare, gist, gistStmts_bare]

private theorem Expr.gistValue_bare : (expr : Expr) → expr.bare.gistValue = expr.gistValue
  | .paren inner => congrArg Expr.paren inner.gistValue_bare
  | .function body => congrArg Expr.function body.gist_bare
  | .member object key => gist_bare (.member object key)
  | .call callee args => gist_bare (.call callee args)
  | .methodCall object method args => gist_bare (.methodCall object method args)
  | .binary op left right => gist_bare (.binary op left right)
  | .table _ | .index _ _ | .unary _ _ => rfl
  | .nil | .boolean _ | .number _ | .string _ | .vararg | .name _ => rfl

private theorem map_gistEntered_bare (values : List Expr) :
    (bareValues values).map Expr.gistEntered = values.map Expr.gistEntered := by
  rw [bareValues_eq_map, List.map_map]
  refine List.map_congr_left fun value _ => ?_
  rw [Function.comp_apply, Expr.gistEntered, ← Expr.unparen_gistValue,
    Expr.unparen_unparen, Expr.gistValue_bare,
    Expr.gistEntered]

private theorem StmtKind.gistEntry_bare (kind : StmtKind) : kind.bare.gistEntry = kind.gistEntry := by
  cases kind with
  | local_ names values => exact congrArg (StmtKind.local_ names) (map_gistEntered_bare values)
  | assign targets values =>
    exact congrArg₂ StmtKind.assign (map_gist_bare targets) (map_gistEntered_bare values)
  | function name isLocal body => exact congrArg (StmtKind.function name isLocal) body.gist_bare
  | _ => rfl

private theorem Program.gist_bare (program : Program) : program.bare.gist = program.gist := by
  obtain ⟨body⟩ := program
  simp only [bare, gist]
  induction body with
  | nil => rfl
  | cons stmt rest ih =>
    obtain ⟨kind, range⟩ := stmt
    cases entered : kind.isEntered with
    | true =>
      have entry : (Stmt.bare ⟨kind, range⟩).gistEntry = Stmt.gistEntry ⟨kind, range⟩ := by
        simp only [Stmt.bare, Stmt.gistEntry, StmtKind.gistEntry_bare]
      have enters : (Stmt.bare ⟨kind, range⟩).kind.isEntered = true := (isEntered_bare kind).trans entered
      injection ih with ih
      simp only [bareStmts, List.filter_cons, enters, entered, if_true, List.map_cons, entry, ih]
    | false =>
      have passes : (Stmt.bare ⟨kind, range⟩).kind.isEntered = false := (isEntered_bare kind).trans entered
      simp only [bareStmts, List.filter_cons, passes, entered, Bool.false_eq_true, if_false, ih]

/-- Parentheses around values do not matter: programs that are the same without them have the same
discovery. -/
theorem discover_of_bare_eq {program wrapped : Program} (same : wrapped.bare = program.bare)
    (config : DiscoveryConfig) :
    discover wrapped config = discover program config := by
  have gist : wrapped.gist = program.gist := by rw [← wrapped.gist_bare, same, program.gist_bare]
  rw [← Discovery.discover_gist config wrapped, gist, Discovery.discover_gist]

/-- A class whose values and operands are wrapped in one way. -/
def wrappedCell (inner : Expr → Expr) : Program where
  body := [
    ⟨.assign [.name "Cell"] [inner (.methodCall (.name "ISBaseObject") "derive" [.string "Cell"])],
      ⟨1, 0, 1, 34⟩⟩,
    ⟨.assign [.member (.name "Cell") "new"] [inner (.function ⟨["size"], false, [
      ⟨.local_ ["o"] [inner (.table [])], ⟨3, 2, 3, 14⟩⟩,
      ⟨.do_ [⟨.assign [.member (.name "o") "size"]
        [inner (.binary .or (inner (.name "size")) (inner (.number "0")))],
        ⟨4, 5, 4, 23⟩⟩], ⟨4, 2, 4, 27⟩⟩,
      ⟨.return_ [.name "o"], ⟨5, 2, 5, 10⟩⟩]⟩)], ⟨2, 0, 6, 3⟩⟩]

/-- Two pairs of parentheses around each of them change nothing. -/
theorem wrappedCell_discovered :
    (wrappedCell fun value => .paren (.paren value)).bare = (wrappedCell id).bare ∧
      discover (wrappedCell fun value => .paren (.paren value)) .default =
        discover (wrappedCell id) .default := by
  have same : (wrappedCell fun value => .paren (.paren value)).bare = (wrappedCell id).bare := rfl
  exact ⟨same, discover_of_bare_eq same .default⟩

end LuaClasses
