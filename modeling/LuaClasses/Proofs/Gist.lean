import LuaClasses.Discovery.Run

/-! The gist of a program: the part of it that discovery reads. What is not read is left out
or replaced by something fixed. Everything that is asked of an expression or of a body is
answered by its gist alone. -/

namespace LuaClasses

/-- What is read of an operand: nothing where the operator alone decides the type, and never
the parentheses around it. -/
def BinaryOp.readOperand (op : BinaryOp) (operand : Expr) : Expr :=
  if op.resultType?.isSome then .nil else operand.unparen

/-- The gist of an expression that is not bound at the top level. The parameters and the body
of a function literal do not count. -/
def Expr.gist : Expr → Expr
  | .function _ => .function ⟨[], false, []⟩
  | .table _ => .table []
  | .member object key => .member object.gist key
  | .index _ _ => .index .nil .nil
  | .call callee _ => .call callee.gist []
  | .methodCall object method _ => .methodCall object.gist method []
  | .paren inner => .paren inner.gist
  | .unary op _ => .unary op .nil
  | .binary op left right => .binary op (op.readOperand left.gist) (op.readOperand right.gist)
  | other => other

/-- The gist of a value that a statement of a body binds. -/
def Expr.gistBound (value : Expr) : Expr := value.gist.unparen

/-- Whether a walk does anything at a statement. -/
def StmtKind.isWalked : StmtKind → Bool
  | .call _ | .function _ _ _ | .break_ | .goto _ | .label _ => false
  | _ => true

mutual
/-- The gist of the statements of a body: those that are walked, with their gists. -/
def gistStmts : List Stmt → List Stmt
  | [] => []
  | stmt :: rest => if stmt.kind.isWalked then gistStmt stmt :: gistStmts rest else gistStmts rest

def gistStmt : Stmt → Stmt
  | ⟨kind, range⟩ => ⟨gistKind kind, range⟩

def gistKind : StmtKind → StmtKind
  | .local_ names values => .local_ names (values.map Expr.gistBound)
  | .assign targets values => .assign (targets.map Expr.gist) (values.map Expr.gistBound)
  | .return_ values => .return_ ((values.take 1).map Expr.gist)
  | .if_ clauses => .if_ (gistClauses clauses)
  | .while_ _ body => .while_ .nil (gistStmts body)
  | .repeat_ body _ => .repeat_ (gistStmts body) .nil
  | .do_ body => .do_ (gistStmts body)
  | .forNumeric var _ _ _ body => .forNumeric var .nil .nil none (gistStmts body)
  | .forGeneric names _ body => .forGeneric names [] (gistStmts body)
  | .call _ | .function _ _ _ | .break_ | .goto _ | .label _ => .break_

def gistClauses : List IfClause → List IfClause
  | [] => []
  | clause :: rest => gistClause clause :: gistClauses rest

def gistClause : IfClause → IfClause
  | ⟨_, body⟩ => ⟨none, gistStmts body⟩
end

def FunctionBody.gist (body : FunctionBody) : FunctionBody := { body with body := gistStmts body.body }

/-- The gist of an expression in which a function literal keeps its parameters and the gist of
its body, since it may be declared or become a member. -/
def Expr.gistValue : Expr → Expr
  | .paren inner => .paren inner.gistValue
  | .function body => .function body.gist
  | other => other.gist

/-- The gist of a value that the top level binds. -/
def Expr.gistEntered (value : Expr) : Expr := value.gistValue.unparen

/-- Whether the entry of the top level does anything at a statement. -/
def StmtKind.isEntered : StmtKind → Bool
  | .local_ _ _ | .assign _ _ | .function _ _ _ => true
  | _ => false

/-- The gist of a statement of the top level. -/
def StmtKind.gistEntry : StmtKind → StmtKind
  | .local_ names values => .local_ names (values.map Expr.gistEntered)
  | .assign targets values => .assign (targets.map Expr.gist) (values.map Expr.gistEntered)
  | .function name isLocal body => .function name isLocal body.gist
  | _ => .break_

def Stmt.gistEntry (stmt : Stmt) : Stmt := ⟨stmt.kind.gistEntry, stmt.range⟩

/-- The gist of a program: the statements of the top level that are entered, with their
gists. -/
def Program.gist (program : Program) : Program :=
  ⟨(program.body.filter fun stmt => stmt.kind.isEntered).map Stmt.gistEntry⟩

/-- A statement of a body is walked if its gist is. -/
theorem isWalked_gistKind (kind : StmtKind) : (gistKind kind).isWalked = kind.isWalked := by
  cases kind <;> rfl

/-- A statement of the top level is entered if its gist is. -/
theorem isEntered_gistEntry (kind : StmtKind) : kind.gistEntry.isEntered = kind.isEntered := by
  cases kind <;> rfl

/-! ### Expressions -/

namespace Expr

@[simp] theorem name?_gist (expr : Expr) : expr.gist.name? = expr.name? := by
  cases expr <;> rfl

theorem unparen_unparen : (expr : Expr) → expr.unparen.unparen = expr.unparen
  | .paren inner => unparen_unparen inner
  | .unary _ _ | .binary _ _ _ | .name _ | .member _ _ | .call _ _ | .methodCall _ _ _ => rfl
  | .nil | .boolean _ | .number _ | .string _ | .vararg | .function _ | .table _ | .index _ _ => rfl

theorem literalType?_unparen (expr : Expr) : expr.unparen.literalType? = expr.literalType? := by
  unfold literalType?
  rw [unparen_unparen]

theorem unparen_gist : (expr : Expr) → expr.gist.unparen = expr.unparen.gist
  | .paren inner => unparen_gist inner
  | .unary _ _ | .binary _ _ _ | .name _ | .member _ _ | .call _ _ | .methodCall _ _ _ => rfl
  | .nil | .boolean _ | .number _ | .string _ | .vararg | .function _ | .table _ | .index _ _ => rfl

@[simp] theorem dottedPath?_gist : (expr : Expr) → expr.gist.dottedPath? = expr.dottedPath?
  | .paren inner => dottedPath?_gist inner
  | .member object key => by simp only [gist, dottedPath?, dottedPath?_gist object]
  | .unary _ _ | .binary _ _ _ | .name _ | .call _ _ | .methodCall _ _ _ => rfl
  | .nil | .boolean _ | .number _ | .string _ | .vararg | .function _ | .table _ | .index _ _ => rfl

@[simp] theorem literalType?_gist (expr : Expr) : expr.gist.literalType? = expr.literalType? := by
  unfold literalType?
  rw [unparen_gist]
  cases expr.unparen <;> rfl

private theorem literalType?_gistBound (expr : Expr) : expr.gistBound.literalType? = expr.literalType? := by
  rw [gistBound, literalType?_unparen, literalType?_gist]

theorem unparen_gistValue : (expr : Expr) → expr.gistValue.unparen = expr.unparen.gistValue
  | .paren inner => unparen_gistValue inner
  | .unary _ _ | .binary _ _ _ | .name _ | .member _ _ | .call _ _ | .methodCall _ _ _ => rfl
  | .nil | .boolean _ | .number _ | .string _ | .vararg | .function _ | .table _ | .index _ _ => rfl

theorem unparen_gistEntered (expr : Expr) : expr.gistEntered.unparen = expr.unparen.gistValue := by
  rw [gistEntered, unparen_unparen, unparen_gistValue]

/-- Only the gist of a function literal is one, up to parentheses. -/
theorem unparen_gist_function {expr : Expr} {body : FunctionBody}
    (literal : expr.gist.unparen = .function body) :
    ∃ held, expr.unparen = .function held := by
  rw [unparen_gist] at literal
  cases bare : expr.unparen with
  | function held => exact ⟨held, rfl⟩
  | _ => rw [bare] at literal; cases literal

theorem gistValue_of_noLiteral :
    (expr : Expr) → (∀ body, expr.unparen ≠ .function body) → expr.gistValue = expr.gist
  | .paren inner, noLiteral => congrArg Expr.paren (gistValue_of_noLiteral inner noLiteral)
  | .function body, noLiteral => absurd rfl (noLiteral body)
  | .unary _ _, _ | .binary _ _ _, _ | .name _, _ | .member _ _, _ | .call _ _,
    _ | .methodCall _ _ _, _ => rfl
  | .nil, _ | .boolean _, _ | .number _, _ | .string _, _ | .vararg, _ | .table _, _ | .index _ _, _ => rfl

end Expr

/-! ### Returns -/

mutual
theorem returnsOf_gist :
    (body : List Stmt) → returnsOf (gistStmts body) = (returnsOf body).map (Option.map Expr.gist)
  | [] => rfl
  | stmt :: rest => by
    obtain ⟨kind, range⟩ := stmt
    have kept := returnsOfKind_gist kind
    simp only [gistStmts, returnsOf, returnsOfStmt, List.map_append, ← returnsOf_gist rest, ← kept]
    split
    next => rfl
    next unwalked => cases kind <;> first | rfl | exact absurd rfl unwalked

theorem returnsOfKind_gist :
    (kind : StmtKind) → returnsOfKind (gistKind kind) = (returnsOfKind kind).map (Option.map Expr.gist)
  | .return_ values => by cases values <;> rfl
  | .if_ clauses => returnsOfClauses_gist clauses
  | .while_ _ body | .repeat_ body _ | .do_ body => returnsOf_gist body
  | .forNumeric _ _ _ _ body | .forGeneric _ _ body => returnsOf_gist body
  | .local_ _ _ | .assign _ _ => rfl
  | .call _ | .function _ _ _ | .break_ | .goto _ | .label _ => rfl

theorem returnsOfClauses_gist : (clauses : List IfClause) →
    returnsOfClauses (gistClauses clauses) = (returnsOfClauses clauses).map (Option.map Expr.gist)
  | [] => rfl
  | ⟨_, body⟩ :: rest => by
    simp only [gistClauses, gistClause, returnsOfClauses, returnsOfClause, List.map_append,
      returnsOf_gist body, returnsOfClauses_gist rest]
end

private theorem returnType?_gist (value : Option Expr) :
    returnType? (value.map Expr.gist) = returnType? value := by
  cases value with
  | none => rfl
  | some expr =>
    simp only [returnType?, Option.map_some, Expr.unparen_gist]
    cases expr.unparen with
    | unary op operand => rfl
    | _ => exact Expr.literalType?_gist _

private theorem collectReturnTypes_gist (body : List Stmt) :
    collectReturnTypes (gistStmts body) = collectReturnTypes body := by
  simp only [collectReturnTypes, returnsOf_gist, List.filterMap_map, Function.comp_def, returnType?_gist]

theorem hasReturn_gist (body : List Stmt) : hasReturn (gistStmts body) = hasReturn body := by
  simp only [hasReturn_eq, returnsOf_gist, List.isEmpty_map]

namespace Discovery

theorem initialReturns_gist (body : List Stmt) : initialReturns (gistStmts body) = initialReturns body := by
  simp only [initialReturns, hasReturn_gist, collectReturnTypes_gist]

/-! ### Evidence -/

theorem classify_unparen (config : DiscoveryConfig) (tree : ScopeTree) (frame : Frame) :
    (expr : Expr) → classify config tree frame expr.unparen = classify config tree frame expr
  | .paren inner => classify_unparen config tree frame inner
  | .unary _ _ | .binary _ _ _ | .name _ | .member _ _ | .call _ _ | .methodCall _ _ _ => rfl
  | .nil | .boolean _ | .number _ | .string _ | .vararg | .function _ | .table _ | .index _ _ => rfl

private theorem classify_gist (config : DiscoveryConfig) (tree : ScopeTree) (frame : Frame) :
    (expr : Expr) → classify config tree frame expr.gist = classify config tree frame expr
  | .paren inner => classify_gist config tree frame inner
  | .binary op left right => by
    cases decided : op.resultType? with
    | some type => simp only [Expr.gist, classify, decided]
    | none =>
      simp only [Expr.gist, classify, BinaryOp.readOperand, decided, Option.isSome_none,
        Bool.false_eq_true, if_false,
        classify_unparen, classify_gist config tree frame left, classify_gist config tree frame right]
  | .member object name =>
    by simp only [Expr.gist, classify, classifyMember, Expr.dottedPath?_gist, Expr.name?_gist]
  | .call callee _ => by simp only [Expr.gist, classify, Expr.dottedPath?_gist]
  | .methodCall object _ _ => by simp only [Expr.gist, classify, Expr.dottedPath?_gist]
  | .unary _ _ | .name _ => rfl
  | .nil | .boolean _ | .number _ | .string _ | .vararg | .function _ | .table _ | .index _ _ => rfl

theorem classify_gistValue (config : DiscoveryConfig) (tree : ScopeTree) (frame : Frame) :
    (expr : Expr) → classify config tree frame expr.gistValue = classify config tree frame expr
  | .paren inner => classify_gistValue config tree frame inner
  | .function _ => rfl
  | .binary op left right => classify_gist config tree frame (.binary op left right)
  | .member object name => classify_gist config tree frame (.member object name)
  | .call callee args => classify_gist config tree frame (.call callee args)
  | .methodCall object method args => classify_gist config tree frame (.methodCall object method args)
  | .unary _ _ | .name _ => rfl
  | .nil | .boolean _ | .number _ | .string _ | .vararg | .table _ | .index _ _ => rfl

theorem classifyValue_gistBound (config : DiscoveryConfig) (tree : ScopeTree) (frame : Frame)
    (value : Option Expr) :
    classifyValue config tree frame (value.map Expr.gistBound) = classifyValue config tree frame value := by
  cases value with
  | none => rfl
  | some expr =>
    exact (classify_unparen config tree frame expr.gist).trans (classify_gist config tree frame expr)

theorem classifyValue_gistEntered (config : DiscoveryConfig) (tree : ScopeTree) (frame : Frame)
    (value : Option Expr) :
    classifyValue config tree frame (value.map Expr.gistEntered) = classifyValue config tree frame value := by
  cases value with
  | none => rfl
  | some expr =>
    exact (classify_unparen config tree frame expr.gistValue).trans
      (classify_gistValue config tree frame expr)

theorem returnEvidence_gist (config : DiscoveryConfig) (tree : ScopeTree) (frame : Frame)
    (values : List Expr) :
    returnEvidence config tree frame ((values.take 1).map Expr.gist) =
      returnEvidence config tree frame values := by
  cases values with
  | nil => rfl
  | cons first rest => exact classify_gist config tree frame first

theorem deriveBase?_gistEntered (config : DiscoveryConfig) (value : Expr) :
    deriveBase? config value.gistEntered = deriveBase? config value := by
  simp only [deriveBase?, Expr.unparen_gistEntered]
  cases value.unparen with
  | methodCall object method args => simp only [Expr.gistValue, Expr.gist, Expr.name?_gist]
  | _ => rfl

/-! ### The instance of a constructor -/

theorem selfAlias?_gist (body : List Stmt) : selfAlias? (gistStmts body) = selfAlias? body := by
  unfold selfAlias?
  induction body with
  | nil => rfl
  | cons stmt rest ih =>
    obtain ⟨kind, range⟩ := stmt
    simp only [gistStmts, List.reverse_cons, List.findSome?_append, ← ih]
    split
    next =>
      simp only [List.reverse_cons, List.findSome?_append, gistStmt]
      cases kind with
      | return_ values => cases values <;> simp [gistKind]
      | _ => rfl
    next unwalked =>
      -- What is not walked is no return statement.
      cases kind <;> first | exact (Option.or_none).symm | exact absurd rfl unwalked

private theorem literalFields_gist (selfAlias : String) (kind : StmtKind) :
    literalFields selfAlias (gistKind kind) = literalFields selfAlias kind := by
  cases kind with
  | assign targets values =>
    simp only [gistKind, literalFields, List.zip_map, List.filterMap_map]
    congr
    funext ⟨target, value⟩
    simp only [Function.comp_apply, Prod.map_apply, Expr.unparen_gist]
    cases target.unparen with
    | member object name => simp only [Expr.gist, Expr.name?_gist, Expr.literalType?_gistBound]
    | _ => rfl
  | _ => rfl

private theorem literalFields_of_unwalked {kind : StmtKind} (unwalked : kind.isWalked = false)
    (selfAlias : String) :
    literalFields selfAlias kind = [] := by
  cases kind <;> first | rfl | cases unwalked

theorem placeLiteralFields_gist (owner : ScopeId) (selfAlias : String) (body : List Stmt) (state : State) :
    placeLiteralFields owner selfAlias (gistStmts body) state = placeLiteralFields owner
      selfAlias body state := by
  refine congrArg (placeFields owner · [] state) ?_
  induction body with
  | nil => rfl
  | cons stmt rest ih =>
    obtain ⟨kind, range⟩ := stmt
    rw [List.flatMap_cons, ← ih]
    cases walked : kind.isWalked with
    | true => simp only [gistStmts, walked, if_true, List.flatMap_cons, gistStmt, literalFields_gist]
    | false =>
      simp only [gistStmts, walked, Bool.false_eq_true, if_false,
        literalFields_of_unwalked walked, List.map_nil,
        List.nil_append]

end Discovery
end LuaClasses
