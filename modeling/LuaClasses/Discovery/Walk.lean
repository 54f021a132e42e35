import LuaClasses.Discovery.Evidence
import LuaClasses.Discovery.State

/-! Walking the body of a function. A walk takes nothing away: it makes scopes and variables
that are missing and lets entities take in evidence. It counts what it finds, so that a sweep
knows when it found nothing. -/

namespace LuaClasses.Discovery

/-- The name of a block: its kind, and how many blocks of that kind stand before it in the same
body. -/
def blockName (kind : BlockKind) (index : Nat) : String := kind.stem ++ "_" ++ toString index

/-- The scope of a block, made if it is missing. -/
def enterBlock (tree : ScopeTree) (parent : ScopeId) (kind : BlockKind) (index : Nat) :
    ScopeTree × ScopeId × Nat :=
  let before := tree.size
  let (tree, id) := tree.internChild parent (blockName kind index) .block
  let found := if before < tree.size then 1 else 0
  if tree.hasEntity id then (tree, id, found)
  else (tree.setEntity id (.new (.block ⟨kind, .empty⟩)), id, found + 1)

/-- A local of a scope, made if nothing of its name is there. -/
def defineLocal (tree : ScopeTree) (scope : ScopeId) (name : String) (range : Range) :
    ScopeTree × ScopeId × Nat :=
  let (tree, id) := tree.internChild scope name .value
  if tree.hasEntity id then (tree, id, 0)
  else
    let tree := tree.setEntity id (.new (.variable (.new name (some range))))
    (tree.modifyEntity scope (Entity.mapLocals fun locals => locals.insert name id), id, 1)

/-- An assignment to a field of the instance. -/
def assignField (tree : ScopeTree) (frame : Frame) (name : String) (evidence : Evidence) (range : Range) :
    ScopeTree × Nat :=
  match tree.nearestClass frame.scope with
  | none => (tree, 0)
  | some owner =>
    let (tree, id) := tree.internField owner name
    let (tree, created) :=
      if tree.hasEntity id then (tree, 0)
      else (tree.setEntity id (.new (.variable (.new name (some range)))), 1)
    let tree := tree.modifyClass owner fun owner => { owner with fields := owner.fields.insertNew name id }
    let (tree, found) := applyEvidence tree id evidence
    (tree, created + found)

/-- The scope that a base of a member stands for. A base that leads nowhere gets a scope without
an entity. -/
def baseScope (tree : ScopeTree) (scope : ScopeId) (base : String) : ScopeTree × ScopeId × Nat :=
  match tree.lookup base scope with
  | some id => (tree, id, 0)
  | none =>
    let before := tree.size
    let (tree, id) := tree.internChild scope base .table
    (tree, id, if before < tree.size then 1 else 0)

/-- An assignment to a member of something that is not the instance. -/
def assignMember (tree : ScopeTree) (frame : Frame) (base name : String) (evidence : Evidence)
    (range : Range) : ScopeTree × Nat :=
  let (tree, parent, grown) := baseScope tree frame.scope base
  let valueType := if (tree.classAt? parent).isSome then ValueType.value else ValueType.field
  let (tree, id) := tree.internChild parent name valueType
  let (tree, created) :=
    if tree.hasEntity id then (tree, 0)
    else
      let tree := tree.setEntity id (.new (.variable (.new name (some range))))
      (tree.modifyEntity parent (Entity.mapLocals fun members => members.insertNew name id), 1)
  if (tree.variableAt? id).isSome then
    let (tree, found) := applyEvidence tree id evidence
    (tree, grown + created + found)
  else (tree, grown + created)

/-- An assignment to a plain name, which makes a local where the name leads nowhere. -/
def assignName (state : State) (frame : Frame) (name : String) (evidence : Evidence) (range : Range) :
    State × Nat :=
  match state.tree.lookup name frame.scope with
  | none =>
    let (tree, id, created) := defineLocal state.tree frame.scope name range
    let (tree, found) := applyEvidence tree id evidence
    (state.withTree tree, created + found)
  | some id =>
    if (state.tree.variableAt? id).isSome then
      let (tree, found) := applyEvidence state.tree id evidence
      (state.withTree tree, found)
    else
      (state.warn .structuralMismatch s!"assignment to non-variable `{name}` skipped" (some range), 0)

def assign (state : State) (frame : Frame) (target : Expr) (evidence : Evidence) (range : Range) :
    State × Nat :=
  match target.unparen with
  | .name name => assignName state frame name evidence range
  | .member object name =>
    match object.name? with
    | some base =>
      let (tree, found) :=
        if frame.isAlias base then assignField state.tree frame name evidence range
        else assignMember state.tree frame base name evidence range
      (state.withTree tree, found)
    | none =>
      let path := target.dottedPath?.getD name
      (state.warn .unsupportedForm s!"nested member assignment to `{path}` skipped" (some range), 0)
  | _ => (state.warn .unsupportedForm "indexed assignment skipped" (some range), 0)

/-- The names of a `local` statement with the values that stand opposite them. -/
def declareLocals (config : DiscoveryConfig) (frame : Frame) (range : Range) :
    List String → List Expr → State → State × Nat
  | [], _, state => (state, 0)
  | name :: names, values, state =>
    let evidence := classifyValue config state.tree frame values.head?
    let (tree, id, created) := defineLocal state.tree frame.scope name range
    let (tree, found) := applyEvidence tree id evidence
    let (state, others) := declareLocals config frame range names values.tail (state.withTree tree)
    (state, created + found + others)

/-- The targets of an assignment with the values that stand opposite them. -/
def assignAll (config : DiscoveryConfig) (frame : Frame) (range : Range) :
    List Expr → List Expr → State → State × Nat
  | [], _, state => (state, 0)
  | target :: targets, values, state =>
    let evidence := classifyValue config state.tree frame values.head?
    let (state, found) := assign state frame target evidence range
    let (state, others) := assignAll config frame range targets values.tail state
    (state, found + others)

/-- The variables of a generic `for` statement. -/
def declareNames (scope : ScopeId) (range : Range) : List String → ScopeTree → ScopeTree × Nat
  | [], tree => (tree, 0)
  | name :: names, tree =>
    let (tree, _, created) := defineLocal tree scope name range
    let (tree, others) := declareNames scope range names tree
    (tree, created + others)

/-- Evidence for what a return statement gives back. -/
def returnEvidence (config : DiscoveryConfig) (tree : ScopeTree) (frame : Frame) (values : List Expr) :
    Evidence :=
  match values with
  | [] => .ofType .void
  | first :: _ => classify config tree frame first

/-- The kind of block that a statement opens. -/
def blockKind? : StmtKind → Option BlockKind
  | .if_ _ => some .if_
  | .while_ _ _ => some .while_
  | .repeat_ _ _ => some .repeat_
  | .do_ _ => some .do_
  | .forNumeric _ _ _ _ _ => some .forNumeric
  | .forGeneric _ _ _ => some .forGeneric
  | _ => none

section Walk

variable (config : DiscoveryConfig)

mutual
/-- Walk statements in order. `earlier` holds the kinds of the blocks before them in the body. -/
def walkStmts : List Stmt → Frame → List BlockKind → State → State × Nat
  | [], _, _, state => (state, 0)
  | stmt :: rest, frame, earlier, state =>
    let (state, found) := walkStmt stmt frame earlier state
    let (state, others) := walkStmts rest frame ((blockKind? stmt.kind).toList ++ earlier) state
    (state, found + others)

def walkStmt : Stmt → Frame → List BlockKind → State → State × Nat
  | ⟨kind, range⟩, frame, earlier, state => walkKind kind range frame earlier state

def walkKind : StmtKind → Range → Frame → List BlockKind → State → State × Nat
  | .local_ names values, range, frame, _, state => declareLocals config frame range names values state
  | .assign targets values, range, frame, _, state => assignAll config frame range targets values state
  | .return_ values, _, frame, _, state =>
    match frame.function with
    | none => (state, 0)
    | some function =>
      let evidence := returnEvidence config state.tree frame values
      let (tree, found) := applyEvidence state.tree function evidence
      (state.withTree tree, found)
  | .if_ clauses, _, frame, earlier, state =>
    let (tree, block, entered) := enterBlock state.tree frame.scope .if_ (earlier.count .if_)
    let (state, found) := walkClauses clauses (frame.within block) 0 (state.withTree tree)
    (state, entered + found)
  | .while_ _ body, _, frame, earlier, state =>
    let (tree, block, entered) := enterBlock state.tree frame.scope .while_ (earlier.count .while_)
    let (state, found) := walkStmts body (frame.within block) [] (state.withTree tree)
    (state, entered + found)
  | .repeat_ body _, _, frame, earlier, state =>
    let (tree, block, entered) := enterBlock state.tree frame.scope .repeat_ (earlier.count .repeat_)
    let (state, found) := walkStmts body (frame.within block) [] (state.withTree tree)
    (state, entered + found)
  | .do_ body, _, frame, earlier, state =>
    let (tree, block, entered) := enterBlock state.tree frame.scope .do_ (earlier.count .do_)
    let (state, found) := walkStmts body (frame.within block) [] (state.withTree tree)
    (state, entered + found)
  | .forNumeric var _ _ _ body, range, frame, earlier, state =>
    let (tree, block, entered) :=
      enterBlock state.tree frame.scope .forNumeric (earlier.count .forNumeric)
    let (tree, id, created) := defineLocal tree block var range
    let (tree, typed) := applyEvidence tree id (.ofType .number)
    let (state, found) := walkStmts body (frame.within block) [] (state.withTree tree)
    (state, entered + created + typed + found)
  | .forGeneric names _ body, range, frame, earlier, state =>
    let (tree, block, entered) :=
      enterBlock state.tree frame.scope .forGeneric (earlier.count .forGeneric)
    let (tree, created) := declareNames block range names tree
    let (state, found) := walkStmts body (frame.within block) [] (state.withTree tree)
    (state, entered + created + found)
  | .call _, _, _, _, state => (state, 0)
  | .function _ _ _, _, _, _, state => (state, 0)
  | .break_, _, _, _, state => (state, 0)
  | .goto _, _, _, _, state => (state, 0)
  | .label _, _, _, _, state => (state, 0)

/-- Walk the arms of an `if` statement, each in a block of its own; `index` counts them. -/
def walkClauses : List IfClause → Frame → Nat → State → State × Nat
  | [], _, _, state => (state, 0)
  | clause :: rest, frame, index, state =>
    let (state, found) := walkClause clause frame index state
    let (state, others) := walkClauses rest frame (index + 1) state
    (state, found + others)

def walkClause : IfClause → Frame → Nat → State → State × Nat
  | ⟨_, body⟩, frame, index, state =>
    let (tree, block, entered) := enterBlock state.tree frame.scope .ifClause index
    let (state, found) := walkStmts body (frame.within block) [] (state.withTree tree)
    (state, entered + found)
end

/-- Walk a whole body. -/
def walkBody (frame : Frame) (body : FunctionBody) (state : State) : State × Nat :=
  walkStmts config body.body frame [] state

end Walk
end LuaClasses.Discovery
