import LuaClasses.Proofs.StateGrowth
import LuaClasses.Proofs.Tally

/-! The walk of a body as a plain list of steps. Which scopes a body is walked in follows from
its statements alone, so each step can be given the path of its scope beforehand. The walk does
the steps one after the other. -/

namespace LuaClasses.Discovery
open ScopeTree

/-- What a walk does at a scope. -/
inductive Action where
  /-- Enter a block. -/
  | block (kind : BlockKind) (index : Nat)
  /-- Declare a local with the value opposite it. -/
  | local_ (name : String) (value : Option Expr)
  /-- Assign the value opposite a target. -/
  | target (expr : Expr) (value : Option Expr)
  | return_ (values : List Expr)

/-- The values that a step evaluates. -/
def Action.values : Action → List Expr
  | .block _ _ => []
  | .local_ _ value => value.toList
  | .target _ value => value.toList
  | .return_ values => values.head?.toList

structure Site where
  /-- The path of the scope. -/
  scope : String
  action : Action
  range : Range

/-- The members of a list with what stands opposite them. -/
def opposite {α β : Type} : List α → List β → List (α × Option β)
  | [], _ => []
  | first :: rest, others => (first, others.head?) :: opposite rest others.tail

mutual
/-- The steps of statements in the scope of a path. `earlier` holds the kinds of the blocks
before them. -/
def sites : List Stmt → String → List BlockKind → List Site
  | [], _, _ => []
  | stmt :: rest, scope, earlier =>
    stmtSites stmt scope earlier ++ sites rest scope ((blockKind? stmt.kind).toList ++ earlier)

def stmtSites : Stmt → String → List BlockKind → List Site
  | ⟨kind, range⟩, scope, earlier => kindSites kind range scope earlier

def kindSites : StmtKind → Range → String → List BlockKind → List Site
  | .local_ names values, range, scope, _ =>
    (opposite names values).map fun entry => ⟨scope, .local_ entry.1 entry.2, range⟩
  | .assign targets values, range, scope, _ =>
    (opposite targets values).map fun entry => ⟨scope, .target entry.1 entry.2, range⟩
  | .return_ values, range, scope, _ => [⟨scope, .return_ values, range⟩]
  | .if_ clauses, range, scope, earlier =>
    ⟨scope, .block .if_ (earlier.count .if_), range⟩ ::
      clausesSites clauses range (DottedName.child scope (blockName .if_ (earlier.count .if_))) 0
  | .while_ _ body, range, scope, earlier =>
    ⟨scope, .block .while_ (earlier.count .while_), range⟩ ::
      sites body (DottedName.child scope (blockName .while_ (earlier.count .while_))) []
  | .repeat_ body _, range, scope, earlier =>
    ⟨scope, .block .repeat_ (earlier.count .repeat_), range⟩ ::
      sites body (DottedName.child scope (blockName .repeat_ (earlier.count .repeat_))) []
  | .do_ body, range, scope, earlier =>
    ⟨scope, .block .do_ (earlier.count .do_), range⟩ ::
      sites body (DottedName.child scope (blockName .do_ (earlier.count .do_))) []
  | .forNumeric var _ _ _ body, range, scope, earlier =>
    let block := DottedName.child scope (blockName .forNumeric (earlier.count .forNumeric))
    -- The variable of the loop is declared as a local that holds a number.
    ⟨scope, .block .forNumeric (earlier.count .forNumeric), range⟩ ::
      ⟨block, .local_ var (some (.number "")), range⟩ :: sites body block []
  | .forGeneric names _ body, range, scope, earlier =>
    let block := DottedName.child scope (blockName .forGeneric (earlier.count .forGeneric))
    ⟨scope, .block .forGeneric (earlier.count .forGeneric), range⟩ ::
      (names.map (fun name => ⟨block, .local_ name none, range⟩) ++ sites body block [])
  | _, _, _, _ => []

def clausesSites : List IfClause → Range → String → Nat → List Site
  | [], _, _, _ => []
  | clause :: rest, range, scope, index =>
    clauseSites clause range scope index ++ clausesSites rest range scope (index + 1)

def clauseSites : IfClause → Range → String → Nat → List Site
  | ⟨_, body⟩, range, scope, index =>
    ⟨scope, .block .ifClause index, range⟩ :: sites body
    (DottedName.child scope (blockName .ifClause index)) []
end

variable (config : DiscoveryConfig)

def Action.run (frame : Frame) (range : Range) (state : State) : Action → State × Nat
  | .block kind index =>
    let entered := enterBlock state.tree frame.scope kind index
    (state.withTree entered.1, entered.2.2)
  | .local_ name value =>
    let evidence := classifyValue config state.tree frame value
    let defined := defineLocal state.tree frame.scope name range
    let applied := applyEvidence defined.1 defined.2.1 evidence
    (state.withTree applied.1, defined.2.2 + applied.2)
  | .target expr value => assign state frame expr (classifyValue config state.tree frame value) range
  | .return_ values =>
    match frame.function with
    | none => (state, 0)
    | some function =>
      let applied := applyEvidence state.tree function (returnEvidence config state.tree frame values)
      (state.withTree applied.1, applied.2)

/-- Do one step. Nothing happens where its scope does not exist. -/
def Site.run (frame : Frame) (state : State) (site : Site) : State × Nat :=
  match state.tree.find? site.scope with
  | some scope => site.action.run config (frame.within scope) site.range state
  | none => (state, 0)

/-- Do the steps of a body one after the other and count what they find. -/
def runSites (frame : Frame) (sites : List Site) (state : State) : State × Nat :=
  runEach (fun site state => site.run config frame state) sites state

theorem runSites_cons (frame : Frame) (site : Site) (rest : List Site) (state : State) :
    runSites config frame (site :: rest) state =
      ((runSites config frame rest (site.run config frame state).1).1,
        (site.run config frame state).2 +
        (runSites config frame rest (site.run config frame state).1).2) := rfl

private theorem runSites_append (frame : Frame) (first second : List Site) (state : State) :
    runSites config frame (first ++ second) state =
      ((runSites config frame second (runSites config frame first state).1).1,
        (runSites config frame first state).2 +
          (runSites config frame second (runSites config frame first state).1).2) :=
  runEach_append _ first second state

private theorem advances_action (frame : Frame) (range : Range) {state : State}
    (inside : frame.scope.index < state.tree.size) (action : Action) :
    state.Advances (action.run config frame range state).1 := by
  cases action with
  | block kind index => exact state.advances_withTree (advances_enterBlock state.tree inside kind index)
  | local_ name value =>
    exact state.advances_withTree ((advances_defineLocal state.tree inside name range).trans
      (advances_applyEvidence _ _ _))
  | target expr value => exact advances_assign inside expr _ range
  | return_ values =>
    simp only [Action.run]
    split
    next => exact .refl _
    next => exact state.advances_withTree (advances_applyEvidence _ _ _)

theorem advances_site (frame : Frame) (state : State) (site : Site) :
    state.Advances (site.run config frame state).1 := by
  unfold Site.run
  split
  next scope found =>
    exact advances_action config (frame.within scope) site.range (index_lt_of_find? found) site.action
  next => exact .refl _

theorem advances_runSites (frame : Frame) (sites : List Site) (state : State) :
    state.Advances (runSites config frame sites state).1 :=
  runEach_relates State.Advances .refl .trans (fun site _ state => advances_site config frame state site)
    state

/-! ### The walk does its steps -/

private theorem run_of_find? {frame : Frame} {state : State} (site : Site)
    (found : state.tree.find? site.scope = some frame.scope) :
    site.run config frame state = site.action.run config frame site.range state := by
  simp only [Site.run, found]
  rfl

/-- The scope of a step is found by its path and not through the frame. -/
theorem runSites_within (frame : Frame) (scope : ScopeId) (sites : List Site) (state : State) :
    runSites config (frame.within scope) sites state = runSites config frame sites state := rfl

private theorem applyEvidence_none (tree : ScopeTree) (target : ScopeId) :
    applyEvidence tree target .none = (tree, 0) := by
  cases held : tree.entity? target with
  | none => exact applyEvidence_vacant tree held _
  | some entity =>
    rw [applyEvidence_held tree held]
    have unchanged : (Evidence.none.absorb tree target entity) = (entity, 0) := by
      obtain ⟨references, kind⟩ := entity
      cases kind <;> rfl
    rw [unchanged, setEntity_self held]

private theorem declareLocals_eq {frame : Frame} {path : String} (range : Range) (names : List String)
    (values : List Expr) {state : State} (formed : state.Formed)
    (found : state.tree.find? path = some frame.scope) :
    declareLocals config frame range names values state =
      runSites config frame
        ((opposite names values).map fun entry => ⟨path, .local_ entry.1 entry.2, range⟩) state := by
  induction names generalizing values state with
  | nil => rfl
  | cons name rest ih =>
    have first := run_of_find? config ⟨path, .local_ name values.head?, range⟩ found
    obtain ⟨after, grows⟩ := advances_site config frame state
      ⟨path, .local_ name values.head?, range⟩ formed
    simp only [opposite, List.map_cons, runSites_cons]
    rw [first] at after grows ⊢
    rw [← ih values.tail after (grows.tree.find? found)]
    rfl

private theorem assignAll_eq {frame : Frame} {path : String} (range : Range) (targets values : List Expr)
    {state : State} (formed : state.Formed) (found : state.tree.find? path = some frame.scope) :
    assignAll config frame range targets values state =
      runSites config frame
        ((opposite targets values).map fun entry => ⟨path, .target entry.1 entry.2, range⟩) state := by
  induction targets generalizing values state with
  | nil => rfl
  | cons target rest ih =>
    have first := run_of_find? config ⟨path, .target target values.head?, range⟩ found
    obtain ⟨after, grows⟩ := advances_site config frame state
      ⟨path, .target target values.head?, range⟩ formed
    simp only [opposite, List.map_cons, runSites_cons]
    rw [first] at after grows ⊢
    rw [← ih values.tail after (grows.tree.find? found)]
    rfl

private theorem declareNames_eq {frame : Frame} {path : String} (range : Range) (names : List String)
    {state : State} (formed : state.Formed) (found : state.tree.find? path = some frame.scope) :
    runSites config frame (names.map fun name => ⟨path, .local_ name none, range⟩) state =
      (state.withTree (declareNames frame.scope range names state.tree).1,
        (declareNames frame.scope range names state.tree).2) := by
  induction names generalizing state with
  | nil => rfl
  | cons name rest ih =>
    have first := run_of_find? config ⟨path, .local_ name none, range⟩ found
    obtain ⟨after, grows⟩ := advances_site config frame state ⟨path, .local_ name none, range⟩ formed
    simp only [List.map_cons, runSites_cons]
    rw [first] at after grows ⊢
    rw [ih after (grows.tree.find? found)]
    simp only [Action.run, classifyValue, applyEvidence_none, declareNames]
    rfl

theorem find?_enterBlock {tree : ScopeTree} {path : String} {parent : ScopeId}
    (found : tree.find? path = some parent) (kind : BlockKind) (index : Nat) :
    (enterBlock tree parent kind index).1.find? (DottedName.child path (blockName kind index)) =
      some (enterBlock tree parent kind index).2.1 := by
  have made := find?_internChild .block tree parent (blockName kind index)
  rw [raw_of_find? found] at made
  rw [enterBlock_eq]
  dsimp only
  split
  next => exact made
  next => rw [(sameShape_setEntity _ _ _).find?]; exact made

/-- Steps that begin with a block go on in its scope. -/
theorem runSites_enter {frame : Frame} {state : State} {path : String} (kind : BlockKind) (index : Nat)
    (range : Range) (rest : List Site) (formed : state.Formed)
    (found : state.tree.find? path = some frame.scope) :
    let entered := enterBlock state.tree frame.scope kind index
    let inner := state.withTree entered.1
    runSites config frame (⟨path, .block kind index, range⟩ :: rest) state =
        ((runSites config (frame.within entered.2.1) rest inner).1,
          entered.2.2 + (runSites config (frame.within entered.2.1) rest inner).2) ∧
      inner.Formed ∧
      inner.tree.find? (DottedName.child path (blockName kind index)) =
        some (frame.within entered.2.1).scope := by
  have first := run_of_find? config ⟨path, .block kind index, range⟩ found
  obtain ⟨after, _⟩ := advances_site config frame state ⟨path, .block kind index, range⟩ formed
  rw [first] at after
  refine ⟨?_, after, find?_enterBlock found kind index⟩
  simp only [runSites_cons, first, runSites_within]
  rfl

mutual
theorem walkStmts_eq (stmts : List Stmt) (frame : Frame) (earlier : List BlockKind) (state : State)
    (path : String) (formed : state.Formed) (found : state.tree.find? path = some frame.scope) :
    walkStmts config stmts frame earlier state = runSites config frame (sites stmts path earlier) state :=
  match stmts with
  | [] => rfl
  | stmt :: rest => by
    have first := walkStmt_eq stmt frame earlier state path formed found
    obtain ⟨after, grows⟩ := advances_runSites config frame (stmtSites stmt path earlier) state formed
    have others := walkStmts_eq rest frame ((blockKind? stmt.kind).toList ++ earlier) _ path after
      (grows.tree.find? found)
    simp only [walkStmts, sites, runSites_append, first, others]

theorem walkStmt_eq (stmt : Stmt) (frame : Frame) (earlier : List BlockKind) (state : State) (path : String)
    (formed : state.Formed) (found : state.tree.find? path = some frame.scope) :
    walkStmt config stmt frame earlier state = runSites config frame (stmtSites stmt path earlier) state :=
  match stmt with
  | ⟨kind, range⟩ => walkKind_eq kind range frame earlier state path formed found

theorem walkKind_eq (kind : StmtKind) (range : Range) (frame : Frame) (earlier : List BlockKind)
    (state : State) (path : String) (formed : state.Formed)
    (found : state.tree.find? path = some frame.scope) :
    walkKind config kind range frame earlier state =
      runSites config frame (kindSites kind range path earlier) state :=
  match kind with
  | .local_ names values => declareLocals_eq config range names values formed found
  | .assign targets values => assignAll_eq config range targets values formed found
  | .return_ values => by
    simp only [kindSites, runSites_cons, run_of_find? config ⟨path, .return_ values, range⟩ found]
    rfl
  | .if_ clauses => by
    obtain ⟨entered, inner, inside⟩ := runSites_enter config .if_ (earlier.count .if_) range
      (clausesSites clauses range (DottedName.child path (blockName .if_ (earlier.count .if_))) 0) formed
      found
    rw [kindSites, entered, ← walkClauses_eq clauses range _ 0 _ _ inner inside]
    rfl
  | .while_ _ body => by
    obtain ⟨entered, inner, inside⟩ := runSites_enter config .while_ (earlier.count .while_) range
      (sites body (DottedName.child path (blockName .while_ (earlier.count .while_))) []) formed found
    rw [kindSites, entered, ← walkStmts_eq body _ [] _ _ inner inside]
    rfl
  | .repeat_ body _ => by
    obtain ⟨entered, inner, inside⟩ := runSites_enter config .repeat_ (earlier.count .repeat_) range
      (sites body (DottedName.child path (blockName .repeat_ (earlier.count .repeat_))) []) formed found
    rw [kindSites, entered, ← walkStmts_eq body _ [] _ _ inner inside]
    rfl
  | .do_ body => by
    obtain ⟨entered, inner, inside⟩ := runSites_enter config .do_ (earlier.count .do_) range
      (sites body (DottedName.child path (blockName .do_ (earlier.count .do_))) []) formed found
    rw [kindSites, entered, ← walkStmts_eq body _ [] _ _ inner inside]
    rfl
  | .forNumeric var _ _ _ body => by
    let block := DottedName.child path (blockName .forNumeric (earlier.count .forNumeric))
    let counter : Site := ⟨block, .local_ var (some (.number "")), range⟩
    obtain ⟨entered, inner, inside⟩ := runSites_enter config .forNumeric (earlier.count .forNumeric)
      range (counter :: sites body block []) formed found
    have first := run_of_find? config counter inside
    obtain ⟨after, grows⟩ := advances_site config (frame.within _) _ counter inner
    rw [first] at after grows
    have numeric : ∀ tree frame, classifyValue config tree frame (some (.number "")) = .ofType .number := by
      intro tree frame
      simp [classifyValue, classify, Expr.literalType?, Expr.unparen]
    rw [kindSites, entered]
    simp only [runSites_cons, first]
    rw [← walkStmts_eq body _ [] _ _ after (grows.tree.find? inside)]
    simp only [walkKind, Action.run, counter, numeric, Nat.add_assoc]
    rfl
  | .forGeneric names _ body => by
    let block := DottedName.child path (blockName .forGeneric (earlier.count .forGeneric))
    let items : List Site := names.map fun name => ⟨block, .local_ name none, range⟩
    obtain ⟨entered, inner, inside⟩ := runSites_enter config .forGeneric (earlier.count .forGeneric)
      range (items ++ sites body block []) formed found
    have first := declareNames_eq config range names inner inside
    obtain ⟨after, grows⟩ := advances_runSites config (frame.within _) items _ inner
    rw [first] at after grows
    rw [kindSites, entered, runSites_append,
      first, ← walkStmts_eq body _ [] _ _ after (grows.tree.find? inside)]
    simp only [walkKind, Nat.add_assoc]
    rfl
  | .call _ | .function _ _ _ | .break_ | .goto _ | .label _ => rfl

theorem walkClauses_eq (clauses : List IfClause) (range : Range) (frame : Frame) (index : Nat) (state : State)
    (path : String) (formed : state.Formed) (found : state.tree.find? path = some frame.scope) :
    walkClauses config clauses frame index state =
      runSites config frame (clausesSites clauses range path index) state :=
  match clauses with
  | [] => rfl
  | clause :: rest => by
    have first := walkClause_eq clause range frame index state path formed found
    obtain ⟨after, grows⟩ := advances_runSites config frame (clauseSites clause range path index) state formed
    have others := walkClauses_eq rest range frame (index + 1) _ path after (grows.tree.find? found)
    simp only [walkClauses, clausesSites, runSites_append, first, others]

theorem walkClause_eq (clause : IfClause) (range : Range) (frame : Frame) (index : Nat) (state : State)
    (path : String) (formed : state.Formed) (found : state.tree.find? path = some frame.scope) :
    walkClause config clause frame index state =
      runSites config frame (clauseSites clause range path index) state :=
  match clause with
  | ⟨_, body⟩ => by
    obtain ⟨entered, inner, inside⟩ := runSites_enter config .ifClause index range
      (sites body (DottedName.child path (blockName .ifClause index)) []) formed found
    rw [clauseSites, entered, ← walkStmts_eq body _ [] _ _ inner inside]
    rfl
end

end LuaClasses.Discovery
