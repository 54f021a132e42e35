import LuaClasses.Proofs.Maps
import LuaClasses.Proofs.Gist

/-! Walks and sweeps on gists. A walk over the gist of a body writes what a walk over the
body writes, and finds as much. -/

namespace LuaClasses.Discovery

/-- The gists of the bodies of a class. -/
def ClassBodies.gist (bodies : ClassBodies) : ClassBodies :=
  { bodies with
    constructor := bodies.constructor.map FunctionBody.gist
    functions := bodies.functions.mapValues fun (id, body) => (id, body.gist)
    methods := bodies.methods.mapValues fun (id, body) => (id, body.gist) }

/-- The same state with the gists of its bodies. -/
def State.gist (state : State) : State := { state with classes := state.classes.map ClassBodies.gist }

@[simp] theorem State.tree_gist (state : State) : state.gist.tree = state.tree := rfl

@[simp] theorem State.withTree_gist (state : State) (tree : ScopeTree) :
    state.gist.withTree tree = (state.withTree tree).gist := rfl

@[simp] theorem State.warn_gist (state : State) (kind : DiagnosticKind) (message : String)
    (range : Option Range) :
    state.gist.warn kind message range = (state.warn kind message range).gist := by
  unfold State.warn
  by_cases known : (⟨kind, message, range⟩ : Diagnostic) ∈ state.diagnostics
  · rw [if_pos known, if_pos (show _ ∈ state.gist.diagnostics from known)]
  · rw [if_neg known, if_neg (show _ ∉ state.gist.diagnostics from known)]
    rfl

/-! ### Statements -/

private theorem assignName_gist (state : State) (frame : Frame) (name : String) (evidence : Evidence)
    (range : Range) :
    assignName state.gist frame name evidence range =
      ((assignName state frame name evidence range).1.gist,
        (assignName state frame name evidence range).2) := by
  simp only [assignName, State.tree_gist, State.warn_gist, State.withTree_gist]
  split
  · rfl
  · split <;> rfl

/-- Of a target, too, nothing but the gist is read. -/
theorem assign_gist (state : State) (frame : Frame) (target : Expr) (evidence : Evidence) (range : Range) :
    assign state.gist frame target.gist evidence range =
      ((assign state frame target evidence range).1.gist, (assign state frame target evidence range).2) := by
  simp only [assign, Expr.unparen_gist, Expr.dottedPath?_gist]
  cases target.unparen with
  | name name => exact assignName_gist state frame name evidence range
  | member object name =>
    simp only [Expr.gist, Expr.name?_gist, State.tree_gist, State.warn_gist, State.withTree_gist]
    cases object.name? <;> rfl
  | _ => exact Prod.ext (State.warn_gist state _ _ _) rfl

private theorem declareLocals_gist (config : DiscoveryConfig) (frame : Frame) (range : Range)
    (names : List String) (values : List Expr) (state : State) :
    declareLocals config frame range names (values.map Expr.gistBound) state.gist =
      ((declareLocals config frame range names values state).1.gist,
        (declareLocals config frame range names values state).2) := by
  induction names generalizing values state with
  | nil => rfl
  | cons name rest ih =>
    simp only [declareLocals, List.head?_map, ← List.map_tail, classifyValue_gistBound, State.tree_gist,
      State.withTree_gist, ih]

private theorem assignAll_gist (config : DiscoveryConfig) (frame : Frame) (range : Range)
    (targets values : List Expr) (state : State) :
    assignAll config frame range (targets.map Expr.gist) (values.map Expr.gistBound) state.gist =
      ((assignAll config frame range targets values state).1.gist,
        (assignAll config frame range targets values state).2) := by
  induction targets generalizing values state with
  | nil => rfl
  | cons target rest ih =>
    simp only [List.map_cons, assignAll, List.head?_map, ← List.map_tail,
      classifyValue_gistBound, State.tree_gist,
      assign_gist, ih]

/-- What is not walked changes nothing and opens no block. -/
theorem walkKind_of_unwalked {kind : StmtKind} (unwalked : kind.isWalked = false) (config : DiscoveryConfig)
    (range : Range) (frame : Frame) (earlier : List BlockKind) (state : State) :
    walkKind config kind range frame earlier state = (state, 0) ∧ blockKind? kind = none := by
  cases kind <;> first | exact ⟨rfl, rfl⟩ | cases unwalked

private theorem blockKind?_gist (kind : StmtKind) : blockKind? (gistKind kind) = blockKind? kind := by
  cases kind <;> rfl

mutual
theorem walkStmts_gist (config : DiscoveryConfig) (frame : Frame) (earlier : List BlockKind) (state : State) :
    (body : List Stmt) → walkStmts config (gistStmts body) frame earlier state.gist =
      ((walkStmts config body frame earlier state).1.gist, (walkStmts config body frame earlier state).2)
  | [] => rfl
  | ⟨kind, range⟩ :: rest => by
    cases walked : kind.isWalked with
    | true =>
      simp only [gistStmts, walked, if_true, gistStmt, walkStmts, walkStmt, blockKind?_gist]
      rw [walkKind_gist config range frame earlier state kind]
      simp only [walkStmts_gist config frame _ _ rest]
    | false =>
      -- The counters of the blocks pass over the statement.
      obtain ⟨idle, opens⟩ := walkKind_of_unwalked walked config range frame earlier state
      simp only [gistStmts, walked, Bool.false_eq_true, if_false, walkStmts, walkStmt, idle,
        opens, Option.toList_none,
        List.nil_append, Nat.zero_add]
      exact walkStmts_gist config frame earlier state rest

theorem walkKind_gist (config : DiscoveryConfig) (range : Range) (frame : Frame) (earlier : List BlockKind)
    (state : State) :
    (kind : StmtKind) → walkKind config (gistKind kind) range frame earlier state.gist =
      ((walkKind config kind range frame earlier state).1.gist,
        (walkKind config kind range frame earlier state).2)
  | .local_ names values => declareLocals_gist config frame range names values state
  | .assign targets values => assignAll_gist config frame range targets values state
  | .return_ values => by
    simp only [gistKind, walkKind, returnEvidence_gist, State.tree_gist]
    cases frame.function <;> rfl
  | .if_ clauses => by
    simp only [gistKind, walkKind, State.tree_gist, State.withTree_gist]
    rw [walkClauses_gist config _ _ _ clauses]
  | .while_ _ body | .repeat_ body _ | .do_ body => by
    simp only [gistKind, walkKind, State.tree_gist, State.withTree_gist]
    rw [walkStmts_gist config _ _ _ body]
  | .forNumeric _ _ _ _ body | .forGeneric _ _ body => by
    simp only [gistKind, walkKind, State.tree_gist, State.withTree_gist]
    rw [walkStmts_gist config _ _ _ body]
  | .call _ | .function _ _ _ | .break_ | .goto _ | .label _ => rfl

theorem walkClauses_gist (config : DiscoveryConfig) (frame : Frame) (index : Nat) (state : State) :
    (clauses : List IfClause) → walkClauses config (gistClauses clauses) frame index state.gist =
      ((walkClauses config clauses frame index state).1.gist,
        (walkClauses config clauses frame index state).2)
  | [] => rfl
  | ⟨_, body⟩ :: rest => by
    simp only [gistClauses, gistClause, walkClauses, walkClause, State.tree_gist, State.withTree_gist]
    rw [walkStmts_gist config _ _ _ body]
    simp only [walkClauses_gist config _ _ _ rest]
end

private theorem walkBody_gist (config : DiscoveryConfig) (frame : Frame) (body : FunctionBody)
    (state : State) :
    walkBody config frame body.gist state.gist =
      ((walkBody config frame body state).1.gist, (walkBody config frame body state).2) :=
  walkStmts_gist config frame [] state body.body

/-! ### Sweeps -/

/-- A pass over a list that adds up what it finds, where each step is the same on gists. -/
theorem foldl_gist {α : Type} (step : State → α → State × Nat) (view : α → α)
    (same : ∀ state item, step state.gist (view item) = ((step state item).1.gist, (step state item).2))
    (items : List α) (state : State) (found : Nat) :
    (items.map view).foldl (fun (state, found) item => ((step state item).1, found + (step state item).2))
        (state.gist, found) =
      ((items.foldl (fun (state, found) item => ((step state item).1, found + (step state item).2))
        (state, found)).1.gist,
        (items.foldl (fun (state, found) item => ((step state item).1, found + (step state item).2))
          (state, found)).2) := by
  induction items generalizing state found with
  | nil => rfl
  | cons item rest ih => simp only [List.map_cons, List.foldl_cons, same, ih]

theorem walkMethods_gist (config : DiscoveryConfig) (bodies : ClassBodies) (state : State) :
    walkMethods config bodies.gist state.gist =
      ((walkMethods config bodies state).1.gist, (walkMethods config bodies state).2) := by
  simp only [walkMethods, ClassBodies.gist, OrderedMap.values_mapValues]
  exact foldl_gist (fun state (id, body) => walkBody config (.ofMethod id config.instanceAlias) body state)
    (fun (id, body) => (id, body.gist))
    (fun state (id, body) => walkBody_gist config _ body state) bodies.methods.values state 0

private theorem walkFunctions_gist (config : DiscoveryConfig) (bodies : ClassBodies) (state : State) :
    walkFunctions config bodies.gist state.gist =
      ((walkFunctions config bodies state).1.gist, (walkFunctions config bodies state).2) := by
  simp only [walkFunctions, ClassBodies.gist, OrderedMap.values_mapValues]
  exact foldl_gist (fun state (id, body) => walkBody config (.ofFunction id) body state)
    (fun (id, body) => (id, body.gist))
    (fun state (id, body) => walkBody_gist config _ body state) bodies.functions.values state 0

private theorem walkConstructor_gist (config : DiscoveryConfig) (bodies : ClassBodies) (state : State) :
    walkConstructor config bodies.gist state.gist =
      ((walkConstructor config bodies state).1.gist, (walkConstructor config bodies state).2) := by
  simp only [walkConstructor, ClassBodies.gist, State.tree_gist]
  cases bodies.constructor with
  | none => rfl
  | some body =>
    cases state.tree.classAt? bodies.owner with
    | none => rfl
    | some owner => exact walkBody_gist config _ body state

private theorem walkClass_gist (config : DiscoveryConfig) (bodies : ClassBodies) (state : State) :
    walkClass config bodies.gist state.gist =
      ((walkClass config bodies state).1.gist, (walkClass config bodies state).2) := by
  simp only [walkClass, walkConstructor_gist, walkFunctions_gist, walkMethods_gist]

private theorem sweep_gist (config : DiscoveryConfig) (state : State) :
    sweep config state.gist = ((sweep config state).1.gist, (sweep config state).2) := by
  have walked := foldl_gist (fun state bodies => walkClass config bodies state) ClassBodies.gist
    (fun state bodies => walkClass_gist config bodies state) state.classes state 0
  simp only [sweep]
  rw [show state.gist.classes = state.classes.map ClassBodies.gist from rfl, walked]
  rfl

theorem sweepUntilIdle_gist (config : DiscoveryConfig) (left total : Nat) (state : State) :
    sweepUntilIdle config left total state.gist =
      ((sweepUntilIdle config left total state).1.gist, (sweepUntilIdle config left total state).2) := by
  induction left generalizing total state with
  | zero => exact Prod.ext (State.warn_gist state _ _ _) rfl
  | succ left ih =>
    simp only [sweepUntilIdle, sweep_gist]
    split
    · rfl
    · exact ih (total + 1) _

end LuaClasses.Discovery
