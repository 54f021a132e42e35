import LuaClasses.Proofs.Reached

/-! Nothing but the end of the sweeps reports that their bound is reached. -/

namespace LuaClasses.Discovery
open Relation

namespace State

/-- A change that does not report that the bound on sweeps is reached. -/
def Unstopped (before after : State) : Prop :=
  ∀ problem ∈ after.diagnostics, problem.kind = .sweepLimit → problem ∈ before.diagnostics

variable {first second third : State}

theorem Unstopped.refl (state : State) : state.Unstopped state := fun _ member _ => member

theorem Unstopped.trans (one : first.Unstopped second) (two : second.Unstopped third) :
    first.Unstopped third :=
  fun problem member limit => one problem (two problem member limit) limit

variable (state : State)

private theorem unstopped_withTree (tree : ScopeTree) : state.Unstopped (state.withTree tree) :=
  fun _ member _ => member

private theorem unstopped_modifyBodies (owner : ScopeId) (f : ClassBodies → ClassBodies) :
    state.Unstopped (state.modifyBodies owner f) :=
  fun _ member _ => member

private theorem unstopped_resetBodies (owner : ScopeId) : state.Unstopped (state.resetBodies owner) := by
  unfold resetBodies
  split <;> exact fun _ member _ => member

private theorem unstopped_warn {kind : DiagnosticKind} (other : kind ≠ .sweepLimit) (message : String)
    (range : Option Range) :
    state.Unstopped (state.warn kind message range) := by
  intro problem member limit
  rw [diagnostics_warn] at member
  split at member
  next => exact member
  next =>
    rcases List.mem_append.1 member with old | new
    · exact old
    · rw [List.mem_singleton.1 new] at limit
      exact absurd limit other

private theorem unstopped_vacate (id : ScopeId) (message : String) (range : Range) :
    state.Unstopped (state.vacate id message range) := by
  unfold vacate
  split
  next => exact (state.unstopped_warn (by decide) message (some range)).trans (unstopped_withTree _ _)
  next => exact .refl state

end State

open State

variable (config : DiscoveryConfig) (program : Program)

/-! ### The entry of classes and members -/

private theorem unstopped_declareStep {before after : State}
    (step : DeclareStep config program before after) :
    before.Unstopped after := by
  cases step with
  | @class_ name base range state named =>
    rw [declareClass_eq]
    dsimp only
    refine .trans ?_ (unstopped_resetBodies _ _)
    exact ((before.unstopped_withTree _).trans (unstopped_vacate _ _ _ range)).trans (unstopped_withTree _ _)
  | skip message range => exact before.unstopped_warn (by decide) message range
  | link id => exact before.unstopped_withTree _

private theorem unstopped_indexStep {before after : State} (step : IndexStep config program before after) :
    before.Unstopped after := by
  cases step with
  | @function name body range state named within free =>
    rw [declareGlobalFunction_eq]
    exact ((before.unstopped_withTree _).trans (unstopped_vacate _ _ _ range)).trans (unstopped_withTree _ _)
  | table named free => exact before.unstopped_withTree _
  | value value range named free => exact before.unstopped_withTree _
  | member value range owned named table => exact before.unstopped_withTree _

private theorem unstopped_placeFields (owner : ScopeId) (fields : List (String × LuaType × Range))
    (seen : List String) (state : State) :
    state.Unstopped (placeFields owner fields seen state) := by
  induction fields generalizing seen state with
  | nil => exact .refl state
  | cons field rest ih =>
    obtain ⟨name, type, range⟩ := field
    rw [placeFields]
    refine .trans ?_ ((unstopped_withTree _ _).trans (ih (name :: seen) _))
    split
    next => exact state.unstopped_warn (by decide) _ _
    next => exact .refl state

private theorem unstopped_defineConstructor (owner : ScopeId) (ownerName : String) (body : FunctionBody)
    (range : Range) (state : State) :
    state.Unstopped (defineConstructor owner ownerName body range state) := by
  cases held : state.tree.classAt? owner with
  | none => rw [defineConstructor_outside held]; exact .refl state
  | some owned =>
    rw [defineConstructor_eq held]
    have vacated : state.Unstopped (vacateConstructor owner owned.constructor ownerName range state) := by
      unfold vacateConstructor
      split
      next => exact (state.unstopped_warn (by decide) _ _).trans (unstopped_withTree _ _)
      next => exact .refl state
    have placed : state.Unstopped (placeConstructor owner owned.constructor body
        (vacateConstructor owner owned.constructor ownerName range state)) :=
      vacated.trans ((unstopped_withTree _ _).trans (unstopped_modifyBodies _ _ _))
    dsimp only
    split
    next => exact placed.trans (unstopped_placeFields owner _ [] _)
    next => exact placed.trans (unstopped_warn _ (by decide) _ _)

private theorem unstopped_defineStep {owner : ScopeId} {ownerName : String} {before after : State}
    (step : DefineStep config program owner ownerName before after) : before.Unstopped after := by
  cases step with
  | constructor range state within => exact unstopped_defineConstructor owner ownerName _ range before
  | @function name indexer body range state named within written other =>
    rw [defineFunction_eq]
    refine .trans ?_ (unstopped_modifyBodies _ _ _)
    exact ((before.unstopped_withTree _).trans (unstopped_vacate _ _ _ range)).trans (unstopped_withTree _ _)
  | value value range state named => exact before.unstopped_withTree _

private theorem unstopped_steps {step : State → State → Prop}
    (each : ∀ {before after}, step before after → before.Unstopped after) {before after : State}
    (steps : ReflTransGen step before after) : before.Unstopped after := by
  induction steps with
  | refl => exact .refl before
  | tail _ last ih => exact ih.trans (each last)

private theorem unstopped_defined : (State.initial config).Unstopped (defined config program) := by
  have declare := unstopped_steps (unstopped_declareStep config program) (declared_steps config program)
  have index := unstopped_steps (unstopped_indexStep config program) (indexed_steps config program)
  refine (declare.trans index).trans ?_
  unfold defined
  generalize (indexed config program).classes.map ClassBodies.owner = owners
  generalize indexed config program = state
  induction owners generalizing state with
  | nil => exact .refl state
  | cons owner rest ih =>
    refine .trans ?_ (ih _)
    cases found : state.tree.classAt? owner with
    | none => rw [defineMembers_outside config program found]; exact .refl state
    | some held =>
      exact unstopped_steps (unstopped_defineStep config program) (defineMembers_steps config program found)

/-! ### The walks -/

private theorem unstopped_assign (frame : Frame) (target : Expr) (evidence : Evidence) (range : Range)
    (state : State) :
    state.Unstopped (assign state frame target evidence range).1 := by
  unfold assign
  split
  next name _ =>
    unfold assignName
    split
    next => exact unstopped_withTree _ _
    next =>
      split
      next => exact unstopped_withTree _ _
      next => exact unstopped_warn _ (by decide) _ _
  next =>
    split
    next => exact unstopped_withTree _ _
    next => exact unstopped_warn _ (by decide) _ _
  next => exact unstopped_warn _ (by decide) _ _

private theorem unstopped_site (frame : Frame) (site : Site) (state : State) :
    state.Unstopped (site.run config frame state).1 := by
  unfold Site.run
  split
  next scope _ =>
    cases site.action with
    | block kind index => exact unstopped_withTree _ _
    | local_ name value => exact unstopped_withTree _ _
    | target expr value => exact unstopped_assign _ expr _ _ state
    | return_ values =>
      simp only [Action.run]
      split
      next => exact .refl state
      next => exact unstopped_withTree _ _
  next => exact .refl state

private theorem unstopped_runTours (tours : List Tour) (state : State) :
    state.Unstopped (runTours config tours state).1 :=
  runEach_relates State.Unstopped .refl .trans (fun tour _ state =>
    runEach_relates State.Unstopped .refl .trans
      (fun site _ state => unstopped_site config tour.frame site state) state) state

theorem unstopped_seeded : (State.initial config).Unstopped (seeded config program) :=
  (unstopped_defined config program).trans
  (seeded_relates State.Unstopped .refl .trans (unstopped_runTours config))

theorem unstopped_sweep {state : State} (formed : state.Formed) : state.Unstopped (sweep config state).1 := by
  rw [sweep_eq config formed]
  exact (unstopped_runTours config _ state).trans (unstopped_withTree _ _)

end LuaClasses.Discovery
