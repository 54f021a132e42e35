import LuaClasses.Proofs.ShapeMembers

/-! Whatever a discovery reaches in a program with plain names, its classes are in shape. -/

namespace LuaClasses.Discovery
open ScopeTree Relation

variable {config : DiscoveryConfig} {program : Program} {owner : ScopeId}
  {ownerName : String} {before after : State}

theorem tidy_defineStep (plain : program.Plain)
    (step : DefineStep config program owner ownerName before after) (formed : before.Formed)
    (tidy : before.Tidy) (isClass : (before.tree.classAt? owner).isSome = true) :
    after.Tidy ∧ (after.tree.classAt? owner).isSome = true := by
  obtain ⟨held, found⟩ := Option.isSome_iff_exists.1 isClass
  cases step with
  | constructor range state within =>
    obtain ⟨kept, outline⟩ := tidy_defineConstructor formed tidy found ownerName
      (fun name member => plain name (within member)) range
    refine ⟨kept, ?_⟩
    rw [← Option.isSome_map, outline]
    rfl
  | function indexer range state named within written other =>
    have top := (tidy.tree.shaped found).top
    obtain ⟨kept, id, entered⟩ := tidy_defineFunction formed tidy top (plain _ named) indexer
      (fun name member => plain name (within member)) range
    rw [entered, Option.isSome_map]
    exact ⟨kept, isClass⟩
  | value value range state named =>
    have tends := before.tends_withTree (tends_defineValue config formed.tree tidy.tree found
      (plain _ named) value range)
    obtain ⟨_, kept, grows⟩ := tends formed tidy
    refine ⟨kept, ?_⟩
    rw [← Option.isSome_map, grows.tree.classAt? owner, Option.isSome_map]
    exact isClass

theorem tidy_defineSteps (plain : program.Plain)
    (steps : ReflTransGen (DefineStep config program owner ownerName) before after) (formed : before.Formed)
    (tidy : before.Tidy) (isClass : (before.tree.classAt? owner).isSome = true) :
    after.Formed ∧ after.Tidy ∧ (after.tree.classAt? owner).isSome = true := by
  induction steps with
  | refl => exact ⟨formed, tidy, isClass⟩
  | tail _ step ih =>
    obtain ⟨formed, tidy, isClass⟩ := ih
    obtain ⟨held, found⟩ := Option.isSome_iff_exists.1 isClass
    exact ⟨(revises_defineStep step (index_lt_of_entity? (classAt?_eq_some found).choose_spec) formed).1,
      tidy_defineStep plain step formed tidy isClass⟩

theorem tidy_defineMembers (plain : program.Plain) {state : State} (formed : state.Formed)
    (tidy : state.Tidy) (owner : ScopeId) :
    (defineMembers config program state owner).Formed ∧ (defineMembers config program state owner).Tidy := by
  cases found : state.tree.classAt? owner with
  | none => rw [defineMembers_outside config program found]; exact ⟨formed, tidy⟩
  | some held =>
    obtain ⟨last, kept, _⟩ := tidy_defineSteps plain (defineMembers_steps config program found) formed tidy
      (Option.isSome_of_eq_some found)
    exact ⟨last, kept⟩

theorem tidy_defined (config : DiscoveryConfig) (plain : program.Plain) : (defined config program).Tidy := by
  suffices ∀ (owners : List ScopeId) (state : State), state.Formed → state.Tidy →
      (owners.foldl (defineMembers config program) state).Tidy from
    this _ _ (formed_indexed config program) (tidy_indexed config plain)
  intro owners
  induction owners with
  | nil => exact fun state _ tidy => tidy
  | cons owner rest ih =>
    intro state formed tidy
    obtain ⟨last, kept⟩ := tidy_defineMembers plain formed tidy owner
    exact ih _ last kept

/-- The walk of the methods before the first sweep keeps classes in shape, as a sweep does. -/
theorem tidy_seeded (config : DiscoveryConfig) (plain : program.Plain) : (seeded config program).Tidy := by
  rw [seeded_eq]
  suffices ∀ (classes : List ClassBodies) (state : State), (∀ bodies ∈ classes, bodies ∈ state.classes) →
      state.Formed → state.Tidy → (classes.foldl
        (fun state bodies => (walkMethods config bodies state).1) state).Tidy from
    this _ _ (fun _ member => member) (formed_defined config program) (tidy_defined config plain)
  intro classes
  induction classes with
  | nil => exact fun state _ _ tidy => tidy
  | cons bodies rest ih =>
    intro state listed formed tidy
    have first := listed bodies List.mem_cons_self
    rw [List.foldl_cons, walkMethods_eq config formed (formed.bodies bodies first)]
    obtain ⟨last, kept, grows⟩ := tends_runTours config
      (fair_methodTours config formed tidy first) formed tidy
    exact ih _ (fun other member => grows.classes ▸ listed other (List.mem_cons_of_mem _ member)) last kept

private theorem tends_sweepUntilIdle (left total : Nat) (state : State) :
    state.Tends (sweepUntilIdle config left total state).1 := by
  induction left generalizing total state with
  | zero => exact state.tends_warn _ _ _
  | succ left ih =>
    rw [sweepUntilIdle]
    dsimp only
    split
    next => exact tends_sweep config
    next => exact (tends_sweep config).trans (ih (total + 1) _)

theorem Run.Reached.tidy {run : Run} (reached : Run.Reached program config run) (plain : program.Plain) :
    run.state.Tidy := by
  induction reached with
  | seeded => exact tidy_seeded config plain
  | @swept run before ih =>
    rw [before.sweep_eq.1]
    exact (tends_sweep config before.formed ih).2.1
  | @resolved run before ih =>
    obtain ⟨same, seeded⟩ := before.config_eq
    simp only [Run.resolve, seeded]
    split
    next => exact ih
    next => exact (tends_sweepUntilIdle _ _ run.state before.formed ih).2.1

end LuaClasses.Discovery
