import LuaClasses.Proofs.EntryFormed

/-! The states that a discovery reaches: the one in which classes and members are entered, and
all that sweeps lead to from there. Their trees are put together properly. -/

namespace LuaClasses

theorem ScopeTree.node?_new {name : String} {id : ScopeId} {node : Node}
    (found : (ScopeTree.new name).node? id = some node) :
    id = ScopeTree.root ∧ node = { raw := name, name, parent := none, children := .empty, valueType := .table, entity := none } := by
  obtain ⟨index⟩ := id
  cases index with
  | zero => exact ⟨rfl, (Option.some.inj found).symm⟩
  | succ index => cases found

/-- A new tree has no entities. -/
theorem ScopeTree.entity?_new (name : String) (id : ScopeId) : (ScopeTree.new name).entity? id = none := by
  cases found : (ScopeTree.new name).node? id with
  | none => rw [entity?, found, Option.bind_none]
  | some node => rw [entity?, found, Option.bind_some, (node?_new found).2]

namespace Discovery
open ScopeTree Relation

variable (config : DiscoveryConfig) (program : Program)

theorem formed_initial : (State.initial config).Formed where
  tree := by
    refine ⟨⟨_, rfl, rfl⟩, ?_, ?_, ?_, ?_⟩
    · intro first second one two left right _
      rw [(node?_new left).1, (node?_new right).1]
    · intro id node found apart
      exact absurd (node?_new found).1 apart
    · intro parent name id found
      obtain ⟨node, present, held⟩ := Option.bind_eq_some_iff.1 found
      rw [(node?_new present).2] at held
      cases held
    · intro id entity found
      rw [State.initial, entity?_new] at found
      cases found
  diagnostics := List.nodup_nil
  bodies := fun _ member => by cases member

theorem revises_steps {step : State → State → Prop}
    (each : ∀ {before after}, step before after → before.Revises after) {before after : State}
    (steps : ReflTransGen step before after) : before.Revises after := by
  induction steps with
  | refl => exact .refl before
  | tail _ last ih => exact ih.trans (each last)

theorem formed_declared : (declared config program).Formed :=
  (revises_steps revises_declareStep (declared_steps config program) (formed_initial config)).1

theorem formed_indexed : (indexed config program).Formed :=
  (revises_steps revises_indexStep (indexed_steps config program) (formed_declared config program)).1

theorem revises_defineSteps {config : DiscoveryConfig} {program : Program} {owner : ScopeId}
    {ownerName : String} {before after : State}
    (steps : ReflTransGen (DefineStep config program owner ownerName) before after)
    (inside : owner.index < before.tree.size) : before.Revises after := by
  induction steps with
  | refl => exact .refl before
  | tail _ last ih =>
    intro formed
    obtain ⟨_, kept⟩ := ih formed
    exact (ih.trans (revises_defineStep last (kept.index_lt formed.tree inside))) formed

theorem revises_defineMembers {state : State} {owner : ScopeId} (inside : owner.index < state.tree.size) :
    state.Revises (defineMembers config program state owner) := by
  cases found : state.tree.classAt? owner with
  | none => rw [defineMembers_outside config program found]; exact .refl state
  | some held => exact revises_defineSteps (defineMembers_steps config program found) inside

private theorem revises_defineAll (owners : List ScopeId) {state : State}
    (inside : ∀ owner ∈ owners, owner.index < state.tree.size) :
    state.Revises (owners.foldl (defineMembers config program) state) := by
  induction owners generalizing state with
  | nil => exact .refl state
  | cons owner rest ih =>
    intro formed
    have first := revises_defineMembers config program (inside owner List.mem_cons_self)
    obtain ⟨_, kept⟩ := first formed
    exact (first.trans (ih fun other member =>
      kept.index_lt formed.tree (inside other (List.mem_cons_of_mem _ member)))) formed

theorem formed_defined : (defined config program).Formed := by
  have formed := formed_indexed config program
  refine (revises_defineAll config program _ (fun owner member => ?_) formed).1
  obtain ⟨bodies, held, rfl⟩ := List.mem_map.1 member
  exact formed.bodies bodies held _ List.mem_cons_self

variable {config program}

private theorem advances_walkMethods (config : DiscoveryConfig) {state : State} {bodies : ClassBodies}
    (inside : ∀ id ∈ bodies.scopes, id.index < state.tree.size) :
    state.Advances (walkMethods config bodies state).1 := by
  intro formed
  rw [walkMethods_eq config formed inside]
  exact advances_runTours config _ state formed

/-- What relates the states before and after any tours relates those before and after the walk of the
methods that ends the entry. -/
theorem seeded_relates (relation : State → State → Prop) (refl : ∀ state, relation state state)
    (trans : ∀ {first second third}, relation first second → relation second third → relation first third)
    (walks : ∀ tours state, relation state (runTours config tours state).1) :
    relation (defined config program) (seeded config program) := by
  have formed := formed_defined config program
  rw [seeded_eq]
  suffices ∀ (classes : List ClassBodies) (state : State), state.Formed →
      (∀ bodies ∈ classes, ∀ id ∈ bodies.scopes, id.index < state.tree.size) →
      relation state (classes.foldl (fun state bodies => (walkMethods config bodies state).1) state) from
    this _ _ formed formed.bodies
  intro classes
  induction classes with
  | nil => exact fun state _ _ => refl state
  | cons bodies rest ih =>
    intro state formed inside
    have first := inside bodies List.mem_cons_self
    obtain ⟨after, grows⟩ := advances_walkMethods config first formed
    have walked : relation state (walkMethods config bodies state).1 := by
      rw [walkMethods_eq config formed first]
      exact walks _ state
    apply trans walked
    apply ih _ after
    intro other member id scope
    exact grows.tree.index_lt (inside other (List.mem_cons_of_mem _ member) id scope)

/-- Before the first sweep the methods of all classes are walked. -/
theorem seeded_eq_runTours (config : DiscoveryConfig) (program : Program) : seeded config program =
    (runTours config ((defined config program).classes.flatMap
      (methodTours config (defined config program).tree))
      (defined config program)).1 := by
  have formed := formed_defined config program
  suffices ∀ (classes : List ClassBodies) (state : State), classes ⊆ (defined config program).classes →
      state.Formed → (defined config program).Grows state →
      classes.foldl (fun state bodies => (walkMethods config bodies state).1) state =
        (runTours config (classes.flatMap (methodTours config (defined config program).tree)) state).1 from
    this _ _ (List.Subset.refl _) formed (.refl _)
  intro classes
  induction classes with
  | nil => exact fun state _ _ _ => rfl
  | cons bodies rest ih =>
    intro state listed after grows
    have inside := formed.bodies bodies (listed List.mem_cons_self)
    have walked : (walkMethods config bodies state).1 =
        (runTours config (methodTours config (defined config program).tree bodies) state).1 := by
      rw [walkMethods_eq config after fun id scope => grows.tree.index_lt (inside id scope),
        methodTours_grows config grows.tree inside]
    obtain ⟨last, further⟩ := advances_runTours config
      (methodTours config (defined config program).tree bodies) state after
    rw [List.foldl_cons, walked, ih _ (fun other member => listed (List.mem_cons_of_mem _ member))
      last (grows.trans further),
      List.flatMap_cons, runTours_append]

/-- The walk of the methods before the first sweep makes tours that each sweep makes again. -/
theorem seeding_subset (config : DiscoveryConfig) (program : Program) :
    (defined config program).classes.flatMap (methodTours config (defined config program).tree) ⊆
    tours config (defined config program) := by
  intro tour member
  obtain ⟨bodies, listed, own⟩ := List.mem_flatMap.1 member
  exact List.mem_flatMap.2 ⟨bodies, listed, List.mem_append_right _ own⟩

theorem exists_seeding_tours (config : DiscoveryConfig) (program : Program) :
    ∃ made, made ⊆ tours config (defined config program) ∧
      seeded config program = (runTours config made (defined config program)).1 :=
  ⟨_, seeding_subset config program, seeded_eq_runTours config program⟩

/-- The walk of the methods before the first sweep only adds, as a sweep does. -/
theorem advances_seeded : (defined config program).Advances (seeded config program) :=
  seeded_relates State.Advances .refl .trans (advances_runTours config)

theorem formed_seeded : (seeded config program).Formed := (advances_seeded (formed_defined config program)).1

/-! ### Sweeps -/

theorem advances_sweepUntilIdle (left total : Nat) (state : State) :
    state.Advances (sweepUntilIdle config left total state).1 := by
  induction left generalizing total state with
  | zero => exact state.advances_warn _ _ _
  | succ left ih =>
    rw [sweepUntilIdle]
    dsimp only
    split
    next => exact advances_sweep config state
    next => exact (advances_sweep config state).trans (ih (total + 1) _)

namespace Run

/-- The discoveries that come after the entry of classes and members, by any sweeps. -/
inductive Reached (program : Program) (config : DiscoveryConfig) : Run → Prop
  | seeded : Reached program config (start program config).seed
  | swept {run : Run} : Reached program config run → Reached program config run.sweep.1
  | resolved {run : Run} : Reached program config run → Reached program config run.resolve

/-- A class with a constructor that gives its instances one field. -/
def cellProgram : Program where
  body := [
    ⟨.assign [.name "Cell"] [.methodCall (.name "ISBaseObject") "derive" [.string "Cell"]], ⟨1, 0, 1, 34⟩⟩,
    ⟨.function (.ofMember "Cell" .dot "new") false ⟨["size"], false, [
      ⟨.local_ ["o"] [.table []], ⟨3, 2, 3, 14⟩⟩,
      ⟨.assign [.member (.name "o") "size"] [.name "size"], ⟨4, 2, 4, 15⟩⟩,
      ⟨.return_ [.name "o"], ⟨5, 2, 5, 10⟩⟩]⟩, ⟨2, 0, 6, 3⟩⟩]

variable {run : Run}

theorem Reached.config_eq (reached : Reached program config run) : run.config = config ∧ run.seed = run := by
  induction reached with
  | seeded => exact ⟨rfl, rfl⟩
  | @swept run _ ih =>
    obtain ⟨same, seeded⟩ := ih
    simp only [sweep, seeded]
    exact ⟨same, rfl⟩
  | @resolved run _ ih =>
    obtain ⟨same, seeded⟩ := ih
    simp only [resolve, seeded]
    split
    next => exact ⟨same, seeded⟩
    next => exact ⟨same, rfl⟩

theorem Reached.sweep_eq (reached : Reached program config run) :
    run.sweep.1.state = (Discovery.sweep config run.state).1 ∧ run.sweep.2 =
      (Discovery.sweep config run.state).2 := by
  obtain ⟨same, seeded⟩ := reached.config_eq
  subst same
  constructor <;> simp only [sweep, seeded]

theorem Reached.advances_resolve (reached : Reached program config run) :
    run.state.Advances run.resolve.state := by
  obtain ⟨same, seeded⟩ := reached.config_eq
  simp only [resolve, seeded]
  split
  next => exact .refl _
  next => exact advances_sweepUntilIdle _ _ run.state

theorem Reached.formed (reached : Reached program config run) : run.state.Formed := by
  induction reached with
  | seeded => exact formed_seeded
  | swept before ih =>
    rw [before.sweep_eq.1]
    exact (advances_sweep config _ ih).1
  | resolved before ih => exact (before.advances_resolve ih).1

end Run
end Discovery
end LuaClasses
