import LuaClasses.Proofs.Enlistment

/-! The moments of a discovery once its members are entered: the steps of the bodies and the propagation
of types, in whatever order. The functions and methods whose bodies are walked hang below their classes
at each of them. -/

namespace LuaClasses.Discovery
open ScopeTree Relation

variable {config : DiscoveryConfig} {program : Program}

/-! ### Where bodies are -/

/-- Whether the functions and methods of a class hang below it under their names. -/
def ClassBodies.Housed (tree : ScopeTree) (bodies : ClassBodies) : Prop :=
  ∀ entry ∈ bodies.members, tree.child? bodies.owner entry.1 = some entry.2.1

def State.Housed (state : State) : Prop := ∀ bodies ∈ state.classes, bodies.Housed state.tree

theorem ClassBodies.Housed.links {before after : ScopeTree} {bodies : ClassBodies}
    (housed : bodies.Housed before) (links : before.Links after) : bodies.Housed after :=
  fun entry member => links (housed entry member)

theorem State.Housed.links {before after : State} (housed : before.Housed)
    (links : before.tree.Links after.tree) (classes : after.classes = before.classes) :
    after.Housed := by
  intro bodies member
  rw [classes] at member
  exact (housed bodies member).links links

private theorem classes_declareClass (name base : String) (range : Range) (state : State)
    {bodies : ClassBodies} (member : bodies ∈ (declareClass config name base range state).classes) :
    bodies ∈ state.classes ∨ ∃ owner, bodies = .new owner := by
  rw [declareClass_eq] at member
  rcases mem_resetBodies member with old | fresh
  · refine .inl ?_
    rw [State.withTree, classes_vacate] at old
    exact old
  · exact .inr ⟨_, fresh⟩

private theorem housed_declareStep (plain : program.Plain) {before after : State}
    (step : DeclareStep config program before after) (formed : before.Formed) (tidy : before.Tidy)
    (free : before.tree.Fieldless) (housed : before.Housed) : after.Housed := by
  have links := links_declareStep plain step formed tidy free
  cases step with
  | class_ base range state member written =>
    intro bodies listed
    rcases classes_declareClass _ base range before listed with old | ⟨owner, rfl⟩
    · exact (housed bodies old).links links
    · intro entry absent
      cases absent
  | skip message range state => exact housed.links links (State.classes_warn _ _ _ _)
  | link id state => exact housed.links links rfl

theorem classes_indexStep {before after : State} (step : IndexStep config program before after) :
    after.classes = before.classes := by
  cases step with
  | function range named within free => exact classes_declareGlobalFunction _ _ range before
  | table named free => rfl
  | value value range named free => rfl
  | member value range owned named table => rfl

private theorem child?_defineFunction {state : State} (formed : state.Formed) (tidy : state.Tidy)
    {owner : ScopeId} (top : state.tree.parent? owner = some root) {name : String}
    (plain : PlainName name) (indexer : Indexer) {body : FunctionBody}
    (params : ∀ name ∈ body.params, PlainName name) (range : Range) :
    (defineFunction owner name indexer body range state).tree.child? owner name =
      some (state.tree.internChild owner name .function).2 := by
  have member := placed_member formed tidy top plain indexer params
    (redefined (state.tree.internChild owner name .function).1 owner indexer name) range
  rw [defineFunction_eq]
  obtain ⟨hung, _, _, aside, _⟩ := member
  exact (sameShape_modifyEntity _ owner _).links ((aside owner).links hung.hangs)

private theorem housed_defineStep (plain : program.Plain) {owner : ScopeId} {ownerName : String}
    {before after : State} (step : DefineStep config program owner ownerName before after)
    (formed : before.Formed) (tidy : before.Tidy) (isClass : (before.tree.classAt? owner).isSome = true)
    (housed : before.Housed) : after.Housed := by
  have links := links_defineStep plain step formed tidy isClass
  cases step with
  | constructor range state within =>
    intro bodies member
    have listed := List.mem_map_of_mem (f := fun bodies : ClassBodies => (bodies.owner, bodies.members))
      member
    rw [map_defineConstructor _ fun _ _ => rfl] at listed
    obtain ⟨old, known, same⟩ := List.mem_map.1 listed
    obtain ⟨sameOwner, members⟩ := Prod.mk.inj same
    intro entry inside
    rw [← members] at inside
    rw [← sameOwner]
    exact links (housed old known entry inside)
  | @function name indexer body range state named within written other =>
    obtain ⟨held, found⟩ := Option.isSome_iff_exists.1 isClass
    have params : ∀ param ∈ body.params, PlainName param := fun param member =>
      plain param (within (params_subset body member))
    have hangs := child?_defineFunction formed tidy (tidy.tree.shaped found).top
      (plain _ named) indexer params range
    intro bodies member
    have listed := member
    rw [defineFunction_eq] at listed
    obtain ⟨old, known, rfl⟩ := List.mem_map.1 listed
    rw [State.withTree, classes_vacate] at known
    split
    next same =>
      intro entry inside
      have kept : (old.enterFunction indexer name (before.tree.internChild owner name .function).2
          body).owner = owner := by
        cases indexer <;> exact same
      rw [kept]
      rcases mem_members_enterFunction inside with rfl | former
      · exact hangs
      · exact links (same ▸ housed old known entry former)
    next => exact (housed old known).links links
  | value value range state named => exact housed.links links rfl

/-- Once the members are entered, each function and method with a body hangs below its class. -/
theorem housed_defined (config : DiscoveryConfig) (plain : program.Plain) :
    (defined config program).Housed := by
  have declared : (declared config program).Housed :=
    declareSteps_keep plain State.Housed (housed_declareStep plain) .refl
      (declared_steps config program) nofun
  have indexed : (indexed config program).Housed :=
    indexSteps_keep plain State.Housed
      (fun step formed tidy housed => housed.links (links_indexStep plain step formed tidy)
        (classes_indexStep step)) .refl
      (indexed_steps config program) declared
  exact (defineAll_keeps config plain State.Housed
    (fun step formed tidy found housed => housed_defineStep plain step formed tidy
      (Option.isSome_of_eq_some found) housed) _
    (formed_indexed config program) (tidy_indexed config plain) indexed).2.2

/-- The scope in which a body of a class begins hangs below the class, which is of the top level. -/
theorem tour_below_class (config : DiscoveryConfig) (plain : program.Plain) {bodies : ClassBodies}
    (listed : bodies ∈ (defined config program).classes) {tour : Tour}
    (made : tour ∈ toursOf config (defined config program).tree bodies) :
    (defined config program).tree.parent? tour.frame.scope = some bodies.owner ∧
      (defined config program).tree.parent? bodies.owner = some root := by
  have formed := (formed_defined config program).tree
  have tidy := tidy_defined config plain
  have housed := housed_defined config plain bodies listed
  refine ⟨?_, (tidy.bodies bodies listed).top⟩
  rcases mem_toursOf.1 made with ⟨_, held, _, found, rfl⟩ | ⟨_, _, _, member, rfl⟩ | ⟨_, _, _, member, rfl⟩
  · exact formed.parent?_of_child (formed.child?_constructor tidy.tree.dotless found)
  · exact formed.parent?_of_child (housed _ (List.mem_append_left _ member))
  · exact formed.parent?_of_child (housed _ (List.mem_append_right _ member))

/-! ### Moments -/

/-- The states that a discovery passes through once its members are entered. Any step of any body may
come next. -/
inductive Moment (program : Program) (config : DiscoveryConfig) : State → Prop
  | entered : Moment program config (defined config program)
  | walked {state : State} {tour : Tour} {site : Site} : Moment program config state →
      tour ∈ tours config (defined config program) → site ∈ tour.sites →
      Moment program config (site.run config tour.frame state).1
  | propagated {state : State} (owner : ScopeId) : Moment program config state →
      Moment program config (state.withTree (propagateInto state.tree owner).1)
  | warned {state : State} (kind : DiagnosticKind) (message : String) (range : Option Range) :
    Moment program config state →
      Moment program config (state.warn kind message range)

namespace Moment

variable {state : State}

/-- What stands at a moment has grown out of what is there once the members are entered, and keeps the
shape of that. -/
theorem tends (moment : Moment program config state) (plain : program.Plain) :
    (defined config program).Tends state := by
  have fair := fair_tours config (formed_defined config program) (tidy_defined config plain)
  induction moment with
  | entered => exact .refl _
  | @walked state tour site before made member ih =>
    intro formed tidy
    obtain ⟨last, kept, grows⟩ := ih formed tidy
    obtain ⟨inside, ordinary, names, named, belong⟩ := (fair tour made).grows formed.tree last.tree grows.tree
    exact (ih.trans (tends_site config named inside ordinary (belong site member))) formed tidy
  | @propagated state owner before ih => exact ih.trans (state.tends_withTree (tends_propagateInto owner))
  | @warned state kind message range before ih => exact ih.trans (state.tends_warn kind message range)

theorem runTours (moment : Moment program config state) {made : List Tour}
    (within : made ⊆ tours config (defined config program)) :
    Moment program config (Discovery.runTours config made state).1 := by
  refine runEach_keeps (Moment program config) (fun tour member state moment => ?_) moment
  exact runEach_keeps (Moment program config)
    (fun site listed state moment => .walked moment (within member) listed) moment

theorem propagate (moment : Moment program config state) :
    Moment program config (state.withTree (Discovery.propagate state.tree).1) := by
  rw [propagate_eq]
  exact runEach_keeps (fun tree => Moment program config (state.withTree tree))
    (fun owner _ tree (moment : Moment program config (state.withTree tree)) => moment.propagated owner)
    moment

theorem sweep (moment : Moment program config state) (plain : program.Plain) :
    Moment program config (Discovery.sweep config state).1 := by
  obtain ⟨formed, _, grows⟩ := moment.tends plain (formed_defined config program) (tidy_defined config plain)
  rw [sweep_eq config formed, tours_grows config (formed_defined config program) grows]
  exact (moment.runTours (List.Subset.refl _)).propagate

theorem sweepUntilIdle (moment : Moment program config state) (plain : program.Plain) (left total : Nat) :
    Moment program config (Discovery.sweepUntilIdle config left total state).1 := by
  induction left generalizing total state with
  | zero => exact moment.warned _ _ _
  | succ left ih =>
    rw [Discovery.sweepUntilIdle]
    dsimp only
    split
    next => exact moment.sweep plain
    next => exact ih (moment.sweep plain) (total + 1)

theorem seeded (config : DiscoveryConfig) (program : Program) :
    Moment program config (seeded config program) := by
  obtain ⟨made, within, same⟩ := exists_seeding_tours config program
  rw [same]
  exact Moment.entered.runTours within

/-- Whatever a discovery reaches is such a moment. -/
theorem of_reached {run : Run} (reached : Run.Reached program config run) (plain : program.Plain) :
    Moment program config run.state := by
  induction reached with
  | seeded => exact seeded config program
  | @swept run before ih =>
    rw [before.sweep_eq.1]
    exact ih.sweep plain
  | @resolved run before ih =>
    obtain ⟨same, seeded⟩ := before.config_eq
    simp only [Run.resolve, seeded]
    split
    next => exact ih
    next =>
      rw [← same] at ih ⊢
      exact ih.sweepUntilIdle plain _ _

end Moment
end LuaClasses.Discovery
