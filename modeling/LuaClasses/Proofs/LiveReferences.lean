import LuaClasses.Proofs.AnchorEntry
import LuaClasses.Proofs.Moments

/-! Where stored scopes and references lead. Whatever entities and indices store carries an entity in
every state that a discovery reaches. A reference may have lost its target, but only to a definition that
took the place of another during the entry. -/

namespace LuaClasses
namespace ScopeTree

variable {tree before after : ScopeTree} {target : ScopeId}

/-- Whether all that the entities and the indices of a tree store carries entities. -/
structure StoredStand (tree : ScopeTree) : Prop where
  entities : ∀ {id entity}, tree.entity? id = some entity → ∀ slot ∈ entity.kind.stored,
    tree.hasEntity slot.2 = true
  globals : ∀ id ∈ tree.globals.stored, tree.hasEntity id = true

/-- Whether all references of a tree that are settled lead to entities. -/
def ReferencesStand (tree : ScopeTree) : Prop := ∀ target, tree.RefersTo target → tree.hasEntity target = true

/-- The scopes to which the settled references of a tree lead. -/
def targets (tree : ScopeTree) : List ScopeId :=
  tree.occupied.flatMap fun (_, _, entity) => entity.references.values.filterMap Reference.target?

private theorem target?_eq_some {reference : Reference} :
    reference.target? = some target ↔ reference = .resolved target := by
  cases reference <;> simp [Reference.target?]

theorem mem_targets : target ∈ tree.targets ↔ tree.RefersTo target := by
  simp only [targets, List.mem_flatMap, List.mem_filterMap, target?_eq_some]
  constructor
  · rintro ⟨⟨id, node, entity⟩, listed, _, member, rfl⟩
    exact ⟨id, entity, entity?_of_mem_occupied listed, member⟩
  · rintro ⟨id, entity, held, member⟩
    obtain ⟨node, listed⟩ := mem_occupied held
    exact ⟨_, listed, _, member, rfl⟩

instance (tree : ScopeTree) : Decidable tree.ReferencesStand :=
  decidable_of_iff (∀ target ∈ tree.targets, tree.hasEntity target = true)
    (by simp only [mem_targets, ReferencesStand])

private theorem AnchoredBut.storedStand (anchored : tree.Anchored) : tree.StoredStand where
  entities := fun held _ member => (anchored.stored (Option.some_ne_none _) held member).2
  globals := fun id member => (anchored.globals id member).2

/-- A settled reference stays as the tree grows. -/
theorem RefersTo.grows (refers : before.RefersTo target) (grows : before.Grows after) :
    after.RefersTo target := by
  obtain ⟨id, entity, held, member⟩ := refers
  obtain ⟨later, there, grown⟩ := grows.entity? held
  obtain ⟨⟨key, _⟩, listed, rfl⟩ := List.mem_map.1 member
  obtain ⟨_, found, same⟩ := grown.references key _ ((OrderedMap.get?_eq_some_iff _ _ _).2 listed)
  rw [same rfl] at found
  exact ⟨id, later, there, List.mem_map_of_mem (OrderedMap.mem_entries_of_get? found)⟩

private theorem anchored_new (name : String) : (ScopeTree.new name).Anchored where
  stored := fun _ held => by rw [entity?_new] at held; cases held
  named := fun held => by rw [hasEntity, entity?_new] at held; cases held
  globals := nofun

end ScopeTree

namespace Discovery
open ScopeTree

variable {config : DiscoveryConfig} {program : Program}

/-! ### The entry -/

/-- Whether what is stored is anchored, and each reference leads to an entity unless something was
reported to be defined twice. -/
structure State.Accounted (state : State) : Prop where
  anchored : state.tree.Anchored
  references : ∀ {target}, state.tree.RefersTo target → state.tree.hasEntity target = true ∨ state.Reported

theorem State.Accounted.renewed {before after : State} (accounted : before.Accounted)
    (renewed : Renewed before after) :
    after.Accounted where
  anchored := renewed.anchored
  references := by
    intro target refers
    rcases renewed.references refers with stands | earlier
    · exact .inl stands
    · exact (accounted.references earlier).elim renewed.held fun reported => .inr (renewed.reported reported)

private theorem accounted_initial (config : DiscoveryConfig) : (State.initial config).Accounted where
  anchored := anchored_new _
  references := by
    rintro target ⟨id, entity, held, _⟩
    rw [State.initial, entity?_new] at held
    cases held

theorem accounted_defined (config : DiscoveryConfig) (plain : program.Plain) :
    (defined config program).Accounted := by
  have declared : (declared config program).Accounted :=
    declareSteps_keep plain State.Accounted
      (fun step formed tidy _ accounted =>
        accounted.renewed (renewed_declareStep plain step formed tidy accounted.anchored)) .refl
      (declared_steps config program) (accounted_initial config)
  have indexed : (indexed config program).Accounted :=
    indexSteps_keep plain State.Accounted
      (fun step formed tidy accounted =>
        accounted.renewed (renewed_indexStep plain step formed tidy accounted.anchored)) .refl
      (indexed_steps config program) declared
  exact (defineAll_keeps config plain State.Accounted
    (fun step formed tidy found accounted =>
      accounted.renewed (renewed_defineStep plain step formed tidy found accounted.anchored)) _
    (formed_indexed config program) (tidy_indexed config plain) indexed).2.2

/-! ### What comes after it -/

/-- What comes after the entry of the members adds nothing that leads nowhere, and drops nothing. -/
theorem Moment.anchors {state : State} (moment : Moment program config state) (plain : program.Plain) :
    (defined config program).tree.Anchors state.tree := by
  have fair := fair_tours config (formed_defined config program) (tidy_defined config plain)
  induction moment with
  | entered => exact .refl _
  | @walked state tour site before made member ih =>
    obtain ⟨formed, tidy, _⟩ := before.tends plain (formed_defined config program) (tidy_defined config plain)
    obtain ⟨names, named, belong⟩ := (fair tour made).belong
    exact ih.trans (anchors_site config formed tidy tour.frame fun name listed =>
      named name ((belong site member).names listed))
  | propagated owner before ih => exact ih.trans (anchors_propagateInto owner)
  | warned kind message range before ih =>
    rw [State.tree_warn]
    exact ih

theorem Run.Reached.grows {run : Run} (reached : Run.Reached program config run) :
    (Discovery.seeded config program).Grows run.state := by
  induction reached with
  | seeded => exact .refl _
  | swept before ih =>
    rw [before.sweep_eq.1]
    exact ih.trans (advances_sweep config _ before.formed).2
  | resolved before ih => exact ih.trans (before.advances_resolve before.formed).2

/-- A reference that leads nowhere has done so since the end of the entry, and something was reported to
be defined twice. -/
theorem Run.Reached.dangling {run : Run} (reached : Run.Reached program config run)
    (plain : program.Plain) {target : ScopeId} (refers : run.state.tree.RefersTo target)
    (vacant : run.state.tree.hasEntity target = false) :
    (Discovery.seeded config program).tree.RefersTo target ∧
    (Discovery.seeded config program).tree.hasEntity target = false ∧
      (Discovery.seeded config program).Reported := by
  have grows := (advances_seeded (formed_defined config program)).2
  have absent : ∀ {before : ScopeTree}, before.Grows run.state.tree → ¬before.hasEntity target =
      true := fun growth held =>
    Bool.false_ne_true (vacant.symm.trans (growth.hasEntity held))
  have earlier : (defined config program).tree.RefersTo target :=
    (((Moment.of_reached reached plain).anchors plain).references refers).resolve_left (absent (.refl _))
  refine ⟨earlier.grows grows.tree, Bool.eq_false_iff.2 (absent reached.grows.tree), ?_⟩
  obtain ⟨diagnostic, member, duplicate⟩ :=
    ((accounted_defined config plain).references earlier).resolve_left
    (absent (grows.trans reached.grows).tree)
  exact ⟨diagnostic, grows.diagnostics.subset member, duplicate⟩

/-- All that entities and indices store carries entities in each state that a discovery reaches. All that
references lead to does so in each of them exactly if it does at the end of the entry: one that leads
nowhere has done so since then, and something was reported to be defined twice. -/
theorem references_stand_iff (config : DiscoveryConfig) (plain : program.Plain) :
    (∀ run, Run.Reached program config run → run.state.tree.StoredStand) ∧
      ((∀ run, Run.Reached program config run → run.state.tree.ReferencesStand) ↔
        (seeded config program).tree.ReferencesStand) ∧
      ∀ run, Run.Reached program config run → ∀ target, run.state.tree.RefersTo target →
        run.state.tree.hasEntity target = false →
        (seeded config program).tree.RefersTo target ∧ (seeded config program).tree.hasEntity target = false ∧
          (seeded config program).Reported := by
  refine ⟨fun run reached => ?_, ⟨fun stand => stand (Run.start program config).seed .seeded,
    fun stand run reached target refers => ?_⟩,
    fun run reached target refers vacant => reached.dangling plain refers vacant⟩
  · exact (((Moment.of_reached reached plain).anchors plain).anchoredBut
      (accounted_defined config plain).anchored).storedStand
  · cases stands : run.state.tree.hasEntity target with
    | true => rfl
    | false =>
      obtain ⟨earlier, vacant, _⟩ := reached.dangling plain refers stands
      exact vacant.symm.trans (stand target earlier)

/-- A member of a table that is read, and below it a function with the name of the table. -/
def readAbove (params : List String) : Program where
  body := [
    ⟨.assign [.name "x"] [.table []], ⟨1, 0, 1, 6⟩⟩,
    ⟨.assign [.member (.name "x") "a"] [.number "1"], ⟨2, 0, 2, 7⟩⟩,
    ⟨.assign [.name "y"] [.member (.name "x") "a"], ⟨3, 0, 3, 7⟩⟩,
    ⟨.function (.plain "x") false ⟨params, false, []⟩, ⟨4, 0, 4, 16⟩⟩]

/-- A parameter of the function may be there in place of the member. -/
theorem read_parameter_stands :
    (readAbove ["a"]).Plain ∧ (seeded .default (readAbove ["a"])).tree.targets = [⟨2⟩] ∧
      (seeded .default (readAbove ["a"])).diagnostics.map Diagnostic.kind = [.duplicateDefinition] ∧
      ∀ run, Run.Reached (readAbove ["a"]) .default run → run.state.tree.ReferencesStand := by
  have plain : (readAbove ["a"]).Plain := by decide
  exact ⟨plain, by
    decide +kernel, by decide +kernel, (references_stand_iff .default plain).2.1.2 (by decide +kernel)⟩

/-- Otherwise the reference leads to a scope without an entity for good. -/
theorem read_member_dangles :
    (readAbove []).Plain ∧ (seeded .default (readAbove [])).tree.targets = [⟨2⟩] ∧
      ¬(seeded .default (readAbove [])).tree.ReferencesStand ∧
        ¬(discover (readAbove []) .default).tree.ReferencesStand := by
  decide +kernel

end Discovery
end LuaClasses
