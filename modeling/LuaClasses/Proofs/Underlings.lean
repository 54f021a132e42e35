import LuaClasses.Proofs.ClassRecognition
import LuaClasses.Proofs.GlobalIndices
import LuaClasses.Proofs.WalkWrites

/-! What stands below the top level before the members of classes are defined. There are variables and
nothing else, but for the constructors of the classes that are declared. -/

namespace LuaClasses
namespace ScopeTree

/-- A change that places nothing but variables, or puts what it places on some scopes. -/
structure PlacesAt (spots : ScopeId → Prop) (before after : ScopeTree) : Prop where
  placed : ∀ {id entity}, after.entity? id = some entity → entity.asVariable? = none →
    (∃ former, before.entity? id = some former ∧ former.asVariable? = none) ∨ spots id

namespace PlacesAt

variable {spots : ScopeId → Prop} {tree first second third before after : ScopeTree} {id : ScopeId}

theorem of_entities (kept : ∀ {id entity}, after.entity? id = some entity → before.entity? id = some entity) :
    PlacesAt spots before after :=
  ⟨fun held other => .inl ⟨_, kept held, other⟩⟩

theorem refl (tree : ScopeTree) : PlacesAt spots tree tree := of_entities id

theorem trans (one : PlacesAt spots first second) (two : PlacesAt spots second third) :
    PlacesAt spots first third := by
  refine ⟨fun held other => ?_⟩
  rcases two.placed held other with ⟨middle, known, same⟩ | spot
  · exact one.placed known same
  · exact .inr spot

theorem internChild (tree : ScopeTree) (parent : ScopeId) (name : String) (valueType : ValueType) :
    PlacesAt spots tree (tree.internChild parent name valueType).1 :=
  of_entities fun held => (entity?_internChild valueType tree parent name _).symm.trans held

theorem setEntity {entity : Entity}
    (fits : entity.asVariable? = none → (∃ former, tree.entity? id = some former ∧
      former.asVariable? = none) ∨ spots id)
    :
    PlacesAt spots tree (tree.setEntity id entity) := by
  refine ⟨fun {other found} held plain => ?_⟩
  rw [entity?_setEntity] at held
  split at held
  next same =>
    obtain ⟨_, _, rfl⟩ := Option.map_eq_some_iff.1 held
    exact same ▸ fits plain
  next => exact .inl ⟨found, held, plain⟩

private theorem setVariable (tree : ScopeTree) (id : ScopeId) (var : Variable) :
    PlacesAt spots tree (tree.setEntity id (.new (.variable var))) := .setEntity nofun

theorem modifyEntity {f : Entity → Entity}
    (same : ∀ entity, (f entity).asVariable?.isSome = entity.asVariable?.isSome) :
    PlacesAt spots tree (tree.modifyEntity id f) := by
  refine ⟨fun {other found} held plain => ?_⟩
  rw [entity?_modifyEntity] at held
  split at held
  next equal =>
    obtain ⟨former, known, rfl⟩ := Option.map_eq_some_iff.1 held
    refine .inl ⟨former, equal ▸ known, ?_⟩
    have alike := same former
    rw [plain] at alike
    exact Option.not_isSome_iff_eq_none.1 (by simp [← alike])
  next => exact .inl ⟨found, held, plain⟩

theorem clearDescendants (tree : ScopeTree) (id : ScopeId) : PlacesAt spots tree (tree.clearDescendants id) :=
  of_entities (tree.entity?_of_clearDescendants ·)

end PlacesAt
end ScopeTree

namespace Discovery
open ScopeTree Relation

variable {config : DiscoveryConfig} {program : Program} {spots : ScopeId → Prop}
  {tree before after : ScopeTree}

/-! ### Writes -/

private theorem placesAt_applyEvidence (tree : ScopeTree) (id : ScopeId) (evidence : Evidence) :
    PlacesAt spots tree (applyEvidence tree id evidence).1 := by
  cases held : tree.entity? id with
  | none => rw [applyEvidence_vacant tree held]; exact .refl tree
  | some entity =>
    rw [applyEvidence_held tree held]
    refine .setEntity fun plain => .inl ⟨entity, held, ?_⟩
    rw [Entity.asVariable?, evidence.kind_absorb tree id entity] at plain
    obtain ⟨references, kind⟩ := entity
    cases kind with
    | «variable» var => cases plain
    | _ => rfl

private theorem placesAt_writings {places : EntityKind → Prop} {takes : Evidence → Prop}
    (only : ∀ kind, places kind → ∃ var, kind = .variable var) (writes : Writings places takes before after) :
    PlacesAt spots before after := by
  induction writes with
  | refl => exact .refl before
  | tail _ last ih =>
    refine ih.trans ?_
    cases last with
    | make parent name valueType => exact .internChild _ parent name valueType
    | place vacant placed =>
      obtain ⟨var, rfl⟩ := only _ placed
      exact .setVariable _ _ var
    | name scope f =>
      exact .modifyEntity fun entity => by obtain ⟨references, kind⟩ := entity; cases kind <;> rfl
    | field owner f =>
      exact .modifyEntity fun entity => by obtain ⟨references, kind⟩ := entity; cases kind <;> rfl
    | take id given => exact placesAt_applyEvidence _ id _

private theorem placesAt_declareParams (owner : ScopeId) (names : List String) (tree : ScopeTree) :
    PlacesAt spots tree (declareParams owner names tree).1 := by
  induction names generalizing tree with
  | nil => exact .refl tree
  | cons name rest ih =>
    have made : PlacesAt spots tree (tree.internChild owner name .value).1 :=
      .internChild tree owner name .value
    rw [declareParams]
    dsimp only
    generalize tree.internChild owner name .value = param at made ⊢
    exact (made.trans (.setVariable param.1 param.2 _)).trans (ih _)

private theorem placesAt_vacate (state : State) (id : ScopeId) (message : String) (range : Range) :
    PlacesAt spots state.tree (state.vacate id message range).tree := by
  unfold State.vacate
  split
  next => exact .clearDescendants state.tree id
  next => exact .refl _

private theorem placesAt_placeFunction (tree : ScopeTree) (id : ScopeId) (name : String)
    (kind : FunctionKind) (body : FunctionBody) :
    PlacesAt (· = id) tree (placeFunction tree id name kind body) :=
  (placesAt_declareParams id body.params tree).trans (.setEntity fun _ => .inr rfl)

private theorem placesAt_declareGlobalFunction {state : State} (formed : state.Formed)
    (tidy : state.Tidy) {name : String} (plain : PlainName name) {body : FunctionBody}
    (params : ∀ name ∈ body.params, PlainName name) (range : Range) :
    ∃ id, (declareGlobalFunction name body range state).tree.child? root name = some id ∧
      PlacesAt (· = id) state.tree (declareGlobalFunction name body range state).tree := by
  rw [declareGlobalFunction_eq]
  dsimp only
  have vacated := vacated_name formed tidy plain .function s!"global function `{name}` redefined" range
  dsimp only at vacated
  have made : ∀ {spots}, PlacesAt spots state.tree (state.tree.internChild root name .function).1 :=
    .internChild state.tree root name .function
  generalize state.tree.internChild root name .function = below at vacated made ⊢
  have cleared : ∀ {spots}, PlacesAt spots below.1 _ :=
    placesAt_vacate (state.withTree below.1) below.2 s!"global function `{name}` redefined" range
  generalize (state.withTree below.1).vacate below.2 s!"global function `{name}` redefined" range =
    emptied at vacated cleared ⊢
  obtain ⟨_, placed, _⟩ := placed_function params vacated.tidy (self_mem_ancestors _ _)
    vacated.tidy.index_lt name .global
  refine ⟨below.2, (placed below.2).links vacated.hangs, (made.trans cleared).trans ?_⟩
  exact (placesAt_placeFunction emptied.tree below.2 name .global body).trans (.of_entities id)

private theorem placesAt_declareGlobalTable (formed : tree.Formed) (tidy : tree.Tidy) {name : String}
    (plain : PlainName name) :
    ∃ id, (declareGlobalTable name tree).child? root name = some id ∧ PlacesAt (· = id) tree
      (declareGlobalTable name tree) := by
  have hangs := (hung_internChild formed tidy formed.root_lt plain.1 .table).hangs
  have made : ∀ {spots}, PlacesAt spots tree (tree.internChild root name .table).1 :=
    .internChild tree root name .table
  unfold declareGlobalTable
  dsimp only
  generalize tree.internChild root name .table = below at hangs made ⊢
  refine ⟨below.2, ?_, made.trans ?_⟩
  · split
    next => exact hangs
    next => exact (sameShape_setEntity _ _ _).links hangs
  · split
    next => exact .of_entities id
    next =>
      have placed : PlacesAt (· = below.2) below.1
          (below.1.setEntity below.2 (.new (.table ⟨name, .empty⟩))) :=
        .setEntity fun _ => .inr rfl
      exact placed.trans (.of_entities id)

private theorem placesAt_placeClass (tree : ScopeTree) (id : ScopeId) (name : String)
    (superclass : Option String) :
    PlacesAt (fun spot => spot = id ∨ spot = (tree.internChild id "constructor" .function).2) tree
      (placeClass tree id name superclass) := by
  have made : ∀ {spots}, PlacesAt spots tree (tree.internChild id "constructor" .function).1 :=
    .internChild tree id "constructor" .function
  unfold placeClass
  dsimp only
  generalize tree.internChild id "constructor" .function = below at made ⊢
  have constructor_ : PlacesAt (fun spot => spot = id ∨ spot = below.2) below.1
      (below.1.setEntity below.2 (.new (.constructor .new))) := .setEntity fun _ => .inr (.inr rfl)
  exact made.trans (constructor_.trans (.setEntity fun _ => .inr (.inl rfl)))

/-- A class and its constructor are placed under the name of the class. -/
theorem placesAt_declareClass (config : DiscoveryConfig) {state : State} (formed : state.Formed)
    (tidy : state.Tidy) {name : String} (plain : PlainName name) (base : String) (range : Range) :
    ∃ id constructor, (declareClass config name base range state).tree.child? root name = some id ∧
      (declareClass config name base range state).tree.child? id "constructor" = some constructor ∧
      PlacesAt (fun spot => spot = id ∨ spot = constructor) state.tree
        (declareClass config name base range state).tree := by
  rw [declareClass_eq]
  dsimp only
  generalize (if base = config.rootClass then none else some base) = superclass
  have vacated := vacated_name formed tidy plain .class_ s!"class `{name}` redefined" range
  dsimp only at vacated
  have made : ∀ {spots}, PlacesAt spots state.tree (state.tree.internChild root name .class_).1 :=
    .internChild state.tree root name .class_
  generalize state.tree.internChild root name .class_ = below at vacated made ⊢
  have cleared : ∀ {spots}, PlacesAt spots below.1 _ :=
    placesAt_vacate (state.withTree below.1) below.2 s!"class `{name}` redefined" range
  generalize (state.withTree below.1).vacate below.2 s!"class `{name}` redefined" range =
    emptied at vacated cleared ⊢
  rw [tree_resetBodies]
  have links := links_placeClass emptied.tree below.2 name superclass
  have inner := vacated.tidy.dotless.child?_internChild vacated.tidy.formed
    (show '.' ∉ "constructor".toList by decide)
    vacated.tidy.index_lt .function
  refine ⟨below.2, (emptied.tree.internChild below.2 "constructor" .function).2, links vacated.hangs, ?_,
    made.trans (cleared.trans ?_)⟩
  · exact (sameShape_setEntity _ _ _).links ((sameShape_setEntity _ _ _).links inner)
  · exact (placesAt_placeClass emptied.tree below.2 name superclass).trans (.of_entities id)

/-! ### The entry -/

/-- Whether nothing but variables stands below the top level, save the constructors of classes that are
declared. -/
def Tiered (config : DiscoveryConfig) (program : Program) (tree : ScopeTree) : Prop :=
  ∀ ⦃id entity⦄, tree.entity? id = some entity → entity.asVariable? = none →
    (∃ name, tree.child? root name = some id) ∨
    ∃ name owner, program.DeclaresClass config name ∧ tree.child? root name = some owner ∧
      tree.child? owner "constructor" = some id

theorem Tiered.places (tiered : Tiered config program before) (links : before.Links after)
    (placed : PlacesAt spots before after)
    (fits : ∀ id, spots id → (∃ name, after.child? root name = some id) ∨ ∃ name owner,
      program.DeclaresClass config name ∧
      after.child? root name = some owner ∧ after.child? owner "constructor" = some id) :
        Tiered config program after := by
  intro id entity held other
  rcases placed.placed held other with ⟨former, known, same⟩ | spot
  · refine (tiered known same).imp (fun ⟨name, hangs⟩ => ⟨name, links hangs⟩) ?_
    exact fun ⟨name, owner, declared, hangs, below⟩ => ⟨name, owner, declared, links hangs, links below⟩
  · exact fits id spot

/-- Where nothing but variables is placed, all stays so. -/
theorem Tiered.variables (tiered : Tiered config program before) (links : before.Links after)
    (placed : PlacesAt (fun _ => False) before after) : Tiered config program after :=
  tiered.places links placed nofun

private theorem tiered_declareStep (plain : program.Plain) {before after : State}
    (step : DeclareStep config program before after) (formed : before.Formed) (tidy : before.Tidy)
    (free : before.tree.Fieldless) (tiered : Tiered config program before.tree) :
    Tiered config program after.tree := by
  have links := links_declareStep plain step formed tidy free
  cases step with
  | class_ base range state member written =>
    obtain ⟨id, constructor, hangs, below, placed⟩ := placesAt_declareClass config formed tidy
      (plain _ member) base range
    refine tiered.places links placed fun spot => ?_
    rintro (rfl | rfl)
    · exact .inl ⟨_, hangs⟩
    · exact .inr ⟨_, id, written, hangs, below⟩
  | skip message range state => rw [State.tree_warn]; exact tiered
  | link id state =>
    refine tiered.variables links ?_
    rcases State.Recognizes.linkClass_cases before.tree id with same | ⟨link, same⟩
    · rw [State.withTree, same]
      exact .refl _
    · rw [State.withTree, same]
      exact .modifyEntity fun entity => by obtain ⟨references, kind⟩ := entity; cases kind <;> rfl

theorem tiered_declared (config : DiscoveryConfig) (plain : program.Plain) :
    Tiered config program (declared config program).tree :=
  declareSteps_keep plain (fun state => Tiered config program state.tree) (tiered_declareStep plain) .refl
    (declared_steps config program) fun _ _ held => by rw [State.initial, entity?_new] at held; cases held

theorem tiered_indexStep (plain : program.Plain) {before after : State}
    (step : IndexStep config program before after) (formed : before.Formed) (tidy : before.Tidy)
    (tiered : Tiered config program before.tree) : Tiered config program after.tree := by
  have links := links_indexStep plain step formed tidy
  cases step with
  | function range named within free =>
    have params : ∀ param ∈ _, PlainName param := fun param member =>
      plain param (within (params_subset _ member))
    obtain ⟨id, hangs, placed⟩ := placesAt_declareGlobalFunction formed tidy (plain _ named) params range
    exact tiered.places links placed fun spot same => .inl ⟨_, same ▸ hangs⟩
  | @table name state named free =>
    obtain ⟨id, hangs, placed⟩ := placesAt_declareGlobalTable formed.tree tidy.tree (plain _ named)
    exact tiered.places links placed fun spot same => .inl ⟨name, same ▸ hangs⟩
  | @value name value range state named free =>
    obtain ⟨written, globals, writes, same⟩ : ∃ written globals,
        Writings (fun kind => ∃ var, kind = .variable var) (fun _ => True) before.tree written ∧ _ :=
      writings_declareGlobalValue (fun var => ⟨var, rfl⟩) config name value range trivial
    refine tiered.variables links ?_
    rw [State.withTree, same]
    exact (placesAt_writings (fun _ => id) writes).trans (.of_entities id)
  | member value range owned named table =>
    have only : ∀ {after}, Writings (fun kind => ∃ var, kind = .variable var)
      (fun _ => True) before.tree after →
        PlacesAt (fun _ => False) before.tree after := placesAt_writings fun _ => id
    refine tiered.variables links (only ?_)
    exact writings_assignMember (fun var => ⟨var, rfl⟩) (.at_ root) _ _ trivial range

end Discovery
end LuaClasses
