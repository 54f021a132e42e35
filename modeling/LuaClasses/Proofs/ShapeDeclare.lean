import LuaClasses.Proofs.Reached
import LuaClasses.Proofs.ShapeEntry

/-! The declaration of classes with plain names gives each class its shape. No class has instance
fields yet, so a class that is declared again starts without any. -/

namespace LuaClasses
namespace ScopeTree

/-- Whether no class has a scope of instance fields. -/
def Fieldless (tree : ScopeTree) : Prop := ∀ owner, tree.child? owner fieldsName = none

theorem Fieldless.of_sameShape {before after : ScopeTree} (free : before.Fieldless)
    (same : SameShape after before) :
    after.Fieldless := fun owner => (same.child? owner fieldsName).trans (free owner)

theorem Fieldless.internChild {tree : ScopeTree} (free : tree.Fieldless) {name : String}
    (plain : PlainName name) (parent : ScopeId) (valueType : ValueType) :
    (tree.internChild parent name valueType).1.Fieldless := by
  cases found : tree.find? (DottedName.child (tree.raw parent) name) with
  | some id => rw [internChild_found valueType found]; exact free
  | none =>
    intro owner
    rw [child?, node?_internChild valueType found]
    split
    next => rfl
    next =>
      split
      next same =>
        subst same
        have absent := free owner
        rw [child?] at absent
        cases present : tree.node? owner with
        | none => rfl
        | some node =>
          rw [present, Option.bind_some] at absent
          simp only [Option.map_some, Option.bind_some, OrderedMap.get?_insertNew,
            absent, if_neg plain.2.symm]
      next => exact free owner

end ScopeTree

namespace Discovery
open ScopeTree Relation

variable {tree : ScopeTree}

/-- A class is in shape as soon as it is placed. -/
theorem tidy_placeClass {id : ScopeId} (tidy : tree.TidyBut id) (free : tree.Fieldless) (name : String)
    (superclass : Option String) :
    (placeClass tree id name superclass).Tidy ∧ (placeClass tree id name superclass).Fieldless ∧
      (placeClass tree id name superclass).parent? id = some root := by
  have dots : '.' ∉ "constructor".toList := by decide
  have inside := tidy.index_lt
  have first := tidy.internChild inside dots .function
  have hangs := tidy.dotless.child?_internChild tidy.formed dots inside .function
  have free := free.internChild (show PlainName "constructor" by decide) id .function
  have size := index_internChild .function tree id "constructor"
  unfold placeClass
  dsimp only
  generalize tree.internChild id "constructor" .function = made at first hangs free size ⊢
  have above := first.formed.parent?_of_child hangs
  obtain ⟨_, _, _, _, older, _⟩ := first.formed.child hangs
  have below : id ∈ made.1.ancestors made.2 := by
    rw [ancestors_of_parent? first.formed above]
    exact List.mem_cons_of_mem _ (self_mem_ancestors made.1 id)
  have second := first.setEntity below (.new (.constructor .new)) (fits_bare _ _ (fun _ => rfl) rfl)
    fun _ => rfl
  have one := sameShape_setEntity made.1 made.2 (.new (.constructor .new))
  have held := entity?_setEntity_self size (.new (.constructor .new))
  generalize made.1.setEntity made.2 (.new (.constructor .new)) = constructed at second one held ⊢
  generalize given : ({ Class.new name made.2 with superclass } : Class) = owner
  have fits : constructed.Fits (constructed.raw id) (.class_ owner) := by
    subst given
    refine ⟨fun slot member => ?_, fun _ below => absurd below List.not_mem_nil⟩
    rcases List.mem_cons.1 member with rfl | nothing
    · exact second.formed.find?_child ((one.child? _ _).trans hangs)
    · cases nothing
  have third := second.setEntity (self_mem_ancestors _ _) (.new (.class_ owner)) fits
    fun apart => absurd rfl apart
  have two := (sameShape_setEntity constructed id (.new (.class_ owner))).trans one
  have placed := entity?_setEntity_self second.index_lt (.new (.class_ owner))
  have kept : (constructed.setEntity id (.new (.class_ owner))).entity? made.2 =
      some (.new (.constructor .new)) := by
    rw [entity?_setEntity, if_neg fun same => Nat.lt_irrefl _ (same ▸ older), held]
  generalize constructed.setEntity id (.new (.class_ owner)) = last at third two placed kept ⊢
  have free := free.of_sameShape two
  refine ⟨⟨third.dotless, third.shaped.shaped fun {known} found => ?_⟩, free, third.top⟩
  rw [classAt?, placed] at found
  cases found
  subst given
  refine ⟨third.top, fun other below => ?_, ⟨fun there => ?_, fun found => by cases found⟩,
    fun _ => ⟨?_, fun found => ?_, fun found => ?_, fun found => ?_, fun clash => ?_⟩⟩
  · rw [free] at below
    cases below
  · obtain ⟨fields, below, _⟩ := there
    rw [free] at below
    cases below
  · refine ⟨.new, ?_, fun _ below => absurd below List.not_mem_nil⟩
    show (last.entity? made.2).bind Entity.asConstructor? = some .new
    rw [kept]
    rfl
  · cases found
  · cases found
  · cases found
  · rcases clash with listed | listed <;> cases listed

theorem mem_resetBodies {state : State} {owner : ScopeId} {bodies : ClassBodies}
    (member : bodies ∈ (state.resetBodies owner).classes) : bodies ∈ state.classes ∨ bodies = .new owner := by
  unfold State.resetBodies at member
  split at member
  next =>
    obtain ⟨before, held, rfl⟩ := List.mem_map.1 member
    split
    next => exact .inr rfl
    next => exact .inl held
  next => exact (List.mem_append.1 member).imp_right List.mem_singleton.1

theorem tree_resetBodies (state : State) (owner : ScopeId) : (state.resetBodies owner).tree = state.tree := by
  unfold State.resetBodies
  split <;> rfl

theorem diagnostics_resetBodies (state : State) (owner : ScopeId) :
    (state.resetBodies owner).diagnostics = state.diagnostics := by
  unfold State.resetBodies
  split <;> rfl

private theorem tidy_declareClass (config : DiscoveryConfig) {name : String} (plain : PlainName name)
    (base : String) (range : Range) {state : State} (formed : state.Formed) (tidy : state.Tidy)
    (free : state.tree.Fieldless) :
    (declareClass config name base range state).Tidy ∧
    (declareClass config name base range state).tree.Fieldless := by
  obtain ⟨last, kept⟩ := revises_declareClass config name base range state formed
  revert last kept
  rw [declareClass_eq]
  dsimp only
  generalize (if base = config.rootClass then none else some base) = superclass
  have hung := hung_internChild formed.tree tidy.tree formed.tree.root_lt plain.1 .class_
  have free := free.internChild plain ScopeTree.root .class_
  generalize state.tree.internChild ScopeTree.root name .class_ = made at hung free ⊢
  have first := hung.tidy.but hung.formed (hung.formed.parent?_of_child hung.hangs)
  obtain ⟨second, _⟩ := tidyBut_vacate (state.withTree made.1) first (self_mem_ancestors _ _)
    s!"class `{name}` redefined" range
  have same := sameShape_vacate (state.withTree made.1) made.2 s!"class `{name}` redefined" range
  have classes := classes_vacate (state.withTree made.1) made.2 s!"class `{name}` redefined" range
  generalize (state.withTree made.1).vacate made.2 s!"class `{name}` redefined" range =
    cleared at second same classes ⊢
  obtain ⟨third, free, top⟩ := tidy_placeClass second (free.of_sameShape same) name superclass
  generalize placeClass cleared.tree made.2 name superclass = tree at third free top ⊢
  intro last kept
  refine ⟨tidy.carry formed last kept ?_ fun bodies member => ?_, ?_⟩
  · rw [tree_resetBodies]
    exact third.withGlobals _
  · rcases mem_resetBodies member with old | rfl
    · exact .inl (classes ▸ old)
    · refine .inr ⟨?_, fun id _ owner below => ?_, nofun⟩ <;> rw [tree_resetBodies] at *
      · exact top
      · cases (free owner).symm.trans below
  · rw [tree_resetBodies]
    exact free

/-- A class may change in what its shape does not depend on. -/
theorem tidy_modifyClass (formed : tree.Formed) (tidy : tree.Tidy) {id : ScopeId} {owner : Class}
    (held : tree.classAt? id = some owner) {f : Class → Class}
    (fits : ∀ owner, tree.Fits (tree.raw id) (.class_ owner) → tree.Fits (tree.raw id) (.class_ (f owner)))
    (constructor : (f owner).constructor = owner.constructor) (fields : (f owner).fields = owner.fields)
    (values : (f owner).values = owner.values) (functions : (f owner).functions = owner.functions)
    (methods : (f owner).methods = owner.methods) : (tree.modifyClass id f).Tidy := by
  have shape := tidy.shaped held
  have last := (tidy.but formed shape.top).modifyClass fits
  have same := sameShape_modifyEntity tree id (Entity.mapClass f)
  have links := same.links
  have lasts := Lasts.of_modifyClass tree id f
  refine ⟨last.dotless, last.shaped.shaped fun {later} found => ?_⟩
  obtain ⟨before, known, rfl⟩ := classAt?_modifyClass found
  rw [if_pos rfl]
  cases held.symm.trans known
  have inside := index_lt_of_entity? (classAt?_eq_some held).choose_spec
  refine ⟨last.top, shape.ordinary.links formed last.formed links inside, ?_, fun regular => ?_⟩
  · refine shape.fields.carry formed last.formed links fields (fun _ => lasts _) fun _ occupied => ?_
    rw [hasEntity, ScopeTree.modifyClass, entity?_modifyEntity] at occupied
    split at occupied
    next equal => rw [Option.isSome_map] at occupied; exact equal ▸ occupied
    next => exact occupied
  · rw [Class.Regular, functions, methods] at regular
    exact (shape.members regular).carry formed last.formed links constructor functions methods
      (formed.parent?_of_child (formed.child?_constructor tidy.dotless held)) (fun old => .inl (values ▸ old))
      fun _ => ⟨lasts _, fun _ _ => lasts _⟩

private theorem tidy_linkClass (formed : tree.Formed) (tidy : tree.Tidy) (id : ScopeId) :
    (linkClass tree id).Tidy ∧ SameShape (linkClass tree id) tree := by
  unfold linkClass
  split
  next => exact ⟨tidy, .refl _⟩
  next owner held =>
    split
    next => exact ⟨tidy, .refl _⟩
    next =>
      refine ⟨?_, sameShape_modifyEntity tree id _⟩
      exact tidy_modifyClass formed tidy held (fun _ fits => ⟨fits.slots, fits.params⟩) rfl rfl rfl rfl rfl

theorem tidy_declareStep {config : DiscoveryConfig} {program : Program} (plain : program.Plain)
    {before after : State} (step : DeclareStep config program before after) (formed : before.Formed)
    (tidy : before.Tidy) (free : before.tree.Fieldless) : after.Tidy ∧ after.tree.Fieldless := by
  cases step with
  | class_ base range state named written =>
    exact tidy_declareClass config (plain _ named) base range formed tidy free
  | skip message range state =>
    rw [State.tree_warn]
    exact ⟨(before.tends_warn _ message range formed tidy).2.1, free⟩
  | link id state =>
    obtain ⟨last, kept⟩ := revises_declareStep (.link id before : DeclareStep config program _ _) formed
    obtain ⟨linked, same⟩ := tidy_linkClass formed.tree tidy.tree id
    exact ⟨tidy.carry formed last kept linked fun _ => .inl, free.of_sameShape same⟩

theorem tidy_initial (config : DiscoveryConfig) :
    (State.initial config).Tidy ∧ (State.initial config).tree.Fieldless := by
  refine ⟨⟨⟨fun {_ _} found apart => absurd (node?_new found).1 apart, fun id owner held => ?_⟩, nofun⟩,
    fun owner => ?_⟩
  · obtain ⟨references, found⟩ := classAt?_eq_some held
    rw [State.initial, entity?_new] at found
    cases found
  · cases present : (State.initial config).tree.node? owner with
    | none => rw [child?, present]; rfl
    | some node => rw [child?, present, (node?_new present).2]; rfl

theorem tidy_declareSteps {config : DiscoveryConfig} {program : Program} (plain : program.Plain)
    {state : State} (steps : ReflTransGen (DeclareStep config program) (.initial config) state) :
    state.Formed ∧ state.Tidy ∧ state.tree.Fieldless := by
  induction steps with
  | refl => exact ⟨formed_initial config, tidy_initial config⟩
  | tail _ step ih =>
    obtain ⟨formed, tidy, free⟩ := ih
    exact ⟨(revises_declareStep step formed).1, tidy_declareStep plain step formed tidy free⟩

theorem tidy_declared (config : DiscoveryConfig) {program : Program} (plain : program.Plain) :
    (declared config program).Tidy :=
  (tidy_declareSteps plain (declared_steps config program)).2.1

theorem tidy_indexSteps {config : DiscoveryConfig} {program : Program} (plain : program.Plain)
    {state : State} (steps : ReflTransGen (IndexStep config program) (declared config program) state) :
    state.Formed ∧ state.Tidy := by
  induction steps with
  | refl => exact ⟨formed_declared config program, tidy_declared config plain⟩
  | tail _ step ih =>
    obtain ⟨formed, tidy⟩ := ih
    exact ⟨(revises_indexStep step formed).1, tidy_indexStep plain step formed tidy⟩

theorem tidy_indexed (config : DiscoveryConfig) {program : Program} (plain : program.Plain) :
    (indexed config program).Tidy :=
  (tidy_indexSteps plain (indexed_steps config program)).2

end Discovery
end LuaClasses
