import LuaClasses.Proofs.MemberEntry
import LuaClasses.Proofs.Moments

/-! What there is before members are entered: classes of the top level, each once, without fields and
without bodies. -/

namespace LuaClasses
namespace ScopeTree

/-- No class has a field. -/
structure Blank (tree : ScopeTree) : Prop where
  level : tree.Level
  fieldless : ∀ id, tree.fieldsOf id = .empty

variable {tree before after : ScopeTree}

namespace Blank

theorem neutral (blank : before.Blank) (neutral : before.Neutral after) : after.Blank :=
  ⟨neutral.level blank.level, fun id => (neutral.fields id).trans (blank.fieldless id)⟩

theorem setEntity (blank : tree.Blank) (id : ScopeId) {entity : Entity} (bare : entity.fields = .empty) :
    (tree.setEntity id entity).Blank :=
  blank.neutral (tree.neutral_setEntity id (bare.trans (blank.fieldless id).symm))

theorem clearDescendants (blank : tree.Blank) (id : ScopeId) : (tree.clearDescendants id).Blank where
  level := blank.level.of_sameShape (sameShape_clearDescendants tree id)
  fieldless := by
    intro other
    rw [fieldsOf, entity?_clearDescendants]
    split
    next => rfl
    next => exact blank.fieldless other

theorem withGlobals (blank : tree.Blank) (globals : Globals) : ({ tree with globals } : ScopeTree).Blank :=
  ⟨⟨blank.level.dotless, blank.level.top⟩, blank.fieldless⟩

end Blank

/-- Whether all scopes of the top level are for classes. -/
def ClassesOnly (tree : ScopeTree) : Prop :=
  ∀ ⦃id node⦄, tree.node? id = some node → node.parent = some root → node.valueType = .class_

namespace ClassesOnly

theorem of_sameShape (only : before.ClassesOnly) (same : SameShape after before) : after.ClassesOnly := by
  intro id node found top
  obtain ⟨old, present, equal⟩ := same.node? found
  have type : old.vacant.valueType = node.vacant.valueType := by rw [equal]
  have parent : old.vacant.parent = node.vacant.parent := by rw [equal]
  have old : old.valueType = .class_ := only present (parent.trans top)
  exact type.symm.trans old

theorem internChild (only : tree.ClassesOnly) (parent : ScopeId) (name : String) {valueType : ValueType}
    (classes : parent = root → valueType = .class_) :
    (tree.internChild parent name valueType).1.ClassesOnly := by
  cases found : tree.find? (DottedName.child (tree.raw parent) name) with
  | some id => rw [internChild_found valueType found]; exact only
  | none =>
    intro id node present top
    rw [node?_internChild valueType found] at present
    split at present
    next =>
      cases present
      exact classes (Option.some.inj (Option.ite_none_right_eq_some.1 top).2)
    next =>
      split at present
      next =>
        obtain ⟨old, there, rfl⟩ := Option.map_eq_some_iff.1 present
        have type := only there top
        exact type
      next => exact only present top

private theorem classNode (only : tree.ClassesOnly) (formed : tree.Formed) {name : String} {id : ScopeId}
    (hangs : tree.child? root name = some id) : tree.ClassNode id := by
  obtain ⟨node, present, _, above, _⟩ := formed.child hangs
  exact ⟨node, present, only present above⟩

end ClassesOnly
end ScopeTree

namespace Discovery
open ScopeTree Relation

variable {tree : ScopeTree} {config : DiscoveryConfig} {program : Program}

private theorem fields_mapClass {f : Class → Class} (same : ∀ held, (f held).fields = held.fields)
    (entity : Entity) :
    (entity.mapClass f).fields = entity.fields := by
  obtain ⟨references, kind⟩ := entity
  cases kind with
  | class_ held => exact same held
  | _ => rfl

theorem stays_declareParams (owner : ScopeId) (names : List String) (tree : ScopeTree) :
    tree.Stays (declareParams owner names tree).1 := by
  induction names generalizing tree with
  | nil => exact .refl tree
  | cons name rest ih =>
    exact ((tree.stays_intern _ _ _ _).trans (.of_sameShape (sameShape_setEntity _ _ _))).trans (ih _)

private theorem blank_declareParams {owner : ScopeId} {names : List String}
    (plain : ∀ name ∈ names, '.' ∉ name.toList) (blank : tree.Blank) :
    (declareParams owner names tree).1.Blank := by
  induction names generalizing tree with
  | nil => exact blank
  | cons name rest ih =>
    refine ih (fun other member => plain other (List.mem_cons_of_mem _ member)) (.setEntity ?_ _ rfl)
    exact blank.neutral (tree.neutral_internChild (plain name List.mem_cons_self) owner .value nofun)

private theorem blank_vacate (state : State) (blank : state.tree.Blank) (id : ScopeId) (message : String)
    (range : Range) :
    (state.vacate id message range).tree.Blank := by
  unfold State.vacate
  split
  next => exact blank.clearDescendants id
  next => exact blank

/-! ### The declaration of classes -/

/-- What is known while classes are declared. -/
structure State.Declares (state : State) : Prop where
  blank : state.tree.Blank
  only : state.tree.ClassesOnly
  distinct : state.owners.Nodup
  bodies : ∀ bodies ∈ state.classes, bodies = .new bodies.owner ∧ state.tree.ClassNode bodies.owner

theorem declares_initial (config : DiscoveryConfig) : (State.initial config).Declares where
  blank := by
    refine ⟨⟨fun {_ _} found apart => absurd (node?_new found).1 apart, fun id node found isClass => ?_⟩,
      fun id => ?_⟩
    · rw [(node?_new found).2] at isClass
      cases isClass
    · exact fieldsOf_of_vacant _ (entity?_new config.globalScope id)
  only := by
    intro id node found top
    rw [(node?_new found).2] at top
    cases top
  distinct := List.nodup_nil
  bodies := nofun

private theorem nodup_resetBodies {state : State} (distinct : state.owners.Nodup) (owner : ScopeId) :
    (state.resetBodies owner).owners.Nodup := by
  rw [owners_resetBodies]
  split
  next => exact distinct
  next fresh =>
    refine List.nodup_append.2 ⟨distinct, List.pairwise_singleton _ _, fun listed member other single => ?_⟩
    rw [List.mem_singleton.1 single]
    rintro rfl
    exact fresh member

private theorem blank_placeClass (blank : tree.Blank) (id : ScopeId) (name : String)
    (superclass : Option String) :
    (placeClass tree id name superclass).Blank := by
  have plain : '.' ∉ "constructor".toList := by decide
  exact ((blank.neutral (tree.neutral_internChild plain id .function nofun)).setEntity _ rfl).setEntity id rfl

private theorem stays_placeClass (tree : ScopeTree) (id : ScopeId) (name : String)
    (superclass : Option String) :
    tree.Stays (placeClass tree id name superclass) :=
  ((tree.stays_intern _ _ _ _).trans (.of_sameShape (sameShape_setEntity _ _ _))).trans
    (.of_sameShape (sameShape_setEntity _ _ _))

private theorem only_placeClass (only : tree.ClassesOnly) {id : ScopeId} (below : id ≠ root) (name : String)
    (superclass : Option String) : (placeClass tree id name superclass).ClassesOnly :=
  ((only.internChild id "constructor" fun top => absurd top below).of_sameShape
    (sameShape_setEntity _ _ _)).of_sameShape
    (sameShape_setEntity _ _ _)

theorem declares_declareClass {state : State} (formed : state.Formed) (declares : state.Declares)
    {name : String} (plain : '.' ∉ name.toList) (base : String) (range : Range) :
    (declareClass config name base range state).Declares := by
  rw [declareClass_eq]
  dsimp only
  generalize (if base = config.rootClass then none else some base) = superclass
  have inside := formed.tree.root_lt
  have hangs := declares.blank.level.dotless.child?_internChild formed.tree plain inside .class_
  have grown := formed.tree.internChild inside name .class_
  have only := declares.only.internChild root name fun (_ : root = root) => (rfl : ValueType.class_ = .class_)
  have stays : state.tree.Stays (state.tree.internChild root name .class_).1 :=
    state.tree.stays_intern _ _ _ _
  have blank : (state.tree.internChild root name .class_).1.Blank :=
    ⟨declares.blank.level.internChild plain root fun _ => ⟨rfl, inside⟩, fun id => by
      rw [fieldsOf, entity?_internChild, ← fieldsOf, declares.blank.fieldless]⟩
  generalize state.tree.internChild root name .class_ = made at hangs grown only stays blank ⊢
  have blank := blank_vacate (state.withTree made.1) blank made.2 s!"class `{name}` redefined" range
  have same := sameShape_vacate (state.withTree made.1) made.2 s!"class `{name}` redefined" range
  have classes := classes_vacate (state.withTree made.1) made.2 s!"class `{name}` redefined" range
  generalize (state.withTree made.1).vacate made.2 s!"class `{name}` redefined" range =
    vacated at blank same classes ⊢
  have below : made.2 ≠ root := grown.ne_root (grown.parent?_of_child hangs)
  have placed := blank_placeClass blank made.2 name superclass
  have last := only_placeClass (only.of_sameShape same) below name superclass
  have kept := (Stays.of_sameShape same).trans (stays_placeClass vacated.tree made.2 name superclass)
  generalize placeClass vacated.tree made.2 name superclass = tree at placed last kept ⊢
  generalize { tree.globals with classes := tree.globals.classes.insert name made.2 } = globals
  have owners : (vacated.withTree { tree with globals }).owners = state.owners :=
    congrArg (List.map ClassBodies.owner) classes
  refine ⟨?_, ?_, nodup_resetBodies (owners ▸ declares.distinct) _, fun bodies listed => ?_⟩
  · rw [tree_resetBodies]
    exact placed.withGlobals globals
  · rw [tree_resetBodies]
    exact last
  · rw [tree_resetBodies]
    rcases mem_resetBodies listed with old | rfl
    · obtain ⟨bare, node⟩ := declares.bodies bodies (classes ▸ old)
      exact ⟨bare, (node.stays stays).stays kept⟩
    · exact ⟨rfl, (only.classNode grown hangs).stays kept⟩

theorem declares_declareStep (dotless : ∀ name ∈ program.names, '.' ∉ name.toList) {before after : State}
    (step : DeclareStep config program before after) (formed : before.Formed) (declares : before.Declares) :
    after.Declares := by
  cases step with
  | class_ base range state named written =>
    exact declares_declareClass formed declares (dotless _ named) base range
  | skip message range state =>
    refine ⟨?_, ?_, ?_, ?_⟩
    · rw [State.tree_warn]; exact declares.blank
    · rw [State.tree_warn]; exact declares.only
    · rw [State.owners, State.classes_warn]; exact declares.distinct
    · rw [State.tree_warn, State.classes_warn]; exact declares.bodies
  | link id state =>
    have neutral : before.tree.Neutral (linkClass before.tree id) := by
      unfold linkClass
      split
      next => exact .refl _
      next =>
        split
        next => exact .refl _
        next => exact neutral_modifyEntity _ id (fields_mapClass fun _ => rfl)
    have same : SameShape (linkClass before.tree id) before.tree := by
      unfold linkClass
      split
      next => exact .refl _
      next =>
        split
        next => exact .refl _
        next => exact sameShape_modifyEntity _ _ _
    exact ⟨declares.blank.neutral neutral, declares.only.of_sameShape same,
      declares.distinct, fun bodies listed =>
      ⟨(declares.bodies bodies listed).1, (declares.bodies bodies listed).2.of_sameShape same⟩⟩

theorem declares_declared (config : DiscoveryConfig) (dotless : ∀ name ∈ program.names, '.' ∉ name.toList) :
    (declared config program).Declares := by
  suffices ∀ {state : State}, ReflTransGen (DeclareStep config program) (.initial config) state →
      state.Formed ∧ state.Declares from (this (declared_steps config program)).2
  intro state steps
  induction steps with
  | refl => exact ⟨formed_initial config, declares_initial config⟩
  | tail _ step ih => exact ⟨(revises_declareStep step ih.1).1, declares_declareStep dotless step ih.1 ih.2⟩

/-! ### The names of the top level -/

/-- What is known before the first member is entered. -/
structure State.Awaits (state : State) : Prop where
  blank : state.tree.Blank
  distinct : state.owners.Nodup
  bodies : ∀ bodies ∈ state.classes, bodies = .new bodies.owner ∧ state.tree.ClassNode bodies.owner

private theorem blank_declareGlobalFunction {state : State} (blank : state.tree.Blank) {name : String}
    (plain : '.' ∉ name.toList) {body : FunctionBody} (params : ∀ name ∈ body.params, '.' ∉ name.toList)
    (range : Range) :
    (declareGlobalFunction name body range state).tree.Blank ∧
      state.tree.Stays (declareGlobalFunction name body range state).tree := by
  rw [declareGlobalFunction_eq]
  dsimp only
  have made := blank.neutral (state.tree.neutral_internChild plain root .function nofun)
  have stays : state.tree.Stays (state.tree.internChild root name .function).1 :=
    state.tree.stays_intern _ _ _ _
  generalize state.tree.internChild root name .function = first at made stays ⊢
  have vacated := blank_vacate (state.withTree first.1) made first.2
    s!"global function `{name}` redefined" range
  have same := sameShape_vacate (state.withTree first.1) first.2 s!"global function `{name}` redefined" range
  generalize (state.withTree first.1).vacate first.2 s!"global function `{name}` redefined"
    range = middle at vacated same ⊢
  refine ⟨((blank_declareParams params vacated).setEntity _ rfl).withGlobals _, ?_⟩
  exact (stays.trans (.of_sameShape same)).trans
    ((stays_declareParams first.2 body.params middle.tree).trans (.of_sameShape (sameShape_setEntity _ _ _)))

private theorem blank_declareGlobalTable (blank : tree.Blank) {name : String} (plain : '.' ∉ name.toList) :
    (declareGlobalTable name tree).Blank ∧ tree.Stays (declareGlobalTable name tree) := by
  have made := blank.neutral (tree.neutral_internChild plain root .table nofun)
  have stays : tree.Stays (tree.internChild root name .table).1 := tree.stays_intern _ _ _ _
  unfold declareGlobalTable
  dsimp only
  generalize tree.internChild root name .table = first at made stays ⊢
  split
  next => exact ⟨made.withGlobals _, stays⟩
  next =>
    exact ⟨(made.setEntity _ rfl).withGlobals _, stays.trans (.of_sameShape (sameShape_setEntity _ _ _))⟩

private theorem blank_declareGlobalValue (config : DiscoveryConfig) (formed : tree.Formed)
    (blank : tree.Blank) {name : String} (plain : '.' ∉ name.toList) (value : Option Expr)
    (range : Range) :
    (declareGlobalValue config name value range tree).Blank ∧
      ∀ {id}, tree.ClassNode id → (declareGlobalValue config name value range tree).ClassNode id := by
  have made := blank.neutral (neutral_defineLocal tree plain root range)
  have advances := advances_defineLocal tree formed.root_lt name range
  unfold declareGlobalValue
  dsimp only
  generalize defineLocal tree root name range = first at made advances ⊢
  split
  next =>
    have applied := advances.trans (advances_applyEvidence first.1 first.2.1
      (classifyValue config tree (.at_ root) value))
    refine ⟨(made.neutral (neutral_applyEvidence _ _ _)).withGlobals _, fun node => ?_⟩
    have kept := node.grows (applied formed).2
    exact kept
  next => exact ⟨made, (·.grows (advances formed).2)⟩

theorem blank_indexStep (dotless : ∀ name ∈ program.names, '.' ∉ name.toList) {before after : State}
    (step : IndexStep config program before after) (formed : before.Formed) (blank : before.tree.Blank) :
    after.tree.Blank ∧ ∀ {id}, before.tree.ClassNode id → after.tree.ClassNode id := by
  cases step with
  | @function name body range state named within free =>
    obtain ⟨last, stays⟩ := blank_declareGlobalFunction blank (dotless _ named)
      (fun param member => dotless param (within (params_subset body member))) range
    exact ⟨last, (·.stays stays)⟩
  | table named free =>
    obtain ⟨last, stays⟩ := blank_declareGlobalTable blank (dotless _ named)
    exact ⟨last, (·.stays stays)⟩
  | value value range named free =>
    exact blank_declareGlobalValue config formed.tree blank (dotless _ named) value range
  | member value range owned named table =>
    have neutral := neutral_assignMember before.tree (dotless _ named) (.at_ root) (dotless _ owned)
      (classifyValue config before.tree (.at_ root) value) range
    exact ⟨blank.neutral neutral, (·.grows
      (advances_assignMember _ (.at_ root) formed.tree.root_lt _ _ _ _ formed.tree).2)⟩

theorem awaits_indexed (config : DiscoveryConfig) (dotless : ∀ name ∈ program.names, '.' ∉ name.toList) :
    (indexed config program).Awaits := by
  have declares := declares_declared config dotless
  suffices ∀ {state : State}, ReflTransGen (IndexStep config program) (declared config program) state →
      state.Formed ∧ state.Awaits from (this (indexed_steps config program)).2
  intro state steps
  induction steps with
  | refl => exact ⟨formed_declared config program, declares.blank, declares.distinct, declares.bodies⟩
  | tail _ step ih =>
    obtain ⟨formed, blank, distinct, bodies⟩ := ih
    obtain ⟨last, nodes⟩ := blank_indexStep dotless step formed blank
    refine ⟨(revises_indexStep step formed).1, last, ?_, ?_⟩
    · rw [State.owners, classes_indexStep step]
      exact distinct
    · rw [classes_indexStep step]
      exact fun held listed => ⟨(bodies held listed).1, nodes (bodies held listed).2⟩

end Discovery
end LuaClasses
