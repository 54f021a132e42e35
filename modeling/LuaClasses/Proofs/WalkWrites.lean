import LuaClasses.Proofs.EntryWrites
import LuaClasses.Proofs.WalkSites
import Mathlib.Logic.Relation

/-! The writes of a walk, taken apart. Whatever a walk does to a tree is a chain of writes of five kinds:
it makes scopes, places variables and blocks where nothing stands, enters names among those of an entity,
enters fields among those of a class, and lets entities take in evidence. What each kind of write keeps,
every step of a walk keeps. -/

namespace LuaClasses.Discovery
open ScopeTree Relation

/-- One write that places entities of some kinds only and lets nothing be taken in but some evidence. -/
inductive Writing (places : EntityKind → Prop) (takes : Evidence → Prop) : ScopeTree → ScopeTree → Prop
  | make (tree : ScopeTree) (parent : ScopeId) (name : String) (valueType : ValueType) :
      Writing places takes tree (tree.internChild parent name valueType).1
  | place {tree : ScopeTree} {id : ScopeId} {kind : EntityKind}
    (vacant : tree.entity? id = none) (placed : places kind) :
      Writing places takes tree (tree.setEntity id (.new kind))
  | name (tree : ScopeTree) (scope : ScopeId) (f : Members → Members) :
      Writing places takes tree (tree.modifyEntity scope (Entity.mapLocals f))
  | field (tree : ScopeTree) (owner : ScopeId) (f : Class → Class) :
    Writing places takes tree (tree.modifyClass owner f)
  | take (tree : ScopeTree) (id : ScopeId) {evidence : Evidence} (given : takes evidence) :
      Writing places takes tree (applyEvidence tree id evidence).1

/-- A chain of such writes. -/
abbrev Writings (places : EntityKind → Prop) (takes : Evidence → Prop) : ScopeTree → ScopeTree → Prop :=
  ReflTransGen (Writing places takes)

variable {places : EntityKind → Prop} {takes : Evidence → Prop} {tree : ScopeTree}

section Variables

variable (vars : ∀ var, places (.variable var))
include vars

private theorem writings_occupy (id : ScopeId) (name : String) (range : Range) :
    Writings places takes tree (tree.occupy id name range) := by
  unfold occupy
  split
  next => exact .refl
  next vacant => exact .single (.place (Option.not_isSome_iff_eq_none.1 vacant) (vars _))

/-- A variable is placed where nothing stands and entered among the names around it. -/
theorem writings_addLocal {id : ScopeId} (vacant : ¬tree.hasEntity id = true) (scope : ScopeId)
    (var : Variable) (f : Members → Members) :
    Writings places takes tree ((tree.setEntity id (.new (.variable var))).modifyEntity
      scope (Entity.mapLocals f)) :=
  .tail (.single (.place (Option.not_isSome_iff_eq_none.1 vacant) (vars var))) (.name _ scope f)

theorem writings_defineLocal (scope : ScopeId) (name : String) (range : Range) :
    Writings places takes tree (defineLocal tree scope name range).1 := by
  have made : Writings places takes tree (tree.internChild scope name .value).1 :=
    .single (.make tree scope name .value)
  rw [defineLocal_eq]
  dsimp only
  split
  next => exact made
  next vacant => exact made.trans (writings_addLocal vars vacant scope _ _)

private theorem writings_memberScope (parent : ScopeId) (name : String) (range : Range) :
    Writings places takes tree (memberScope tree parent name range).1 := by
  unfold memberScope
  dsimp only
  generalize (if (tree.classAt? parent).isSome then ValueType.value else ValueType.field) = valueType
  have made : Writings places takes tree (tree.internChild parent name valueType).1 :=
    .single (.make tree parent name valueType)
  split
  next => exact made
  next vacant => exact made.trans (writings_addLocal vars vacant parent _ _)

theorem writings_assignMember (frame : Frame) (base name : String) {evidence : Evidence}
    (given : takes evidence) (range : Range) :
    Writings places takes tree (assignMember tree frame base name evidence range).1 := by
  have owner : Writings places takes tree (baseScope tree frame.scope base).1 := by
    rw [baseScope_eq]
    split
    next => exact .refl
    next => exact .single (.make tree frame.scope base .table)
  rw [assignMember_eq]
  generalize baseScope tree frame.scope base = held at owner ⊢
  have member := owner.trans (writings_memberScope vars held.2.1 name range)
  dsimp only
  split
  next => exact member.tail (.take _ _ given)
  next => exact member

private theorem writings_assignField (frame : Frame) (name : String) {evidence : Evidence}
    (given : takes evidence) (range : Range) :
    Writings places takes tree (assignField tree frame name evidence range).1 := by
  cases nearest : tree.nearestClass frame.scope with
  | none => rw [assignField_outside tree nearest]
  | some owner =>
    rw [assignField_eq tree nearest]
    have made : Writings places takes tree (tree.internField owner name).1 :=
      .tail (.single (.make tree owner fieldsName .table)) (.make _ _ name .field)
    exact ((made.trans (writings_occupy vars _ name range)).tail (.field _ owner _)).tail (.take _ _ given)

/-- A value of the top level is written in the same way, and listed. -/
theorem writings_declareGlobalValue (config : DiscoveryConfig) (name : String) (value : Option Expr)
    (range : Range) (given : takes (classifyValue config tree (.at_ root) value)) :
    ∃ written globals, Writings places takes tree written ∧
      declareGlobalValue config name value range tree = { written with globals } := by
  have defined : Writings places takes tree (defineLocal tree root name range).1 :=
    writings_defineLocal vars root name range
  unfold declareGlobalValue
  dsimp only
  split
  next => exact ⟨_, _, defined.tail (.take _ _ given), rfl⟩
  next => exact ⟨_, _, defined, rfl⟩

end Variables

/-- A table of the top level is placed where nothing stands, and listed. -/
theorem writings_declareGlobalTable {name : String} (tables : places (.table ⟨name, .empty⟩)) :
    ∃ written globals, Writings places takes tree written ∧ declareGlobalTable name tree =
      { written with globals } := by
  have made : Writings places takes tree (tree.internChild root name .table).1 :=
    .single (.make tree root name .table)
  unfold declareGlobalTable
  dsimp only
  split
  next => exact ⟨_, _, made, rfl⟩
  next vacant => exact ⟨_, _, made.tail (.place (Option.not_isSome_iff_eq_none.1 vacant) tables), rfl⟩

/-- A value of a class is placed where nothing stands and entered among those of the class. -/
theorem writings_defineValue (vars : ∀ var, places (.variable var)) (any : ∀ evidence, takes evidence)
    (config : DiscoveryConfig) (owner : ScopeId) (name : String) (value : Option Expr) (range : Range) :
    Writings places takes tree (defineValue config owner name value range tree) := by
  have made : Writings places takes tree (tree.internChild owner name .value).1 :=
    .single (.make tree owner name .value)
  rw [defineValue_eq]
  dsimp only
  generalize tree.internChild owner name .value = below at made ⊢
  have placed : Writings places takes tree (placeValue owner name range below.1 below.2) := by
    unfold placeValue
    split
    next => exact made
    next vacant =>
      exact (made.tail (.place (Option.not_isSome_iff_eq_none.1 vacant) (vars _))).tail (.field _ owner _)
  exact applyValue_cases config owner value placed fun evidence => placed.tail (.take _ _ (any evidence))

private theorem writings_enterBlock (blocks : ∀ kind, places (.block ⟨kind, .empty⟩)) (parent : ScopeId)
    (kind : BlockKind) (index : Nat) :
    Writings places takes tree (enterBlock tree parent kind index).1 := by
  have made : Writings places takes tree (tree.internChild parent (blockName kind index) .block).1 :=
    .single (.make tree parent _ .block)
  rw [enterBlock_eq]
  dsimp only
  split
  next => exact made
  next vacant => exact made.tail (.place (Option.not_isSome_iff_eq_none.1 vacant) (blocks kind))

/-! ### The steps of a body -/

section Steps

variable {config : DiscoveryConfig} {state : State} (vars : ∀ var, places (.variable var))
  (any : ∀ evidence, takes evidence)
include vars any

private theorem writings_assign (frame : Frame) (target : Expr) (evidence : Evidence) (range : Range) :
    Writings places takes state.tree (assign state frame target evidence range).1.tree := by
  unfold assign
  split
  next name _ =>
    unfold assignName
    split
    next => exact (writings_defineLocal vars frame.scope name range).tail (.take _ _ (any evidence))
    next id _ =>
      split
      next => exact .single (.take state.tree id (any evidence))
      next => rw [State.tree_warn]
  next object name _ =>
    split
    next base _ =>
      dsimp only [State.withTree]
      split
      next => exact writings_assignField vars frame name (any evidence) range
      next => exact writings_assignMember vars frame base name (any evidence) range
    next => rw [State.tree_warn]
  next => rw [State.tree_warn]

private theorem writings_action (blocks : ∀ kind, places (.block ⟨kind, .empty⟩)) (frame : Frame)
    (range : Range) (action : Action) :
    Writings places takes state.tree (action.run config frame range state).1.tree := by
  cases action with
  | block kind index => exact writings_enterBlock blocks frame.scope kind index
  | local_ name value => exact (writings_defineLocal vars frame.scope name range).tail (.take _ _ (any _))
  | target expr value => exact writings_assign vars any frame expr _ range
  | return_ values =>
    unfold Action.run
    dsimp only
    split
    next => exact .refl
    next function _ => exact .single (.take state.tree function (any _))

end Steps

/-- Each step of a body is a chain of writes that place nothing but variables and blocks. -/
theorem writings_site (config : DiscoveryConfig) (frame : Frame) (state : State) (site : Site) :
    Writings (·.isPlaced = true) (fun _ => True) state.tree (site.run config frame state).1.tree := by
  unfold Site.run
  split
  next scope _ =>
    exact writings_action (fun _ => rfl) (fun _ => trivial) (fun _ =>
      rfl) (frame.within scope) site.range site.action
  next => exact .refl

end LuaClasses.Discovery
