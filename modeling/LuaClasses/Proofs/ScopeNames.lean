import LuaClasses.Proofs.ClassRecognition
import LuaClasses.Proofs.FunctionIntake

/-! The names of scopes. The entry of classes and members makes scopes for names of the program, for
constructors and for fields, and for nothing else. -/

namespace LuaClasses
namespace ScopeTree

/-- A change that makes new scopes under some names only. -/
structure MakesOnly (names : String → Prop) (before after : ScopeTree) : Prop where
  made : ∀ {parent name id}, after.child? parent name = some id → before.child? parent name = some id ∨
    names name

variable {names : String → Prop} {first second third before after : ScopeTree}

namespace MakesOnly

theorem refl (tree : ScopeTree) : MakesOnly names tree tree := ⟨.inl⟩

theorem trans (one : MakesOnly names first second) (two : MakesOnly names second third) :
    MakesOnly names first third :=
  ⟨fun hangs => (two.made hangs).elim one.made .inr⟩

theorem of_sameShape (same : SameShape after before) : MakesOnly names before after :=
  ⟨fun hangs => .inl ((same.child? _ _).symm.trans hangs)⟩

theorem withGlobals (tree : ScopeTree) (globals : Globals) :
    MakesOnly names tree { tree with globals } :=
  ⟨.inl⟩

theorem internChild (tree : ScopeTree) (parent : ScopeId) {name : String} (named : names name)
    (valueType : ValueType) :
    MakesOnly names tree (tree.internChild parent name valueType).1 := by
  refine ⟨fun {holder other id} hangs => ?_⟩
  cases found : tree.find? (DottedName.child (tree.raw parent) name) with
  | some _ =>
    rw [internChild_found valueType found] at hangs
    exact .inl hangs
  | none =>
    by_cases same : other = name
    · exact .inr (same ▸ named)
    · exact .inl (child?_internChild_older found hangs fun both => same both.2)

end MakesOnly
end ScopeTree

namespace Discovery
open ScopeTree Relation

variable {config : DiscoveryConfig} {program : Program} {names : String → Prop}

/-! ### The writes of the entry -/

private theorem makes_declareParams (owner : ScopeId) {params : List String}
    (named : ∀ name ∈ params, names name) (tree : ScopeTree) :
    MakesOnly names tree (declareParams owner params tree).1 := by
  induction params generalizing tree with
  | nil => exact .refl tree
  | cons name rest ih =>
    obtain ⟨first, others⟩ := List.forall_mem_cons.1 named
    exact ((MakesOnly.internChild tree owner first .value).trans
      (.of_sameShape (sameShape_setEntity _ _ _))).trans (ih others _)

private theorem makes_placeFunction (tree : ScopeTree) (id : ScopeId) (name : String)
    (kind : FunctionKind) {body : FunctionBody} (named : ∀ name ∈ body.params, names name) :
    MakesOnly names tree (placeFunction tree id name kind body) :=
  (makes_declareParams id named tree).trans (.of_sameShape (sameShape_setEntity _ _ _))

private theorem makes_defineLocal (tree : ScopeTree) (scope : ScopeId) {name : String}
    (named : names name) (range : Range) :
    MakesOnly names tree (defineLocal tree scope name range).1 := by
  have made := MakesOnly.internChild tree scope named .value
  rw [defineLocal_eq]
  dsimp only
  split
  next => exact made
  next => exact made.trans (.of_sameShape ((sameShape_modifyEntity _ _ _).trans (sameShape_setEntity _ _ _)))

private theorem makes_memberScope (tree : ScopeTree) (parent : ScopeId) {name : String}
    (named : names name) (range : Range) :
    MakesOnly names tree (memberScope tree parent name range).1 := by
  unfold memberScope
  dsimp only
  generalize (if (tree.classAt? parent).isSome then ValueType.value else ValueType.field) = valueType
  split
  next => exact .internChild tree parent named valueType
  next =>
    exact (MakesOnly.internChild tree parent named valueType).trans
      (.of_sameShape ((sameShape_modifyEntity _ _ _).trans (sameShape_setEntity _ _ _)))

private theorem makes_assignMember (tree : ScopeTree) (frame : Frame) {base name : String}
    (owned : names base) (named : names name) (evidence : Evidence) (range : Range) :
    MakesOnly names tree (assignMember tree frame base name evidence range).1 := by
  have scope : MakesOnly names tree (baseScope tree frame.scope base).1 := by
    rw [baseScope_eq]
    split
    next => exact .refl tree
    next => exact .internChild tree frame.scope owned .table
  rw [assignMember_eq]
  dsimp only
  have member := scope.trans (makes_memberScope _ (baseScope tree frame.scope base).2.1 named range)
  split
  next => exact member.trans (.of_sameShape (sameShape_applyEvidence _ _ _))
  next => exact member

private theorem makes_replace (state : State) (parent : ScopeId) {name : String} (named : names name)
    (message : String) (range : Range) (kind : FunctionKind) {body : FunctionBody}
    (params : ∀ name ∈ body.params, names name) :
    let made := state.tree.internChild parent name .function
    MakesOnly names state.tree (placeFunction ((state.withTree made.1).vacate made.2 message range).tree
      made.2 name kind body) := by
  intro made
  have vacated := sameShape_vacate (state.withTree made.1) made.2 message range
  exact ((MakesOnly.internChild state.tree parent named .function).trans (.of_sameShape vacated)).trans
    (makes_placeFunction _ _ _ _ params)

private theorem makes_placeFields (owner : ScopeId) (fields : names fieldsName)
    {literals : List (String × LuaType × Range)} (named : ∀ entry ∈ literals, names entry.1)
    (seen : List String) (state : State) :
    MakesOnly names state.tree (placeFields owner literals seen state).tree := by
  induction literals generalizing seen state with
  | nil => exact .refl _
  | cons entry rest ih =>
    obtain ⟨name, type, range⟩ := entry
    obtain ⟨first, others⟩ := List.forall_mem_cons.1 named
    have placed : MakesOnly names state.tree (placeField owner range state.tree name type) := by
      rw [placeField, internField]
      exact ((MakesOnly.internChild _ _ fields .table).trans (.internChild _ _ first .field)).trans
        (.of_sameShape ((sameShape_modifyEntity _ _ _).trans (sameShape_setEntity _ _ _)))
    rw [placeFields]
    refine .trans ?_ (ih others _ _)
    split
    next =>
      simp only [State.withTree, State.tree_warn]
      exact placed
    next => exact placed

theorem sameShape_dropConstructor (owner constructor : ScopeId) (tree : ScopeTree) :
    SameShape (dropConstructor owner constructor tree) tree := by
  rw [dropConstructor]
  split
  next =>
    exact (sameShape_modifyEntity _ _ _).trans
      ((sameShape_clearDescendants _ _).trans (sameShape_clearDescendants _ _))
  next => exact (sameShape_modifyEntity _ _ _).trans (sameShape_clearDescendants _ _)

private theorem makes_defineConstructor (owner : ScopeId) (ownerName : String)
    (fields : names fieldsName) {body : FunctionBody} (named : ∀ name ∈ bodyNames body, names name)
    (range : Range) (state : State) :
    MakesOnly names state.tree (defineConstructor owner ownerName body range state).tree := by
  cases found : state.tree.classAt? owner with
  | none => rw [defineConstructor_outside found]; exact .refl _
  | some held =>
    rw [defineConstructor_eq found]
    dsimp only
    have vacated : MakesOnly names state.tree
        (vacateConstructor owner held.constructor ownerName range state).tree := by
      unfold vacateConstructor
      split
      next => exact .of_sameShape (sameShape_dropConstructor _ _ _)
      next => exact .refl _
    generalize vacateConstructor owner held.constructor ownerName range state = cleared at vacated ⊢
    have placed : MakesOnly names state.tree (placeConstructor owner held.constructor body cleared).tree :=
      vacated.trans ((makes_declareParams _ (fun name member => named name (params_subset body member))
        _).trans
        (.of_sameShape (sameShape_setEntity _ _ _)))
    split
    next selfAlias known =>
      refine placed.trans (makes_placeFields owner fields
        (fun entry member => named entry.1 (names_literals ?_)) [] _)
      rw [FunctionBody.literals, known]
      exact member
    next => rw [State.tree_warn]; exact placed

theorem sameShape_defineValue (config : DiscoveryConfig) (owner : ScopeId) (name : String)
    (value : Option Expr) (range : Range) (tree : ScopeTree) :
    SameShape (defineValue config owner name value range tree) (tree.internChild owner name .value).1 := by
  rw [defineValue_eq]
  dsimp only
  generalize tree.internChild owner name .value = below
  have placed : SameShape (placeValue owner name range below.1 below.2) below.1 := by
    unfold placeValue
    split
    next => exact .refl _
    next => exact (sameShape_modifyEntity _ _ _).trans (sameShape_setEntity _ _ _)
  exact applyValue_cases (motive := (SameShape · below.1)) config owner value placed
    fun evidence => (sameShape_applyEvidence _ below.2 evidence).trans placed

/-! ### The steps of the entry -/

section Steps

variable (own : ∀ name ∈ program.names, names name)
include own

private theorem makes_declareStep (constructor : names "constructor") {before after : State}
    (step : DeclareStep config program before after) :
    MakesOnly names before.tree after.tree := by
  cases step with
  | @class_ name base range state named written =>
    rw [declareClass_eq]
    dsimp only
    have made := MakesOnly.internChild before.tree root (own name named) .class_
    generalize before.tree.internChild root name .class_ = below at made ⊢
    have vacated := sameShape_vacate (before.withTree below.1) below.2 s!"class `{name}` redefined" range
    generalize (before.withTree below.1).vacate below.2 s!"class `{name}` redefined"
      range = cleared at vacated ⊢
    rw [tree_resetBodies, State.withTree, placeClass]
    dsimp only
    refine (made.trans (.of_sameShape vacated)).trans
      ((MakesOnly.internChild cleared.tree below.2 constructor .function).trans ?_)
    exact .trans (.of_sameShape ((sameShape_setEntity _ _ _).trans (sameShape_setEntity _ _ _)))
      (.withGlobals _ _)
  | skip message range => rw [State.tree_warn]; exact .refl _
  | link id =>
    rcases State.Recognizes.linkClass_cases before.tree id with same | ⟨link, same⟩
    · rw [State.withTree, same]; exact .refl _
    · rw [State.withTree, same]; exact .of_sameShape (sameShape_modifyEntity _ _ _)

private theorem makes_indexStep {before after : State} (step : IndexStep config program before after) :
    MakesOnly names before.tree after.tree := by
  cases step with
  | @function name body range state named within free =>
    rw [declareGlobalFunction_eq]
    dsimp only
    have params : ∀ param ∈ body.params, names param := fun param member =>
      own param (within (params_subset body member))
    exact (makes_replace before root (own name named) s!"global function `{name}` redefined"
      range .global params).trans
      (.withGlobals _ _)
  | @table name state named free =>
    rw [State.withTree, declareGlobalTable]
    dsimp only
    refine (MakesOnly.internChild before.tree root (own name named) .table).trans
      (.trans ?_ (.withGlobals _ _))
    split
    next => exact .refl _
    next => exact .of_sameShape (sameShape_setEntity _ _ _)
  | @value name value range state named free =>
    have made := makes_defineLocal before.tree root (own name named) range
    rw [State.withTree, declareGlobalValue]
    dsimp only
    split
    next => exact (made.trans (.of_sameShape (sameShape_applyEvidence _ _ _))).trans (.withGlobals _ _)
    next => exact made
  | member value range owned named table =>
    exact makes_assignMember before.tree (.at_ root) (own _ owned) (own _ named) _ range

private theorem makes_defineStep (fields : names fieldsName) {owner : ScopeId} {ownerName : String}
    {before after : State} (step : DefineStep config program owner ownerName before after) :
    MakesOnly names before.tree after.tree := by
  cases step with
  | constructor range state within =>
    exact makes_defineConstructor owner ownerName fields
      (fun name member => own name (within member)) range before
  | @function name indexer body range state named within written other =>
    rw [defineFunction_eq]
    dsimp only
    have params : ∀ param ∈ body.params, names param := fun param member =>
      own param (within (params_subset body member))
    exact (makes_replace before owner (own name named) _ range (FunctionKind.ofIndexer indexer) params).trans
      (.of_sameShape (sameShape_modifyEntity _ _ _))
  | @value name value range state named =>
    exact (MakesOnly.internChild before.tree owner (own name named) .value).trans
      (.of_sameShape (sameShape_defineValue config owner name value range before.tree))

end Steps

/-- Once the members are entered, a scope has a name of the program, or it is that of a constructor or of
the fields of a class. -/
theorem names_defined (config : DiscoveryConfig) (program : Program) {parent id : ScopeId} {name : String}
    (hangs : (defined config program).tree.child? parent name = some id) :
    name ∈ program.names ∨ name = "constructor" ∨ name = fieldsName := by
  have keeps : ∀ {step : State → State → Prop} {before after : State}, ReflTransGen step before after →
      (∀ {before after : State}, step before after →
        MakesOnly (fun name => name ∈ program.names ∨ name = "constructor" ∨ name = fieldsName)
          before.tree after.tree) →
      MakesOnly (fun name => name ∈ program.names ∨ name = "constructor" ∨ name = fieldsName)
        before.tree after.tree := by
    intro step before after steps each
    induction steps with
    | refl => exact .refl _
    | tail _ last ih => exact ih.trans (each last)
  have own : ∀ name ∈ program.names, name ∈ program.names ∨ name = "constructor" ∨
    name = fieldsName := fun _ => .inl
  have declared := keeps (declared_steps config program) (makes_declareStep own (.inr (.inl rfl)))
  have indexed := keeps (indexed_steps config program) (makes_indexStep own)
  have defined : ∀ (owners : List ScopeId) (state : State),
      MakesOnly (fun name => name ∈ program.names ∨ name = "constructor" ∨ name = fieldsName) state.tree
        (owners.foldl (defineMembers config program) state).tree := by
    intro owners
    induction owners with
    | nil => exact fun state => .refl _
    | cons owner rest ih =>
      refine fun state => .trans ?_ (ih _)
      cases found : state.tree.classAt? owner with
      | none => rw [defineMembers_outside config program found]; exact .refl _
      | some held =>
        exact keeps (defineMembers_steps config program found) (makes_defineStep own (.inr (.inr rfl)))
  rcases (declared.trans (indexed.trans (defined _ _))).made hangs with begun | named
  · obtain ⟨node, present, held⟩ := Option.bind_eq_some_iff.1 begun
    rw [(node?_new present).2] at held
    cases held
  · exact named

end Discovery
end LuaClasses
