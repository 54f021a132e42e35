import LuaClasses.Proofs.EnteredMembers
import LuaClasses.Proofs.ReferenceKeys
import LuaClasses.Proofs.ScopeNames
import LuaClasses.Proofs.Stripping

/-! Classes whose constructor is still to come. A class is declared with an empty constructor, and until
one is defined nothing stands where a constructor writes: what is declared at the top level hangs there,
below it hang parameters, members and constructors, and nothing deeper. -/

namespace LuaClasses
open DottedName

/-- Whether a path is that of the top level, of what hangs there, or of what hangs below that. -/
def DottedName.Shallow (top path : String) : Prop :=
  path = top ∨ ∃ name, '.' ∉ name.toList ∧
    (path = child top name ∨ ∃ last, '.' ∉ last.toList ∧ path = child (child top name) last)

namespace ScopeTree

/-- Whether all scopes of a tree stand at some paths. -/
def Spans (paths : String → Prop) (tree : ScopeTree) : Prop :=
  ∀ id, id.index < tree.size → paths (tree.raw id)

namespace Spans

variable {paths : String → Prop} {tree after : ScopeTree}

theorem of_sameShape (spans : tree.Spans paths) (same : SameShape after tree) : after.Spans paths :=
  fun id inside => by
  rw [same.raw]
  exact spans id (same.size ▸ inside)

theorem internChild (spans : tree.Spans paths) {parent : ScopeId} {name : String}
    (within : paths (child (tree.raw parent) name)) (valueType : ValueType) :
    (tree.internChild parent name valueType).1.Spans paths := by
  cases found : tree.find? (child (tree.raw parent) name) with
  | some id =>
    rw [internChild_found valueType found]
    exact spans
  | none =>
    have there := find?_internChild valueType tree parent name
    rw [internChild_snd valueType found] at there
    intro id inside
    rw [size_internChild valueType found] at inside
    rcases Nat.lt_or_eq_of_le (Nat.le_of_lt_succ inside) with older | last
    · rw [raw_internChild_of_lt valueType tree parent name older]
      exact spans id older
    · obtain rfl : id = ⟨tree.size⟩ := ScopeId.eq_of_index last
      rw [raw_of_find? there]
      exact within

end Spans
end ScopeTree

namespace Discovery
open ScopeTree Relation

variable {config : DiscoveryConfig} {program : Program} {paths : String → Prop} {tree : ScopeTree}

private theorem spans_declareParams (spans : tree.Spans paths) {owner : ScopeId}
    (inside : owner.index < tree.size) {names : List String}
    (within : ∀ name ∈ names, paths (child (tree.raw owner) name)) :
    (declareParams owner names tree).1.Spans paths := by
  induction names generalizing tree with
  | nil => exact spans
  | cons name rest ih =>
    obtain ⟨first, others⟩ := List.forall_mem_cons.1 within
    have made := spans.internChild first .value
    have grows := tree.grows_internChild owner name .value
    rw [declareParams]
    dsimp only
    generalize tree.internChild owner name .value = param at made grows ⊢
    have same := sameShape_setEntity param.1 param.2 (.new (.variable (.new name none)))
    refine ih (made.of_sameShape same) (same.size ▸ grows.index_lt inside) ?_
    rw [same.raw, grows.raw inside]
    exact others

private theorem spans_memberScope (spans : tree.Spans paths) {parent : ScopeId} {name : String}
    (within : paths (child (tree.raw parent) name)) (range : Range) :
    (memberScope tree parent name range).1.Spans paths := by
  unfold memberScope
  dsimp only
  generalize (if (tree.classAt? parent).isSome then ValueType.value else ValueType.field) = valueType
  have made := spans.internChild within valueType
  split
  next => exact made
  next => exact made.of_sameShape ((sameShape_modifyEntity _ _ _).trans (sameShape_setEntity _ _ _))

/-- Where nothing is deeper than what the top level declares. -/
structure State.Shallow (top : String) (state : State) : Prop where
  begins : state.tree.raw root = top
  spans : state.tree.Spans (DottedName.Shallow top)

section Steps

variable {top : String} {before after : State}

private theorem State.Shallow.spans_after (shallow : before.Shallow top) (formed : before.Formed)
    (revises : before.Revises after) (spans : after.tree.Spans (DottedName.Shallow top)) :
    after.Shallow top where
  begins := (raw_of_find? ((revises formed).2 _ _ (formed.tree.find?_raw formed.tree.root_lt))).trans
    shallow.begins
  spans := spans

/-- What is declared at the top level hangs there. -/
theorem State.Shallow.first (shallow : before.Shallow top) {name : String} (dotless : '.' ∉ name.toList) :
    DottedName.Shallow top (child (before.tree.raw root) name) := by
  rw [shallow.begins]
  exact .inr ⟨name, dotless, .inl rfl⟩

private theorem shallow_declareStep (plain : program.Plain)
    (step : DeclareStep config program before after) (formed : before.Formed)
    (shallow : before.Shallow top) : after.Shallow top := by
  refine shallow.spans_after formed (revises_declareStep step) ?_
  cases step with
  | @class_ name base range state named written =>
    rw [declareClass_eq]
    dsimp only
    have made := shallow.spans.internChild (shallow.first (plain name named).1) .class_
    have there := raw_of_find? (find?_internChild .class_ before.tree root name)
    generalize before.tree.internChild root name .class_ = below at made there ⊢
    have same := sameShape_vacate (before.withTree below.1) below.2 s!"class `{name}` redefined" range
    generalize (before.withTree below.1).vacate below.2 s!"class `{name}` redefined" range = cleared at same ⊢
    rw [tree_resetBodies, State.withTree, placeClass]
    dsimp only
    refine ((made.of_sameShape same).internChild ?_ .function).of_sameShape
      ((sameShape_setEntity _ _ _).trans (sameShape_setEntity _ _ _))
    rw [same.raw]
    change DottedName.Shallow top (child (below.1.raw below.2) "constructor")
    rw [there, shallow.begins]
    exact .inr ⟨name, (plain name named).1, .inr ⟨"constructor", by decide, rfl⟩⟩
  | skip message range => rw [State.tree_warn]; exact shallow.spans
  | link id =>
    rcases State.Recognizes.linkClass_cases before.tree id with same | ⟨link, same⟩
    · rw [State.withTree, same]; exact shallow.spans
    · rw [State.withTree, same]; exact shallow.spans.of_sameShape (sameShape_modifyEntity _ _ _)

/-- A global function hangs at the top level, and its parameters below it. -/
theorem State.Shallow.spans_globalFunction (shallow : before.Shallow top) {name : String}
    (dotless : '.' ∉ name.toList) {body : FunctionBody}
    (params : ∀ param ∈ body.params, '.' ∉ param.toList) (range : Range) :
    (declareGlobalFunction name body range before).tree.Spans (DottedName.Shallow top) := by
  rw [declareGlobalFunction_eq]
  dsimp only
  have made := shallow.spans.internChild (shallow.first dotless) .function
  have there := raw_of_find? (find?_internChild .function before.tree root name)
  have inside := index_internChild .function before.tree root name
  generalize before.tree.internChild root name .function = below at made there inside ⊢
  have same := sameShape_vacate (before.withTree below.1) below.2 s!"global function `{name}` redefined" range
  generalize (before.withTree below.1).vacate below.2 s!"global function `{name}` redefined"
    range = cleared at same ⊢
  refine (spans_declareParams (made.of_sameShape same) (same.size ▸ inside) fun param member =>
    ?_).of_sameShape (sameShape_setEntity _ _ _)
  rw [same.raw]
  change DottedName.Shallow top (child (below.1.raw below.2) param)
  rw [there, shallow.begins]
  exact .inr ⟨name, dotless, .inr ⟨param, params param member, rfl⟩⟩

/-- The base of a member hangs at the top level, whether it is found or made there. -/
theorem State.Shallow.spans_baseScope (shallow : before.Shallow top) (formed : before.Formed)
    {base : String} (dotless : '.' ∉ base.toList) :
    (baseScope before.tree root base).1.Spans (DottedName.Shallow top) ∧
      (baseScope before.tree root base).1.raw (baseScope before.tree root base).2.1 = child top base := by
  rw [baseScope_eq]
  split
  next id found => exact ⟨shallow.spans, shallow.begins ▸ raw_of_find? (formed.tree.find?_of_lookup found)⟩
  next =>
    have there := raw_of_find? (find?_internChild .table before.tree root base)
    exact ⟨shallow.spans.internChild (shallow.first dotless) .table, shallow.begins ▸ there⟩

private theorem shallow_indexStep (plain : program.Plain) (step : IndexStep config program before after)
    (formed : before.Formed) (shallow : before.Shallow top) : after.Shallow top := by
  refine shallow.spans_after formed (revises_indexStep step) ?_
  cases step with
  | @function name body range state named within free =>
    exact shallow.spans_globalFunction (plain name named).1
      (fun param member => (plain param (within (params_subset body member))).1) range
  | @table name state named free =>
    rw [State.withTree, declareGlobalTable]
    dsimp only
    have made := shallow.spans.internChild (shallow.first (plain name named).1) .table
    split
    next => exact made
    next => exact made.of_sameShape (sameShape_setEntity _ _ _)
  | @value name value range state named free =>
    have made := shallow.spans.internChild (shallow.first (plain name named).1) .value
    have defined : (defineLocal before.tree root name range).1.Spans (DottedName.Shallow top) := by
      rw [defineLocal_eq]
      dsimp only
      split
      next => exact made
      next => exact made.of_sameShape ((sameShape_modifyEntity _ _ _).trans (sameShape_setEntity _ _ _))
    rw [State.withTree, declareGlobalValue]
    dsimp only
    split
    next => exact defined.of_sameShape (sameShape_applyEvidence _ _ _)
    next => exact defined
  | @member base name value range state owned named table =>
    obtain ⟨spans, there⟩ := shallow.spans_baseScope formed (plain base owned).1
    have member : (memberScope (baseScope before.tree root base).1
      (baseScope before.tree root base).2.1 name range).1.Spans
        (DottedName.Shallow top) := by
      refine spans_memberScope spans ?_ range
      rw [there]
      exact .inr ⟨base, (plain base owned).1, .inr ⟨name, (plain name named).1, rfl⟩⟩
    rw [State.withTree, assignMember_eq]
    dsimp only
    split
    next => exact member.of_sameShape (sameShape_applyEvidence _ _ _)
    next => exact member

end Steps

private theorem shallow_initial (config : DiscoveryConfig) :
    (State.initial config).Shallow config.globalScope where
  begins := rfl
  spans := by
    intro id inside
    obtain ⟨node, found⟩ := exists_node? inside
    rw [(node?_new found).1]
    exact .inl rfl

private theorem shallow_declared (config : DiscoveryConfig) (plain : program.Plain) :
    (declared config program).Shallow config.globalScope :=
  declareSteps_keep plain (State.Shallow config.globalScope)
    (fun step formed _ _ shallow => shallow_declareStep plain step formed shallow)
    .refl (declared_steps config program) (shallow_initial config)

theorem shallow_indexed (config : DiscoveryConfig) (plain : program.Plain) :
    (indexed config program).Shallow config.globalScope :=
  indexSteps_keep plain (State.Shallow config.globalScope)
    (fun step formed _ shallow => shallow_indexStep plain step formed shallow) .refl
    (indexed_steps config program) (shallow_declared config plain)

end Discovery

/-! ### Constructors to come -/

namespace DottedName

/-- Whether a path is that of the constructor of a class or of the scope of its fields, or lies below one
of them. -/
def Inward (owner path : String) : Prop :=
  Within (child owner "constructor") path ∨ Within (child owner ScopeTree.fieldsName) path

variable {owner top path name : String}

theorem Beneath.within (beneath : Beneath owner path) : Within owner path :=
  List.IsPrefix.trans beneath (List.prefix_append _ _)

theorem within_iff : Within owner path ↔ path = owner ∨ Beneath owner path := by
  rw [Within, List.prefix_concat_iff, ← Beneath]
  refine or_congr_left ⟨fun same => ?_, fun same => same ▸ rfl⟩
  exact String.toList_injective (List.append_cancel_right same).symm

theorem Hides.inward (hides : Hides owner path) : Inward owner path := hides.imp Beneath.within Beneath.within

theorem Inward.within (inward : Inward owner path) : Within owner path :=
  inward.elim (within_child _ _).trans (within_child _ _).trans

private theorem inward_constructor (owner : String) : Inward owner (child owner "constructor") :=
  .inl (.refl _)

/-- Another member of the class lies beside what a constructor writes. -/
theorem Inward.apart (inward : Inward owner path) (plain : '.' ∉ name.toList) (first : name ≠ "constructor")
    (second : name ≠ ScopeTree.fieldsName) : ¬Within (child owner name) path := fun within =>
  inward.elim (fun constructor => first (within.name_unique plain (by decide) constructor))
    fun fields => second (within.name_unique plain (by decide) fields)

theorem Inward.ne_self (inward : Inward owner path) : path ≠ owner := by
  rintro rfl
  exact inward.elim (not_within_parent _ _) (not_within_parent _ _)

/-- Nothing shallow lies below what hangs below the top level. -/
theorem Shallow.not_hides (shallow : Shallow top path) : ¬Hides (child top name) path := by
  have above : ∀ {one two}, ¬Beneath (child (child top one) two) top := fun beneath =>
    not_within_parent _ _ (((within_child _ _).trans beneath.within))
  have beside : ∀ {one two other}, '.' ∉ other.toList →
      ¬Beneath (child (child top one) two) (child top other) := by
    intro one two other plain beneath
    rcases (beneath_child_iff plain).1 beneath with same | deeper
    · have within := within_child (child top one) two
      rw [same] at within
      exact not_within_parent top one within
    · exact above deeper
  have below : ∀ {two}, '.' ∉ two.toList → ¬Beneath (child (child top name) two) path := by
    intro two dotless beneath
    rcases shallow with rfl | ⟨other, plain, rfl | ⟨last, proper, rfl⟩⟩
    · exact above beneath
    · exact beside plain beneath
    · rcases (beneath_child_iff proper).1 beneath with same | deeper
      · exact child_ne_self _ _ (child_inj dotless plain same).1
      · exact beside plain deeper
  exact fun hides => hides.elim (below (by decide)) (below (by decide))

end DottedName

namespace ScopeTree

/-- A class whose constructor stands. Nothing stands where a constructor writes as long as none is entered. -/
structure Latent (tree : ScopeTree) (owner : String) (untouched : Prop) : Prop where
  constructor : tree.tag? (child owner "constructor") = some .constructor
  bare : untouched → ∀ path, Hides owner path → tree.chart path = none

variable {tree before after : ScopeTree} {owner : String} {untouched : Prop}

theorem Latent.carry (latent : before.Latent owner untouched)
    (same : ∀ path, Inward owner path → after.chart path = before.chart path) :
    after.Latent owner untouched where
  constructor := by
    rw [tag?, same _ (inward_constructor owner), ← tag?]
    exact latent.constructor
  bare := fun fresh path hides => (same path hides.inward).trans (latent.bare fresh path hides)

theorem Formed.wellShaped (formed : tree.Formed) (dotless : tree.Dotless) : tree.WellShaped :=
  ⟨tree, formed, dotless, .refl tree⟩

/-- Around a scope are the scopes whose paths its own path begins with. -/
theorem Formed.mem_ancestors_iff (formed : tree.Formed) (dotless : tree.Dotless) {outer inner : ScopeId}
    (around : outer.index < tree.size) (inside : inner.index < tree.size) :
    outer ∈ tree.ancestors inner ↔ Within (tree.raw outer) (tree.raw inner) := by
  rw [within_iff, ← dotless.mem_descendants_iff formed around inside]
  constructor
  · intro member
    exact (eq_or_mem_descendants formed member).imp_left (congrArg tree.raw)
  · rintro (same | below)
    · rw [(formed.wellShaped dotless).raw_inj inside around same]
      exact self_mem_ancestors tree outer
    · exact mem_ancestors_of_descendant formed below

/-- The constructor of a class stands at its path. -/
theorem Formed.tag?_constructor (formed : tree.Formed) (dotless : tree.Dotless) {id : ScopeId} {held : Class}
    (found : tree.classAt? id = some held) (stands : (tree.constructorAt? held.constructor).isSome = true) :
    tree.tag? (DottedName.child (tree.raw id) "constructor") = some .constructor := by
  have there := formed.find?_child (formed.child?_constructor dotless found)
  rw [← raw_of_find? there, tag?_raw (formed.wellShaped dotless) (index_lt_of_find? there)]
  obtain ⟨owner, asConstructor⟩ := Option.isSome_iff_exists.1 stands
  obtain ⟨⟨references, kind⟩, held, constructor⟩ := Option.bind_eq_some_iff.1 asConstructor
  rw [held]
  cases kind <;> cases constructor
  rfl

end ScopeTree

namespace Discovery
open ScopeTree Relation

variable {config : DiscoveryConfig} {program : Program} {done : ScopeId → List MemberStep}
  {before after state : State} {owner : ScopeId}

/-! ### Before the members are entered -/

/-- Classes of the top level without functions or methods. -/
def Plainest (state : State) : Prop := ∀ id ∈ state.owners, (∃ name, state.tree.child? root name = some id) ∧
  state.tree.hasEntity id = true ∧ ∀ held, state.tree.classAt? id = some held → held.Regular

private theorem regular_indexed (config : DiscoveryConfig) (plain : program.Plain) :
    Plainest (indexed config program) := by
  refine indexSteps_keep plain Plainest (fun {before after} step formed tidy plainest => ?_) .refl
    (indexed_steps config program) ?_
  · intro id member
    rw [owners_indexStep step] at member
    obtain ⟨⟨name, hangs⟩, stands, regular⟩ := plainest id member
    have links := links_indexStep plain step formed tidy
    refine ⟨⟨name, links hangs⟩, ?_⟩
    rcases steady_indexStep plain step formed tidy
      (formed.tree.parent?_of_child hangs) with steady | ⟨_, _, function, _⟩
    · obtain ⟨entity, present⟩ := Option.isSome_iff_exists.1 stands
      obtain ⟨later, reached, outline⟩ := steady present
      refine ⟨Option.isSome_of_eq_some reached, fun held found => ?_⟩
      -- What is a class after the step was the same class before it.
      obtain ⟨references, there⟩ := classAt?_eq_some found
      obtain ⟨others, kind⟩ := entity
      cases reached.symm.trans there
      cases kind <;> simp only [EntityKind.outline, reduceCtorEq] at outline
      case class_ former =>
        have known : before.tree.classAt? id = some former := by rw [classAt?, present]; rfl
        obtain ⟨again, last, callables⟩ := steady.class_ known
        cases found.symm.trans last
        obtain ⟨_, functions, methods⟩ : held.name = former.name ∧ held.functions = former.functions ∧
            held.methods = former.methods := by
          simpa [Class.callables] using callables
        rw [Class.Regular, functions, methods]
        exact regular former known
    · obtain ⟨held, asFunction⟩ := Option.isSome_iff_exists.1 function
      obtain ⟨⟨references, kind⟩, present, isFunction⟩ := Option.bind_eq_some_iff.1 asFunction
      refine ⟨Option.isSome_of_eq_some present, fun held found => ?_⟩
      rw [classAt?, present] at found
      cases kind <;> cases isFunction
      cases found
  · intro id member
    obtain ⟨name, _, ⟨hangs, owner, found, _, regular⟩, _⟩ := registers_declared config plain id member
    obtain ⟨references, present⟩ := classAt?_eq_some found
    refine ⟨⟨name, hangs⟩, Option.isSome_of_eq_some present, fun held reached => ?_⟩
    cases found.symm.trans reached
    exact regular

/-- Before the members are entered each class has an empty constructor, with nothing below it, and no
fields. -/
theorem latent_indexed (config : DiscoveryConfig) (plain : program.Plain) {id : ScopeId}
    (listed : id ∈ (indexed config program).owners) {held : Class}
    (found : (indexed config program).tree.classAt? id = some held) (untouched : Prop) :
    (indexed config program).tree.Latent ((indexed config program).tree.raw id) untouched := by
  have formed := (formed_indexed config program).tree
  have tidy := (tidy_indexed config plain).tree
  have shallow := shallow_indexed config plain
  obtain ⟨⟨name, hangs⟩, _, regular⟩ := regular_indexed config plain id listed
  refine ⟨formed.tag?_constructor tidy.dotless found ?_, fun _ path hides => ?_⟩
  · obtain ⟨_, constructor, _⟩ := ((tidy.shaped found).members (regular held found)).constructor
    exact Option.isSome_of_eq_some constructor
  · by_contra shown
    obtain ⟨look, shown⟩ := Option.ne_none_iff_exists'.1 shown
    obtain ⟨other, _, reached, present, _⟩ := chart_eq_some shown
    have low := shallow.spans other (index_lt_of_entity? present)
    rw [raw_of_find? (formed.find?_child hangs), shallow.begins] at hides
    exact low.not_hides (raw_of_find? reached ▸ hides)

/-! ### While the members are entered -/

/-- What a step of one class does to another is not seen in a chart of the other. -/
theorem Spared.chart (spared : Spared owner before after) (sound : before.tree.Sound)
    (keeps : before.tree.Keeps after.tree) (level : before.tree.Level)
    (node : before.tree.ClassNode owner) {other : ScopeId} (another : before.tree.ClassNode other)
    (inside : other.index < before.tree.size) (apart : other ≠ owner) {path : String}
    (within : Within (before.tree.raw other) path) :
    after.tree.chart path = before.tree.chart path := by
  refine chart_of_kept sound keeps fun id found => ?_
  have stays := spared.confined.stays
  have last := spared.confined.level level
  refine spared.confined.apart spared.formed.tree ((node.stays stays).top last)
    ((another.stays stays).top last) apart ?_
  rw [spared.formed.tree.mem_ancestors_iff last.dotless (keeps.inside sound.shaped inside)
    (index_lt_of_find? found),
    keeps.raw_shaped sound.shaped inside, raw_of_find? found]
  exact within

section Own

variable (formed : state.Formed) (level : state.tree.Level) (sound : state.tree.Sound)
  (inside : owner.index < state.tree.size)
  {name : String} (plain : PlainName name) (other : name ≠ "constructor") {path : String}
  (inward : Inward (state.tree.raw owner) path)
include formed level sound inside plain other inward

/-- The entry of a function is not seen where a constructor writes. -/
theorem chart_defineFunction (indexer : Indexer) {body : FunctionBody}
    (params : ∀ name ∈ body.params, '.' ∉ name.toList) (range : Range) :
    (defineFunction owner name indexer body range state).tree.chart path = state.tree.chart path := by
  have keeps := (revises_defineFunction inside name indexer body range formed).2
  obtain ⟨placed, made, place, tree, _⟩ := defineFunction_inPlace formed.tree level inside
    plain.1 indexer params range
  refine chart_of_kept sound keeps fun id found => ?_
  have same : SameShape (defineFunction owner name indexer body range state).tree placed :=
    tree ▸ sameShape_modifyEntity _ _ _
  have kept := keeps.raw_shaped sound.shaped inside
  have there := place.formed.find?_child place.hangs
  rw [same.raw] at kept
  rw [same.find?] at found
  rw [tree, modifyClass, entity?_modifyEntity, if_neg]
  · refine place.confined.others ?_
    rw [place.formed.mem_ancestors_iff place.level.dotless (index_lt_of_find? there)
      (index_lt_of_find? found), raw_of_find? there,
      raw_of_find? found, kept]
    exact inward.apart plain.1 other plain.2
  · rintro rfl
    exact inward.ne_self ((raw_of_find? found).symm.trans kept)

/-- Nor is that of a value. -/
theorem chart_defineValue (config : DiscoveryConfig) {held : Class}
    (found : state.tree.classAt? owner = some held) (value : Option Expr) (range : Range) :
    (defineValue config owner name value range state.tree).chart path = state.tree.chart path := by
  have keeps := (revises_defineValue config inside name value range formed.tree).2
  have entered := valueEntered_defineValue config formed.tree level found inside plain.1 value range
  have same := sameShape_defineValue config owner name value range state.tree
  have kept := keeps.raw_shaped sound.shaped inside
  have there := raw_of_find? (find?_internChild .value state.tree owner name)
  refine chart_of_kept sound keeps fun id found => entered.others ?_ ?_
  · rintro rfl
    exact inward.ne_self ((raw_of_find? found).symm.trans kept)
  · rintro rfl
    rw [← same.raw, raw_of_find? found] at there
    exact inward.apart plain.1 other plain.2 (there ▸ .refl _)

end Own

/-- All classes with the definitions that are entered into them, and a place for their constructors. -/
structure Ready (config : DiscoveryConfig) (done : ScopeId → List MemberStep) (state : State) : Prop where
  roster : Roster config done state
  latent : ∀ id ∈ state.owners, ∀ held, state.tree.classAt? id = some held →
    state.tree.Latent (state.tree.raw id) (lastDefinition? (done id) config.constructorName = none)

theorem ready_indexed (config : DiscoveryConfig) (plain : program.Plain) :
    Ready config (fun _ => []) (indexed config program) where
  roster := roster_indexed config fun name member => (plain name member).1
  latent := fun _ listed _ found => latent_indexed config plain listed found _

theorem revises_run (config : DiscoveryConfig) (ownerName : String)
    (inside : owner.index < state.tree.size) (step : MemberStep) :
    state.Revises (step.run config owner ownerName state) := by
  cases step with
  | function indexer name body range =>
    rw [MemberStep.run]
    split
    next => exact revises_defineConstructor inside ownerName body range
    next => exact revises_defineFunction inside name indexer body range
  | value name value range =>
    exact state.revises_withTree (revises_defineValue config inside name value range)

namespace Ready

variable (ready : Ready config done state) (listed : owner ∈ state.owners) {held : Class}
  (found : state.tree.classAt? owner = some held)
  (sound : state.tree.Sound)
include ready listed found sound

/-- After one more step of a class, its constructor stands still. It is untouched if the step does not
define it. -/
theorem latent_run (step : MemberStep) (plain : ∀ name ∈ step.names, PlainName name)
    (other : step.bound ≠ "constructor") {later : Class}
    (reached : (step.run config owner held.name state).tree.classAt? owner = some later) :
    (step.run config owner held.name state).tree.Latent (state.tree.raw owner)
      (lastDefinition? (done owner ++ [step]) config.constructorName = none) := by
  have roster := ready.roster
  have inside := index_lt_of_classAt? found
  have latent := ready.latent owner listed held found
  rw [lastDefinition?_concat]
  cases step with
  | function indexer name body range =>
    have within : ∀ name ∈ bodyNames body, PlainName name := fun name member =>
      plain name (List.mem_cons_of_mem _ member)
    rw [MemberStep.run] at reached ⊢
    rw [MemberStep.definition?]
    split
    next same =>
      rw [if_pos same] at reached
      have bare := fields_eq_empty listed
        (fun bodies member equal => equal ▸ roster.entered bodies member) found
      have entered := defineConstructor_entered roster.formed.tree roster.level found bare held.name
        (fun name member => (within name member).1) range
      have revised := revises_defineConstructor inside held.name body range roster.formed
      obtain ⟨fields, known, _⟩ := entered.found
      cases known.symm.trans reached
      have stands := revised.1.tree.tag?_constructor (entered.confined.level roster.level).dotless known
        (by rw [← Option.isSome_map, entered.constructor]; rfl)
      rw [revised.2.raw_shaped sound.shaped inside] at stands
      exact ⟨stands, fun untouched => absurd untouched (Option.some_ne_none _)⟩
    next =>
      rw [Option.none_or]
      exact latent.carry fun path inward => chart_defineFunction roster.formed roster.level sound inside
        (plain name List.mem_cons_self)
        other inward indexer (fun param member => (within param (params_subset body member)).1) range
  | value name value range =>
    rw [MemberStep.definition?, Option.none_or]
    exact latent.carry fun path inward => chart_defineValue roster.formed roster.level sound inside
      (plain name List.mem_cons_self) other
      inward config found value range

theorem run (step : MemberStep) (plain : ∀ name ∈ step.names, PlainName name)
    (other : step.bound ≠ "constructor") :
    Ready config (entering done owner [step]) (step.run config owner held.name state) ∧
      Retains state (step.run config owner held.name state) := by
  have roster := ready.roster
  have dotless : ∀ name ∈ step.names, '.' ∉ name.toList := fun name member => (plain name member).1
  have keeps := (revises_run config held.name (index_lt_of_classAt? found) step roster.formed).2
  have spared := (roster.enters listed found step dotless).spared
  obtain ⟨last, retains⟩ := roster.run listed found step dotless
  refine ⟨⟨last, fun id member later reached => ?_⟩, retains⟩
  rw [retains.owners] at member
  by_cases same : id = owner
  · subst same
    rw [entering, if_pos rfl, keeps.raw_shaped sound.shaped (index_lt_of_classAt? found)]
    exact ready.latent_run listed found sound step plain other reached
  · have node := roster.node listed
    have another := roster.node member
    have before : state.tree.classAt? id = some later := by
      rw [classAt?, ← spared.kept roster.level node another same (self_mem_ancestors _ _), ← classAt?,
        reached]
    have inside := index_lt_of_classAt? before
    rw [entering, if_neg same, keeps.raw_shaped sound.shaped inside]
    exact (ready.latent id member later before).carry fun path inward =>
      spared.chart sound keeps roster.level node another inside same inward.within

/-- What an earlier constructor gave a class is dropped before the next one is entered. If there was
none, there is nothing to drop. -/
theorem stripped (range : Range) : Stripped (state.tree.raw owner) state.tree
    (vacateConstructor owner held.constructor held.name range state).tree := by
  have roster := ready.roster
  unfold vacateConstructor
  split
  next =>
    refine stripped_dropConstructor sound (index_lt_of_classAt? found) (sound.index_constructor found) ?_
    exact raw_of_find? (roster.formed.tree.find?_child
      (roster.formed.tree.child?_constructor roster.level.dotless found))
  next fresh =>
    have fresh := Option.not_isSome_iff_eq_none.1 fresh
    have fields := fields_eq_empty listed
      (fun bodies member equal => equal ▸ roster.entered bodies member) found fresh
    obtain ⟨bodies, member, known, rfl⟩ := exists_bodies? listed
    rw [known, Option.bind_some, (roster.entered bodies member).constructor, Option.map_eq_none_iff] at fresh
    refine .refl sound ((ready.latent _ listed held found).bare fresh) ?_
    obtain ⟨references, present⟩ := classAt?_eq_some found
    rw [chart_raw sound.shaped (index_lt_of_classAt? found), present, Option.map_some, Option.map_some]
    simp only [Look.fieldless, Look.mapClass, Entity.look, EntityKind.shape,
      Shape.mapClass, Class.look, fields]
    rfl

end Ready

end Discovery

end LuaClasses
