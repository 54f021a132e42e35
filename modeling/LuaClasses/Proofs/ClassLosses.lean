import LuaClasses.Proofs.Enlistment
import LuaClasses.Proofs.EntryPasses
import Mathlib.Data.List.Forall2

/-! What the report on a class lists, and what a class loses. A report leaves out what does not stand for what
the class says it is, so it loses nothing where the class has its shape. A function of the top level takes
the place of a class of its name, and a member named like the scope of the constructor takes the place of
the constructor. Nothing else does. -/

namespace LuaClasses

namespace ScopeTree

variable {tree : ScopeTree} {owner : Class} {id : ScopeId}

/-- A class each of whose members stands for what the class says it is. -/
structure Intact (tree : ScopeTree) (owner : Class) : Prop where
  constructor : tree.ConstructorShaped owner.constructor
  fields : ∀ {name id}, owner.fields.get? name = some id → (tree.variableAt? id).isSome = true
  values : ∀ {name id}, owner.values.get? name = some id → (tree.variableAt? id).isSome = true
  functions : ∀ {name id}, owner.functions.get? name = some id → tree.FunctionShaped .static id
  methods : ∀ {name id}, owner.methods.get? name = some id → tree.FunctionShaped .method id
  /-- No name is that of two members. -/
  apart : [owner.values, owner.functions, owner.methods].Pairwise fun one two =>
    ∀ name, one.contains name = true → two.contains name = false

/-- What hangs below a class by one name is not of two kinds. -/
theorem contains_apart {one two : Members} {left right : ScopeId → Prop}
    (first : ∀ {name child}, one.get? name = some child → tree.child? id name = some child ∧ left child)
    (second : ∀ {name child}, two.get? name = some child → tree.child? id name = some child ∧ right child)
    (clash : ∀ child, left child → ¬right child) (name : String) (known : one.contains name = true) :
    two.contains name = false := by
  rw [OrderedMap.contains_eq_isSome_get?] at known ⊢
  obtain ⟨child, found⟩ := Option.isSome_iff_exists.1 known
  obtain ⟨hangs, held⟩ := first found
  cases other : two.get? name with
  | none => rfl
  | some also =>
    obtain ⟨below, kept⟩ := second other
    cases hangs.symm.trans below
    exact absurd kept (clash child held)

private theorem FunctionShaped.not_variable {kind : FunctionKind} (shaped : tree.FunctionShaped kind id) :
    ¬(tree.variableAt? id).isSome = true := by
  obtain ⟨held, found, _⟩ := shaped
  obtain ⟨⟨references, kind⟩, present, asFunction⟩ := Option.bind_eq_some_iff.1 found
  cases kind <;> cases asFunction
  rw [variableAt?, present]
  exact Bool.false_ne_true

private theorem FunctionShaped.kind_unique {one two : FunctionKind} (left : tree.FunctionShaped one id)
    (right : tree.FunctionShaped two id) : one = two := by
  obtain ⟨held, found, rfl, _⟩ := left
  obtain ⟨other, same, rfl, _⟩ := right
  rw [Option.some.inj (found.symm.trans same)]

theorem ClassShaped.intact (shape : tree.ClassShaped id owner) (regular : owner.Regular) :
    tree.Intact owner := by
  have members := shape.members regular
  refine ⟨members.constructor, fun found => (shape.fields.fields found).2,
    fun found => (members.values found).2,
    fun found => (members.functions found).2, fun found => (members.methods found).2, ?_⟩
  simp only [List.pairwise_cons, List.mem_cons, List.not_mem_nil, or_false, forall_eq_or_imp,
    forall_eq, List.Pairwise.nil,
    and_true, false_implies, implies_true]
  refine ⟨⟨?_, ?_⟩, ?_⟩
  · exact contains_apart members.values members.functions fun _ var shaped => shaped.not_variable var
  · exact contains_apart members.values members.methods fun _ var shaped => shaped.not_variable var
  · exact contains_apart members.functions members.methods fun _ one two => nomatch one.kind_unique two

end ScopeTree

/-! ### Reports -/

namespace ClassReport
open ScopeTree

variable {tree : ScopeTree} {owner : Class}

/-- Whether parameters are shown each in its place, with its name and types. -/
def ShowsParams (tree : ScopeTree) (ids : List ScopeId) (vararg : Bool) (shown : List Param) : Prop :=
  ∃ named, List.Forall₂ (fun id param => ∃ var, tree.variableAt? id = some var ∧
    param = ⟨var.name, var.types.render⟩) ids named ∧
    shown = named ++ if vararg then [⟨"...", "..."⟩] else []

/-- Whether variables are shown each under its name, with its types. -/
structure ShowsValues (tree : ScopeTree) (members : Members) (shown : OrderedMap String) : Prop where
  keys : shown.keys = members.keys
  types : ∀ {name id}, members.get? name = some id →
    ∃ var, tree.variableAt? id = some var ∧ shown.get? name = some var.types.render

/-- Whether functions are shown each under its name, with its parameters and what it returns. -/
structure ShowsFunctions (tree : ScopeTree) (members : Members) (shown : OrderedMap (List Signature)) :
    Prop where
  keys : shown.keys = members.keys
  signatures : ∀ {name id}, members.get? name = some id → ∃ held params, tree.functionAt? id = some held ∧
    ShowsParams tree held.params held.vararg params ∧ shown.get? name = some [⟨params, held.returns.render⟩]

/-- Whether a report shows a class with all that it lists. -/
structure Shows (report : ClassReport) (tree : ScopeTree) (owner : Class) : Prop where
  constructor : ∃ held, tree.constructorAt? owner.constructor = some held ∧
    ShowsParams tree held.params held.vararg report.constructor
  fields : ShowsValues tree owner.fields report.fields
  values : ShowsValues tree owner.values report.values
  functions : ShowsFunctions tree owner.functions report.functions
  methods : ShowsFunctions tree owner.methods report.methods

private theorem showsParams {ids : List ScopeId} (vars : ∀ id ∈ ids, (tree.variableAt? id).isSome = true)
    (vararg : Bool) :
    ShowsParams tree ids vararg (params tree ids vararg) := by
  refine ⟨_, ?_, rfl⟩
  induction ids with
  | nil => exact .nil
  | cons id rest ih =>
    obtain ⟨var, held⟩ := Option.isSome_iff_exists.1 (vars id List.mem_cons_self)
    rw [List.filterMap_cons, held, Option.map_some]
    exact .cons ⟨var, held, rfl⟩ (ih fun other member => vars other (List.mem_cons_of_mem _ member))

private theorem showsValues {members : Members}
    (vars : ∀ {name id}, members.get? name = some id → (tree.variableAt? id).isSome = true) :
    ShowsValues tree members (valueTypes tree members) where
  keys := OrderedMap.keys_filterMapValues fun found => by rw [Option.isSome_map]; exact vars found
  types := by
    intro name id found
    obtain ⟨var, held⟩ := Option.isSome_iff_exists.1 (vars found)
    exact ⟨var, held, by rw [valueTypes, OrderedMap.get?_filterMapValues, found, Option.bind_some, held]; rfl⟩

private theorem showsFunctions {members : Members} {kind : FunctionKind}
    (shaped : ∀ {name id}, members.get? name = some id → tree.FunctionShaped kind id) :
    ShowsFunctions tree members (signatures tree members) where
  keys := by
    refine OrderedMap.keys_filterMapValues fun found => ?_
    obtain ⟨held, known, _⟩ := shaped found
    rw [Option.isSome_map, ← functionAt?, known]
    rfl
  signatures := by
    intro name id found
    obtain ⟨held, known, _, below⟩ := shaped found
    refine ⟨held, params tree held.params held.vararg, known,
      showsParams (fun param member => (below param member).1) _, ?_⟩
    rw [signatures, OrderedMap.get?_filterMapValues, found, Option.bind_some, ← functionAt?, known]
    rfl

/-- The report on a class that is in shape drops nothing of it. -/
theorem shows_ofScope? {id : ScopeId} (held : tree.classAt? id = some owner) (intact : tree.Intact owner) :
    ∃ report, ofScope? tree id = some report ∧ report.Shows tree owner := by
  refine ⟨_, by
    rw [ofScope?, held, Option.map_some], ?_, showsValues intact.fields, showsValues intact.values,
    showsFunctions intact.functions, showsFunctions intact.methods⟩
  obtain ⟨constructor, found, below⟩ := intact.constructor
  refine ⟨constructor, found, ?_⟩
  rw [← constructorAt?, found]
  exact showsParams (fun param member => (below param member).1) _

end ClassReport

/-- Whether a scope holds a class in shape with a report that shows all of it. -/
def ScopeTree.Reported (tree : ScopeTree) (id : ScopeId) : Prop :=
  ∃ owner report, tree.classAt? id = some owner ∧ tree.Intact owner ∧
    ClassReport.ofScope? tree id = some report ∧
    report.Shows tree owner

namespace Discovery
open ScopeTree

/-- When a discovery ends every class is reported whole, if no function of the top level is named like a class
and no member is in the place of its constructor. -/
theorem reported_of_spared (config : DiscoveryConfig) {program : Program} (plain : program.Plain)
    (spared : ∀ name, program.DeclaresClass config name → ¬program.DeclaresFunction name)
    (apart : ∀ name, program.DeclaresClass config name → program.DefinesFunction name "constructor" →
      config.constructorName = "constructor")
    {id : ScopeId} (member : id ∈ (discover program config).classes) :
    (discover program config).tree.Reported id := by
  obtain ⟨name, _, _, owner, held, _, regular⟩ := enlists_discover config plain spared apart id member
  have reached : Run.Reached program config (Run.start program config).seed.resolve := .resolved .seeded
  have intact := ((reached.tidy plain).tree.shaped held).intact regular
  obtain ⟨report, shown, shows⟩ := ClassReport.shows_ofScope? held intact
  exact ⟨owner, report, held, intact, shown, shows⟩

end Discovery

/-! ### What takes the place of a class or a constructor -/

namespace ScopeTree

/-- A class with a member in the place of its constructor is not in shape. -/
theorem Intact.regular {tree : ScopeTree} (formed : tree.Formed) {id : ScopeId} {owner : Class}
    (held : tree.classAt? id = some owner) (intact : tree.Intact owner) : owner.Regular := by
  obtain ⟨references, found⟩ := classAt?_eq_some held
  have slots := (formed.entity found).slots
  have place : tree.find? (DottedName.child (tree.raw id) "constructor") = some owner.constructor :=
    slots (DottedName.child (tree.raw id) "constructor", owner.constructor)
      (Discovery.mem_slots_class.2 (.inl rfl))
  -- A member of that name would be the constructor and a function at once.
  have clash : ∀ {kind : FunctionKind} {member : ScopeId}, tree.FunctionShaped kind member →
      tree.find? (DottedName.child (tree.raw id) "constructor") ≠ some member := by
    rintro kind member ⟨function, known, _⟩ there
    cases place.symm.trans there
    obtain ⟨constructor, known', _⟩ := intact.constructor
    obtain ⟨⟨references, kind⟩, present, asFunction⟩ := Option.bind_eq_some_iff.1 known
    rw [constructorAt?, present] at known'
    cases kind <;> cases asFunction
    cases known'
  have absent : ∀ {members : Members} {kind : FunctionKind},
      (∀ {name member}, members.get? name = some member → tree.FunctionShaped kind member) →
      (∀ slot ∈ placed (tree.raw id) members, tree.find? slot.1 = some slot.2) →
      members.contains "constructor" = false := by
    intro members kind shaped stand
    rw [OrderedMap.contains_eq_isSome_get?]
    cases entry : members.get? "constructor" with
    | none => rfl
    | some member =>
      refine absurd (stand (DottedName.child (tree.raw id) "constructor", member) ?_) (clash (shaped entry))
      exact List.mem_map.2 ⟨_, OrderedMap.mem_entries_of_get? entry, rfl⟩
  constructor
  · exact absent intact.functions fun slot member =>
      slots slot (Discovery.mem_slots_class.2 (.inr (.inr (.inl member))))
  · exact absent intact.methods fun slot member =>
      slots slot (Discovery.mem_slots_class.2 (.inr (.inr (.inr (.inl member)))))

end ScopeTree

namespace Discovery
open ScopeTree Relation

variable {config : DiscoveryConfig} {program : Program} {id : ScopeId} {name : String}

theorem mem_names_of_declaresClass (written : program.DeclaresClass config name) : name ∈ program.names := by
  obtain ⟨stmt, member, targets, values, value, bound, opposite, _⟩ := written
  exact named_bindings program member bound name (List.of_mem_zip opposite).1

/-! ### Declared classes -/

theorem mem_owners_declareStep {before after : State} (step : DeclareStep config program before after)
    (listed : id ∈ before.owners) : id ∈ after.owners := by
  cases step with
  | class_ base range state named written =>
    rw [declareClass_eq]
    refine mem_owners_resetBodies (.inr ?_)
    rw [State.owners, State.withTree, classes_vacate]
    exact listed
  | skip message range state => rw [State.owners, State.classes_warn]; exact listed
  | link id state => exact listed

/-- A class that a program declares is listed and stands under its name. -/
theorem owner_declared (plain : program.Plain) (written : program.DeclaresClass config name) :
    ∃ id ∈ (declared config program).owners, (declared config program).tree.child? root name = some id := by
  obtain ⟨base, range, before, passes⟩ := declared_passes config program written
  obtain ⟨formed, tidy, _⟩ := tidy_declareSteps plain passes.reached
  obtain ⟨id, enlisted, _, _, listed, _⟩ :=
    enlisted_declareClass config (plain _ (mem_names_of_declaresClass written)) base range formed tidy
  refine ⟨id, declareSteps_keep plain (fun state => id ∈ state.owners ∧
    state.tree.child? root name = some id) ?_
    (passes.reached.tail passes.made) passes.left ⟨listed, enlisted.hangs⟩⟩
  rintro before after step formed tidy free ⟨listed, hangs⟩
  exact ⟨mem_owners_declareStep step listed, links_declareStep plain step formed tidy free hangs⟩

/-! ### Classes that a function takes the place of -/

private theorem function_indexed (plain : program.Plain) (written : program.DeclaresFunction name)
    (hangs : (declared config program).tree.child? root name = some id) :
    (indexed config program).tree.child? root name = some id ∧
      ((indexed config program).tree.functionAt? id).isSome = true := by
  obtain ⟨body, range, before, inside, named, passes⟩ := indexed_passes config program written
  have params : ∀ param ∈ body.params, PlainName param := fun param member =>
    plain param (inside (params_subset body member))
  have hung := indexSteps_keep plain (fun state => state.tree.child? root name = some id)
    (fun step formed tidy hangs => links_indexStep plain step formed tidy hangs) .refl
    (passes.reached.tail passes.made) hangs
  obtain ⟨formed, tidy⟩ := tidy_indexSteps plain passes.reached
  obtain ⟨new, there, function, _⟩ := spares_declareGlobalFunction formed tidy (plain _ named) params range
  cases there.symm.trans hung
  refine indexSteps_keep plain (fun state => state.tree.child? root name = some id ∧
    (state.tree.functionAt? id).isSome = true)
    ?_ (passes.reached.tail passes.made) passes.left ⟨there, function⟩
  rintro before after step formed tidy ⟨hangs, function⟩
  refine ⟨links_indexStep plain step formed tidy hangs, ?_⟩
  rcases steady_indexStep plain step formed tidy
    (formed.tree.parent?_of_child hangs) with steady | ⟨_, _, replaced, _⟩
  · exact steady.function function
  · exact replaced

private theorem not_class_of_function {tree : ScopeTree} (function : (tree.functionAt? id).isSome = true) :
    tree.classAt? id = none := by
  cases held : tree.classAt? id with
  | none => rfl
  | some owner =>
    obtain ⟨references, found⟩ := classAt?_eq_some held
    rw [functionAt?, found] at function
    cases function

theorem owners_indexed (config : DiscoveryConfig) (plain : program.Plain) :
    (indexed config program).owners = (declared config program).owners :=
  indexSteps_keep plain (fun state => state.owners = (declared config program).owners)
    (fun step _ _ same => (owners_indexStep step).trans same) .refl (indexed_steps config program) rfl

/-- What a function of the top level is named like is no class when a discovery ends. -/
theorem classAt?_of_function (plain : program.Plain)
    (hangs : (declared config program).tree.child? root name = some id)
    (written : program.DeclaresFunction name) : (discover program config).tree.classAt? id = none := by
  obtain ⟨grows, _⟩ := grows_discover config program
  obtain ⟨there, function⟩ := function_indexed plain written hangs
  refine not_class_of_function ((grows.steady id).function ?_)
  refine (defineAll_keeps config plain
    (fun state => state.tree.child? root name = some id ∧ (state.tree.functionAt? id).isSome = true) ?_ _
    (formed_indexed config program) (tidy_indexed config plain) ⟨there, function⟩).2.2.2
  rintro owner held before after step formed tidy found ⟨hangs, function⟩
  have isClass := Option.isSome_of_eq_some found
  refine ⟨links_defineStep plain step formed tidy isClass hangs, ?_⟩
  refine (steady_defineStep plain step formed tidy isClass
    (formed.tree.parent?_of_child hangs) ?_).function function
  rintro rfl
  rw [not_class_of_function function] at found
  cases found

/-- The classes that are listed at the end are those that were declared. -/
theorem classes_discover (config : DiscoveryConfig) (plain : program.Plain) :
    (discover program config).classes = (declared config program).owners := by
  rw [(grows_discover config program).2, owners_defined config plain, owners_indexed config plain]

/-- A class that a function of the top level is named like is listed to the end, but is no class. -/
theorem class_lost (plain : program.Plain) (declares : program.DeclaresClass config name)
    (written : program.DeclaresFunction name) :
    ∃ id ∈ (discover program config).classes, (discover program config).tree.classAt? id = none := by
  obtain ⟨id, listed, hangs⟩ := owner_declared plain declares
  exact ⟨id, by rw [classes_discover config plain]; exact listed, classAt?_of_function plain hangs written⟩

/-! ### Constructors that a member takes the place of -/

/-- The definition of members leaves a class a class, with at most one more function. -/
theorem class_defineStep (plain : program.Plain) {owner : ScopeId} {ownerName : String}
    {before after : State} (step : DefineStep config program owner ownerName before after)
    (formed : before.Formed) (tidy : before.Tidy) (isClass : (before.tree.classAt? owner).isSome = true)
    {held : Class} (found : before.tree.classAt? id = some held) :
    ∃ later, after.tree.classAt? id = some later ∧ later.name = held.name ∧
      (later.Regular → held.Regular) := by
  have regular : ∀ {later : Class}, later.callables = held.callables →
      later.name = held.name ∧ (later.Regular → held.Regular) := by
    intro later same
    simp only [Class.callables, Prod.mk.injEq] at same
    refine ⟨same.1, ?_⟩
    rw [Class.Regular, Class.Regular, same.2.1, same.2.2]
    exact fun kept => kept
  by_cases same : id = owner
  · subst same
    obtain ⟨later, reached, equal | ⟨indexer, name, child, rfl, _⟩⟩ :=
      callables_defineStep plain step formed tidy found
    · exact ⟨later, reached, regular equal⟩
    · exact ⟨_, reached, by cases indexer <;> rfl, fun entered => (regular_enterFunction.1 entered).2⟩
  · obtain ⟨later, reached, equal⟩ :=
      (steady_defineStep plain step formed tidy isClass (tidy.tree.shaped found).top same).class_ found
    exact ⟨later, reached, regular equal⟩

/-- Whether a scope holds a class with a member in the place of its constructor. -/
def Irregular (id : ScopeId) (state : State) : Prop :=
  ∃ held, state.tree.classAt? id = some held ∧ ¬held.Regular

theorem Irregular.defineStep (plain : program.Plain) {owner : ScopeId} {ownerName : String}
    {before after : State} (step : DefineStep config program owner ownerName before after)
    (formed : before.Formed) (tidy : before.Tidy) (isClass : (before.tree.classAt? owner).isSome = true)
    (irregular : Irregular id before) : Irregular id after := by
  obtain ⟨held, found, clash⟩ := irregular
  obtain ⟨later, reached, _, regular⟩ := class_defineStep plain step formed tidy isClass found
  exact ⟨later, reached, fun kept => clash (regular kept)⟩

private theorem irregular_defineMembers (plain : program.Plain) {state : State} (formed : state.Formed)
    (tidy : state.Tidy) {held : Class} (found : state.tree.classAt? id = some held)
    (written : program.DefinesFunction held.name "constructor")
    (other : "constructor" ≠ config.constructorName) :
    Irregular id (defineMembers config program state id) := by
  obtain ⟨indexer, body, range, before, inside, passes⟩ :=
    defineMembers_passes config program found written other
  have known := Option.isSome_of_eq_some found
  obtain ⟨formed', tidy', isClass⟩ := tidy_defineSteps plain passes.reached formed tidy known
  obtain ⟨current, there⟩ := Option.isSome_iff_exists.1 isClass
  obtain ⟨_, child, entered⟩ := tidy_defineFunction formed' tidy' (tidy'.tree.shaped there).top
    (show PlainName "constructor" by decide) indexer (fun name member => plain name (inside member)) range
  rw [there, Option.map_some] at entered
  suffices ∀ last, ReflTransGen (DefineStep config program id held.name)
      (defineFunction id "constructor" indexer body range before) last →
      Irregular id last from this _ passes.left
  intro last left
  induction left with
  | refl => exact ⟨_, entered, fun regular => (regular_enterFunction.1 regular).1 rfl⟩
  | tail further step ih =>
    obtain ⟨formed, tidy, isClass⟩ := tidy_defineSteps plain
      ((passes.reached.tail passes.made).trans further) formed tidy known
    exact ih.defineStep plain step formed tidy isClass

/-- A class with a member that takes the place of its constructor keeps the member to the end. -/
theorem constructor_lost (plain : program.Plain) (listed : id ∈ (indexed config program).owners)
    (enlisted : (indexed config program).tree.Enlisted name id)
    (written : program.DefinesFunction name "constructor")
    (other : "constructor" ≠ config.constructorName) :
    ∃ owner, (discover program config).tree.classAt? id = some owner ∧ ¬owner.Regular := by
  obtain ⟨before, after, split⟩ := List.append_of_mem listed
  have whole : defined config program = after.foldl (defineMembers config program)
      (defineMembers config program (before.foldl (defineMembers config program)
        (indexed config program)) id) := by
    rw [defined, ← State.owners, split, List.foldl_append, List.foldl_cons]
  obtain ⟨owner, held, called, _⟩ := enlisted.held
  have begins := defineAll_keeps config plain
    (fun state => ∃ held, state.tree.classAt? id = some held ∧ held.name = name)
    (by
      intro _ _ _ _ step formed tidy found kept
      obtain ⟨held, there, called⟩ := kept
      obtain ⟨later, reached, same, _⟩ := class_defineStep plain step formed tidy
        (Option.isSome_of_eq_some found) there
      exact ⟨later, reached, same.trans called⟩)
    before (formed_indexed config program) (tidy_indexed config plain) ⟨owner, held, called⟩
  generalize before.foldl (defineMembers config program) (indexed config program) = state at whole begins
  obtain ⟨formed, tidy, current, found, same⟩ := begins
  subst same
  have entered := irregular_defineMembers plain formed tidy found written other
  have kept : (defineMembers config program state id).Formed ∧ (defineMembers config program state id).Tidy :=
    tidy_defineMembers plain formed tidy id
  have last := (defineAll_keeps config plain (Irregular id)
    (fun step formed tidy found irregular => irregular.defineStep plain step formed tidy
      (Option.isSome_of_eq_some found))
    after kept.1 kept.2 entered).2.2
  rw [← whole] at last
  obtain ⟨owner, held, clash⟩ := last
  obtain ⟨later, reached, callables⟩ := ((grows_discover config program).1.steady id).class_ held
  simp only [Class.callables, Prod.mk.injEq] at callables
  refine ⟨later, reached, ?_⟩
  rw [Class.Regular, callables.2.1, callables.2.2]
  exact clash

/-- Every class is in shape when a discovery ends, and its report drops nothing, exactly if no class has
the name of a function of the top level, and none has a function in the place of its constructor. -/
theorem classes_reported_iff (config : DiscoveryConfig) {program : Program} (plain : program.Plain) :
    (∀ id ∈ (discover program config).classes, (discover program config).tree.Reported id) ↔
      ∀ name, program.DeclaresClass config name → ¬program.DeclaresFunction name ∧
        (program.DefinesFunction name "constructor" → config.constructorName = "constructor") := by
  constructor
  · intro reported
    have spared : ∀ name, program.DeclaresClass config name → ¬program.DeclaresFunction name := by
      intro name declares written
      obtain ⟨id, listed, lost⟩ := class_lost plain declares written
      obtain ⟨owner, _, held, _⟩ := reported id listed
      rw [lost] at held
      cases held
    intro name declares
    refine ⟨spared name declares, fun written => Classical.byContradiction fun other => ?_⟩
    obtain ⟨id, listed, hangs⟩ := owner_declared plain declares
    have hung := indexSteps_keep plain (fun state => state.tree.child? root name = some id)
      (fun step formed tidy hangs => links_indexStep plain step formed tidy hangs) .refl
      (indexed_steps config program) hangs
    rw [← owners_indexed config plain] at listed
    obtain ⟨called, _, enlisted, _⟩ := registers_indexed config plain spared id listed
    obtain ⟨_, rfl⟩ := (formed_indexed config program).tree.child_unique hung enlisted.hangs
    obtain ⟨owner, held, clash⟩ := constructor_lost plain listed enlisted written fun same => other same.symm
    have reached : Run.Reached program config (Run.start program config).seed.resolve := .resolved .seeded
    rw [← owners_defined config plain, ← (grows_discover config program).2] at listed
    obtain ⟨also, _, found, intact, _⟩ := reported id listed
    cases held.symm.trans found
    exact clash (intact.regular reached.formed.tree held)
  · intro free id member
    exact reported_of_spared config plain (fun name declares => (free name declares).1)
      (fun name declares => (free name declares).2)
      member

/-- A cell has a constructor with one parameter, and no name of its program clashes with the class. -/
theorem cell_reported : Run.cellProgram.Plain ∧ (discover Run.cellProgram .default).classes = [⟨1⟩] ∧
    (discover Run.cellProgram .default).tree.Reported ⟨1⟩ := by
  have plain : Run.cellProgram.Plain := by decide
  have classes : (discover Run.cellProgram .default).classes = [⟨1⟩] := by decide +kernel
  refine ⟨plain, classes, (classes_reported_iff .default plain).2 (fun name _ => ⟨?_, ?_⟩) ⟨1⟩ ?_⟩
  · rintro ⟨stmt, member, written, isLocal, body, kind, named⟩
    simp only [Run.cellProgram, List.mem_cons, List.not_mem_nil, or_false] at member
    rcases member with rfl | rfl <;> cases kind
    cases named
  · rintro ⟨stmt, member, form⟩
    simp only [Run.cellProgram, List.mem_cons, List.not_mem_nil, or_false] at member
    rcases form with ⟨indexer, body, kind⟩ | ⟨targets, values, target, value, object, body,
      kind, opposite, reads, _⟩
    · rcases member with rfl | rfl
      · cases kind
      · cases indexer <;> simp [FunctionName.ofMember] at kind
    · rcases member with rfl | rfl <;> cases kind
      cases List.mem_singleton.1 opposite
      cases reads
  · rw [classes]
    exact List.mem_singleton_self _

/-- A class whose name a function takes below its declaration. -/
def replacedClass : Program where
  body := [
    ⟨.assign [.name "Foo"] [.methodCall (.name "ISBaseObject") "derive" [.string "Foo"]], ⟨1, 0, 1, 32⟩⟩,
    ⟨.function (.plain "Foo") false ⟨[], false, []⟩, ⟨2, 0, 2, 18⟩⟩]

/-- The class is listed, but its scope holds the function. -/
theorem function_replaces_class :
    (discover replacedClass .default).classes = [⟨1⟩] ∧
    (discover replacedClass .default).tree.classAt? ⟨1⟩ = none ∧
      discoverFirst? replacedClass .default = none := by
  decide +kernel

end Discovery
end LuaClasses
