import LuaClasses.Proofs.FieldTypes
import LuaClasses.Proofs.MemberFunctions
import LuaClasses.Proofs.ReturnAgreement

/-! The functions of classes when a discovery ends. What the last definition of a function has made of it
lasts through all sweeps: no value takes its name, and without return statements its body gives it
nothing. -/

namespace LuaClasses
namespace ScopeTree

/-- A function of a class, on the scope below the class by a name. -/
structure HasFunction (tree : ScopeTree) (owner id : ScopeId) (name : String) : Prop where
  isClass : (tree.classAt? owner).isSome = true
  hangs : tree.child? owner name = some id
  function : (tree.functionAt? id).isSome = true

variable {tree before after : ScopeTree} {owner id : ScopeId} {name : String}

theorem HasFunction.grows (has : before.HasFunction owner id name) (grows : before.Grows after) :
    after.HasFunction owner id name := by
  have outline := congrArg Option.isSome (grows.classAt? owner)
  rw [Option.isSome_map, Option.isSome_map] at outline
  obtain ⟨held, found⟩ := Option.isSome_iff_exists.1 has.function
  obtain ⟨later, reached, _⟩ := Discovery.Grows.functionAt? grows found
  exact ⟨outline.trans has.isClass, grows.links has.hangs, Option.isSome_of_eq_some reached⟩

end ScopeTree

namespace Discovery
open ScopeTree

variable {config : DiscoveryConfig} {program : Program} {owner id : ScopeId} {name : String}

/-- Of the definitions of a function one is the last. -/
theorem exists_definition? {base : String} (defines : program.DefinesFunction base name) :
    ∃ indexer body, program.definition? base name = some (indexer, body) := by
  obtain ⟨step, listed, defined⟩ : ∃ step ∈ program.memberSteps base,
      (step.definition? name).isSome = true := by
    obtain ⟨⟨kind, range⟩, member, form⟩ := defines
    obtain ⟨indexer, body, same⟩ | ⟨targets, values, target, value, object, body, same, both,
      reads, named, function⟩ := form
    · cases same
      refine ⟨.function indexer name body range, List.mem_flatMap.2 ⟨_, member, ?_⟩, by
        simp [MemberStep.definition?]⟩
      simp only [memberSteps, FunctionName.member?_eq_some.2 rfl, if_true, List.mem_singleton]
    · cases same
      refine ⟨.function .dot name body range, List.mem_flatMap.2 ⟨_, member, ?_⟩, by
        simp [MemberStep.definition?]⟩
      refine List.mem_filterMap.2 ⟨(target, some value), mem_opposite_of_zip both, ?_⟩
      simp only [targetStep?, reads, named, if_true, Option.map_some, function]
  have known : (program.definition? base name).isSome = true :=
    List.findSome?_isSome_iff.2 ⟨step, List.mem_reverse.2 listed, defined⟩
  obtain ⟨⟨indexer, body⟩, found⟩ := Option.isSome_iff_exists.1 known
  exact ⟨indexer, body, found⟩

theorem mem_initialReturns {stmts : List Stmt} {type : LuaType}
    (collected : type ∈ collectReturnTypes stmts) :
    type ∈ initialReturns stmts := by
  unfold initialReturns
  split
  next => exact collected
  next => exact TypeSet.mem_insert.2 (.inr collected)

private theorem initialReturns_of_silent {stmts : List Stmt} (silent : hasReturn stmts = false) :
    initialReturns stmts = .single .void := by
  rw [initialReturns, silent, collectReturnTypes, hasReturn_eq_false_iff.1 silent]
  rfl

/-! ### Steps of bodies -/

section Steps

variable {state : State} {tour : Tour} {site : Site} {around scope : ScopeId}
  (turn : Turn config program state tour site around scope) (plain : program.Plain)
  (has : state.tree.HasFunction owner id name) (dotless : '.' ∉ name.toList)
include turn plain has dotless

/-- No name in a body leads to a function of a class. -/
theorem elsewhere_turn : Elsewhere state.tree id scope site.action.names := by
  have formed := (turn.moment.swept plain).formed.tree
  have tidy := (turn.tidy plain).tree
  have hosts := turn.hosts plain
  obtain ⟨held, found⟩ := Option.isSome_iff_exists.1 has.isClass
  have shape := tidy.shaped found
  have path := raw_of_find? (formed.find?_child has.hangs)
  obtain ⟨node, present, _⟩ := Option.bind_eq_some_iff.1 shape.top
  have inside := index_lt_of_node? present
  refine ⟨fun called member same => ?_, fun other nearest called member same => ?_⟩
  · obtain ⟨same, _⟩ := DottedName.child_inj dotless (turn.names plain called member).1 (path.symm.trans same)
    -- A step in the class itself would not stand in a body below a class.
    have equal : owner = scope := by
      have here := formed.find?_raw inside
      rw [same, formed.find?_raw (index_lt_of_find? turn.found)] at here
      exact (Option.some.inj here).symm
    subst equal
    obtain ⟨other, reached⟩ := Option.isSome_iff_exists.1 hosts.isClass
    have within := turn.within
    have outer : around ∈ state.tree.ancestors owner := by
      refine mem_ancestors_trans formed ?_ within
      rw [ancestors_of_parent? formed hosts.below]
      exact List.mem_cons_of_mem _ (self_mem_ancestors _ _)
    obtain rfl := formed.eq_of_mem_ancestors shape.top (tidy.shaped reached).top
      (self_mem_ancestors _ _) outer
    exact formed.not_around hosts.below within
  · obtain ⟨same, _⟩ := DottedName.child_inj dotless (turn.names plain called member).1 (path.symm.trans same)
    obtain ⟨_, there, _⟩ := classNode_of_nearestClass nearest
    have plainFields : '.' ∉ fieldsName.toList := by decide
    have hangs := tidy.dotless.find?_child formed plainFields (index_lt_of_node? there)
    rw [← same, formed.find?_raw inside] at hangs
    exact shape.ordinary other hangs.symm

private theorem skirts_turn
    (silent : ∀ values, site.action = .return_ values → tour.frame.function ≠ some id) :
    Skirts id state.tree (site.run config tour.frame state).1.tree := by
  have formed := (turn.moment.swept plain).formed.tree
  have elsewhere : Elsewhere state.tree id (tour.frame.within scope).scope site.action.names :=
    elsewhere_turn turn plain has dotless
  rw [turn.run_eq]
  exact skirts_action formed (index_lt_of_find? turn.found) config elsewhere silent site.range

/-- No step lists a function among the values of a class. -/
theorem unlisted_turn {called : String} (unlisted : (state.tree.localsOf owner).get? called ≠ some id) :
    ((site.run config tour.frame state).1.tree.localsOf owner).get? called ≠ some id := by
  by_cases returns : ∃ values, site.action = .return_ values
  · obtain ⟨values, returns⟩ := returns
    have same : (site.run config tour.frame state).1.tree.localsOf owner = state.tree.localsOf owner := by
      rw [turn.run_eq, returns, Action.run]
      split
      next => rfl
      next => exact localsOf_applyEvidence _ _ _ _
    rw [same]
    exact unlisted
  · have skirts := skirts_turn turn plain has dotless fun values same => absurd ⟨values, same⟩ returns
    obtain ⟨_, _, names⟩ := skirts.function has.function
    exact fun listed => unlisted (names owner called listed)

end Steps

/-! ### The propagation of types -/

private theorem localsOf_propagate (tree : ScopeTree) (scope : ScopeId) :
    (propagate tree).1.localsOf scope = tree.localsOf scope := by
  rw [propagate_eq]
  refine runEach_keeps (fun after : ScopeTree => after.localsOf scope = tree.localsOf scope)
    (fun target _ after same => ?_) rfl
  exact (localsOf_propagateInto after target scope).trans same

/-- What has no references takes nothing in from others. -/
theorem intake?_propagate {tree : ScopeTree} {types : Option TypeSet}
    (bare : tree.intake? id = some (.empty, types)) :
    (propagate tree).1.intake? id = some (.empty, types) := by
  rw [propagate_eq]
  refine runEach_keeps (fun tree : ScopeTree => tree.intake? id = some (.empty, types))
    (fun target _ tree bare => ?_) bare
  by_cases same : id = target
  · obtain ⟨entity, held, taken⟩ := Option.map_eq_some_iff.1 bare
    rw [← same, propagateInto_of_bare held (congrArg Prod.fst taken)]
    exact bare
  · exact (feeds_propagateInto tree target id same).trans bare

/-! ### Whole discoveries -/

section Whole

variable {bodies : ClassBodies} {held : Class} {indexer : Indexer} {body : FunctionBody}

/-- What a function returns is returned in the body of its last definition. -/
theorem returned_of_definition? (dotless : ∀ name ∈ program.names, '.' ∉ name.toList)
    (listed : bodies ∈ (defined config program).classes)
    (found : (defined config program).tree.classAt? bodies.owner = some held)
    (hangs : (defined config program).tree.child? bodies.owner name = some id)
    (defined : program.definition? held.name name = some (indexer, body)) {tour : Tour}
    (made : tour ∈ tours config (Discovery.defined config program))
    (known : tour.frame.function = some id) {site : Site} (member : site ∈ tour.sites)
    {values : List Expr} (returns : site.action = .return_ values) :
    values.head? ∈ returnsOf body.body := by
  have roster := roster_defined config dotless
  have formed := roster.formed.tree
  have entered := roster.entered bodies listed
  obtain ⟨_, _, among⟩ := List.mem_flatMap.1 made
  have scope := frame_function among known
  have own := own_tours dotless listed made (scope ▸ formed.parent?_of_child hangs)
  have same : ∀ {kind : Indexer} {called : String} {function : FunctionBody},
    (called, id, function) ∈ (bodies.listed kind).entries →
      (Discovery.defined config program).tree.child? bodies.owner called = some id → function = body := by
    intro kind called function member below
    obtain ⟨_, rfl⟩ := formed.child_unique below hangs
    obtain ⟨_, last⟩ := (entered.member_iff found kind).1 ⟨id, member⟩
    cases defined.symm.trans last
    rfl
  rcases mem_toursOf.1 own with ⟨_, _, _, _, rfl⟩ | ⟨called, _, function, listed, rfl⟩ | ⟨called,
    _, function, listed, rfl⟩
  · cases known
  · cases known
    have equal : function = body := @same .dot called function listed
      (entered.housed _ (List.mem_append_left _ listed))
    rw [← equal]
    exact returned_of_mem_sites member returns
  · cases known
    have equal : function = body := @same .colon called function listed
      (entered.housed _ (List.mem_append_right _ listed))
    rw [← equal]
    exact returned_of_mem_sites member returns

private theorem Defined.hasFunction {tree : ScopeTree}
    (defined : Defined tree owner held indexer name body id) (found : tree.classAt? owner = some held) :
    tree.HasFunction owner id name := by
  obtain ⟨hangs, _, _, built, _⟩ := defined
  refine ⟨Option.isSome_of_eq_some found, hangs, ?_⟩
  rw [functionAt?, built]
  rfl

variable (plain : program.Plain) (has : (Discovery.defined config program).tree.HasFunction owner id name)
  (proper : '.' ∉ name.toList)
include plain has proper

private theorem unlisted_discover {called : String}
    (unlisted : ((defined config program).tree.localsOf owner).get? called ≠ some id) :
    ((discover program config).tree.localsOf owner).get? called ≠ some id := by
  refine keeps_discover plain (fun state => (state.tree.localsOf owner).get? called ≠ some id) ?_ ?_ ?_
    unlisted
  · exact fun turn unlisted => unlisted_turn turn plain
      (has.grows (turn.moment.swept plain).grows.tree) proper unlisted
  · exact fun _ unlisted listed => unlisted
      ((congrArg (OrderedMap.get? · called) (localsOf_propagate _ owner)).symm.trans listed)
  · intro state kind message range unlisted
    rw [State.tree_warn]
    exact unlisted

/-- A function whose body returns nothing keeps what it was made with. -/
theorem intake?_discover {types : Option TypeSet}
    (bare : (defined config program).tree.intake? id = some (.empty, types))
    (silent : ∀ tour ∈ tours config (defined config program), tour.frame.function =
      some id → ∀ site ∈ tour.sites,
      ∀ values, site.action ≠ .return_ values) :
    (discover program config).tree.intake? id = some (.empty, types) := by
  refine keeps_discover plain (fun state => state.tree.intake? id = some (.empty, types)) ?_ ?_ ?_ bare
  · intro state tour site around scope turn bare
    have has := has.grows (turn.moment.swept plain).grows.tree
    have skirts := skirts_turn turn plain has proper fun values returns known =>
      silent tour turn.made known site turn.member values returns
    exact (skirts.function has.function).2.1.trans bare
  · exact fun _ bare => intake?_propagate bare
  · intro state kind message range bare
    rw [State.tree_warn]
    exact bare

end Whole

private theorem formed_discover (config : DiscoveryConfig) (plain : program.Plain) :
    (discover program config).tree.Formed :=
  (((Moment.seeded config program).sweepUntilIdle plain config.maxSweeps 0).swept plain).formed.tree

theorem Class.Lists.later {tree : ScopeTree} (formed : tree.Formed) {held later : Class}
    {indexer : Indexer} (lists : Class.Lists held indexer name id)
    (outline : later.outline = held.outline) (found : tree.classAt? owner = some later)
    (hangs : tree.child? owner name = some id) (unlisted : (tree.localsOf owner).get? name ≠ some id) :
    Class.Lists later indexer name id := by
  refine ⟨?_, ?_, ?_⟩
  · exact (congrArg (fun held : Class => held.functions.get? name) outline).trans lists.functions
  · exact (congrArg (fun held : Class => held.methods.get? name) outline).trans lists.methods
  · obtain ⟨references, held⟩ := classAt?_eq_some found
    rw [localsOf_of_held held] at unlisted
    refine Option.eq_none_iff_forall_ne_some.2 fun value listed => unlisted ?_
    have entry := OrderedMap.mem_entries_of_get? listed
    have there := (formed.entity held).locals _ (DottedName.child (tree.raw owner) name, value)
      (List.mem_map_of_mem entry)
    cases there.symm.trans (formed.find?_child hangs)
    exact listed

/-- What the scope of a function is at the end, if a definition has made it at the beginning. -/
theorem Built.later {before after : ScopeTree} {indexer : Indexer} {body : FunctionBody}
    {params : List ScopeId} (built : Built before id name indexer body params)
    (grows : before.Grows after) :
    ∃ function, after.functionAt? id = some function ∧
      List.Forall₂ (fun param name => ∃ var, after.variableAt? param = some var ∧ var.name = name)
        function.params body.params ∧
      function.vararg = body.vararg ∧ function.hasReturn = hasReturn body.body ∧
      ∀ type ∈ initialReturns body.body, type ∈ function.returns := by
  obtain ⟨function, params⟩ := built
  have found : before.functionAt? id = some _ := congrArg (Option.bind · Entity.asFunction?) function
  obtain ⟨later, reached, outline, more⟩ := Grows.functionAt? grows found
  simp only [EntityKind.outline, EntityKind.function.injEq, Function.mk.injEq] at outline
  obtain ⟨_, _, same, vararg, _, _, returns⟩ := outline
  refine ⟨later, reached, ?_, vararg, returns, more⟩
  rw [same]
  refine params.imp fun param name known => ?_
  obtain ⟨⟨references, kind⟩, there, grown⟩ := grows.entity? known.2
  cases kind with
  | «variable» var =>
    have outline : EntityKind.variable { var with types := .empty } = .variable
        { (Variable.new name none) with types := .empty } :=
      grown.outline
    obtain ⟨same, _⟩ := Variable.mk.inj (EntityKind.variable.inj outline)
    exact ⟨var, congrArg (Option.bind · Entity.asVariable?) there, same⟩
  | _ => cases grown.outline

/-- Of all definitions of a function of a class the last one stands when the discovery ends, whatever
values its name is given before and after. -/
theorem last_definition_stands (config : DiscoveryConfig) (plain : program.Plain) {id : ScopeId}
    (listed : id ∈ (discover program config).classes) {owner : Class}
    (found : (discover program config).tree.classAt? id = some owner) {name : String}
    (other : name ≠ config.constructorName) (apart : name ≠ "constructor")
    (defines : program.DefinesFunction owner.name name) :
    ∃ indexer body scope function, program.definition? owner.name name = some (indexer, body) ∧
      Class.Lists owner indexer name scope ∧ (discover program config).tree.functionAt? scope = some
        function ∧
      List.Forall₂ (fun param name => ∃ var, (discover program config).tree.variableAt? param =
        some var ∧ var.name = name)
        function.params body.params ∧
      function.vararg = body.vararg ∧ function.hasReturn = hasReturn body.body ∧
      (∀ type ∈ collectReturnTypes body.body, type ∈ function.returns) ∧
      (hasReturn body.body = false → function.returns = .single .void) := by
  have dotless := fun name member => (plain name member).1
  obtain ⟨bodies, member, rfl, held, reached, outline⟩ := exists_bodies_of_class listed found
  have called : held.outline.name = owner.outline.name := congrArg Class.name outline
  change held.name = owner.name at called
  obtain ⟨indexer, body, known⟩ := exists_definition? defines
  have entered := (roster_defined config dotless).entered bodies member
  obtain ⟨scope, entry⟩ := (entered.member_iff reached indexer).2 ⟨other, called ▸ known⟩
  obtain ⟨range, step⟩ := exists_step_of_lastDefinition? known
  have proper : PlainName name := plain name (names_memberSteps step List.mem_cons_self)
  have defined := matched_defined config dotless bodies member held reached indexer name scope body
    (fun reserved => reserved.elim apart proper.2) ((OrderedMap.get?_eq_some_iff _ _ _).2 entry)
  have has := defined.hasFunction reached
  obtain ⟨hangs, lists, params, built⟩ := defined
  obtain ⟨grows, _⟩ := grows_discover config program
  obtain ⟨function, there, same, vararg, returns, gathered⟩ := built.later grows
  refine ⟨indexer, body, scope, function, known, ?_, there, same, vararg, returns,
    fun type collected => ?_, fun silent => ?_⟩
  · refine lists.later (formed_discover config plain) outline.symm found (grows.links hangs) ?_
    refine unlisted_discover plain has proper.1 fun listed => ?_
    obtain ⟨references, present⟩ := classAt?_eq_some reached
    rw [localsOf_of_held present] at listed
    cases lists.values.symm.trans listed
  · exact gathered type (mem_initialReturns collected)
  · have bare : (Discovery.defined config program).tree.intake? scope =
      some (.empty, some (.single .void)) := by
      rw [intake?, built.function]
      simp [Entity.gathered?, Entity.new, initialReturns_of_silent silent]
    have kept := intake?_discover plain has proper.1 bare
        fun tour made function site inside values returns => by
      have value := returned_of_definition? dotless member reached hangs (called ▸ known)
        made function inside returns
      rw [hasReturn_eq_false_iff.1 silent] at value
      cases value
    obtain ⟨⟨references, kind⟩, present, asFunction⟩ := Option.bind_eq_some_iff.1 there
    obtain rfl : kind = .function function := by cases kind <;> cases asFunction; rfl
    rw [intake?, present] at kept
    exact Option.some.inj (congrArg Prod.snd (Option.some.inj kept))

/-- A class whose member is a value, a method, a value, a function without return statements, and a value. -/
def resized : Program where
  body := [
    ⟨.assign [.name "Foo"] [.methodCall (.name "ISBaseObject") "derive" []], ⟨1, 0, 1, 28⟩⟩,
    ⟨.assign [.member (.name "Foo") "size"] [.number "1"], ⟨2, 0, 2, 12⟩⟩,
    ⟨.function (.ofMember "Foo" .colon "size") false
      ⟨["by"], false, [⟨.return_ [.name "by"], ⟨3, 22, 3, 31⟩⟩]⟩, ⟨3, 0, 3, 35⟩⟩,
    ⟨.assign [.member (.name "Foo") "size"] [.table []], ⟨4, 0, 4, 13⟩⟩,
    ⟨.assign [.member (.name "Foo") "size"] [.function ⟨["width", "height"], true, setField⟩], ⟨5, 0, 5, 56⟩⟩,
    ⟨.assign [.member (.name "Foo") "size"] [.string "large"], ⟨6, 0, 6, 14⟩⟩]

theorem last_definition_stands_resized :
    ∃ owner scope function, (discover resized .default).tree.classAt? ⟨1⟩ = some owner ∧
      owner.functions.get? "size" = some scope ∧ owner.methods.get? "size" = none ∧
        owner.values.get? "size" = none ∧
      (discover resized .default).tree.functionAt? scope = some function ∧ function.params.length = 2 ∧
      function.vararg = true ∧ function.returns = .single .void := by
  have plain : resized.Plain := by decide +kernel
  have listed : ⟨1⟩ ∈ (discover resized .default).classes := by decide +kernel
  have named : ((discover resized .default).tree.classAt? ⟨1⟩).map Class.name =
    some "Foo" := by decide +kernel
  obtain ⟨owner, found, name⟩ := Option.map_eq_some_iff.1 named
  have defines : resized.DefinesFunction owner.name "size" := by
    rw [name]
    exact ⟨_, List.mem_cons_of_mem _ (List.mem_cons_of_mem _ List.mem_cons_self), .inl ⟨_, _, rfl⟩⟩
  obtain ⟨indexer, body, scope, function, known, lists, there, params, vararg, _, _, silent⟩ :=
    last_definition_stands .default plain listed found (by decide) (by decide) defines
  have last : resized.definition? "Foo" "size" = some (.dot, ⟨["width", "height"], true, setField⟩) := rfl
  rw [name, last] at known
  cases known
  refine ⟨owner, scope, function, found, lists.functions, lists.methods, lists.values, there,
    params.length_eq, vararg, silent rfl⟩

end Discovery
end LuaClasses
