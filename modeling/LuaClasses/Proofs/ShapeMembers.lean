import LuaClasses.Proofs.ShapeDeclare

/-! The definition of members with plain names keeps the shape of classes. A function takes the place
of what its name stood for, and what a constructor takes the place of is dropped first. -/

namespace LuaClasses.Discovery
open ScopeTree Relation

section EnterFunction

variable {held : Class} {indexer : Indexer} {name called : String} {id member : ScopeId}

@[simp] theorem fields_enterFunction : (Class.enterFunction held indexer name id).fields = held.fields := by
  cases indexer <;> rfl

@[simp] theorem constructor_enterFunction :
    (Class.enterFunction held indexer name id).constructor = held.constructor := by
  cases indexer <;> rfl

theorem values_enterFunction :
    (Class.enterFunction held indexer name id).values = held.values.erase name := by
  cases indexer <;> rfl

theorem get?_functions_enterFunction (called : String) :
    (Class.enterFunction held indexer name id).functions.get? called =
      if called = name then if indexer = .dot then some id else none else held.functions.get? called := by
  cases indexer <;> simp only [Class.enterFunction, OrderedMap.get?_insert, OrderedMap.get?_erase] <;>
    split <;> simp

theorem get?_methods_enterFunction (called : String) :
    (Class.enterFunction held indexer name id).methods.get? called =
      if called = name then if indexer = .colon then some id else none else held.methods.get? called := by
  cases indexer <;> simp only [Class.enterFunction, OrderedMap.get?_insert, OrderedMap.get?_erase] <;>
    split <;> simp

/-- A class stays regular unless a function takes the name of the constructor. -/
theorem regular_enterFunction :
    (Class.enterFunction held indexer name id).Regular ↔ name ≠ "constructor" ∧ held.Regular := by
  simp only [Class.Regular, OrderedMap.contains_eq_isSome_get?, get?_functions_enterFunction,
    get?_methods_enterFunction]
  by_cases same : "constructor" = name
  · cases indexer <;> simp [same]
  · simp [same, Ne.symm same]

end EnterFunction

variable {tree placed : ScopeTree} {owner id : ScopeId}

theorem classAt?_modifyClass_self (tree : ScopeTree) (id : ScopeId) (f : Class → Class) :
    (tree.modifyClass id f).classAt? id = (tree.classAt? id).map f := by
  rw [classAt?, ScopeTree.modifyClass, entity?_modifyEntity, if_pos rfl, classAt?]
  cases tree.entity? id with
  | none => rfl
  | some entity =>
    obtain ⟨references, kind⟩ := entity
    cases kind <;> rfl

/-- A function takes the place of what stood at its name, and the other members of its class are as they
were. -/
theorem membersShaped_enterFunction {last : ScopeTree} {held : Class} {indexer : Indexer} {name : String}
    (aside : Aside tree last owner id) (plain : PlainName name)
    (hangs : tree.child? owner name = some id)
    (constructor : tree.child? owner "constructor" = some held.constructor)
    (apart : name ≠ "constructor") (function : last.FunctionShaped (FunctionKind.ofIndexer indexer) id)
    (members : tree.MembersShaped owner held) :
    last.MembersShaped owner (Class.enterFunction held indexer name id) := by
  have formed := aside.formed
  have new : last.child? owner name = some id ∧ last.FunctionShaped (FunctionKind.ofIndexer indexer) id :=
    ⟨aside.links hangs, function⟩
  refine ⟨?_, fun {called value} entry => ?_, fun {called function} entry => ?_,
    fun {called method} entry => ?_,
    fun {called} entry => ?_⟩
  · rw [constructor_enterFunction]
    have above := formed.parent?_of_child constructor
    have different : held.constructor ≠ id :=
      fun equal => apart (formed.child_unique hangs (equal ▸ constructor)).2
    exact members.constructor.carry formed aside.last aside.links (aside.child_lasts hangs above different).1
      fun _ parented => aside.grandchild_lasts hangs above different parented
  · rw [values_enterFunction, OrderedMap.get?_erase] at entry
    split at entry
    next => cases entry
    next different =>
      obtain ⟨below, var⟩ := members.values entry
      refine ⟨aside.links below, (aside.child_lasts hangs
        (formed.parent?_of_child below) ?_).1.variableAt? var⟩
      exact fun equal => different (formed.child_unique below (equal ▸ hangs)).2
  · rw [get?_functions_enterFunction] at entry
    split at entry
    next equal =>
      subst equal
      cases indexer <;> cases entry
      exact new
    next different =>
      obtain ⟨below, held⟩ := members.functions entry
      exact aside.functionShaped hangs below different held
  · rw [get?_methods_enterFunction] at entry
    split at entry
    next equal =>
      subst equal
      cases indexer <;> cases entry
      exact new
    next different =>
      obtain ⟨below, held⟩ := members.methods entry
      exact aside.functionShaped hangs below different held
  · simp only [OrderedMap.contains_eq_isSome_get?, get?_functions_enterFunction,
      get?_methods_enterFunction] at entry
    by_cases equal : called = name
    · rw [equal]
      exact plain.2
    · rw [if_neg equal, if_neg equal, ← OrderedMap.contains_eq_isSome_get?, ← OrderedMap.contains_eq_isSome_get?] at entry
      exact members.named entry

/-- A class with a function among its members is in shape if it was before, but for that function. -/
theorem tidy_enterFunction (tidy : tree.Tidy) {name : String} (plain : PlainName name)
    (hangs : tree.child? owner name = some id) (but : placed.TidyBut owner)
    (aside : ∀ owner, Aside tree placed owner id) {indexer : Indexer}
    (function : placed.FunctionShaped (FunctionKind.ofIndexer indexer) id) :
    (placed.modifyClass owner fun held => Class.enterFunction held indexer name id).Tidy ∧
      (placed.modifyClass owner fun held => Class.enterFunction held indexer name id).classAt? owner =
        (tree.classAt? owner).map fun held => Class.enterFunction held indexer name id := by
  have formed := (aside owner).formed
  obtain ⟨_, _, _, _, older, _⟩ := formed.child hangs
  have third := but.modifyClass (f := fun held => Class.enterFunction held indexer name id) fun held fits =>
    ⟨fun slot member => (slots_enterFunction member).elim
      (fun new => new ▸ but.formed.find?_child ((aside owner).links hangs)) (fits.slots slot), by
      cases indexer <;> exact fits.params⟩
  have same : SameShape (placed.modifyClass owner fun held => Class.enterFunction held indexer name id)
      placed :=
    sameShape_modifyEntity placed owner _
  have lasts := Lasts.of_modifyClass placed owner (fun held => Class.enterFunction held indexer name id)
  have changed : ∀ other, other ≠ owner →
      (placed.modifyClass owner fun held => Class.enterFunction held indexer name id).entity? other =
      placed.entity? other := by
    intro other apart
    rw [ScopeTree.modifyClass, entity?_modifyEntity, if_neg apart]
  -- The class itself is not below its new member, so it is the one that was there before.
  have kept : placed.classAt? owner = tree.classAt? owner := by
    rw [classAt?, (aside id).others (fun equal => Nat.lt_irrefl _ (equal ▸ older))
      ((aside owner).not_around_owner hangs)]
    rfl
  refine ⟨⟨third.dotless, third.shaped.shaped fun {later} found => ?_⟩, by
    rw [classAt?_modifyClass_self, kept]⟩
  obtain ⟨held, known, rfl⟩ := classAt?_modifyClass found
  rw [if_pos rfl]
  generalize placed.modifyClass owner (fun held => Class.enterFunction held indexer name id) = last
    at third same lasts changed found ⊢
  have old : tree.classAt? owner = some held := kept.symm.trans known
  have shape := tidy.shaped old
  have both : Aside tree last owner id :=
    (aside owner).trans ⟨but.formed, third.formed, same.links, fun apart _ => changed _ apart⟩
  have inside := index_lt_of_entity? (classAt?_eq_some old).choose_spec
  refine ⟨third.top, shape.ordinary.links formed third.formed both.links inside, ?_, fun regular => ?_⟩
  · exact both.fieldsShaped hangs plain.2 fields_enterFunction shape.fields
  · obtain ⟨apart, regular⟩ := regular_enterFunction.1 regular
    exact membersShaped_enterFunction both plain hangs (formed.child?_constructor tidy.dotless old) apart
      (function.carry but.formed third.formed same.links (lasts id) fun param _ => lasts param)
      (shape.members regular)

theorem mem_all {bodies : ClassBodies} {body : FunctionBody} :
    body ∈ bodies.all ↔ bodies.constructor = some body ∨ ∃ entry ∈ bodies.members, entry.2.2 = body := by
  simp [ClassBodies.all, ClassBodies.members, OrderedMap.values, or_and_right, exists_or]

theorem mem_all_enterFunction {bodies : ClassBodies} {indexer : Indexer} {name : String} {id : ScopeId}
    {body other : FunctionBody} (member : other ∈ (bodies.enterFunction indexer name id body).all) :
    other = body ∨ other ∈ bodies.all := by
  rcases mem_all.1 member with constructor | ⟨entry, present, rfl⟩
  · exact .inr (mem_all.2 (.inl (by cases indexer <;> exact constructor)))
  · rcases mem_members_enterFunction present with rfl | old
    · exact .inl rfl
    · exact .inr (mem_all.2 (.inr ⟨entry, old, rfl⟩))

/-- A member is made below its class, its scope is vacated, and its function is placed there. -/
theorem placed_member {state : State} (formed : state.Formed) (tidy : state.Tidy)
    (top : state.tree.parent? owner = some root) {name : String} (plain : PlainName name)
    (indexer : Indexer) {body : FunctionBody} (params : ∀ name ∈ body.params, PlainName name)
    (message : String) (range : Range) :
    let made := state.tree.internChild owner name .function
    let cleared := (state.withTree made.1).vacate made.2 message range
    let placed := placeFunction cleared.tree made.2 name (FunctionKind.ofIndexer indexer) body
    state.tree.Hung made.1 owner name made.2 ∧ made.1.TidyBut owner ∧ placed.TidyBut owner ∧
      (∀ other, Aside made.1 placed other made.2) ∧
      placed.FunctionShaped (FunctionKind.ofIndexer indexer) made.2 := by
  intro made cleared placed
  have inside := (tidy.tree.but formed.tree top).index_lt
  have hung := hung_internChild formed.tree tidy.tree inside plain.1 .function
  have first := hung.tidy.but hung.formed ((hung.grows.parent? inside).trans top)
  have below : owner ∈ made.1.ancestors made.2 := by
    rw [ancestors_of_parent? hung.formed (hung.formed.parent?_of_child hung.hangs)]
    exact List.mem_cons_of_mem _ (self_mem_ancestors _ _)
  have same := sameShape_vacate (state.withTree made.1) made.2 message range
  obtain ⟨second, vacated⟩ := tidyBut_vacate (state.withTree made.1) first below message range
  have around : owner ∈ cleared.tree.ancestors made.2 := by rw [same.ancestors]; exact below
  have size : made.2.index < cleared.tree.size :=
    same.size ▸ index_internChild .function state.tree owner name
  obtain ⟨third, aside, function⟩ := placed_function params second around size name
    (FunctionKind.ofIndexer indexer)
  exact ⟨hung, first, third, fun other => (vacated other).trans (aside other), function⟩

theorem tidy_defineFunction {state : State} (formed : state.Formed) (tidy : state.Tidy)
    (top : state.tree.parent? owner = some root) {name : String} (plain : PlainName name) (indexer : Indexer)
    {body : FunctionBody} (within : ∀ name ∈ bodyNames body, PlainName name) (range : Range) :
    (defineFunction owner name indexer body range state).Tidy ∧
      ∃ id, (defineFunction owner name indexer body range state).tree.classAt? owner =
        (state.tree.classAt? owner).map fun held => Class.enterFunction held indexer name id := by
  obtain ⟨last, kept⟩ := revises_defineFunction (tidy.tree.but formed.tree top).index_lt name
    indexer body range formed
  have params : ∀ param ∈ body.params, PlainName param := fun param member =>
    within param (params_subset body member)
  have member := placed_member formed tidy top plain indexer params
    (redefined (state.tree.internChild owner name .function).1 owner indexer name) range
  have unchanged : (state.tree.internChild owner name .function).1.classAt? owner =
      state.tree.classAt? owner := by
    rw [classAt?, entity?_internChild, classAt?]
  have classes := classes_vacate (state.withTree (state.tree.internChild owner name .function).1)
    (state.tree.internChild owner name .function).2
    (redefined (state.tree.internChild owner name .function).1 owner indexer name) range
  revert last kept
  rw [defineFunction_eq]
  dsimp only at member ⊢
  generalize state.tree.internChild owner name .function = made at member unchanged classes ⊢
  generalize (state.withTree made.1).vacate made.2 (redefined made.1 owner indexer name) range =
    cleared at member classes ⊢
  generalize placeFunction cleared.tree made.2 name (FunctionKind.ofIndexer indexer) body = placed at member ⊢
  obtain ⟨hung, _, third, aside, function⟩ := member
  obtain ⟨entered, known⟩ := tidy_enterFunction hung.tidy plain hung.hangs third aside function
  intro last kept
  refine ⟨tidy.carry formed last kept entered fun bodies member => ?_, made.2,
    known.trans (by rw [unchanged])⟩
  obtain ⟨before, known, rfl⟩ := List.mem_map.1 member
  have held : before ∈ state.classes := by
    rw [← show cleared.classes = state.classes from classes]; exact known
  split
  next equal =>
    subst equal
    have links := kept.links formed.tree tidy.tree.dotless last.tree entered.dotless
    have old := (tidy.bodies before held).carry formed.tree last.tree links (formed.bodies before held)
    refine .inr ⟨?_, fun id scope => ?_, fun other present => ?_⟩
    · cases indexer <;> exact old.top
    · rcases scopes_enterFunction scope with rfl | known
      · have below := (aside before.owner).links hung.hangs
        exact last.tree.ordinary_child ((sameShape_modifyEntity placed before.owner _).links below) plain.2
      · exact old.ordinary id known
    · rcases mem_all_enterFunction present with rfl | known
      · exact within
      · exact old.named other known
  next => exact .inl held

/-! ### Values -/

private theorem modifyEntity_congr {tree : ScopeTree} {id : ScopeId} {f g : Entity → Entity}
    (same : ∀ entity, tree.entity? id = some entity → f entity = g entity) :
    tree.modifyEntity id f = tree.modifyEntity id g := by
  refine eq_of_node? (fun other => ?_) rfl
  simp only [modifyEntity, node?_modifySlot]
  split
  next equal =>
    subst equal
    cases found : tree.node? other with
    | none => rfl
    | some node =>
      cases held : node.entity with
      | none => simp [held]
      | some entity => simp [held, same entity (by rw [entity?, found, Option.bind_some, held])]
  next => rfl

/-- The values of a class are the names that live directly in it. -/
theorem modifyClass_values {tree : ScopeTree} {id : ScopeId} (isClass : (tree.classAt? id).isSome = true)
    (f : Members → Members) :
    (tree.modifyClass id fun owner => { owner with values := f owner.values }) =
      tree.modifyEntity id (Entity.mapLocals f) := by
  obtain ⟨owner, held⟩ := Option.isSome_iff_exists.1 isClass
  obtain ⟨references, found⟩ := classAt?_eq_some held
  refine modifyEntity_congr fun entity present => ?_
  cases found.symm.trans present
  rfl

theorem tends_placeValue (formed : tree.Formed) (tidy : tree.Tidy) {held : Class}
    (found : tree.classAt? owner = some held) {name : String} (plain : PlainName name) (range : Range) :
    tree.Tends (placeValue owner name range (tree.internChild owner name .value).1
      (tree.internChild owner name .value).2) := by
  have inside := index_lt_of_entity? (classAt?_eq_some found).choose_spec
  have made := tree.tends_internChild inside plain.1 .value
  have hung := hung_internChild formed tidy inside plain.1 .value
  have ordinary := hung.ordinary (tidy.shaped found).ordinary
  have entities := entity?_internChild .value tree owner name owner
  generalize tree.internChild owner name .value = first at made hung ordinary entities ⊢
  obtain ⟨_, _, _, _, older, _⟩ := hung.formed.child hung.hangs
  refine made.trans ?_
  unfold placeValue
  split
  next => exact .refl _
  next vacant =>
    rw [modifyClass_values _ fun values => values.insert name first.2]
    · exact tends_addLocal (by simpa using vacant) hung.formed hung.hangs ordinary (some range)
        (fun _ _ member => OrderedMap.mem_insert member) fun placed there => advances_insertLocal placed there
    · rw [classAt?, entity?_setEntity, if_neg (fun equal => Nat.lt_irrefl _ (equal ▸ older)), entities]
      exact Option.isSome_of_eq_some found

theorem tends_defineValue (config : DiscoveryConfig) (formed : tree.Formed) (tidy : tree.Tidy) {held : Class}
    (found : tree.classAt? owner = some held) {name : String} (plain : PlainName name) (value : Option Expr)
    (range : Range) : tree.Tends (defineValue config owner name value range tree) := by
  rw [defineValue_eq]
  exact (tends_placeValue formed tidy found plain range).trans
    (applyValue_cases config owner value (.refl _) fun _ => tends_applyEvidence _ _)

/-! ### Constructors -/

section Clear

variable (formed : tree.Formed) {member param : ScopeId} (beside : tree.parent? id = some owner)
  (above : tree.parent? member = some owner)
include formed beside above

/-- Clearing one child of a scope leaves the children of the scope alone. -/
theorem entity?_clear_child : (tree.clearDescendants id).entity? member = tree.entity? member := by
  rw [entity?_clearDescendants, if_neg fun below => ?_]
  obtain ⟨name, hangs⟩ := formed.child_of_parent? beside
  obtain ⟨_, _, _, _, older, _⟩ := formed.child hangs
  exact absurd (index_le_of_mem_ancestors (mem_ancestors_parent formed below above)) (Nat.not_le_of_lt older)

private theorem entity?_clear_grandchild (apart : member ≠ id) (parented : tree.parent? param = some member) :
    (tree.clearDescendants id).entity? param = tree.entity? param := by
  rw [entity?_clearDescendants, if_neg fun below => ?_]
  obtain ⟨name, hangs⟩ := formed.child_of_parent? beside
  obtain ⟨_, _, _, _, older, _⟩ := formed.child hangs
  have around := mem_ancestors_parent formed below parented
  rw [ancestors_of_parent? formed above] at around
  rcases List.mem_cons.1 around with same | further
  · exact apart same.symm
  · exact absurd (index_le_of_mem_ancestors further) (Nat.not_le_of_lt older)

end Clear

/-- A class of which all but the constructor is in shape, on the way from one tree to another. -/
structure Cleared (before after : ScopeTree) (owner : ScopeId) (held later : Class) : Prop where
  but : after.TidyBut owner
  same : SameShape after before
  found : after.classAt? owner = some later
  kept : later = { held with fields := later.fields }
  fields : after.FieldsShaped owner later
  children : ∀ {member}, before.parent? member = some owner → after.entity? member = before.entity? member
  params : ∀ {name member param}, before.child? owner name = some member →
    name ≠ "constructor" → name ≠ fieldsName →
    before.parent? param = some member → after.entity? param = before.entity? param

theorem cleared_refl (formed : tree.Formed) (tidy : tree.Tidy) {held : Class}
    (found : tree.classAt? owner = some held) :
    Cleared tree tree owner held held :=
  have shape := tidy.shaped found
  ⟨tidy.but formed shape.top, .refl tree, found, rfl, shape.fields, fun _ => rfl, fun _ _ _ _ => rfl⟩

private theorem index_lt_of_parent? (formed : tree.Formed) {child parent : ScopeId}
    (above : tree.parent? child = some parent) :
    parent.index < child.index := by
  obtain ⟨name, hangs⟩ := formed.child_of_parent? above
  obtain ⟨_, _, _, _, older, _⟩ := formed.child hangs
  exact older

/-- A class without fields may be said to have none. -/
theorem cleared_fields {middle : ScopeTree} (formed : tree.Formed) {held : Class} (but : middle.TidyBut owner)
    (same : SameShape middle tree) (found : middle.classAt? owner = some held)
    (bare : ∀ name field, middle.FieldAt owner name field → middle.hasEntity field = false)
    (children : ∀ {member}, tree.parent? member = some owner → middle.entity? member = tree.entity? member)
    (params : ∀ {name member param}, tree.child? owner name = some member →
      name ≠ "constructor" → name ≠ fieldsName →
      tree.parent? param = some member → middle.entity? param = tree.entity? param) :
    Cleared tree (middle.modifyClass owner fun held => { held with fields := .empty }) owner held
      { held with fields := .empty } := by
  have after : ∀ other, other ≠ owner →
      (middle.modifyClass owner fun held => { held with fields := .empty }).entity? other =
      middle.entity? other := by
    intro other apart
    rw [ScopeTree.modifyClass, entity?_modifyEntity, if_neg apart]
  have shape : SameShape (middle.modifyClass owner fun held => { held with fields := .empty }) middle :=
    sameShape_modifyEntity middle owner _
  refine ⟨but.modifyClass fun held fits => ⟨fun slot member => ?_, fits.params⟩, shape.trans same, ?_, rfl,
    ⟨fun {name field} there occupied => ?_, fun found => by cases found⟩, fun above => ?_,
    fun hangs one two parented => ?_⟩
  · rw [mem_slots_class] at member
    refine fits.slots slot (mem_slots_class.2 ?_)
    rcases member with constructor | value | function | method | nothing
    · exact .inl constructor
    · exact .inr (.inl value)
    · exact .inr (.inr (.inl function))
    · exact .inr (.inr (.inr (.inl method)))
    · cases nothing
  · obtain ⟨references, present⟩ := classAt?_eq_some found
    rw [classAt?, ScopeTree.modifyClass, entity?_modifyEntity, if_pos rfl, present]
    rfl
  · obtain ⟨fields, first, second⟩ := there
    rw [shape.child?] at first second
    have apart : field ≠ owner := fun equal =>
      Nat.lt_asymm (index_lt_of_parent? but.formed (but.formed.parent?_of_child first))
      (equal ▸ index_lt_of_parent? but.formed (but.formed.parent?_of_child second))
    rw [hasEntity, after field apart, ← hasEntity, bare name field ⟨fields, first, second⟩] at occupied
    cases occupied
  · rw [after _ fun equal => Nat.lt_irrefl _ (equal ▸ index_lt_of_parent? formed above)]
    exact children above
  · have older := Nat.lt_trans (index_lt_of_parent? formed (formed.parent?_of_child hangs))
      (index_lt_of_parent? formed parented)
    rw [after _ fun equal => Nat.lt_irrefl _ (equal ▸ older)]
    exact params hangs one two parented

theorem cleared_dropConstructor (formed : tree.Formed) (tidy : tree.Tidy) {held : Class}
    (found : tree.classAt? owner = some held) :
    Cleared tree (dropConstructor owner held.constructor tree) owner held { held with fields := .empty } := by
  have shape := tidy.shaped found
  have hangs := formed.child?_constructor tidy.dotless found
  have beside := formed.parent?_of_child hangs
  have inner : ∀ {id : ScopeId}, tree.parent? id = some owner → owner ∈ tree.ancestors id := by
    intro id above
    rw [ancestors_of_parent? formed above]
    exact List.mem_cons_of_mem _ (self_mem_ancestors tree owner)
  have first := (tidy.but formed shape.top).clearDescendants (inner beside)
  have one := sameShape_clearDescendants tree held.constructor
  have kept : (tree.clearDescendants held.constructor).classAt? owner = some held := by
    rw [classAt?, entity?_clearDescendants, if_neg]
    · exact found
    · exact fun below => Nat.lt_asymm (index_lt_of_descendant below) (index_lt_of_parent? formed beside)
  have children : ∀ {member}, tree.parent? member = some owner →
      (tree.clearDescendants held.constructor).entity? member = tree.entity? member :=
    fun above => entity?_clear_child formed beside above
  have params : ∀ {name member param}, tree.child? owner name = some member → name ≠ "constructor" →
      tree.parent? param = some member → (tree.clearDescendants held.constructor).entity?
        param = tree.entity? param := by
    intro name member param below apart parented
    refine entity?_clear_grandchild formed beside (formed.parent?_of_child below)
      (fun equal => apart ?_) parented
    exact (formed.child_unique (equal ▸ below) hangs).2
  unfold dropConstructor
  dsimp only
  generalize tree.clearDescendants held.constructor = cleared at first one kept children params ⊢
  split
  next fields there =>
    have parented := first.formed.parent?_of_child there
    have second := first.clearDescendants
      (by rw [one.ancestors]; exact inner ((one.parent? fields).symm.trans parented))
    have two := sameShape_clearDescendants cleared fields
    refine cleared_fields formed second (two.trans one) ?_ (fun name field at_ => ?_)
      (fun {member} above => ?_)
      fun {name member param} below apart plain parented' => ?_
    · rw [classAt?, entity?_clearDescendants, if_neg]
      · exact kept
      · exact fun below => Nat.lt_asymm (index_lt_of_descendant below)
          (index_lt_of_parent? first.formed parented)
    · obtain ⟨scope, left, right⟩ := at_
      rw [two.child?] at left right
      cases there.symm.trans left
      rw [hasEntity, entity?_clearDescendants, if_pos (mem_descendants_of_child first.formed right)]
      rfl
    · rw [entity?_clear_child first.formed parented ((one.parent? member).trans above)]
      exact children above
    · rw [entity?_clear_grandchild first.formed parented
        ((one.parent? member).trans (formed.parent?_of_child below)) _
        ((one.parent? param).trans parented')]
      · exact params below apart parented'
      · exact fun equal => plain (formed.child_unique below ((one.child? _ _).symm.trans (equal ▸ there))).2
  next absent =>
    refine cleared_fields formed first one kept (fun name field at_ => ?_) children
      fun below apart _ => params below apart
    obtain ⟨scope, left, _⟩ := at_
    rw [absent] at left
    cases left

section PlacedConstructor

variable {middle last : ScopeTree} (formed : tree.Formed) {held later : Class}
  (cleared : Cleared tree middle owner held later)
  (hangs : tree.child? owner "constructor" = some held.constructor) (members : tree.MembersShaped owner held)
include formed cleared hangs members

/-- No function is named like the constructor or the scope of the fields, so none is touched on the way. -/
theorem Cleared.functionShaped (aside : Aside middle last owner held.constructor)
    (regular : held.Regular) {kind : FunctionKind} {name : String} {function : ScopeId}
    (named : held.functions.contains name = true ∨ held.methods.contains name = true)
    (below : tree.child? owner name = some function) (shaped : tree.FunctionShaped kind function) :
    last.child? owner name = some function ∧ last.FunctionShaped kind function := by
  have links := cleared.same.links
  have other : name ≠ "constructor" := by
    rintro rfl
    rcases named with known | known
    · rw [regular.1] at known; cases known
    · rw [regular.2] at known; cases known
  refine aside.functionShaped (links hangs) (links below) other ?_
  exact shaped.carry formed aside.formed links (.of_eq (cleared.children (formed.parent?_of_child below)))
    fun param parented => .of_eq (cleared.params below other (members.named named) parented)

theorem Cleared.membersShaped {constructor : Constructor}
    (placed : Placed middle last owner held.constructor (.new (.constructor constructor)) constructor.params)
    (regular : held.Regular) : last.MembersShaped owner { held with fields := later.fields } := by
  have aside := placed.aside owner
  have links := cleared.same.links
  refine ⟨⟨constructor, ?_, placed.params⟩, fun {name value} entry => ?_, fun {name function} entry => ?_,
    fun {name method} entry => ?_, fun {name} => members.named⟩
  · rw [constructorAt?, show ({ held with fields := later.fields } : Class).constructor =
      held.constructor from rfl, placed.held]
    rfl
  · obtain ⟨there, var⟩ := members.values entry
    have above := formed.parent?_of_child there
    have different : value ≠ held.constructor := by
      rintro rfl
      obtain ⟨_, known, _⟩ := members.constructor
      obtain ⟨var, known'⟩ := Option.isSome_iff_exists.1 var
      obtain ⟨_, present⟩ := variableAt?_eq_some known'
      rw [constructorAt?, present] at known
      cases known
    have moved := links.parent?_eq formed aside.formed above
    refine ⟨aside.links (links there), (aside.child_lasts (links hangs) moved different).1.variableAt? ?_⟩
    rw [variableAt?, cleared.children above]
    exact var
  · obtain ⟨below, shaped⟩ := members.functions entry
    refine cleared.functionShaped formed hangs members aside regular (.inl ?_) below shaped
    rw [OrderedMap.contains_eq_isSome_get?]
    exact Option.isSome_of_eq_some entry
  · obtain ⟨below, shaped⟩ := members.methods entry
    refine cleared.functionShaped formed hangs members aside regular (.inr ?_) below shaped
    rw [OrderedMap.contains_eq_isSome_get?]
    exact Option.isSome_of_eq_some entry

end PlacedConstructor

/-- A class is in shape again when its constructor is placed. -/
theorem tidy_placedConstructor {middle last : ScopeTree} (formed : tree.Formed) (tidy : tree.Tidy)
    {held later : Class} (found : tree.classAt? owner = some held)
    (cleared : Cleared tree middle owner held later) {constructor : Constructor}
    (placed : Placed middle last owner held.constructor (.new (.constructor constructor)) constructor.params)
    :
    last.Tidy ∧ last.classAt? owner = some later := by
  have shape := tidy.shaped found
  have hangs := formed.child?_constructor tidy.dotless found
  have aside := placed.aside owner
  have links := cleared.same.links
  have below := links hangs
  have apart : held.constructor ≠ owner := fun equal =>
    Nat.lt_irrefl _ (equal ▸ index_lt_of_parent? formed (formed.parent?_of_child hangs))
  have unchanged : last.classAt? owner = some later := by
    rw [classAt?, (placed.aside held.constructor).others apart.symm (aside.not_around_owner below)]
    exact cleared.found
  refine ⟨⟨placed.tidy.dotless, placed.tidy.shaped.shaped fun {known} there => ?_⟩, unchanged⟩
  cases unchanged.symm.trans there
  have inside := index_lt_of_entity? (classAt?_eq_some found).choose_spec
  have kept := cleared.kept
  refine ⟨placed.tidy.top, (shape.ordinary.links formed aside.formed links inside).links
    aside.formed aside.last aside.links
    cleared.but.index_lt, aside.fieldsShaped below (by decide) rfl cleared.fields, fun regular => ?_⟩
  rw [kept] at regular ⊢
  exact cleared.membersShaped formed hangs (shape.members regular) placed regular

theorem tidy_placeField (formed : tree.Formed) (tidy : tree.Tidy) (inside : owner.index < tree.size)
    (range : Range) {name : String} (plain : PlainName name) (type : LuaType) :
    (placeField owner range tree name type).Tidy := by
  obtain ⟨last, _⟩ := revises_placeField inside range name type formed
  revert last
  obtain ⟨made, there⟩ := tends_internField formed tidy inside plain.1
  unfold placeField
  dsimp only
  generalize tree.internField owner name = field at made there ⊢
  obtain ⟨middle, kept, _⟩ := made formed tidy
  have same := sameShape_setEntity field.1 field.2 (.new (.variable ⟨name, .single type, some range⟩))
  have placed : (field.1.setEntity field.2 (.new (.variable ⟨name, .single type, some range⟩))).entity?
    field.2 =
      some (.new (.variable ⟨name, .single type, some range⟩)) := by
    refine entity?_setEntity_self ?_ _
    obtain ⟨_, _, second⟩ := there
    exact index_lt_of_find? (middle.find?_child second)
  intro last
  refine ⟨kept.dotless.of_sameShape ((sameShape_modifyEntity _ _ _).trans same), ?_⟩
  refine kept.shaped.addField middle kept.dotless there same
    (fun other apart => by rw [entity?_setEntity, if_neg apart])
    (fun {held} known => ?_) (fun _ => by rw [variableAt?, placed]; rfl)
    (f := fun fields => fields.insert name field.2)
    (fun fields => OrderedMap.contains_insert fields name field.2) (fun fields other present => ?_)
    (fun _ _ member => OrderedMap.mem_insert member) last
  · rw [classAt?, placed] at known
    cases known
  · rw [OrderedMap.contains_eq_isSome_get?] at present ⊢
    rw [OrderedMap.get?_insert]
    split
    next => rfl
    next => exact present

private theorem classAt?_placeField {tree : ScopeTree} (inside : owner.index < tree.size) (range : Range)
    (name : String) (type : LuaType) :
    ((placeField owner range tree name type).classAt? owner).map Class.outline =
    (tree.classAt? owner).map Class.outline := by
  have raw := (grows_internField tree owner name).raw inside
  have path := raw_of_find? (find?_internField tree owner name)
  have entities : (tree.internField owner name).1.entity? owner = tree.entity? owner :=
    (entity?_internChild .field _ _ _ _).trans (entity?_internChild .table _ _ _ _)
  unfold placeField
  dsimp only
  generalize tree.internField owner name = field at raw path entities ⊢
  have apart : owner ≠ field.2 := by
    intro same
    rw [← same, raw] at path
    have longer := congrArg (fun raw : String => raw.toList.length) path
    simp only [DottedName.toList_child, List.length_append, List.length_cons] at longer
    omega
  rw [classAt?_modifyClass_self, classAt?, entity?_setEntity, if_neg apart,
    entities, ← classAt?, Option.map_map]
  rfl

theorem literalFields_subset {selfAlias : String} {kind : StmtKind} {entry : String × LuaType}
    (member : entry ∈ literalFields selfAlias kind) : entry.1 ∈ kindNames kind := by
  cases kind with
  | assign targets values =>
    obtain ⟨⟨target, value⟩, opposite, given⟩ := List.mem_filterMap.1 member
    refine List.mem_append_left _ (exprNames_subset (List.of_mem_zip opposite).1 ?_)
    rw [← Expr.names_unparen]
    dsimp only at given
    split at given
    next object name same =>
      rw [same]
      split at given
      next =>
        obtain ⟨type, _, rfl⟩ := Option.map_eq_some_iff.1 given
        exact List.mem_append_right _ (List.mem_singleton_self name)
      next => cases given
    next => cases given
  | _ => cases member

theorem plain_literalFields {body : FunctionBody} (within : ∀ name ∈ bodyNames body, PlainName name)
    (selfAlias : String) :
    ∀ entry ∈ body.body.flatMap fun stmt =>
      (literalFields selfAlias stmt.kind).map fun (name, type) =>
      (name, type, stmt.range), PlainName entry.1 := by
  intro entry member
  obtain ⟨stmt, inside, listed⟩ := List.mem_flatMap.1 member
  obtain ⟨⟨name, type⟩, literal, rfl⟩ := List.mem_map.1 listed
  obtain ⟨params, vararg, stmts⟩ := body
  refine within name (List.mem_append_right _ (stmtNames_subset inside ?_))
  obtain ⟨kind, range⟩ := stmt
  exact literalFields_subset literal

private theorem tidy_placeFields {fields : List (String × LuaType × Range)}
    (plain : ∀ entry ∈ fields, PlainName entry.1) (seen : List String) {state : State}
    (formed : state.Formed) (tidy : state.Tidy) (inside : owner.index < state.tree.size) :
    (placeFields owner fields seen state).Tidy ∧
      ((placeFields owner fields seen state).tree.classAt? owner).map Class.outline =
        (state.tree.classAt? owner).map Class.outline := by
  induction fields generalizing seen state with
  | nil => exact ⟨tidy, rfl⟩
  | cons field rest ih =>
    obtain ⟨name, type, range⟩ := field
    have turn : ∀ warned : State, warned.tree = state.tree → warned.classes = state.classes → warned.Formed →
        (placeFields owner rest (name :: seen)
          (warned.withTree (placeField owner range warned.tree name type))).Tidy ∧
          ((placeFields owner rest (name :: seen)
            (warned.withTree (placeField owner range warned.tree name type))).tree.classAt? owner).map
            Class.outline =
              (state.tree.classAt? owner).map Class.outline := by
      intro warned tree classes middle
      obtain ⟨last, kept⟩ := warned.revises_withTree
        (revises_placeField (tree ▸ inside) range name type) middle
      have placed := tidy_placeField middle.tree (tree ▸ tidy.tree) (tree ▸ inside) range
        (plain _ List.mem_cons_self) type
      have kept' := tidy.carry formed last (tree ▸ kept) placed fun bodies member => .inl (classes ▸ member)
      obtain ⟨rested, outline⟩ := ih (fun other member => plain other (List.mem_cons_of_mem _ member))
        (name :: seen) last
        kept' (kept.index_lt middle.tree (tree ▸ inside))
      refine ⟨rested, outline.trans ?_⟩
      rw [← tree]
      exact classAt?_placeField (tree ▸ inside) range name type
    rw [placeFields]
    split
    next =>
      exact turn _ (state.tree_warn _ _ _) (state.classes_warn _ _ _) (state.revises_warn _ _ _ formed).1
    next => exact turn state rfl rfl formed

theorem cleared_vacateConstructor {state : State} (formed : state.tree.Formed) (tidy : state.tree.Tidy)
    {held : Class} (found : state.tree.classAt? owner = some held) (ownerName : String) (range : Range) :
    (vacateConstructor owner held.constructor ownerName range state).classes = state.classes ∧
      ∃ later, Cleared state.tree (vacateConstructor owner held.constructor ownerName range state).tree
        owner held later := by
  unfold vacateConstructor
  split
  next => exact ⟨state.classes_warn _ _ _, _, cleared_dropConstructor formed tidy found⟩
  next => exact ⟨rfl, _, cleared_refl formed tidy found⟩

theorem tidy_placeConstructor {state vacated : State} (formed : state.Formed) (tidy : state.Tidy)
    (revises : state.Revises vacated) {held later : Class} (found : state.tree.classAt? owner = some held)
    (classes : vacated.classes = state.classes) (cleared : Cleared state.tree vacated.tree owner held later)
    {body : FunctionBody} (within : ∀ name ∈ bodyNames body, PlainName name) :
    (placeConstructor owner held.constructor body vacated).Tidy ∧
      (placeConstructor owner held.constructor body vacated).tree.classAt? owner = some later := by
  have hangs := cleared.same.links (formed.tree.child?_constructor tidy.tree.dotless found)
  have around : owner ∈ vacated.tree.ancestors held.constructor := by
    rw [ancestors_of_parent? cleared.but.formed (cleared.but.formed.parent?_of_child hangs)]
    exact List.mem_cons_of_mem _ (self_mem_ancestors _ _)
  have size := index_lt_of_find? (cleared.but.formed.find?_child hangs)
  obtain ⟨last, kept⟩ := (revises.trans (revises_placeConstructor size owner body)) formed
  have params : ∀ param ∈ body.params, PlainName param := fun param member =>
    within param (params_subset body member)
  have placed := placed_params params cleared.but around size (.new (.constructor {
    params := (declareParams held.constructor body.params vacated.tree).2, vararg :=
      body.vararg, values := .empty
    selfAlias := selfAlias? body.body })) (fun _ => rfl) rfl rfl
  obtain ⟨placed, known⟩ := tidy_placedConstructor formed.tree tidy.tree found cleared placed
  refine ⟨tidy.carry formed last kept placed fun bodies member => ?_, known⟩
  obtain ⟨before, listed, rfl⟩ := List.mem_map.1 member
  have listed : before ∈ state.classes := by rw [← classes]; exact listed
  split
  next equal =>
    have links := kept.links formed.tree tidy.tree.dotless last.tree placed.dotless
    have old := (tidy.bodies before listed).carry formed.tree last.tree links (formed.bodies before listed)
    refine .inr ⟨old.top, old.ordinary, fun other present => ?_⟩
    rcases mem_all.1 present with same | function
    · cases same
      exact within
    · exact old.named other (mem_all.2 (.inr function))
  next => exact .inl listed

theorem tidy_defineConstructor {state : State} (formed : state.Formed) (tidy : state.Tidy)
    {held : Class} (found : state.tree.classAt? owner = some held) (ownerName : String)
    {body : FunctionBody} (within : ∀ name ∈ bodyNames body, PlainName name) (range : Range) :
    (defineConstructor owner ownerName body range state).Tidy ∧
      ((defineConstructor owner ownerName body range state).tree.classAt? owner).map
      Class.outline = some held.outline := by
  rw [defineConstructor_eq found]
  dsimp only
  obtain ⟨classes, later, cleared⟩ := cleared_vacateConstructor formed.tree tidy.tree found ownerName range
  have revises := revises_vacateConstructor owner held.constructor ownerName range state
  generalize vacateConstructor owner held.constructor ownerName range state =
    vacated at classes cleared revises ⊢
  obtain ⟨placed, known⟩ := tidy_placeConstructor formed tidy revises found classes cleared within
  have outline : later.outline = held.outline := by rw [cleared.kept]; rfl
  have size := index_lt_of_find? (cleared.but.formed.find?_child
    (cleared.same.links (formed.tree.child?_constructor tidy.tree.dotless found)))
  obtain ⟨last, kept⟩ := (revises.trans (revises_placeConstructor size owner body)) formed
  generalize placeConstructor owner held.constructor body vacated = made at placed last kept known ⊢
  split
  next selfAlias _ =>
    have inside := kept.index_lt formed.tree (index_lt_of_entity? (classAt?_eq_some found).choose_spec)
    obtain ⟨fielded, same⟩ := tidy_placeFields (plain_literalFields within selfAlias) [] last placed inside
    exact ⟨fielded, same.trans (by rw [known, Option.map_some, outline])⟩
  next =>
    refine ⟨(made.tends_warn _ _ _ last placed).2.1, ?_⟩
    rw [State.tree_warn, known, Option.map_some, outline]

end LuaClasses.Discovery
