import LuaClasses.Proofs.ShapeReached

/-! What the entry of one class or of one global name spares. A write to a scope of the top level, or
below it, leaves the other scopes of the top level with the entities that they have. -/

namespace LuaClasses

/-- What of a class only the definition of its functions changes. -/
def Class.callables (owner : Class) : String × Members × Members :=
  (owner.name, owner.functions, owner.methods)

namespace ScopeTree

/-- A change that spares every scope of the top level but one. -/
def Spares (before after : ScopeTree) (but : ScopeId) : Prop :=
  ∀ ⦃other⦄, before.parent? other = some root → other ≠ but →
    after.parent? other = some root ∧ after.entity? other = before.entity? other

variable {tree before after : ScopeTree} {but id owner : ScopeId}

theorem Spares.refl (tree : ScopeTree) (but : ScopeId) : tree.Spares tree but := fun _ top _ => ⟨top, rfl⟩

theorem Spares.trans {first second third : ScopeTree} (one : first.Spares second but)
    (two : second.Spares third but) :
    first.Spares third but := by
  intro other top apart
  obtain ⟨still, same⟩ := one top apart
  obtain ⟨last, equal⟩ := two still apart
  exact ⟨last, equal.trans same⟩

theorem Spares.of_sameShape (same : SameShape after before)
    (others : ∀ other, before.parent? other = some root → other ≠ but →
      after.entity? other = before.entity? other)
    :
    before.Spares after but :=
  fun other top apart => ⟨(same.parent? other).trans top, others other top apart⟩

theorem spares_internChild (tree : ScopeTree) (parent : ScopeId) (name : String) (valueType : ValueType)
    (but : ScopeId) :
    tree.Spares (tree.internChild parent name valueType).1 but := by
  intro other top _
  obtain ⟨node, found, _⟩ := Option.bind_eq_some_iff.1 top
  exact ⟨((tree.grows_internChild parent name valueType).parent? (index_lt_of_node? found)).trans top,
    entity?_internChild valueType tree parent name other⟩

/-- An entity may be placed anywhere but on another scope of the top level. -/
theorem spares_setEntity (tree : ScopeTree) (inside : id ≠ but → tree.parent? id ≠ some root)
    (entity : Entity) :
    tree.Spares (tree.setEntity id entity) but := by
  apply Spares.of_sameShape (sameShape_setEntity tree id entity)
  intro other top apart
  rw [entity?_setEntity, if_neg]
  rintro rfl
  exact inside apart top

private theorem spares_modifyClass (tree : ScopeTree) (id : ScopeId) (f : Class → Class) :
    tree.Spares (tree.modifyClass id f) id := by
  apply Spares.of_sameShape (sameShape_modifyEntity tree id (Entity.mapClass f))
  intro other _ apart
  rw [entity?_modifyEntity, if_neg apart]

/-- No scope of the top level is below a scope other than the root. -/
theorem spares_clearDescendants (formed : tree.Formed) (below : id ≠ root) (but : ScopeId) :
    tree.Spares (tree.clearDescendants id) but := by
  apply Spares.of_sameShape (sameShape_clearDescendants tree id)
  intro other top _
  rw [entity?_clearDescendants, if_neg]
  intro inside
  have around := mem_ancestors_parent formed inside top
  rw [ancestors_of_top formed.parent?_root, List.mem_singleton] at around
  exact below around

theorem Aside.spares (aside : Aside before after but id) (inside : id ≠ but → before.parent? id ≠ some root)
    (below : id ≠ root) : before.Spares after but := by
  intro other top apart
  have above := aside.links.parent?_eq aside.formed aside.last top
  refine ⟨above, aside.others apart ?_⟩
  rw [ancestors_of_parent? aside.last above, ancestors_of_top aside.last.parent?_root]
  simp only [List.mem_cons, List.not_mem_nil, or_false, not_or]
  refine ⟨?_, below⟩
  rintro rfl
  exact inside apart top

/-- Whether what stands on a scope stays there, but for what growth may add to it. -/
def Steady (before after : ScopeTree) (id : ScopeId) : Prop :=
  ∀ ⦃held⦄, before.entity? id = some held → ∃ later, after.entity? id = some later ∧
    later.kind.outline = held.kind.outline

theorem Spares.steady (spares : before.Spares after but) (top : before.parent? id = some root)
    (apart : id ≠ but) :
    before.Steady after id :=
  fun held found => ⟨held, (spares top apart).2.trans found, rfl⟩

theorem Grows.steady (grows : before.Grows after) (id : ScopeId) : before.Steady after id := by
  intro held found
  obtain ⟨later, reached, grown⟩ := grows.entity? found
  exact ⟨later, reached, grown.outline⟩

theorem Steady.function (steady : before.Steady after id) (held : (before.functionAt? id).isSome = true) :
    (after.functionAt? id).isSome = true := by
  obtain ⟨function, found⟩ := Option.isSome_iff_exists.1 held
  obtain ⟨⟨references, kind⟩, present, asFunction⟩ := Option.bind_eq_some_iff.1 found
  obtain ⟨⟨others, later⟩, reached, outline⟩ := steady present
  rw [functionAt?, reached]
  cases kind <;> cases asFunction
  cases later <;> simp only [EntityKind.outline, reduceCtorEq] at outline
  rfl

theorem Steady.class_ (steady : before.Steady after id) {held : Class}
    (found : before.classAt? id = some held) :
    ∃ later, after.classAt? id = some later ∧ later.callables = held.callables := by
  obtain ⟨references, present⟩ := classAt?_eq_some found
  obtain ⟨⟨others, later⟩, reached, outline⟩ := steady present
  cases later <;> simp only [EntityKind.outline, reduceCtorEq, EntityKind.class_.injEq] at outline
  refine ⟨_, by rw [classAt?, reached]; rfl, ?_⟩
  have same := congrArg Class.callables outline
  exact same

/-- What hangs below a scope of the top level is not of the top level. -/
theorem Formed.not_top (formed : tree.Formed) (top : tree.parent? owner = some ScopeTree.root)
    (above : tree.parent? id = some owner) : tree.parent? id ≠ some ScopeTree.root := by
  intro same
  cases above.symm.trans same
  rw [formed.parent?_root] at top
  cases top

theorem Formed.ne_root (formed : tree.Formed) (above : tree.parent? id = some owner) :
    id ≠ ScopeTree.root := by
  rintro rfl
  rw [formed.parent?_root] at above
  cases above

end ScopeTree

namespace Discovery
open ScopeTree

variable {tree : ScopeTree} {id owner : ScopeId}

/-! ### Classes and the names of the top level -/

theorem spares_placeClass (formed : tree.Formed) (dotless : tree.Dotless) (top : tree.parent? id = some root)
    (name : String) (superclass : Option String) : tree.Spares (placeClass tree id name superclass) id := by
  have dots : '.' ∉ "constructor".toList := by decide
  have inside : id.index < tree.size := by
    obtain ⟨node, found, _⟩ := Option.bind_eq_some_iff.1 top
    exact index_lt_of_node? found
  have first := formed.internChild inside "constructor" .function
  have hangs := dotless.child?_internChild formed dots inside .function
  have above := (tree.grows_internChild id "constructor" .function).parent? inside
  have made := tree.spares_internChild id "constructor" .function id
  unfold placeClass
  dsimp only
  generalize tree.internChild id "constructor" .function = below at first hangs above made ⊢
  have inner := first.not_top (above.trans top) (first.parent?_of_child hangs)
  apply made.trans
  apply (spares_setEntity below.1 (fun _ => inner) _).trans
  exact spares_setEntity _ (fun apart => absurd rfl apart) _

/-- What stands where a class was placed. -/
theorem classAt?_placeClass (inside : id.index < tree.size) (name : String) (superclass : Option String) :
    ∃ constructor, (placeClass tree id name superclass).classAt? id =
      some { Class.new name constructor with superclass } := by
  have grown := (tree.grows_internChild id "constructor" .function).index_lt inside
  have same := sameShape_setEntity (tree.internChild id "constructor" .function).1
    (tree.internChild id "constructor" .function).2 (.new (.constructor .new))
  refine ⟨(tree.internChild id "constructor" .function).2, ?_⟩
  unfold placeClass
  rw [classAt?, entity?_setEntity_self (same.size ▸ grown)]
  rfl

theorem spares_declareGlobalFunction {state : State} (formed : state.Formed) (tidy : state.Tidy)
    {name : String} (plain : PlainName name) {body : FunctionBody}
    (params : ∀ name ∈ body.params, PlainName name) (range : Range) :
    ∃ id, (declareGlobalFunction name body range state).tree.child? root name = some id ∧
      ((declareGlobalFunction name body range state).tree.functionAt? id).isSome = true ∧
      state.tree.Spares (declareGlobalFunction name body range state).tree id := by
  rw [declareGlobalFunction_eq]
  dsimp only
  have hung := hung_internChild formed.tree tidy.tree formed.tree.root_lt plain.1 .function
  have made := state.tree.spares_internChild root name .function
    (state.tree.internChild root name .function).2
  have size := index_internChild .function state.tree root name
  generalize state.tree.internChild root name .function = below at hung made size ⊢
  have top := hung.formed.parent?_of_child hung.hangs
  have first := hung.tidy.but hung.formed top
  obtain ⟨second, aside⟩ := tidyBut_vacate (state.withTree below.1) first (self_mem_ancestors _ _)
    s!"global function `{name}` redefined" range
  have same := sameShape_vacate (state.withTree below.1) below.2 s!"global function `{name}` redefined" range
  generalize (state.withTree below.1).vacate below.2 s!"global function `{name}` redefined" range = vacated
    at second aside same ⊢
  obtain ⟨_, placed, function⟩ := placed_function params second (self_mem_ancestors _ _)
    (same.size ▸ size) name .global
  have cleared := (aside below.2).spares (fun apart => absurd rfl apart) (hung.formed.ne_root top)
  have last := (placed below.2).spares (fun apart => absurd rfl apart) (second.formed.ne_root second.top)
  refine ⟨below.2, (placed below.2).links ((aside below.2).links hung.hangs), ?_,
    made.trans (cleared.trans last)⟩
  obtain ⟨held, found, _⟩ := function
  exact Option.isSome_of_eq_some found

/-! ### The members of a class -/

section Members

variable {state : State} (formed : state.Formed) (tidy : state.Tidy)
include formed tidy

theorem spares_defineFunction (top : state.tree.parent? owner = some root) {name : String}
    (plain : PlainName name) (indexer : Indexer) {body : FunctionBody}
    (params : ∀ name ∈ body.params, PlainName name) (range : Range) :
    state.tree.Spares (defineFunction owner name indexer body range state).tree owner := by
  have member := placed_member formed tidy top plain indexer params
    (redefined (state.tree.internChild owner name .function).1 owner indexer name) range
  have made := state.tree.spares_internChild owner name .function owner
  rw [defineFunction_eq]
  dsimp only at member ⊢
  generalize state.tree.internChild owner name .function = below at member made ⊢
  obtain ⟨hung, first, _, aside, _⟩ := member
  have above := hung.formed.parent?_of_child hung.hangs
  apply made.trans
  apply ((aside owner).spares (fun _ => first.formed.not_top first.top above)
    (first.formed.ne_root above)).trans
  exact spares_modifyClass _ owner _

private theorem spares_vacateConstructor {held : Class} (found : state.tree.classAt? owner = some held)
    (ownerName : String) (range : Range) :
    state.tree.Spares (vacateConstructor owner held.constructor ownerName range state).tree owner := by
  have hangs := formed.tree.child?_constructor tidy.tree.dotless found
  have below := formed.tree.ne_root (formed.tree.parent?_of_child hangs)
  have cleared := spares_clearDescendants formed.tree below owner
  have last := (revises_clearDescendants state.tree held.constructor formed.tree).1
  unfold vacateConstructor
  split
  next =>
    show state.tree.Spares (dropConstructor owner held.constructor state.tree) owner
    unfold dropConstructor
    dsimp only
    apply cleared.trans
    split
    next fields under =>
      have inner := last.ne_root (last.parent?_of_child under)
      exact (spares_clearDescendants last inner owner).trans (spares_modifyClass _ owner _)
    next => exact spares_modifyClass _ owner _
  next => exact .refl _ owner

omit formed tidy in
private theorem spares_placeField (formed : tree.Formed) (tidy : tree.Tidy)
    (top : tree.parent? owner = some root) (range : Range) {name : String} (plain : PlainName name)
    (type : LuaType) : tree.Spares (placeField owner range tree name type) owner := by
  have inside := (tidy.but formed top).index_lt
  obtain ⟨made, there⟩ := tends_internField formed tidy inside plain.1
  obtain ⟨last, _, grows⟩ := made formed tidy
  have interned : tree.Spares (tree.internField owner name).1 owner :=
    (tree.spares_internChild owner fieldsName .table owner).trans (spares_internChild _ _ name .field owner)
  unfold placeField
  dsimp only
  generalize tree.internField owner name = field at there last grows interned ⊢
  obtain ⟨fields, first, second⟩ := there
  have inner : field.1.parent? field.2 ≠ some root := by
    rw [last.parent?_of_child second]
    exact fun same => last.ne_root (last.parent?_of_child first) (Option.some.inj same)
  apply interned.trans
  exact (spares_setEntity _ (fun _ => inner) _).trans (spares_modifyClass _ owner _)

private theorem spares_placeFields (top : state.tree.parent? owner = some root)
    {fields : List (String × LuaType × Range)} (plain : ∀ entry ∈ fields, PlainName entry.1)
    (seen : List String) :
    state.tree.Spares (placeFields owner fields seen state).tree owner := by
  induction fields generalizing seen state with
  | nil => exact .refl _ owner
  | cons field rest ih =>
    obtain ⟨name, type, range⟩ := field
    have named := plain _ List.mem_cons_self
    have inside := (tidy.tree.but formed.tree top).index_lt
    have turn : ∀ warned : State, warned.tree = state.tree → warned.Formed → warned.Tidy →
        state.tree.Spares (placeFields owner rest (name :: seen)
          (warned.withTree (placeField owner range warned.tree name type))).tree owner := by
      intro warned tree formed tidy
      rw [← tree] at top inside ⊢
      obtain ⟨last, kept⟩ := warned.revises_withTree (revises_placeField inside range name type) formed
      have placed := tidy_placeField formed.tree tidy.tree inside range named type
      have links := kept.links formed.tree tidy.tree.dotless last.tree placed.dotless
      have next := ih last (tidy.carry formed last kept placed fun _ => .inl)
        (links.parent?_eq formed.tree last.tree top)
        (fun other member => plain other (List.mem_cons_of_mem _ member)) (name :: seen)
      exact (spares_placeField formed.tree tidy.tree top range named type).trans next
    rw [placeFields]
    split
    next =>
      obtain ⟨warned, kept, _⟩ := state.tends_warn .duplicateDefinition s!"field `{name}` redefined"
        (some range) formed tidy
      exact turn _ (state.tree_warn _ _ _) warned kept
    next => exact turn state rfl formed tidy

private theorem spares_placeConstructor {held later : Class}
    (found : state.tree.classAt? owner = some held) {vacated : State}
    (cleared : Cleared state.tree vacated.tree owner held later) {body : FunctionBody}
    (params : ∀ name ∈ body.params, PlainName name) :
    vacated.tree.Spares (placeConstructor owner held.constructor body vacated).tree owner := by
  have hangs := cleared.same.links (formed.tree.child?_constructor tidy.tree.dotless found)
  have above := cleared.but.formed.parent?_of_child hangs
  have around : owner ∈ vacated.tree.ancestors held.constructor := by
    rw [ancestors_of_parent? cleared.but.formed above]
    exact List.mem_cons_of_mem _ (self_mem_ancestors _ _)
  have size := index_lt_of_find? (cleared.but.formed.find?_child hangs)
  have placed := placed_params params cleared.but around size (.new (.constructor {
    params := (declareParams held.constructor body.params vacated.tree).2, vararg :=
      body.vararg, values := .empty
    selfAlias := selfAlias? body.body })) (fun _ => rfl) rfl rfl
  exact (placed.aside owner).spares (fun _ => cleared.but.formed.not_top cleared.but.top above)
    (cleared.but.formed.ne_root above)

theorem spares_defineConstructor {held : Class} (found : state.tree.classAt? owner = some held)
    (top : state.tree.parent? owner = some root) (ownerName : String) {body : FunctionBody}
    (within : ∀ name ∈ bodyNames body, PlainName name) (range : Range) :
    state.tree.Spares (defineConstructor owner ownerName body range state).tree owner := by
  have params : ∀ param ∈ body.params, PlainName param := fun param member =>
    within param (params_subset body member)
  have first := spares_vacateConstructor formed tidy found ownerName range
  obtain ⟨classes, later, cleared⟩ := cleared_vacateConstructor formed.tree tidy.tree found ownerName range
  have revises := revises_vacateConstructor owner held.constructor ownerName range state
  rw [defineConstructor_eq found]
  dsimp only
  generalize vacateConstructor owner held.constructor ownerName range state =
    vacated at classes cleared revises first ⊢
  have second := spares_placeConstructor formed tidy found cleared params
  obtain ⟨placed, _⟩ := tidy_placeConstructor formed tidy revises found classes cleared within
  have size := index_lt_of_find? (cleared.but.formed.find?_child
    (cleared.same.links (formed.tree.child?_constructor tidy.tree.dotless found)))
  obtain ⟨last, kept⟩ := (revises.trans (revises_placeConstructor size owner body)) formed
  have links := kept.links formed.tree tidy.tree.dotless last.tree placed.tree.dotless
  have both := first.trans second
  generalize placeConstructor owner held.constructor body vacated = made at placed last links both ⊢
  split
  next selfAlias _ =>
    exact both.trans (spares_placeFields last placed (links.parent?_eq formed.tree last.tree top)
      (plain_literalFields within selfAlias) [])
  next =>
    rw [State.tree_warn]
    exact both

end Members

/-! ### Steps -/

private theorem steady_declareGlobalTable (tree : ScopeTree) (name : String) (id : ScopeId) :
    tree.Steady (declareGlobalTable name tree) id := by
  have made := (tree.grows_internChild root name .table).steady id
  unfold declareGlobalTable
  dsimp only
  generalize tree.internChild root name .table = below at made ⊢
  split
  next => exact made
  next vacant =>
    intro held found
    obtain ⟨later, reached, outline⟩ := made found
    have apart : id ≠ below.2 := by
      rintro rfl
      exact vacant (Option.isSome_of_eq_some reached)
    refine ⟨later, ?_, outline⟩
    show (below.1.setEntity below.2 (.new (.table ⟨name, .empty⟩))).entity? id = some later
    rw [entity?_setEntity, if_neg apart, reached]

private theorem steady_declareGlobalValue (config : DiscoveryConfig) (formed : tree.Formed)
    (tidy : tree.Tidy) {name : String} (plain : PlainName name) (value : Option Expr) (range : Range)
    (id : ScopeId) :
    tree.Steady (declareGlobalValue config name value range tree) id := by
  have defined := tends_defineLocal formed tidy formed.root_lt formed.ordinary_root plain range
  unfold declareGlobalValue
  dsimp only
  split
  next =>
    obtain ⟨_, _, grows⟩ := (defined.trans
      (tends_applyEvidence _ (classifyValue config tree (.at_ root) value))) formed tidy
    exact grows.steady id
  next => exact (defined formed tidy).2.2.steady id

variable {config : DiscoveryConfig} {program : Program} {before after : State}

/-- At the top level only a function takes the place of what is there. -/
theorem steady_indexStep (plain : program.Plain) (step : IndexStep config program before after)
    (formed : before.Formed) (tidy : before.Tidy) (top : before.tree.parent? id = some root) :
    before.tree.Steady after.tree id ∨
      ∃ name, after.tree.child? root name = some id ∧ (after.tree.functionAt? id).isSome = true ∧
        (program.DeclaresFunction name ∨ before.tree.classId? name = none) := by
  cases step with
  | @function name body range state named within free =>
    have params : ∀ param ∈ body.params, PlainName param := fun param member =>
      plain param (within (params_subset body member))
    obtain ⟨new, hangs, function, spares⟩ := spares_declareGlobalFunction formed tidy
      (plain _ named) params range
    by_cases same : id = new
    · exact .inr ⟨name, same ▸ hangs, same ▸ function, free⟩
    · exact .inl (spares.steady top same)
  | @table name state named free => exact .inl (steady_declareGlobalTable before.tree name id)
  | value value range named free =>
    exact .inl (steady_declareGlobalValue config formed.tree tidy.tree (plain _ named) value range id)
  | member value range owned named table =>
    have inside : (Frame.at_ root).scope.index < before.tree.size := formed.tree.root_lt
    obtain ⟨_, _, grows⟩ := tends_assignMember formed.tree tidy.tree inside (plain _ owned) (plain _ named)
      (classifyValue config before.tree (.at_ root) value) range formed.tree tidy.tree
    exact .inl (grows.steady id)

/-- While the members of one class are defined, the other scopes of the top level stay as they are. -/
theorem steady_defineStep (plain : program.Plain) {ownerName : String}
    (step : DefineStep config program owner ownerName before after) (formed : before.Formed)
    (tidy : before.Tidy) (isClass : (before.tree.classAt? owner).isSome = true)
    (top : before.tree.parent? id = some root) (apart : id ≠ owner) :
    before.tree.Steady after.tree id := by
  obtain ⟨held, found⟩ := Option.isSome_iff_exists.1 isClass
  have owned := (tidy.tree.shaped found).top
  cases step with
  | constructor range state within =>
    exact (spares_defineConstructor formed tidy found owned ownerName
      (fun name member => plain name (within member)) range).steady
      top apart
  | @function name indexer body range state named within written other =>
    have params : ∀ param ∈ body.params, PlainName param := fun param member =>
      plain param (within (params_subset body member))
    exact (spares_defineFunction formed tidy owned (plain _ named) indexer params range).steady top apart
  | value value range state named =>
    obtain ⟨_, _, grows⟩ := tends_defineValue config formed.tree tidy.tree found (plain _ named) value
      range formed.tree tidy.tree
    exact grows.steady id

end Discovery
end LuaClasses
