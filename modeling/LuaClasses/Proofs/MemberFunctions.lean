import LuaClasses.Proofs.EnteredMembers
import LuaClasses.Proofs.MemberForms

/-! The functions of classes as their last definitions make them. A definition takes the place of all
that stood under its name in the class, and the definitions of other members leave it alone. -/

namespace LuaClasses
namespace ScopeTree

variable {tree before after : ScopeTree} {id : ScopeId}

/-- A change that leaves all entities on a scope and below it as they are. -/
structure Leaves (id : ScopeId) (before after : ScopeTree) : Prop where
  stays : before.Stays after
  kept : ∀ {scope}, id ∈ before.ancestors scope → after.entity? scope = before.entity? scope

theorem Leaves.refl (id : ScopeId) (tree : ScopeTree) : Leaves id tree tree := ⟨.refl tree, fun _ => rfl⟩

theorem Leaves.trans {first second third : ScopeTree} (one : Leaves id first second)
    (two : Leaves id second third) :
    Leaves id first third where
  stays := one.stays.trans two.stays
  kept := fun below => (two.kept (one.stays.mem_ancestors below)).trans (one.kept below)

/-- What is confined to one scope leaves its siblings alone. -/
theorem Confined.leaves {outer parent : ScopeId} (confined : Confined outer before after)
    (last : after.Formed) (left : after.parent? outer = some parent)
    (right : before.parent? id = some parent) (apart : id ≠ outer) :
    Leaves id before after where
  stays := confined.stays
  kept := fun below => confined.others fun around =>
    apart (last.eq_of_mem_ancestors (confined.stays.parent? right) left
      (confined.stays.mem_ancestors below) around)

private theorem leaves_modifyClass (formed : tree.Formed) {owner : ScopeId}
    (above : tree.parent? id = some owner) (f : Class → Class) :
    Leaves id tree (tree.modifyClass owner f) where
  stays := .of_sameShape (sameShape_modifyEntity tree owner _)
  kept := by
    intro scope below
    rw [modifyClass, entity?_modifyEntity, if_neg]
    rintro rfl
    exact formed.not_around above below

end ScopeTree

namespace Discovery
open ScopeTree

variable {tree before after : ScopeTree} {id owner : ScopeId} {name : String}
  {indexer : Indexer} {body : FunctionBody}

/-! ### The scope of a function -/

/-- The scope of a function that a definition has made, with its parameters. -/
structure Built (tree : ScopeTree) (id : ScopeId) (name : String) (indexer : Indexer) (body : FunctionBody)
    (params : List ScopeId) : Prop where
  function : tree.entity? id = some (.new (.function {
    name, kind := FunctionKind.ofIndexer indexer, params, vararg := body.vararg, values := .empty
    returns := initialReturns body.body, hasReturn := hasReturn body.body }))
  params : List.Forall₂ (fun param name => tree.child? id name = some param ∧
    tree.entity? param = some (.new (.variable (.new name none)))) params body.params

theorem Built.leaves {params : List ScopeId} (built : Built before id name indexer body params)
    (formed : before.Formed) (leaves : Leaves id before after) :
    Built after id name indexer body params where
  function := (leaves.kept (self_mem_ancestors before id)).trans built.function
  params := by
    refine built.params.imp fun param name ⟨hangs, held⟩ =>
      ⟨leaves.stays.child? hangs, (leaves.kept ?_).trans held⟩
    rw [ancestors_of_parent? formed (formed.parent?_of_child hangs)]
    exact List.mem_cons_of_mem _ (self_mem_ancestors before id)

/-- A parameter is made and placed. -/
theorem placed_param (plain : '.' ∉ name.toList) (formed : tree.Formed) (level : tree.Level)
    (inside : id.index < tree.size) :
    let made := tree.internChild id name .value
    let placed := made.1.setEntity made.2 (.new (.variable (.new name none)))
    (placed.Formed ∧ placed.Level ∧ id.index < placed.size ∧ tree.Stays placed) ∧
    placed.child? id name = some made.2 ∧
      placed.entity? made.2 = some (.new (.variable (.new name none))) ∧
      ∀ other, other ≠ made.2 → placed.entity? other = tree.entity? other := by
  have hangs := level.dotless.child?_internChild formed plain inside .value
  have grown := formed.internChild inside name .value
  have kept := (tree.neutral_internChild plain id .value (by simp)).level level
  have there := index_internChild .value tree id name
  have stays := tree.stays_intern (DottedName.child (tree.raw id) name) name (some id) .value
  have entities := entity?_internChild .value tree id name
  have grows := (tree.grows_internChild id name .value).index_lt inside
  change tree.Stays (tree.internChild id name .value).1 at stays
  dsimp only
  generalize tree.internChild id name .value = made at hangs grown kept there stays entities grows ⊢
  have same := sameShape_setEntity made.1 made.2 (.new (.variable (.new name none)))
  refine ⟨⟨grown.setEntity (fits_variable _ _ _), kept.of_sameShape same, same.size ▸ grows,
    stays.trans (.of_sameShape same)⟩,
    (same.child? _ _).trans hangs, entity?_setEntity_self there _, fun other apart => ?_⟩
  rw [entity?_setEntity, if_neg apart, entities]

/-- Further parameters leave a parameter as it is; one of the same name is placed on it again. -/
theorem param_kept {names : List String} (plain : ∀ name ∈ names, '.' ∉ name.toList)
    (formed : tree.Formed) (level : tree.Level) (inside : id.index < tree.size) {param : ScopeId}
    (hangs : tree.child? id name = some param)
    (held : tree.entity? param = some (.new (.variable (.new name none)))) :
    (declareParams id names tree).1.child? id name = some param ∧
      (declareParams id names tree).1.entity? param = some (.new (.variable (.new name none))) := by
  induction names generalizing tree with
  | nil => exact ⟨hangs, held⟩
  | cons next rest ih =>
    have step := placed_param (plain next List.mem_cons_self) formed level inside
    rw [declareParams]
    dsimp only at step ⊢
    generalize tree.internChild id next .value = made at step ⊢
    obtain ⟨⟨last, kept, within, stays⟩, there, placed, others⟩ := step
    refine ih (fun other member => plain other (List.mem_cons_of_mem _ member)) last kept
      within (stays.child? hangs) ?_
    by_cases same : param = made.2
    · obtain ⟨_, rfl⟩ := last.child_unique (stays.child? hangs) (there.trans (congrArg some same.symm))
      rw [same, placed]
    · rw [others param same, held]

private theorem params_declareParams {names : List String} (plain : ∀ name ∈ names, '.' ∉ name.toList)
    (formed : tree.Formed) (level : tree.Level) (inside : id.index < tree.size) :
    List.Forall₂ (fun param name => (declareParams id names tree).1.child? id name = some param ∧
        (declareParams id names tree).1.entity? param = some (.new (.variable (.new name none))))
      (declareParams id names tree).2 names := by
  induction names generalizing tree with
  | nil => exact .nil
  | cons name rest ih =>
    have others := fun other member => plain other (List.mem_cons_of_mem name member)
    obtain ⟨⟨last, kept, within, _⟩, there, placed, _⟩ :=
      placed_param (plain name List.mem_cons_self) formed level inside
    exact .cons (param_kept others last kept within there placed) (ih others last kept within)

private theorem built_placeFunction (params : ∀ name ∈ body.params, '.' ∉ name.toList)
    (formed : tree.Formed) (level : tree.Level) (inside : id.index < tree.size) :
    Built (placeFunction tree id name (FunctionKind.ofIndexer indexer) body) id name indexer body
      (declareParams id body.params tree).2 := by
  have below := (revises_placeFunction inside name (FunctionKind.ofIndexer indexer) body
    formed).2.index_lt formed inside
  refine ⟨entity?_placeFunction below, ?_⟩
  have declared := (revises_declareParams body.params formed inside).1
  refine (params_declareParams params formed level inside).imp fun param called ⟨hangs, held⟩ => ?_
  have apart : param ≠ id := by
    rintro rfl
    exact Nat.lt_irrefl _ (declared.older (declared.parent?_of_child hangs))
  refine ⟨((sameShape_setEntity _ id _).child? _ _).trans hangs, ?_⟩
  rw [placeFunction]
  dsimp only
  rw [entity?_setEntity, if_neg apart, held]

/-! ### Classes and their functions -/

/-- How a class lists a function: by its indexer, and neither otherwise nor as a value. -/
structure Class.Lists (held : Class) (indexer : Indexer) (name : String) (id : ScopeId) : Prop where
  functions : held.functions.get? name = if indexer = .dot then some id else none
  methods : held.methods.get? name = if indexer = .colon then some id else none
  values : held.values.get? name = none

private theorem lists_enterFunction (held : Class) (indexer : Indexer) (name : String) (id : ScopeId) :
    Class.Lists (Class.enterFunction held indexer name id) indexer name id := by
  refine ⟨?_, ?_, ?_⟩
  · rw [get?_functions_enterFunction, if_pos rfl]
  · rw [get?_methods_enterFunction, if_pos rfl]
  · rw [values_enterFunction, OrderedMap.get?_erase, if_pos rfl]

/-- A function of a class as a definition has made it. -/
structure Defined (tree : ScopeTree) (owner : ScopeId) (held : Class) (indexer : Indexer)
    (name : String) (body : FunctionBody)
    (id : ScopeId) : Prop where
  hangs : tree.child? owner name = some id
  lists : Class.Lists held indexer name id
  built : ∃ params, Built tree id name indexer body params

/-- The names under which the scopes of the constructor and of the fields of a class stand. -/
def Reserved (name : String) : Prop := name = "constructor" ∨ name = fieldsName

/-- Whether the functions whose bodies belong to a class stand in the tree as these bodies say. -/
def ClassBodies.Matched (tree : ScopeTree) (bodies : ClassBodies) : Prop :=
  ∀ held, tree.classAt? bodies.owner = some held → ∀ indexer name id body, ¬Reserved name →
    (bodies.listed indexer).get? name = some (id, body) → Defined tree bodies.owner held indexer name body id

/-- A change to a class that leaves the members of most names alone. -/
structure Retouches (owner : ScopeId) (held later : Class) (but : String → Prop)
    (before after : ScopeTree) : Prop where
  found : after.classAt? owner = some later
  functions : ∀ {called}, ¬but called → later.functions.get? called = held.functions.get? called
  methods : ∀ {called}, ¬but called → later.methods.get? called = held.methods.get? called
  values : ∀ {called}, ¬but called → later.values.get? called = held.values.get? called
  leaves : ∀ {called id}, ¬but called → before.child? owner called = some id → Leaves id before after

theorem Retouches.defined {held later : Class} {but : String → Prop}
    (retouches : Retouches owner held later but before after) (formed : before.Formed)
    (other : ¬but name) (defined : Defined before owner held indexer name body id) :
    Defined after owner later indexer name body id := by
  obtain ⟨hangs, lists, params, built⟩ := defined
  have leaves := retouches.leaves other hangs
  refine ⟨leaves.stays.child? hangs, ⟨?_, ?_, ?_⟩, params, built.leaves formed leaves⟩
  · rw [retouches.functions other, lists.functions]
  · rw [retouches.methods other, lists.methods]
  · rw [retouches.values other, lists.values]

/-! ### The definitions of other members -/

private theorem leaves_clearDescendants (formed : tree.Formed) {outer parent : ScopeId}
    (left : tree.parent? outer = some parent) (right : tree.parent? id = some parent)
    (apart : id ≠ outer) : Leaves id tree (tree.clearDescendants outer) := by
  have confined := confined_clearDescendants formed (self_mem_ancestors tree outer)
  exact confined.leaves (revises_clearDescendants tree outer formed).1
    (confined.stays.parent? left) right apart

private theorem leaves_dropConstructor (formed : tree.Formed) {constructor : ScopeId}
    (constructed : tree.child? owner "constructor" = some constructor)
    (hangs : tree.child? owner name = some id) (free : ¬Reserved name) :
    Leaves id tree (dropConstructor owner constructor tree) := by
  obtain ⟨other, free⟩ := not_or.1 free
  have apart : ∀ {called member}, tree.child? owner called = some member → name ≠ called → id ≠ member := by
    rintro called _ below different rfl
    exact different (formed.child_unique hangs below).2
  have first := leaves_clearDescendants formed (formed.parent?_of_child constructed)
    (formed.parent?_of_child hangs)
    (apart constructed other)
  have same := sameShape_clearDescendants tree constructor
  have middle := (revises_clearDescendants tree constructor formed).1
  unfold dropConstructor
  dsimp only
  generalize tree.clearDescendants constructor = cleared at first same middle ⊢
  have above := middle.parent?_of_child (first.stays.child? hangs)
  split
  next fields below =>
    have second := leaves_clearDescendants middle (middle.parent?_of_child below) above
      (apart ((same.child? _ _).symm.trans below) free)
    have last := (revises_clearDescendants cleared fields middle).1
    exact (first.trans second).trans (leaves_modifyClass last (second.stays.parent? above) _)
  next => exact first.trans (leaves_modifyClass middle above _)

private theorem leaves_placeField (formed : tree.Formed) (level : tree.Level)
    (inside : owner.index < tree.size) {field : String} (plain : '.' ∉ field.toList) (range : Range)
    (type : LuaType) (hangs : tree.child? owner name = some id) (free : name ≠ fieldsName) :
    Leaves id tree (placeField owner range tree field type) := by
  obtain ⟨placed, member, place, _, same⟩ := placeField_inPlace formed level inside plain range type
  obtain ⟨fields, outer, inner⟩ := place.there
  have above := place.formed.parent?_of_child inner
  have within : fields ∈ placed.ancestors member := by
    rw [ancestors_of_parent? place.formed above]
    exact List.mem_cons_of_mem _ (self_mem_ancestors placed fields)
  have apart : id ≠ fields := by
    rintro rfl
    exact free (place.formed.child_unique (place.confined.stays.child? hangs) outer).2
  have leaves := (place.confined.widen place.formed within).leaves place.formed
    (place.formed.parent?_of_child outer)
    (formed.parent?_of_child hangs) apart
  rw [same]
  exact leaves.trans (leaves_modifyClass place.formed
    (leaves.stays.parent? (formed.parent?_of_child hangs)) _)

private theorem leaves_placeFields {entries : List (String × LuaType × Range)}
    (plain : ∀ entry ∈ entries, '.' ∉ entry.1.toList) (seen : List String) {state : State}
    (formed : state.tree.Formed) (level : state.tree.Level) (inside : owner.index < state.tree.size)
    (hangs : state.tree.child? owner name = some id) (free : name ≠ fieldsName) :
    Leaves id state.tree (placeFields owner entries seen state).tree := by
  induction entries generalizing seen state with
  | nil => exact .refl id _
  | cons entry rest ih =>
    obtain ⟨field, type, range⟩ := entry
    have dotless := plain _ List.mem_cons_self
    have first := leaves_placeField formed level inside dotless range type hangs free
    obtain ⟨last, kept⟩ := revises_placeField inside range field type formed
    obtain ⟨placed, member, place, _, same⟩ := placeField_inPlace formed level inside dotless range type
    have level : (placeField owner range state.tree field type).Level := same ▸ (place.listed _).level level
    have turn : ∀ next : State, next.tree = placeField owner range state.tree field type →
        Leaves id state.tree (placeFields owner rest (field :: seen) next).tree := by
      intro next equal
      rw [← equal] at first last kept level
      exact first.trans (ih (fun other member => plain other (List.mem_cons_of_mem _ member))
        (field :: seen) last level
        (kept.index_lt formed inside) (first.stays.child? hangs))
    rw [placeFields]
    split
    next => exact turn _ (congrArg (placeField owner range · field type) (state.tree_warn _ _ _))
    next => exact turn _ rfl

private theorem classAt?_defineValue (config : DiscoveryConfig) (formed : tree.Formed)
    (level : tree.Level) {held : Class} (found : tree.classAt? owner = some held)
    (inside : owner.index < tree.size) (plain : '.' ∉ name.toList) (value : Option Expr) (range : Range) :
    ∃ values, (defineValue config owner name value range tree).classAt? owner = some { held with values } ∧
      ∀ called, called ≠ name → values.get? called = held.values.get? called := by
  have place := inPlace_value formed level inside plain
  have entities := entity?_internChild .value tree owner name
  rw [defineValue_eq]
  dsimp only
  generalize tree.internChild owner name .value = made at place entities ⊢
  have apart : owner ≠ made.2 := fun equal =>
    place.formed.not_around (place.formed.parent?_of_child place.hangs) (equal ▸ self_mem_ancestors _ _)
  have known : made.1.classAt? owner = some held := by rw [classAt?, entities, ← classAt?, found]
  obtain ⟨values, placed, same⟩ : ∃ values, (placeValue owner name range made.1 made.2).classAt? owner =
    some { held with values } ∧
      ∀ called, called ≠ name → values.get? called = held.values.get? called := by
    unfold placeValue
    split
    next => exact ⟨held.values, known, fun _ _ => rfl⟩
    next =>
      refine ⟨held.values.insert name made.2, ?_, fun called other => ?_⟩
      · rw [classAt?_modifyClass_self, classAt?, entity?_setEntity, if_neg apart, ← classAt?, known]
        rfl
      · rw [OrderedMap.get?_insert, if_neg other]
  refine ⟨values, ?_, same⟩
  refine applyValue_cases (motive := fun after => after.classAt? owner = some { held with values })
    config owner value placed
    fun evidence => ?_
  exact (congrArg (Option.bind · Entity.asClass?) (entity?_applyEvidence_other apart evidence)).trans placed

section Steps

variable {state : State} {held : Class} (formed : state.tree.Formed) (level : state.tree.Level)
  (found : state.tree.classAt? owner = some held)
include formed level found

/-- A constructor is entered without a change to the functions of the class. -/
theorem leaves_defineConstructor (ownerName : String)
    (plain : ∀ name ∈ bodyNames body, '.' ∉ name.toList) (range : Range)
    (hangs : state.tree.child? owner name = some id) (free : ¬Reserved name) :
    Leaves id state.tree (defineConstructor owner ownerName body range state).tree := by
  have constructed := formed.child?_constructor level.dotless found
  have above := formed.parent?_of_child constructed
  have vacated : Leaves id state.tree (vacateConstructor owner held.constructor ownerName range state).tree ∧
      (vacateConstructor owner held.constructor ownerName range state).tree.Formed ∧
      (vacateConstructor owner held.constructor ownerName range state).tree.Level := by
    unfold vacateConstructor
    split
    next =>
      exact ⟨leaves_dropConstructor formed constructed hangs free,
        (revises_dropConstructor owner held.constructor state.tree formed).1,
        (confined_dropConstructor formed above).level level⟩
    next => exact ⟨.refl id _, formed, level⟩
  rw [defineConstructor_eq found]
  dsimp only
  generalize vacateConstructor owner held.constructor ownerName range state = cleared at vacated ⊢
  obtain ⟨first, formed, level⟩ := vacated
  have constructed := first.stays.child? constructed
  have hangs := first.stays.child? hangs
  obtain ⟨node, present, _⟩ := formed.child constructed
  have params : ∀ name ∈ body.params, '.' ∉ name.toList := fun name member =>
    plain name (params_subset body member)
  obtain ⟨last, confined, _⟩ := confined_placeConstructor formed level owner
    (index_lt_of_node? present) params
  have second := confined.leaves last (confined.stays.parent? (formed.parent?_of_child constructed))
    (formed.parent?_of_child hangs) fun same => free (.inl (formed.child_unique hangs (same ▸ constructed)).2)
  have level := confined.level level
  generalize placeConstructor owner held.constructor body cleared = made at last second level ⊢
  have constructed := second.stays.child? constructed
  cases named : selfAlias? body.body with
  | none =>
    dsimp only
    rw [State.tree_warn]
    exact first.trans second
  | some self =>
    obtain ⟨node, present, _⟩ := Option.bind_eq_some_iff.1 constructed
    dsimp only
    refine (first.trans second).trans (leaves_placeFields
      (fun entry member => plain _ (names_literals ?_)) [] last level
      (index_lt_of_node? present) (second.stays.child? hangs) (not_or.1 free).2)
    rw [FunctionBody.literals, named]
    exact member

/-- What the definition of a function makes of its class. -/
theorem defined_defineFunction (plain : '.' ∉ name.toList)
    (params : ∀ name ∈ body.params, '.' ∉ name.toList) (range : Range) :
    ∃ id, Defined (defineFunction owner name indexer body range state).tree owner
      (Class.enterFunction held indexer name id)
        indexer name body id ∧
      Retouches owner held (Class.enterFunction held indexer name id) (· = name) state.tree
        (defineFunction owner name indexer body range state).tree ∧
      (defineFunction owner name indexer body range state).classes =
        state.classes.map fun bodies => if bodies.owner = owner then bodies.enterFunction indexer name
          id body else bodies := by
  have inside := index_lt_of_classAt? found
  have place := inPlace_function formed level inside plain (FunctionKind.ofIndexer indexer) params
    (redefined (state.tree.internChild owner name .function).1 owner indexer name) range
  have grown := formed.internChild inside name .function
  have kept := (state.tree.neutral_internChild plain owner .function (by simp)).level level
  have there := index_internChild .function state.tree owner name
  rw [defineFunction_eq]
  dsimp only at place ⊢
  generalize state.tree.internChild owner name .function = made at place grown kept there ⊢
  have same := sameShape_vacate (state.withTree made.1) made.2 (redefined made.1 owner indexer name) range
  have cleared := formed_vacate (show (state.withTree made.1).tree.Formed from grown) made.2
    (redefined made.1 owner indexer name)
    range
  have classes := classes_vacate (state.withTree made.1) made.2 (redefined made.1 owner indexer name) range
  generalize (state.withTree made.1).vacate made.2 (redefined made.1 owner indexer name) range = vacated
    at place same cleared classes ⊢
  have built : Built (placeFunction vacated.tree made.2 name (FunctionKind.ofIndexer indexer) body)
      made.2 name indexer body _ :=
    built_placeFunction params cleared (kept.of_sameShape same) (same.size.symm ▸ there)
  generalize placeFunction vacated.tree made.2 name (FunctionKind.ofIndexer indexer)
    body = placed at place built ⊢
  have above := place.formed.parent?_of_child place.hangs
  have known : (placed.modifyClass owner fun held => Class.enterFunction held indexer
    name made.2).classAt? owner =
      some (Class.enterFunction held indexer name made.2) := by
    rw [classAt?_modifyClass_self, classAt?, place.owner_kept, ← classAt?, found]
    rfl
  have listed := leaves_modifyClass place.formed above fun held =>
    Class.enterFunction held indexer name made.2
  refine ⟨made.2, ⟨listed.stays.child? place.hangs, lists_enterFunction held indexer name made.2, _,
    built.leaves place.formed listed⟩,
    ⟨known, fun {called} other => ?_, fun {called} other => ?_, fun {called} other => ?_,
      fun {called member} other hangs => ?_⟩, ?_⟩
  · rw [get?_functions_enterFunction, if_neg other]
  · rw [get?_methods_enterFunction, if_neg other]
  · rw [values_enterFunction, OrderedMap.get?_erase, if_neg other]
  · have beside := formed.parent?_of_child hangs
    have leaves := place.confined.leaves place.formed above beside fun same =>
      other (place.formed.child_unique (place.confined.stays.child? hangs) (same ▸ place.hangs)).2
    exact leaves.trans (leaves_modifyClass place.formed (leaves.stays.parent? beside) _)
  · simp only [State.modifyBodies, State.withTree, classes]

/-- A value under another name than that of a function. -/
theorem retouches_defineValue (config : DiscoveryConfig) (plain : '.' ∉ name.toList)
    (value : Option Expr) (range : Range) :
    ∃ values, Retouches owner held { held with values } (· = name) state.tree
      (defineValue config owner name value range state.tree) := by
  have inside := index_lt_of_classAt? found
  have place := inPlace_value formed level inside plain
  have stays := (confined_defineValue config formed level inside plain value range).stays
  obtain ⟨_, others, _⟩ := valueEntered_defineValue config formed level found inside plain value range
  obtain ⟨values, known, same⟩ := classAt?_defineValue config formed level found inside plain value range
  generalize defineValue config owner name value range state.tree = after at stays others known ⊢
  refine ⟨values, known, fun _ => rfl, fun _ => rfl, fun other => same _ other,
    fun {called id} other hangs => ⟨stays, fun below => ?_⟩⟩
  have above := formed.parent?_of_child hangs
  refine others (fun equal => formed.not_around above (equal ▸ below)) fun equal => ?_
  -- The scope of the value hangs beside the function, even where it is new.
  subst equal
  have within := place.confined.stays.mem_ancestors below
  have apart : id ≠ (state.tree.internChild owner name .value).2 := fun equal =>
    other (place.formed.child_unique (place.confined.stays.child? hangs) (equal ▸ place.hangs)).2
  exact place.formed.not_around_sibling (place.confined.stays.parent? above)
    (place.formed.parent?_of_child place.hangs) apart within

omit level found in
/-- A value under the name of a function is left out. -/
theorem defineValue_function (config : DiscoveryConfig)
    (defined : Defined state.tree owner held indexer name body id) (value : Option Expr) (range : Range) :
    defineValue config owner name value range state.tree = state.tree := by
  obtain ⟨hangs, _, params, built, _⟩ := defined
  have occupied : state.tree.hasEntity id = true := Option.isSome_of_eq_some built
  have other : state.tree.variableAt? id = none := by
    rw [variableAt?, built]
    rfl
  rw [defineValue_eq, internChild_found .value (formed.find?_child hangs)]
  dsimp only
  rw [placeValue, if_pos occupied]
  unfold applyValue
  rw [other]
  rfl

end Steps

/-! ### The definitions of all classes -/

section Bodies

variable {state : State} {held : Class}

private theorem Retouches.matched {later : Class} {but : String → Prop} {bodies : ClassBodies}
    (retouches : Retouches bodies.owner held later but before after) (formed : before.Formed)
    (found : before.classAt? bodies.owner = some held) (matched : bodies.Matched before)
    (free : ∀ indexer name id body, ¬Reserved name → (bodies.listed indexer).get? name =
      some (id, body) → but name →
      Defined after bodies.owner later indexer name body id) :
    bodies.Matched after := by
  intro reached known indexer name id body proper listed
  cases retouches.found.symm.trans known
  by_cases touched : but name
  · exact free indexer name id body proper listed touched
  · exact retouches.defined formed touched (matched held found indexer name id body proper listed)

/-- A step of a class leaves the functions of the other classes alone. -/
theorem Spared.matched {after : State} (spared : Spared owner state after) (formed : state.Formed)
    (level : state.tree.Level) (node : state.tree.ClassNode owner) {bodies : ClassBodies}
    (another : state.tree.ClassNode bodies.owner) (apart : bodies.owner ≠ owner)
    (matched : bodies.Matched state.tree) : bodies.Matched after.tree := by
  have kept : ∀ {scope}, bodies.owner ∈ state.tree.ancestors scope → after.tree.entity? scope =
      state.tree.entity? scope :=
    fun below => spared.kept level node another apart below
  intro held found indexer name id body proper listed
  rw [classAt?, kept (self_mem_ancestors state.tree bodies.owner), ← classAt?] at found
  obtain ⟨hangs, lists, params, built⟩ := matched held found indexer name id body proper listed
  have within : bodies.owner ∈ state.tree.ancestors id := by
    rw [ancestors_of_parent? formed.tree (formed.tree.parent?_of_child hangs)]
    exact List.mem_cons_of_mem _ (self_mem_ancestors _ _)
  have leaves : Leaves id state.tree after.tree :=
    ⟨spared.confined.stays, fun below => kept (mem_ancestors_trans formed.tree within below)⟩
  exact ⟨leaves.stays.child? hangs, lists, params, built.leaves formed.tree leaves⟩

variable (formed : state.Formed) (level : state.tree.Level) (found : state.tree.classAt? owner = some held)
include formed level found

private theorem matched_defineConstructor
    (bare : (state.bodies? owner).bind ClassBodies.constructor = none → held.fields = .empty)
    (plain : ∀ name ∈ bodyNames body, '.' ∉ name.toList) (range : Range) {bodies : ClassBodies}
    (own : bodies.owner = owner) (matched : bodies.Matched state.tree) :
    ({ bodies with constructor := some body } : ClassBodies).Matched
    (defineConstructor owner held.name body range state).tree := by
  subst own
  obtain ⟨_, ⟨fields, known, _⟩, _, _⟩ := defineConstructor_entered formed.tree level found
    bare held.name plain range
  have retouches : Retouches bodies.owner held { held with fields } Reserved state.tree
      (defineConstructor bodies.owner held.name body range state).tree :=
    ⟨known, fun _ => rfl, fun _ => rfl, fun _ => rfl,
      fun free hangs => leaves_defineConstructor formed.tree level found held.name plain range hangs free⟩
  have same : bodies.Matched (defineConstructor bodies.owner held.name body range state).tree :=
    retouches.matched formed.tree found matched fun _ _ _ _ proper _ reserved => absurd reserved proper
  intro later reached indexer name id function proper listed
  refine same later reached indexer name id function proper ?_
  cases indexer <;> exact listed

private theorem matched_defineFunction (plain : '.' ∉ name.toList)
    (params : ∀ name ∈ body.params, '.' ∉ name.toList) (range : Range) :
    ∃ id, (defineFunction owner name indexer body range state).classes = (state.classes.map fun bodies =>
        if bodies.owner = owner then bodies.enterFunction indexer name id body else bodies) ∧
      ∀ bodies : ClassBodies, bodies.owner = owner → bodies.Matched state.tree →
        (bodies.enterFunction indexer name id body).Matched
        (defineFunction owner name indexer body range state).tree := by
  obtain ⟨id, defined, retouches, classes⟩ := @defined_defineFunction owner name indexer body state held
    formed.tree level found plain params range
  refine ⟨id, classes, ?_⟩
  rintro bodies rfl matched
  have own : (bodies.enterFunction indexer name id body).owner = bodies.owner := by cases indexer <;> rfl
  intro later reached kind called other function proper listed
  rw [own] at reached ⊢
  cases retouches.found.symm.trans reached
  rw [get?_listed_enter] at listed
  split at listed
  next same =>
    subst same
    split at listed
    next same =>
      subst same
      cases listed
      exact defined
    next => cases listed
  next apart =>
    exact retouches.defined formed.tree apart (matched held found kind called other function proper listed)

private theorem matched_defineValue (config : DiscoveryConfig) (plain : '.' ∉ name.toList)
    (value : Option Expr) (range : Range) {bodies : ClassBodies} (own : bodies.owner = owner)
    (matched : bodies.Matched state.tree) :
    bodies.Matched (defineValue config owner name value range state.tree) := by
  subst own
  obtain ⟨values, retouches⟩ := retouches_defineValue formed.tree level found config plain value range
  refine retouches.matched formed.tree found matched fun indexer called id body proper listed same => ?_
  subst same
  have defined := matched held found indexer called id body proper listed
  have kept := defineValue_function formed.tree config defined value range
  have known := retouches.found
  rw [kept] at known ⊢
  exact Option.some.inj (found.symm.trans known) ▸ defined

end Bodies

section Whole

variable {config : DiscoveryConfig} {program : Program} {state : State} {done : ScopeId → List MemberStep}

/-- The functions of all classes. -/
def State.Matched (state : State) : Prop := ∀ bodies ∈ state.classes, bodies.Matched state.tree

private theorem Roster.matched (roster : Roster config done state) (matched : state.Matched)
    {held : Class} (listed : owner ∈ state.owners) (found : state.tree.classAt? owner = some held)
    (step : MemberStep) (plain : ∀ name ∈ step.names, '.' ∉ name.toList) :
    (step.run config owner held.name state).Matched := by
  have node := roster.node listed
  have spared := (roster.enters listed found step plain).spared
  have entered : ∀ f : ClassBodies → ClassBodies,
      ((step.run config owner held.name state).classes = state.classes.map fun bodies =>
        if bodies.owner = owner then f bodies else bodies) →
      (∀ bodies : ClassBodies, bodies.owner = owner → bodies.Matched state.tree →
        (f bodies).Matched (step.run config owner held.name state).tree) →
      (step.run config owner held.name state).Matched := by
    intro f classes each bodies member
    rw [classes] at member
    obtain ⟨old, known, rfl⟩ := List.mem_map.1 member
    split
    next own => exact each old own (matched old known)
    next apart =>
      exact spared.matched roster.formed roster.level node (roster.node (List.mem_map_of_mem known))
        apart (matched old known)
  have bare := fields_eq_empty listed (fun bodies member same => same ▸ roster.entered bodies member) found
  obtain ⟨formed, level, _⟩ := roster
  cases step with
  | function indexer name body range =>
    have within : ∀ name ∈ bodyNames body, '.' ∉ name.toList := fun name member =>
      plain name (List.mem_cons_of_mem _ member)
    rw [MemberStep.run] at entered ⊢
    split
    next same =>
      subst same
      rw [if_pos rfl] at entered
      obtain ⟨_, _, _, classes⟩ := defineConstructor_entered formed.tree level found
        bare held.name within range
      exact entered _ classes fun bodies => matched_defineConstructor formed level found bare within range
    next other =>
      rw [if_neg other] at entered
      have params : ∀ name ∈ body.params, '.' ∉ name.toList := fun param member =>
        within param (params_subset body member)
      obtain ⟨id, classes, each⟩ := matched_defineFunction formed level found
        (plain name List.mem_cons_self) params range
      exact entered _ classes each
  | value name value range =>
    refine entered id (by simp [MemberStep.run, State.withTree]) fun bodies => ?_
    exact matched_defineValue formed level found config (plain name List.mem_cons_self) value range

/-- All classes, each with the definitions that are entered into it, and with its functions in the tree. -/
structure MatchedRoster (config : DiscoveryConfig) (done : ScopeId → List MemberStep) (state : State) :
    Prop where
  roster : Roster config done state
  matched : state.Matched

/-- Once all members are entered, the functions of classes stand in the tree as their bodies say. -/
theorem matched_defined (config : DiscoveryConfig) (dotless : ∀ name ∈ program.names, '.' ∉ name.toList) :
    (defined config program).Matched := by
  have begun : (indexed config program).Matched := by
    intro bodies member held found indexer name id body proper listed
    obtain ⟨_, _, bare⟩ := awaits_indexed config dotless
    rw [(bare bodies member).1] at listed
    cases indexer <;> cases listed
  have roster := roster_indexed config dotless
  have each : ∀ {done state owner held step}, MatchedRoster config done state → owner ∈ state.owners →
      state.tree.classAt? owner = some held → step ∈ program.memberSteps held.name →
      MatchedRoster config (entering done owner [step]) (step.run config owner held.name state) ∧
        Retains state (step.run config owner held.name state) := by
    intro done state owner held step ⟨roster, matched⟩ listed found member
    have dotless := fun name named => dotless name (names_memberSteps member named)
    obtain ⟨next, retains⟩ := roster.run listed found step dotless
    exact ⟨⟨next, roster.matched matched listed found step dotless⟩, retains⟩
  have first : MatchedRoster config (fun _ => []) (indexed config program) := ⟨roster, begun⟩
  obtain ⟨all, last, _⟩ := enter_all (fun known listed found member => each known listed found member)
    first roster.distinct
    (List.Subset.refl _) fun _ _ => rfl
  exact last.matched

end Whole

end Discovery
end LuaClasses
