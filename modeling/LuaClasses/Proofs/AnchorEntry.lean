import LuaClasses.Proofs.AnchorWalk
import LuaClasses.Proofs.Standing

/-! Each step of the entry of classes and members leaves what is stored anchored. A step that drops
entities reports it and gives the one that stored them a new entity; none adds a reference that leads
nowhere. -/

namespace LuaClasses

private theorem Class.stored_enterFunction {held : Class} {indexer : Indexer} {name : String}
    {id : ScopeId} {slot : Spot × ScopeId}
    (member : slot ∈ (EntityKind.class_ (Discovery.Class.enterFunction held indexer name id)).stored) :
    slot = (.below, id) ∨ slot ∈ (EntityKind.class_ held).stored := by
  cases indexer <;>
    simp only [Discovery.Class.enterFunction, EntityKind.stored, List.mem_append, List.mem_map,
      List.mem_cons] at member ⊢ <;>
    grind [OrderedMap.mem_values_insert, OrderedMap.mem_values_erase]

namespace Discovery
open ScopeTree

variable {tree : ScopeTree}

/-! ### Reports -/

/-- Whether something was reported to be defined twice. -/
def State.Reported (state : State) : Prop :=
  ∃ diagnostic ∈ state.diagnostics, diagnostic.kind = .duplicateDefinition

theorem State.Reported.warn {state : State} (reported : state.Reported) (kind : DiagnosticKind)
    (message : String) (range : Option Range) : (state.warn kind message range).Reported := by
  obtain ⟨diagnostic, member, duplicate⟩ := reported
  refine ⟨diagnostic, ?_, duplicate⟩
  rw [State.diagnostics_warn]
  split
  next => exact member
  next => exact List.mem_append_left _ member

private theorem State.reported_duplicate (state : State) (message : String) (range : Option Range) :
    (state.warn .duplicateDefinition message range).Reported := by
  refine ⟨⟨.duplicateDefinition, message, range⟩, ?_, rfl⟩
  rw [State.diagnostics_warn]
  split
  next known => exact known
  next => exact List.mem_append_right _ (List.mem_singleton_self _)

/-- What is known of a step from an anchored tree. -/
structure Renewed (before after : State) : Prop where
  anchored : after.tree.Anchored
  references : ∀ {target}, after.tree.RefersTo target → after.tree.hasEntity target = true ∨
    before.tree.RefersTo target
  /-- Nothing is dropped without a report. -/
  held : ∀ {id}, before.tree.hasEntity id = true → after.tree.hasEntity id = true ∨ after.Reported
  reported : before.Reported → after.Reported

private theorem Renewed.of_anchors {state : State} {tree : ScopeTree} (anchored : state.tree.Anchored)
    (anchors : state.tree.Anchors tree) :
    Renewed state (state.withTree tree) :=
  ⟨anchors.anchoredBut anchored, anchors.references, fun held => .inl (anchors.held held),
    fun reported => reported⟩

theorem Renewed.of_eq {before after last : State} (renewed : Renewed before after)
    (tree : last.tree = after.tree) (diagnostics : last.diagnostics = after.diagnostics) :
    Renewed before last := by
  obtain ⟨nodes, classes, known⟩ := last
  cases tree
  cases diagnostics
  exact ⟨renewed.anchored, renewed.references, renewed.held, renewed.reported⟩

theorem Renewed.extend {before after last : State} (renewed : Renewed before after)
    (anchors : after.tree.Anchors last.tree) (reported : after.Reported → last.Reported) :
    Renewed before last where
  anchored := anchors.anchoredBut renewed.anchored
  references := fun refers => (anchors.references refers).elim .inl fun middle =>
    (renewed.references middle).imp_left anchors.held
  held := fun held => (renewed.held held).imp anchors.held reported
  reported := fun known => reported (renewed.reported known)

theorem Renewed.warn {before after : State} (renewed : Renewed before after) (kind : DiagnosticKind)
    (message : String) (range : Option Range) : Renewed before (after.warn kind message range) := by
  refine ⟨?_, ?_, ?_, fun reported => (renewed.reported reported).warn kind message range⟩
  · rw [State.tree_warn]; exact renewed.anchored
  · rw [State.tree_warn]; exact renewed.references
  · rw [State.tree_warn]; exact fun held => (renewed.held held).imp_right fun reported =>
      reported.warn kind message range

/-- A scope that carries an entity at the top level may be entered in an index. -/
theorem Renewed.withGlobals {before after : State} {name : String} {id : ScopeId}
    (renewed : Renewed before (after.withTree tree)) (hangs : tree.child? root name = some id)
    (stands : tree.hasEntity id = true) {globals : Globals}
    (kept : ∀ other ∈ globals.stored, other = id ∨ other ∈ tree.globals.stored) :
    Renewed before (after.withTree { tree with globals }) := by
  refine ⟨renewed.anchored.withGlobals fun other member => ?_, renewed.references,
    renewed.held, renewed.reported⟩
  rcases kept other member with rfl | old
  · exact .inr ⟨⟨name, hangs⟩, stands⟩
  · exact .inl old

/-! ### Scopes that are emptied -/

/-- A child whose entity is about to be replaced, with nothing below it. -/
structure Emptied (before after : State) (parent : ScopeId) (name : String) (id : ScopeId) : Prop where
  formed : after.tree.Formed
  dotless : after.tree.Dotless
  hangs : after.tree.child? parent name = some id
  anchored : after.tree.AnchoredBut (some id)
  references : ∀ {target}, after.tree.RefersTo target → before.tree.RefersTo target
  held : ∀ {id}, before.tree.hasEntity id = true → after.tree.hasEntity id = true ∨ after.Reported
  reported : before.Reported → after.Reported

theorem Emptied.index_lt {before after : State} {parent id : ScopeId} {name : String}
    (emptied : Emptied before after parent name id) :
    id.index < after.tree.size :=
  index_lt_of_find? (emptied.formed.find?_child emptied.hangs)

private theorem emptied_internChild {state : State} (formed : state.tree.Formed)
    (dotless : state.tree.Dotless) (anchored : state.tree.Anchored) {parent : ScopeId}
    (inside : parent.index < state.tree.size) {name : String} (plain : PlainName name)
    (valueType : ValueType) (message : String) (range : Range) :
    let made := state.tree.internChild parent name valueType
    Emptied state ((state.withTree made.1).vacate made.2 message range) parent name made.2 := by
  intro made
  have middle : made.1.Formed := formed.internChild inside name valueType
  have still : made.1.Dotless := dotless.internChild plain.1 parent valueType
  have hangs : made.1.child? parent name = some made.2 :=
    dotless.child?_internChild formed plain.1 inside valueType
  have anchors : state.tree.Anchors made.1 := .internChild state.tree parent name valueType
  have kept := anchors.anchoredBut anchored
  have same : ∀ id entity, made.1.entity? id = some entity → state.tree.entity? id = some entity := by
    intro id entity held
    rwa [entity?_internChild] at held
  unfold State.vacate
  split
  next =>
    have shape := sameShape_clearDescendants made.1 made.2
    have duplicate := (state.withTree made.1).reported_duplicate message (some range)
    refine ⟨(revises_clearDescendants made.1 made.2 middle).1, still.of_sameShape shape,
      (shape.child? _ _).trans hangs,
      .clearDescendants kept middle ⟨parent, name, hangs, plain.2⟩, fun refers => refers.of_entities
        fun id entity held => ?_,
      fun _ => .inr duplicate, fun _ => duplicate⟩
    exact same id entity (made.1.entity?_of_clearDescendants held)
  next =>
    exact ⟨middle, still, hangs, .weaken kept _, fun refers => refers.of_entities same,
      fun held => .inl (anchors.held held),
      fun reported => reported⟩

/-! ### Parameters -/

private theorem anchors_declareParams {owner : ScopeId} {names : List String}
    (plain : ∀ name ∈ names, PlainName name) (formed : tree.Formed) (dotless : tree.Dotless)
    (inside : owner.index < tree.size) :
    tree.Anchors (declareParams owner names tree).1 ∧
      ∀ param ∈ (declareParams owner names tree).2,
        (declareParams owner names tree).1.Lies owner .below param ∧
        (declareParams owner names tree).1.hasEntity param = true := by
  induction names generalizing tree with
  | nil => exact ⟨.refl tree, nofun⟩
  | cons name rest ih =>
    have named := plain name List.mem_cons_self
    have made := Anchors.internChild tree owner name .value
    have hangs := dotless.child?_internChild formed named.1 inside .value
    have middle := formed.internChild inside name .value
    have still := dotless.internChild named.1 owner .value
    have size := index_internChild .value tree owner name
    have owned := (tree.grows_internChild owner name .value).index_lt inside
    rw [declareParams]
    dsimp only
    generalize tree.internChild owner name .value = first at made hangs middle still size owned ⊢
    have same := sameShape_setEntity first.1 first.2 (.new (.variable (.new name none)))
    have placed : first.1.Anchors (first.1.setEntity first.2 (.new (.variable (.new name none)))) :=
      .place ⟨owner, name, hangs, named.2⟩ rfl
    have formed : (first.1.setEntity first.2 (.new (.variable (.new name none)))).Formed :=
      middle.setEntity (fits_variable _ _ _)
    have held : (first.1.setEntity first.2 (.new (.variable (.new name none)))).hasEntity first.2 = true :=
      hasEntity_setEntity_self size _
    obtain ⟨anchors, params⟩ := ih (fun other member => plain other (List.mem_cons_of_mem _ member)) formed
      (still.of_sameShape same) (same.size ▸ owned)
    refine ⟨made.trans (placed.trans anchors), fun param member => ?_⟩
    rcases List.mem_cons.1 member with rfl | later
    · exact ⟨⟨name, anchors.links (placed.links hangs)⟩, anchors.held held⟩
    · exact params param later

/-- What is known once the entity of a scope is replaced and what it stores is in place again. -/
structure Restored (before after : ScopeTree) (id : ScopeId) : Prop where
  anchored : after.Anchored
  anchors : before.Anchors after
  held : after.hasEntity id = true

private theorem restored_place {id : ScopeId} (inside : id.index < tree.size)
    (anchored : tree.AnchoredBut (some id)) (named : tree.Named id) (kind : EntityKind)
    (stored : ∀ {spot link}, (spot, link) ∈ kind.stored → tree.Lies id spot link ∧ tree.hasEntity link = true)
    :
    Restored tree (tree.setEntity id (.new kind)) id := by
  obtain ⟨kept, anchors⟩ := anchored.place named (.new kind) stored rfl
  exact ⟨kept, anchors, hasEntity_setEntity_self inside _⟩

private theorem stored_params (params : List ScopeId) :
    (params ++ (OrderedMap.empty : Members).values).map (Spot.below, ·) = params.map (.below, ·) := by
  rw [show (OrderedMap.empty : Members).values = [] from rfl, List.append_nil]

/-- An entity that stores its parameters and nothing else may take the place of another. -/
theorem restored_placeParams {id : ScopeId} {names : List String}
    (plain : ∀ name ∈ names, PlainName name) (formed : tree.Formed) (dotless : tree.Dotless)
    (inside : id.index < tree.size) (anchored : tree.AnchoredBut (some id)) (named : tree.Named id)
    {kind : EntityKind} (stored : kind.stored = (declareParams id names tree).2.map (.below, ·)) :
    Restored tree ((declareParams id names tree).1.setEntity id (.new kind)) id := by
  obtain ⟨anchors, params⟩ := anchors_declareParams plain formed dotless inside
  obtain ⟨_, keeps, _⟩ := revises_declareParams names formed inside
  have restored := restored_place (keeps.index_lt formed inside) (anchors.anchoredBut anchored)
    (named.carry anchors.links) kind fun {spot link} member => by
      rw [stored] at member
      obtain ⟨param, listed, same⟩ := List.mem_map.1 member
      cases same
      exact params link listed
  exact ⟨restored.anchored, anchors.trans restored.anchors, restored.held⟩

theorem Restored.extend {before after last : ScopeTree} {id : ScopeId} (restored : Restored before after id)
    (anchors : after.Anchors last) : Restored before last id :=
  ⟨anchors.anchoredBut restored.anchored, restored.anchors.trans anchors, anchors.held restored.held⟩

theorem Emptied.renewed {before after : State} {parent id : ScopeId} {name : String}
    (emptied : Emptied before after parent name id) (restored : Restored after.tree tree id) :
    Renewed before (after.withTree tree) where
  anchored := restored.anchored
  references := fun refers => (restored.anchors.references refers).imp_right emptied.references
  held := fun held => (emptied.held held).imp_left restored.anchors.held
  reported := emptied.reported

/-! ### Classes -/

private theorem restored_placeClass {id : ScopeId} (formed : tree.Formed) (dotless : tree.Dotless)
    (inside : id.index < tree.size) (anchored : tree.AnchoredBut (some id)) (named : tree.Named id)
    (name : String) (superclass : Option String) :
    Restored tree (placeClass tree id name superclass) id := by
  have plain : '.' ∉ "constructor".toList := by decide
  have made := Anchors.internChild tree id "constructor" .function
  have still := dotless.internChild plain id .function
  have hangs := dotless.child?_internChild formed plain inside .function
  have size := index_internChild .function tree id "constructor"
  have owned := (tree.grows_internChild id "constructor" .function).index_lt inside
  unfold placeClass
  dsimp only
  generalize tree.internChild id "constructor" .function = below at made still hangs size owned ⊢
  have same := sameShape_setEntity below.1 below.2 (.new (.constructor .new))
  have constructed : below.1.Anchors (below.1.setEntity below.2 (.new (.constructor .new))) :=
    .place ⟨id, "constructor", hangs, by decide⟩ rfl
  have stands : (below.1.setEntity below.2 (.new (.constructor .new))).hasEntity below.2 = true :=
    hasEntity_setEntity_self size _
  have both := made.trans constructed
  have restored := restored_place (same.size ▸ owned) (both.anchoredBut anchored) (named.carry both.links)
    (.class_ { Class.new name below.2 with superclass }) fun member => by
      rcases List.mem_cons.1 member with new | nothing
      · cases new
        exact ⟨⟨"constructor", constructed.links hangs⟩, stands⟩
      · cases nothing
  exact ⟨restored.anchored, both.trans restored.anchors, restored.held⟩

private theorem renewed_declareClass (config : DiscoveryConfig) {name : String} (plain : PlainName name)
    (base : String) (range : Range) {state : State} (formed : state.Formed) (tidy : state.Tidy)
    (anchored : state.tree.Anchored) :
    Renewed state (declareClass config name base range state) := by
  have emptied := emptied_internChild formed.tree tidy.tree.dotless anchored formed.tree.root_lt plain .class_
    s!"class `{name}` redefined" range
  rw [declareClass_eq]
  dsimp only at emptied ⊢
  generalize (if base = config.rootClass then none else some base) = superclass
  generalize state.tree.internChild root name .class_ = made at emptied ⊢
  generalize (state.withTree made.1).vacate made.2 s!"class `{name}` redefined" range = cleared at emptied ⊢
  have restored := restored_placeClass emptied.formed emptied.dotless emptied.index_lt emptied.anchored
    ⟨root, name, emptied.hangs, plain.2⟩ name superclass
  refine Renewed.of_eq ?_ (tree_resetBodies _ _) (diagnostics_resetBodies _ _)
  refine (emptied.renewed restored).withGlobals (restored.anchors.links emptied.hangs)
    restored.held fun other member => ?_
  simp only [Globals.stored, List.mem_append] at member ⊢
  grind [OrderedMap.mem_values_insert]

/-- A class is linked to one that an index stores. -/
theorem anchors_linkClass (anchored : tree.Anchored) (id : ScopeId) : tree.Anchors (linkClass tree id) := by
  unfold linkClass
  split
  next => exact .refl tree
  next owner held =>
    split
    next => exact .refl tree
    next =>
      refine .modifyEntity (fun entity => entity.references_mapClass _) fun {_ spot link} member => ?_
      rcases Entity.stored_link member with ⟨_, found, same⟩ | old
      · cases same
        obtain ⟨superclass, _, found⟩ := Option.bind_eq_some_iff.1 found
        obtain ⟨parent, _, found⟩ := Option.bind_eq_some_iff.1 found
        obtain ⟨own, _, found⟩ := Option.bind_eq_some_iff.1 found
        split at found
        next =>
          refine .inl (anchored.globals link (List.mem_append_right _ ?_))
          exact List.mem_map_of_mem (OrderedMap.mem_entries_of_get? found)
        next => cases found
      · exact .inr old

theorem renewed_declareStep {config : DiscoveryConfig} {program : Program} (plain : program.Plain)
    {before after : State} (step : DeclareStep config program before after) (formed : before.Formed)
    (tidy : before.Tidy) (anchored : before.tree.Anchored) : Renewed before after := by
  cases step with
  | class_ base range state named written =>
    exact renewed_declareClass config (plain _ named) base range formed tidy anchored
  | skip message range state => exact (Renewed.of_anchors anchored (.refl _)).warn _ message range
  | link id state => exact .of_anchors anchored (anchors_linkClass anchored id)

/-! ### The top level -/

private theorem renewed_declareGlobalFunction {name : String} (plain : PlainName name)
    {body : FunctionBody} (params : ∀ param ∈ body.params, PlainName param) (range : Range)
    {state : State} (formed : state.Formed) (tidy : state.Tidy) (anchored : state.tree.Anchored) :
    Renewed state (declareGlobalFunction name body range state) := by
  have emptied := emptied_internChild formed.tree tidy.tree.dotless anchored
    formed.tree.root_lt plain .function
    s!"global function `{name}` redefined" range
  rw [declareGlobalFunction_eq]
  dsimp only at emptied ⊢
  generalize state.tree.internChild root name .function = made at emptied ⊢
  generalize (state.withTree made.1).vacate made.2 s!"global function `{name}` redefined"
    range = cleared at emptied ⊢
  have restored : Restored cleared.tree (placeFunction cleared.tree made.2 name .global body) made.2 :=
    restored_placeParams params emptied.formed emptied.dotless emptied.index_lt emptied.anchored
      ⟨root, name, emptied.hangs, plain.2⟩ (stored_params _)
  refine (emptied.renewed restored).withGlobals (restored.anchors.links emptied.hangs)
    restored.held fun other member => ?_
  generalize (placeFunction cleared.tree made.2 name .global body).globals = globals at member ⊢
  simp only [Globals.stored, List.mem_append] at member ⊢
  grind [OrderedMap.mem_values_insert, OrderedMap.mem_values_erase]

private theorem renewed_declareGlobalTable {state : State} {name : String} (plain : PlainName name)
    (formed : state.tree.Formed) (dotless : state.tree.Dotless) (anchored : state.tree.Anchored) :
    Renewed state (state.withTree (declareGlobalTable name state.tree)) := by
  have made := Anchors.internChild state.tree root name .table
  have hangs := dotless.child?_internChild formed plain.1 formed.root_lt .table
  have size := index_internChild .table state.tree root name
  unfold declareGlobalTable
  dsimp only
  generalize state.tree.internChild root name .table = below at made hangs size ⊢
  obtain ⟨anchors, held⟩ := anchors_occupy ⟨root, name, hangs, plain.2⟩ size (.table ⟨name, .empty⟩) rfl
  generalize (if below.1.hasEntity below.2 then below.1 else below.1.setEntity below.2
    (.new (.table ⟨name, .empty⟩))) = last
    at anchors held ⊢
  refine (Renewed.of_anchors anchored (made.trans anchors)).withGlobals (anchors.links hangs)
    held fun other member => ?_
  simp only [Globals.stored, List.mem_append] at member ⊢
  grind [OrderedMap.mem_values_insert]

private theorem renewed_declareGlobalValue (config : DiscoveryConfig) {state : State} {name : String}
    (plain : PlainName name) (value : Option Expr) (range : Range) (formed : state.tree.Formed)
    (tidy : state.tree.Tidy) (anchored : state.tree.Anchored) :
    Renewed state (state.withTree (declareGlobalValue config name value range state.tree)) := by
  have stands := (told_classifyValue config (.at_ root) tidy.shaped value).stands
  have made := anchors_defineLocal formed tidy formed.root_lt plain range
  have hangs := (writes_defineLocal formed tidy plain range).hangs
  unfold declareGlobalValue
  dsimp only
  generalize defineLocal state.tree root name range = defined at made hangs ⊢
  generalize classifyValue config state.tree (.at_ root) value = evidence at stands ⊢
  split
  next var =>
    obtain ⟨held, known⟩ := Option.isSome_iff_exists.1 var
    obtain ⟨_, present⟩ := variableAt?_eq_some known
    have applied := anchors_applyEvidence defined.2.1 (stands.mono made)
    refine (Renewed.of_anchors anchored (made.trans applied)).withGlobals (applied.links hangs)
      (applied.held (Option.isSome_of_eq_some present)) fun other member => ?_
    generalize (applyEvidence defined.1 defined.2.1 evidence).1.globals = globals at member ⊢
    simp only [Globals.stored, List.mem_append] at member ⊢
    grind [OrderedMap.mem_values_insert]
  next => exact .of_anchors anchored made

theorem renewed_indexStep {config : DiscoveryConfig} {program : Program} (plain : program.Plain)
    {before after : State} (step : IndexStep config program before after) (formed : before.Formed)
    (tidy : before.Tidy) (anchored : before.tree.Anchored) : Renewed before after := by
  cases step with
  | @function name body range state named within free =>
    exact renewed_declareGlobalFunction (plain _ named)
      (fun param member => plain param (within (params_subset body member))) range
      formed tidy anchored
  | table named free =>
    exact renewed_declareGlobalTable (plain _ named) formed.tree tidy.tree.dotless anchored
  | value value range named free =>
    exact renewed_declareGlobalValue config (plain _ named) value range formed.tree tidy.tree anchored
  | member value range owned named table =>
    have inside : (Frame.at_ root).scope.index < before.tree.size := formed.tree.root_lt
    exact .of_anchors anchored (anchors_assignMember formed.tree tidy.tree inside
      (plain _ owned) (plain _ named)
      (told_classifyValue config _ tidy.tree.shaped value).stands range)

/-! ### Members -/

section Members

variable {owner : ScopeId} {held : Class}

private theorem anchors_defineValue (config : DiscoveryConfig) (formed : tree.Formed) (tidy : tree.Tidy)
    (found : tree.classAt? owner = some held) {name : String} (plain : PlainName name)
    (value : Option Expr) (range : Range) :
    tree.Anchors (defineValue config owner name value range tree) := by
  have inside := index_lt_of_entity? (classAt?_eq_some found).choose_spec
  obtain ⟨_, kept, _⟩ := tends_placeValue formed tidy found plain range formed tidy
  have made := Anchors.internChild tree owner name .value
  have hung := hung_internChild formed tidy inside plain.1 .value
  have size := index_internChild .value tree owner name
  have entities := entity?_internChild .value tree owner name owner
  rw [defineValue_eq]
  dsimp only
  generalize tree.internChild owner name .value = below at kept made hung size entities ⊢
  have placed : tree.Anchors (placeValue owner name range below.1 below.2) := by
    obtain ⟨_, _, _, _, older, _⟩ := hung.formed.child hung.hangs
    unfold placeValue
    split
    next => exact made
    next =>
      rw [modifyClass_values _ fun values => values.insert name below.2]
      · exact made.trans (anchors_addLocal hung.hangs plain.2 (some range)
          (fun _ _ member => OrderedMap.mem_insert member) size)
      · rw [classAt?, entity?_setEntity, if_neg (fun equal => Nat.lt_irrefl _ (equal ▸ older)), entities]
        exact Option.isSome_of_eq_some found
  unfold applyValue
  split
  next =>
    cases value with
    | none => exact placed
    | some value =>
      exact placed.trans (anchors_applyEvidence _ (told_classify config _ kept.shaped value).stands)
  next => exact placed

private theorem renewed_defineFunction {state : State} (formed : state.Formed) (tidy : state.Tidy)
    (anchored : state.tree.Anchored) (inside : owner.index < state.tree.size) {name : String}
    (plain : PlainName name) (indexer : Indexer) {body : FunctionBody}
    (params : ∀ param ∈ body.params, PlainName param) (range : Range) :
    Renewed state (defineFunction owner name indexer body range state) := by
  have emptied := emptied_internChild formed.tree tidy.tree.dotless anchored inside plain .function
    (redefined (state.tree.internChild owner name .function).1 owner indexer name) range
  rw [defineFunction_eq]
  dsimp only at emptied ⊢
  generalize state.tree.internChild owner name .function = made at emptied ⊢
  generalize (state.withTree made.1).vacate made.2 (redefined made.1 owner indexer name)
    range = cleared at emptied ⊢
  have restored : Restored cleared.tree (placeFunction cleared.tree made.2 name
      (FunctionKind.ofIndexer indexer) body) made.2 :=
    restored_placeParams params emptied.formed emptied.dotless emptied.index_lt emptied.anchored
      ⟨owner, name, emptied.hangs, plain.2⟩ (stored_params _)
  generalize placeFunction cleared.tree made.2 name (FunctionKind.ofIndexer indexer)
    body = placed at restored ⊢
  have listed : placed.Anchors (placed.modifyClass owner fun held =>
      Class.enterFunction held indexer name made.2) := by
    refine .modifyEntity (fun entity => entity.references_mapClass _) fun {entity _ _} member => ?_
    obtain ⟨references, kind⟩ := entity
    cases kind with
    | class_ held =>
      rcases Class.stored_enterFunction member with new | old
      · cases new
        exact .inl ⟨⟨name, restored.anchors.links emptied.hangs⟩, restored.held⟩
      · exact .inr old
    | _ => exact .inr member
  exact (emptied.renewed (restored.extend listed)).of_eq rfl rfl

/-! ### Constructors -/

private theorem anchors_placeField (formed : tree.Formed) (tidy : tree.Tidy)
    (inside : owner.index < tree.size) (range : Range) {name : String} (plain : PlainName name)
    (type : LuaType) : tree.Anchors (placeField owner range tree name type) := by
  have made := anchors_internField tree owner name
  obtain ⟨_, there⟩ := tends_internField formed tidy inside plain.1
  have size := index_lt_of_find? (find?_internField tree owner name)
  unfold placeField
  dsimp only
  generalize tree.internField owner name = field at made there size ⊢
  have placed : field.1.Anchors (field.1.setEntity field.2
      (.new (.variable ⟨name, .single type, some range⟩))) := by
    obtain ⟨fields, _, hangs⟩ := there
    exact .place ⟨fields, name, hangs, plain.2⟩ rfl
  have stands : (field.1.setEntity field.2 (.new (.variable ⟨name, .single type, some range⟩))).hasEntity
      field.2 = true :=
    hasEntity_setEntity_self size _
  exact made.trans (placed.trans (anchors_listField (there.carry placed.links) stands
    (f := fun fields => fields.insert name field.2) fun _ _ member => OrderedMap.mem_insert member))

private theorem anchors_placeFields {fields : List (String × LuaType × Range)}
    (plain : ∀ entry ∈ fields, PlainName entry.1) (seen : List String) {state : State}
    (formed : state.tree.Formed) (tidy : state.tree.Tidy) (inside : owner.index < state.tree.size) :
    state.tree.Anchors (placeFields owner fields seen state).tree := by
  induction fields generalizing seen state with
  | nil => exact .refl _
  | cons field rest ih =>
    obtain ⟨name, type, range⟩ := field
    have turn : ∀ warned : State, warned.tree = state.tree → state.tree.Anchors
        (placeFields owner rest (name :: seen)
          (warned.withTree (placeField owner range warned.tree name type))).tree := by
      intro warned same
      have named : PlainName name := plain _ List.mem_cons_self
      rw [same]
      obtain ⟨last, keeps⟩ := revises_placeField inside range name type formed
      have further : (warned.withTree (placeField owner range state.tree name type)).tree.Anchors _ :=
        ih (fun other member => plain other (List.mem_cons_of_mem _ member)) (name :: seen) last
          (tidy_placeField formed tidy inside range named type) (keeps.index_lt formed inside)
      exact (anchors_placeField formed tidy inside range named type).trans further
    rw [placeFields]
    split
    next => exact turn _ (state.tree_warn _ _ _)
    next => exact turn state rfl

private theorem references_dropConstructor {constructor target : ScopeId}
    (refers : (dropConstructor owner constructor tree).RefersTo target) :
    tree.RefersTo target := by
  have cleared : ∀ (tree : ScopeTree) (id : ScopeId),
      (tree.clearDescendants id).RefersTo target → tree.RefersTo target :=
    fun tree id refers => refers.of_entities fun _ _ held => tree.entity?_of_clearDescendants held
  have emptied := refers.of_modifyEntity fun entity => entity.references_mapClass fun held =>
    { held with fields := .empty }
  apply cleared tree constructor
  split at emptied
  next fields _ => exact cleared _ fields emptied
  next => exact emptied

private theorem anchored_dropConstructor (anchored : tree.Anchored) (formed : tree.Formed)
    {constructor : ScopeId} (named : tree.Named constructor) :
    (dropConstructor owner constructor tree).AnchoredBut (some constructor) := by
  have first := AnchoredBut.clearDescendants anchored formed named
  have middle := (revises_clearDescendants tree constructor formed).1
  unfold dropConstructor
  dsimp only
  split
  next fields below => exact first.dropFields middle below
  next =>
    refine Anchors.anchoredBut (.modifyEntity (fun entity => entity.references_mapClass _) fun member =>
      ?_) first
    exact .inr (Entity.stored_dropFields member).1

private theorem emptied_vacateConstructor {state : State} (formed : state.Formed) (tidy : state.Tidy)
    (anchored : state.tree.Anchored) (found : state.tree.classAt? owner = some held) (ownerName : String)
    (range : Range) :
    Emptied state (vacateConstructor owner held.constructor ownerName range state) owner
      "constructor" held.constructor := by
  have hangs := formed.tree.child?_constructor tidy.tree.dotless found
  unfold vacateConstructor
  split
  next =>
    have same := (cleared_dropConstructor formed.tree tidy.tree found).same
    have duplicate := state.reported_duplicate s!"constructor of `{ownerName}` redefined" (some range)
    exact ⟨(revises_dropConstructor owner held.constructor state.tree formed.tree).1,
      tidy.tree.dotless.of_sameShape same,
      (same.child? _ _).trans hangs, anchored_dropConstructor anchored formed.tree
      ⟨owner, "constructor", hangs, by decide⟩,
      references_dropConstructor, fun _ => .inr duplicate, fun _ => duplicate⟩
  next =>
    exact ⟨formed.tree, tidy.tree.dotless, hangs, .weaken anchored _,
      fun refers => refers, fun held => .inl held,
      fun reported => reported⟩

private theorem reported_placeFields (fields : List (String × LuaType × Range)) (seen : List String)
    {state : State} (reported : state.Reported) : (placeFields owner fields seen state).Reported := by
  induction fields generalizing seen state with
  | nil => exact reported
  | cons field rest ih =>
    obtain ⟨name, type, range⟩ := field
    rw [placeFields]
    apply ih
    split
    next => exact reported.warn _ _ _
    next => exact reported

private theorem renewed_defineConstructor {state : State} (formed : state.Formed) (tidy : state.Tidy)
    (anchored : state.tree.Anchored) (found : state.tree.classAt? owner = some held) (ownerName : String)
    {body : FunctionBody} (within : ∀ name ∈ bodyNames body, PlainName name) (range : Range) :
    Renewed state (defineConstructor owner ownerName body range state) := by
  have emptied := emptied_vacateConstructor formed tidy anchored found ownerName range
  obtain ⟨classes, later, cleared⟩ := cleared_vacateConstructor formed.tree tidy.tree found ownerName range
  have revises := revises_vacateConstructor owner held.constructor ownerName range state
  rw [defineConstructor_eq found]
  dsimp only
  generalize vacateConstructor owner held.constructor ownerName range state =
    vacated at emptied cleared classes revises ⊢
  have restored : Restored vacated.tree (placeConstructor owner held.constructor body vacated).tree
      held.constructor :=
    restored_placeParams (fun param member => within param (params_subset body member))
      emptied.formed emptied.dotless
      emptied.index_lt emptied.anchored ⟨owner, "constructor", emptied.hangs, by decide⟩ (stored_params _)
  have renewed : Renewed state (placeConstructor owner held.constructor body vacated) :=
    (emptied.renewed restored).of_eq rfl rfl
  obtain ⟨placed, _⟩ := tidy_placeConstructor formed tidy revises found classes cleared within
  obtain ⟨last, kept⟩ := (revises.trans (revises_placeConstructor emptied.index_lt owner body)) formed
  have inside := kept.index_lt formed.tree (index_lt_of_entity? (classAt?_eq_some found).choose_spec)
  generalize placeConstructor owner held.constructor body vacated = made at renewed placed last inside ⊢
  split
  next selfAlias _ =>
    have fielded := anchors_placeFields (plain_literalFields within selfAlias) [] last.tree placed.tree inside
    exact renewed.extend fielded (reported_placeFields _ _)
  next => exact renewed.warn _ _ _

theorem renewed_defineStep {config : DiscoveryConfig} {program : Program} (plain : program.Plain)
    {ownerName : String} {before after : State}
    (step : DefineStep config program owner ownerName before after) (formed : before.Formed)
    (tidy : before.Tidy) (found : before.tree.classAt? owner = some held)
    (anchored : before.tree.Anchored) :
    Renewed before after := by
  cases step with
  | constructor range state within =>
    exact renewed_defineConstructor formed tidy anchored found ownerName
      (fun name member => plain name (within member)) range
  | @function name indexer body range state named within written other =>
    exact renewed_defineFunction formed tidy anchored
      (index_lt_of_entity? (classAt?_eq_some found).choose_spec) (plain _ named)
      indexer (fun param member => plain param (within (params_subset body member))) range
  | value value range state named =>
    exact .of_anchors anchored (anchors_defineValue config formed.tree tidy.tree found
      (plain _ named) value range)

end Members
end Discovery
end LuaClasses
