import LuaClasses.Proofs.EntryWrites
import LuaClasses.Proofs.SweepTours

/-! Each step of the entry of classes and members keeps the tree well put together, and so does
every sweep after it. -/

namespace LuaClasses

theorem ScopeTree.Formed.root_lt {tree : ScopeTree} (formed : tree.Formed) :
    ScopeTree.root.index < tree.size := by
  obtain ⟨node, found, _⟩ := formed.root
  exact index_lt_of_node? found

namespace Discovery
open ScopeTree

/-- Parameters stand below their function at the paths that their names say. -/
theorem revises_declareParams {owner : ScopeId} (names : List String) {tree : ScopeTree}
    (formed : tree.Formed) (inside : owner.index < tree.size) :
    (declareParams owner names tree).1.Formed ∧ tree.Keeps (declareParams owner names tree).1 ∧
      ∀ param ∈ (declareParams owner names tree).2, ∃ name,
        (declareParams owner names tree).1.find? (DottedName.child (tree.raw owner) name) = some param := by
  induction names generalizing tree with
  | nil => exact ⟨formed, fun _ _ found => found, fun _ member => by cases member⟩
  | cons name rest ih =>
    have made := find?_internChild .value tree owner name
    have first := (revises_internChild tree inside name .value).trans
      (revises_setEntity (tree.internChild owner name .value).1 (tree.internChild owner name .value).2
        (.new (.variable (.new name none))) (fits_variable _ _ _))
    obtain ⟨middle, kept⟩ := first formed
    obtain ⟨last, further, placed⟩ := ih middle (kept.index_lt formed inside)
    refine ⟨last, fun path id found => further path id (kept path id found), fun param member => ?_⟩
    rcases List.mem_cons.1 member with rfl | later
    · refine ⟨name, further _ _ ?_⟩
      rw [(sameShape_setEntity _ _ _).find?]
      exact made
    · rw [← kept.raw formed inside]
      exact placed param later

/-- An entity that stores its parameters and nothing else may stand on its scope. -/
theorem revises_placeParams {tree : ScopeTree} {id : ScopeId} (inside : id.index < tree.size)
    (names : List String) {entity : Entity} (slots : ∀ path, entity.kind.slots path = [])
    (params : entity.kind.params = (declareParams id names tree).2) :
    tree.Revises ((declareParams id names tree).1.setEntity id entity) := by
  intro formed
  obtain ⟨middle, kept, placed⟩ := revises_declareParams names formed inside
  have fits : (declareParams id names tree).1.Fits ((declareParams id names tree).1.raw id) entity.kind := by
    rw [kept.raw formed inside]
    refine ⟨fun slot member => ?_, fun param member => placed param (params ▸ member)⟩
    rw [slots] at member
    cases member
  obtain ⟨last, further⟩ := revises_setEntity _ _ _ fits middle
  exact ⟨last, fun path other found => further path other (kept path other found)⟩

theorem revises_placeFunction {tree : ScopeTree} {id : ScopeId} (inside : id.index < tree.size)
    (name : String) (kind : FunctionKind) (body : FunctionBody) :
    tree.Revises (placeFunction tree id name kind body) :=
  revises_placeParams inside body.params (fun _ => rfl) rfl

private theorem revises_vacate (state : State) (id : ScopeId) (message : String) (range : Range) :
    state.Revises (state.vacate id message range) := by
  unfold State.vacate
  split
  next =>
    have dropped := (state.warn .duplicateDefinition message (some range)).revises_withTree
      (revises_clearDescendants _ id)
    rw [State.tree_warn] at dropped
    exact (state.revises_warn .duplicateDefinition message (some range)).trans dropped
  next => exact .refl state

/-- What was vacated has the scopes that it had. -/
theorem sameShape_vacate (state : State) (id : ScopeId) (message : String) (range : Range) :
    SameShape (state.vacate id message range).tree state.tree := by
  unfold State.vacate
  split
  next => exact state.tree.sameShape_clearDescendants id
  next => exact .refl _

private theorem revises_placeClass {tree : ScopeTree} {id : ScopeId} (inside : id.index < tree.size)
    (name : String) (superclass : Option String) :
    tree.Revises (placeClass tree id name superclass) := by
  have below := find?_internChild .function tree id "constructor"
  have grown := revises_internChild tree inside "constructor" .function
  have raw := (grows_internChild tree id "constructor" .function).raw inside
  unfold placeClass
  dsimp only
  generalize tree.internChild id "constructor" .function = made at below grown raw ⊢
  have same := sameShape_setEntity made.1 made.2 (.new (.constructor .new))
  refine grown.trans (.trans (revises_setEntity _ _ _ (fits_bare _ _ (fun _ => rfl) rfl))
    (revises_setEntity _ _ _ ⟨?_, nofun⟩))
  intro slot member
  rcases List.mem_cons.1 member with rfl | nothing
  · rw [same.find?, same.raw, raw]
    exact below
  · cases nothing

theorem revises_declareClass (config : DiscoveryConfig) (name base : String) (range : Range) (state : State) :
    state.Revises (declareClass config name base range state) := by
  intro formed
  rw [declareClass_eq]
  dsimp only
  generalize (if base = config.rootClass then none else some base) = superclass
  have made := state.revises_withTree (revises_internChild state.tree formed.tree.root_lt name .class_)
  have placed := index_internChild .class_ state.tree ScopeTree.root name
  generalize state.tree.internChild ScopeTree.root name .class_ = first at made placed ⊢
  have vacated := made.trans (revises_vacate (state.withTree first.1) first.2
    s!"class `{name}` redefined" range)
  have same := sameShape_vacate (state.withTree first.1) first.2 s!"class `{name}` redefined" range
  generalize (state.withTree first.1).vacate first.2 s!"class `{name}` redefined" range =
    cleared at vacated same ⊢
  have inside : first.2.index < cleared.tree.size := by rw [same.size]; exact placed
  have classed := revises_placeClass inside name superclass
  generalize placeClass cleared.tree first.2 name superclass = tree at classed ⊢
  have classed := cleared.revises_withTree (classed.trans
    (revises_withGlobals tree { tree.globals with classes := tree.globals.classes.insert name first.2 }))
  obtain ⟨middle, _⟩ := vacated formed
  obtain ⟨_, kept⟩ := classed middle
  exact (vacated.trans (classed.trans (State.revises_resetBodies _ (kept.index_lt middle.tree inside))))
    formed

theorem revises_declareStep {config : DiscoveryConfig} {program : Program} {before after : State}
    (step : DeclareStep config program before after) : before.Revises after := by
  cases step with
  | class_ base range state named written => exact revises_declareClass config _ base range before
  | skip message range => exact before.revises_warn _ message range
  | link id =>
    refine before.revises_withTree ?_
    unfold linkClass
    split
    next => exact .refl _
    next =>
      split
      next => exact .refl _
      next => exact revises_modifyClass _ _ _ fun owner fits => ⟨fits.slots, fits.params⟩

/-! ### The top level -/

theorem revises_declareGlobalFunction (name : String) (body : FunctionBody) (range : Range) (state : State) :
    state.Revises (declareGlobalFunction name body range state) := by
  intro formed
  rw [declareGlobalFunction_eq]
  dsimp only
  have made := state.revises_withTree (revises_internChild state.tree formed.tree.root_lt name .function)
  have placed := index_internChild .function state.tree ScopeTree.root name
  generalize state.tree.internChild ScopeTree.root name .function = first at made placed ⊢
  have vacated := made.trans (revises_vacate (state.withTree first.1) first.2
    s!"global function `{name}` redefined" range)
  have same := sameShape_vacate (state.withTree first.1) first.2 s!"global function `{name}` redefined" range
  generalize (state.withTree first.1).vacate first.2 s!"global function `{name}` redefined" range = cleared
    at vacated same ⊢
  have inside : first.2.index < cleared.tree.size := by rw [same.size]; exact placed
  exact vacated.trans (cleared.revises_withTree ((revises_placeFunction inside name .global body).trans
    (revises_withGlobals _ _))) formed

private theorem revises_declareGlobalTable (name : String) {tree : ScopeTree} (formed : tree.Formed) :
    tree.Revises (declareGlobalTable name tree) := by
  have made := revises_internChild tree formed.root_lt name .table
  unfold declareGlobalTable
  dsimp only
  split
  next => exact made.trans (revises_withGlobals _ _)
  next =>
    exact made.trans (.trans (revises_setEntity _ _ _ (fits_bare _ _ (fun _ => rfl) rfl))
      (revises_withGlobals _ _))

private theorem revises_declareGlobalValue (config : DiscoveryConfig) (name : String)
    (value : Option Expr) (range : Range) {tree : ScopeTree} (formed : tree.Formed) :
    tree.Revises (declareGlobalValue config name value range tree) := by
  have made := (advances_defineLocal tree formed.root_lt name range).revises
  unfold declareGlobalValue
  dsimp only
  split
  next => exact made.trans ((advances_applyEvidence _ _ _).revises.trans (revises_withGlobals _ _))
  next => exact made

theorem revises_indexStep {config : DiscoveryConfig} {program : Program} {before after : State}
    (step : IndexStep config program before after) : before.Revises after := by
  intro formed
  cases step with
  | function range named within free => exact revises_declareGlobalFunction _ _ range before formed
  | table named free => exact before.revises_withTree (revises_declareGlobalTable _ formed.tree) formed
  | value value range named free =>
    exact before.revises_withTree (revises_declareGlobalValue config _ value range formed.tree) formed
  | member value range owned named table =>
    exact before.revises_withTree
      (advances_assignMember before.tree (.at_ ScopeTree.root) formed.tree.root_lt _ _ _ range).revises formed

/-! ### The members of a class -/

theorem revises_placeField {tree : ScopeTree} {owner : ScopeId} (inside : owner.index < tree.size)
    (range : Range) (name : String) (type : LuaType) :
    tree.Revises (placeField owner range tree name type) := by
  have made := (advances_internField tree inside name).revises
  have found := find?_internField tree owner name
  have raw := (grows_internField tree owner name).raw inside
  unfold placeField
  dsimp only
  generalize tree.internField owner name = field at made found raw ⊢
  have same := sameShape_setEntity field.1 field.2 (.new (.variable ⟨name, .single type, some range⟩))
  refine made.trans ((revises_setEntity _ _ _ (fits_variable _ _ _)).trans
    (revises_modifyClass _ _ _ fun held fits => ?_))
  refine fits.addField (.new (.class_ held)) (fun fields => fields.insert name field.2)
    (fun _ _ member => OrderedMap.mem_insert member) ?_
  rw [same.find?, same.raw, raw]
  exact found

private theorem revises_placeFields {owner : ScopeId} (fields : List (String × LuaType × Range))
    (seen : List String) {state : State} (inside : owner.index < state.tree.size) :
    state.Revises (placeFields owner fields seen state) := by
  induction fields generalizing seen state with
  | nil => exact .refl state
  | cons field rest ih =>
    obtain ⟨name, type, range⟩ := field
    intro formed
    have turn : ∀ warned : State, warned.tree = state.tree → state.Revises warned →
        state.Revises (placeFields owner rest (name :: seen)
          (warned.withTree (placeField owner range warned.tree name type))) := by
      intro warned same first
      have second := warned.revises_withTree (revises_placeField (same ▸ inside) range name type)
      obtain ⟨middle, kept⟩ := (first.trans second) formed
      exact first.trans (second.trans (ih (name :: seen) (kept.index_lt formed.tree inside)))
    rw [placeFields]
    split
    next => exact turn _ (state.tree_warn _ _ _) (state.revises_warn _ _ _) formed
    next => exact turn state rfl (.refl state) formed

theorem revises_dropConstructor (owner constructor : ScopeId) (tree : ScopeTree) :
    tree.Revises (dropConstructor owner constructor tree) := by
  have bare : ∀ (before : ScopeTree),
      before.Revises (before.modifyClass owner fun held => { held with fields := .empty }) := by
    intro before
    refine revises_modifyClass before _ _ fun held fits => ⟨fun slot member => ?_, fits.params⟩
    simp only [EntityKind.slots, ← List.cons_append, List.mem_append] at member
    rcases member with member | nothing
    · refine fits.slots slot ?_
      simp only [EntityKind.slots, ← List.cons_append, List.mem_append]
      exact .inl member
    · cases nothing
  unfold dropConstructor
  dsimp only
  split
  next => exact (revises_clearDescendants _ _).trans ((revises_clearDescendants _ _).trans (bare _))
  next => exact (revises_clearDescendants _ _).trans (bare _)

theorem revises_vacateConstructor (owner constructor : ScopeId) (ownerName : String) (range : Range)
    (state : State) :
    state.Revises (vacateConstructor owner constructor ownerName range state) := by
  unfold vacateConstructor
  split
  next =>
    have dropped := (state.warn .duplicateDefinition s!"constructor of `{ownerName}` redefined"
      (some range)).revises_withTree
      (by rw [State.tree_warn]; exact revises_dropConstructor owner constructor state.tree)
    exact (state.revises_warn _ _ _).trans dropped
  next => exact .refl state

theorem revises_placeConstructor {state : State} {constructor : ScopeId}
    (inside : constructor.index < state.tree.size) (owner : ScopeId) (body : FunctionBody) :
    state.Revises (placeConstructor owner constructor body state) :=
  (state.revises_withTree (revises_placeParams inside body.params (fun _ => rfl) rfl)).trans
    (State.revises_modifyBodies _ owner fun _ _ before => before)

theorem revises_defineConstructor {state : State} {owner : ScopeId} (inside : owner.index < state.tree.size)
    (ownerName : String) (body : FunctionBody) (range : Range) :
    state.Revises (defineConstructor owner ownerName body range state) := by
  intro formed
  cases held : state.tree.classAt? owner with
  | none => rw [defineConstructor_outside held]; exact State.Revises.refl state formed
  | some owned =>
    rw [defineConstructor_eq held]
    dsimp only
    have below := index_constructor formed.tree held
    have vacated := revises_vacateConstructor owner owned.constructor ownerName range state
    generalize vacateConstructor owner owned.constructor ownerName range state = cleared at vacated ⊢
    obtain ⟨middle, kept⟩ := vacated formed
    have placed := vacated.trans (revises_placeConstructor (kept.index_lt formed.tree below) owner body)
    generalize placeConstructor owner owned.constructor body cleared = made at placed ⊢
    obtain ⟨_, further⟩ := placed formed
    split
    next selfAlias _ =>
      exact placed.trans (revises_placeFields _ [] (further.index_lt formed.tree inside)) formed
    next => exact placed.trans (made.revises_warn _ _ _) formed

theorem mem_placed_erase {path name : String} {members : Members} {slot : String × ScopeId}
    (member : slot ∈ placed path (members.erase name)) : slot ∈ placed path members := by
  obtain ⟨entry, present, rfl⟩ := List.mem_map.1 member
  exact List.mem_map_of_mem (OrderedMap.mem_erase present)

theorem mem_placed_insert {path name : String} {id : ScopeId} {members : Members} {slot : String × ScopeId}
    (member : slot ∈ placed path (members.insert name id)) :
    slot = (DottedName.child path name, id) ∨ slot ∈ placed path members := by
  obtain ⟨entry, present, rfl⟩ := List.mem_map.1 member
  exact (OrderedMap.mem_insert present).imp (fun same => by rw [same]) fun old => List.mem_map_of_mem old

theorem mem_slots_class {path : String} {held : Class} {slot : String × ScopeId} :
    slot ∈ EntityKind.slots path (.class_ held) ↔
      slot = (DottedName.child path "constructor", held.constructor) ∨ slot ∈ placed path held.values ∨
        slot ∈ placed path held.functions ∨ slot ∈ placed path held.methods ∨
        slot ∈ placed (DottedName.child path fieldsName) held.fields := by
  simp only [EntityKind.slots, List.mem_cons, List.mem_append, or_assoc]

/-- Entering a function makes a class store that function and nothing else that is new. -/
theorem slots_enterFunction {path name : String} {held : Class} {indexer : Indexer} {id : ScopeId}
    {slot : String × ScopeId}
    (member : slot ∈ EntityKind.slots path (.class_ (Class.enterFunction held indexer name id))) :
    slot = (DottedName.child path name, id) ∨ slot ∈ EntityKind.slots path (.class_ held) := by
  rw [mem_slots_class] at member ⊢
  cases indexer with
  | dot =>
    rcases member with constructor | value | function | method | field
    · exact .inr (.inl constructor)
    · exact .inr (.inr (.inl (mem_placed_erase value)))
    · exact (mem_placed_insert function).imp_right fun old => .inr (.inr (.inl (mem_placed_erase old)))
    · exact .inr (.inr (.inr (.inr (.inl (mem_placed_erase method)))))
    · exact .inr (.inr (.inr (.inr (.inr field))))
  | colon =>
    rcases member with constructor | value | function | method | field
    · exact .inr (.inl constructor)
    · exact .inr (.inr (.inl (mem_placed_erase value)))
    · exact .inr (.inr (.inr (.inl (mem_placed_erase function))))
    · exact (mem_placed_insert method).imp_right fun old => .inr (.inr (.inr (.inl (mem_placed_erase old))))
    · exact .inr (.inr (.inr (.inr (.inr field))))

def ClassBodies.members (bodies : ClassBodies) : List (String × ScopeId × FunctionBody) :=
  bodies.functions.entries ++ bodies.methods.entries

theorem mem_members_enterFunction {bodies : ClassBodies} {indexer : Indexer} {name : String} {id : ScopeId}
    {body : FunctionBody} {entry : String × ScopeId × FunctionBody}
    (member : entry ∈ (bodies.enterFunction indexer name id body).members) :
    entry = (name, id, body) ∨ entry ∈ bodies.members := by
  have inserted : ∀ {held : OrderedMap (ScopeId × FunctionBody)},
      entry ∈ ((held.erase name).insert name (id, body)).entries →
        entry = (name, id, body) ∨ entry ∈ held.entries :=
    fun present => (OrderedMap.mem_insert present).imp_right OrderedMap.mem_erase
  cases indexer with
  | dot =>
    simp only [ClassBodies.members, ClassBodies.enterFunction, List.mem_append] at member ⊢
    rcases member with function | method
    · exact (inserted function).imp_right .inl
    · exact .inr (.inr (OrderedMap.mem_erase method))
  | colon =>
    simp only [ClassBodies.members, ClassBodies.enterFunction, List.mem_append] at member ⊢
    rcases member with function | method
    · exact .inr (.inl (OrderedMap.mem_erase function))
    · exact (inserted method).imp_right .inr

theorem mem_scopes {bodies : ClassBodies} {id : ScopeId} :
    id ∈ bodies.scopes ↔ id = bodies.owner ∨ ∃ entry ∈ bodies.members, entry.2.1 = id := by
  simp [ClassBodies.scopes, ClassBodies.members, OrderedMap.values, or_and_right, exists_or]

theorem scopes_enterFunction {bodies : ClassBodies} {indexer : Indexer} {name : String} {id other : ScopeId}
    {body : FunctionBody} (scope : other ∈ (bodies.enterFunction indexer name id body).scopes) :
    other = id ∨ other ∈ bodies.scopes := by
  rcases mem_scopes.1 scope with rfl | ⟨entry, member, rfl⟩
  · exact .inr (mem_scopes.2 (.inl (by cases indexer <;> rfl)))
  · rcases mem_members_enterFunction member with rfl | old
    · exact .inl rfl
    · exact .inr (mem_scopes.2 (.inr ⟨entry, old, rfl⟩))

theorem revises_defineFunction {state : State} {owner : ScopeId} (inside : owner.index < state.tree.size)
    (name : String) (indexer : Indexer) (body : FunctionBody) (range : Range) :
    state.Revises (defineFunction owner name indexer body range state) := by
  intro formed
  rw [defineFunction_eq]
  dsimp only
  have made := state.revises_withTree (revises_internChild state.tree inside name .function)
  have found := find?_internChild .function state.tree owner name
  generalize state.tree.internChild owner name .function = first at made found ⊢
  have vacated := made.trans (revises_vacate (state.withTree first.1) first.2
    (redefined first.1 owner indexer name) range)
  have same := sameShape_vacate (state.withTree first.1) first.2 (redefined first.1 owner indexer name) range
  generalize (state.withTree first.1).vacate first.2 (redefined first.1 owner indexer name) range = cleared
    at vacated same ⊢
  obtain ⟨middle, kept⟩ := vacated formed
  have placed : first.2.index < cleared.tree.size := by
    rw [same.size]
    exact index_lt_of_find? found
  have function := revises_placeFunction placed name (FunctionKind.ofIndexer indexer) body
  generalize placeFunction cleared.tree first.2 name (FunctionKind.ofIndexer indexer)
    body = tree at function ⊢
  obtain ⟨_, later⟩ := function middle.tree
  have raw : tree.raw owner = state.tree.raw owner := by
    rw [later.raw middle.tree (kept.index_lt formed.tree inside), kept.raw formed.tree inside]
  have there : tree.find? (DottedName.child (tree.raw owner) name) = some first.2 := by
    rw [raw]
    exact later _ _ ((same.find? _).trans found)
  have listed := cleared.revises_withTree (function.trans (revises_modifyClass tree owner
    (fun held => Class.enterFunction held indexer name first.2) fun held fits => ⟨fun slot member => ?_, ?_⟩))
  · obtain ⟨_, further⟩ := listed middle
    refine (vacated.trans (listed.trans (State.revises_modifyBodies _ owner
      fun bodies _ before id scope => ?_))) formed
    rcases scopes_enterFunction scope with rfl | old
    · exact further.index_lt middle.tree placed
    · exact before id old
  · rcases slots_enterFunction member with rfl | old
    · exact there
    · exact fits.slots slot old
  · cases indexer <;> exact fits.params

theorem revises_defineValue (config : DiscoveryConfig) {tree : ScopeTree} {owner : ScopeId}
    (inside : owner.index < tree.size) (name : String) (value : Option Expr) (range : Range) :
    tree.Revises (defineValue config owner name value range tree) := by
  have made := revises_internChild tree inside name .value
  have found := find?_internChild .value tree owner name
  have raw := (grows_internChild tree owner name .value).raw inside
  rw [defineValue_eq]
  dsimp only
  generalize tree.internChild owner name .value = first at made found raw ⊢
  refine made.trans (.trans ?_ (applyValue_cases config owner value (.refl _)
    fun _ => (advances_applyEvidence _ _ _).revises))
  unfold placeValue
  split
  next => exact .refl _
  next =>
    have same := sameShape_setEntity first.1 first.2 (.new (.variable (.new name (some range))))
    refine (revises_setEntity _ _ _ (fits_variable _ _ _)).trans
      (revises_modifyClass _ _ _ fun held fits => ?_)
    refine fits.addLocal (.new (.class_ held)) (fun values => values.insert name first.2)
      (fun _ _ member => OrderedMap.mem_insert member) ?_
    rw [same.find?, same.raw, raw]
    exact found

theorem revises_defineStep {config : DiscoveryConfig} {program : Program} {owner : ScopeId}
    {ownerName : String} {before after : State}
    (step : DefineStep config program owner ownerName before after)
    (inside : owner.index < before.tree.size) : before.Revises after := by
  cases step with
  | constructor range state within => exact revises_defineConstructor inside ownerName _ range
  | function indexer range state named within written other =>
    exact revises_defineFunction inside _ indexer _ range
  | value value range state named =>
    exact before.revises_withTree (revises_defineValue config inside _ value range)

end Discovery
end LuaClasses
