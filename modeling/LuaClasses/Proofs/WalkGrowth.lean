import LuaClasses.Discovery.Sweep
import LuaClasses.Proofs.Formed
import LuaClasses.Proofs.Interning
import LuaClasses.Proofs.Tally

/-! The writes of a walk, each in one equation: which scope it makes, what it places there, and what it
counts. Each of them keeps a tree well put together and only adds to it. -/

namespace LuaClasses

/-- The tree with a new variable on a scope that nothing occupies. -/
def ScopeTree.occupy (tree : ScopeTree) (id : ScopeId) (name : String) (range : Range) : ScopeTree :=
  if tree.hasEntity id then tree else tree.setEntity id (.new (.variable (.new name (some range))))

@[simp] theorem Entity.references_gather (entity : Entity) (types : TypeSet) :
    (entity.gather types).references = entity.references := rfl

namespace Discovery

/-- One if nothing occupies a scope, and nothing otherwise. -/
def vacancy (tree : ScopeTree) (id : ScopeId) : Nat := if tree.hasEntity id then 0 else 1

namespace Evidence

/-- The reference that an entity takes in, which does not lead to the entity itself. -/
def referenceOf (evidence : Evidence) (target : ScopeId) : Option Reference :=
  evidence.reference.filter fun reference => reference.target? ≠ some target

/-- The types that an entity takes in, those of a resolved target included. -/
def typesFor (evidence : Evidence) (tree : ScopeTree) (target : ScopeId) : TypeSet :=
  match (evidence.referenceOf target).bind Reference.target? with
  | some source => evidence.types ∪ referenceTypes tree source
  | .none => evidence.types

/-- What becomes of an entity that takes in evidence, and how much of it is new. -/
def absorb (evidence : Evidence) (tree : ScopeTree) (target : ScopeId) (entity : Entity) : Entity × Nat :=
  let types := evidence.typesFor tree target
  match evidence.referenceOf target with
  | .none => (entity.gather types, entity.newTypes types)
  | some reference =>
    let key := referenceKey tree reference
    if improves entity.references key reference then
      ({ entity.gather types with references := entity.references.insert key reference },
        entity.newTypes types + 1)
    else (entity.gather types, entity.newTypes types)

end Evidence

variable (tree : ScopeTree)

theorem applyEvidence_vacant {target : ScopeId} (vacant : tree.entity? target = none) (evidence : Evidence) :
    applyEvidence tree target evidence = (tree, 0) := by
  simp only [applyEvidence, vacant]

theorem applyEvidence_held {target : ScopeId} {entity : Entity} (held : tree.entity? target = some entity)
    (evidence : Evidence) :
    applyEvidence tree target evidence =
      (tree.setEntity target (evidence.absorb tree target entity).1,
        (evidence.absorb tree target entity).2) := by
  unfold applyEvidence Evidence.absorb
  simp only [held, Evidence.referenceOf, Evidence.typesFor]
  cases evidence.reference.filter fun reference => decide (reference.target? ≠ some target) with
  | none => rfl
  | some reference =>
    simp only [Entity.references_gather]
    cases (some reference).bind Reference.target? <;>
      by_cases better : improves entity.references (referenceKey tree reference) reference = true <;>
        simp only [better, if_true, Bool.false_eq_true, if_false]

theorem enterBlock_eq (parent : ScopeId) (kind : BlockKind) (index : Nat) :
    enterBlock tree parent kind index =
      let made := tree.internChild parent (blockName kind index) .block
      let found := if tree.size < made.1.size then 1 else 0
      if made.1.hasEntity made.2 then (made.1, made.2, found)
      else (made.1.setEntity made.2 (.new (.block ⟨kind, .empty⟩)), made.2, found + 1) := rfl

theorem defineLocal_eq (scope : ScopeId) (name : String) (range : Range) :
    defineLocal tree scope name range =
      let made := tree.internChild scope name .value
      if made.1.hasEntity made.2 then (made.1, made.2, 0)
      else
        let occupied := made.1.setEntity made.2 (.new (.variable (.new name (some range))))
        (occupied.modifyEntity scope (Entity.mapLocals fun locals => locals.insert name made.2), made.2,
          1) := rfl

theorem assignField_eq {frame : Frame} {owner : ScopeId}
    (nearest : tree.nearestClass frame.scope = some owner) (name : String) (evidence : Evidence)
    (range : Range) :
    assignField tree frame name evidence range =
      let made := tree.internField owner name
      let listed := (made.1.occupy made.2 name range).modifyClass owner fun held =>
        { held with fields := held.fields.insertNew name made.2 }
      let applied := applyEvidence listed made.2 evidence
      (applied.1, vacancy made.1 made.2 + applied.2) := by
  simp only [assignField, nearest, ScopeTree.occupy, vacancy]
  split <;> rfl

theorem assignField_outside {frame : Frame} (nearest : tree.nearestClass frame.scope = none)
    (name : String) (evidence : Evidence) (range : Range) :
    assignField tree frame name evidence range = (tree, 0) := by
  simp only [assignField, nearest]

theorem baseScope_eq (scope : ScopeId) (base : String) :
    baseScope tree scope base =
      match tree.lookup base scope with
      | some id => (tree, id, 0)
      | none =>
        let made := tree.internChild scope base .table
        (made.1, made.2, if tree.size < made.1.size then 1 else 0) := rfl

/-- A member of a scope, made as a variable if it is missing. -/
def memberScope (tree : ScopeTree) (parent : ScopeId) (name : String) (range : Range) :
    ScopeTree × ScopeId × Nat :=
  let valueType := if (tree.classAt? parent).isSome then ValueType.value else ValueType.field
  let made := tree.internChild parent name valueType
  if made.1.hasEntity made.2 then (made.1, made.2, 0)
  else
    let occupied := made.1.setEntity made.2 (.new (.variable (.new name (some range))))
    (occupied.modifyEntity parent (Entity.mapLocals fun members => members.insertNew name made.2), made.2, 1)

theorem assignMember_eq (frame : Frame) (base name : String) (evidence : Evidence) (range : Range) :
    assignMember tree frame base name evidence range =
      let owner := baseScope tree frame.scope base
      let member := memberScope owner.1 owner.2.1 name range
      if (member.1.variableAt? member.2.1).isSome then
        let applied := applyEvidence member.1 member.2.1 evidence
        (applied.1, owner.2.2 + member.2.2 + applied.2)
      else (member.1, owner.2.2 + member.2.2) := by
  unfold assignMember memberScope
  dsimp only
  generalize baseScope tree frame.scope base = owner
  generalize owner.1.internChild owner.2.1 name _ = made
  by_cases held : made.1.hasEntity made.2 = true
  · simp only [held, if_true]
  · simp only [held]; rfl

/-- The types known after a reference. One that leads somewhere brings in the types of its target. -/
def bringIn (owner : ScopeId) (types : TypeSet) (reference : Reference) : TypeSet :=
  match destination? tree owner reference with
  | some target => types ∪ referenceTypes tree target
  | none => types

private theorem incoming_eq (owner : ScopeId) (references : List Reference) :
    incoming tree owner references = references.foldl (bringIn tree owner) .empty := rfl

theorem mem_bringIn {tree : ScopeTree} {owner : ScopeId} {types : TypeSet} {reference : Reference}
    {type : LuaType} :
    type ∈ bringIn tree owner types reference ↔
      type ∈ types ∨ ∃ target, destination? tree owner reference = some target ∧
        type ∈ referenceTypes tree target := by
  unfold bringIn
  cases destination? tree owner reference with
  | none => simp only [reduceCtorEq, false_and, exists_false, or_false]
  | some target => simp only [TypeSet.mem_union, Option.some.injEq, exists_eq_left']

/-- What comes in are the types of the scopes to which the references lead. -/
theorem mem_incoming {tree : ScopeTree} {owner : ScopeId} {references : List Reference} {type : LuaType} :
    type ∈ incoming tree owner references ↔
      ∃ reference ∈ references, ∃ target, destination? tree owner reference = some target ∧
        type ∈ referenceTypes tree target := by
  have gathers : ∀ types : TypeSet, type ∈ references.foldl (bringIn tree owner) types ↔
      type ∈ types ∨ ∃ reference ∈ references, ∃ target, destination? tree owner reference = some target ∧
        type ∈ referenceTypes tree target := by
    induction references with
    | nil =>
      intro types
      simp
    | cons reference rest ih =>
      intro types
      simp only [List.foldl_cons, ih, mem_bringIn, List.mem_cons, exists_eq_or_imp, or_assoc]
  rw [incoming_eq]
  refine (gathers .empty).trans (or_iff_right ?_)
  intro nothing
  cases nothing

theorem propagateInto_held {owner : ScopeId} {entity : Entity} (held : tree.entity? owner = some entity) :
    propagateInto tree owner =
      let types := incoming tree owner entity.references.values
      let settled := { entity with references := entity.references.mapValues (settle tree owner) }
      (tree.setEntity owner (settled.gather types),
        settledCount tree owner entity.references.values + entity.newTypes types) := by
  simp only [propagateInto, held]

theorem propagateInto_vacant {owner : ScopeId} (vacant : tree.entity? owner = none) :
    propagateInto tree owner = (tree, 0) := by
  simp only [propagateInto, vacant]

theorem propagate_eq :
    propagate tree = runEach (fun owner tree => propagateInto tree owner) (referrers tree) tree := by
  have loop := foldl_eq_runEach (fun owner tree => propagateInto tree owner) (referrers tree) tree 0
  rw [Nat.zero_add] at loop
  exact loop

end Discovery

/-! ### What each write keeps -/

namespace ScopeTree

/-- A change that keeps a tree well put together and only adds to it. -/
def Advances (before after : ScopeTree) : Prop := before.Formed → after.Formed ∧ before.Grows after

theorem Advances.refl (tree : ScopeTree) : Advances tree tree := fun formed => ⟨formed, .refl tree⟩

theorem Advances.trans {first second third : ScopeTree} (one : Advances first second)
    (two : Advances second third) : Advances first third := by
  intro formed
  obtain ⟨middle, grows⟩ := one formed
  obtain ⟨last, further⟩ := two middle
  exact ⟨last, grows.trans further⟩

theorem index_lt_of_hasEntity {tree : ScopeTree} {id : ScopeId} (held : tree.hasEntity id = true) :
    id.index < tree.size := by
  obtain ⟨entity, found⟩ := Option.isSome_iff_exists.1 held
  exact index_lt_of_entity? found

theorem hasEntity_of_lookup {tree : ScopeTree} {name : String} {origin id : ScopeId}
    (found : tree.lookup name origin = some id) : tree.hasEntity id = true := by
  obtain ⟨level, _, reached⟩ := List.exists_of_findSome?_eq_some found
  exact (Option.filter_eq_some_iff.1 reached).2

theorem index_lt_of_nearestClass {tree : ScopeTree} {origin owner : ScopeId}
    (found : tree.nearestClass origin = some owner) : owner.index < tree.size := by
  have holds := List.find?_some found
  cases present : tree.node? owner with
  | none => simp [present] at holds
  | some node => exact index_lt_of_node? present

variable (tree : ScopeTree)

theorem advances_internChild {parent : ScopeId} (inside : parent.index < tree.size) (name : String)
    (valueType : ValueType) : tree.Advances (tree.internChild parent name valueType).1 :=
  fun formed => ⟨formed.internChild inside name valueType, grows_internChild tree parent name valueType⟩

/-- An entity that stores no scopes may be placed wherever none stands. -/
theorem advances_setEntity {id : ScopeId} {entity : Entity} (vacant : tree.hasEntity id = false)
    (fits : ∀ path, tree.Fits path entity.kind) (placed : entity.kind.isPlaced = true) :
    tree.Advances (tree.setEntity id entity) := by
  refine fun formed => ⟨formed.setEntity (fits _),
    grows_setEntity tree id entity (fun held found => ?_) fun _ => placed⟩
  simp [hasEntity, found] at vacant

/-- An entity that stores no scopes fits everywhere. -/
theorem fits_bare (path : String) {kind : EntityKind} (slots : ∀ path, kind.slots path = [])
    (params : kind.params = []) :
    tree.Fits path kind where
  slots := fun _ member => by rw [slots] at member; cases member
  params := fun _ member => by rw [params] at member; cases member

theorem fits_variable (path : String) (var : Variable) : tree.Fits path (.variable var) :=
  tree.fits_bare path (fun _ => rfl) rfl

theorem fits_block (path : String) (kind : BlockKind) : tree.Fits path (.block ⟨kind, .empty⟩) :=
  tree.fits_bare path (fun _ => rfl) rfl

theorem sameShape_occupy (id : ScopeId) (name : String) (range : Range) :
    SameShape (tree.occupy id name range) tree := by
  unfold occupy
  split
  next => exact .refl _
  next => exact sameShape_setEntity tree id _

theorem advances_occupy (id : ScopeId) (name : String) (range : Range) :
    tree.Advances (tree.occupy id name range) := by
  unfold occupy
  split
  next => exact .refl _
  next vacant =>
    exact tree.advances_setEntity (by simpa using vacant) (fun path => tree.fits_variable path _) rfl

/-- A name may be given to the scope at the path that the name makes. -/
theorem advances_insertLocal {scope id : ScopeId} {name : String}
    (found : tree.find? (DottedName.child (tree.raw scope) name) = some id) :
    tree.Advances (tree.modifyEntity scope (Entity.mapLocals fun locals => locals.insert name id)) := by
  intro formed
  constructor
  · refine formed.modifyEntity fun entity held => ?_
    exact (formed.entity held).addLocal entity _ (fun _ _ member => OrderedMap.mem_insert member) found
  · refine grows_modifyEntity tree scope _ fun entity held => entity.grows_mapLocals _ ?_
    refine OrderedMap.within_insert _ _ _ fun other known => ?_
    have member := List.mem_map_of_mem (f := fun entry : String × ScopeId =>
      (DottedName.child (tree.raw scope) entry.1, entry.2)) (OrderedMap.mem_entries_of_get? known)
    have placed := (formed.entity held).locals entity _ member
    exact Option.some.inj (placed.symm.trans found)

theorem advances_insertNewLocal {scope id : ScopeId} {name : String}
    (found : tree.find? (DottedName.child (tree.raw scope) name) = some id) :
    tree.Advances (tree.modifyEntity scope (Entity.mapLocals fun locals => locals.insertNew name id)) := by
  intro formed
  constructor
  · refine formed.modifyEntity fun entity held => ?_
    exact (formed.entity held).addLocal entity _ (fun _ _ member => OrderedMap.mem_insertNew member) found
  · exact grows_modifyEntity tree scope _ fun entity held =>
      entity.grows_mapLocals _ (OrderedMap.within_insertNew _ _ _)

theorem advances_insertNewField {owner id : ScopeId} {name : String}
    (found : tree.find? (DottedName.child (DottedName.child (tree.raw owner) fieldsName) name) = some id) :
    tree.Advances (tree.modifyClass owner fun held =>
      { held with fields := held.fields.insertNew name id }) := by
  intro formed
  constructor
  · refine formed.modifyEntity fun entity held => ?_
    exact (formed.entity held).addField entity _ (fun _ _ member => OrderedMap.mem_insertNew member) found
  · exact grows_modifyEntity tree owner _ fun entity held => entity.grows_addField name id

end ScopeTree

namespace Discovery
open ScopeTree

theorem Evidence.grows_absorb (evidence : Evidence) (tree : ScopeTree) (target : ScopeId) (entity : Entity) :
    entity.Grows (evidence.absorb tree target entity).1 := by
  unfold Evidence.absorb
  split
  next => exact entity.grows_gather _
  next =>
    dsimp only
    split
    next better => exact (entity.grows_gather _).trans (Entity.grows_insertReference _ _ _ better)
    next => exact entity.grows_gather _

theorem Evidence.kind_absorb (evidence : Evidence) (tree : ScopeTree) (target : ScopeId) (entity : Entity) :
    (evidence.absorb tree target entity).1.kind = (entity.gather (evidence.typesFor tree target)).kind := by
  unfold Evidence.absorb
  split
  next => rfl
  next => dsimp only; split <;> rfl

variable (tree : ScopeTree)

/-- An entity may be replaced by a larger one that stores the same scopes. -/
theorem advances_replace {id : ScopeId} {entity later : Entity} (held : tree.entity? id = some entity)
    (grows : entity.Grows later)
    (fits : tree.Fits (tree.raw id) entity.kind → tree.Fits (tree.raw id) later.kind) :
    tree.Advances (tree.setEntity id later) := by
  refine fun formed => ⟨formed.setEntity (fits (formed.entity held)), ?_⟩
  refine grows_setEntity tree id later (fun other found => ?_) fun vacant => ?_
  · cases held.symm.trans found
    exact grows
  · cases held.symm.trans vacant

theorem advances_applyEvidence (target : ScopeId) (evidence : Evidence) :
    tree.Advances (applyEvidence tree target evidence).1 := by
  cases held : tree.entity? target with
  | none => rw [applyEvidence_vacant tree held]; exact .refl _
  | some entity =>
    rw [applyEvidence_held tree held]
    refine advances_replace tree held (evidence.grows_absorb tree target entity) fun fits => ?_
    rw [evidence.kind_absorb]
    exact fits.gather entity _

theorem advances_enterBlock {parent : ScopeId} (inside : parent.index < tree.size) (kind : BlockKind)
    (index : Nat) :
    tree.Advances (enterBlock tree parent kind index).1 := by
  have made := tree.advances_internChild inside (blockName kind index) .block
  rw [enterBlock_eq]
  dsimp only
  split
  next => exact made
  next vacant =>
    exact made.trans (advances_setEntity _ (by simpa using vacant) (fun path => fits_block _ path kind) rfl)

theorem advances_defineLocal {scope : ScopeId} (inside : scope.index < tree.size) (name : String)
    (range : Range) :
    tree.Advances (defineLocal tree scope name range).1 := by
  have made := tree.advances_internChild inside name .value
  have found := find?_internChild .value tree scope name
  rw [defineLocal_eq]
  dsimp only
  split
  next => exact made
  next vacant =>
    have grows := tree.grows_internChild scope name .value
    refine made.trans ((advances_setEntity _ (by simpa using vacant)
      (fun path => fits_variable _ path _) rfl).trans
      (advances_insertLocal _ ?_))
    have same := sameShape_setEntity (tree.internChild scope name .value).1
      (tree.internChild scope name .value).2
      (.new (.variable (.new name (some range))))
    rw [same.raw, same.find?, grows.raw inside]
    exact found

theorem grows_internField (owner : ScopeId) (name : String) : tree.Grows (tree.internField owner name).1 :=
  (tree.grows_internChild owner fieldsName .table).trans (grows_internChild _ _ name .field)

theorem find?_internField (owner : ScopeId) (name : String) :
    (tree.internField owner name).1.find?
    (DottedName.child (DottedName.child (tree.raw owner) fieldsName) name) =
      some (tree.internField owner name).2 := by
  have first := find?_internChild .table tree owner fieldsName
  have second := find?_internChild .field (tree.internChild owner fieldsName .table).1
    (tree.internChild owner fieldsName .table).2 name
  rw [raw_of_find? first] at second
  exact second

theorem advances_internField {owner : ScopeId} (inside : owner.index < tree.size) (name : String) :
    tree.Advances (tree.internField owner name).1 :=
  (tree.advances_internChild inside fieldsName .table).trans
    (advances_internChild _ (index_internChild .table tree owner fieldsName) name .field)

theorem advances_assignField (frame : Frame) (name : String) (evidence : Evidence) (range : Range) :
    tree.Advances (assignField tree frame name evidence range).1 := by
  cases nearest : tree.nearestClass frame.scope with
  | none => rw [assignField_outside tree nearest]; exact .refl _
  | some owner =>
    rw [assignField_eq tree nearest]
    have inside := index_lt_of_nearestClass nearest
    have made := advances_internField tree inside name
    have grows := grows_internField tree owner name
    have found := find?_internField tree owner name
    have placed := advances_occupy (tree.internField owner name).1 (tree.internField owner name).2 name range
    have same := sameShape_occupy (tree.internField owner name).1 (tree.internField owner name).2 name range
    refine made.trans (placed.trans (.trans (advances_insertNewField _ ?_) (advances_applyEvidence _ _ _)))
    rw [same.raw, same.find?, grows.raw inside]
    exact found

/-- The scope of a base exists. -/
theorem index_baseScope (scope : ScopeId) (base : String) :
    (baseScope tree scope base).2.1.index < (baseScope tree scope base).1.size := by
  rw [baseScope_eq]
  split
  next found => exact index_lt_of_hasEntity (hasEntity_of_lookup found)
  next => exact index_internChild .table tree scope base

theorem advances_baseScope {scope : ScopeId} (inside : scope.index < tree.size) (base : String) :
    tree.Advances (baseScope tree scope base).1 := by
  rw [baseScope_eq]
  split
  next => exact .refl _
  next => exact tree.advances_internChild inside base .table

theorem advances_memberScope {parent : ScopeId} (inside : parent.index < tree.size) (name : String)
    (range : Range) :
    tree.Advances (memberScope tree parent name range).1 := by
  unfold memberScope
  dsimp only
  generalize (if (tree.classAt? parent).isSome then ValueType.value else ValueType.field) = valueType
  have made := tree.advances_internChild inside name valueType
  have found := find?_internChild valueType tree parent name
  have grows := tree.grows_internChild parent name valueType
  split
  next => exact made
  next vacant =>
    refine made.trans ((advances_setEntity _ (by simpa using vacant)
      (fun path => fits_variable _ path _) rfl).trans
      (advances_insertNewLocal _ ?_))
    have same := sameShape_setEntity (tree.internChild parent name valueType).1
      (tree.internChild parent name valueType).2 (.new (.variable (.new name (some range))))
    rw [same.raw, same.find?, grows.raw inside]
    exact found

theorem advances_assignMember (frame : Frame) (inside : frame.scope.index < tree.size) (base name : String)
    (evidence : Evidence) (range : Range) :
    tree.Advances (assignMember tree frame base name evidence range).1 := by
  have owner := advances_baseScope tree inside base
  have member := advances_memberScope _ (index_baseScope tree frame.scope base) name range
  rw [assignMember_eq]
  dsimp only
  split
  next => exact owner.trans (member.trans (advances_applyEvidence _ _ _))
  next => exact owner.trans member

/-! ### Propagation -/

theorem grows_settle (owner : ScopeId) (entity : Entity) :
    entity.Grows { entity with references := entity.references.mapValues (settle tree owner) } := by
  refine ⟨rfl, fun _ member => member, .refl _, .refl _, fun key reference found => ?_⟩
  refine ⟨settle tree owner reference, by rw [OrderedMap.get?_mapValues, found]; rfl, fun resolved => ?_⟩
  cases reference with
  | unresolved => cases resolved
  | resolved target => rfl

theorem advances_propagateInto (owner : ScopeId) : tree.Advances (propagateInto tree owner).1 := by
  cases held : tree.entity? owner with
  | none => rw [propagateInto_vacant tree held]; exact .refl _
  | some entity =>
    rw [propagateInto_held tree held]
    refine advances_replace tree held ((grows_settle tree owner entity).trans (Entity.grows_gather _ _))
      fun fits => ?_
    exact Fits.gather { entity with references := entity.references.mapValues (settle tree owner) } _ fits

theorem advances_propagate : tree.Advances (propagate tree).1 := by
  rw [propagate_eq]
  exact runEach_relates ScopeTree.Advances .refl .trans
    (fun owner _ tree => advances_propagateInto tree owner) tree

end Discovery
end LuaClasses
