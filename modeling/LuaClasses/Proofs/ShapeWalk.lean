import LuaClasses.Proofs.ShapeGrowth

/-! A walk with plain names keeps the shape of classes. -/

namespace LuaClasses

namespace ScopeTree

structure Tidy (tree : ScopeTree) : Prop where
  dotless : tree.Dotless
  shaped : tree.Shaped

theorem Tidy.withGlobals {tree : ScopeTree} (tidy : tree.Tidy) (globals : Globals) :
    ({ tree with globals } : ScopeTree).Tidy :=
  ⟨tidy.dotless, fun _ _ held =>
    have shape := tidy.shaped held
    ⟨shape.top, shape.ordinary, ⟨shape.fields.listed, shape.fields.fields⟩, fun regular =>
      have members := shape.members regular
      ⟨members.constructor, members.values, members.functions, members.methods, members.named⟩⟩⟩

/-- A change that only adds to a tree and keeps its classes in shape. -/
def Tends (before after : ScopeTree) : Prop :=
  before.Formed → before.Tidy → after.Formed ∧ after.Tidy ∧ before.Grows after

theorem Tends.refl (tree : ScopeTree) : Tends tree tree := fun formed tidy => ⟨formed, tidy, .refl tree⟩

theorem Tends.trans {first second third : ScopeTree} (one : Tends first second) (two : Tends second third) :
    Tends first third := by
  intro formed tidy
  obtain ⟨middle, kept, grows⟩ := one formed tidy
  obtain ⟨last, still, further⟩ := two middle kept
  exact ⟨last, still, grows.trans further⟩

theorem Advances.tends {before after : ScopeTree} (advances : before.Advances after)
    (dotless : before.Dotless → after.Dotless) (adds : before.Adds after) : before.Tends after := by
  intro formed tidy
  obtain ⟨last, grows⟩ := advances formed
  exact ⟨last, ⟨dotless tidy.dotless, tidy.shaped.grow formed tidy.dotless last grows adds⟩, grows⟩

variable (tree : ScopeTree)

theorem tends_internChild {parent : ScopeId} (inside : parent.index < tree.size) {name : String}
    (plain : '.' ∉ name.toList) (valueType : ValueType) :
    tree.Tends (tree.internChild parent name valueType).1 :=
  (tree.advances_internChild inside name valueType).tends (·.internChild plain parent valueType)
    (.of_entity? fun id => entity?_internChild valueType tree parent name id)

variable {tree}

/-- What hangs below an ordinary scope is no instance field. -/
theorem Formed.not_fieldAt (formed : tree.Formed) {scope id : ScopeId} {name : String}
    (hangs : tree.child? scope name = some id) (ordinary : tree.Ordinary scope) (owner : ScopeId)
    (field : String) :
    ¬tree.FieldAt owner field id := by
  rintro ⟨fields, first, second⟩
  obtain ⟨rfl, _⟩ := formed.child_unique hangs second
  exact ordinary owner first

/-- What may stand on a scope that nothing occupies may stand there below an ordinary scope. -/
theorem tends_place (formed : tree.Formed) {scope id : ScopeId} {name : String} (entity : Entity)
    (vacant : tree.hasEntity id = false) (fits : ∀ path, tree.Fits path entity.kind)
    (placed : entity.kind.isPlaced = true) (hangs : tree.child? scope name = some id)
    (ordinary : tree.Ordinary scope) :
    tree.Tends (tree.setEntity id entity) := by
  have absent : ∀ {held : Entity}, tree.entity? id ≠ some held := by
    intro held found
    rw [hasEntity, found] at vacant
    cases vacant
  exact (tree.advances_setEntity vacant fits placed).tends
    (·.of_sameShape (sameShape_setEntity tree id entity))
    (.setEntity tree (fun _ held => absurd held absent) (fun _ held => absurd held absent)
      fun _ => formed.not_fieldAt hangs ordinary)

/-- A child with its place below an ordinary scope. -/
structure Hung (tree after : ScopeTree) (parent : ScopeId) (name : String) (id : ScopeId) : Prop where
  formed : after.Formed
  tidy : after.Tidy
  grows : tree.Grows after
  hangs : after.child? parent name = some id
  ordinary : tree.Ordinary parent → after.Ordinary parent

theorem hung_internChild (formed : tree.Formed) (tidy : tree.Tidy) {parent : ScopeId}
    (inside : parent.index < tree.size) {name : String} (plain : '.' ∉ name.toList) (valueType : ValueType) :
    tree.Hung (tree.internChild parent name valueType).1 parent name
      (tree.internChild parent name valueType).2 := by
  obtain ⟨last, kept, grows⟩ := tree.tends_internChild inside plain valueType formed tidy
  exact ⟨last, kept, grows, tidy.dotless.child?_internChild formed plain inside valueType,
    fun ordinary => ordinary.links formed last grows.links inside⟩

end ScopeTree

namespace Discovery
open ScopeTree

variable {tree : ScopeTree}

private theorem tends_replace {id : ScopeId} {entity later : Entity}
    (held : tree.entity? id = some entity) (grows : entity.Grows later)
    (fits : tree.Fits (tree.raw id) entity.kind → tree.Fits (tree.raw id) later.kind)
    (fields : later.fields = entity.fields) (locals : later.locals = entity.locals) :
    tree.Tends (tree.setEntity id later) := by
  refine (advances_replace tree held grows fits).tends (·.of_sameShape (sameShape_setEntity tree id later))
    (.setEntity tree (fun other found => ?_) (fun other found => ?_) fun vacant => ?_)
  · cases held.symm.trans found
    exact fields
  · cases held.symm.trans found
    exact locals
  · rw [hasEntity, held] at vacant
    cases vacant

theorem fields_gather (entity : Entity) (types : TypeSet) : (entity.gather types).fields = entity.fields := by
  obtain ⟨references, kind⟩ := entity
  cases kind <;> rfl

theorem locals_gather (entity : Entity) (types : TypeSet) : (entity.gather types).locals = entity.locals := by
  obtain ⟨references, kind⟩ := entity
  cases kind <;> rfl

theorem tends_applyEvidence (target : ScopeId) (evidence : Evidence) :
    tree.Tends (applyEvidence tree target evidence).1 := by
  cases held : tree.entity? target with
  | none => rw [applyEvidence_vacant tree held]; exact .refl _
  | some entity =>
    rw [applyEvidence_held tree held]
    have kind := evidence.kind_absorb tree target entity
    refine tends_replace held (evidence.grows_absorb tree target entity) (fun fits => ?_) ?_ ?_
    · rw [kind]
      exact fits.gather entity _
    · simp only [Entity.fields, Entity.asClass?, kind]
      exact fields_gather entity _
    · simp only [Entity.locals, Entity.locals?, kind]
      exact locals_gather entity _

theorem tends_propagateInto (owner : ScopeId) : tree.Tends (propagateInto tree owner).1 := by
  cases held : tree.entity? owner with
  | none => rw [propagateInto_vacant tree held]; exact .refl _
  | some entity =>
    rw [propagateInto_held tree held]
    refine tends_replace held ((grows_settle tree owner entity).trans (Entity.grows_gather _ _))
      (fun fits => ?_)
      (fields_gather _ _) (locals_gather _ _)
    exact Fits.gather { entity with references := entity.references.mapValues (settle tree owner) } _ fits

theorem tends_propagate (tree : ScopeTree) : tree.Tends (propagate tree).1 := by
  rw [propagate_eq]
  exact runEach_relates Tends .refl .trans (fun owner _ tree => tends_propagateInto owner) tree

/-! ### The writes of a walk -/

theorem tends_enterBlock (formed : tree.Formed) (tidy : tree.Tidy) {parent : ScopeId}
    (inside : parent.index < tree.size) (ordinary : tree.Ordinary parent) (kind : BlockKind)
    (index : Nat) (plain : '.' ∉ (blockName kind index).toList) :
    tree.Tends (enterBlock tree parent kind index).1 := by
  have made := tree.tends_internChild inside plain .block
  have hung := hung_internChild formed tidy inside plain .block
  rw [enterBlock_eq]
  dsimp only
  split
  next => exact made
  next vacant =>
    exact made.trans (tends_place hung.formed _ (by simpa using vacant)
      (fun path => fits_block _ path kind) rfl
      hung.hangs (hung.ordinary ordinary))

/-- A new variable below an ordinary scope may be entered among the names there. -/
theorem tends_addLocal {scope id : ScopeId} {name : String} (vacant : tree.hasEntity id = false)
    (formed : tree.Formed) (hangs : tree.child? scope name = some id)
    (ordinary : tree.Ordinary scope) (origin : Option Range) {f : Members → Members}
    (added : ∀ names entry, entry ∈ (f names).entries → entry = (name, id) ∨ entry ∈ names.entries)
    (advances : ∀ placed : ScopeTree, placed.find? (DottedName.child (placed.raw scope) name) = some id →
      placed.Advances (placed.modifyEntity scope (Entity.mapLocals f))) :
    tree.Tends ((tree.setEntity id (.new (.variable (.new name origin)))).modifyEntity scope
      (Entity.mapLocals f)) := by
  have same := sameShape_setEntity tree id (.new (.variable (.new name origin)))
  obtain ⟨node, present, _, _, older, _⟩ := formed.child hangs
  refine (tends_place formed (.new (.variable (.new name origin))) vacant
    (fun path => fits_variable _ path _) rfl
    hangs ordinary).trans ?_
  refine (advances _ ?_).tends (·.of_sameShape (sameShape_modifyEntity _ _ _))
    (.modifyLocals _ added ?_ ?_ ?_)
  · rw [same.find?, same.raw]
    exact formed.find?_child hangs
  · exact (same.child? _ _).trans hangs
  · rw [variableAt?, entity?_setEntity_self (index_lt_of_node? present)]
    rfl
  · exact fun equal => Nat.lt_irrefl _ (equal ▸ older)

theorem tends_defineLocal (formed : tree.Formed) (tidy : tree.Tidy) {scope : ScopeId}
    (inside : scope.index < tree.size) (ordinary : tree.Ordinary scope) {name : String}
    (plain : PlainName name) (range : Range) :
    tree.Tends (defineLocal tree scope name range).1 := by
  have made := tree.tends_internChild inside plain.1 .value
  have hung := hung_internChild formed tidy inside plain.1 .value
  rw [defineLocal_eq]
  dsimp only
  split
  next => exact made
  next vacant =>
    exact made.trans (tends_addLocal (by simpa using vacant) hung.formed hung.hangs
      (hung.ordinary ordinary) (some range) (fun _ _ member => OrderedMap.mem_insert member)
      fun placed found => advances_insertLocal placed found)

theorem tends_baseScope (formed : tree.Formed) (tidy : tree.Tidy) {scope : ScopeId}
    (inside : scope.index < tree.size) {base : String} (plain : PlainName base) :
    tree.Tends (baseScope tree scope base).1 ∧ (baseScope tree scope base).1.Ordinary
      (baseScope tree scope base).2.1 := by
  rw [baseScope_eq]
  split
  next found =>
    obtain ⟨level, _, hangs⟩ := exists_child_of_lookup plain.1 found
    exact ⟨.refl _, formed.ordinary_child hangs plain.2⟩
  next =>
    have hung := hung_internChild formed tidy inside plain.1 .table
    exact ⟨tree.tends_internChild inside plain.1 .table, hung.formed.ordinary_child hung.hangs plain.2⟩

private theorem tends_memberScope (formed : tree.Formed) (tidy : tree.Tidy) {parent : ScopeId}
    (inside : parent.index < tree.size) (ordinary : tree.Ordinary parent) {name : String}
    (plain : PlainName name) (range : Range) :
    tree.Tends (memberScope tree parent name range).1 := by
  unfold memberScope
  dsimp only
  generalize (if (tree.classAt? parent).isSome then ValueType.value else ValueType.field) = valueType
  have made := tree.tends_internChild inside plain.1 valueType
  have hung := hung_internChild formed tidy inside plain.1 valueType
  split
  next => exact made
  next vacant =>
    exact made.trans (tends_addLocal (by simpa using vacant) hung.formed hung.hangs
      (hung.ordinary ordinary) (some range) (fun _ _ member => OrderedMap.mem_insertNew member)
      fun placed found => advances_insertNewLocal placed found)

theorem tends_assignMember (formed : tree.Formed) (tidy : tree.Tidy) {frame : Frame}
    (inside : frame.scope.index < tree.size) {base name : String} (owned : PlainName base)
    (named : PlainName name) (evidence : Evidence) (range : Range) :
    tree.Tends (assignMember tree frame base name evidence range).1 := by
  obtain ⟨owner, ordinary⟩ := tends_baseScope formed tidy inside owned
  obtain ⟨middle, kept, _⟩ := owner formed tidy
  have member := tends_memberScope middle kept (index_baseScope tree frame.scope base) ordinary named range
  rw [assignMember_eq]
  dsimp only
  split
  next => exact owner.trans (member.trans (tends_applyEvidence _ _))
  next => exact owner.trans member

/-- Making the scope of a field keeps classes in shape, as nothing is placed on it. -/
theorem tends_internField (formed : tree.Formed) (tidy : tree.Tidy) {owner : ScopeId}
    (inside : owner.index < tree.size) {name : String} (plain : '.' ∉ name.toList) :
    tree.Tends (tree.internField owner name).1 ∧
      (tree.internField owner name).1.FieldAt owner name (tree.internField owner name).2 := by
  have dots : '.' ∉ fieldsName.toList := by decide
  have first := hung_internChild formed tidy inside dots .table
  have below := index_internChild .table tree owner fieldsName
  have second := hung_internChild first.formed first.tidy below plain .field
  refine ⟨(tree.tends_internChild inside dots .table).trans (tends_internChild _ below plain .field), ?_⟩
  exact ⟨_, second.grows.child? first.hangs, second.hangs⟩

theorem tends_enterField {owner id : ScopeId} {name : String} (there : tree.FieldAt owner name id)
    (range : Range) :
    tree.Tends ((tree.occupy id name range).modifyClass owner fun held =>
      { held with fields := held.fields.insertNew name id }) := by
  intro formed tidy
  have same := sameShape_occupy tree id name range
  obtain ⟨last, grows⟩ := ((tree.advances_occupy id name range).trans (advances_insertNewField _ (by
    rw [same.find?, same.raw]
    exact there.find? formed))) formed
  -- Either a variable was placed, or the scope was occupied and nothing was.
  have placed : tree.hasEntity id = true ∧ tree.occupy id name range = tree ∨
      (tree.occupy id name range).variableAt? id = some (.new name (some range)) := by
    unfold occupy
    cases held : tree.hasEntity id with
    | true => exact .inl ⟨rfl, rfl⟩
    | false =>
      obtain ⟨_, _, second⟩ := there
      rw [if_neg Bool.false_ne_true, variableAt?,
        entity?_setEntity_self (index_lt_of_find? (formed.find?_child second))]
      exact .inr rfl
  refine ⟨last, ⟨tidy.dotless.of_sameShape ((sameShape_modifyEntity _ _ _).trans same), ?_⟩, grows⟩
  refine tidy.shaped.addField formed tidy.dotless there same (fun other apart => ?_) (fun {held} known => ?_)
    (fun isClass => ?_) (f := fun fields => fields.insertNew name id)
    (fun fields => OrderedMap.contains_insertNew fields name id)
    (fun fields other present => (OrderedMap.within_insertNew fields name id).contains present)
    (fun _ _ member => OrderedMap.mem_insertNew member) last
  · unfold occupy
    split
    next => rfl
    next => rw [entity?_setEntity, if_neg apart]
  · rcases placed with ⟨_, unchanged⟩ | new
    · rw [← unchanged]; exact known
    · obtain ⟨references, found⟩ := classAt?_eq_some known
      rw [variableAt?, found] at new
      cases new
  · rcases placed with ⟨occupied, unchanged⟩ | new
    · obtain ⟨held, known⟩ := Option.isSome_iff_exists.1 isClass
      rw [unchanged]
      exact ((tidy.shaped known).fields.listed there occupied).2
    · rw [new]; rfl

theorem tends_assignField (formed : tree.Formed) (tidy : tree.Tidy) (frame : Frame) {name : String}
    (plain : PlainName name) (evidence : Evidence) (range : Range) :
    tree.Tends (assignField tree frame name evidence range).1 := by
  cases nearest : tree.nearestClass frame.scope with
  | none => rw [assignField_outside tree nearest]; exact .refl _
  | some owner =>
    rw [assignField_eq tree nearest]
    obtain ⟨made, there⟩ := tends_internField formed tidy (index_lt_of_nearestClass nearest) plain.1
    exact made.trans ((tends_enterField there range).trans (tends_applyEvidence _ _))

end Discovery
end LuaClasses
