import LuaClasses.Proofs.Anchors
import LuaClasses.Proofs.Inflow
import LuaClasses.Proofs.Outward

/-! What a walk adds to a tree is anchored. It places variables and blocks below named scopes, and
evidence refers to nothing but what carries an entity. -/

namespace LuaClasses.Discovery
open ScopeTree

variable {tree : ScopeTree}

/-! ### Evidence -/

/-- Whether evidence refers to nothing but what carries an entity. -/
def Evidence.Stands (evidence : Evidence) (tree : ScopeTree) : Prop :=
  ∀ target, evidence.reference = some (.resolved target) → tree.hasEntity target = true

theorem Evidence.Stands.mono {after : ScopeTree} {evidence : Evidence} (stands : evidence.Stands tree)
    (anchors : tree.Anchors after) :
    evidence.Stands after := fun target same => anchors.held (stands target same)

/-- What can be told in a frame: types alone, a scope that carries an entity, or a name that is looked up
from the scope of the frame. -/
inductive Evidence.Told (tree : ScopeTree) (frame : Frame) : Evidence → Prop
  | types (types : TypeSet) : Told tree frame ⟨types, .none⟩
  | resolved {id : ScopeId} (held : tree.hasEntity id = true) : Told tree frame (.resolved id)
  | unresolved (target : String) : Told tree frame (.unresolved target frame.scope)

theorem Evidence.Told.stands {frame : Frame} {evidence : Evidence} (told : evidence.Told tree frame) :
    evidence.Stands tree := by
  intro target same
  cases told with
  | resolved held =>
    cases same
    exact held
  | _ => cases same

private theorem told_valueOf (frame : Frame) (id : ScopeId) : (valueOf tree id).Told tree frame := by
  unfold valueOf
  split
  next held =>
    obtain ⟨entity, found, _⟩ := Option.map_eq_some_iff.1 held
    exact .resolved (Option.isSome_of_eq_some found)
  all_goals exact .types _

private theorem hasEntity_of_nearestClass {origin owner : ScopeId}
    (nearest : tree.nearestClass origin = some owner) :
    tree.hasEntity owner = true := by
  have holds := List.find?_some nearest
  unfold hasEntity entity?
  cases present : tree.node? owner with
  | none => simp [present] at holds
  | some node =>
    simp only [present, Bool.and_eq_true] at holds
    exact holds.2

section Classify

variable (config : DiscoveryConfig) (frame : Frame)

private theorem told_classifyPath (path : String) : (classifyPath tree frame path).Told tree frame := by
  unfold classifyPath
  split
  next => exact told_valueOf frame _
  next => exact .unresolved _

private theorem told_classifyName (name : String) :
    (classifyName config tree frame name).Told tree frame := by
  unfold classifyName
  split
  next => exact .types _
  next =>
    split
    next =>
      split
      next nearest => exact .resolved (hasEntity_of_nearestClass nearest)
      next => exact .types _
    next => exact told_classifyPath frame name

/-- The fields of a class carry variables. -/
theorem told_classifyInstanceMember (shaped : tree.Shaped) (name : String) :
    (classifyInstanceMember tree frame name).Told tree frame := by
  unfold classifyInstanceMember
  split
  next => exact .types _
  next owner held =>
    obtain ⟨id, _, found⟩ := Option.bind_eq_some_iff.1 held
    split
    next field given =>
      obtain ⟨_, var⟩ := (shaped found).fields.fields given
      obtain ⟨held, known⟩ := Option.isSome_iff_exists.1 var
      obtain ⟨_, present⟩ := variableAt?_eq_some known
      exact .resolved (Option.isSome_of_eq_some present)
    next =>
      split
      next => exact .types _
      next => exact .unresolved _

private theorem told_classifyMember (shaped : tree.Shaped) (object : Expr) (name : String) :
    (classifyMember config tree frame object name).Told tree frame := by
  unfold classifyMember
  split
  next => exact .types _
  next =>
    dsimp only
    split
    next => exact .types _
    next =>
      split
      next =>
        split
        next => exact told_classifyInstanceMember frame shaped name
        next => exact told_classifyPath frame _
      next => exact told_classifyPath frame _

private theorem told_classifyCall (path : String) :
    (classifyCall config tree frame path).Told tree frame := by
  unfold classifyCall
  split
  next => exact .types _
  next =>
    split
    next => exact .types _
    next =>
      split
      next => exact .unresolved _
      next id found =>
        split
        next => exact .resolved (hasEntity_of_lookup found)
        next =>
          split <;> exact .types _
        next => exact .types _

/-- Whatever an expression refers to carries an entity, and what it waits for is looked up from the frame. -/
theorem told_classify (shaped : tree.Shaped) :
    (expr : Expr) → (classify config tree frame expr).Told tree frame
  | .paren inner => told_classify shaped inner
  | .unary op _ => .types _
  | .binary op left right => by
    unfold classify
    split <;> exact .types _
  | .name name => told_classifyName config frame name
  | .member object name => told_classifyMember config frame shaped object name
  | .call callee _ => by
    unfold classify
    split
    next path _ => exact told_classifyCall config frame path
    next => exact .types _
  | .methodCall object method _ => by
    unfold classify
    split
    next base _ => exact told_classifyCall config frame _
    next => exact .types _
  | .nil | .boolean _ | .number _ | .string _ | .vararg | .function _ | .table _ | .index _ _ => by
    unfold classify
    split <;> exact .types _

theorem told_classifyValue (shaped : tree.Shaped) (value : Option Expr) :
    (classifyValue config tree frame value).Told tree frame := by
  cases value with
  | none => exact .types _
  | some expr => exact told_classify config frame shaped expr

private theorem told_returnEvidence (shaped : tree.Shaped) (values : List Expr) :
    (returnEvidence config tree frame values).Told tree frame := by
  cases values with
  | nil => exact .types _
  | cons first rest => exact told_classify config frame shaped first

end Classify

/-! ### Entities that take in evidence -/

theorem Evidence.mem_references_absorb {evidence : Evidence} {target : ScopeId} {entity : Entity}
    {reference : Reference}
    (member : reference ∈ (evidence.absorb tree target entity).1.references.values) :
    evidence.reference = some reference ∨ reference ∈ entity.references.values := by
  unfold absorb at member
  split at member
  next => exact .inr member
  next other taken =>
    dsimp only at member
    split at member
    next =>
      obtain ⟨entry, listed, rfl⟩ := List.mem_map.1 member
      rcases OrderedMap.mem_insert listed with rfl | old
      · exact .inl (Option.filter_eq_some_iff.1 taken).1
      · exact .inr (List.mem_map_of_mem old)
    next => exact .inr member

theorem anchors_applyEvidence (target : ScopeId) {evidence : Evidence} (stands : evidence.Stands tree) :
    tree.Anchors (applyEvidence tree target evidence).1 := by
  cases held : tree.entity? target with
  | none =>
    rw [applyEvidence_vacant tree held]
    exact .refl tree
  | some entity =>
    rw [applyEvidence_held tree held]
    refine .setEntity (.inl (Option.isSome_of_eq_some held)) (fun member => .inl ⟨entity, held, ?_⟩)
      fun {other} member => ?_
    · rw [evidence.kind_absorb, Entity.stored_gather] at member
      exact member
    · rcases Evidence.mem_references_absorb member with new | old
      · exact .inl (stands other new)
      · exact .inr ⟨target, entity, held, old⟩

/-- A reference is settled on what carries an entity, or was before. -/
theorem anchors_propagateInto (owner : ScopeId) : tree.Anchors (propagateInto tree owner).1 := by
  cases held : tree.entity? owner with
  | none =>
    rw [propagateInto_vacant tree held]
    exact .refl tree
  | some entity =>
    rw [propagateInto_held tree held]
    refine .setEntity (.inl (Option.isSome_of_eq_some held)) (fun member => .inl ⟨entity, held, ?_⟩)
      fun {target} member => ?_
    · rw [Entity.stored_gather] at member
      exact member
    · obtain ⟨entry, listed, settled⟩ := List.mem_map.1 member
      obtain ⟨⟨key, reference⟩, before, rfl⟩ := List.mem_map.1 listed
      have known : reference ∈ entity.references.values := List.mem_map_of_mem before
      cases reference with
      | resolved other =>
        cases settled
        exact .inr ⟨owner, entity, held, known⟩
      | unresolved name origin =>
        dsimp only [settle] at settled
        cases found : destination? tree owner (.unresolved name origin) with
        | none => rw [found] at settled; cases settled
        | some other =>
          rw [found] at settled
          cases settled
          exact .inl (hasEntity_of_lookup (destination?_unresolved.1 found).1)

/-! ### Scopes that are made -/

/-- A named scope may get an entity that stores nothing, unless it has one. -/
theorem anchors_occupy {id : ScopeId} (named : tree.Named id) (inside : id.index < tree.size)
    (kind : EntityKind) (bare : kind.stored = []) :
    tree.Anchors (if tree.hasEntity id then tree else tree.setEntity id (.new kind)) ∧
      (if tree.hasEntity id then tree else tree.setEntity id (.new kind)).hasEntity id = true := by
  split
  next held => exact ⟨.refl tree, held⟩
  next => exact ⟨.place named bare, hasEntity_setEntity_self inside _⟩

/-- A variable may be placed below a scope and entered among the names there. -/
theorem anchors_addLocal {scope id : ScopeId} {name : String} (hangs : tree.child? scope name = some id)
    (plain : name ≠ fieldsName) (origin : Option Range) {f : Members → Members}
    (added : ∀ names entry, entry ∈ (f names).entries → entry = (name, id) ∨ entry ∈ names.entries)
    (inside : id.index < tree.size) :
    tree.Anchors ((tree.setEntity id (.new (.variable (.new name origin)))).modifyEntity scope
      (Entity.mapLocals f)) := by
  have placed : tree.Anchors (tree.setEntity id (.new (.variable (.new name origin)))) :=
    .place ⟨scope, name, hangs, plain⟩ rfl
  exact placed.trans (.mapLocals added (placed.links hangs) (hasEntity_setEntity_self inside _))

private theorem anchors_enterBlock (formed : tree.Formed) (tidy : tree.Tidy) {parent : ScopeId}
    (inside : parent.index < tree.size) (kind : BlockKind) (index : Nat) :
    tree.Anchors (enterBlock tree parent kind index).1 := by
  have plain := plain_blockName kind index
  have made := Anchors.internChild tree parent (blockName kind index) .block
  have hung := hung_internChild formed tidy inside plain.1 .block
  rw [enterBlock_eq]
  dsimp only
  split
  next => exact made
  next => exact made.trans (.place ⟨parent, _, hung.hangs, plain.2⟩ rfl)

theorem anchors_defineLocal (formed : tree.Formed) (tidy : tree.Tidy) {scope : ScopeId}
    (inside : scope.index < tree.size) {name : String} (plain : PlainName name) (range : Range) :
    tree.Anchors (defineLocal tree scope name range).1 := by
  have made := Anchors.internChild tree scope name .value
  have hung := hung_internChild formed tidy inside plain.1 .value
  have placed := index_internChild .value tree scope name
  rw [defineLocal_eq]
  dsimp only
  split
  next => exact made
  next =>
    exact made.trans (anchors_addLocal hung.hangs plain.2 (some range)
      (fun _ _ member => OrderedMap.mem_insert member) placed)

private theorem anchors_baseScope (scope : ScopeId) (base : String) :
    tree.Anchors (baseScope tree scope base).1 := by
  rw [baseScope_eq]
  split
  next => exact .refl tree
  next => exact .internChild tree scope base .table

private theorem anchors_memberScope (formed : tree.Formed) (tidy : tree.Tidy) {parent : ScopeId}
    (inside : parent.index < tree.size) {name : String} (plain : PlainName name) (range : Range) :
    tree.Anchors (memberScope tree parent name range).1 := by
  unfold memberScope
  dsimp only
  generalize (if (tree.classAt? parent).isSome then ValueType.value else ValueType.field) = valueType
  have made := Anchors.internChild tree parent name valueType
  have hung := hung_internChild formed tidy inside plain.1 valueType
  have placed := index_internChild valueType tree parent name
  split
  next => exact made
  next =>
    exact made.trans (anchors_addLocal hung.hangs plain.2 (some range)
      (fun _ _ member => OrderedMap.mem_insertNew member) placed)

theorem anchors_assignMember (formed : tree.Formed) (tidy : tree.Tidy) {frame : Frame}
    (inside : frame.scope.index < tree.size) {base name : String} (owned : PlainName base)
    (named : PlainName name) {evidence : Evidence} (stands : evidence.Stands tree) (range : Range) :
    tree.Anchors (assignMember tree frame base name evidence range).1 := by
  obtain ⟨middle, kept, _⟩ := (tends_baseScope formed tidy inside owned).1 formed tidy
  have member := (anchors_baseScope frame.scope base).trans
    (anchors_memberScope middle kept (index_baseScope tree frame.scope base) named range)
  rw [assignMember_eq]
  dsimp only
  split
  next => exact member.trans (anchors_applyEvidence _ (stands.mono member))
  next => exact member

theorem anchors_internField (tree : ScopeTree) (owner : ScopeId) (name : String) :
    tree.Anchors (tree.internField owner name).1 :=
  (Anchors.internChild tree owner fieldsName .table).trans (.internChild _ _ name .field)

/-- A field may be entered among those of its class once a variable stands on its scope. -/
theorem anchors_listField {owner id : ScopeId} {name : String} (there : tree.FieldAt owner name id)
    (stands : tree.hasEntity id = true) {f : Members → Members}
    (added : ∀ fields entry, entry ∈ (f fields).entries → entry = (name, id) ∨ entry ∈ fields.entries) :
    tree.Anchors (tree.modifyClass owner fun held => { held with fields := f held.fields }) := by
  refine .modifyEntity (fun entity => entity.references_mapClass _) fun member => ?_
  rcases Entity.stored_mapFields added member with new | old
  · cases new
    exact .inl ⟨⟨name, there⟩, stands⟩
  · exact .inr old

private theorem anchors_assignField (formed : tree.Formed) (tidy : tree.Tidy) (frame : Frame)
    {name : String} (plain : PlainName name) {evidence : Evidence} (stands : evidence.Stands tree)
    (range : Range) :
    tree.Anchors (assignField tree frame name evidence range).1 := by
  cases nearest : tree.nearestClass frame.scope with
  | none =>
    rw [assignField_outside tree nearest]
    exact .refl tree
  | some owner =>
    rw [assignField_eq tree nearest]
    have made := anchors_internField tree owner name
    obtain ⟨_, there⟩ := tends_internField formed tidy (index_lt_of_nearestClass nearest) plain.1
    have size := index_lt_of_find? (find?_internField tree owner name)
    dsimp only
    generalize tree.internField owner name = field at made there size ⊢
    have occupied : field.1.Anchors (field.1.occupy field.2 name range) ∧
        (field.1.occupy field.2 name range).hasEntity field.2 = true := by
      obtain ⟨fields, _, hangs⟩ := there
      exact anchors_occupy ⟨fields, name, hangs, plain.2⟩ size _ rfl
    have entered := made.trans (occupied.1.trans (anchors_listField (there.carry occupied.1.links) occupied.2
      (f := fun fields => fields.insertNew name field.2) fun _ _ member => OrderedMap.mem_insertNew member))
    exact entered.trans (anchors_applyEvidence _ (stands.mono entered))

/-! ### Steps of a body -/

section Steps

variable {state : State} (formed : state.Formed) (tidy : state.Tidy) {frame : Frame}
  (inside : frame.scope.index < state.tree.size)
include formed tidy inside

private theorem anchors_local {name : String} (plain : PlainName name) {evidence : Evidence}
    (stands : evidence.Stands state.tree) (range : Range) :
    state.tree.Anchors (applyEvidence (defineLocal state.tree frame.scope name range).1
      (defineLocal state.tree frame.scope name range).2.1 evidence).1 := by
  have made := anchors_defineLocal formed.tree tidy.tree inside plain range
  exact made.trans (anchors_applyEvidence _ (stands.mono made))

private theorem anchors_assign {target : Expr} (plain : ∀ name ∈ target.names, PlainName name)
    {evidence : Evidence} (stands : evidence.Stands state.tree) (range : Range) :
    state.tree.Anchors (assign state frame target evidence range).1.tree := by
  rw [← Expr.names_unparen] at plain
  unfold assign
  split
  next name same =>
    rw [same] at plain
    unfold assignName
    split
    next => exact anchors_local formed tidy inside (plain name List.mem_cons_self) stands range
    next id _ =>
      split
      next => exact anchors_applyEvidence id stands
      next =>
        rw [State.tree_warn]
        exact .refl _
  next object name same =>
    rw [same] at plain
    have named := plain name (List.mem_append_right _ (List.mem_singleton_self name))
    split
    next base owned =>
      have based := plain base (List.mem_append_left _ (Expr.name_mem_names owned))
      dsimp only
      split
      next => exact anchors_assignField formed.tree tidy.tree frame named stands range
      next => exact anchors_assignMember formed.tree tidy.tree inside based named stands range
    next =>
      dsimp only
      rw [State.tree_warn]
      exact .refl _
  next =>
    rw [State.tree_warn]
    exact .refl _

private theorem anchors_action (config : DiscoveryConfig) {action : Action}
    (plain : ∀ name ∈ action.names, PlainName name) (range : Range) :
    state.tree.Anchors (action.run config frame range state).1.tree := by
  cases action with
  | block kind index => exact anchors_enterBlock formed.tree tidy.tree inside kind index
  | local_ name value =>
    exact anchors_local formed tidy inside (plain name List.mem_cons_self)
      (told_classifyValue config frame tidy.tree.shaped value).stands range
  | target expr value =>
    exact anchors_assign formed tidy inside plain
      (told_classifyValue config frame tidy.tree.shaped value).stands range
  | return_ values =>
    simp only [Action.run]
    split
    next => exact .refl _
    next => exact anchors_applyEvidence _ (told_returnEvidence config frame tidy.tree.shaped values).stands

end Steps

theorem anchors_site (config : DiscoveryConfig) {state : State} (formed : state.Formed)
    (tidy : state.Tidy) (frame : Frame) {site : Site}
    (plain : ∀ name ∈ site.action.names, PlainName name) :
    state.tree.Anchors (site.run config frame state).1.tree := by
  unfold Site.run
  split
  next scope found => exact anchors_action formed tidy (index_lt_of_find? found) config plain site.range
  next => exact .refl _

end LuaClasses.Discovery
