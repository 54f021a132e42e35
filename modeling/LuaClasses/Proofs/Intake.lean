import LuaClasses.Proofs.FieldSweeps
import LuaClasses.Proofs.Standing

/-! What scopes have taken in, and which steps of a body add to it. No name in a body leads to a field of
an instance, so only assignments to the instance add to what a field has taken in. -/

namespace LuaClasses
namespace ScopeTree

/-- What the entity of a scope has taken in: its references, and its types if it gathers any. -/
def intake? (tree : ScopeTree) (id : ScopeId) : Option (OrderedMap Reference × Option TypeSet) :=
  (tree.entity? id).map fun entity => (entity.references, entity.gathered?)

theorem intake?_of_entity? {before after : ScopeTree} {id : ScopeId}
    (same : after.entity? id = before.entity? id) :
    after.intake? id = before.intake? id := by
  rw [intake?, same, intake?]

variable (tree : ScopeTree)

private theorem intake?_internChild (parent : ScopeId) (name : String) (valueType : ValueType)
    (id : ScopeId) :
    (tree.internChild parent name valueType).1.intake? id = tree.intake? id :=
  intake?_of_entity? (entity?_internChild valueType tree parent name id)

theorem intake?_internField (owner : ScopeId) (name : String) (id : ScopeId) :
    (tree.internField owner name).1.intake? id = tree.intake? id :=
  (intake?_internChild _ _ name .field id).trans (intake?_internChild tree owner fieldsName .table id)

private theorem intake?_modifyEntity (id : ScopeId) {f : Entity → Entity}
    (same : ∀ entity, (f entity).references = entity.references ∧ (f entity).gathered? = entity.gathered?)
    (other : ScopeId) :
    (tree.modifyEntity id f).intake? other = tree.intake? other := by
  rw [intake?, entity?_modifyEntity, intake?]
  split
  next equal =>
    rw [equal, Option.map_map]
    exact congrArg (Option.map · (tree.entity? id))
      (funext fun entity => Prod.ext (same entity).1 (same entity).2)
  next => rfl

theorem intake?_mapLocals (id : ScopeId) (f : Members → Members) (other : ScopeId) :
    (tree.modifyEntity id (Entity.mapLocals f)).intake? other = tree.intake? other :=
  tree.intake?_modifyEntity id (fun entity => by
    obtain ⟨references, kind⟩ := entity; cases kind <;> exact ⟨rfl, rfl⟩) other

theorem intake?_modifyClass (id : ScopeId) (f : Class → Class) (other : ScopeId) :
    (tree.modifyClass id f).intake? other = tree.intake? other :=
  tree.intake?_modifyEntity id (fun entity => by
    obtain ⟨references, kind⟩ := entity; cases kind <;> exact ⟨rfl, rfl⟩) other

variable {tree}

/-- Whether a change feeds at most one scope: all others have taken in what they had before. -/
def Feeds (before after : ScopeTree) (but : ScopeId) : Prop :=
  ∀ id, id ≠ but → after.intake? id = before.intake? id

namespace Feeds

variable {first second third : ScopeTree} {but : ScopeId}

private theorem of_same (same : ∀ id, second.intake? id = first.intake? id) : first.Feeds second but :=
  fun id _ => same id

theorem refl (tree : ScopeTree) (but : ScopeId) : tree.Feeds tree but := of_same fun _ => rfl

theorem trans (one : first.Feeds second but) (two : second.Feeds third but) : first.Feeds third but :=
  fun id apart => (two id apart).trans (one id apart)

theorem internChild (tree : ScopeTree) (parent : ScopeId) (name : String) (valueType : ValueType) :
    tree.Feeds (tree.internChild parent name valueType).1 but :=
  of_same (tree.intake?_internChild parent name valueType)

theorem setEntity (tree : ScopeTree) (id : ScopeId) (entity : Entity) :
    tree.Feeds (tree.setEntity id entity) id :=
  fun other apart => intake?_of_entity? (by rw [entity?_setEntity, if_neg apart])

/-- A variable is placed on a scope and entered among the names around it. -/
theorem addLocal (tree : ScopeTree) (id scope : ScopeId) (entity : Entity) (f : Members → Members) :
    tree.Feeds ((tree.setEntity id entity).modifyEntity scope (Entity.mapLocals f)) id :=
  (setEntity tree id entity).trans (of_same (intake?_mapLocals _ scope f))

end Feeds
end ScopeTree

namespace Discovery
open ScopeTree

variable (tree : ScopeTree)

/-! ### The writes of a walk -/

private theorem feeds_applyEvidence (target : ScopeId) (evidence : Evidence) :
    tree.Feeds (applyEvidence tree target evidence).1 target := by
  cases held : tree.entity? target with
  | none => rw [applyEvidence_vacant tree held]; exact .refl tree target
  | some entity => rw [applyEvidence_held tree held]; exact .setEntity tree target _

theorem feeds_propagateInto (owner : ScopeId) : tree.Feeds (propagateInto tree owner).1 owner := by
  cases held : tree.entity? owner with
  | none => rw [propagateInto_vacant tree held]; exact .refl tree owner
  | some entity => rw [propagateInto_held tree held]; exact .setEntity tree owner _

private theorem feeds_enterBlock (parent : ScopeId) (kind : BlockKind) (index : Nat) :
    tree.Feeds (enterBlock tree parent kind index).1 (enterBlock tree parent kind index).2.1 := by
  rw [enterBlock_eq]
  dsimp only
  split
  next => exact .internChild tree parent _ .block
  next => exact (Feeds.internChild tree parent _ .block).trans (.setEntity _ _ _)

private theorem feeds_defineLocal (scope : ScopeId) (name : String) (range : Range) :
    tree.Feeds (defineLocal tree scope name range).1 (defineLocal tree scope name range).2.1 := by
  rw [defineLocal_eq]
  dsimp only
  split
  next => exact .internChild tree scope name .value
  next => exact (Feeds.internChild tree scope name .value).trans (.addLocal _ _ scope _ _)

private theorem feeds_memberScope (parent : ScopeId) (name : String) (range : Range) :
    tree.Feeds (memberScope tree parent name range).1 (memberScope tree parent name range).2.1 := by
  unfold memberScope
  dsimp only
  generalize (if (tree.classAt? parent).isSome then ValueType.value else ValueType.field) = valueType
  split
  next => exact .internChild tree parent name valueType
  next => exact (Feeds.internChild tree parent name valueType).trans (.addLocal _ _ parent _ _)

private theorem feeds_baseScope (scope : ScopeId) (base : String) (but : ScopeId) :
    tree.Feeds (baseScope tree scope base).1 but := by
  rw [baseScope_eq]
  split
  next => exact .refl tree but
  next => exact .internChild tree scope base .table

private theorem feeds_occupy (id : ScopeId) (name : String) (range : Range) :
    tree.Feeds (tree.occupy id name range) id := by
  unfold occupy
  split
  next => exact .refl tree id
  next => exact .setEntity tree id _

private theorem feeds_assignMember (frame : Frame) (base name : String) (evidence : Evidence)
    (range : Range) :
    tree.Feeds (assignMember tree frame base name evidence range).1
      (memberScope (baseScope tree frame.scope base).1
        (baseScope tree frame.scope base).2.1 name range).2.1 := by
  have owner := feeds_baseScope tree frame.scope base
  rw [assignMember_eq]
  generalize baseScope tree frame.scope base = held at owner ⊢
  have member := feeds_memberScope held.1 held.2.1 name range
  dsimp only
  generalize memberScope held.1 held.2.1 name range = made at member ⊢
  have placed := (owner made.2.1).trans member
  split
  next => exact placed.trans (feeds_applyEvidence _ _ _)
  next => exact placed

theorem feeds_assignField {frame : Frame} {owner : ScopeId}
    (nearest : tree.nearestClass frame.scope = some owner) (name : String) (evidence : Evidence)
    (range : Range) :
    tree.Feeds (assignField tree frame name evidence range).1 (tree.internField owner name).2 := by
  rw [assignField_eq tree nearest]
  exact (Feeds.of_same (tree.intake?_internField owner name)).trans ((feeds_occupy _ _ name range).trans
    ((Feeds.of_same (intake?_modifyClass _ owner _)).trans (feeds_applyEvidence _ _ _)))

/-! ### The steps of a body -/

/-- A scope of a body that the scope of the fields of a class does not stand around. -/
structure Away (tree : ScopeTree) (scope fields : ScopeId) : Prop where
  formed : tree.Formed
  owned : ∃ owner, tree.child? owner fieldsName = some fields
  outside : fields ∉ tree.ancestors scope

namespace Away

variable {tree : ScopeTree} {scope fields : ScopeId} (away : Away tree scope fields)
  {level id : ScopeId} {name : String}
include away

theorem around (inside : id ∈ tree.ancestors scope) : tree.parent? id ≠ some fields := by
  intro above
  refine away.outside (mem_ancestors_trans away.formed ?_ inside)
  rw [ancestors_of_parent? away.formed above]
  exact List.mem_cons_of_mem _ (self_mem_ancestors tree fields)

theorem child (inside : level ∈ tree.ancestors scope) (hangs : tree.child? level name = some id) :
    tree.parent? id ≠ some fields := by
  rw [away.formed.parent?_of_child hangs]
  rintro ⟨⟩
  exact away.outside inside

/-- What hangs below a scope with a plain name is no field. -/
theorem member {outer : ScopeId} {base : String} (plain : base ≠ fieldsName)
    (held : tree.child? outer base = some level) (hangs : tree.child? level name = some id) :
    tree.parent? id ≠ some fields := by
  rw [away.formed.parent?_of_child hangs]
  rintro ⟨⟩
  obtain ⟨owner, below⟩ := away.owned
  exact plain (away.formed.child_unique held below).2

end Away

section Steps

variable {state : State} {frame : Frame} {fields : ScopeId}

private theorem child?_defineLocal {tree : ScopeTree} (formed : tree.Formed) (dotless : tree.Dotless)
    {scope : ScopeId} (inside : scope.index < tree.size) {name : String} (plain : '.' ∉ name.toList)
    (range : Range) :
    (defineLocal tree scope name range).1.child? scope name =
    some (defineLocal tree scope name range).2.1 := by
  have hangs := dotless.child?_internChild formed plain inside .value
  rw [defineLocal_eq]
  dsimp only
  split
  next => exact hangs
  next => exact (sameShape_modifyEntity _ scope _).links ((sameShape_setEntity _ _ _).links hangs)

/-- The declaration of a local feeds that local. -/
theorem feeds_local {tree : ScopeTree} (formed : tree.Formed) (dotless : tree.Dotless) {scope : ScopeId}
    (inside : scope.index < tree.size) {name : String} (plain : '.' ∉ name.toList)
    (range : Range) (evidence : Evidence)
    (away : Away (applyEvidence (defineLocal tree scope name range).1
      (defineLocal tree scope name range).2.1 evidence).1
      scope fields) :
    ∃ id, tree.Feeds (applyEvidence (defineLocal tree scope name range).1
      (defineLocal tree scope name range).2.1 evidence).1 id ∧
      (applyEvidence (defineLocal tree scope name range).1
        (defineLocal tree scope name range).2.1 evidence).1.parent? id ≠
        some fields := by
  have hangs := child?_defineLocal formed dotless inside plain range
  have feeds := feeds_defineLocal tree scope name range
  have made := (advances_defineLocal tree inside name range formed).1
  generalize defineLocal tree scope name range = defined at hangs feeds made away ⊢
  have links := (advances_applyEvidence defined.1 defined.2.1 evidence made).2.links
  exact ⟨defined.2.1, feeds.trans (feeds_applyEvidence _ _ _),
    away.child (self_mem_ancestors _ _) (links hangs)⟩

/-- The base of a member hangs by its name, below a scope around the body or where it is made. -/
theorem child?_baseScope {tree : ScopeTree} (formed : tree.Formed) (dotless : tree.Dotless) {scope : ScopeId}
    (inside : scope.index < tree.size) {base : String} (plain : '.' ∉ base.toList) :
    ∃ level, (baseScope tree scope base).1.child? level base = some (baseScope tree scope base).2.1 := by
  rw [baseScope_eq]
  split
  next found =>
    obtain ⟨level, _, hangs⟩ := exists_child_of_lookup plain found
    exact ⟨level, hangs⟩
  next => exact ⟨scope, dotless.child?_internChild formed plain inside .table⟩

/-- An assignment to a member of what is not the instance feeds that member. -/
theorem feeds_member {tree : ScopeTree} (formed : tree.Formed) (level : tree.Level)
    (inside : frame.scope.index < tree.size) {base name : String} (owned : PlainName base)
    (plain : '.' ∉ name.toList) (evidence : Evidence) (range : Range)
    (away : Away (assignMember tree frame base name evidence range).1 frame.scope fields) :
    ∃ id, tree.Feeds (assignMember tree frame base name evidence range).1 id ∧
      (assignMember tree frame base name evidence range).1.parent? id ≠ some fields := by
  have feeds := feeds_assignMember tree frame base name evidence range
  obtain ⟨outer, held⟩ := child?_baseScope formed level.dotless inside owned.1
  have based := (advances_baseScope tree inside base formed).1
  have kept := (neutral_baseScope tree frame.scope owned.1).level level
  have within := index_baseScope tree frame.scope base
  rw [assignMember_eq] at away feeds ⊢
  generalize baseScope tree frame.scope base = owner at held based kept within away feeds ⊢
  have hangs := (memberScope_places based kept.dotless within plain range).1
  obtain ⟨made, grows⟩ := advances_memberScope owner.1 within name range based
  have held := grows.links held
  dsimp only at away feeds ⊢
  generalize memberScope owner.1 owner.2.1 name range = member at hangs made held away feeds ⊢
  refine ⟨member.2.1, feeds, ?_⟩
  revert away
  split <;> intro away
  next =>
    have links := (advances_applyEvidence member.1 member.2.1 evidence made).2.links
    exact away.member owned.2 (links held) (links hangs)
  next => exact away.member owned.2 held hangs

/-- An assignment to a name feeds what the name leads to, or a new local. -/
theorem feeds_name (formed : state.tree.Formed) (dotless : state.tree.Dotless)
    (inside : frame.scope.index < state.tree.size) {name : String} (plain : '.' ∉ name.toList)
    (evidence : Evidence) (range : Range)
    (away : Away (assignName state frame name evidence range).1.tree frame.scope fields) :
    ∃ id, state.tree.Feeds (assignName state frame name evidence range).1.tree id ∧
      (assignName state frame name evidence range).1.tree.parent? id ≠ some fields := by
  revert away
  unfold assignName
  split
  next => exact feeds_local formed dotless inside plain range evidence
  next id found =>
    obtain ⟨level, around, hangs⟩ := exists_child_of_lookup plain found
    split
    next =>
      intro away
      have grows := (advances_applyEvidence state.tree id evidence formed).2
      have within := (grows.ancestors inside).symm ▸ around
      exact ⟨id, feeds_applyEvidence state.tree id evidence, away.child within (grows.links hangs)⟩
    next =>
      rw [State.tree_warn]
      exact fun away => ⟨id, .refl state.tree id, away.child around hangs⟩

/-- A step of a body that does not assign a field of the instance feeds no field. -/
theorem feeds_action (config : DiscoveryConfig) {action : Action} (formed : state.tree.Formed)
    (level : state.tree.Level) (inside : frame.scope.index < state.tree.size)
    (returns : ∀ function, frame.function = some function → function ∈ state.tree.ancestors frame.scope)
    (other : ∀ entry, action.target? = some entry → frame.field? entry.1 = none)
    (plain : ∀ name ∈ action.names, PlainName name) (range : Range)
    (away : Away (action.run config frame range state).1.tree frame.scope fields) :
    ∃ id, state.tree.Feeds (action.run config frame range state).1.tree id ∧
      (action.run config frame range state).1.tree.parent? id ≠ some fields := by
  cases action with
  | block kind index =>
    exact ⟨_, feeds_enterBlock state.tree frame.scope kind index,
      away.child (self_mem_ancestors _ _) (child?_enterBlock formed level.dotless inside kind index)⟩
  | local_ name value =>
    exact feeds_local formed level.dotless inside (plain name (List.mem_singleton_self _)).1 range _ away
  | target expr value =>
    have foreign := other _ rfl
    have idle : Away state.tree frame.scope fields → ∃ id, state.tree.Feeds state.tree id ∧
        state.tree.parent? id ≠ some fields :=
      fun away => ⟨frame.scope, .refl _ _, away.around (self_mem_ancestors _ _)⟩
    change ∀ name ∈ expr.names, PlainName name at plain
    rw [← Expr.names_unparen] at plain
    revert away
    unfold Action.run assign
    dsimp only
    split
    next name same =>
      exact feeds_name formed level.dotless inside
        (plain name (by rw [same]; exact List.mem_singleton_self _)).1 _ range
    next object name same =>
      rw [same] at plain
      split
      next base named =>
        have foreign : frame.isAlias base = false := by
          refine Bool.eq_false_iff.2 fun known => ?_
          have field := Frame.field?_eq_some.2 ⟨object, base, same, named, known⟩
          cases foreign.symm.trans field
        rw [if_neg (Bool.eq_false_iff.1 foreign)]
        exact feeds_member formed level inside
          (plain base (List.mem_append_left _ (Expr.name_mem_names named)))
          (plain name (List.mem_append_right _ (List.mem_singleton_self _))).1 _ range
      next => rw [State.tree_warn]; exact idle
    next => rw [State.tree_warn]; exact idle
  | return_ values =>
    revert away
    unfold Action.run
    dsimp only
    split <;> intro away
    next => exact ⟨frame.scope, .refl _ _, away.around (self_mem_ancestors _ _)⟩
    next function known =>
      have grows := (advances_applyEvidence state.tree
        function (returnEvidence config state.tree frame values) formed).2
      exact ⟨function, feeds_applyEvidence _ _ _,
        away.around ((grows.ancestors inside).symm ▸ returns function known)⟩

end Steps

end Discovery
end LuaClasses
