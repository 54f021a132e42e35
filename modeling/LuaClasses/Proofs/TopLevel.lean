import LuaClasses.Proofs.LexicalScope

/-! Classes stand at the top level of the tree. So the class that a body assigns fields to is the one
that the body belongs to, and every other write of a walk leaves the fields of all classes as they
are. -/

namespace LuaClasses
namespace ScopeTree

/-- No name has a dot in it, and scopes for classes are of the top level only. -/
structure Level (tree : ScopeTree) : Prop where
  dotless : tree.Dotless
  top : ∀ ⦃id node⦄, tree.node? id = some node → node.valueType = .class_ → node.parent = some root

/-- Whether a scope was made for a class. What stands on it may be something else. -/
def ClassNode (tree : ScopeTree) (id : ScopeId) : Prop :=
  ∃ node, tree.node? id = some node ∧ node.valueType = .class_

/-- The instance fields of what stands on a scope. Nothing but a class has any. -/
def fieldsOf (tree : ScopeTree) (id : ScopeId) : Members := ((tree.entity? id).map Entity.fields).getD .empty

variable {tree before after : ScopeTree}

theorem Level.of_sameShape (level : before.Level) (same : SameShape after before) : after.Level where
  dotless := level.dotless.of_sameShape same
  top := by
    intro id node found isClass
    obtain ⟨old, present, equal⟩ := same.node? found
    have type : old.vacant.valueType = node.vacant.valueType := by rw [equal]
    have parent : old.vacant.parent = node.vacant.parent := by rw [equal]
    have top : old.parent = some root := level.top present (type.trans isClass)
    exact parent.symm.trans top

theorem Level.internChild (level : tree.Level) {name : String} (plain : '.' ∉ name.toList) (parent : ScopeId)
    {valueType : ValueType} (top : valueType = .class_ → parent = root ∧ root.index < tree.size) :
    (tree.internChild parent name valueType).1.Level where
  dotless := level.dotless.internChild plain parent valueType
  top := by
    cases found : tree.find? (DottedName.child (tree.raw parent) name) with
    | some id => rw [internChild_found valueType found]; exact level.top
    | none =>
      intro id node present isClass
      rw [node?_internChild valueType found] at present
      split at present
      next =>
        cases present
        obtain ⟨rfl, inside⟩ := top isClass
        exact if_pos inside
      next =>
        split at present
        next =>
          obtain ⟨old, there, rfl⟩ := Option.map_eq_some_iff.1 present
          have parent := level.top there isClass
          exact parent
        next => exact level.top present isClass

theorem ClassNode.grows {id : ScopeId} (node : before.ClassNode id) (grows : before.Grows after) :
    after.ClassNode id := by
  obtain ⟨held, present, isClass⟩ := node
  obtain ⟨later, reached, grown⟩ := grows.nodes id held present
  exact ⟨later, reached, grown.valueType.trans isClass⟩

theorem ClassNode.of_sameShape {id : ScopeId} (node : before.ClassNode id) (same : SameShape after before) :
    after.ClassNode id := by
  obtain ⟨held, present, isClass⟩ := node
  obtain ⟨later, reached, equal⟩ := same.symm.node? present
  have type : later.vacant.valueType = held.vacant.valueType := by rw [equal]
  exact ⟨later, reached, type.trans isClass⟩

theorem ClassNode.top {id : ScopeId} (node : tree.ClassNode id) (level : tree.Level) :
    tree.parent? id = some root := by
  obtain ⟨held, present, isClass⟩ := node
  rw [parent?, present, Option.bind_some, level.top present isClass]

/-- The class around a body is the one that the body belongs to. -/
theorem InBody.nearestClass {owner scope : ScopeId} (inside : tree.InBody owner scope) (formed : tree.Formed)
    (level : tree.Level) (node : tree.ClassNode owner) (held : tree.hasEntity owner = true) :
    tree.nearestClass scope = some owner := by
  obtain ⟨around, newer⟩ := inside.ancestors formed
  obtain ⟨member, below, above⟩ := inside.function
  have within : owner ∈ tree.ancestors scope := by rw [around]; simp
  rw [ScopeTree.nearestClass, around, List.find?_append, Option.or_eq_some_iff]
  refine .inr ⟨List.find?_eq_none.2 fun other listed isClass => ?_, ?_⟩
  · -- A scope of the body that was made for a class would hang at the top level beside the class of the body.
    have inner : other ∈ tree.ancestors scope := by rw [around]; exact List.mem_append_left _ listed
    split at isClass
    next held present =>
      rw [Bool.and_eq_true, decide_eq_true_eq] at isClass
      have top : tree.parent? other = some root := ClassNode.top ⟨held, present, isClass.1⟩ level
      have same := formed.eq_of_mem_ancestors top inside.top inner within
      exact Nat.lt_irrefl _ (same ▸ newer other listed)
    next => cases isClass
  · obtain ⟨found, present, isClass⟩ := node
    have occupied : found.entity.isSome = true := by
      rw [hasEntity, entity?, present, Option.bind_some] at held
      exact held
    rw [List.find?_cons_of_pos (by simp [present, isClass, occupied])]

/-! ### Writes that leave fields alone -/

/-- What a write does that gives no class a field and takes none away. -/
structure Neutral (before after : ScopeTree) : Prop where
  level : before.Level → after.Level
  fields : ∀ id, after.fieldsOf id = before.fieldsOf id

theorem Neutral.refl (tree : ScopeTree) : tree.Neutral tree := ⟨id, fun _ => rfl⟩

theorem Neutral.trans {first second third : ScopeTree} (one : first.Neutral second)
    (two : second.Neutral third) :
    first.Neutral third :=
  ⟨two.level ∘ one.level, fun id => (two.fields id).trans (one.fields id)⟩

variable (tree)

theorem neutral_internChild {name : String} (plain : '.' ∉ name.toList) (parent : ScopeId)
    (valueType : ValueType) (other : valueType ≠ .class_) :
    tree.Neutral (tree.internChild parent name valueType).1 where
  level := fun level => level.internChild plain parent fun same => absurd same other
  fields := fun id => by rw [fieldsOf, entity?_internChild, fieldsOf]

theorem neutral_setEntity (id : ScopeId) {entity : Entity} (same : entity.fields = tree.fieldsOf id) :
    tree.Neutral (tree.setEntity id entity) where
  level := (·.of_sameShape (sameShape_setEntity tree id entity))
  fields := by
    intro other
    rw [fieldsOf, entity?_setEntity]
    split
    next equal =>
      subst equal
      cases present : tree.node? other with
      | none => simp [fieldsOf, entity?, present]
      | some node => exact same
    next => rfl

theorem neutral_modifyEntity (id : ScopeId) {f : Entity → Entity}
    (same : ∀ entity, (f entity).fields = entity.fields) :
    tree.Neutral (tree.modifyEntity id f) where
  level := (·.of_sameShape (sameShape_modifyEntity tree id f))
  fields := by
    intro other
    rw [fieldsOf, entity?_modifyEntity]
    split
    next equal =>
      subst equal
      rw [Option.map_map, fieldsOf]
      congr 2
      exact funext same
    next => rfl

theorem fieldsOf_of_vacant {id : ScopeId} (vacant : tree.entity? id = none) : tree.fieldsOf id = .empty := by
  rw [fieldsOf, vacant]; rfl

theorem fieldsOf_of_held {id : ScopeId} {entity : Entity} (held : tree.entity? id = some entity) :
    tree.fieldsOf id = entity.fields := by
  rw [fieldsOf, held]; rfl

/-- A scope that nothing occupies may be given anything but a class. -/
theorem neutral_place {id : ScopeId} {entity : Entity} (vacant : tree.hasEntity id = false)
    (bare : entity.fields = .empty) : tree.Neutral (tree.setEntity id entity) := by
  refine tree.neutral_setEntity id (bare.trans (tree.fieldsOf_of_vacant ?_).symm)
  rw [hasEntity] at vacant
  exact Option.isNone_iff_eq_none.1 (by simpa using vacant)

theorem neutral_occupy (id : ScopeId) (name : String) (range : Range) :
    tree.Neutral (tree.occupy id name range) := by
  unfold occupy
  split
  next => exact .refl tree
  next vacant => exact tree.neutral_place (Bool.eq_false_iff.2 vacant) rfl

end ScopeTree

namespace Discovery
open ScopeTree

variable (tree : ScopeTree)

private theorem fields_mapLocals (entity : Entity) (f : Members → Members) :
    (entity.mapLocals f).fields = entity.fields := by
  obtain ⟨references, kind⟩ := entity
  cases kind <;> rfl

private theorem neutral_replace {id : ScopeId} {entity later : Entity} (held : tree.entity? id = some entity)
    (same : later.fields = entity.fields) : tree.Neutral (tree.setEntity id later) :=
  tree.neutral_setEntity id (same.trans (tree.fieldsOf_of_held held).symm)

theorem neutral_applyEvidence (target : ScopeId) (evidence : Evidence) :
    tree.Neutral (applyEvidence tree target evidence).1 := by
  cases held : tree.entity? target with
  | none => rw [applyEvidence_vacant tree held]; exact .refl tree
  | some entity =>
    rw [applyEvidence_held tree held]
    refine neutral_replace tree held ?_
    rw [Entity.fields, Entity.asClass?, evidence.kind_absorb tree target entity]
    exact fields_gather entity _

theorem neutral_propagateInto (owner : ScopeId) : tree.Neutral (propagateInto tree owner).1 := by
  cases held : tree.entity? owner with
  | none => rw [propagateInto_vacant tree held]; exact .refl tree
  | some entity =>
    rw [propagateInto_held tree held]
    exact neutral_replace tree held (fields_gather _ _)

theorem neutral_propagate : tree.Neutral (propagate tree).1 := by
  rw [propagate_eq]
  exact runEach_relates Neutral .refl .trans (fun owner _ tree => neutral_propagateInto tree owner) tree

theorem neutral_enterBlock (parent : ScopeId) (kind : BlockKind) (index : Nat) :
    tree.Neutral (enterBlock tree parent kind index).1 := by
  have made := tree.neutral_internChild (plain_blockName kind index).1 parent .block nofun
  rw [enterBlock_eq]
  dsimp only
  split
  next => exact made
  next vacant => exact made.trans (neutral_place _ (Bool.eq_false_iff.2 vacant) rfl)

variable {name : String} (plain : '.' ∉ name.toList)
include plain

theorem neutral_defineLocal (scope : ScopeId) (range : Range) :
    tree.Neutral (defineLocal tree scope name range).1 := by
  have made := tree.neutral_internChild plain scope .value nofun
  rw [defineLocal_eq]
  dsimp only
  split
  next => exact made
  next vacant =>
    exact made.trans ((neutral_place _ (Bool.eq_false_iff.2 vacant) rfl).trans
      (neutral_modifyEntity _ _ fun entity => fields_mapLocals entity _))

private theorem neutral_memberScope (parent : ScopeId) (range : Range) :
    tree.Neutral (memberScope tree parent name range).1 := by
  have made := tree.neutral_internChild plain parent
    (if (tree.classAt? parent).isSome then .value else .field)
    (by split <;> nofun)
  unfold memberScope
  dsimp only
  generalize tree.internChild parent name _ = first at made ⊢
  split
  next => exact made
  next vacant =>
    exact made.trans ((neutral_place _ (Bool.eq_false_iff.2 vacant) rfl).trans
      (neutral_modifyEntity _ _ fun entity => fields_mapLocals entity _))

omit plain in
theorem neutral_baseScope (scope : ScopeId) {base : String} (owned : '.' ∉ base.toList) :
    tree.Neutral (baseScope tree scope base).1 := by
  rw [baseScope_eq]
  split
  next => exact .refl tree
  next => exact tree.neutral_internChild owned scope .table (by simp)

theorem neutral_assignMember (frame : Frame) {base : String} (owned : '.' ∉ base.toList) (evidence : Evidence)
    (range : Range) : tree.Neutral (assignMember tree frame base name evidence range).1 := by
  have member := (neutral_baseScope tree frame.scope owned).trans
    (neutral_memberScope (baseScope tree frame.scope base).1 plain
      (baseScope tree frame.scope base).2.1 range)
  rw [assignMember_eq]
  dsimp only
  split
  next => exact member.trans (neutral_applyEvidence _ _ _)
  next => exact member

end Discovery
end LuaClasses
