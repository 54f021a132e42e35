import LuaClasses.Proofs.ShapeWalk

/-! A write of a sweep that counts nothing changes nothing. -/

namespace LuaClasses

theorem TypeSet.union_of_missing {set types : TypeSet} (known : set.missing types = 0) :
    set ∪ types = set := by
  refine TypeSet.ext fun type => ?_
  rw [mem_union]
  refine ⟨fun member => member.elim id fun new => ?_, .inl⟩
  have none_missing := List.filter_eq_nil_iff.1 (List.length_eq_zero_iff.1 known) type new
  simpa [contains, mem_def] using none_missing

private theorem Entity.gather_of_known {entity : Entity} {types : TypeSet}
    (known : entity.newTypes types = 0) :
    entity.gather types = entity := by
  obtain ⟨references, kind⟩ := entity
  cases kind with
  | «variable» var =>
    simp only [gather, TypeSet.union_of_missing (show var.types.missing types = 0 from known)]
  | function held =>
    simp only [gather, TypeSet.union_of_missing (show held.returns.missing types = 0 from known)]
  | _ => rfl

namespace ScopeTree

variable {tree : ScopeTree}

/-- A scope that is made without the tree growing was there before. -/
theorem internChild_of_size {parent : ScopeId} {name : String} {valueType : ValueType}
    (same : (tree.internChild parent name valueType).1.size ≤ tree.size) :
    (tree.internChild parent name valueType).1 = tree := by
  cases found : tree.find? (DottedName.child (tree.raw parent) name) with
  | some id => rw [internChild_found valueType found]
  | none =>
    rw [size_internChild valueType found] at same
    exact absurd same (Nat.not_succ_le_self _)

private theorem modifyEntity_self {id : ScopeId} {f : Entity → Entity}
    (same : ∀ entity, tree.entity? id = some entity → f entity = entity) : tree.modifyEntity id f = tree := by
  refine eq_of_node? (fun other => ?_) rfl
  rw [modifyEntity, node?_modifySlot]
  split
  next equal =>
    subst equal
    cases found : tree.node? other with
    | none => rfl
    | some node =>
      obtain ⟨raw, name, parent, children, valueType, entity⟩ := node
      cases entity with
      | none => rfl
      | some entity =>
        have held : tree.entity? other = some entity := by rw [entity?, found]; rfl
        simp only [Option.map_some, same entity held]
  next => rfl

end ScopeTree

namespace Discovery
open ScopeTree

variable {tree : ScopeTree}

theorem idle_applyEvidence {target : ScopeId} {evidence : Evidence}
    (idle : (applyEvidence tree target evidence).2 = 0) :
    (applyEvidence tree target evidence).1 = tree := by
  cases held : tree.entity? target with
  | none => rw [applyEvidence_vacant tree held]
  | some entity =>
    rw [applyEvidence_held tree held] at idle ⊢
    have same : (evidence.absorb tree target entity).1 = entity := by
      unfold Evidence.absorb at idle ⊢
      split at idle
      next => exact Entity.gather_of_known idle
      next =>
        dsimp only at idle ⊢
        split at idle
        next => cases idle
        next known =>
          rw [if_neg known]
          exact Entity.gather_of_known idle
    rw [same]
    exact setEntity_self held

theorem idle_enterBlock {parent : ScopeId} {kind : BlockKind} {index : Nat}
    (idle : (enterBlock tree parent kind index).2.2 = 0) : (enterBlock tree parent kind index).1 = tree := by
  rw [enterBlock_eq] at idle ⊢
  dsimp only at idle ⊢
  split at idle
  next held =>
    rw [if_pos held]
    refine internChild_of_size (Nat.le_of_not_lt fun grown => ?_)
    rw [if_pos grown] at idle
    cases idle
  next => cases idle

theorem idle_defineLocal {scope : ScopeId} {name : String} {range : Range}
    (idle : (defineLocal tree scope name range).2.2 = 0) : (defineLocal tree scope name range).1 = tree := by
  rw [defineLocal_eq] at idle ⊢
  dsimp only at idle ⊢
  split at idle
  next held => rw [if_pos held, internChild_of_entity .value rfl held]
  next => cases idle

private theorem idle_baseScope {scope : ScopeId} {base : String}
    (idle : (baseScope tree scope base).2.2 = 0) :
    (baseScope tree scope base).1 = tree := by
  rw [baseScope_eq] at idle ⊢
  split at idle
  next id found => rfl
  next missing =>
    refine internChild_of_size (Nat.le_of_not_lt fun grown => ?_)
    dsimp only at idle
    rw [if_pos grown] at idle
    cases idle

private theorem idle_memberScope {parent : ScopeId} {name : String} {range : Range}
    (idle : (memberScope tree parent name range).2.2 = 0) :
    (memberScope tree parent name range).1 = tree := by
  unfold memberScope at idle ⊢
  dsimp only at idle ⊢
  generalize (if (tree.classAt? parent).isSome then ValueType.value else ValueType.field) =
    valueType at idle ⊢
  split at idle
  next held => rw [if_pos held, internChild_of_entity _ rfl held]
  next => cases idle

theorem idle_assignMember {frame : Frame} {base name : String} {evidence : Evidence} {range : Range}
    (idle : (assignMember tree frame base name evidence range).2 = 0) :
    (assignMember tree frame base name evidence range).1 = tree := by
  rw [assignMember_eq] at idle ⊢
  dsimp only at idle ⊢
  split at idle
  next isVariable =>
    rw [if_pos isVariable]
    simp only [Nat.add_eq_zero_iff] at idle
    obtain ⟨⟨owner, member⟩, applied⟩ := idle
    rw [idle_applyEvidence applied, idle_memberScope member, idle_baseScope owner]
  next isNot =>
    rw [if_neg isNot]
    simp only [Nat.add_eq_zero_iff] at idle
    rw [idle_memberScope idle.2, idle_baseScope idle.1]

private theorem internField_of_fieldAt (formed : tree.Formed) {owner id : ScopeId} {name : String}
    (there : tree.FieldAt owner name id) : tree.internField owner name = (tree, id) := by
  obtain ⟨fields, first, second⟩ := there
  unfold internField
  rw [internChild_found .table (formed.find?_child first)]
  exact internChild_found .field (formed.find?_child second)

/-- A field that is occupied is listed by its class already, so entering it once more counts nothing and
changes nothing. -/
theorem idle_assignField (formed : tree.Formed) (tidy : tree.Tidy) {frame : Frame} {name : String}
    (plain : PlainName name) {evidence : Evidence} {range : Range}
    (idle : (assignField tree frame name evidence range).2 = 0) :
    (assignField tree frame name evidence range).1 = tree := by
  cases nearest : tree.nearestClass frame.scope with
  | none => rw [assignField_outside tree nearest]
  | some owner =>
    rw [assignField_eq tree nearest] at idle ⊢
    dsimp only at idle ⊢
    simp only [Nat.add_eq_zero_iff] at idle
    obtain ⟨created, applied⟩ := idle
    rw [idle_applyEvidence applied]
    have inside := index_lt_of_nearestClass nearest
    obtain ⟨made, there⟩ := tends_internField formed tidy inside plain.1
    obtain ⟨last, _, grows⟩ := made formed tidy
    have occupied : tree.hasEntity (tree.internField owner name).2 = true := by
      have entities : (tree.internField owner name).1.entity? (tree.internField owner name).2 =
          tree.entity? (tree.internField owner name).2 :=
        (entity?_internChild .field _ _ _ _).trans (entity?_internChild .table _ _ _ _)
      unfold vacancy at created
      split at created
      next held => rw [hasEntity, ← entities]; exact held
      next => cases created
    have there := there.back formed last grows.links (index_lt_of_hasEntity occupied)
    rw [internField_of_fieldAt formed there] at there occupied ⊢
    rw [occupy, if_pos occupied]
    refine modifyEntity_self fun entity held => ?_
    obtain ⟨references, kind⟩ := entity
    cases kind with
    | class_ held' =>
      have known : tree.classAt? owner = some held' := by rw [classAt?, held]; rfl
      have listed := ((tidy.shaped known).fields.listed there occupied).1
      simp only [Entity.mapClass, OrderedMap.insertNew_of_contains listed]
    | _ => rfl

/-! ### Propagation -/

private theorem mapValues_self {α : Type} {map : OrderedMap α} {f : α → α}
    (same : ∀ value ∈ map.values, f value = value) :
    map.mapValues f = map := by
  refine OrderedMap.ext ((List.map_congr_left fun entry member => ?_).trans (List.map_id map.entries))
  rw [same entry.2 (List.mem_map_of_mem member)]
  rfl

theorem idle_propagateInto {owner : ScopeId} (idle : (propagateInto tree owner).2 = 0) :
    (propagateInto tree owner).1 = tree := by
  cases held : tree.entity? owner with
  | none => rw [propagateInto_vacant tree held]
  | some entity =>
    rw [propagateInto_held tree held] at idle ⊢
    dsimp only at idle ⊢
    obtain ⟨settled, gathered⟩ := Nat.add_eq_zero_iff.1 idle
    have same : entity.references.mapValues (settle tree owner) = entity.references := by
      refine mapValues_self fun reference member => ?_
      have unsettled := List.countP_eq_zero.1 settled reference member
      cases reference with
      | resolved target => rfl
      | unresolved target origin =>
        unfold settle
        cases found : destination? tree owner (.unresolved target origin) with
        | none => rfl
        | some other => simp [found, Reference.isResolved] at unsettled
    rw [same, Entity.gather_of_known gathered]
    exact setEntity_self held

theorem idle_propagate (idle : (propagate tree).2 = 0) : (propagate tree).1 = tree := by
  rw [propagate_eq] at idle ⊢
  exact runEach_idle (fun owner _ idle => idle_propagateInto idle) idle

end Discovery
end LuaClasses
