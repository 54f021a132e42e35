import LuaClasses.Proofs.SweepTours
import LuaClasses.Proofs.Weight

/-! Every discovery that a sweep counts adds to the weight of the tree. -/

namespace LuaClasses.Discovery
open ScopeTree

/-- A change that adds at least what it counts to the weight of a tree. -/
def Gains (before after : ScopeTree) (found : Nat) : Prop := before.weight + found ≤ after.weight

variable {first second third : ScopeTree} {m n : Nat}

theorem Gains.refl (tree : ScopeTree) : Gains tree tree 0 := Nat.le_refl _

theorem Gains.trans (one : Gains first second m) (two : Gains second third n) :
    Gains first third (m + n) := by
  unfold Gains at *
  omega

theorem Gains.fewer (gains : Gains first second n) (less : m ≤ n) : Gains first second m := by
  unfold Gains at *
  omega

variable (tree : ScopeTree)

private theorem gains_internChild (parent : ScopeId) (name : String) (valueType : ValueType) :
    Gains tree (tree.internChild parent name valueType).1
      (if tree.size < (tree.internChild parent name valueType).1.size then 1 else 0) :=
  Nat.le_of_eq (weight_internChild tree parent name valueType).symm

private theorem Evidence.weight_absorb (evidence : Evidence) (target : ScopeId) (entity : Entity) :
    entity.weight + (evidence.absorb tree target entity).2 ≤
      (evidence.absorb tree target entity).1.weight := by
  have gathered := entity.weight_gather (evidence.typesFor tree target)
  unfold Evidence.absorb
  split
  next => exact gathered
  next reference _ =>
    dsimp only
    split
    next better =>
      have more := weight_insertReference better
      simp only [Entity.weight, Entity.references_gather, Entity.gathered, Entity.gathered?] at gathered ⊢
      omega
    next => exact gathered

private theorem gains_applyEvidence (target : ScopeId) (evidence : Evidence) :
    Gains tree (applyEvidence tree target evidence).1 (applyEvidence tree target evidence).2 := by
  cases held : tree.entity? target with
  | none => rw [applyEvidence_vacant tree held]; exact .refl tree
  | some entity =>
    rw [applyEvidence_held tree held]
    have changed := weight_setEntity held (evidence.absorb tree target entity).1
    have more := evidence.weight_absorb tree target entity
    unfold Gains
    dsimp only
    omega

private theorem gains_place {id : ScopeId} (inside : id.index < tree.size)
    (vacant : tree.hasEntity id = false) (entity : Entity) :
    Gains tree (tree.setEntity id entity) 1 := by
  have placed := weight_place inside vacant entity
  unfold Gains
  simp only [Entity.weight] at placed
  omega

private theorem gains_mapLocals (scope : ScopeId) (f : Members → Members) :
    Gains tree (tree.modifyEntity scope (Entity.mapLocals f)) 0 :=
  Nat.le_of_eq (weight_modifyEntity scope fun entity => entity.weight_mapLocals f).symm

private theorem gains_modifyClass (owner : ScopeId) (f : Class → Class) :
    Gains tree (tree.modifyClass owner f) 0 :=
  Nat.le_of_eq (weight_modifyEntity owner fun entity => entity.weight_mapClass f).symm

private theorem gains_enterBlock (parent : ScopeId) (kind : BlockKind) (index : Nat) :
    Gains tree (enterBlock tree parent kind index).1 (enterBlock tree parent kind index).2.2 := by
  have made := gains_internChild tree parent (blockName kind index) .block
  have inside := index_internChild .block tree parent (blockName kind index)
  rw [enterBlock_eq]
  dsimp only
  split
  next => exact made
  next vacant => exact made.trans (gains_place _ inside (by simpa using vacant) _)

/-- A variable on a scope that was vacant, with its name. -/
theorem gains_addLocal {scope id : ScopeId} (inside : id.index < tree.size)
    (vacant : tree.hasEntity id = false) (entity : Entity) (f : Members → Members) :
    Gains tree ((tree.setEntity id entity).modifyEntity scope (Entity.mapLocals f)) 1 :=
  (gains_place tree inside vacant entity).trans (gains_mapLocals _ scope f)

private theorem gains_defineLocal (scope : ScopeId) (name : String) (range : Range) :
    Gains tree (defineLocal tree scope name range).1 (defineLocal tree scope name range).2.2 := by
  have made := (gains_internChild tree scope name .value).fewer (Nat.zero_le _)
  have inside := index_internChild .value tree scope name
  rw [defineLocal_eq]
  dsimp only
  split
  next => exact made
  next vacant =>
    exact (made.trans (gains_addLocal _ inside (by simpa using vacant) _ _)).fewer (Nat.le_refl 1)

private theorem gains_internField (owner : ScopeId) (name : String) :
    Gains tree (tree.internField owner name).1 0 :=
  ((gains_internChild tree owner fieldsName .table).trans (gains_internChild _ _ name .field)).fewer
  (Nat.zero_le _)

private theorem gains_assignField (frame : Frame) (name : String) (evidence : Evidence) (range : Range) :
    Gains tree (assignField tree frame name evidence range).1
      (assignField tree frame name evidence range).2 := by
  cases nearest : tree.nearestClass frame.scope with
  | none => rw [assignField_outside tree nearest]; exact .refl tree
  | some owner =>
    rw [assignField_eq tree nearest]
    have made := gains_internField tree owner name
    have inside := index_lt_of_find? (find?_internField tree owner name)
    have occupied : Gains (tree.internField owner name).1
        ((tree.internField owner name).1.occupy (tree.internField owner name).2 name range)
        (vacancy (tree.internField owner name).1 (tree.internField owner name).2) := by
      unfold occupy vacancy
      split
      next => exact .refl _
      next vacant => exact gains_place _ inside (by simpa using vacant) _
    have listed := (made.trans occupied).trans (gains_modifyClass _ owner fun held =>
      { held with fields := held.fields.insertNew name (tree.internField owner name).2 })
    have all := listed.trans (gains_applyEvidence _ (tree.internField owner name).2 evidence)
    rw [Nat.zero_add, Nat.add_zero] at all
    exact all

private theorem gains_baseScope (scope : ScopeId) (base : String) :
    Gains tree (baseScope tree scope base).1 (baseScope tree scope base).2.2 := by
  rw [baseScope_eq]
  split
  next => exact .refl tree
  next => exact gains_internChild tree scope base .table

private theorem gains_memberScope (parent : ScopeId) (name : String) (range : Range) :
    Gains tree (memberScope tree parent name range).1 (memberScope tree parent name range).2.2 := by
  unfold memberScope
  dsimp only
  generalize (if (tree.classAt? parent).isSome then ValueType.value else ValueType.field) = valueType
  have made := (gains_internChild tree parent name valueType).fewer (Nat.zero_le _)
  have inside := index_internChild valueType tree parent name
  split
  next => exact made
  next vacant =>
    exact (made.trans (gains_addLocal _ inside (by simpa using vacant) _ _)).fewer (Nat.le_refl 1)

private theorem gains_assignMember (frame : Frame) (base name : String) (evidence : Evidence)
    (range : Range) :
    Gains tree (assignMember tree frame base name evidence range).1
      (assignMember tree frame base name evidence range).2 := by
  have member := (gains_baseScope tree frame.scope base).trans
    (gains_memberScope _ (baseScope tree frame.scope base).2.1 name range)
  rw [assignMember_eq]
  dsimp only
  split
  next => exact member.trans (gains_applyEvidence _ _ evidence)
  next => exact member

/-! ### Propagation -/

private theorem weight_settle (owner : ScopeId) (references : List Reference) :
    (references.map Reference.weight).sum + settledCount tree owner references =
      (references.map fun reference => (settle tree owner reference).weight).sum := by
  induction references with
  | nil => rfl
  | cons reference rest ih =>
    have one :
        reference.weight +
            (if !reference.isResolved && (destination? tree owner reference).isSome then 1 else 0) =
          (settle tree owner reference).weight := by
      cases reference with
      | resolved target => rfl
      | unresolved target origin =>
        unfold settle
        cases destination? tree owner (.unresolved target origin) <;> rfl
    unfold settledCount at ih ⊢
    simp only [List.map_cons, List.sum_cons, List.countP_cons]
    omega

theorem gains_propagateInto (owner : ScopeId) :
    Gains tree (propagateInto tree owner).1 (propagateInto tree owner).2 := by
  cases held : tree.entity? owner with
  | none => rw [propagateInto_vacant tree held]; exact .refl tree
  | some entity =>
    rw [propagateInto_held tree held]
    dsimp only
    generalize incoming tree owner entity.references.values = types
    generalize settles : ({ entity with references := entity.references.mapValues (settle tree owner) } :
      Entity) = settled
    have changed := weight_setEntity held (settled.gather types)
    have gathered := settled.weight_gather types
    have same : settled.newTypes types = entity.newTypes types := by subst settles; rfl
    have more := weight_settle tree owner entity.references.values
    have settled : settled.weight = entity.weight + settledCount tree owner entity.references.values := by
      subst settles
      simp only [Entity.weight, Entity.gathered, Entity.gathered?, referencesWeight,
        OrderedMap.values, OrderedMap.mapValues,
        List.map_map, Function.comp_def] at more ⊢
      omega
    unfold Gains
    omega

private theorem gains_propagate : Gains tree (propagate tree).1 (propagate tree).2 := by
  rw [propagate_eq]
  exact runEach_adds ScopeTree.weight (fun owner _ tree => gains_propagateInto tree owner) tree

/-! ### Sweeps -/

section Sweep

variable (config : DiscoveryConfig) (state : State)

private theorem gains_assignName (frame : Frame) (name : String) (evidence : Evidence) (range : Range) :
    Gains state.tree (assignName state frame name evidence range).1.tree
      (assignName state frame name evidence range).2 := by
  unfold assignName
  split
  next => exact (gains_defineLocal state.tree frame.scope name range).trans (gains_applyEvidence _ _ evidence)
  next id _ =>
    split
    next => exact gains_applyEvidence state.tree id evidence
    next => rw [State.tree_warn]; exact .refl _

private theorem gains_assign (frame : Frame) (target : Expr) (evidence : Evidence) (range : Range) :
    Gains state.tree (assign state frame target evidence range).1.tree
      (assign state frame target evidence range).2 := by
  unfold assign
  split
  next name _ => exact gains_assignName state frame name evidence range
  next object name _ =>
    split
    next base _ =>
      dsimp only
      split
      next => exact gains_assignField state.tree frame name evidence range
      next => exact gains_assignMember state.tree frame base name evidence range
    next => dsimp only; rw [State.tree_warn]; exact .refl _
  next => rw [State.tree_warn]; exact .refl _

private theorem gains_site (frame : Frame) (site : Site) :
    Gains state.tree (site.run config frame state).1.tree (site.run config frame state).2 := by
  unfold Site.run
  split
  next scope _ =>
    cases site.action with
    | block kind index => exact gains_enterBlock state.tree scope kind index
    | local_ name value =>
      exact (gains_defineLocal state.tree scope name site.range).trans (gains_applyEvidence _ _ _)
    | target expr value => exact gains_assign state _ expr _ site.range
    | return_ values =>
      simp only [Action.run]
      split
      next => exact .refl _
      next => exact gains_applyEvidence state.tree _ _
  next => exact .refl _

private theorem gains_runTours (tours : List Tour) :
    Gains state.tree (runTours config tours state).1.tree (runTours config tours state).2 :=
  runEach_adds (fun state => state.tree.weight) (fun tour _ state =>
    runEach_adds (fun state => state.tree.weight)
      (fun site _ state => gains_site config state tour.frame site) state) state

/-- What a sweep counts it adds to the weight of the tree. -/
theorem gains_sweep (formed : state.Formed) :
    Gains state.tree (sweep config state).1.tree (sweep config state).2 := by
  rw [sweep_eq config formed]
  exact (gains_runTours config state (tours config state)).trans (gains_propagate _)

end Sweep

end LuaClasses.Discovery
