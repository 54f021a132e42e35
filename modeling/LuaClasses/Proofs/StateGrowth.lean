import LuaClasses.Proofs.WalkGrowth

/-! What discovery knows between two writes. A write of a sweep keeps the bodies that are walked, only adds to
the tree and only appends problems. While classes and members are entered, what occupies a scope may be
replaced or dropped; the scopes themselves stay at their paths. -/

namespace LuaClasses.Discovery
open ScopeTree

/-- The scopes to which the bodies of a class belong. -/
def ClassBodies.scopes (bodies : ClassBodies) : List ScopeId :=
  bodies.owner :: (bodies.functions.values.map Prod.fst ++ bodies.methods.values.map Prod.fst)

namespace State

structure Grows (before after : State) : Prop where
  tree : before.tree.Grows after.tree
  classes : after.classes = before.classes
  diagnostics : before.diagnostics <+: after.diagnostics

structure Formed (state : State) : Prop where
  tree : state.tree.Formed
  diagnostics : state.diagnostics.Nodup
  bodies : ∀ bodies ∈ state.classes, ∀ id ∈ bodies.scopes, id.index < state.tree.size

/-- A change that keeps a state well put together and only adds to it. -/
def Advances (before after : State) : Prop := before.Formed → after.Formed ∧ before.Grows after

variable {first second third : State}

theorem Grows.refl (state : State) : Grows state state := ⟨.refl _, rfl, List.prefix_rfl⟩

theorem Grows.trans (one : Grows first second) (two : Grows second third) : Grows first third :=
  ⟨one.tree.trans two.tree, two.classes.trans one.classes, one.diagnostics.trans two.diagnostics⟩

theorem Advances.refl (state : State) : Advances state state := fun formed => ⟨formed, .refl state⟩

theorem Advances.trans (one : Advances first second) (two : Advances second third) :
    Advances first third := by
  intro formed
  obtain ⟨middle, grows⟩ := one formed
  obtain ⟨last, further⟩ := two middle
  exact ⟨last, grows.trans further⟩

theorem advances_withTree (state : State) {tree : ScopeTree} (advances : state.tree.Advances tree) :
    state.Advances (state.withTree tree) := by
  intro formed
  obtain ⟨after, grows⟩ := advances formed.tree
  refine ⟨⟨after, formed.diagnostics, fun bodies member id scope => ?_⟩, ⟨grows, rfl, List.prefix_rfl⟩⟩
  exact grows.index_lt (formed.bodies bodies member id scope)

theorem tree_warn (state : State) (kind : DiagnosticKind) (message : String) (range : Option Range) :
    (state.warn kind message range).tree = state.tree := by
  unfold warn
  dsimp only
  split <;> rfl

theorem classes_warn (state : State) (kind : DiagnosticKind) (message : String) (range : Option Range) :
    (state.warn kind message range).classes = state.classes := by
  unfold warn
  dsimp only
  split <;> rfl

theorem diagnostics_warn (state : State) (kind : DiagnosticKind) (message : String) (range : Option Range) :
    (state.warn kind message range).diagnostics =
      if ⟨kind, message, range⟩ ∈ state.diagnostics then state.diagnostics
      else state.diagnostics ++ [⟨kind, message, range⟩] := by
  unfold warn
  dsimp only
  split <;> rfl

/-- The same problem is never recorded twice. -/
theorem nodup_warn {state : State} (distinct : state.diagnostics.Nodup) (kind : DiagnosticKind)
    (message : String) (range : Option Range) : (state.warn kind message range).diagnostics.Nodup := by
  rw [diagnostics_warn]
  split
  next => exact distinct
  next fresh =>
    refine List.nodup_append.2 ⟨distinct, by simp, fun known member other single same => fresh ?_⟩
    rw [← List.mem_singleton.1 single, ← same]
    exact member

theorem advances_warn (state : State) (kind : DiagnosticKind) (message : String) (range : Option Range) :
    state.Advances (state.warn kind message range) := by
  refine fun formed => ⟨⟨?_, nodup_warn formed.diagnostics kind message range, ?_⟩, ⟨?_, classes_warn .., ?_⟩⟩
  · rw [tree_warn]; exact formed.tree
  · rw [tree_warn, classes_warn]; exact formed.bodies
  · rw [tree_warn]; exact .refl _
  · rw [diagnostics_warn]
    split
    next => exact List.prefix_rfl
    next => exact List.prefix_append _ _

end State

private theorem advances_assignName {state : State} {frame : Frame}
    (inside : frame.scope.index < state.tree.size) (name : String) (evidence : Evidence) (range : Range) :
    state.Advances (assignName state frame name evidence range).1 := by
  unfold assignName
  split
  next =>
    exact state.advances_withTree ((advances_defineLocal state.tree inside name range).trans
      (advances_applyEvidence _ _ evidence))
  next id _ =>
    split
    next => exact state.advances_withTree (advances_applyEvidence state.tree id evidence)
    next => exact state.advances_warn _ _ _

theorem advances_assign {state : State} {frame : Frame} (inside : frame.scope.index < state.tree.size)
    (target : Expr) (evidence : Evidence) (range : Range) :
    state.Advances (assign state frame target evidence range).1 := by
  unfold assign
  split
  next name _ => exact advances_assignName inside name evidence range
  next object name _ =>
    split
    next base _ =>
      refine state.advances_withTree ?_
      split
      next => exact advances_assignField state.tree frame name evidence range
      next => exact advances_assignMember state.tree frame inside base name evidence range
    next => exact state.advances_warn _ _ _
  next => exact state.advances_warn _ _ _

end LuaClasses.Discovery

/-! ### Trees that are revised -/

namespace LuaClasses

namespace ScopeTree

/-- Every path leads where it led before. -/
def Keeps (before after : ScopeTree) : Prop :=
  ∀ path id, before.find? path = some id → after.find? path = some id

/-- A change that keeps a tree well put together and keeps its scopes. -/
def Revises (before after : ScopeTree) : Prop := before.Formed → after.Formed ∧ before.Keeps after

theorem Revises.refl (tree : ScopeTree) : Revises tree tree := fun formed => ⟨formed, fun _ _ found => found⟩

theorem Revises.trans {first second third : ScopeTree} (one : Revises first second)
    (two : Revises second third) :
    Revises first third := by
  intro formed
  obtain ⟨middle, kept⟩ := one formed
  obtain ⟨last, further⟩ := two middle
  exact ⟨last, fun path id found => further path id (kept path id found)⟩

theorem Advances.revises {before after : ScopeTree} (advances : before.Advances after) :
    before.Revises after := by
  intro formed
  obtain ⟨last, grows⟩ := advances formed
  exact ⟨last, fun _ _ found => grows.find? found⟩

theorem SameShape.keeps {first second : ScopeTree} (same : SameShape second first) : first.Keeps second :=
  fun path _ found => (same.find? path).trans found

namespace Keeps

variable {before after : ScopeTree}

theorem raw (kept : before.Keeps after) (formed : before.Formed) {id : ScopeId}
    (inside : id.index < before.size) :
    after.raw id = before.raw id :=
  raw_of_find? (kept _ _ (formed.find?_raw inside))

theorem index_lt (kept : before.Keeps after) (formed : before.Formed) {id : ScopeId}
    (inside : id.index < before.size) : id.index < after.size :=
  index_lt_of_find? (kept _ _ (formed.find?_raw inside))

end Keeps

variable (tree : ScopeTree)

theorem revises_internChild {parent : ScopeId} (inside : parent.index < tree.size) (name : String)
    (valueType : ValueType) : tree.Revises (tree.internChild parent name valueType).1 :=
  (tree.advances_internChild inside name valueType).revises

theorem revises_setEntity (id : ScopeId) (entity : Entity) (fits : tree.Fits (tree.raw id) entity.kind) :
    tree.Revises (tree.setEntity id entity) :=
  fun formed => ⟨formed.setEntity fits, (sameShape_setEntity tree id entity).keeps⟩

private theorem revises_modifyEntity {id : ScopeId} {f : Entity → Entity}
    (fits : ∀ entity, tree.Fits (tree.raw id) entity.kind → tree.Fits (tree.raw id) (f entity).kind) :
    tree.Revises (tree.modifyEntity id f) :=
  fun formed => ⟨formed.modifyEntity fun entity held => fits entity (formed.entity held),
    (sameShape_modifyEntity tree id f).keeps⟩

theorem revises_withGlobals (globals : Globals) : tree.Revises { tree with globals } :=
  fun formed => ⟨formed.withGlobals globals, fun _ _ found => found⟩

/-- A class may be changed as long as the scopes that it stores are at the right paths. -/
theorem fits_mapClass {path : String} {f : Class → Class}
    (fits : ∀ owner, tree.Fits path (.class_ owner) → tree.Fits path (.class_ (f owner))) (entity : Entity)
    (before : tree.Fits path entity.kind) : tree.Fits path (entity.mapClass f).kind := by
  obtain ⟨references, kind⟩ := entity
  cases kind with
  | class_ held => exact fits held before
  | _ => exact before

theorem revises_modifyClass (id : ScopeId) (f : Class → Class)
    (fits : ∀ owner, tree.Fits (tree.raw id) (.class_ owner) → tree.Fits (tree.raw id) (.class_ (f owner))) :
    tree.Revises (tree.modifyClass id f) :=
  tree.revises_modifyEntity (tree.fits_mapClass fits)

/-! ### Dropping what stands below a scope -/

private theorem sameShape_foldl_clear (ids : List ScopeId) : SameShape (ids.foldl clearEntity tree) tree := by
  induction ids generalizing tree with
  | nil => exact .refl tree
  | cons id rest ih => exact (ih (tree.clearEntity id)).trans (sameShape_clearEntity tree id)

private theorem entity?_foldl_clear (ids : List ScopeId) (other : ScopeId) :
    (ids.foldl clearEntity tree).entity? other = if other ∈ ids then none else tree.entity? other := by
  induction ids generalizing tree with
  | nil => simp
  | cons id rest ih =>
    rw [List.foldl_cons, ih, entity?_clearEntity]
    by_cases same : other = id
    · simp [same]
    · simp [same]

theorem sameShape_clearDescendants (id : ScopeId) : SameShape (tree.clearDescendants id) tree :=
  sameShape_foldl_clear tree (tree.descendants id)

theorem entity?_clearDescendants (id other : ScopeId) :
    (tree.clearDescendants id).entity? other =
      if other ∈ tree.descendants id then none else tree.entity? other :=
  entity?_foldl_clear tree (tree.descendants id) other

/-- An entity that is still there was there before. -/
theorem entity?_of_clearDescendants {id other : ScopeId} {entity : Entity}
    (held : (tree.clearDescendants id).entity? other = some entity) : tree.entity? other = some entity := by
  rw [entity?_clearDescendants] at held
  split at held
  next => cases held
  next => exact held

theorem revises_clearDescendants (id : ScopeId) : tree.Revises (tree.clearDescendants id) := by
  intro formed
  have same := tree.sameShape_clearDescendants id
  exact ⟨formed.of_sameShape same fun other entity held =>
    formed.entity (tree.entity?_of_clearDescendants held),
    same.keeps⟩

end ScopeTree

namespace Discovery.State
open ScopeTree

/-- A change that keeps a state well put together and keeps the scopes of its tree. -/
def Revises (before after : State) : Prop := before.Formed → after.Formed ∧ before.tree.Keeps after.tree

variable {first second third : State}

theorem Revises.refl (state : State) : Revises state state := fun formed => ⟨formed, fun _ _ found => found⟩

theorem Revises.trans (one : Revises first second) (two : Revises second third) : Revises first third := by
  intro formed
  obtain ⟨middle, kept⟩ := one formed
  obtain ⟨last, further⟩ := two middle
  exact ⟨last, fun path id found => further path id (kept path id found)⟩

theorem Advances.revises {before after : State} (advances : before.Advances after) :
    before.Revises after := by
  intro formed
  obtain ⟨last, grows⟩ := advances formed
  exact ⟨last, fun _ _ found => grows.tree.find? found⟩

theorem revises_withTree (state : State) {tree : ScopeTree} (revises : state.tree.Revises tree) :
    state.Revises (state.withTree tree) := by
  intro formed
  obtain ⟨after, kept⟩ := revises formed.tree
  refine ⟨⟨after, formed.diagnostics, fun bodies member id scope => ?_⟩, kept⟩
  exact kept.index_lt formed.tree (formed.bodies bodies member id scope)

theorem revises_warn (state : State) (kind : DiagnosticKind) (message : String) (range : Option Range) :
    state.Revises (state.warn kind message range) :=
  (state.advances_warn kind message range).revises

/-- The bodies of a class may be replaced by others whose scopes exist. -/
theorem revises_modifyBodies (state : State) (owner : ScopeId) {f : ClassBodies → ClassBodies}
    (inside : ∀ bodies : ClassBodies, bodies.owner = owner →
      (∀ id ∈ bodies.scopes, id.index < state.tree.size) →
      ∀ id ∈ (f bodies).scopes, id.index < state.tree.size) : state.Revises (state.modifyBodies owner f) := by
  refine fun formed => ⟨⟨formed.tree, formed.diagnostics, fun bodies member id scope => ?_⟩,
    fun _ _ found => found⟩
  obtain ⟨before, held, rfl⟩ := List.mem_map.1 member
  split at scope
  next same => exact inside before same (formed.bodies before held) id scope
  next => exact formed.bodies before held id scope

theorem revises_resetBodies (state : State) {owner : ScopeId} (inside : owner.index < state.tree.size) :
    state.Revises (state.resetBodies owner) := by
  have fresh : ∀ id ∈ (ClassBodies.new owner).scopes, id.index < state.tree.size := by
    intro id scope
    rcases List.mem_cons.1 scope with rfl | nothing
    · exact inside
    · cases nothing
  unfold resetBodies
  split
  next => exact state.revises_modifyBodies owner fun _ _ _ => fresh
  next =>
    refine fun formed => ⟨⟨formed.tree, formed.diagnostics, fun bodies member => ?_⟩, fun _ _ found => found⟩
    rcases List.mem_append.1 member with old | new
    · exact formed.bodies bodies old
    · rw [List.mem_singleton.1 new]
      exact fresh

end Discovery.State
end LuaClasses
