import LuaClasses.Proofs.Intake

/-! What functions take in. Of all steps of a body only its return statements give a function anything,
and they give it to the function whose body it is. No step enters a function among the names of a
scope. -/

namespace LuaClasses
namespace ScopeTree

/-- The names that live directly in a scope. -/
def localsOf (tree : ScopeTree) (id : ScopeId) : Members := ((tree.entity? id).map Entity.locals).getD .empty

theorem localsOf_of_held {tree : ScopeTree} {id : ScopeId} {entity : Entity}
    (held : tree.entity? id = some entity) :
    tree.localsOf id = entity.locals := by
  rw [localsOf, held]
  rfl

private theorem localsOf_of_vacant {tree : ScopeTree} {id : ScopeId} (vacant : tree.hasEntity id = false) :
    tree.localsOf id = .empty := by
  have absent : tree.entity? id = none := Option.isNone_iff_eq_none.1 (by simpa [hasEntity] using vacant)
  rw [localsOf, absent]
  rfl

private theorem hasEntity_of_functionAt? {tree : ScopeTree} {id : ScopeId}
    (function : (tree.functionAt? id).isSome = true) :
    tree.hasEntity id = true := by
  obtain ⟨held, found⟩ := Option.isSome_iff_exists.1 function
  obtain ⟨entity, present, _⟩ := Option.bind_eq_some_iff.1 found
  exact Option.isSome_of_eq_some present

/-- A change that makes no scope for a class and passes a function by: the function has taken in what it
had before, and it is among the names of no scope that did not have it. -/
structure Skirts (id : ScopeId) (before after : ScopeTree) : Prop where
  classes : ∀ {other}, after.ClassNode other → before.ClassNode other
  function : (before.functionAt? id).isSome = true →
    (after.functionAt? id).isSome = true ∧ after.intake? id = before.intake? id ∧
      ∀ scope name, (after.localsOf scope).get? name = some id → (before.localsOf scope).get? name = some id

variable {id : ScopeId} {before after : ScopeTree}

theorem Skirts.refl (id : ScopeId) (tree : ScopeTree) : Skirts id tree tree :=
  ⟨fun node => node, fun function => ⟨function, rfl, fun _ _ listed => listed⟩⟩

theorem Skirts.trans {first second third : ScopeTree} (one : Skirts id first second)
    (two : Skirts id second third) :
    Skirts id first third where
  classes := fun node => one.classes (two.classes node)
  function := by
    intro function
    obtain ⟨held, taken, names⟩ := one.function function
    obtain ⟨last, same, listed⟩ := two.function held
    exact ⟨last, same.trans taken, fun scope name entry => names scope name (listed scope name entry)⟩

variable (tree : ScopeTree)

private theorem skirts_internChild (parent : ScopeId) (name : String) {valueType : ValueType}
    (other : valueType ≠ .class_) :
    Skirts id tree (tree.internChild parent name valueType).1 where
  classes := by
    intro scope node
    cases found : tree.find? (DottedName.child (tree.raw parent) name) with
    | some known => rw [internChild_found valueType found] at node; exact node
    | none =>
      obtain ⟨held, present, isClass⟩ := node
      by_cases last : scope = ⟨tree.size⟩
      · rw [last, node?_internChild valueType found, if_pos rfl] at present
        cases present
        exact absurd isClass other
      · rw [node?_internChild valueType found, if_neg fun same => last (ScopeId.eq_of_index same)] at present
        split at present
        next =>
          obtain ⟨old, there, rfl⟩ := Option.map_eq_some_iff.1 present
          exact ⟨old, there, isClass⟩
        next => exact ⟨held, present, isClass⟩
  function := by
    intro function
    have same := entity?_internChild valueType tree parent name
    refine ⟨?_, intake?_of_entity? (same id), fun scope name entry => ?_⟩
    · rw [functionAt?, same]
      exact function
    · rw [localsOf, same] at entry
      exact entry

private theorem skirts_internField (owner : ScopeId) (name : String) :
    Skirts id tree (tree.internField owner name).1 := by
  have outer : Skirts id tree _ := @skirts_internChild id tree owner fieldsName .table (by simp)
  unfold internField
  generalize tree.internChild owner fieldsName .table = fields at outer ⊢
  exact outer.trans (skirts_internChild _ fields.2 name (by simp))

private theorem localsOf_setEntity {target : ScopeId} {entity : Entity}
    (same : entity.locals = tree.localsOf target) (scope : ScopeId) :
    (tree.setEntity target entity).localsOf scope = tree.localsOf scope := by
  rw [localsOf, entity?_setEntity]
  split
  next equal =>
    subst equal
    cases present : tree.node? scope with
    | none => simp [localsOf, entity?, present]
    | some node => exact same
  next => rfl

/-- Another scope may be given any entity with the names that it had. -/
theorem skirts_setEntity {target : ScopeId} {entity : Entity}
    (apart : (tree.functionAt? id).isSome = true → id ≠ target)
    (same : entity.locals = tree.localsOf target) : Skirts id tree (tree.setEntity target entity) where
  classes := (·.of_sameShape (sameShape_setEntity tree target entity).symm)
  function := by
    intro function
    have kept : (tree.setEntity target entity).entity? id = tree.entity? id := by
      rw [entity?_setEntity, if_neg (apart function)]
    refine ⟨?_, intake?_of_entity? kept, fun scope name entry => ?_⟩
    · rw [functionAt?, kept]
      exact function
    · rw [tree.localsOf_setEntity same] at entry
      exact entry

private theorem skirts_place {target : ScopeId} {entity : Entity}
    (vacant : tree.hasEntity target = false) (bare : entity.locals = .empty) :
    Skirts id tree (tree.setEntity target entity) := by
  refine tree.skirts_setEntity (fun function same => ?_) (bare.trans (localsOf_of_vacant vacant).symm)
  rw [← same, hasEntity_of_functionAt? function] at vacant
  cases vacant

private theorem skirts_occupy (target : ScopeId) (name : String) (range : Range) :
    Skirts id tree (tree.occupy target name range) := by
  unfold occupy
  split
  next => exact .refl id tree
  next vacant => exact tree.skirts_place (Bool.eq_false_iff.2 vacant) rfl

private theorem functionAt?_modifyEntity (target : ScopeId) {f : Entity → Entity}
    (same : ∀ entity, (f entity).asFunction?.isSome = entity.asFunction?.isSome) (id : ScopeId) :
    ((tree.modifyEntity target f).functionAt? id).isSome = (tree.functionAt? id).isSome := by
  rw [functionAt?, entity?_modifyEntity, functionAt?]
  split
  next equal =>
    subst equal
    cases tree.entity? id with
    | none => rfl
    | some entity => exact same entity
  next => rfl

/-- A name may be entered that leads to another scope. -/
theorem skirts_mapLocals (scope : ScopeId) {added : ScopeId} {name : String} {f : Members → Members}
    (enters : ∀ names entry, entry ∈ (f names).entries → entry = (name, added) ∨ entry ∈ names.entries)
    (apart : (tree.functionAt? id).isSome = true → id ≠ added) :
    Skirts id tree (tree.modifyEntity scope (Entity.mapLocals f)) := by
  refine ⟨(·.of_sameShape (sameShape_modifyEntity tree scope _).symm), fun function => ?_⟩
  have kept := tree.functionAt?_modifyEntity scope (f := Entity.mapLocals f)
    (fun entity => by obtain ⟨references, kind⟩ := entity; cases kind <;> rfl) id
  refine ⟨kept.trans function, tree.intake?_mapLocals scope f id, fun other called entry => ?_⟩
  rw [localsOf, entity?_modifyEntity] at entry
  split at entry
  next same =>
    subst same
    cases held : tree.entity? other with
    | none => rw [held] at entry; cases entry
    | some entity =>
      rw [held] at entry
      have listed := OrderedMap.mem_entries_of_get? entry
      have known : (called, id) = (name, added) ∨ (called, id) ∈ entity.locals.entries := by
        obtain ⟨references, kind⟩ := entity
        cases kind with
        | «variable» var => cases listed
        | _ => exact enters _ _ listed
      rw [localsOf_of_held held]
      rcases known with new | old
      · cases new
        exact absurd rfl (apart function)
      · exact (OrderedMap.get?_eq_some_iff _ _ _).2 old
  next => exact entry

private theorem skirts_listField (owner : ScopeId) (f : Members → Members) :
    Skirts id tree (tree.modifyClass owner fun held => { held with fields := f held.fields }) := by
  refine ⟨(·.of_sameShape (sameShape_modifyEntity tree owner _).symm), fun function => ?_⟩
  have kept := tree.functionAt?_modifyEntity owner
    (f := Entity.mapClass fun held => { held with fields := f held.fields })
    (fun entity => by obtain ⟨references, kind⟩ := entity; cases kind <;> rfl) id
  refine ⟨kept.trans function, tree.intake?_modifyClass owner _ id, fun scope name entry => ?_⟩
  rw [localsOf, modifyClass, entity?_modifyEntity] at entry
  split at entry
  next same =>
    subst same
    rw [localsOf]
    cases held : tree.entity? scope with
    | none => rw [held] at entry; exact entry
    | some entity =>
      rw [held] at entry
      obtain ⟨references, kind⟩ := entity
      cases kind <;> exact entry
  next => exact entry

/-- A variable is placed on a scope that nothing occupies, and entered among the names around it. -/
theorem skirts_addLocal (scope : ScopeId) {added : ScopeId} (vacant : tree.hasEntity added = false)
    (name : String) (range : Range) {f : Members → Members}
    (enters : ∀ names entry, entry ∈ (f names).entries → entry = (name, added) ∨ entry ∈ names.entries) :
    Skirts id tree ((tree.setEntity added (.new (.variable (.new name (some range))))).modifyEntity scope
      (Entity.mapLocals f)) := by
  have same := (sameShape_modifyEntity _ scope (Entity.mapLocals f)).trans
    (sameShape_setEntity tree added (.new (.variable (.new name (some range)))))
  refine ⟨(·.of_sameShape same.symm), fun function => ?_⟩
  have apart : id ≠ added := by
    rintro rfl
    rw [hasEntity_of_functionAt? function] at vacant
    cases vacant
  exact ((tree.skirts_place vacant rfl).trans (skirts_mapLocals _ scope enters fun _ => apart)).function
    function

end ScopeTree

namespace Discovery
open ScopeTree

variable {id : ScopeId} (tree : ScopeTree)

/-! ### The writes of a walk -/

private theorem Evidence.locals_absorb (evidence : Evidence) (target : ScopeId) (entity : Entity) :
    (evidence.absorb tree target entity).1.locals = entity.locals := by
  rw [Entity.locals, Entity.locals?, evidence.kind_absorb tree target entity]
  exact locals_gather entity _

theorem localsOf_applyEvidence (target : ScopeId) (evidence : Evidence) (scope : ScopeId) :
    (applyEvidence tree target evidence).1.localsOf scope = tree.localsOf scope := by
  cases held : tree.entity? target with
  | none => rw [applyEvidence_vacant tree held]
  | some entity =>
    rw [applyEvidence_held tree held]
    apply tree.localsOf_setEntity
    rw [localsOf_of_held held]
    exact evidence.locals_absorb tree target entity

theorem localsOf_propagateInto (owner scope : ScopeId) :
    (propagateInto tree owner).1.localsOf scope = tree.localsOf scope := by
  cases held : tree.entity? owner with
  | none => rw [propagateInto_vacant tree held]
  | some entity =>
    rw [propagateInto_held tree held]
    apply tree.localsOf_setEntity
    rw [localsOf_of_held held]
    exact locals_gather { entity with references := entity.references.mapValues (settle tree owner) } _

private theorem skirts_applyEvidence {target : ScopeId}
    (apart : (tree.functionAt? id).isSome = true → id ≠ target) (evidence : Evidence) :
    Skirts id tree (applyEvidence tree target evidence).1 := by
  cases held : tree.entity? target with
  | none => rw [applyEvidence_vacant tree held]; exact .refl id tree
  | some entity =>
    rw [applyEvidence_held tree held]
    refine tree.skirts_setEntity apart ?_
    rw [localsOf_of_held held]
    exact evidence.locals_absorb tree target entity

theorem sameShape_applyEvidence (target : ScopeId) (evidence : Evidence) :
    SameShape (applyEvidence tree target evidence).1 tree := by
  cases held : tree.entity? target with
  | none => rw [applyEvidence_vacant tree held]; exact .refl tree
  | some entity => rw [applyEvidence_held tree held]; exact sameShape_setEntity tree target _

/-- After a change evidence may be applied to what is not the function that was there before. -/
theorem skirts_then_applyEvidence {before after : ScopeTree} {target : ScopeId}
    (skirts : Skirts id before after) (apart : (before.functionAt? id).isSome = true → id ≠ target)
    (evidence : Evidence) :
    Skirts id before (applyEvidence after target evidence).1 where
  classes := fun node => skirts.classes (node.of_sameShape
    (sameShape_applyEvidence after target evidence).symm)
  function := fun function => (skirts.trans
    (skirts_applyEvidence after (fun _ => apart function) evidence)).function function

/-- A scope that holds a variable holds no function. -/
theorem skirts_applyEvidence_variable {target : ScopeId} (var : (tree.variableAt? target).isSome = true)
    (evidence : Evidence) :
    Skirts id tree (applyEvidence tree target evidence).1 := by
  refine skirts_applyEvidence tree (fun function same => ?_) evidence
  subst same
  obtain ⟨held, known⟩ := Option.isSome_iff_exists.1 var
  obtain ⟨references, found⟩ := variableAt?_eq_some known
  rw [functionAt?, found] at function
  cases function

private theorem skirts_enterBlock (parent : ScopeId) (kind : BlockKind) (index : Nat) :
    Skirts id tree (enterBlock tree parent kind index).1 := by
  have made : Skirts id tree _ := @skirts_internChild id tree parent (blockName kind index) .block (by simp)
  rw [enterBlock_eq]
  dsimp only
  split
  next => exact made
  next vacant => exact made.trans (skirts_place _ (Bool.eq_false_iff.2 vacant) rfl)

private theorem skirts_defineLocal (scope : ScopeId) (name : String) (range : Range) :
    Skirts id tree (defineLocal tree scope name range).1 := by
  have made : Skirts id tree _ := @skirts_internChild id tree scope name .value (by simp)
  rw [defineLocal_eq]
  dsimp only
  split
  next => exact made
  next vacant =>
    exact made.trans (skirts_addLocal _ scope (Bool.eq_false_iff.2 vacant) name range
      fun _ _ => OrderedMap.mem_insert)

private theorem skirts_memberScope (parent : ScopeId) (name : String) (range : Range) :
    Skirts id tree (memberScope tree parent name range).1 := by
  unfold memberScope
  dsimp only
  have other : (if (tree.classAt? parent).isSome then ValueType.value else ValueType.field) ≠
    .class_ := by split <;> simp
  generalize (if (tree.classAt? parent).isSome then ValueType.value else ValueType.field) =
    valueType at other ⊢
  have made : Skirts id tree _ := tree.skirts_internChild parent name other
  split
  next => exact made
  next vacant =>
    exact made.trans (skirts_addLocal _ parent (Bool.eq_false_iff.2 vacant) name range fun _ _ =>
      OrderedMap.mem_insertNew)

private theorem skirts_baseScope (scope : ScopeId) (base : String) :
    Skirts id tree (baseScope tree scope base).1 := by
  rw [baseScope_eq]
  split
  next => exact .refl id tree
  next => exact tree.skirts_internChild scope base (by simp)

private theorem skirts_assignMember (frame : Frame) (base name : String) (evidence : Evidence)
    (range : Range) :
    Skirts id tree (assignMember tree frame base name evidence range).1 := by
  have outer : Skirts id tree _ := skirts_baseScope tree frame.scope base
  have member := outer.trans
    (skirts_memberScope (baseScope tree frame.scope base).1 (baseScope tree frame.scope base).2.1 name range)
  rw [assignMember_eq]
  dsimp only
  split
  next var => exact member.trans (skirts_applyEvidence_variable _ var evidence)
  next => exact member

/-- A scope that is made under a path is no other scope that was there before with another path. -/
theorem ne_of_raw {tree made : ScopeTree} (grows : tree.Grows made) {path : String} {target : ScopeId}
    (found : made.find? path = some target) (inside : id.index < tree.size) (apart : tree.raw id ≠ path) :
    id ≠ target := by
  rintro rfl
  exact apart ((grows.raw inside).symm.trans (raw_of_find? found))

variable {tree}

theorem index_lt_of_functionAt? (function : (tree.functionAt? id).isSome = true) : id.index < tree.size :=
  index_lt_of_hasEntity (hasEntity_of_functionAt? function)

private theorem find?_defineLocal (scope : ScopeId) (name : String) (range : Range) :
    (defineLocal tree scope name range).1.find? (DottedName.child (tree.raw scope) name) =
      some (defineLocal tree scope name range).2.1 := by
  have found := find?_internChild .value tree scope name
  rw [defineLocal_eq]
  dsimp only
  split
  next => exact found
  next =>
    exact ((sameShape_modifyEntity _ scope _).find? _).trans
      (((sameShape_setEntity _ _ _).find? _).trans found)

/-- An assignment to a field passes by every function but one at the path of the field. -/
theorem skirts_assignField {frame : Frame} {name : String}
    (apart : ∀ owner, tree.nearestClass frame.scope = some owner →
      tree.raw id ≠ DottedName.child (DottedName.child (tree.raw owner) fieldsName) name)
    (evidence : Evidence) (range : Range) :
    Skirts id tree (assignField tree frame name evidence range).1 := by
  cases nearest : tree.nearestClass frame.scope with
  | none => rw [assignField_outside tree nearest]; exact .refl id tree
  | some owner =>
    have other : (tree.functionAt? id).isSome = true → id ≠ (tree.internField owner name).2 := fun function =>
      ne_of_raw (grows_internField tree owner name) (find?_internField tree owner name)
        (index_lt_of_functionAt? function) (apart owner nearest)
    have made : Skirts id tree _ := tree.skirts_internField owner name
    rw [assignField_eq tree nearest]
    generalize tree.internField owner name = field at made other ⊢
    have occupied := made.trans (field.1.skirts_occupy field.2 name range)
    have listed := occupied.trans (skirts_listField _ owner fun fields => fields.insertNew name field.2)
    exact skirts_then_applyEvidence listed other evidence

/-- The declaration of a local passes by every function but one at the path of the local. -/
theorem skirts_local (formed : tree.Formed) {scope : ScopeId} (inside : scope.index < tree.size)
    {name : String} (apart : tree.raw id ≠ DottedName.child (tree.raw scope) name) (evidence : Evidence)
    (range : Range) :
    Skirts id tree (applyEvidence (defineLocal tree scope name range).1
      (defineLocal tree scope name range).2.1 evidence).1 := by
  refine skirts_then_applyEvidence (skirts_defineLocal tree scope name range) (fun function => ?_) evidence
  exact ne_of_raw (advances_defineLocal tree inside name range formed).2 (find?_defineLocal scope name range)
    (index_lt_of_functionAt? function) apart

/-! ### The steps of a body -/

/-- Whether the path of a scope is none that a step in another scope may make for a local or a field. -/
structure Elsewhere (tree : ScopeTree) (id scope : ScopeId) (names : List String) : Prop where
  locals : ∀ name ∈ names, tree.raw id ≠ DottedName.child (tree.raw scope) name
  fields : ∀ owner, tree.nearestClass scope = some owner →
    ∀ name ∈ names, tree.raw id ≠ DottedName.child (DottedName.child (tree.raw owner) fieldsName) name

section Steps

variable {state : State} (formed : state.tree.Formed) {frame : Frame}
  (inside : frame.scope.index < state.tree.size)
include formed inside

private theorem skirts_assign {target : Expr}
    (elsewhere : Elsewhere state.tree id frame.scope target.names) (evidence : Evidence) (range : Range) :
    Skirts id state.tree (assign state frame target evidence range).1.tree := by
  obtain ⟨locals, fields⟩ := elsewhere
  simp only [← Expr.names_unparen target] at locals fields
  unfold assign
  generalize target.unparen = form at locals fields ⊢
  cases form with
  | name name =>
    have named : name ∈ Expr.names (.name name) := List.mem_singleton_self name
    dsimp only
    unfold assignName
    split
    next => exact skirts_local formed inside (locals name named) evidence range
    next =>
      split
      next var => exact skirts_applyEvidence_variable _ var evidence
      next => rw [State.tree_warn]; exact .refl id state.tree
  | member object name =>
    have named : name ∈ Expr.names (.member object name) :=
      List.mem_append_right _ (List.mem_singleton_self name)
    dsimp only
    split
    next base _ =>
      split
      next => exact skirts_assignField (fun owner nearest => fields owner nearest name named) evidence range
      next => exact skirts_assignMember state.tree frame base name evidence range
    next => rw [State.tree_warn]; exact .refl id state.tree
  | _ => dsimp only; rw [State.tree_warn]; exact .refl id state.tree

/-- Every step passes a function by, unless it returns something from it. -/
theorem skirts_action (config : DiscoveryConfig) {action : Action}
    (elsewhere : Elsewhere state.tree id frame.scope action.names)
    (other : ∀ values, action = .return_ values → frame.function ≠ some id) (range : Range) :
    Skirts id state.tree (action.run config frame range state).1.tree := by
  cases action with
  | block kind index => exact skirts_enterBlock state.tree frame.scope kind index
  | local_ name value =>
    exact skirts_local formed inside (elsewhere.locals name (List.mem_singleton_self name)) _ range
  | target expr value => exact skirts_assign formed inside elsewhere _ range
  | return_ values =>
    rw [Action.run]
    split
    next => exact .refl id state.tree
    next function known =>
      exact skirts_applyEvidence state.tree
        (fun _ (same : id = function) => other values rfl (same ▸ known)) _

end Steps

/-! ### The return statements of a body -/

/-- The first value that a step returns, if it returns from the body. -/
def Action.returned? : Action → Option (Option Expr)
  | .return_ values => some values.head?
  | _ => none

mutual
/-- The steps that return are the return statements of the body, in their order. -/
theorem returned_sites (stmts : List Stmt) (path : String) (earlier : List BlockKind) :
    (sites stmts path earlier).filterMap (·.action.returned?) = returnsOf stmts :=
  match stmts with
  | [] => rfl
  | stmt :: rest => by
    rw [sites, returnsOf, List.filterMap_append, returned_stmtSites stmt path earlier,
      returned_sites rest path _]

theorem returned_stmtSites (stmt : Stmt) (path : String) (earlier : List BlockKind) :
    (stmtSites stmt path earlier).filterMap (·.action.returned?) = returnsOfStmt stmt :=
  match stmt with
  | ⟨kind, range⟩ => returned_kindSites kind range path earlier

theorem returned_kindSites (kind : StmtKind) (range : Range) (path : String) (earlier : List BlockKind) :
    (kindSites kind range path earlier).filterMap (·.action.returned?) = returnsOfKind kind :=
  match kind with
  | .local_ names values => by
    rw [kindSites, List.filterMap_map]
    exact List.filterMap_eq_nil_iff.2 fun _ _ => rfl
  | .assign targets values => by
    rw [kindSites, List.filterMap_map]
    exact List.filterMap_eq_nil_iff.2 fun _ _ => rfl
  | .return_ _ => rfl
  | .if_ clauses => returned_clausesSites clauses range _ 0
  | .while_ _ body => returned_sites body _ []
  | .repeat_ body _ => returned_sites body _ []
  | .do_ body => returned_sites body _ []
  | .forNumeric _ _ _ _ body => returned_sites body _ []
  | .forGeneric names _ body => by
    refine (List.filterMap_cons_none rfl).trans ?_
    rw [List.filterMap_append, returned_sites body _ [], List.filterMap_map]
    exact congrArg (· ++ returnsOf body) (List.filterMap_eq_nil_iff.2 fun _ _ => rfl)
  | .call _ | .function _ _ _ | .break_ | .goto _ | .label _ => rfl

theorem returned_clausesSites (clauses : List IfClause) (range : Range) (path : String) (index : Nat) :
    (clausesSites clauses range path index).filterMap (·.action.returned?) = returnsOfClauses clauses :=
  match clauses with
  | [] => rfl
  | clause :: rest => by
    rw [clausesSites, returnsOfClauses, List.filterMap_append, returned_clauseSites clause range path index,
      returned_clausesSites rest range path (index + 1)]

theorem returned_clauseSites (clause : IfClause) (range : Range) (path : String) (index : Nat) :
    (clauseSites clause range path index).filterMap (·.action.returned?) = returnsOfClause clause :=
  match clause with
  | ⟨_, body⟩ => returned_sites body _ []
end

theorem returned_of_mem_sites {stmts : List Stmt} {path : String} {earlier : List BlockKind}
    {site : Site} (member : site ∈ sites stmts path earlier) {values : List Expr}
    (returns : site.action = .return_ values) :
    values.head? ∈ returnsOf stmts := by
  rw [← returned_sites stmts path earlier]
  exact List.mem_filterMap.2 ⟨site, member, by rw [returns]; rfl⟩

end Discovery
end LuaClasses
