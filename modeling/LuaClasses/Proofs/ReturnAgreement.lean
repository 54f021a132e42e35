import LuaClasses.Proofs.Arising
import LuaClasses.Proofs.FieldTypes
import LuaClasses.Proofs.FunctionIntake
import LuaClasses.Proofs.MemberForms

/-! What a body returns, told three times: by its statements, by the types that are collected from their
form, and by a walk. The walk gives the function of the body all that is collected, and nothing where
nothing is returned. -/

namespace LuaClasses

/-! ### Return statements -/

/-- The blocks that a statement opens. A function that is declared in a body is no block of it. -/
def StmtKind.blocks : StmtKind → List (List Stmt)
  | .if_ clauses => clauses.map IfClause.body
  | .while_ _ body | .repeat_ body _ | .do_ body | .forNumeric _ _ _ _ body | .forGeneric _ _ body => [body]
  | _ => []

/-- Whether statements return a value first, or nothing at all, at whatever depth of blocks. -/
inductive Returns (value : Option Expr) : List Stmt → Prop
  | here {stmts : List Stmt} {values : List Expr} {range : Range} (member : ⟨.return_ values, range⟩ ∈ stmts)
      (first : values.head? = value) : Returns value stmts
  | within {stmts block : List Stmt} {stmt : Stmt} (member : stmt ∈ stmts) (opens : block ∈ stmt.kind.blocks)
      (inner : Returns value block) : Returns value stmts

private theorem sizeOf_block_lt {kind : StmtKind} {block : List Stmt} (opens : block ∈ kind.blocks) :
    sizeOf block < sizeOf kind := by
  cases kind with
  | if_ clauses =>
    obtain ⟨clause, member, rfl⟩ := List.mem_map.1 opens
    have smaller := List.sizeOf_lt_of_mem member
    obtain ⟨condition, body⟩ := clause
    simp only [StmtKind.if_.sizeOf_spec, IfClause.mk.sizeOf_spec] at smaller ⊢
    omega
  | while_ | repeat_ | do_ | forNumeric | forGeneric =>
    obtain rfl := List.mem_singleton.1 opens
    simp only [StmtKind.while_.sizeOf_spec, StmtKind.repeat_.sizeOf_spec, StmtKind.do_.sizeOf_spec,
      StmtKind.forNumeric.sizeOf_spec, StmtKind.forGeneric.sizeOf_spec]
    omega
  | _ => cases opens

theorem mem_returnsOfClauses {value : Option Expr} {clauses : List IfClause} :
    value ∈ returnsOfClauses clauses ↔ ∃ block ∈ clauses.map IfClause.body, value ∈ returnsOf block := by
  induction clauses with
  | nil => simp [returnsOfClauses]
  | cons clause rest ih =>
    obtain ⟨condition, body⟩ := clause
    simp [returnsOfClauses, returnsOfClause, ih]

theorem mem_returnsOfKind {value : Option Expr} {kind : StmtKind} :
    value ∈ returnsOfKind kind ↔
      (∃ values, kind = .return_ values ∧ values.head? = value) ∨ ∃ block ∈ kind.blocks,
      value ∈ returnsOf block := by
  cases kind with
  | return_ values => simp [returnsOfKind, StmtKind.blocks, eq_comm]
  | if_ clauses =>
    rw [returnsOfKind, mem_returnsOfClauses]
    simp [StmtKind.blocks]
  | _ => simp [returnsOfKind, StmtKind.blocks]

theorem mem_returnsOf_iff_exists {value : Option Expr} {stmts : List Stmt} :
    value ∈ returnsOf stmts ↔ ∃ stmt ∈ stmts, value ∈ returnsOfKind stmt.kind := by
  induction stmts with
  | nil => simp [returnsOf]
  | cons stmt rest ih =>
    obtain ⟨kind, range⟩ := stmt
    simp [returnsOf, returnsOfStmt, ih]

private theorem Returns.of_mem {value : Option Expr} {stmts : List Stmt}
    (member : value ∈ returnsOf stmts) : Returns value stmts := by
  obtain ⟨stmt, listed, inside⟩ := mem_returnsOf_iff_exists.1 member
  obtain ⟨kind, range⟩ := stmt
  rcases mem_returnsOfKind.1 inside with ⟨values, rfl, first⟩ | ⟨block, opens, inner⟩
  · exact .here listed first
  · have smaller : sizeOf block < sizeOf stmts := by
      have outer := List.sizeOf_lt_of_mem listed
      have below : sizeOf block < sizeOf kind := sizeOf_block_lt opens
      simp only [Stmt.mk.sizeOf_spec] at outer
      omega
    exact .within listed opens (of_mem inner)
  termination_by sizeOf stmts
  decreasing_by exact smaller

/-- The values that are collected from a body are those that its statements return. -/
theorem mem_returnsOf {value : Option Expr} {stmts : List Stmt} :
    value ∈ returnsOf stmts ↔ Returns value stmts := by
  refine ⟨.of_mem, fun returns => ?_⟩
  induction returns with
  | here member first =>
    exact mem_returnsOf_iff_exists.2 ⟨_, member, mem_returnsOfKind.2 (.inl ⟨_, rfl, first⟩)⟩
  | within member opens _ ih =>
    exact mem_returnsOf_iff_exists.2 ⟨_, member, mem_returnsOfKind.2 (.inr ⟨_, opens, ih⟩)⟩

theorem hasReturn_eq_false_iff {stmts : List Stmt} : hasReturn stmts = false ↔ returnsOf stmts = [] := by
  simp [hasReturn_eq]

theorem mem_collectReturnTypes {type : LuaType} {stmts : List Stmt} :
    type ∈ collectReturnTypes stmts ↔ ∃ value ∈ returnsOf stmts, returnType? value = some type := by
  rw [collectReturnTypes, TypeSet.ofList, TypeSet.mem_foldl_insert, List.mem_filterMap]
  exact or_iff_left (List.not_mem_nil)

/-- Only a return of nothing has the type of nothing by its form. -/
theorem returnType?_eq_void {value : Option Expr} : returnType? value = some .void ↔ value = none := by
  cases value with
  | none => simp [returnType?]
  | some value =>
    simp only [returnType?, reduceCtorEq, iff_false]
    split
    next op operand same => cases op <;> simp [UnaryOp.resultType]
    next other =>
      unfold Expr.literalType?
      split <;> simp

/-- A body returns nothing as far as its form tells if it has no return statement, or one without values. -/
theorem void_mem_initialReturns {body : List Stmt} :
    .void ∈ Discovery.initialReturns body ↔ (∀ value, ¬Returns value body) ∨ Returns none body := by
  have collected : .void ∈ collectReturnTypes body ↔ Returns none body := by
    rw [mem_collectReturnTypes, ← mem_returnsOf]
    simp [returnType?_eq_void]
  have silent : hasReturn body = false ↔ ∀ value, ¬Returns value body := by
    rw [hasReturn_eq_false_iff, List.eq_nil_iff_forall_not_mem]
    exact forall_congr' fun value => not_congr mem_returnsOf
  unfold Discovery.initialReturns
  split
  next returns =>
    rw [collected, ← silent, returns]
    simp
  next returns =>
    have none : hasReturn body = false := Bool.eq_false_iff.2 returns
    simp [← silent, none]

namespace Discovery
open ScopeTree

/-! ### Walks -/

/-- No instance field of a class has the path of a scope. -/
def OffFields (tree : ScopeTree) (id : ScopeId) : Prop :=
  ∀ owner, tree.ClassNode owner → ∀ name, tree.raw id ≠ DottedName.child
    (DottedName.child (tree.raw owner) fieldsName) name

theorem classNode_of_nearestClass {tree : ScopeTree} {origin owner : ScopeId}
    (nearest : tree.nearestClass origin = some owner) :
    tree.ClassNode owner := by
  have holds := List.find?_some nearest
  split at holds
  next node present =>
    rw [Bool.and_eq_true, decide_eq_true_eq] at holds
    exact ⟨node, present, holds.1⟩
  next => cases holds

theorem OffFields.after {before after : ScopeTree} {id : ScopeId} (off : OffFields before id)
    (grows : before.Grows after) (inside : id.index < before.size)
    (classes : ∀ {other}, after.ClassNode other → before.ClassNode other) :
    OffFields after id := by
  intro owner node name
  obtain ⟨held, present, isClass⟩ := classes node
  rw [grows.raw inside, grows.raw (index_lt_of_node? present)]
  exact off owner ⟨held, present, isClass⟩ name

/-- What a walk does to a function from whose body values are returned: it gathers what their form tells,
and a walk that returns none passes by. -/
structure Returned (id : ScopeId) (values : List (Option Expr)) (before after : ScopeTree) : Prop where
  gathers : ∀ value ∈ values, ∀ type, returnType? value = some type →
    ∃ function, after.functionAt? id = some function ∧ type ∈ function.returns
  skirts : values = [] → OffFields before id → Skirts id before after

theorem Grows.functionAt? {before after : ScopeTree} (grows : before.Grows after) {id : ScopeId}
    {function : Function} (found : before.functionAt? id = some function) :
    ∃ later, after.functionAt? id = some later ∧ (EntityKind.function later).outline =
      (EntityKind.function function).outline ∧
      ∀ type ∈ function.returns, type ∈ later.returns := by
  obtain ⟨⟨references, kind⟩, held, asFunction⟩ := Option.bind_eq_some_iff.1 found
  obtain rfl : kind = .function function := by cases kind <;> cases asFunction; rfl
  obtain ⟨⟨_, later⟩, reached, grown⟩ := grows.entity? held
  cases later with
  | function later =>
    exact ⟨later, by rw [ScopeTree.functionAt?, reached]; rfl, grown.outline, grown.gathered⟩
  | _ => cases grown.outline

theorem Returned.append {id : ScopeId} {one two : List (Option Expr)} {first second third : ScopeTree}
    (begins : Returned id one first second) (goes : Returned id two second third)
    (grows : first.Grows second) (further : second.Grows third) (inside : id.index < first.size) :
    Returned id (one ++ two) first third where
  gathers := by
    intro value member type tells
    rcases List.mem_append.1 member with early | late
    · obtain ⟨function, found, gathered⟩ := begins.gathers value early type tells
      obtain ⟨later, reached, _, more⟩ := Grows.functionAt? further found
      exact ⟨later, reached, more type gathered⟩
    · exact goes.gathers value late type tells
  skirts := by
    intro none off
    obtain ⟨rfl, rfl⟩ := List.append_eq_nil_iff.1 none
    have skirts := begins.skirts rfl off
    exact skirts.trans (goes.skirts rfl (off.after grows inside skirts.classes))

/-- A moment at which a path leads to a scope of the body of a function. -/
structure State.Inside (state : State) (id : ScopeId) (path : String) : Prop where
  formed : state.Formed
  function : (state.tree.functionAt? id).isSome = true
  scope : ∃ scope, state.tree.find? path = some scope
  deep : (state.tree.raw id).toList.length ≤ path.toList.length

namespace State.Inside

variable {config : DiscoveryConfig} {state : State} {id : ScopeId} {path : String}

theorem advances {after : State} (inside : state.Inside id path) (advances : state.Advances after) :
    after.Inside id path := by
  obtain ⟨formed, function, ⟨scope, found⟩, deep⟩ := inside
  obtain ⟨last, grows⟩ := advances formed
  obtain ⟨held, known⟩ := Option.isSome_iff_exists.1 function
  obtain ⟨later, reached, _⟩ := Grows.functionAt? grows.tree known
  refine ⟨last, Option.isSome_of_eq_some reached, ⟨scope, grows.tree.find? found⟩, ?_⟩
  rw [grows.tree.raw (index_lt_of_functionAt? function)]
  exact deep

theorem deepens (config : DiscoveryConfig) (frame : Frame) (id : ScopeId) :
    Deepens config frame fun state path => state.Inside id path := by
  intro state path inside kind index range
  obtain ⟨last, function, _, deep⟩ := inside.advances
    (advances_site config frame state ⟨path, .block kind index, range⟩)
  obtain ⟨scope, found⟩ := inside.scope
  refine ⟨last, function, ⟨(enterBlock state.tree scope kind index).2.1, ?_⟩, Nat.le_trans deep ?_⟩
  · rw [Site.run, found]
    exact find?_enterBlock found kind index
  · rw [DottedName.toList_child, List.length_append]
    exact Nat.le_add_right _ _

end State.Inside

private theorem settledType?_of_returnType? {value : Expr} {type : LuaType}
    (tells : returnType? (some value) = some type) :
    value.settledType? = some type := by
  unfold returnType? at tells
  dsimp only at tells
  split at tells
  next op operand same =>
    rw [Expr.settledType?, same]
    exact tells
  next =>
    apply Expr.settledType?_of_literal
    rw [← Expr.literalType?_unparen]
    exact tells

/-- What a return statement gives tells its type to a walk if it tells it by its form. -/
theorem returnEvidence_of_returnType? (config : DiscoveryConfig) (tree : ScopeTree) (frame : Frame)
    {values : List Expr} {type : LuaType} (tells : returnType? values.head? = some type) :
    returnEvidence config tree frame values = .ofType type := by
  cases values with
  | nil =>
    cases tells
    rfl
  | cons first rest => exact classify_settled config tree frame (settledType?_of_returnType? tells)

private theorem functionAt?_applyEvidence_ofType {tree : ScopeTree} {id : ScopeId}
    (function : (tree.functionAt? id).isSome = true) (type : LuaType) :
    ∃ held, (applyEvidence tree id (.ofType type)).1.functionAt? id = some held ∧ type ∈ held.returns := by
  obtain ⟨held, known⟩ := Option.isSome_iff_exists.1 function
  obtain ⟨⟨references, kind⟩, present, asFunction⟩ := Option.bind_eq_some_iff.1 known
  obtain rfl : kind = .function held := by cases kind <;> cases asFunction; rfl
  rw [functionAt?, applyEvidence_held tree present, entity?_setEntity_self (index_lt_of_entity? present)]
  exact ⟨_, rfl, TypeSet.mem_union.2 (.inr (TypeSet.mem_single.2 rfl))⟩

section Walk

variable (config : DiscoveryConfig) {frame : Frame} {id : ScopeId} (target : frame.function = some id)
include target

private theorem returned_site {state : State} {site : Site} (inside : state.Inside id site.scope) :
    Returned id site.action.returned?.toList state.tree (site.run config frame state).1.tree := by
  obtain ⟨formed, function, ⟨scope, found⟩, deep⟩ := inside
  rw [Site.run, found]
  dsimp only
  refine ⟨fun value returns type tells => ?_, fun none off => ?_⟩
  · obtain ⟨path, action, range⟩ := site
    cases action with
    | return_ values =>
      obtain rfl := List.mem_singleton.1 returns
      have known : (frame.within scope).function = some id := target
      rw [Action.run, known]
      dsimp only
      rw [returnEvidence_of_returnType? config _ _ tells]
      exact functionAt?_applyEvidence_ofType function type
    | _ => cases returns
  · have shorter : ∀ path name, site.scope = path → state.tree.raw id ≠ DottedName.child path name := by
      rintro _ name rfl same
      rw [same, DottedName.toList_child, List.length_append, List.length_cons] at deep
      omega
    refine skirts_action formed.tree (index_lt_of_find? found) config
      ⟨fun name _ => ?_, fun owner nearest name _ => ?_⟩ ?_ site.range
    · exact shorter _ name (raw_of_find? found).symm
    · exact off owner (classNode_of_nearestClass nearest) name
    · intro values returns
      rw [returns] at none
      cases none

private theorem returned_sites_of_visits {sites : List Site} {state : State}
    (visits : Visits config frame (fun state path => state.Inside id path) sites state)
    (formed : state.Formed) (function : (state.tree.functionAt? id).isSome = true) :
    Returned id (sites.filterMap (·.action.returned?)) state.tree
      (runSites config frame sites state).1.tree := by
  induction visits with
  | nil => exact ⟨fun _ member => absurd member List.not_mem_nil, fun _ _ => .refl id _⟩
  | @cons site rest state here _ ih =>
    have first := returned_site config target here
    obtain ⟨middle, grows⟩ := advances_site config frame state site here.formed
    obtain ⟨_, further⟩ := advances_runSites config frame rest _ middle
    have others := ih middle (here.advances (advances_site config frame state site)).function
    have whole := first.append others grows.tree further.tree (index_lt_of_functionAt? function)
    rw [List.filterMap_cons, runSites_cons]
    cases given : site.action.returned? with
    | none => rw [given] at whole; exact whole
    | some value => rw [given] at whole; exact whole

/-- A walk of a body gives its function all types that are collected from the body, and gives it nothing
if the body returns nothing. -/
theorem returned_walkStmts {state : State} (formed : state.Formed) (begins : frame.scope = id)
    (function : (state.tree.functionAt? id).isSome = true) (stmts : List Stmt) :
    Returned id (returnsOf stmts) state.tree (walkStmts config stmts frame [] state).1.tree := by
  obtain rfl := begins
  have found := formed.tree.find?_raw (index_lt_of_functionAt? function)
  rw [walkStmts_eq config stmts frame [] state _ formed found, ← returned_sites stmts
    (state.tree.raw frame.scope) []]
  refine returned_sites_of_visits config target
    (visits_sites (State.Inside.deepens config frame frame.scope) stmts _ [] ?_ state ?_) formed function
  · exact fun site _ before path inside => inside.advances (advances_site config frame before site)
  · exact ⟨formed, function, ⟨frame.scope, found⟩, Nat.le_refl _⟩

end Walk

private theorem advances_walkStmts (config : DiscoveryConfig) {state : State} {frame : Frame}
    (inside : frame.scope.index < state.tree.size) (stmts : List Stmt) :
    state.Advances (walkStmts config stmts frame [] state).1 := by
  intro formed
  rw [walkStmts_eq config stmts frame [] state _ formed (formed.tree.find?_raw inside)]
  exact advances_runSites config frame _ state formed

private theorem functionAt?_placeFunction {tree : ScopeTree} {scope : ScopeId}
    (inside : scope.index < tree.size) (name : String) (kind : FunctionKind) (body : FunctionBody) :
    ∃ placed, (placeFunction tree scope name kind body).functionAt? scope = some placed ∧
      placed.returns = initialReturns body.body := by
  obtain ⟨node, present⟩ := exists_node? inside
  obtain ⟨_, there, _⟩ := ((stays_declareParams scope body.params tree).trans
    (.of_sameShape (sameShape_setEntity _ scope _))) present
  rw [functionAt?, entity?_placeFunction (index_lt_of_node? there)]
  exact ⟨_, rfl, rfl⟩

/-- In any state of a discovery, the walk of a body with a function as its scope and as the target of its
returns gives the function all types that are collected from the body; and where the body returns
nothing, the walk leaves the references and the types of the function as they are, unless the function
has the path of an instance field. A function that is placed anew gives nothing back by the form of its
body exactly if the body has no return statement or one without values. -/
theorem walk_agrees_with_returns {program : Program} {config : DiscoveryConfig} {state : State}
    (arises : Arises program config state) {id : ScopeId} {function : Function}
    (found : state.tree.functionAt? id = some function) (selfAlias : Option String) (stmts : List Stmt) :
    (∃ later, (walkStmts config stmts ⟨id, some id, selfAlias⟩ [] state).1.tree.functionAt? id = some later ∧
        ∀ type ∈ collectReturnTypes stmts, type ∈ later.returns) ∧
      (hasReturn stmts = false → OffFields state.tree id →
        (walkStmts config stmts ⟨id, some id, selfAlias⟩ [] state).1.tree.intake?
        id = state.tree.intake? id) ∧
      ∀ scope : ScopeId, scope.index < state.tree.size → ∀ name kind body,
        ∃ placed, (placeFunction state.tree scope name kind body).functionAt? scope = some placed ∧
          (.void ∈ placed.returns ↔ (∀ value, ¬Returns value body.body) ∨ Returns none body.body) := by
  have formed := arises.formed
  have known := Option.isSome_of_eq_some found
  have inside : (⟨id, some id, selfAlias⟩ : Frame).scope.index < state.tree.size :=
    index_lt_of_functionAt? known
  have target : (⟨id, some id, selfAlias⟩ : Frame).function = some id := rfl
  obtain ⟨gathers, skirts⟩ := returned_walkStmts config target formed rfl known stmts
  refine ⟨?_, fun silent off => ?_, fun scope within name kind body => ?_⟩
  · obtain ⟨_, grows⟩ := advances_walkStmts config inside stmts formed
    obtain ⟨later, reached, _⟩ := Grows.functionAt? grows.tree found
    refine ⟨later, reached, fun type collected => ?_⟩
    obtain ⟨value, member, tells⟩ := mem_collectReturnTypes.1 collected
    obtain ⟨held, same, gathered⟩ := gathers value member type tells
    cases reached.symm.trans same
    exact gathered
  · exact ((skirts (hasReturn_eq_false_iff.1 silent) off).function known).2.1
  · obtain ⟨placed, there, returns⟩ := functionAt?_placeFunction within name kind body
    exact ⟨placed, there, returns ▸ void_mem_initialReturns⟩

/-- The body of a method that assigns a field of the instance and returns nothing. -/
def setField : List Stmt := [⟨.assign [.member (.name "self") "x"] [.number "1"], ⟨3, 2, 3, 12⟩⟩]

/-- A class with such a method of a given name. -/
def setter (method : String) : Program where
  body := [
    ⟨.assign [.name "Foo"] [.methodCall (.name "ISBaseObject") "derive" []], ⟨1, 0, 1, 28⟩⟩,
    ⟨.function (.ofMember "Foo" .colon method) false ⟨[], false, setField⟩, ⟨2, 0, 4, 3⟩⟩]

theorem walk_agrees_with_returns_setter :
    let state := defined .default (setter "set")
    let walk stmts := (walkStmts .default stmts ⟨⟨3⟩, some ⟨3⟩, some "self"⟩ [] state).1.tree
    (∃ later, (walk [⟨.return_ [.number "1"], ⟨3, 2, 3, 10⟩⟩]).functionAt? ⟨3⟩ = some later ∧
      .number ∈ later.returns) ∧
      hasReturn setField = false ∧ OffFields state.tree ⟨3⟩ ∧
      (walk setField).intake? ⟨3⟩ = some (.empty, some (.single .void)) := by
  intro state walk
  have arises : Arises (setter "set") .default state := .of_defined .default (setter "set")
  have known : (state.tree.functionAt? ⟨3⟩).isSome = true := by decide +kernel
  obtain ⟨function, found⟩ := Option.isSome_iff_exists.1 known
  have off : OffFields state.tree ⟨3⟩ := by
    intro owner _ name same
    have path : state.tree.raw ⟨3⟩ = "__G.Foo.set" := by decide +kernel
    have within : '@' ∈ (DottedName.child
        (DottedName.child (state.tree.raw owner) fieldsName) name).toList := by
      simp [fieldsName]
    rw [← same, path] at within
    exact absurd within (by decide)
  have intake : state.tree.intake? ⟨3⟩ = some (.empty, some (.single .void)) := by decide +kernel
  obtain ⟨⟨later, reached, gathered⟩, _⟩ :=
    walk_agrees_with_returns arises found (some "self") [⟨.return_ [.number "1"], ⟨3, 2, 3, 10⟩⟩]
  obtain ⟨_, silent, _⟩ := walk_agrees_with_returns arises found (some "self") setField
  refine ⟨⟨later, reached, gathered _ ?_⟩, rfl, off, (silent rfl off).trans intake⟩
  rw [mem_collectReturnTypes]
  exact ⟨_, List.mem_cons_self, rfl⟩

/-- A method on the path of a field takes in what its body assigns to the field. -/
theorem walk_feeds_method_on_field_path :
    let state := defined .default (setter "@fields.x")
    Arises (setter "@fields.x") .default state ∧ (state.tree.functionAt? ⟨3⟩).isSome = true ∧
      hasReturn setField = false ∧
      (walkStmts .default setField ⟨⟨3⟩, some ⟨3⟩, some "self"⟩ [] state).1.tree.intake? ⟨3⟩ ≠
      state.tree.intake? ⟨3⟩ := by
  refine ⟨.of_defined .default _, ?_, rfl, ?_⟩
  · decide +kernel
  · decide +kernel

end Discovery
end LuaClasses
