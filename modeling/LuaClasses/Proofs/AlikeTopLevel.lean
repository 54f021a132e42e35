import LuaClasses.Proofs.AlikeConstructors
import LuaClasses.Proofs.TargetNames

/-! What the top level makes before members are entered. The tree that is made is told by its chart, and
no reference in it waits for a path from the top. So it is alike itself, and programs with the same top
level begin at alike states. -/

namespace LuaClasses
open DottedName ScopeTree Discovery Relation

theorem ScopeTree.WellShaped.root_lt {tree : ScopeTree} (shaped : tree.WellShaped) :
    root.index < tree.size := by
  obtain ⟨_, formed, _, same⟩ := shaped
  exact same.size ▸ formed.root_lt

theorem ScopeTree.Sound.withGlobals {tree : ScopeTree} (sound : tree.Sound) (globals : Globals) :
    ({ tree with globals } : ScopeTree).Sound :=
  sound.of_entities (.refl tree) fun held => .inr held

theorem Alike.withGlobals {likeness : Likeness} {first second : ScopeTree}
    (alike : Alike likeness first second) (one two : Globals) :
    Alike likeness { first with globals := one } { second with globals := two } where
  left := alike.left.withGlobals one
  right := alike.right.withGlobals two
  top := alike.top
  looks := alike.looks

namespace Discovery

variable {top : String}

/-! ### Writes -/

section Trees

variable {tree : ScopeTree} (alike : Alike (.same top) tree tree)
include alike

private theorem alike_placeClass {id : ScopeId} (inside : id.index < tree.size) (name : String)
    (superclass : Option String) :
    Alike (.same top) (placeClass tree id name superclass) (placeClass tree id name superclass) := by
  have made := alike.finds_internChild (show '.' ∉ "constructor".toList by decide)
    ⟨inside, inside, rfl⟩ .function .function
  unfold placeClass
  dsimp only
  generalize tree.internChild id "constructor" .function = below at made ⊢
  have bare : ∀ scope ∈ (EntityKind.constructor .new).scopes, scope.index < below.1.size :=
    fun _ member => by cases member
  have placed := made.alike.placeSame made.twins bare bare rfl
  have same := sameShape_setEntity below.1 below.2 (.new (.constructor .new))
  have scopes : ∀ scope ∈ (EntityKind.class_ { Class.new name below.2 with superclass }).scopes,
      scope.index < (below.1.setEntity below.2 (.new (.constructor .new))).size := by
    intro scope member
    rw [List.mem_singleton.1 member, same.size]
    exact made.twins.left
  have outer := alike.onward ⟨inside, inside, rfl⟩ (made.onward.trans same.keeps)
    (made.onward.trans same.keeps)
  exact placed.placeSame outer scopes scopes rfl

/-- The link to a superclass is not seen in a chart. -/
theorem alike_linkClass (id : ScopeId) : Alike (.same top) (linkClass tree id) (linkClass tree id) := by
  unfold linkClass
  split
  next => exact alike
  next held found =>
    split
    next => exact alike
    next =>
      obtain ⟨_, present⟩ := classAt?_eq_some found
      have self : Twins tree tree id id := ⟨index_lt_of_entity? present, index_lt_of_entity? present, rfl⟩
      exact alike.modifyClass self self (h := fun held => held) (fun _ => rfl) (fun _ => rfl)
        (fun _ _ => .inr) (fun _ _ => .inr)
        fun _ => (Likeness.lasting_same top).mapClass fun _ _ same => same

private theorem alike_declareGlobalTable {name : String} (plain : '.' ∉ name.toList) :
    Alike (.same top) (declareGlobalTable name tree) (declareGlobalTable name tree) := by
  have inside := alike.left.shaped.root_lt
  have made := alike.finds_internChild plain ⟨inside, inside, rfl⟩ .table .table
  unfold declareGlobalTable
  dsimp only
  generalize tree.internChild root name .table = below at made ⊢
  refine Alike.withGlobals ?_ _ _
  split
  next => exact made.alike
  next => exact made.alike.place (Likeness.lasting_same top) made.twins rfl rfl rfl rfl

/-- What is read at the top level. -/
theorem readers_root (config : DiscoveryConfig) {value : Option Expr}
    (told : ∀ expr ∈ value, ∀ target ∈ expr.targets config [], ¬Within top target) :
    Testify (Likeness.same top).seen (Likeness.same top).known tree tree
      (classifyValue config tree (.at_ root) value)
      (classifyValue config tree (.at_ root) value) := by
  have inside := alike.left.shaped.root_lt
  have readers : Readers (Likeness.same top).seen (Likeness.same top).known [] tree tree
      (.at_ root) (.at_ root) :=
    ⟨alike.agree (Likeness.lasting_same top), ⟨inside, inside, rfl⟩, rfl,
      fun given => absurd rfl given, fun _ _ _ _ => trivial⟩
  exact readers.classifyValue config fun expr given target member => ⟨told expr given target member, trivial⟩

variable (config : DiscoveryConfig) {value : Option Expr}
  (told : ∀ expr ∈ value, ∀ target ∈ expr.targets config [], ¬Within top target)
include told

private theorem alike_declareGlobalValue {name : String} (plain : '.' ∉ name.toList) (range : Range) :
    Alike (.same top) (declareGlobalValue config name value range tree)
      (declareGlobalValue config name value range tree) := by
  have lasting := Likeness.lasting_same top
  have inside := alike.left.shaped.root_lt
  have evidence := readers_root alike config told
  have made := alike.finds_local lasting plain ⟨inside, inside, rfl⟩ trivial range
  unfold declareGlobalValue
  dsimp only
  generalize defineLocal tree root name range = below at made ⊢
  split
  next =>
    refine Alike.withGlobals ?_ _ _
    exact made.alike.applyEvidence lasting made.twins trivial
      (evidence.onward alike made.onward made.further) trivial
  next => exact made.alike

private theorem alike_assignMember {base name : String} (dotless : '.' ∉ base.toList)
    (plain : '.' ∉ name.toList) (range : Range) :
    let assigned := (assignMember tree (.at_ root) base name
      (classifyValue config tree (.at_ root) value) range).1
    Alike (.same top) assigned assigned := by
  have inside := alike.left.shaped.root_lt
  exact Alike.assignMember (Likeness.lasting_same top) alike (readers_root alike config told)
    ⟨inside, inside, rfl⟩ dotless plain
    (fun _ _ => trivial) (fun _ _ => trivial) range trivial

end Trees

/-! ### The top level -/

section States

variable {config : DiscoveryConfig} {program : Program} {state : State}

private theorem alike_vacate (state : State) (alike : Alike (.same top) state.tree state.tree)
    {id : ScopeId} (inside : id.index < state.tree.size) (message : String) (range : Range) :
    Alike (.same top) (state.vacate id message range).tree (state.vacate id message range).tree :=
  (AlikeStates.vacate (Likeness.lasting_same top) ⟨alike, .refl [] _⟩ ⟨inside, inside, rfl⟩
    trivial message range).trees

private theorem alike_declareClass (alike : Alike (.same top) state.tree state.tree) {name : String}
    (plain : '.' ∉ name.toList) (base : String) (range : Range) :
    Alike (.same top) (declareClass config name base range state).tree
      (declareClass config name base range state).tree := by
  have inside := alike.left.shaped.root_lt
  have made := alike.finds_internChild plain ⟨inside, inside, rfl⟩ .class_ .class_
  rw [declareClass_eq]
  dsimp only
  rw [tree_resetBodies]
  generalize state.tree.internChild root name .class_ = below at made ⊢
  have vacated := alike_vacate (state.withTree below.1) made.alike made.twins.left
    s!"class `{name}` redefined" range
  have same := sameShape_vacate (state.withTree below.1) below.2 s!"class `{name}` redefined" range
  generalize (state.withTree below.1).vacate below.2 s!"class `{name}` redefined" range =
    cleared at vacated same ⊢
  exact (alike_placeClass vacated (same.size ▸ made.twins.left) name _).withGlobals _ _

private theorem alike_declareGlobalFunction (alike : Alike (.same top) state.tree state.tree)
    {name : String} (plain : '.' ∉ name.toList) {body : FunctionBody}
    (params : ∀ name ∈ body.params, '.' ∉ name.toList) (range : Range) :
    Alike (.same top) (declareGlobalFunction name body range state).tree
      (declareGlobalFunction name body range state).tree := by
  have inside := alike.left.shaped.root_lt
  have made := alike.finds_internChild plain ⟨inside, inside, rfl⟩ .function .function
  rw [declareGlobalFunction_eq]
  dsimp only
  generalize state.tree.internChild root name .function = below at made ⊢
  have vacated := alike_vacate (state.withTree below.1) made.alike made.twins.left
    s!"global function `{name}` redefined" range
  have same := sameShape_vacate (state.withTree below.1) below.2 s!"global function `{name}` redefined" range
  generalize (state.withTree below.1).vacate below.2 s!"global function `{name}` redefined" range =
    cleared at vacated same ⊢
  have inside : below.2.index < cleared.tree.size := same.size ▸ made.twins.left
  exact (vacated.placeFunction ⟨inside, inside, rfl⟩ ⟨nofun, nofun, nofun, nofun⟩ (fun _ => trivial)
    params name .global).1.withGlobals _ _

private theorem alike_declareStep (plain : program.Plain) {before after : State}
    (step : DeclareStep config program before after) (alike : Alike (.same top) before.tree before.tree) :
    Alike (.same top) after.tree after.tree := by
  cases step with
  | class_ base range state named written => exact alike_declareClass alike (plain _ named).1 base range
  | skip message range => rw [State.tree_warn]; exact alike
  | link id => exact alike_linkClass alike id

private theorem alike_initial (config : DiscoveryConfig) :
    Alike (.same top) (State.initial config).tree (State.initial config).tree := by
  have vacant : ∀ id, (State.initial config).tree.entity? id = none := by
    intro id
    rw [State.initial, entity?_new]
  have shaped : (State.initial config).tree.WellShaped :=
    ⟨_, (formed_initial config).tree, (tidy_initial config).1.tree.dotless, .refl _⟩
  have sound : (State.initial config).tree.Sound :=
    ⟨shaped, fun {id entity} held => by rw [vacant] at held; cases held⟩
  refine ⟨sound, sound, rfl, fun path _ => ?_⟩
  have blank : (State.initial config).tree.chart path = none := by
    rw [chart]
    cases (State.initial config).tree.find? path with
    | none => rfl
    | some id => rw [Option.bind_some, vacant]; rfl
  rw [blank]
  exact .none

variable (plain : program.Plain) (spares : program.Spares top)
include plain spares

private theorem alike_declareGlobal (alike : Alike (.same top) state.tree state.tree) {name : String}
    (named : name ∈ program.names) {value : Option Expr}
    (within : ∀ expr ∈ value, expr.names ⊆ program.names) (range : Range) :
    Alike (.same top) (declareGlobal config name value range state).tree
      (declareGlobal config name value range state).tree := by
  have dotless := (plain name named).1
  have told : ∀ expr ∈ value, ∀ target ∈ expr.targets config [],
      ¬Within top target := fun expr given target =>
    spares.not_within_target (fun name member => (plain name member).1)
      (within expr given) (List.nil_subset _)
  unfold declareGlobal
  split
  next => exact alike
  next =>
    split
    next body function =>
      obtain ⟨expr, given, same⟩ := Option.map_eq_some_iff.1 function
      refine alike_declareGlobalFunction alike dotless
        (fun param member => (plain param (within expr given ?_)).1) range
      rw [← Expr.names_unparen, same]
      exact params_subset body member
    next => exact alike_declareGlobalTable alike dotless
    next => exact alike_declareGlobalValue alike config told dotless range

private theorem alike_declareGlobals {names : List String} (named : names ⊆ program.names)
    {values : List Expr} (within : ∀ expr ∈ values, expr.names ⊆ program.names) (range : Range)
    (alike : Alike (.same top) state.tree state.tree) :
    Alike (.same top) (declareGlobals config range names values state).tree
      (declareGlobals config range names values state).tree := by
  induction names generalizing values state with
  | nil => exact alike
  | cons name rest ih =>
    rw [List.cons_subset] at named
    exact ih named.2 (fun expr member => within expr (List.mem_of_mem_tail member))
      (alike_declareGlobal plain spares alike named.1
        (fun expr given => within expr (List.mem_of_mem_head? given)) range)

private theorem alike_indexTarget (alike : Alike (.same top) state.tree state.tree) {target : Expr}
    (named : target.names ⊆ program.names) {value : Option Expr}
    (within : ∀ expr ∈ value, expr.names ⊆ program.names) (range : Range) :
    Alike (.same top) (indexTarget config target value range state).tree
      (indexTarget config target value range state).tree := by
  rw [← Expr.names_unparen] at named
  unfold indexTarget
  split
  next name same =>
    rw [same] at named
    exact alike_declareGlobal plain spares alike (named (List.mem_singleton_self name)) within range
  next object name same =>
    rw [same] at named
    obtain ⟨first, last⟩ := List.append_subset.1 named
    split
    next => exact alike
    next base based =>
      split
      next =>
        refine alike_assignMember alike config (fun expr given target => ?_)
          (plain base (first (Expr.name_mem_names based))).1
          (plain name (last (List.mem_singleton_self name))).1 range
        exact spares.not_within_target (fun name member => (plain name member).1)
          (within expr given) (List.nil_subset _)
      next => exact alike
  next => exact alike

private theorem alike_indexTargets {targets : List Expr}
    (named : ∀ expr ∈ targets, expr.names ⊆ program.names) {values : List Expr}
    (within : ∀ expr ∈ values, expr.names ⊆ program.names) (range : Range)
    (alike : Alike (.same top) state.tree state.tree) :
    Alike (.same top) (indexTargets config range targets values state).tree
      (indexTargets config range targets values state).tree := by
  induction targets generalizing values state with
  | nil => exact alike
  | cons target rest ih =>
    obtain ⟨first, others⟩ := List.forall_mem_cons.1 named
    exact ih others (fun expr member => within expr (List.mem_of_mem_tail member))
      (alike_indexTarget plain spares alike first
        (fun expr given => within expr (List.mem_of_mem_head? given)) range)

private theorem alike_indexStatement {stmt : Stmt} (member : stmt ∈ program.body)
    (alike : Alike (.same top) state.tree state.tree) :
    Alike (.same top) (indexStatement config state stmt).tree (indexStatement config state stmt).tree := by
  have within := stmtNames_subset member
  have exprs : ∀ {list : List Expr}, exprsNames list ⊆ program.names → ∀ expr ∈ list,
      expr.names ⊆ program.names :=
    fun inside expr held => List.Subset.trans (exprNames_subset held) inside
  obtain ⟨kind, range⟩ := stmt
  cases kind with
  | function written isLocal body =>
    simp only [indexStatement]
    cases named : written.plain? with
    | none => exact alike
    | some name =>
      obtain rfl := FunctionName.plain?_eq_some.1 named
      refine alike_declareGlobalFunction alike (plain name (within ?_)).1
        (fun param held => (plain param (within ?_)).1) range
      · exact List.mem_append_left _ (List.mem_append_left _ (List.mem_singleton_self name))
      · exact List.mem_append_right _ (params_subset body held)
  | local_ names values =>
    exact alike_declareGlobals plain spares (fun name held => within (List.mem_append_left _ held))
      (exprs fun name held => within (List.mem_append_right _ held)) range alike
  | assign targets values =>
    exact alike_indexTargets plain spares (exprs fun name held => within (List.mem_append_left _ held))
      (exprs fun name held => within (List.mem_append_right _ held)) range alike
  | _ => exact alike

/-- Before its members are entered, the tree of a program is alike itself. -/
theorem alike_indexed (config : DiscoveryConfig) :
    Alike (.same top) (indexed config program).tree (indexed config program).tree := by
  suffices ∀ (stmts : List Stmt) (state : State), stmts ⊆ program.body →
    Alike (.same top) state.tree state.tree →
      Alike (.same top) (stmts.foldl (indexStatement config) state).tree
        (stmts.foldl (indexStatement config) state).tree by
    refine this program.body _ (List.Subset.refl _) ?_
    exact declareSteps_keep plain (fun state => Alike (.same top) state.tree state.tree)
      (fun step _ _ _ alike => alike_declareStep plain step alike) .refl
      (declared_steps config program) (alike_initial config)
  intro stmts
  induction stmts with
  | nil => exact fun _ _ alike => alike
  | cons stmt rest ih =>
    intro state within alike
    rw [List.cons_subset] at within
    exact ih _ within.2 (alike_indexStatement plain spares within.1 alike)

end States
end Discovery
end LuaClasses
