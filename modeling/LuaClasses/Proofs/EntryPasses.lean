import LuaClasses.Proofs.EntrySteps

/-! What the entry of classes and members does not leave out. For a class, a function or a member that a
program writes at its top level there is a moment at which it is entered, and steps on both sides of it. -/

namespace LuaClasses

/-- Whether a statement of the top level gives a value to a name. -/
def Program.Gives (program : Program) (name : String) (value : Expr) : Prop :=
  ∃ stmt ∈ program.body, ∃ targets values,
    Discovery.bindings? stmt.kind = some (targets, values) ∧ (some name, value) ∈ targets.zip values

namespace Discovery
open Relation

variable (config : DiscoveryConfig) (program : Program)

/-- A loop comes to each of its items. -/
theorem foldl_passes {α : Type} {step : State → State → Prop} {turn : State → α → State} {items : List α}
    (each : ∀ item ∈ items, ∀ state, ReflTransGen step state (turn state item)) {item : α}
    (member : item ∈ items) (state : State) :
    ∃ middle, ReflTransGen step state middle ∧ ReflTransGen step (turn middle item)
      (items.foldl turn state) := by
  obtain ⟨before, after, rfl⟩ := List.append_of_mem member
  rw [List.foldl_append, List.foldl_cons]
  refine ⟨before.foldl turn state, foldl_steps before (fun other listed => each other ?_) state,
    foldl_steps after (fun other listed => each other ?_) _⟩
  · exact List.mem_append_left _ listed
  · exact List.mem_append_right _ (List.mem_cons_of_mem _ listed)

/-- A step that is made on the way from one state to another. -/
structure Passes (step : State → State → Prop) (first last before after : State) : Prop where
  reached : ReflTransGen step first before
  made : step before after
  left : ReflTransGen step after last

theorem Passes.extend {step : State → State → Prop} {first second third last before after : State}
    (passes : Passes step second third before after) (begins : ReflTransGen step first second)
    (ends : ReflTransGen step third last) : Passes step first last before after :=
  ⟨begins.trans passes.reached, passes.made, passes.left.trans ends⟩

/-! ### Classes -/

private theorem declareBindings_passes (range : Range) {targets : List (Option String)}
    (named : ∀ name, some name ∈ targets → name ∈ program.names) {values : List Expr}
    (written : ∀ name value, (some name, value) ∈ targets.zip values →
      (deriveBase? config value).isSome = true →
      program.DeclaresClass config name) {name : String} {value : Expr}
        (member : (some name, value) ∈ targets.zip values)
    (derives : (deriveBase? config value).isSome = true) (state : State) :
    ∃ base before, Passes (DeclareStep config program) state
      (declareBindings config range targets values state) before
      (declareClass config name base range before) := by
  induction values generalizing targets state with
  | nil => rw [List.zip_nil_right] at member; cases member
  | cons first rest ih =>
    obtain _ | ⟨target, others⟩ := targets
    · cases member
    have later := declareBindings_steps config program range
      (fun name held => named name (List.mem_cons_of_mem target held))
      fun name value member => written name value (List.mem_cons_of_mem _ member)
    have once : ReflTransGen (DeclareStep config program) state
        (declareBindings config range [target] [first] state) := by
      refine declareBindings_steps config program range (fun name held => ?_)
        (fun name value held => ?_) state
      · exact named name (List.mem_cons.2 (.inl (List.mem_singleton.1 held)))
      · exact written name value (List.mem_cons.2 (.inl (List.mem_singleton.1 held)))
    unfold declareBindings at once ⊢
    dsimp only [List.head?_cons, List.tail_cons] at once ⊢
    rcases List.mem_cons.1 member with same | further
    · cases same
      obtain ⟨base, derived⟩ := Option.isSome_iff_exists.1 derives
      have declared := written name value List.mem_cons_self derives
      refine ⟨base, state, .refl, .class_ base range state (named name List.mem_cons_self) declared, ?_⟩
      rw [derived]
      exact later _
    · obtain ⟨base, before, passes⟩ := ih (fun name held => named name (List.mem_cons_of_mem target held))
        (fun name value member => written name value (List.mem_cons_of_mem _ member)) further _
      exact ⟨base, before, passes.extend (by simpa only [declareBindings] using once) .refl⟩

theorem declared_passes {name : String} (written : program.DeclaresClass config name) :
    ∃ base range before, Passes (DeclareStep config program) (.initial config)
      (declared config program) before
      (declareClass config name base range before) := by
  obtain ⟨stmt, member, targets, values, value, bound, opposite, derives⟩ := written
  obtain ⟨middle, begins, ends⟩ := foldl_passes
    (fun _ member state => declareStatement_steps config program member state) member (.initial config)
  rw [declareStatement, bound] at ends
  obtain ⟨base, before, passes⟩ := declareBindings_passes config program stmt.range
    (named_bindings program member bound)
    (fun name value opposite derived => ⟨stmt, member, targets, values, value, bound, opposite, derived⟩)
    opposite derives middle
  exact ⟨base, stmt.range, before, passes.extend begins (ends.trans (linkClasses_steps config program _ _))⟩

/-! ### Functions of the top level -/

theorem indexed_passes {name : String} (written : program.DeclaresFunction name) :
    ∃ body range before, bodyNames body ⊆ program.names ∧ name ∈ program.names ∧
      Passes (IndexStep config program) (declared config program) (indexed config program) before
        (declareGlobalFunction name body range before) := by
  have declares := written
  obtain ⟨stmt, member, path, isLocal, body, kind, plain⟩ := written
  obtain ⟨middle, begins, ends⟩ := foldl_passes
    (fun _ member state => indexStatement_steps config program member state) member (declared config program)
  have within := stmtNames_subset member
  obtain ⟨_, range⟩ := stmt
  cases kind
  have named : name ∈ program.names := by
    have same := FunctionName.plain?_eq_some.1 plain
    subst same
    exact within (List.mem_append_left _ (List.mem_append_left _ (List.mem_singleton_self name)))
  have inside : bodyNames body ⊆ program.names := fun other held => within (List.mem_append_right _ held)
  simp only [indexStatement, plain] at ends
  exact ⟨body, range, middle, inside, named, begins, .function range named inside (.inl declares), ends⟩

/-! ### Values of the top level -/

private theorem declareGlobals_passes (range : Range) {names : List String} {values : List Expr}
    (named : names ⊆ program.names) (within : ∀ expr ∈ values, expr.names ⊆ program.names)
    {name : String} {value : Expr} (member : (name, value) ∈ names.zip values) (state : State) :
    ∃ before, ReflTransGen (IndexStep config program) state before ∧
      ReflTransGen (IndexStep config program) (declareGlobal config name (some value) range before)
        (declareGlobals config range names values state) := by
  induction names generalizing values state with
  | nil => cases member
  | cons first rest ih =>
    obtain _ | ⟨given, others⟩ := values
    · cases member
    have named_ : rest ⊆ program.names := fun name held => named (List.mem_cons_of_mem _ held)
    have within_ : ∀ expr ∈ others, expr.names ⊆ program.names := fun expr held =>
      within expr (List.mem_cons_of_mem _ held)
    rw [declareGlobals, List.head?_cons, List.tail_cons]
    rcases List.mem_cons.1 member with same | further
    · cases same
      exact ⟨state, .refl, declareGlobals_steps config program range _ named_ within_⟩
    · obtain ⟨before, begins, ends⟩ := ih named_ within_ further
        (declareGlobal config first (some given) range state)
      refine ⟨before, .trans ?_ begins, ends⟩
      refine declareGlobal_steps config program range state (named List.mem_cons_self) fun expr same => ?_
      cases same
      exact within given List.mem_cons_self

private theorem indexTargets_passes (range : Range) {targets values : List Expr}
    (named : ∀ expr ∈ targets, expr.names ⊆ program.names)
    (within : ∀ expr ∈ values, expr.names ⊆ program.names) {target value : Expr}
    (member : (target, value) ∈ targets.zip values) (state : State) :
    ∃ before, ReflTransGen (IndexStep config program) state before ∧
      ReflTransGen (IndexStep config program) (indexTarget config target (some value) range before)
        (indexTargets config range targets values state) := by
  induction targets generalizing values state with
  | nil => cases member
  | cons first rest ih =>
    obtain _ | ⟨given, others⟩ := values
    · cases member
    have named_ : ∀ expr ∈ rest, expr.names ⊆ program.names := fun expr held =>
      named expr (List.mem_cons_of_mem _ held)
    have within_ : ∀ expr ∈ others, expr.names ⊆ program.names := fun expr held =>
      within expr (List.mem_cons_of_mem _ held)
    rw [indexTargets, List.head?_cons, List.tail_cons]
    rcases List.mem_cons.1 member with same | further
    · cases same
      exact ⟨state, .refl, indexTargets_steps config program range _ named_ within_⟩
    · obtain ⟨before, begins, ends⟩ := ih named_ within_ further
        (indexTarget config first (some given) range state)
      refine ⟨before, .trans ?_ begins, ends⟩
      refine indexTarget_steps config program range state (named first List.mem_cons_self) fun expr same => ?_
      cases same
      exact within given List.mem_cons_self

/-- A value that the top level gives to a name is entered. -/
theorem given_passes {name : String} {value : Expr} (given : program.Gives name value) :
    name ∈ program.names ∧ value.names ⊆ program.names ∧ ∃ range before,
      ReflTransGen (IndexStep config program) (declared config program) before ∧
        ReflTransGen (IndexStep config program) (declareGlobal config name (some value) range before)
          (indexed config program) := by
  obtain ⟨stmt, member, targets, values, bound, opposite⟩ := given
  have named := named_bindings program member bound name (List.of_mem_zip opposite).1
  have inside := (List.of_mem_zip opposite).2
  obtain ⟨middle, begins, ends⟩ := foldl_passes
    (fun _ member state => indexStatement_steps config program member state) member (declared config program)
  have within := stmtNames_subset member
  obtain ⟨kind, range⟩ := stmt
  cases kind with
  | local_ names values =>
    cases bound
    have names_ : names ⊆ program.names := fun name held => within (List.mem_append_left _ held)
    have values_ : ∀ expr ∈ values, expr.names ⊆ program.names := fun expr held =>
      List.Subset.trans (exprNames_subset held) fun name held => within (List.mem_append_right _ held)
    rw [List.zip_map_left] at opposite
    obtain ⟨⟨_, given⟩, paired, same⟩ := List.mem_map.1 opposite
    cases same
    obtain ⟨before, reached, left⟩ := declareGlobals_passes config program range names_ values_ paired middle
    exact ⟨named, values_ given inside, range, before, begins.trans reached, left.trans ends⟩
  | assign targets values =>
    cases bound
    have targets_ : ∀ expr ∈ targets, expr.names ⊆ program.names := fun expr held =>
      List.Subset.trans (exprNames_subset held) fun name held => within (List.mem_append_left _ held)
    have values_ : ∀ expr ∈ values, expr.names ⊆ program.names := fun expr held =>
      List.Subset.trans (exprNames_subset held) fun name held => within (List.mem_append_right _ held)
    rw [List.zip_map_left] at opposite
    obtain ⟨⟨target, given⟩, paired, same⟩ := List.mem_map.1 opposite
    simp only [Prod.map_apply, id_eq, Prod.mk.injEq] at same
    obtain ⟨plain, rfl⟩ := same
    obtain ⟨before, reached, left⟩ := indexTargets_passes config program range targets_ values_ paired middle
    have turn : indexTarget config target (some given) range before = declareGlobal config name
        (some given) range before := by
      cases target <;> cases plain
      rfl
    rw [turn] at left
    exact ⟨named, values_ given inside, range, before, begins.trans reached, left.trans ends⟩
  | _ => cases bound

/-! ### Members -/

section Define

variable {owner : ScopeId} {ownerName : String}

/-- A function that is entered among the members of a class, with names of the program. -/
def DefinesAt (owner : ScopeId) (ownerName name : String) (first last : State) : Prop :=
  ∃ indexer body range before, bodyNames body ⊆ program.names ∧
    Passes (DefineStep config program owner ownerName) first last before
      (defineFunction owner name indexer body range before)

private theorem defineTargets_passes (range : Range) {targets values : List Expr} (state : State)
    (named : ∀ expr ∈ targets, expr.names ⊆ program.names)
    (within : ∀ expr ∈ values, expr.names ⊆ program.names)
    (written : ∀ target value object name body, (target, value) ∈ targets.zip values →
      target.unparen = .member object name → object.name? = some ownerName → value.unparen = .function body →
      program.DefinesFunction ownerName name)
    {target value object : Expr} {name : String} {body : FunctionBody}
    (member : (target, value) ∈ targets.zip values)
    (reads : target.unparen = .member object name) (base : object.name? = some ownerName)
    (function : value.unparen = .function body) (other : name ≠ config.constructorName) :
    DefinesAt config program owner ownerName name state
      (defineTargets config owner ownerName range targets values state) := by
  induction targets generalizing values state with
  | nil => cases member
  | cons first rest ih =>
    obtain _ | ⟨given, others⟩ := values
    · cases member
    have later : ∀ state, ReflTransGen (DefineStep config program owner ownerName) state
        (defineTargets config owner ownerName range rest others state) := fun state =>
      defineTargets_steps config program range state
        (fun expr held => named expr (List.mem_cons_of_mem _ held))
        (fun expr held => within expr (List.mem_cons_of_mem _ held))
        fun target value object name body held => written target value object name body
          (List.mem_cons_of_mem _ held)
    rw [defineTargets, List.head?_cons, List.tail_cons]
    rcases List.mem_cons.1 member with same | further
    · cases same
      have names : (Expr.member object name).names ⊆ program.names := by
        rw [← reads, Expr.names_unparen]
        exact named target List.mem_cons_self
      have inside : bodyNames body ⊆ program.names := by
        intro name held
        refine within value List.mem_cons_self ?_
        rw [← Expr.names_unparen, function]
        exact held
      have turn : defineTarget config owner ownerName target (some value) range state =
          defineFunction owner name .dot body range state := by
        simp only [defineTarget, reads, base, if_true, Option.map_some, function, if_neg other]
      rw [turn]
      exact ⟨.dot, body, range, state, inside, .refl, .function .dot range state
        (names (List.mem_append_right _ (List.mem_singleton_self name))) inside
        (written target value object name body List.mem_cons_self reads base function) other, later _⟩
    · obtain ⟨indexer, body, range', before, inside, passes⟩ := ih
        (defineTarget config owner ownerName first (some given) range state)
        (fun expr held => named expr (List.mem_cons_of_mem _ held))
        (fun expr held => within expr (List.mem_cons_of_mem _ held))
        (fun target value object name body held => written target value object name body
          (List.mem_cons_of_mem _ held)) further
      refine ⟨indexer, body, range', before, inside, passes.extend ?_ .refl⟩
      refine defineTarget_steps config program range state
        (named first List.mem_cons_self) (fun expr same => ?_)
        fun expr object name body same => ?_
      · cases same
        exact within given List.mem_cons_self
      · cases same
        exact written first given object name body List.mem_cons_self

/-- A function that the top level defines of a class is entered among the members of the class. -/
theorem defineMembers_passes {state : State} {held : Class}
    (found : state.tree.classAt? owner = some held) {name : String}
    (written : program.DefinesFunction held.name name) (other : name ≠ config.constructorName) :
    DefinesAt config program owner held.name name state (defineMembers config program state owner) := by
  have defines := written
  obtain ⟨stmt, member, form⟩ := written
  have each : ∀ stmt ∈ program.body, ∀ state, ReflTransGen (DefineStep config program owner held.name) state
      (defineStatement config owner held.name state stmt) :=
    fun stmt member state => defineStatement_steps config program member state
  obtain ⟨middle, begins, ends⟩ := foldl_passes each member state
  have within := stmtNames_subset member
  obtain ⟨kind, range⟩ := stmt
  have last : program.body.foldl (defineStatement config owner held.name) state =
      defineMembers config program state owner := by
    simp only [defineMembers, found]
  rw [last] at ends
  obtain ⟨indexer, body, same⟩ | ⟨targets, values, target, value, object, body, same, opposite,
    reads, base, function⟩ := form
  · cases same
    have inside : bodyNames body ⊆ program.names := fun other held => within (List.mem_append_right _ held)
    have named : name ∈ program.names := by
      refine within (List.mem_append_left _ ?_)
      cases indexer <;> simp [FunctionName.ofMember]
    have turn : defineStatement config owner held.name middle
      ⟨.function (.ofMember held.name indexer name) false body, range⟩ =
        defineFunction owner name indexer body range middle := by
      simp only [defineStatement, FunctionName.member?_eq_some.2 rfl, if_true, if_neg other]
    rw [turn] at ends
    exact ⟨indexer, body, range, middle, inside, begins,
      .function indexer range middle named inside defines other, ends⟩
  · cases same
    have entered : DefinesAt config program owner held.name name middle
        (defineTargets config owner held.name range targets values middle) :=
        defineTargets_passes config program range middle
      (fun expr held => List.Subset.trans (exprNames_subset held) fun name inside =>
        within (List.mem_append_left _ inside))
      (fun expr held => List.Subset.trans (exprNames_subset held) fun name inside =>
        within (List.mem_append_right _ inside))
      (fun target value object name body opposite reads base function =>
        ⟨_, member, .inr ⟨targets, values, target, value, object, body, rfl,
          opposite, reads, base, function⟩⟩)
      opposite reads base function other
    obtain ⟨indexer, body, range', before, inside, passes⟩ := entered
    exact ⟨indexer, body, range', before, inside, passes.extend begins ends⟩

end Define

end Discovery
end LuaClasses
