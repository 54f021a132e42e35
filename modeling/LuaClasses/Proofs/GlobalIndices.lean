import LuaClasses.Proofs.ClassLosses
import LuaClasses.Proofs.Namings

/-! The indices of the top level. Once the top level is indexed, the tree holds of every name what the
namings of the program make of it, and nothing after that changes what a name stands for or is listed
as. -/

namespace LuaClasses.Discovery
open ScopeTree Relation

variable {config : DiscoveryConfig} {program : Program} {name : String}

/-- The tree holds of each name what these namings make of it. -/
structure Indexes (state : State) (namings : List (String × Naming)) : Prop where
  formed : state.Formed
  tidy : state.Tidy
  filed : ∀ name, state.tree.classId? name = none → Filed state.tree name
    (Naming.latest (namingsOf name namings))
  classes : ∀ name id, state.tree.classId? name = some id →
    FiledClass state.tree name id (namingsOf name namings)

/-! ### Steps -/

section Step

variable {before after : State} {namings : List (String × Naming)}

/-- A step that leaves every name but one alone. -/
theorem Indexes.write (indexes : Indexes before namings) (plain : program.Plain)
    (step : IndexStep config program before after)
    {naming : Naming}
    (others : ∀ other, other ≠ name → after.tree.standing? other = before.tree.standing? other ∧
      after.tree.listing other = before.tree.listing other)
    (filed : before.tree.classId? name = none → ∀ latest, Filed before.tree name latest →
      Filed after.tree name (Naming.follow latest naming))
    (classed : ∀ id namings, before.tree.classId? name = some id → FiledClass before.tree name id namings →
      FiledClass after.tree name id (namings ++ [naming])) : Indexes after (namings ++ [(name, naming)]) := by
  have links := links_indexStep plain step indexes.formed indexes.tidy
  refine ⟨(revises_indexStep step indexes.formed).1, tidy_indexStep plain step indexes.formed indexes.tidy,
    fun other free => ?_, fun other id known => ?_⟩
  all_goals rw [namingsOf_append, namingsOf_single]
  · rw [classId?_indexStep step indexes.formed] at free
    by_cases same : name = other
    · subst same
      rw [if_pos rfl, Naming.latest_append]
      exact filed free _ (indexes.filed name free)
    · obtain ⟨stands, listed⟩ := others other (Ne.symm same)
      rw [if_neg same, List.append_nil]
      exact (indexes.filed other free).carry links stands listed
  · rw [classId?_indexStep step indexes.formed] at known
    by_cases same : name = other
    · subst same
      rw [if_pos rfl]
      exact classed id _ known (indexes.classes name id known)
    · obtain ⟨stands, listed⟩ := others other (Ne.symm same)
      rw [if_neg same, List.append_nil]
      exact (indexes.classes other id known).carry links stands listed

private theorem indexes_function (config : DiscoveryConfig) (indexes : Indexes before namings)
    (plain : program.Plain) {body : FunctionBody} (range : Range) (named : name ∈ program.names)
    (within : bodyNames body ⊆ program.names)
    (free : program.DeclaresFunction name ∨ before.tree.classId? name = none) {naming : Naming}
    (function : naming = .declaration ∨ naming = .function ∧ before.tree.classId? name = none) :
    Indexes (declareGlobalFunction name body range before) (namings ++ [(name, naming)]) := by
  have step : IndexStep config program before (declareGlobalFunction name body range before) :=
    .function range named within free
  have links := links_indexStep plain step indexes.formed indexes.tidy
  have params : ∀ param ∈ body.params, PlainName param := fun param member =>
    plain param (within (params_subset body member))
  obtain ⟨id, kind, global, written, globals⟩ :=
    writes_declareGlobalFunction indexes.formed indexes.tidy (plain _ named) params range
  have listed : (declareGlobalFunction name body range before).tree.listing name = (none, some id, none) := by
    simp only [listing, globals, OrderedMap.get?_erase, OrderedMap.get?_insert, if_true]
  refine indexes.write plain step (fun other apart => ⟨written.others apart, ?_⟩) (fun _ latest _ => ?_)
    fun owner given known filed => ?_
  · simp only [listing, globals, OrderedMap.get?_erase, OrderedMap.get?_insert, if_neg apart]
  · rcases function with rfl | ⟨rfl, _⟩ <;>
      exact ⟨id, _, written.hangs, written.stands, global, by simp [listed, Naming.isFunction]⟩
  · rcases function with rfl | ⟨_, absent⟩
    · cases written.hangs.symm.trans (links filed.hangs)
      exact ⟨written.hangs, fun never =>
        absurd (List.mem_append_right given List.mem_cons_self) never, by simp [listed]⟩
    · rw [absent] at known
      cases known

private theorem indexes_table (config : DiscoveryConfig) (indexes : Indexes before namings)
    (plain : program.Plain) (named : name ∈ program.names) (free : before.tree.classId? name = none) :
    Indexes (before.withTree (declareGlobalTable name before.tree)) (namings ++ [(name, .table)]) := by
  have step : IndexStep config program before (before.withTree (declareGlobalTable name before.tree)) :=
    .table named free
  have links := links_indexStep plain step indexes.formed indexes.tidy
  obtain ⟨id, written, globals⟩ := writes_declareGlobalTable indexes.formed.tree
    indexes.tidy.tree (plain _ named)
  refine indexes.write plain step (fun other apart => ⟨written.others apart, ?_⟩)
    (fun _ latest filed => ?_) fun _ _ known => ?_
  · simp only [listing, State.withTree, globals, OrderedMap.get?_insert, if_neg apart]
  · refine filed.table links written ?_
    simp only [listing, State.withTree, globals, OrderedMap.get?_insert, if_true]
  · rw [free] at known
    cases known

private theorem indexes_value (indexes : Indexes before namings) (plain : program.Plain)
    (value : Option Expr) (range : Range) (named : name ∈ program.names)
    (free : before.tree.classId? name = none) :
    Indexes (before.withTree (declareGlobalValue config name value range before.tree))
      (namings ++ [(name, .value)]) := by
  have step : IndexStep config program before
      (before.withTree (declareGlobalValue config name value range before.tree)) :=
    .value value range named free
  have links := links_indexStep plain step indexes.formed indexes.tidy
  obtain ⟨id, written, listed, unlisted⟩ :=
    writes_declareGlobalValue config indexes.formed.tree indexes.tidy.tree (plain _ named) value range
  refine indexes.write plain step (fun other apart => ⟨written.others apart, ?_⟩)
    (fun _ latest filed => ?_) fun _ _ known => ?_
  · by_cases var : ∃ var, (declareGlobalValue config name value range before.tree).standing?
      name = some (.variable var)
    · simp only [listing, State.withTree, listed var, OrderedMap.get?_insert, if_neg apart]
    · simp only [listing, State.withTree, unlisted var]
  · refine filed.value links written (fun var => ?_) fun other => ?_
    · simp only [listing, State.withTree, listed var, OrderedMap.get?_insert, if_true]
    · simp only [listing, State.withTree, unlisted other]
  · rw [free] at known
    cases known

private theorem indexes_member (indexes : Indexes before namings) (plain : program.Plain)
    {base member : String} (value : Option Expr) (range : Range) (owned : base ∈ program.names)
    (named : member ∈ program.names) (table : isGlobalTable before.tree base = true) :
    Indexes (before.withTree (assignMember before.tree (.at_ root) base member
      (classifyValue config before.tree (.at_ root) value) range).1) namings := by
  have step : IndexStep config program before _ := .member value range owned named table
  have links := links_indexStep plain step indexes.formed indexes.tidy
  have unchanged := standing?_assignMember indexes.formed.tree indexes.tidy.tree.dotless
    (plain _ owned) (plain _ named) table
    (classifyValue config before.tree (.at_ root) value) range
  have listed : ∀ name, (assignMember before.tree (.at_ root) base member
      (classifyValue config before.tree (.at_ root) value) range).1.listing name =
      before.tree.listing name := fun name => by
    simp only [listing, (unchanged name).2]
  refine ⟨(revises_indexStep step indexes.formed).1, tidy_indexStep plain step indexes.formed indexes.tidy,
    fun other free => ?_, fun other id known => ?_⟩
  · rw [classId?_indexStep step indexes.formed] at free
    exact (indexes.filed other free).carry links (unchanged other).1 (listed other)
  · rw [classId?_indexStep step indexes.formed] at known
    exact (indexes.classes other id known).carry links (unchanged other).1 (listed other)

/-- What is given to the name of a class without a declaration is left out. -/
theorem Indexes.skip (indexes : Indexes before namings) {id : ScopeId}
    (known : before.tree.classId? name = some id) {naming : Naming} (given : naming ≠ .declaration) :
    Indexes before (namings ++ [(name, naming)]) := by
  refine ⟨indexes.formed, indexes.tidy, fun other free => ?_, fun other owner found => ?_⟩
  all_goals rw [namingsOf_append, namingsOf_single]
  · rw [if_neg, List.append_nil]
    · exact indexes.filed other free
    · rintro rfl
      rw [known] at free
      cases free
  · obtain ⟨hangs, class_, listing⟩ := indexes.classes other owner found
    have same : .declaration ∈ namingsOf other namings ++ (if name = other then [naming] else []) ↔
        .declaration ∈ namingsOf other namings := by
      split <;> simp [given.symm]
    refine ⟨hangs, fun free => class_ fun listed => free (same.2 listed), ?_⟩
    simp only [same]
    exact listing

end Step

/-! ### The top level -/

section Statements

variable {namings : List (String × Naming)} {state : State} (plain : program.Plain)
include plain

private theorem indexes_declareGlobal (config : DiscoveryConfig) (indexes : Indexes state namings)
    {value : Option Expr} (range : Range) (named : name ∈ program.names)
    (within : ∀ expr, value = some expr → expr.names ⊆ program.names) :
    Indexes (declareGlobal config name value range state)
      (namings ++ ((namingOf? config value).map (name, ·)).toList) := by
  unfold declareGlobal namingOf?
  cases derives : (value.bind (deriveBase? config)).isSome with
  | true =>
    simp only [Bool.true_or, if_true, Option.map_none, Option.toList_none, List.append_nil]
    exact indexes
  | false =>
    simp only [Bool.false_or, Bool.false_eq_true, if_false]
    cases known : state.tree.classId? name with
    | some id =>
      simp only [Option.isSome_some, if_true]
      split
      all_goals
        refine indexes.skip known fun same => ?_
        cases same
    | none =>
      simp only [Option.isSome_none, Bool.false_eq_true, if_false]
      cases form : value.map Expr.unparen with
      | none => exact indexes_value indexes plain value range named known
      | some given =>
        cases given with
        | function body =>
          obtain ⟨expr, rfl, unparen⟩ := Option.map_eq_some_iff.1 form
          have inside : bodyNames body ⊆ program.names := fun other member => by
            refine within expr rfl ?_
            rw [← Expr.names_unparen, unparen]
            exact member
          exact indexes_function config indexes plain range named inside (.inr known) (.inr ⟨rfl, known⟩)
        | table fields => exact indexes_table config indexes plain named known
        | _ => exact indexes_value indexes plain value range named known

private theorem indexes_declareGlobals (range : Range) {names : List String} {values : List Expr}
    (indexes : Indexes state namings) (named : names ⊆ program.names)
    (within : ∀ expr ∈ values, expr.names ⊆ program.names) :
    Indexes (declareGlobals config range names values state)
      (namings ++ statementNamings config (.local_ names values)) := by
  induction names generalizing values state namings with
  | nil => simpa [declareGlobals, statementNamings, opposite] using indexes
  | cons name rest ih =>
    have first := indexes_declareGlobal plain config indexes range (named List.mem_cons_self)
      fun expr head => within expr (List.mem_of_mem_head? head)
    have later := ih first (fun other member => named (List.mem_cons_of_mem _ member))
      fun expr member => within expr (List.mem_of_mem_tail member)
    have split : statementNamings config (.local_ (name :: rest) values) =
        ((namingOf? config values.head?).map (name, ·)).toList ++ statementNamings config
        (.local_ rest values.tail) := by
      simp only [statementNamings, opposite, List.filterMap_cons]
      cases namingOf? config values.head? <;> rfl
    rw [split, ← List.append_assoc]
    exact later

private theorem indexes_indexTarget (config : DiscoveryConfig) {target : Expr} {value : Option Expr}
    (range : Range) (indexes : Indexes state namings) (named : target.names ⊆ program.names)
    (within : ∀ expr, value = some expr → expr.names ⊆ program.names) :
    Indexes (indexTarget config target value range state)
      (namings ++ (target.unparen.name?.bind fun name => (namingOf? config value).map (name, ·)).toList) := by
  rw [← Expr.names_unparen] at named
  unfold indexTarget
  split
  next name same =>
    rw [same] at named ⊢
    exact indexes_declareGlobal plain config indexes range (named List.mem_cons_self) within
  next object name same =>
    rw [same] at named ⊢
    simp only [Expr.name?, Option.bind_none, Option.toList_none, List.append_nil]
    split
    next => exact indexes
    next base base? =>
      split
      next table =>
        refine indexes_member indexes plain value range (named ?_) (named ?_) table
        · exact List.mem_append_left _ (Expr.name_mem_names base?)
        · exact List.mem_append_right _ (List.mem_singleton_self name)
      next => exact indexes
  next unnamed _ =>
    have nameless : target.unparen.name? = none := by
      cases form : target.unparen with
      | name name => exact absurd form (unnamed name)
      | _ => rfl
    rw [nameless, Option.bind_none, Option.toList_none, List.append_nil]
    exact indexes

private theorem indexes_indexTargets (range : Range) {targets values : List Expr}
    (indexes : Indexes state namings) (named : ∀ expr ∈ targets, expr.names ⊆ program.names)
    (within : ∀ expr ∈ values, expr.names ⊆ program.names) :
    Indexes (indexTargets config range targets values state)
      (namings ++ statementNamings config (.assign targets values)) := by
  induction targets generalizing values state namings with
  | nil => simpa [indexTargets, statementNamings, opposite] using indexes
  | cons target rest ih =>
    have first := indexes_indexTarget plain config range indexes (named target List.mem_cons_self)
      fun expr head => within expr (List.mem_of_mem_head? head)
    have later := ih first (fun other member => named other (List.mem_cons_of_mem _ member))
      fun expr member => within expr (List.mem_of_mem_tail member)
    have split : statementNamings config (.assign (target :: rest) values) =
        (target.unparen.name?.bind fun name => (namingOf? config values.head?).map (name, ·)).toList ++
          statementNamings config (.assign rest values.tail) := by
      simp only [statementNamings, opposite, List.filterMap_cons]
      cases target.unparen.name?.bind fun name => (namingOf? config values.head?).map (name, ·) <;> rfl
    rw [split, ← List.append_assoc]
    exact later

private theorem indexes_indexStatement {stmt : Stmt} (member : stmt ∈ program.body)
    (indexes : Indexes state namings) :
    Indexes (indexStatement config state stmt) (namings ++ statementNamings config stmt.kind) := by
  have within := stmtNames_subset member
  have exprs : ∀ {list : List Expr}, exprsNames list ⊆ program.names → ∀ expr ∈ list,
      expr.names ⊆ program.names :=
    fun inside expr held => List.Subset.trans (exprNames_subset held) inside
  obtain ⟨kind, range⟩ := stmt
  cases kind with
  | function written isLocal body =>
    simp only [indexStatement, statementNamings]
    cases named : written.plain? with
    | none => simpa using indexes
    | some name =>
      obtain rfl := FunctionName.plain?_eq_some.1 named
      refine indexes_function config indexes plain range (within ?_) (fun other held => within ?_)
        (.inl ⟨_, member, _, _, _, rfl, named⟩) (.inl rfl)
      · exact List.mem_append_left _ (List.mem_append_left _ (List.mem_singleton_self name))
      · exact List.mem_append_right _ held
  | local_ names values =>
    exact indexes_declareGlobals plain range indexes (fun name held => within (List.mem_append_left _ held))
      (exprs fun name held => within (List.mem_append_right _ held))
  | assign targets values =>
    exact indexes_indexTargets plain range indexes
      (exprs fun name held => within (List.mem_append_left _ held))
      (exprs fun name held => within (List.mem_append_right _ held))
  | _ => simpa [indexStatement, statementNamings] using indexes

end Statements

/-! ### Declarations -/

private theorem standing?_modifyClass (tree : ScopeTree) (id : ScopeId) (f : Class → Class) (name : String) :
    (tree.modifyClass id f).standing? name = tree.standing? name ∨
      (∃ held, tree.standing? name = some (.class_ held)) ∧ ∃ held,
      (tree.modifyClass id f).standing? name = some (.class_ held) := by
  have shape := sameShape_modifyEntity tree id (Entity.mapClass f)
  cases found : tree.child? root name with
  | none =>
    exact .inl (by
      simp only [ScopeTree.standing?, ScopeTree.modifyClass, shape.child?, found, Option.bind_none])
  | some child =>
    have hangs : (tree.modifyClass id f).child? root name = some child := shape.links found
    rw [standing?_of_hangs hangs, standing?_of_hangs found, ScopeTree.modifyClass, entity?_modifyEntity]
    split
    next same =>
      subst same
      cases held : tree.entity? child with
      | none => exact .inl rfl
      | some entity =>
        obtain ⟨references, kind⟩ := entity
        cases kind with
        | class_ owner => exact .inr ⟨⟨_, rfl⟩, _, rfl⟩
        | _ => exact .inl rfl
    next => exact .inl rfl

/-- Before the top level is indexed, a name stands for a class or for nothing. -/
structure ClassesOnly (config : DiscoveryConfig) (program : Program) (state : State) : Prop where
  vacant : ∀ name, state.tree.classId? name = none → state.tree.standing? name = none
  classes : ∀ name id, state.tree.classId? name = some id → program.DeclaresClass config name ∧
    state.tree.child? root name = some id ∧ ∃ held, state.tree.standing? name = some (.class_ held)
  listing : ∀ name, state.tree.listing name = (none, none, none)

/-- A class that is declared stands under its name, and the other names are left alone. -/
theorem classesOnly_declareClass {state : State} (only : ClassesOnly config program state)
    (formed : state.Formed) (tidy : state.Tidy) {named : String} (plain : PlainName named)
    (written : program.DeclaresClass config named) (base : String) (range : Range)
    (links : state.tree.Links (declareClass config named base range state).tree) :
    ClassesOnly config program (declareClass config named base range state) := by
  obtain ⟨id, kind, writes, globals⟩ := writes_declareClass config plain base range formed tidy
  have known : ∀ name, (declareClass config named base range state).tree.classId? name =
      if name = named then some id else state.tree.classId? name := fun name => by
    rw [classId?, globals, OrderedMap.get?_insert, ← classId?]
  refine ⟨fun name absent => ?_, fun name owner found => ?_, fun name => ?_⟩
  · rw [known] at absent
    split at absent
    next => cases absent
    next apart => rw [writes.others apart, only.vacant name absent]
  · rw [known] at found
    split at found
    next same =>
      cases found
      rw [same]
      exact ⟨written, writes.hangs, kind, writes.stands⟩
    next apart =>
      obtain ⟨declared, hangs, stands⟩ := only.classes name owner found
      exact ⟨declared, links hangs, by rw [writes.others apart]; exact stands⟩
  · have listed := only.listing name
    simpa only [listing, globals] using listed

private theorem standing?_linkClass (tree : ScopeTree) (id : ScopeId) (name : String) :
    (linkClass tree id).standing? name = tree.standing? name ∨
      (∃ held, tree.standing? name = some (.class_ held)) ∧ ∃ held, (linkClass tree id).standing? name =
      some (.class_ held) := by
  unfold linkClass
  split
  next => exact .inl rfl
  next =>
    split
    next => exact .inl rfl
    next => exact standing?_modifyClass _ _ _ name

private theorem classesOnly_linkClass {state : State} (only : ClassesOnly config program state) (id : ScopeId)
    (links : state.tree.Links (linkClass state.tree id)) :
    ClassesOnly config program (state.withTree (linkClass state.tree id)) := by
  have globals : (linkClass state.tree id).globals = state.tree.globals := by
    unfold linkClass
    split
    next => rfl
    next => split <;> rfl
  refine ⟨fun name absent => ?_, fun name owner found => ?_, fun name => ?_⟩
  · rw [State.withTree, classId?_linkClass] at absent
    rcases standing?_linkClass state.tree id name with same | ⟨⟨held, stands⟩, _⟩
    · exact same.trans (only.vacant name absent)
    · rw [only.vacant name absent] at stands
      cases stands
  · rw [State.withTree, classId?_linkClass] at found
    obtain ⟨declared, hangs, stands⟩ := only.classes name owner found
    refine ⟨declared, links hangs, ?_⟩
    rcases standing?_linkClass state.tree id name with same | ⟨_, held⟩
    · rw [State.withTree, same]
      exact stands
    · exact held
  · have listed := only.listing name
    simpa only [listing, State.withTree, globals] using listed

private theorem classesOnly_declareStep (plain : program.Plain) {before after : State}
    (step : DeclareStep config program before after) (formed : before.Formed) (tidy : before.Tidy)
    (free : before.tree.Fieldless) (only : ClassesOnly config program before) :
    ClassesOnly config program after := by
  have links := links_declareStep plain step formed tidy free
  cases step with
  | class_ base range _ member written =>
    exact classesOnly_declareClass only formed tidy (plain _ member) written base range links
  | skip message range =>
    have same := before.tree_warn .structuralMismatch message range
    exact ⟨by
      rw [same]; exact only.vacant, by rw [same]; exact only.classes, by rw [same]; exact only.listing⟩
  | link id => exact classesOnly_linkClass only id links

theorem classesOnly_declared (config : DiscoveryConfig) (plain : program.Plain) :
    ClassesOnly config program (declared config program) := by
  refine declareSteps_keep plain (ClassesOnly config program) (classesOnly_declareStep plain) .refl
    (declared_steps config program)
    ⟨fun name _ => ?_, nofun, fun name => rfl⟩
  cases stands : (State.initial config).tree.standing? name with
  | none => rfl
  | some kind =>
    obtain ⟨id, entity, _, held, _⟩ := standing?_eq_some.1 stands
    rw [State.initial, entity?_new] at held
    cases held

private theorem indexes_declared (config : DiscoveryConfig) (plain : program.Plain) :
    Indexes (declared config program) [] := by
  obtain ⟨vacant, classes, listed⟩ := classesOnly_declared config plain
  refine ⟨formed_declared config program, tidy_declared config plain,
    fun name free => ⟨vacant name free, listed name⟩,
    fun name id known => ?_⟩
  obtain ⟨_, hangs, stands⟩ := classes name id known
  exact ⟨hangs, fun _ => stands, listed name⟩

/-- Once the top level is indexed, the tree holds of each name what the namings of the program make of it. -/
theorem indexes_indexed (config : DiscoveryConfig) (plain : program.Plain) :
    Indexes (indexed config program) (program.namings config) := by
  suffices ∀ (stmts : List Stmt) (state : State) (namings : List (String × Naming)),
    stmts ⊆ program.body → Indexes state namings →
      Indexes (stmts.foldl (indexStatement config) state)
        (namings ++ stmts.flatMap fun stmt => statementNamings config stmt.kind) by
    have whole := this program.body _ [] (List.Subset.refl _) (indexes_declared config plain)
    rw [List.nil_append] at whole
    exact whole
  intro stmts
  induction stmts with
  | nil => intro state namings _ indexes; simpa using indexes
  | cons stmt rest ih =>
    intro state namings within indexes
    rw [List.flatMap_cons, ← List.append_assoc]
    exact ih _ _ (fun other member => within (List.mem_cons_of_mem _ member))
      (indexes_indexStatement plain (within List.mem_cons_self) indexes)

/-- The classes of the index are those that the program declares. -/
theorem classId?_indexed (config : DiscoveryConfig) (plain : program.Plain) (name : String) :
    ((indexed config program).tree.classId? name).isSome = true ↔ program.DeclaresClass config name := by
  have kept : (indexed config program).tree.classId? name = (declared config program).tree.classId? name :=
    indexSteps_keep plain (fun state => state.tree.classId? name =
      (declared config program).tree.classId? name)
      (fun step formed _ same => (classId?_indexStep step formed name).trans same) .refl
      (indexed_steps config program) rfl
  rw [kept]
  constructor
  · intro known
    obtain ⟨id, found⟩ := Option.isSome_iff_exists.1 known
    exact ((classesOnly_declared config plain).classes name id found).1
  · intro declares
    obtain ⟨id, listed, hangs⟩ := owner_declared plain declares
    obtain ⟨other, _, enlisted, registered⟩ := registers_declared config plain id listed
    obtain ⟨_, rfl⟩ := (formed_declared config program).tree.child_unique hangs enlisted.hangs
    exact Option.isSome_of_eq_some registered

end LuaClasses.Discovery
