import LuaClasses.Discovery.Run
import LuaClasses.Proofs.Names
import Mathlib.Logic.Relation

/-! The entry of classes and members as steps between states. Classes are declared first, then
the top level is indexed, then the members of each class are defined. The steps use names of the
program only, so what every step keeps holds when the first sweep begins. -/

namespace LuaClasses

/-- Whether the top level declares a function of a plain name. -/
def Program.DeclaresFunction (program : Program) (name : String) : Prop :=
  ∃ stmt ∈ program.body, ∃ written isLocal body,
    stmt.kind = .function written isLocal body ∧ written.plain? = some name

/-- Whether the top level defines a function as a member of what a name stands for, in a
declaration or in an assignment. -/
def Program.DefinesFunction (program : Program) (base name : String) : Prop :=
  ∃ stmt ∈ program.body,
    (∃ indexer body, stmt.kind = .function (.ofMember base indexer name) false body) ∨
    ∃ targets values target value object body, stmt.kind = .assign targets values ∧
      (target, value) ∈ targets.zip values ∧ target.unparen = .member object name ∧
      object.name? = some base ∧ value.unparen = .function body

/-- Whether a statement of the top level declares a class of a name. -/
def Program.DeclaresClass (program : Program) (config : DiscoveryConfig) (name : String) : Prop :=
  ∃ stmt ∈ program.body, ∃ targets values value, Discovery.bindings? stmt.kind = some (targets, values) ∧
    (some name, value) ∈ targets.zip values ∧ (Discovery.deriveBase? config value).isSome = true

namespace Discovery
open Relation

variable (config : DiscoveryConfig) (program : Program)

/-- The state in which the classes are declared. -/
def declared : State := declareClasses config program (.initial config)

/-- The state in which the top level is indexed. -/
def indexed : State := program.body.foldl (indexStatement config) (declared config program)

/-- The state in which the members of all classes are defined. -/
def defined : State :=
  ((indexed config program).classes.map ClassBodies.owner).foldl (defineMembers config program)
    (indexed config program)

/-- The state from which the sweeps start. -/
def seeded : State := enterMembers config program (declared config program)

theorem seeded_eq : seeded config program =
    (defined config program).classes.foldl (fun state bodies => (walkMethods config bodies state).1)
      (defined config program) := rfl

inductive DeclareStep : State → State → Prop
  | class_ {name : String} (base : String) (range : Range) (state : State) (named : name ∈ program.names)
      (written : program.DeclaresClass config name) :
      DeclareStep state (declareClass config name base range state)
  | skip (message : String) (range : Option Range) (state : State) :
      DeclareStep state (state.warn .structuralMismatch message range)
  | link (id : ScopeId) (state : State) : DeclareStep state (state.withTree (linkClass state.tree id))

inductive IndexStep : State → State → Prop
  | function {name : String} {body : FunctionBody} (range : Range) {state : State}
    (named : name ∈ program.names)
      (within : bodyNames body ⊆ program.names)
      (free : program.DeclaresFunction name ∨ state.tree.classId? name = none) :
      IndexStep state (declareGlobalFunction name body range state)
  | table {name : String} {state : State} (named : name ∈ program.names)
    (free : state.tree.classId? name = none) :
      IndexStep state (state.withTree (declareGlobalTable name state.tree))
  | value {name : String} (value : Option Expr) (range : Range) {state : State} (named : name ∈ program.names)
      (free : state.tree.classId? name = none) :
      IndexStep state (state.withTree (declareGlobalValue config name value range state.tree))
  | member {base name : String} (value : Option Expr) (range : Range) {state : State}
      (owned : base ∈ program.names) (named : name ∈ program.names)
      (table : isGlobalTable state.tree base = true) :
      IndexStep state (state.withTree (assignMember state.tree (.at_ ScopeTree.root) base name
        (classifyValue config state.tree (.at_ ScopeTree.root) value) range).1)

inductive DefineStep (owner : ScopeId) (ownerName : String) : State → State → Prop
  | constructor {body : FunctionBody} (range : Range) (state : State)
    (within : bodyNames body ⊆ program.names) :
      DefineStep owner ownerName state (defineConstructor owner ownerName body range state)
  | function {name : String} (indexer : Indexer) {body : FunctionBody} (range : Range) (state : State)
      (named : name ∈ program.names) (within : bodyNames body ⊆ program.names)
      (written : program.DefinesFunction ownerName name) (other : name ≠ config.constructorName) :
      DefineStep owner ownerName state (defineFunction owner name indexer body range state)
  | value {name : String} (value : Option Expr) (range : Range) (state : State)
    (named : name ∈ program.names) :
      DefineStep owner ownerName state (state.withTree (defineValue config owner name value range state.tree))

/-! ### The phases make their steps -/

/-- A loop makes steps if each of its turns does. -/
theorem foldl_steps {α : Type} {step : State → State → Prop} {turn : State → α → State} (items : List α)
    (each : ∀ item ∈ items, ∀ state, ReflTransGen step state (turn state item)) (state : State) :
    ReflTransGen step state (items.foldl turn state) := by
  induction items generalizing state with
  | nil => exact .refl
  | cons item rest ih =>
    exact (each item List.mem_cons_self state).trans
      (ih (fun other member => each other (List.mem_cons_of_mem _ member)) _)

theorem declareBindings_steps (range : Range) {targets : List (Option String)}
    (named : ∀ name, some name ∈ targets → name ∈ program.names) {values : List Expr}
    (written : ∀ name value, (some name, value) ∈ targets.zip values →
      (deriveBase? config value).isSome = true →
      program.DeclaresClass config name) (state : State) :
    ReflTransGen (DeclareStep config program) state (declareBindings config range targets values state) := by
  induction values generalizing targets state with
  | nil => unfold declareBindings; exact .refl
  | cons value rest ih =>
    unfold declareBindings
    refine .trans ?_ (ih (fun name member => named name (List.mem_of_mem_tail member))
      (fun name value member => ?_) _)
    · cases derived : deriveBase? config value with
      | none => exact .refl
      | some base =>
        cases first : targets.head?.join with
        | none => exact .single (.skip _ _ state)
        | some name =>
          have head := Option.join_eq_some_iff.1 first
          obtain ⟨others, rfl⟩ := List.head?_eq_some_iff.1 head
          exact .single (.class_ base range state (named name List.mem_cons_self)
            (written name value List.mem_cons_self (Option.isSome_of_eq_some derived)))
    · cases targets with
      | nil => cases member
      | cons first others => exact written name value (List.mem_cons_of_mem _ member)

theorem named_bindings {stmt : Stmt} (member : stmt ∈ program.body) {targets : List (Option String)}
    {values : List Expr} (bound : bindings? stmt.kind = some (targets, values)) (name : String)
    (target : some name ∈ targets) :
    name ∈ program.names := by
  have within := stmtNames_subset member
  obtain ⟨kind, range⟩ := stmt
  cases kind with
  | local_ names values =>
    cases bound
    obtain ⟨other, present, same⟩ := List.mem_map.1 target
    cases same
    exact within (List.mem_append_left _ present)
  | assign targets values =>
    cases bound
    obtain ⟨expr, present, same⟩ := List.mem_map.1 target
    exact within (List.mem_append_left _ (exprNames_subset present (Expr.name_mem_names same)))
  | _ => cases bound

theorem declareStatement_steps {stmt : Stmt} (member : stmt ∈ program.body) (state : State) :
    ReflTransGen (DeclareStep config program) state (declareStatement config state stmt) := by
  unfold declareStatement
  split
  next targets values bound =>
    exact declareBindings_steps config program stmt.range (named_bindings program member bound)
      (fun name value opposite derived => ⟨stmt, member, targets, values, value, bound,
        opposite, derived⟩) state
  next => exact .refl

theorem linkClasses_steps (owners : List ScopeId) (state : State) :
    ReflTransGen (DeclareStep config program) state (state.withTree (owners.foldl linkClass state.tree)) := by
  induction owners generalizing state with
  | nil => exact .refl
  | cons owner rest ih => exact .head (.link owner state) (ih (state.withTree (linkClass state.tree owner)))

theorem declared_steps :
    ReflTransGen (DeclareStep config program) (.initial config) (declared config program) :=
  (foldl_steps program.body (fun _ member state => declareStatement_steps config program member state)
    (.initial config)).trans
    (linkClasses_steps config program _ _)

/-- What the values of a statement hold is found in the program. -/
theorem declareGlobal_steps {name : String} {value : Option Expr} (range : Range) (state : State)
    (named : name ∈ program.names) (within : ∀ expr, value = some expr → expr.names ⊆ program.names) :
    ReflTransGen (IndexStep config program) state (declareGlobal config name value range state) := by
  unfold declareGlobal
  split
  next => exact .refl
  next given =>
    have free : state.tree.classId? name = none := by
      simp only [Bool.or_eq_true, not_or, Bool.not_eq_true, Option.isSome_eq_false_iff,
        Option.isNone_iff_eq_none]
        at given
      exact given.2
    split
    next body same =>
      obtain ⟨expr, rfl, unparen⟩ := Option.map_eq_some_iff.1 same
      refine .single (.function range named (fun other member => ?_) (.inr free))
      refine within expr rfl ?_
      rw [← Expr.names_unparen, unparen]
      exact member
    next => exact .single (.table named free)
    next => exact .single (.value value range named free)

theorem declareGlobals_steps (range : Range) {names : List String} {values : List Expr} (state : State)
    (named : names ⊆ program.names) (within : ∀ expr ∈ values, expr.names ⊆ program.names) :
    ReflTransGen (IndexStep config program) state (declareGlobals config range names values state) := by
  induction names generalizing values state with
  | nil => exact .refl
  | cons name rest ih =>
    refine (declareGlobal_steps config program range state (named List.mem_cons_self)
      fun expr first => ?_).trans
      (ih _ (fun other member => named (List.mem_cons_of_mem _ member)) fun expr member => ?_)
    · exact within expr (List.mem_of_mem_head? first)
    · exact within expr (List.mem_of_mem_tail member)

theorem indexTarget_steps {target : Expr} {value : Option Expr} (range : Range) (state : State)
    (named : target.names ⊆ program.names) (within : ∀ expr, value = some expr → expr.names ⊆ program.names) :
    ReflTransGen (IndexStep config program) state (indexTarget config target value range state) := by
  rw [← Expr.names_unparen] at named
  unfold indexTarget
  split
  next name same =>
    rw [same] at named
    exact declareGlobal_steps config program range state (named List.mem_cons_self) within
  next object name same =>
    rw [same] at named
    split
    next => exact .refl
    next base base? =>
      split
      next table =>
        refine .single (.member value range (named ?_) (named ?_) table)
        · exact List.mem_append_left _ (Expr.name_mem_names base?)
        · exact List.mem_append_right _ (List.mem_singleton_self name)
      next => exact .refl
  next => exact .refl

theorem indexTargets_steps (range : Range) {targets values : List Expr} (state : State)
    (named : ∀ expr ∈ targets, expr.names ⊆ program.names)
    (within : ∀ expr ∈ values, expr.names ⊆ program.names) :
    ReflTransGen (IndexStep config program) state (indexTargets config range targets values state) := by
  induction targets generalizing values state with
  | nil => exact .refl
  | cons target rest ih =>
    refine (indexTarget_steps config program range state (named target List.mem_cons_self)
      fun expr first => ?_).trans
      (ih _ (fun other member => named other (List.mem_cons_of_mem _ member)) fun expr member => ?_)
    · exact within expr (List.mem_of_mem_head? first)
    · exact within expr (List.mem_of_mem_tail member)

theorem indexStatement_steps {stmt : Stmt} (member : stmt ∈ program.body) (state : State) :
    ReflTransGen (IndexStep config program) state (indexStatement config state stmt) := by
  have within := stmtNames_subset member
  obtain ⟨kind, range⟩ := stmt
  cases kind with
  | function written isLocal body =>
    simp only [indexStatement]
    split
    next name plain =>
      have same := FunctionName.plain?_eq_some.1 plain
      subst same
      refine .single (.function range (within ?_) (fun other held => within ?_)
        (.inl ⟨_, member, _, _, _, rfl, plain⟩))
      · exact List.mem_append_left _ (List.mem_append_left _ (List.mem_singleton_self name))
      · exact List.mem_append_right _ held
    next => exact .refl
  | local_ names values =>
    exact declareGlobals_steps config program range state
      (fun name held => within (List.mem_append_left _ held))
      fun expr held => List.Subset.trans (exprNames_subset held) fun name inside =>
        within (List.mem_append_right _ inside)
  | assign targets values =>
    exact indexTargets_steps config program range state
      (fun expr held => List.Subset.trans (exprNames_subset held) fun name inside =>
        within (List.mem_append_left _ inside))
      fun expr held => List.Subset.trans (exprNames_subset held) fun name inside =>
        within (List.mem_append_right _ inside)
  | _ => exact .refl

theorem indexed_steps :
    ReflTransGen (IndexStep config program) (declared config program) (indexed config program) :=
  foldl_steps program.body (fun _ member state => indexStatement_steps config program member state) _

section Define

variable {owner : ScopeId} {ownerName : String}

theorem defineTarget_steps {target : Expr} {value : Option Expr} (range : Range) (state : State)
    (named : target.names ⊆ program.names) (within : ∀ expr, value = some expr → expr.names ⊆ program.names)
    (written : ∀ expr object name body, value = some expr → target.unparen = .member object name →
      object.name? = some ownerName → expr.unparen = .function body →
        program.DefinesFunction ownerName name) :
    ReflTransGen (DefineStep config program owner ownerName) state
      (defineTarget config owner ownerName target value range state) := by
  rw [← Expr.names_unparen] at named
  unfold defineTarget
  split
  next object name same =>
    rw [same] at named
    have member : name ∈ program.names := named (List.mem_append_right _ (List.mem_singleton_self name))
    split
    next base =>
      split
      next body unparen =>
        obtain ⟨expr, rfl, function⟩ := Option.map_eq_some_iff.1 unparen
        have inside : bodyNames body ⊆ program.names := by
          intro other held
          refine within expr rfl ?_
          rw [← Expr.names_unparen, function]
          exact held
        split
        next => exact .single (.constructor range state inside)
        next apart =>
          exact .single (.function .dot range state member inside
            (written expr object name body rfl same base function) apart)
      next => exact .single (.value _ range state member)
    next => exact .refl
  next => exact .refl

theorem defineTargets_steps (range : Range) {targets values : List Expr} (state : State)
    (named : ∀ expr ∈ targets, expr.names ⊆ program.names)
    (within : ∀ expr ∈ values, expr.names ⊆ program.names)
    (written : ∀ target value object name body, (target, value) ∈ targets.zip values →
      target.unparen = .member object name → object.name? = some ownerName → value.unparen = .function body →
      program.DefinesFunction ownerName name) :
    ReflTransGen (DefineStep config program owner ownerName) state
      (defineTargets config owner ownerName range targets values state) := by
  induction targets generalizing values state with
  | nil => exact .refl
  | cons target rest ih =>
    refine (defineTarget_steps config program range state
      (named target List.mem_cons_self) (fun expr first => ?_)
      fun expr object name body first => ?_).trans
        (ih _ (fun other member => named other (List.mem_cons_of_mem _ member))
        (fun expr member => ?_) fun other value object name body member => ?_)
    · exact within expr (List.mem_of_mem_head? first)
    · cases values <;> cases first
      exact written target _ object name body List.mem_cons_self
    · exact within expr (List.mem_of_mem_tail member)
    · cases values with
      | nil => simp at member
      | cons first others => exact written other value object name body (List.mem_cons_of_mem _ member)

theorem defineStatement_steps {stmt : Stmt} (member : stmt ∈ program.body) (state : State) :
    ReflTransGen (DefineStep config program owner ownerName) state
      (defineStatement config owner ownerName state stmt) := by
  have within := stmtNames_subset member
  obtain ⟨kind, range⟩ := stmt
  cases kind with
  | function written isLocal body =>
    cases isLocal with
    | true => exact .refl
    | false =>
      simp only [defineStatement]
      split
      next base indexer name found =>
        have same := FunctionName.member?_eq_some.1 found
        subst same
        have inside : bodyNames body ⊆ program.names := fun other held =>
          within (List.mem_append_right _ held)
        split
        next based =>
          subst based
          split
          next => exact .single (.constructor range state inside)
          next apart =>
            refine .single (.function indexer range state (within (List.mem_append_left _ ?_)) inside
              ⟨_, member, .inl ⟨indexer, body, rfl⟩⟩ apart)
            cases indexer <;> simp [FunctionName.ofMember]
        next => exact .refl
      next => exact .refl
  | assign targets values =>
    refine defineTargets_steps config program range state
      (fun expr held => List.Subset.trans (exprNames_subset held) fun name inside =>
        within (List.mem_append_left _ inside))
      (fun expr held => List.Subset.trans (exprNames_subset held) fun name inside =>
        within (List.mem_append_right _ inside)) ?_
    intro target value object name body opposite asMember base function
    exact ⟨_, member, .inr ⟨targets, values, target, value, object, body, rfl, opposite,
      asMember, base, function⟩⟩
  | _ => exact .refl

/-- The members of a class are defined under the name that it has when they begin. -/
theorem defineMembers_steps {state : State} {held : Class} (found : state.tree.classAt? owner = some held) :
    ReflTransGen (DefineStep config program owner held.name) state
      (defineMembers config program state owner) := by
  simp only [defineMembers, found]
  exact foldl_steps program.body (fun _ member state =>
    defineStatement_steps config program member state) state

theorem defineMembers_outside {state : State} (absent : state.tree.classAt? owner = none) :
    defineMembers config program state owner = state := by
  simp only [defineMembers, absent]

end Define

/-! ### What the steps leave of the bodies -/

/-- A change to the bodies of one class keeps what it keeps of each. -/
theorem map_modifyBodies {α : Type} (view : ClassBodies → α) (state : State) (owner : ScopeId)
    {f : ClassBodies → ClassBodies} (same : ∀ bodies, view (f bodies) = view bodies) :
    (state.modifyBodies owner f).classes.map view = state.classes.map view := by
  simp only [State.modifyBodies, List.map_map]
  refine List.map_congr_left fun bodies _ => ?_
  simp only [Function.comp]
  split
  next => exact same bodies
  next => rfl

end Discovery
end LuaClasses
