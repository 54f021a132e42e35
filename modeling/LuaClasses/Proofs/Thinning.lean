import LuaClasses.Proofs.MemberForms

/-! Programs without the constructors that others replace. What is left out is nothing but definitions of
one class, and the classes and the top level are the same without them. The problems that may go with them
are read off those definitions: each is one that the text of a definition can cause. -/

namespace LuaClasses

/-- Whether a statement defines the constructor of a class and nothing else. -/
def Stmt.definesConstructor (config : DiscoveryConfig) (ownerName : String) (stmt : Stmt) : Bool :=
  match stmt.kind with
  | .function name false _ =>
    match name.member? with
    | some (base, _, member) => base = ownerName && member = config.constructorName
    | none => false
  | .assign [target] [value] =>
    match target.unparen, value.unparen with
    | .member object name, .function _ => object.name? = some ownerName && name = config.constructorName
    | _, _ => false
  | _ => false

/-- Statements without the definitions of the constructor of a class that a later one replaces. -/
def lastConstructorOnly (config : DiscoveryConfig) (ownerName : String) : List Stmt → List Stmt
  | [] => []
  | stmt :: rest =>
    if stmt.definesConstructor config ownerName ∧ rest.any (Stmt.definesConstructor config ownerName) then
      lastConstructorOnly config ownerName rest
    else stmt :: lastConstructorOnly config ownerName rest

/-- The definitions of the constructor of a class that a later one replaces. -/
def replacedConstructors (config : DiscoveryConfig) (ownerName : String) : List Stmt → List Stmt
  | [] => []
  | stmt :: rest =>
    if stmt.definesConstructor config ownerName ∧ rest.any (Stmt.definesConstructor config ownerName) then
      stmt :: replacedConstructors config ownerName rest
    else replacedConstructors config ownerName rest

/-- A program with the last one of the constructors of a class only. -/
def Program.lastConstructorOnly (config : DiscoveryConfig) (ownerName : String) (program : Program) :
    Program :=
  { body := LuaClasses.lastConstructorOnly config ownerName program.body }

/-! ### Problems of constructors -/

/-- The kinds of problem that a definition causes which another replaces. -/
def DiagnosticKind.ofDefinition : DiagnosticKind → Bool
  | .duplicateDefinition => true
  | .missingSelfAlias => true
  | _ => false

namespace Discovery

/-- The problem of a constructor that replaces another. -/
def replacement (ownerName : String) (range : Range) : Diagnostic :=
  ⟨.duplicateDefinition, s!"constructor of `{ownerName}` redefined", some range⟩

/-- The problems of fields whose names are given before. -/
def repeatedFields : List (String × LuaType × Range) → List String → List Diagnostic
  | [], _ => []
  | (name, _, range) :: rest, seen =>
    let later := repeatedFields rest (name :: seen)
    if name ∈ seen then ⟨.duplicateDefinition, s!"field `{name}` redefined", some range⟩ :: later else later

/-- The problems that the definition of a constructor may cause. -/
def constructorProblems (ownerName : String) (body : FunctionBody) (range : Range) : List Diagnostic :=
  replacement ownerName range ::
    match selfAlias? body.body with
    | some _ => repeatedFields (FunctionBody.literals body) []
    | none =>
      [⟨.missingSelfAlias, s!"constructor of `{ownerName}` has no trailing `return <identifier>`",
        some range⟩]

/-- The problems that a definition of a class may cause if it is one of the constructor. -/
def MemberStep.problems (ownerName : String) : MemberStep → List Diagnostic
  | .function _ _ body range => constructorProblems ownerName body range
  | .value _ _ _ => []

/-- The problem of the first constructor among definitions, if it replaces another. -/
def firstReplacement (config : DiscoveryConfig) (ownerName : String) : List MemberStep → List Diagnostic
  | [] => []
  | .function _ name _ range :: rest =>
    if name = config.constructorName then [replacement ownerName range]
    else firstReplacement config ownerName rest
  | .value _ _ _ :: rest => firstReplacement config ownerName rest

/-- The problems of the definitions of a constructor that others replace, and the one of the definition
that is the first without them. -/
def replacedProblems (config : DiscoveryConfig) (ownerName : String) (program : Program) : List Diagnostic :=
  ((replacedConstructors config ownerName program.body).flatMap (memberSteps ownerName)).flatMap
      (MemberStep.problems ownerName) ++
    firstReplacement config ownerName
      ((program.lastConstructorOnly config ownerName).memberSteps ownerName)

theorem repeatedFields_cons_subset {name : String} {type : LuaType} {range : Range}
    {rest : List (String × LuaType × Range)} {seen : List String} {gone : List Diagnostic} :
    repeatedFields ((name, type, range) :: rest) seen ⊆ gone ↔
      (name ∈ seen → (⟨.duplicateDefinition, s!"field `{name}` redefined", some range⟩ : Diagnostic) ∈ gone) ∧
        repeatedFields rest (name :: seen) ⊆ gone := by
  rw [repeatedFields]
  split
  next known => rw [List.cons_subset, imp_iff_right known]
  next fresh => rw [and_iff_right fun known => absurd known fresh]

private theorem kind_repeatedFields {fields : List (String × LuaType × Range)} {seen : List String}
    {problem : Diagnostic} (member : problem ∈ repeatedFields fields seen) :
    problem.kind = .duplicateDefinition := by
  induction fields generalizing seen with
  | nil => cases member
  | cons field rest ih =>
    rw [repeatedFields] at member
    split at member
    next =>
      rcases List.mem_cons.1 member with rfl | later
      · rfl
      · exact ih later
    next => exact ih member

private theorem kind_constructorProblems {ownerName : String} {body : FunctionBody} {range : Range}
    {problem : Diagnostic} (member : problem ∈ constructorProblems ownerName body range) :
    problem.kind.ofDefinition = true := by
  rcases List.mem_cons.1 member with rfl | own
  · rfl
  · split at own
    next => rw [kind_repeatedFields own, DiagnosticKind.ofDefinition]
    next =>
      rw [List.mem_singleton.1 own]
      rfl

theorem firstReplacement_cons {config : DiscoveryConfig} {ownerName : String} {step : MemberStep}
    {rest : List MemberStep} (other : step.definition? config.constructorName = none) :
    firstReplacement config ownerName (step :: rest) = firstReplacement config ownerName rest := by
  cases step with
  | value => rfl
  | function indexer name body range => exact if_neg fun same => nomatch (if_pos same).symm.trans other

private theorem kind_firstReplacement {config : DiscoveryConfig} {ownerName : String}
    {steps : List MemberStep} {problem : Diagnostic}
    (member : problem ∈ firstReplacement config ownerName steps) : problem.kind.ofDefinition = true := by
  induction steps with
  | nil => cases member
  | cons step rest ih =>
    cases step with
    | value => exact ih member
    | function indexer name body range =>
      rw [firstReplacement] at member
      split at member
      next =>
        rw [List.mem_singleton.1 member]
        rfl
      next => exact ih member

/-- All of them are about definitions that stand twice or lack a name for the instance. -/
theorem kind_replacedProblems {config : DiscoveryConfig} {ownerName : String} {program : Program}
    {problem : Diagnostic} (member : problem ∈ replacedProblems config ownerName program) :
    problem.kind.ofDefinition = true := by
  rcases List.mem_append.1 member with replaced | first
  · obtain ⟨step, _, caused⟩ := List.mem_flatMap.1 replaced
    cases step with
    | function => exact kind_constructorProblems caused
    | value => cases caused
  · exact kind_firstReplacement first

/-! ### Definitions without those that others replace -/

/-- The definitions of a class, and what is left of them without some constructors that others replace.
Until the next constructor that is kept, more has been left out of the second list than of the first if
the class is opened. -/
inductive Thinned (config : DiscoveryConfig) (leaves : MemberStep → Prop) :
    Bool → List MemberStep → List MemberStep → Prop
  | nil : Thinned config leaves false [] []
  | keep {opened : Bool} {step : MemberStep} {rest more : List MemberStep}
    (other : step.definition? config.constructorName = none)
    (tail : Thinned config leaves opened rest more) :
    Thinned config leaves opened (step :: rest) (step :: more)
  | replace {opened : Bool} {rest more : List MemberStep} (indexer : Indexer)
    (body : FunctionBody) (range : Range)
    (tail : Thinned config leaves false rest more) : Thinned config leaves opened
      (.function indexer config.constructorName body range :: rest)
      (.function indexer config.constructorName body range :: more)
  | drop {opened : Bool} {rest more : List MemberStep} (indexer : Indexer)
    (body : FunctionBody) (range : Range)
    (left : leaves (.function indexer config.constructorName body range))
    (tail : Thinned config leaves true rest more) :
      Thinned config leaves opened (.function indexer config.constructorName body range :: rest) more

private theorem lastDefinition?_cons (step : MemberStep) (steps : List MemberStep) (member : String) :
    lastDefinition? (step :: steps) member = (lastDefinition? steps member).or (step.definition? member) := by
  simp only [lastDefinition?, List.reverse_cons, List.findSome?_append, List.findSome?_singleton]

namespace Thinned

variable {config : DiscoveryConfig} {leaves : MemberStep → Prop} {opened : Bool} {rest more : List MemberStep}

theorem append (both : Thinned config leaves false rest more)
    (tail : Thinned config leaves opened rest more) (steps : List MemberStep) :
    Thinned config leaves opened (steps ++ rest) (steps ++ more) := by
  induction steps generalizing opened with
  | nil => exact tail
  | cons step later ih =>
    cases defined : step.definition? config.constructorName with
    | none => exact .keep defined (ih tail)
    | some definition =>
      cases step with
      | value name value range => cases defined
      | function indexer name body range =>
        obtain ⟨rfl, _⟩ := Option.ite_none_right_eq_some.1 defined
        exact .replace indexer body range (ih both)

theorem refl (config : DiscoveryConfig) (leaves : MemberStep → Prop) (steps : List MemberStep) :
    Thinned config leaves false steps steps := by
  have whole : Thinned config leaves false (steps ++ []) (steps ++ []) := append .nil .nil steps
  rwa [List.append_nil] at whole

/-- The same constructor stands in the end. -/
theorem lastDefinition?_eq (thinned : Thinned config leaves opened rest more) :
    lastDefinition? rest config.constructorName = lastDefinition? more config.constructorName ∧
      (opened = true → (lastDefinition? more config.constructorName).isSome = true) := by
  have defines : ∀ indexer body range,
      (MemberStep.function indexer config.constructorName body range).definition?
      config.constructorName = some (indexer, body) :=
    fun _ _ _ => if_pos rfl
  induction thinned with
  | nil => exact ⟨rfl, nofun⟩
  | keep other _ ih =>
    rw [lastDefinition?_cons, lastDefinition?_cons, other, Option.or_none, Option.or_none]
    exact ih
  | replace indexer body range _ ih =>
    rw [lastDefinition?_cons, lastDefinition?_cons, ih.1, defines]
    refine ⟨rfl, fun _ => ?_⟩
    cases lastDefinition? _ _ <;> rfl
  | drop indexer body range _ _ ih =>
    have known := ih.2 rfl
    rw [lastDefinition?_cons, ih.1, Option.or_of_isSome known]
    exact ⟨rfl, fun _ => known⟩

end Thinned

end Discovery

section Statements

open Discovery

variable {config : DiscoveryConfig} {program : Program} {ownerName : String}

/-- The ways to define a constructor on its own. -/
inductive StmtKind.Constructs (config : DiscoveryConfig) (ownerName : String) (body : FunctionBody) :
    StmtKind → Prop
  | declared (indexer : Indexer) :
    Constructs config ownerName body (.function
      (.ofMember ownerName indexer config.constructorName) false body)
  | assigned {target object value : Expr} (member : target.unparen = .member object config.constructorName)
    (base : object.name? = some ownerName) (function : value.unparen = .function body) :
    Constructs config ownerName body (.assign [target] [value])

theorem Stmt.constructs {stmt : Stmt} (defines : stmt.definesConstructor config ownerName = true) :
    ∃ body, stmt.kind.Constructs config ownerName body := by
  obtain ⟨kind, range⟩ := stmt
  unfold definesConstructor at defines
  split at defines
  next written body same =>
    cases same
    split at defines
    next base indexer member found =>
      simp only [Bool.and_eq_true, decide_eq_true_eq] at defines
      obtain ⟨rfl, rfl⟩ := defines
      obtain rfl := FunctionName.member?_eq_some.1 found
      exact ⟨body, .declared indexer⟩
    next => cases defines
  next target value same =>
    cases same
    split at defines
    next object name body member function =>
      simp only [Bool.and_eq_true, decide_eq_true_eq] at defines
      obtain ⟨base, rfl⟩ := defines
      exact ⟨body, .assigned member base function⟩
    next => cases defines
  next => cases defines

variable {body : FunctionBody} {stmt : Stmt} (constructs : stmt.kind.Constructs config ownerName body)
include constructs

private theorem declareStatement_constructs (state : State) : declareStatement config state stmt = state := by
  obtain ⟨kind, range⟩ := stmt
  cases constructs with
  | declared => rfl
  | assigned _ _ function =>
    simp only [declareStatement, bindings?, declareBindings, deriveBase?, function]

private theorem indexStatement_constructs {state : State}
    (other : isGlobalTable state.tree ownerName = false) :
    indexStatement config state stmt = state := by
  obtain ⟨kind, range⟩ := stmt
  cases constructs with
  | declared indexer => cases indexer <;> rfl
  | assigned member base =>
    simp only [indexStatement, indexTargets, indexTarget, member, base, other, Bool.false_eq_true, if_false]

private theorem memberSteps_constructs (name : String) :
    ∃ indexer, Discovery.memberSteps name stmt =
      if ownerName = name then [.function indexer config.constructorName body stmt.range] else [] := by
  obtain ⟨kind, range⟩ := stmt
  cases constructs with
  | declared indexer =>
    refine ⟨indexer, ?_⟩
    rw [Discovery.memberSteps]
    cases indexer <;> rfl
  | assigned member base function =>
    refine ⟨.dot, ?_⟩
    simp only [Discovery.memberSteps, opposite, List.filterMap_cons, List.filterMap_nil, targetStep?,
      member, base, List.head?_cons,
      Option.map_some, function, Option.some.injEq]
    by_cases same : ownerName = name
    · rw [if_pos same, if_pos same]
    · rw [if_neg same, if_neg same]

end Statements

/-! ### Whole programs -/

section Whole

open Discovery

variable (config : DiscoveryConfig) (ownerName : String)

private theorem lastConstructorOnly_subset (stmts : List Stmt) :
    lastConstructorOnly config ownerName stmts ⊆ stmts := by
  induction stmts with
  | nil => exact List.Subset.refl _
  | cons stmt rest ih =>
    rw [lastConstructorOnly]
    split
    next => exact List.subset_cons_of_subset _ ih
    next => exact List.cons_subset_cons _ ih

theorem stmtsNames_mono {stmts more : List Stmt} (within : stmts ⊆ more) :
    stmtsNames stmts ⊆ stmtsNames more := by
  induction stmts with
  | nil => exact List.nil_subset _
  | cons stmt rest ih =>
    rw [List.cons_subset] at within
    exact List.append_subset.2 ⟨stmtNames_subset within.1, ih within.2⟩

theorem names_lastConstructorOnly (program : Program) :
    (program.lastConstructorOnly config ownerName).names ⊆ program.names :=
  stmtsNames_mono (lastConstructorOnly_subset config ownerName program.body)

variable {config ownerName}

/-- A pass over the top level does nothing at the statements that are left out. -/
theorem foldl_lastConstructorOnly {step : State → Stmt → State} (holds : State → Prop)
    {stmts : List Stmt} (keeps : ∀ stmt ∈ stmts, ∀ state, holds state → holds (step state stmt))
    (idle : ∀ stmt ∈ stmts, stmt.definesConstructor config ownerName = true → ∀ state,
      holds state → step state stmt = state)
    {state : State} (known : holds state) :
    (lastConstructorOnly config ownerName stmts).foldl step state = stmts.foldl step state := by
  induction stmts generalizing state with
  | nil => rfl
  | cons stmt rest ih =>
    have later : ∀ {state}, holds state → (lastConstructorOnly config ownerName rest).foldl step
        state = rest.foldl step state :=
      ih (fun one member => keeps one (List.mem_cons_of_mem _ member))
        (fun one member => idle one (List.mem_cons_of_mem _ member))
    rw [lastConstructorOnly, List.foldl_cons]
    split
    next left => rw [idle stmt List.mem_cons_self left.1 state known, later known]
    next => rw [List.foldl_cons, later (keeps stmt List.mem_cons_self state known)]

private theorem declared_lastConstructorOnly (program : Program) :
    declared config (program.lastConstructorOnly config ownerName) = declared config program := by
  rw [declared, declareClasses, declared, declareClasses, Program.lastConstructorOnly,
    foldl_lastConstructorOnly (fun _ => True) (fun _ _ _ _ => trivial)
      (fun stmt _ defines state _ => ?_) trivial]
  obtain ⟨_, constructs⟩ := Stmt.constructs defines
  exact declareStatement_constructs constructs state

theorem indexed_lastConstructorOnly {program : Program} (dotless : ∀ name ∈ program.names, '.' ∉ name.toList)
    (declares : program.DeclaresClass config ownerName) :
    indexed config (program.lastConstructorOnly config ownerName) = indexed config program := by
  rw [indexed, declared_lastConstructorOnly, indexed, Program.lastConstructorOnly]
  refine foldl_lastConstructorOnly (fun state => Indexing config program state)
    (fun stmt member state indexing => ?_)
    (fun stmt _ defines state indexing => ?_) (.declared config dotless)
  · exact indexing.steps dotless (indexStatement_steps config program member state)
  · obtain ⟨_, constructs⟩ := Stmt.constructs defines
    exact indexStatement_constructs constructs (indexing.isGlobalTable dotless declares)

/-- The definitions of every class but the one are the same. -/
theorem memberSteps_lastConstructorOnly {name : String} (other : ownerName ≠ name) (stmts : List Stmt) :
    (lastConstructorOnly config ownerName stmts).flatMap (Discovery.memberSteps name) =
      stmts.flatMap (Discovery.memberSteps name) := by
  induction stmts with
  | nil => rfl
  | cons stmt rest ih =>
    rw [lastConstructorOnly, List.flatMap_cons]
    split
    next left =>
      obtain ⟨_, constructs⟩ := Stmt.constructs left.1
      obtain ⟨_, steps⟩ := memberSteps_constructs constructs name
      rw [if_neg other] at steps
      rw [steps, List.nil_append, ih]
    next => rw [List.flatMap_cons, ih]

/-- Of the definitions of the one class, constructors are left out as long as another follows. -/
theorem thinned_statements {leaves : MemberStep → Prop} {opened : Bool} {stmts : List Stmt}
    (last : opened = true → stmts.any (Stmt.definesConstructor config ownerName) = true)
    (replaced : ∀ step ∈ (replacedConstructors config ownerName stmts).flatMap (Discovery.memberSteps ownerName), leaves step)
    :
    Thinned config leaves opened (stmts.flatMap (Discovery.memberSteps ownerName))
      ((lastConstructorOnly config ownerName stmts).flatMap (Discovery.memberSteps ownerName)) := by
  induction stmts generalizing opened with
  | nil =>
    cases opened with
    | false => exact .nil
    | true => cases last rfl
  | cons stmt rest ih =>
    rw [replacedConstructors] at replaced
    rw [lastConstructorOnly, List.flatMap_cons]
    by_cases defines : stmt.definesConstructor config ownerName = true
    · obtain ⟨body, constructs⟩ := Stmt.constructs defines
      obtain ⟨indexer, steps⟩ := memberSteps_constructs constructs ownerName
      rw [if_pos rfl] at steps
      split
      next left =>
        rw [if_pos left, List.flatMap_cons, steps] at replaced
        obtain ⟨own, others⟩ := List.forall_mem_cons.1 replaced
        rw [steps]
        exact .drop indexer body stmt.range own (ih (fun _ => left.2) others)
      next kept =>
        rw [if_neg kept] at replaced
        rw [List.flatMap_cons, steps]
        exact .replace indexer body stmt.range (ih nofun replaced)
    · rw [if_neg fun left => defines left.1] at replaced
      rw [if_neg fun left => defines left.1, List.flatMap_cons]
      refine Thinned.append (ih nofun replaced) (ih (fun left => ?_) replaced) _
      rw [List.any_cons, Bool.or_eq_true] at last
      exact (last left).resolve_left defines

/-- The definitions that a program has lost of a class, if the constructors of one class are left out
that others replace. -/
def Program.Replaces (config : DiscoveryConfig) (ownerName : String) (program : Program) (name : String)
    (step : MemberStep) : Prop :=
  name = ownerName ∧ step ∈ (replacedConstructors config ownerName program.body).flatMap
    (Discovery.memberSteps ownerName)

theorem thinned_lastConstructorOnly (program : Program) (name : String) :
    Thinned config (program.Replaces config ownerName name) false (program.memberSteps name)
      ((program.lastConstructorOnly config ownerName).memberSteps name) := by
  by_cases same : ownerName = name
  · subst same
    exact thinned_statements nofun fun step member => ⟨rfl, member⟩
  · rw [Program.memberSteps, Program.memberSteps, Program.lastConstructorOnly,
      memberSteps_lastConstructorOnly same]
    exact .refl config _ _

end Whole
end LuaClasses
