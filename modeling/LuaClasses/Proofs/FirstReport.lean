import LuaClasses.CommandLine.FileReport
import LuaClasses.Proofs.ClassLosses
import Mathlib.Data.List.Basic

/-! The report on the first class that a program declares, beside the first of all reports. They are the
same unless the first class is lost to a function of its name while another class is not. -/

namespace LuaClasses

namespace Discovery

/-- The name under which a value declares a class. -/
def boundClass? (config : DiscoveryConfig) (target : Option String) (value : Expr) : Option String :=
  if (deriveBase? config value).isSome then target else none

/-- The names under which the values of one statement declare classes, in the order of the values. -/
def boundClasses (config : DiscoveryConfig) (targets : List (Option String)) (values : List Expr) :
    List String :=
  (targets.zip values).filterMap fun binding => boundClass? config binding.1 binding.2

private theorem boundClasses_cons (config : DiscoveryConfig) (targets : List (Option String))
    (value : Expr) (values : List Expr) :
    boundClasses config targets (value :: values) =
      (boundClass? config targets.head?.join value).toList ++ boundClasses config targets.tail values := by
  cases targets with
  | nil => simp [boundClasses, boundClass?]
  | cons target others =>
    rw [boundClasses, List.zip_cons_cons, List.filterMap_cons]
    cases bound : boundClass? config target value <;> simp [bound, boundClasses]

end Discovery

/-- The names under which the top level declares classes, in the order of the declarations. -/
def Program.classNames (program : Program) (config : DiscoveryConfig) : List String :=
  program.body.flatMap fun stmt =>
    match Discovery.bindings? stmt.kind with
    | some (targets, values) => Discovery.boundClasses config targets values
    | none => []

theorem Program.mem_classNames {program : Program} {config : DiscoveryConfig} {name : String} :
    name ∈ program.classNames config ↔ program.DeclaresClass config name := by
  simp only [classNames, List.mem_flatMap, DeclaresClass]
  refine exists_congr fun stmt => and_congr_right fun _ => ?_
  cases bound : Discovery.bindings? stmt.kind with
  | none => simp
  | some parts =>
    obtain ⟨targets, values⟩ := parts
    simp only [Discovery.boundClasses, Discovery.boundClass?, List.mem_filterMap, Option.some.injEq,
      Prod.mk.injEq, Prod.exists]
    constructor
    · rintro ⟨target, value, opposite, declares⟩
      split at declares
      next derives => exact ⟨targets, values, value, ⟨rfl, rfl⟩, declares ▸ opposite, derives⟩
      next => cases declares
    · rintro ⟨_, _, value, ⟨rfl, rfl⟩, opposite, derives⟩
      exact ⟨some name, value, opposite, if_pos derives⟩

namespace Discovery
open ScopeTree Relation

variable {config : DiscoveryConfig} {program : Program} {id : ScopeId} {name : String}
  {before after state : State}

/-! ### The first class in the list -/

private theorem head?_owners_resetBodies (state : State) (owner : ScopeId) :
    (state.resetBodies owner).owners.head? = state.owners.head?.or (some owner) := by
  rw [owners_resetBodies]
  split
  next listed =>
    cases owners : state.owners with
    | nil => rw [owners] at listed; cases listed
    | cons first rest => rfl
  next => rw [List.head?_append]; rfl

/-- The first class in the list stays the first. -/
theorem head_declareStep (step : DeclareStep config program before after)
    (first : before.owners.head? = some id) :
    after.owners.head? = some id := by
  cases step with
  | @class_ name base range _ named written =>
    rw [declareClass_eq]
    have kept : ∀ tree : ScopeTree, (((before.withTree (before.tree.internChild root name .class_).1).vacate
        (before.tree.internChild root name .class_).2 s!"class `{name}` redefined" range).withTree
        tree).owners = before.owners :=
      fun _ => congrArg (List.map ClassBodies.owner) (classes_vacate _ _ _ _)
    rw [head?_owners_resetBodies, kept, first, Option.some_or]
  | skip message range _ => rw [State.owners, State.classes_warn]; exact first
  | link owner _ => exact first

/-- Whether the first of some names is that of the first class in the list. -/
structure Leads (names : List String) (state : State) : Prop where
  unlisted : names = [] → state.classes = []
  first : ∀ {name}, names.head? = some name → ∃ id, state.owners.head? = some id ∧
    state.tree.child? root name = some id

theorem Leads.declareClass (plain : program.Plain) {names : List String}
    (reached : ReflTransGen (DeclareStep config program) (.initial config) state)
    (leads : Leads names state) (base : String) (range : Range) (named : name ∈ program.names)
    (written : program.DeclaresClass config name) :
    Leads (names ++ [name]) (declareClass config name base range state) := by
  obtain ⟨formed, tidy, free⟩ := tidy_declareSteps plain reached
  have step : DeclareStep config program state (Discovery.declareClass config name base range state) :=
    .class_ base range state named written
  refine ⟨fun none => absurd none (by simp), fun {first} leading => ?_⟩
  cases names with
  | nil =>
    cases leading
    obtain ⟨id, new, _, _, listed, classes⟩ :=
      enlisted_declareClass config (plain _ named) base range formed tidy
    refine ⟨id, ?_, new.hangs⟩
    have only : ∀ owner ∈ (Discovery.declareClass config name base range state).owners, owner = id := by
      intro owner member
      obtain ⟨bodies, held, rfl⟩ := List.mem_map.1 member
      rcases classes bodies held with old | same
      · rw [leads.unlisted rfl] at old
        cases old
      · exact same
    cases owners : (Discovery.declareClass config name base range state).owners with
    | nil => rw [owners] at listed; cases listed
    | cons owner rest => rw [owners] at only; rw [List.head?_cons, only owner List.mem_cons_self]
  | cons other rest =>
    cases leading
    obtain ⟨id, head, hangs⟩ := leads.first rfl
    exact ⟨id, head_declareStep step head, links_declareStep plain step formed tidy free hangs⟩

theorem Leads.warn {names : List String} (leads : Leads names state) (message : String)
    (range : Option Range) :
    Leads names (state.warn .structuralMismatch message range) := by
  refine ⟨fun none => ?_, fun leading => ?_⟩
  · rw [State.classes_warn]
    exact leads.unlisted none
  · rw [State.owners, State.classes_warn, State.tree_warn]
    exact leads.first leading

theorem Leads.declareBindings (plain : program.Plain) (range : Range) {targets : List (Option String)}
    (named : ∀ name, some name ∈ targets → name ∈ program.names) {values : List Expr}
    (written : ∀ name value, (some name, value) ∈ targets.zip values →
      (deriveBase? config value).isSome = true →
      program.DeclaresClass config name) {names : List String}
    (reached : ReflTransGen (DeclareStep config program) (.initial config) state)
    (leads : Leads names state) :
    Leads (names ++ boundClasses config targets values)
      (declareBindings config range targets values state) := by
  induction values generalizing targets names state with
  | nil =>
    unfold Discovery.declareBindings
    rw [boundClasses, List.zip_nil_right, List.filterMap_nil, List.append_nil]
    exact leads
  | cons value rest ih =>
    unfold Discovery.declareBindings
    have later : ∀ {names : List String} {state : State}, ReflTransGen (DeclareStep config program)
      (.initial config) state →
        Leads names state →
        Leads (names ++ boundClasses config targets.tail rest)
          (Discovery.declareBindings config range targets.tail rest state) := by
      refine ih (fun name member => named name (List.mem_of_mem_tail member)) fun name value member => ?_
      cases targets with
      | nil => cases member
      | cons first others => exact written name value (List.mem_cons_of_mem _ member)
    rw [boundClasses_cons, ← List.append_assoc]
    cases derived : deriveBase? config value with
    | none =>
      rw [boundClass?, derived, Option.isSome_none, if_neg Bool.false_ne_true,
        Option.toList_none, List.append_nil]
      exact later reached leads
    | some base =>
      rw [boundClass?, derived]
      cases first : targets.head?.join with
      | none =>
        rw [Option.isSome_some, if_pos rfl, Option.toList_none, List.append_nil]
        exact later (reached.tail (.skip _ _ state)) (leads.warn _ _)
      | some name =>
        obtain ⟨others, rfl⟩ := List.head?_eq_some_iff.1 (Option.join_eq_some_iff.1 first)
        have declares := written name value List.mem_cons_self (Option.isSome_of_eq_some derived)
        have member := named name List.mem_cons_self
        exact later (reached.tail (.class_ base range state member declares))
          (leads.declareClass plain reached base range member declares)

/-- The first class that a program declares leads the list, under its name. -/
theorem leads_declared (config : DiscoveryConfig) (plain : program.Plain) :
    Leads (program.classNames config) (declared config program) := by
  have listed : ∀ {stmts : List Stmt}, stmts ⊆ program.body → ∀ {names : List String} {state : State},
      ReflTransGen (DeclareStep config program) (.initial config) state → Leads names state →
      Leads (names ++ stmts.flatMap fun stmt => match bindings? stmt.kind with
        | some (targets, values) => boundClasses config targets values
        | none => []) (stmts.foldl (declareStatement config) state) := by
    intro stmts
    induction stmts with
    | nil => intro _ names state _ leads; rw [List.flatMap_nil, List.append_nil]; exact leads
    | cons stmt rest ih =>
      intro within names state reached leads
      have member := within List.mem_cons_self
      rw [List.flatMap_cons, ← List.append_assoc, List.foldl_cons]
      apply ih fun _ held => within (List.mem_cons_of_mem _ held)
      · exact reached.trans (declareStatement_steps config program member state)
      · unfold declareStatement
        cases bound : bindings? stmt.kind with
        | none => rw [List.append_nil]; exact leads
        | some parts =>
          obtain ⟨targets, values⟩ := parts
          exact leads.declareBindings plain stmt.range (named_bindings program member bound)
            (fun name value opposite derives => ⟨stmt, member, targets, values, value, bound,
              opposite, derives⟩) reached
  have entered := listed (List.Subset.refl _) .refl (⟨fun _ => rfl, nofun⟩ : Leads [] (.initial config))
  rw [List.nil_append] at entered
  refine ⟨entered.unlisted, fun leading => ?_⟩
  obtain ⟨id, head, hangs⟩ := entered.first leading
  have reached := foldl_steps program.body
    (fun _ member state => declareStatement_steps config program member state)
    (.initial config)
  refine ⟨id, declareSteps_keep plain (fun state => state.owners.head? = some id ∧
    state.tree.child? root _ = some id) ?_ reached
    (linkClasses_steps config program _ _) ⟨head, hangs⟩⟩
  rintro before after step formed tidy free ⟨head, hangs⟩
  exact ⟨head_declareStep step head, links_declareStep plain step formed tidy free hangs⟩

/-! ### Classes that are lost, and those that are not -/

/-- A class that no function of the top level is named like is a class when a discovery ends. -/
theorem class_kept (plain : program.Plain) (spared : ¬program.DeclaresFunction name)
    (enlisted : (declared config program).tree.Enlisted name id)
    (registered : (declared config program).tree.classId? name = some id) :
    ((discover program config).tree.classAt? id).isSome = true := by
  have indexed := indexSteps_keep plain (fun state => state.tree.Enlisted name id ∧
    state.tree.classId? name = some id)
    (fun step formed tidy held => enlisted_indexStep plain spared step formed tidy held.1 held.2) .refl
    (indexed_steps config program) ⟨enlisted, registered⟩
  obtain ⟨owner, held, _⟩ := indexed.1.held
  obtain ⟨later, found⟩ := (defineAll_keeps config plain (fun state => ∃ held,
    state.tree.classAt? id = some held)
    (by
      rintro _ _ _ _ step formed tidy found ⟨held, there⟩
      obtain ⟨later, reached, _⟩ := class_defineStep plain step formed tidy
        (Option.isSome_of_eq_some found) there
      exact ⟨later, reached⟩)
    _ (formed_indexed config program) (tidy_indexed config plain) ⟨owner, held⟩).2.2
  obtain ⟨last, reached, _⟩ := ((grows_discover config program).1.steady id).class_ found
  exact Option.isSome_of_eq_some reached

/-- A class that is listed is lost exactly if a function of the top level has its name. -/
theorem class_lost_iff (plain : program.Plain) (listed : id ∈ (declared config program).owners)
    (hangs : (declared config program).tree.child? root name = some id) :
    (discover program config).tree.classAt? id = none ↔ program.DeclaresFunction name := by
  refine ⟨fun lost => Classical.byContradiction fun spared => ?_, classAt?_of_function plain hangs⟩
  obtain ⟨called, _, enlisted, registered⟩ := registers_declared config plain id listed
  obtain ⟨_, rfl⟩ := (formed_declared config program).tree.child_unique hangs enlisted.hangs
  have kept := class_kept plain spared enlisted registered
  rw [lost] at kept
  cases kept

/-! ### The first report -/

/-- What the first item gives is the first that any item gives, unless it gives nothing and another gives
something. -/
theorem head?_bind_eq_iff {α β : Type} (f : α → Option β) (items : List α) :
    items.head?.bind f = (items.filterMap f).head? ↔
      ∀ first, items.head? = some first → f first = none → ∀ item ∈ items, f item = none := by
  cases items with
  | nil => simp
  | cons first rest =>
    cases found : f first with
    | some given => simp [found]
    | none =>
      simp only [List.head?_cons, Option.bind_some, List.filterMap_cons, found, Option.some.injEq]
      constructor
      · rintro empty _ rfl _ item member
        have nothing : rest.filterMap f = [] := List.head?_eq_none_iff.1 empty.symm
        rcases List.mem_cons.1 member with rfl | further
        · exact found
        · exact List.filterMap_eq_nil_iff.1 nothing item further
      · intro lost
        have nothing : rest.filterMap f = [] :=
          List.filterMap_eq_nil_iff.2 fun item member => lost first rfl found item
            (List.mem_cons_of_mem _ member)
        rw [nothing]
        rfl

/-- Whether the first class that is listed is still a class, or none is. -/
def LeadKept (discovery : Discovery) : Prop :=
  ∀ first, discovery.classes.head? = some first → discovery.tree.classAt? first = none →
    ∀ id ∈ discovery.classes, discovery.tree.classAt? id = none

theorem leadKept_iff (config : DiscoveryConfig) (plain : program.Plain) :
    (discover program config).LeadKept ↔ ∀ first, (program.classNames config).head? = some first →
    program.DeclaresFunction first →
      ∀ name ∈ program.classNames config, program.DeclaresFunction name := by
  rw [LeadKept, classes_discover config plain]
  have leads := leads_declared config plain
  constructor
  · intro kept first leading written name member
    obtain ⟨head, listed, under⟩ := leads.first leading
    have lost := (class_lost_iff plain (List.mem_of_head? listed) under).2 written
    obtain ⟨id, present, hangs⟩ := owner_declared plain (Program.mem_classNames.1 member)
    exact (class_lost_iff plain present hangs).1 (kept head listed lost id present)
  · intro kept head listed lost id present
    obtain ⟨name, declares, enlisted, _⟩ := registers_declared config plain id present
    have member := Program.mem_classNames.2 declares
    cases names : (program.classNames config).head? with
    | none => rw [List.head?_eq_none_iff.1 names] at member; cases member
    | some first =>
      obtain ⟨leader, first?, under⟩ := leads.first names
      cases listed.symm.trans first?
      have written := (class_lost_iff plain (List.mem_of_head? listed) under).1 lost
      exact classAt?_of_function plain enlisted.hangs (kept first names written name member)

open CommandLine in
/-- The report on the first class is the first of all reports, and the one that is shown for a file of
which not all are asked for, exactly if the first class that is listed is still a class when the
discovery ends, or none is. A class is lost to a function of its name at the top level. -/
theorem first_report_iff (program : Program) (config : DiscoveryConfig) :
    ((discoverFirst? program config = (discover program config).reports.head? ∧
        ∀ snapshot path, loadProgram snapshot path = .ok program →
          (FileReport.ofFile snapshot config false path).outcome.map FileFindings.classes =
          .ok (discoverFirst? program config).toList) ↔
      (discover program config).LeadKept) ∧
    (program.Plain → ((discover program config).LeadKept ↔
      ∀ first, (program.classNames config).head? = some first → program.DeclaresFunction first →
        ∀ name ∈ program.classNames config, program.DeclaresFunction name)) := by
  have kept : discoverFirst? program config = (discover program config).reports.head? ↔
      (discover program config).LeadKept := by
    rw [discoverFirst?, reports, head?_bind_eq_iff, LeadKept]
    simp only [ClassReport.ofScope?, Option.map_eq_none_iff]
  refine ⟨⟨fun agrees => kept.1 agrees.1, fun lead => ⟨kept.2 lead, ?_⟩⟩, leadKept_iff config⟩
  intro snapshot path loaded
  rw [kept.2 lead]
  simp only [FileReport.ofFile, loaded]
  exact congrArg Except.ok List.take_one

/-- Two classes, and below them a function with the name of one. -/
def twoClasses (lost : String) : Program where
  body := [
    ⟨.assign [.name "Foo"] [.methodCall (.name "ISBaseObject") "derive" [.string "Foo"]], ⟨1, 0, 1, 32⟩⟩,
    ⟨.assign [.name "Bar"] [.methodCall (.name "ISBaseObject") "derive" [.string "Bar"]], ⟨2, 0, 2, 32⟩⟩,
    ⟨.function (.plain lost) false ⟨[], false, []⟩, ⟨3, 0, 3, 18⟩⟩]

/-- The second class may be lost: the first report is that on the first class. -/
theorem second_lost_agrees :
    (twoClasses "Bar").Plain ∧ (discover (twoClasses "Bar") .default).classes.length = 2 ∧
      (discover (twoClasses "Bar") .default).reports.length = 1 ∧
      discoverFirst? (twoClasses "Bar") .default = (discover (twoClasses "Bar") .default).reports.head? := by
  have plain : (twoClasses "Bar").Plain := by decide
  have names : (twoClasses "Bar").classNames .default = ["Foo", "Bar"] := by decide +kernel
  obtain ⟨agrees, lead⟩ := first_report_iff (twoClasses "Bar") .default
  refine ⟨plain, by decide +kernel, by decide +kernel, (agrees.2 ((lead plain).2 ?_)).1⟩
  rw [names]
  rintro first leading ⟨stmt, member, written, isLocal, body, kind, named⟩
  cases leading
  simp only [twoClasses, List.mem_cons, List.not_mem_nil, or_false] at member
  rcases member with rfl | rfl | rfl <;> cases kind
  exact absurd named (by decide)

/-- With the first class lost there is no report on the first class, but one on the second. -/
theorem first_lost_differs :
    discoverFirst? (twoClasses "Foo") .default = none ∧
      (discover (twoClasses "Foo") .default).reports.map ClassReport.name = ["Bar"] := by
  decide +kernel

end Discovery
end LuaClasses
