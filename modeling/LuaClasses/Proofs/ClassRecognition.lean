import LuaClasses.Proofs.BlankClasses
import LuaClasses.Proofs.FirstReport

/-! The classes that a program declares, read off its text. The values that derive from a base are listed
in the order of the text, each with the plain name in its place. One after the other they lead to the
classes that are known, to their order and to what each derives from. -/

namespace LuaClasses

/-- The plain name that stands in a place to the left of a statement. -/
def StmtKind.target? : StmtKind → Nat → Option String
  | .assign targets _, place => targets[place]?.bind Expr.name?
  | .local_ names _, place => names[place]?
  | _, _ => none

/-- The values to the right of a statement. -/
def StmtKind.values : StmtKind → List Expr
  | .assign _ values => values
  | .local_ _ values => values
  | _ => []

/-- A call of the method that derives a class, on a plain name and within any parentheses. -/
inductive Expr.Derives (config : DiscoveryConfig) (base : String) : Expr → Prop
  | call (args : List Expr) : Derives config base (.methodCall (.name base) config.deriveMethod args)
  | paren {inner : Expr} (derives : Derives config base inner) : Derives config base (.paren inner)

/-- A value of the top level that derives from a base, with the plain name in its place, if there is one. -/
structure Derivation where
  target : Option String
  base : String
  range : Range

/-- The values of a statement that derive from a base, in their order. -/
def Stmt.derivations (config : DiscoveryConfig) (stmt : Stmt) : List Derivation :=
  stmt.kind.values.zipIdx.filterMap fun entry =>
    (Discovery.deriveBase? config entry.1).map fun base => ⟨stmt.kind.target? entry.2, base, stmt.range⟩

/-- The values of the top level that derive from a base, in the order of the text. -/
def Program.derivations (program : Program) (config : DiscoveryConfig) : List Derivation :=
  program.body.flatMap (Stmt.derivations config)

/-- The base that a name was last derived from. -/
def lastBase? (name : String) (written : List Derivation) : Option String :=
  ((written.filter fun one => one.target = some name).getLast?).map Derivation.base

theorem lastBase?_concat (name : String) (written : List Derivation) (one : Derivation) :
    lastBase? name (written ++ [one]) =
      if one.target = some name then some one.base else lastBase? name written := by
  rw [lastBase?, List.filter_append, List.filter_cons, List.filter_nil]
  simp only [decide_eq_true_eq]
  split
  next => rw [List.getLast?_concat, Option.map_some]
  next => rw [List.append_nil, lastBase?]

private theorem Expr.derives_unparen {config : DiscoveryConfig} {base : String} (value : Expr) :
    value.unparen.Derives config base ↔ value.Derives config base := by
  induction value using Expr.unparen.induct with
  | case1 inner ih =>
    rw [Expr.unparen, ih]
    constructor
    · exact .paren
    · intro derives
      cases derives with
      | paren inside => exact inside
  | case2 value bare => rw [Expr.unparen]; exact bare

private theorem OrderedMap.values_insert {α : Type} {map : OrderedMap α} {key : String} {value : α}
    (absent : map.get? key = none) :
    (map.insert key value).values = map.values ++ [value] := by
  have fresh : map.contains key = false := by rw [contains_eq_isSome_get?, absent, Option.isSome_none]
  rw [values, entries_insert, if_pos fresh, List.map_append, List.map_singleton, values]

private theorem OrderedMap.insert_of_get? {α : Type} {map : OrderedMap α} {key : String} {value : α}
    (held : map.get? key = some value) :
    map.insert key value = map := by
  have present : map.contains key = true := by rw [contains_eq_isSome_get?, held, Option.isSome_some]
  have kept : map.entries.map (fun entry => if entry.1 = key then (key, value) else entry) =
      map.entries.map id := by
    apply List.map_congr_left
    intro entry listed
    split
    next same =>
      have found := (get?_eq_some_iff map entry.1 entry.2).2 listed
      rw [same, held] at found
      rw [← same, Option.some.inj found, id_eq]
    next => rfl
  apply OrderedMap.ext
  rw [entries_insert, present, if_neg (by simp), kept, List.map_id]

namespace Discovery
open ScopeTree Relation

variable {config : DiscoveryConfig} {program : Program} {state : State} {written : List Derivation}

private theorem deriveBase?_eq_some {value : Expr} {base : String} :
    deriveBase? config value = some base ↔ value.Derives config base := by
  constructor
  · intro found
    rw [deriveBase?] at found
    rw [← Expr.derives_unparen]
    split at found
    next object method args same =>
      rw [same]
      obtain ⟨rfl, named⟩ := Option.ite_none_right_eq_some.1 found
      cases object with
      | name _ => cases named; exact .call args
      | _ => cases named
    next => cases found
  · intro derives
    induction derives with
    | call args => exact if_pos rfl
    | paren _ ih => exact ih

private theorem bindings?_eq_some {kind : StmtKind} {targets : List (Option String)} {values : List Expr}
    (bound : bindings? kind = some (targets, values)) :
    kind.values = values ∧ ∀ place, kind.target? place = targets[place]?.join := by
  cases kind with
  | assign exprs given =>
    cases bound
    refine ⟨rfl, fun place => ?_⟩
    rw [List.getElem?_map, StmtKind.target?]
    cases exprs[place]? <;> rfl
  | local_ names given =>
    cases bound
    refine ⟨rfl, fun place => ?_⟩
    rw [List.getElem?_map, StmtKind.target?]
    cases names[place]? <;> rfl
  | _ => cases bound

theorem mem_derivations {one : Derivation} :
    one ∈ program.derivations config ↔ ∃ stmt ∈ program.body, ∃ place value,
      stmt.kind.values[place]? = some value ∧
      value.Derives config one.base ∧ one.target = stmt.kind.target? place ∧ one.range = stmt.range := by
  rw [Program.derivations, List.mem_flatMap]
  refine exists_congr fun stmt => and_congr_right fun _ => ?_
  rw [Stmt.derivations, List.mem_filterMap]
  constructor
  · rintro ⟨⟨value, place⟩, listed, given⟩
    obtain ⟨base, derives, rfl⟩ := Option.map_eq_some_iff.1 given
    exact ⟨place, value, List.mem_zipIdx_iff_getElem?.1 listed, deriveBase?_eq_some.1 derives, rfl, rfl⟩
  · rintro ⟨place, value, listed, derives, target, range⟩
    obtain ⟨target, base, range⟩ := one
    subst target range
    exact ⟨(value, place), List.mem_zipIdx_iff_getElem?.2 listed,
      Option.map_eq_some_iff.2 ⟨base, deriveBase?_eq_some.2 derives, rfl⟩⟩

theorem exists_derivation {name : String} (declares : program.DeclaresClass config name) :
    ∃ one ∈ program.derivations config, one.target = some name := by
  obtain ⟨stmt, member, targets, values, value, bound, opposite, derives⟩ := declares
  obtain ⟨place, found⟩ := List.mem_iff_getElem?.1 opposite
  obtain ⟨target, given⟩ := List.getElem?_zip_eq_some.1 found
  obtain ⟨base, derived⟩ := Option.isSome_iff_exists.1 derives
  obtain ⟨rfl, targets?⟩ := bindings?_eq_some bound
  refine ⟨⟨some name, base, stmt.range⟩,
    mem_derivations.2 ⟨stmt, member, place, value, given, ?_, ?_, rfl⟩, rfl⟩
  · exact deriveBase?_eq_some.1 derived
  · rw [targets?, target]
    rfl

/-! ### The declarations one after the other -/

/-- Declare what a value derives, or report that it has no plain name. -/
def declare (config : DiscoveryConfig) (state : State) (one : Derivation) : State :=
  match one.target with
  | some name => declareClass config name one.base one.range state
  | none =>
    state.warn .structuralMismatch s!"`{one.base}:{config.deriveMethod}` result is not assigned to a plain name" (some one.range)

private theorem declareBindings_eq (range : Range) {targets : List (Option String)}
    {target? : Nat → Option String} {first : Nat}
    (places : ∀ place, targets[place]?.join = target? (first + place)) (values : List Expr)
    (state : State) :
    declareBindings config range targets values state =
      ((values.zipIdx first).filterMap fun entry =>
        (deriveBase? config entry.1).map fun base => (⟨target? entry.2, base, range⟩ : Derivation)).foldl
        (declare config) state := by
  induction values generalizing targets first state with
  | nil => rfl
  | cons value rest ih =>
    have later : ∀ place, targets.tail[place]?.join = target? (first + 1 + place) := by
      intro place
      rw [List.getElem?_tail, places, Nat.add_right_comm, Nat.add_assoc]
    have head : targets.head?.join = target? first := by
      rw [List.head?_eq_getElem?]
      exact places 0
    rw [declareBindings, ih later, List.zipIdx_cons, List.filterMap_cons, head]
    cases derives : deriveBase? config value with
    | none => rfl
    | some base =>
      rw [Option.map_some, List.foldl_cons]
      cases named : target? first with
      | none => simp only [declare]
      | some name => simp only [declare]

private theorem declareStatement_eq (stmt : Stmt) (state : State) :
    declareStatement config state stmt = (stmt.derivations config).foldl (declare config) state := by
  obtain ⟨kind, range⟩ := stmt
  rw [declareStatement, Stmt.derivations]
  dsimp only
  cases bound : bindings? kind with
  | some parts =>
    obtain ⟨targets, values⟩ := parts
    obtain ⟨rfl, target?⟩ := bindings?_eq_some bound
    apply declareBindings_eq range fun place => ?_
    rw [Nat.zero_add, target?]
  | none =>
    cases kind with
    | assign _ _ => cases bound
    | local_ _ _ => cases bound
    | _ => rfl

theorem declareStatements_eq (stmts : List Stmt) (state : State) :
    stmts.foldl (declareStatement config) state = (stmts.flatMap (Stmt.derivations config)).foldl
      (declare config) state := by
  induction stmts generalizing state with
  | nil => rfl
  | cons stmt rest ih => rw [List.foldl_cons, ih, declareStatement_eq, List.flatMap_cons, List.foldl_append]

/-! ### What is known after some declarations -/

/-- A class on its scope, with the base from which it was last derived. -/
structure Recognized (config : DiscoveryConfig) (written : List Derivation) (tree : ScopeTree)
    (name : String) (id : ScopeId) :
    Prop where
  hangs : tree.child? root name = some id
  held : ∃ owner base, tree.classAt? id = some owner ∧ owner.name = name ∧
    lastBase? name written = some base ∧
    owner.superclass = if base = config.rootClass then none else some base

/-- The classes that are known are those of some declarations: their names in the order in which each
came first, their classes in that order, and a report on each value that has no plain name. -/
structure State.Recognizes (config : DiscoveryConfig) (written : List Derivation) (state : State) : Prop where
  keys : state.tree.globals.classes.keys = (written.filterMap Derivation.target).eraseDups
  owners : state.owners = state.tree.globals.classes.values
  classes : ∀ {name id}, state.tree.classId? name = some id → Recognized config written state.tree name id
  reports : ∀ message range, ⟨.structuralMismatch, message, range⟩ ∈ state.diagnostics ↔
    ∃ one ∈ written, one.target = none ∧
      message = s!"`{one.base}:{config.deriveMethod}` result is not assigned to a plain name" ∧
        range = some one.range

theorem mem_diagnostics_warn {problem : Diagnostic} (state : State) (kind : DiagnosticKind)
    (message : String) (range : Option Range) :
    problem ∈ (state.warn kind message range).diagnostics ↔ problem ∈ state.diagnostics ∨
      problem = ⟨kind, message, range⟩ := by
  rw [State.diagnostics_warn]
  split
  next known =>
    rw [or_iff_left_of_imp]
    rintro rfl
    exact known
  next => rw [List.mem_append, List.mem_singleton]

/-- A declaration reports nothing but that its name is given again. -/
theorem reports_declareClass (name base : String) (range : Range) (state : State) (message : String)
    (place : Option Range) :
    ⟨.structuralMismatch, message, place⟩ ∈ (declareClass config name base range state).diagnostics ↔
      ⟨.structuralMismatch, message, place⟩ ∈ state.diagnostics := by
  rw [declareClass_eq, diagnostics_resetBodies, State.withTree, State.vacate]
  split
  next =>
    rw [State.withTree, mem_diagnostics_warn, or_iff_left]
    · rfl
    · intro same
      cases same
  next => rfl

namespace State.Recognizes

theorem initial (config : DiscoveryConfig) : (State.initial config).Recognizes config [] where
  keys := rfl
  owners := rfl
  classes := nofun
  reports := fun _ _ => by simp [State.initial]

variable (recognizes : state.Recognizes config written) {one : Derivation}
include recognizes

theorem skip (unnamed : one.target = none) :
    (declare config state one).Recognizes config (written ++ [one]) := by
  simp only [declare, unnamed]
  constructor
  · rw [State.tree_warn, List.filterMap_append, List.filterMap_cons_none unnamed,
      List.filterMap_nil, List.append_nil]
    exact recognizes.keys
  · rw [State.owners, State.classes_warn, State.tree_warn]
    exact recognizes.owners
  · intro name id known
    rw [State.tree_warn] at known ⊢
    obtain ⟨hangs, owner, base, held, called, last, superclass⟩ := recognizes.classes known
    refine ⟨hangs, owner, base, held, called, ?_, superclass⟩
    rw [lastBase?_concat, unnamed, if_neg (by simp)]
    exact last
  · intro message range
    rw [mem_diagnostics_warn, recognizes.reports]
    simp only [List.mem_append, List.mem_singleton, or_and_right, exists_or, exists_eq_left, unnamed,
      true_and, Diagnostic.mk.injEq]

/-- A name that hangs below the root is that of the one class on its scope. -/
theorem known_iff {after : State} {name : String} {id : ScopeId} {base : String}
    (founds : Founds config name base id state after) (formed : after.tree.Formed) :
    state.tree.classId? name = some id ↔ id ∈ state.tree.globals.classes.values := by
  constructor
  · intro known
    exact List.mem_map_of_mem (f := Prod.snd) (OrderedMap.mem_entries_of_get? known)
  · intro listed
    obtain ⟨⟨other, _⟩, member, rfl⟩ := List.mem_map.1 listed
    have known : state.tree.classId? other = some _ := (OrderedMap.get?_eq_some_iff _ _ _).2 member
    obtain ⟨_, rfl⟩ := formed.child_unique founds.hangs (founds.links (recognizes.classes known).hangs)
    exact known

theorem class_ (formed : state.Formed) (dotless : state.tree.Dotless) {name : String}
    (named : one.target = some name) (plain : '.' ∉ name.toList) :
    (declare config state one).Recognizes config (written ++ [one]) := by
  obtain ⟨id, founds⟩ := founds_declareClass config plain one.base one.range formed.tree dotless
  have reports := @reports_declareClass config name one.base one.range state
  have last := (revises_declareClass config name one.base one.range state formed).1.tree
  simp only [declare, named]
  generalize declareClass config name one.base one.range state = after at founds reports last ⊢
  have sole : ∀ {old}, state.tree.classId? name = some old → old = id := by
    intro old known
    have hung := founds.links (recognizes.classes known).hangs
    exact Option.some.inj (hung.symm.trans founds.hangs)
  constructor
  · rw [founds.classes, OrderedMap.keys_insert, List.filterMap_append,
      List.filterMap_cons_some named, List.filterMap_nil,
      List.eraseDups_append, ← recognizes.keys, List.cons_removeAll]
    have same : state.tree.globals.classes.contains name =
        (written.filterMap Derivation.target).contains name := by
      rw [OrderedMap.contains, recognizes.keys, Bool.eq_iff_iff]
      simp only [List.contains_iff_mem, List.mem_eraseDups]
    rw [same]
    cases (written.filterMap Derivation.target).contains name with
    | false => simp [List.eraseDups_cons]
    | true => simp
  · rw [State.owners, founds.bodies, ← State.owners, owners_resetBodies, recognizes.owners, founds.classes]
    cases known : state.tree.classId? name with
    | some old =>
      cases sole known
      rw [if_pos ((recognizes.known_iff founds last).1 known), OrderedMap.insert_of_get? known]
    | none =>
      rw [if_neg, OrderedMap.values_insert known]
      intro listed
      rw [(recognizes.known_iff founds last).2 listed] at known
      cases known
  · intro other held found
    rw [classId?, founds.classes, OrderedMap.get?_insert] at found
    split at found
    next same =>
      cases found
      subst same
      obtain ⟨constructor, placed⟩ := founds.held
      refine ⟨founds.hangs, _, one.base, placed, rfl, ?_, rfl⟩
      rw [lastBase?_concat, if_pos named]
    next apart =>
      obtain ⟨hangs, owner, base, placed, called, derived, superclass⟩ := recognizes.classes found
      have top := formed.tree.parent?_of_child hangs
      have hung := founds.links hangs
      have different : held ≠ id := by
        rintro rfl
        exact apart (last.child_unique hung founds.hangs).2
      refine ⟨hung, owner, base, ?_, called, ?_, superclass⟩
      · rw [classAt?, (founds.spares top different).2]
        exact placed
      · rw [lastBase?_concat, named, if_neg fun same => apart (Option.some.inj same).symm]
        exact derived
  · intro message range
    rw [reports, recognizes.reports]
    simp only [List.mem_append, List.mem_singleton, or_and_right, exists_or, exists_eq_left, named,
      reduceCtorEq, false_and, or_false]

omit recognizes in
theorem linkClass_cases (tree : ScopeTree) (id : ScopeId) :
    linkClass tree id = tree ∨ ∃ link, linkClass tree id = tree.modifyClass id fun held =>
      { held with superclassLink := link } := by
  unfold linkClass
  split
  next => exact .inl rfl
  next =>
    split
    next => exact .inl rfl
    next => exact .inr ⟨_, rfl⟩

theorem link (id : ScopeId) : (state.withTree (linkClass state.tree id)).Recognizes config written := by
  rcases linkClass_cases state.tree id with same | ⟨link, same⟩
  · rw [same]
    exact recognizes
  · rw [same]
    refine ⟨recognizes.keys, recognizes.owners, fun {name held} known => ?_, recognizes.reports⟩
    obtain ⟨hangs, owner, base, placed, called, derived, superclass⟩ := recognizes.classes known
    refine ⟨((sameShape_modifyEntity _ _ _).child? _ _).trans hangs, ?_⟩
    by_cases equal : held = id
    · subst equal
      refine ⟨{ owner with superclassLink := link }, base, ?_, called, derived, superclass⟩
      rw [State.withTree, classAt?_modifyClass_self, placed, Option.map_some]
    · refine ⟨owner, base, ?_, called, derived, superclass⟩
      rw [State.withTree, classAt?, ScopeTree.modifyClass, entity?_modifyEntity, if_neg equal]
      exact placed

end State.Recognizes

/-! ### The declarations of a program -/

theorem mem_names_of_derivation {one : Derivation} (listed : one ∈ program.derivations config) {name : String}
    (named : one.target = some name) : name ∈ program.names := by
  obtain ⟨stmt, member, place, value, _, _, target, _⟩ := mem_derivations.1 listed
  have stands : stmt.kind.target? place = some name := target.symm.trans named
  obtain ⟨kind, range⟩ := stmt
  cases kind with
  | assign targets values =>
    obtain ⟨expr, found, read⟩ := Option.bind_eq_some_iff.1 stands
    exact named_bindings program member rfl name (List.mem_map.2 ⟨expr, List.mem_of_getElem? found, read⟩)
  | local_ names values =>
    exact named_bindings program member rfl name (List.mem_map.2 ⟨name, List.mem_of_getElem? stands, rfl⟩)
  | _ => cases stands

private theorem recognizes_declarations (dotless : ∀ name ∈ program.names, '.' ∉ name.toList)
    {rest : List Derivation} (within : rest ⊆ program.derivations config) (formed : state.Formed)
    (declares : state.Declares) (recognizes : state.Recognizes config written) :
    (rest.foldl (declare config) state).Recognizes config (written ++ rest) := by
  induction rest generalizing state written with
  | nil => rw [List.append_nil]; exact recognizes
  | cons one rest ih =>
    have later : rest ⊆ program.derivations config := fun _ member => within (List.mem_cons_of_mem _ member)
    rw [List.foldl_cons, List.append_cons]
    cases target : one.target with
    | none =>
      have skipped := recognizes.skip target
      simp only [declare, target] at skipped ⊢
      have step : DeclareStep config program state _ :=
        .skip s!"`{one.base}:{config.deriveMethod}` result is not assigned to a plain name"
          (some one.range) state
      exact ih later (revises_declareStep step formed).1
        (declares_declareStep dotless step formed declares) skipped
    | some name =>
      have plain := dotless name (mem_names_of_derivation (within List.mem_cons_self) target)
      have known := recognizes.class_ formed declares.blank.level.dotless target plain
      simp only [declare, target] at known ⊢
      exact ih later (revises_declareClass config name one.base one.range state formed).1
        (declares_declareClass formed declares plain one.base one.range) known

theorem recognizes_declared (config : DiscoveryConfig) (dotless : ∀ name ∈ program.names, '.' ∉ name.toList) :
    (declared config program).Recognizes config (program.derivations config) := by
  have declares := recognizes_declarations dotless (List.Subset.refl (program.derivations config))
    (formed_initial config)
    (declares_initial config) (.initial config)
  rw [Program.derivations, ← declareStatements_eq, List.nil_append, ← Program.derivations] at declares
  suffices ∀ (ids : List ScopeId) (state : State), state.Recognizes config (program.derivations config) →
      (state.withTree (ids.foldl linkClass state.tree)).Recognizes config
      (program.derivations config) from this _ _ declares
  intro ids
  induction ids with
  | nil => exact fun _ recognizes => recognizes
  | cons id rest ih =>
    exact fun state recognizes => ih (state.withTree (linkClass state.tree id)) (recognizes.link id)

/-- The classes that are known once classes are declared are, in the order of their first declarations,
the plain names that stand opposite a value that derives from a base. Each derives from the base of its
last declaration, unless that is the root of all classes. The values that derive from a base but stand
opposite no plain name are reported. -/
theorem classes_exactly_declared (config : DiscoveryConfig)
    (dotless : ∀ name ∈ program.names, '.' ∉ name.toList) :
    let state := declared config program
    let known := state.tree.globals.classes
    known.keys = ((program.derivations config).filterMap Derivation.target).eraseDups ∧
    known.keys.Nodup ∧ state.owners.Nodup ∧
    state.owners = known.values ∧
    state.owners.map (fun id => (state.tree.classAt? id).map Class.name) = known.keys.map some ∧
    (∀ name, name ∈ known.keys ↔ ∃ stmt ∈ program.body, ∃ place value base,
      stmt.kind.target? place = some name ∧
      stmt.kind.values[place]? = some value ∧ value.Derives config base) ∧
    (∀ name id, known.get? name = some id → ∃ owner base, state.tree.classAt? id = some owner ∧
      lastBase? name (program.derivations config) = some base ∧
      owner.superclass = if base = config.rootClass then none else some base) ∧
    ∀ message range, ⟨.structuralMismatch, message, range⟩ ∈ state.diagnostics ↔
      ∃ stmt ∈ program.body, ∃ place value base, stmt.kind.target? place = none ∧
        stmt.kind.values[place]? = some value ∧
        value.Derives config base ∧ message =
          s!"`{base}:{config.deriveMethod}` result is not assigned to a plain name" ∧
        range = some stmt.range := by
  intro state known
  have recognizes := recognizes_declared config dotless
  have declares := declares_declared config dotless
  refine ⟨recognizes.keys, known.distinct, declares.distinct, recognizes.owners, ?_, fun name => ?_,
    ?_, fun message range => ?_⟩
  · rw [recognizes.owners, OrderedMap.values, OrderedMap.keys, List.map_map, List.map_map]
    apply List.map_congr_left
    rintro ⟨name, id⟩ listed
    obtain ⟨_, owner, _, held, called, _⟩ := recognizes.classes ((OrderedMap.get?_eq_some_iff _ _ _).2 listed)
    rw [Function.comp_apply, held, Option.map_some, called, Function.comp_apply]
  · rw [recognizes.keys, List.mem_eraseDups, List.mem_filterMap]
    constructor
    · rintro ⟨one, listed, named⟩
      obtain ⟨stmt, member, place, value, found, derives, target, _⟩ := mem_derivations.1 listed
      exact ⟨stmt, member, place, value, one.base, target.symm.trans named, found, derives⟩
    · rintro ⟨stmt, member, place, value, base, named, found, derives⟩
      exact ⟨⟨some name, base, stmt.range⟩,
        mem_derivations.2 ⟨stmt, member, place, value, found, derives, named.symm, rfl⟩, rfl⟩
  · intro name id found
    obtain ⟨_, owner, base, held, _, derived, superclass⟩ := recognizes.classes found
    exact ⟨owner, base, held, derived, superclass⟩
  · rw [recognizes.reports]
    constructor
    · rintro ⟨one, listed, unnamed, text, around⟩
      obtain ⟨stmt, member, place, value, found, derives, target, range⟩ := mem_derivations.1 listed
      exact ⟨stmt, member, place, value, one.base, target.symm.trans unnamed, found,
        derives, text, range ▸ around⟩
    · rintro ⟨stmt, member, place, value, base, unnamed, found, derives, text, around⟩
      exact ⟨⟨none, base, stmt.range⟩, mem_derivations.2 ⟨stmt, member, place, value, found,
        derives, unnamed.symm, rfl⟩, rfl,
        text, around⟩

/-- Two classes declared side by side with a value too many, and the first of them declared again. -/
def pairedClasses : Program where
  body := [
    ⟨.local_ ["Cell", "Grid"] [.methodCall (.name "Map") "derive" [],
      .paren (.methodCall (.name "Cell") "derive" []),
      .methodCall (.name "Grid") "derive" []], ⟨1, 0, 1, 72⟩⟩,
    ⟨.assign [.name "Cell"] [.methodCall (.name "ISBaseObject") "derive" []], ⟨2, 0, 2, 28⟩⟩]

theorem pairedClasses_exactly_declared :
    (∀ name ∈ pairedClasses.names, '.' ∉ name.toList) ∧
    (declared .default pairedClasses).tree.globals.classes.keys = ["Cell", "Grid"] ∧
    (∀ id, (declared .default pairedClasses).tree.globals.classes.get? "Cell" = some id →
      ∃ owner, (declared .default pairedClasses).tree.classAt? id = some owner ∧ owner.superclass = none) ∧
    ⟨.structuralMismatch, "`Grid:derive` result is not assigned to a plain name", some ⟨1, 0, 1, 72⟩⟩ ∈
      (declared .default pairedClasses).diagnostics := by
  have dotless : ∀ name ∈ pairedClasses.names, '.' ∉ name.toList := by decide +kernel
  obtain ⟨keys, _, _, _, _, _, superclass, reports⟩ := classes_exactly_declared .default dotless
  refine ⟨dotless, keys.trans (by decide +kernel), fun id known => ?_, ?_⟩
  · obtain ⟨owner, base, held, derived, given⟩ := superclass "Cell" id known
    have root : lastBase? "Cell" (pairedClasses.derivations .default) = some "ISBaseObject" := by
      decide +kernel
    cases derived.symm.trans root
    exact ⟨owner, held, given⟩
  · refine (reports _ _).2 ⟨_, List.mem_cons_self, 2, _, "Grid", rfl, rfl, .call [], ?_, rfl⟩
    decide +kernel

end Discovery
end LuaClasses
