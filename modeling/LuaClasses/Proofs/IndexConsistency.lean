import LuaClasses.Proofs.GlobalIndices

/-! The indices of the top level when a discovery ends. They are consistent with the tree exactly if no
function is declared under the name of a class, and no table is given to a name that stands for something
else. -/

namespace LuaClasses

namespace ScopeTree

/-- Whether the indices hold a name once at most, and as what the scope under it carries. -/
structure Lists (tree : ScopeTree) (name : String) : Prop where
  once : [tree.globals.values, tree.globals.functions, tree.globals.tables, tree.globals.classes].countP
    (·.contains name) ≤ 1
  values : ∀ id, tree.globals.values.get? name = some id →
    tree.child? root name = some id ∧ ∃ var, tree.variableAt? id = some var
  functions : ∀ id, tree.globals.functions.get? name = some id →
    tree.child? root name = some id ∧ ∃ held, tree.functionAt? id = some held ∧ held.kind = .global
  tables : ∀ id, tree.globals.tables.get? name = some id →
    tree.child? root name = some id ∧ ∃ held, tree.entity? id = some held ∧ held.isTable = true
  classes : ∀ id, tree.globals.classes.get? name = some id →
    tree.child? root name = some id ∧ ∃ held, tree.classAt? id = some held

/-- Whether the indices of the top level are consistent with the tree. -/
def Indexed (tree : ScopeTree) : Prop := ∀ name, tree.Lists name

variable {before after : ScopeTree} {name : String} {id : ScopeId}

/-- What the scopes of the top level hold stays there, but that a class may take on members. -/
structure Settles (before after : ScopeTree) : Prop where
  globals : after.globals = before.globals
  links : before.Links after
  stands : ∀ {name kind}, before.standing? name = some kind → (∀ held, kind ≠ .class_ held) →
    after.standing? name = some kind
  class_ : ∀ {name held}, before.standing? name = some (.class_ held) → ∃ later,
    after.standing? name = some (.class_ later)

theorem Settles.refl (tree : ScopeTree) : tree.Settles tree :=
  ⟨rfl, fun _ _ _ hangs => hangs, fun stands _ => stands, fun stands => ⟨_, stands⟩⟩

theorem Settles.trans {first second third : ScopeTree} (one : first.Settles second)
    (two : second.Settles third) :
    first.Settles third where
  globals := two.globals.trans one.globals
  links := fun _ _ _ hangs => two.links (one.links hangs)
  stands := fun stands other => two.stands (one.stands stands other) other
  class_ := by
    intro name held stands
    obtain ⟨later, reached⟩ := one.class_ stands
    exact two.class_ reached

private theorem standing?_of_steady (hangs : before.child? root name = some id) (links : before.Links after)
    (steady : before.Steady after id) {kind : EntityKind} (stands : before.standing? name = some kind) :
    after.standing? name = some kind := by
  rw [standing?_of_hangs hangs] at stands
  obtain ⟨entity, held, outline⟩ := Option.map_eq_some_iff.1 stands
  obtain ⟨later, reached, same⟩ := steady held
  exact standing?_eq_some.2 ⟨id, later, links hangs, reached, same.trans outline⟩

theorem Grows.settles (grows : before.Grows after) : before.Settles after := by
  have keeps : ∀ {name kind}, before.standing? name = some kind → after.standing? name = some kind := by
    intro name kind stands
    obtain ⟨id, _, hangs, _⟩ := standing?_eq_some.1 stands
    exact standing?_of_steady hangs grows.links (grows.steady id) stands
  exact ⟨grows.globals, grows.links, fun stands _ => keeps stands, fun stands => ⟨_, keeps stands⟩⟩

/-- The scope under a name that stands for a class holds a class. -/
theorem standing?_class_iff {tree : ScopeTree} (hangs : tree.child? root name = some id) :
    (∃ held, tree.standing? name = some (.class_ held)) ↔ ∃ held, tree.classAt? id = some held := by
  rw [standing?_of_hangs hangs, classAt?]
  cases tree.entity? id with
  | none => simp
  | some entity =>
    obtain ⟨references, kind⟩ := entity
    cases kind <;> simp [EntityKind.outline, Entity.asClass?]

private theorem variableAt?_of_standing {tree : ScopeTree} (hangs : tree.child? root name = some id)
    {var : Variable} (stands : tree.standing? name = some (.variable var)) :
    ∃ held, tree.variableAt? id = some held := by
  rw [standing?_of_hangs hangs] at stands
  obtain ⟨⟨references, kind⟩, found, outline⟩ := Option.map_eq_some_iff.1 stands
  cases kind <;> cases outline
  exact ⟨_, by rw [variableAt?, found]; rfl⟩

private theorem functionAt?_of_standing {tree : ScopeTree} (hangs : tree.child? root name = some id)
    {function : Function} (stands : tree.standing? name = some (.function function)) :
    ∃ held, tree.functionAt? id = some held ∧ held.kind = function.kind := by
  rw [standing?_of_hangs hangs] at stands
  obtain ⟨⟨references, kind⟩, found, outline⟩ := Option.map_eq_some_iff.1 stands
  cases kind with
  | function held =>
    cases outline
    exact ⟨held, by rw [functionAt?, found]; rfl, rfl⟩
  | _ => cases outline

theorem isTable_iff_standing {tree : ScopeTree} (hangs : tree.child? root name = some id) :
    (∃ held, tree.entity? id = some held ∧ held.isTable = true) ↔ ∃ table, tree.standing? name =
    some (.table table) := by
  rw [standing?_of_hangs hangs]
  cases tree.entity? id with
  | none => simp
  | some entity =>
    obtain ⟨references, kind⟩ := entity
    cases kind <;> simp [EntityKind.outline, Entity.isTable]

end ScopeTree

namespace Discovery
open ScopeTree Relation

variable {config : DiscoveryConfig} {program : Program} {name : String}

/-! ### Members leave the top level as it is -/

section Define

variable {owner : ScopeId} {ownerName : String} {before after : State}

private theorem globals_placeFields (fields : List (String × LuaType × Range)) (seen : List String)
    (state : State) :
    (placeFields owner fields seen state).tree.globals = state.tree.globals := by
  induction fields generalizing seen state with
  | nil => rfl
  | cons field rest ih =>
    obtain ⟨name, type, range⟩ := field
    have entered : ∀ tree : ScopeTree, (placeField owner range tree name type).globals = tree.globals := by
      intro tree
      exact (globals_modifyEntity _ _ _).trans
        ((globals_setEntity _ _ _).trans (grows_internField tree owner name).globals)
    rw [placeFields, ih]
    refine (entered _).trans ?_
    split
    next => rw [State.tree_warn]
    next => rfl

private theorem globals_dropConstructor (owner constructor : ScopeId) (tree : ScopeTree) :
    (dropConstructor owner constructor tree).globals = tree.globals := by
  unfold dropConstructor
  refine (globals_modifyEntity _ _ _).trans ?_
  split
  next => rw [globals_clearDescendants, globals_clearDescendants]
  next => rw [globals_clearDescendants]

private theorem globals_defineConstructor (body : FunctionBody) (range : Range) (state : State) :
    (defineConstructor owner ownerName body range state).tree.globals = state.tree.globals := by
  cases found : state.tree.classAt? owner with
  | none => rw [defineConstructor_outside found]
  | some held =>
    have vacated : (vacateConstructor owner held.constructor ownerName range state).tree.globals =
        state.tree.globals := by
      unfold vacateConstructor
      split
      next => exact globals_dropConstructor _ _ _
      next => rfl
    rw [defineConstructor_eq found]
    dsimp only
    generalize vacateConstructor owner held.constructor ownerName range state = cleared at vacated ⊢
    have placed : (placeConstructor owner held.constructor body cleared).tree.globals = state.tree.globals :=
      (globals_declareParams held.constructor body.params cleared.tree).trans vacated
    split
    next => rw [placeLiteralFields, globals_placeFields, placed]
    next => rw [State.tree_warn, placed]

/-- The definition of a member leaves the indices as they are. -/
theorem globals_defineStep (plain : program.Plain)
    (step : DefineStep config program owner ownerName before after) (formed : before.Formed)
    (tidy : before.Tidy) (isClass : (before.tree.classAt? owner).isSome = true) :
    after.tree.globals = before.tree.globals := by
  cases step with
  | constructor range state within => exact globals_defineConstructor _ range before
  | @function name indexer body range state named within written other =>
    rw [defineFunction_eq]
    refine (globals_modifyEntity _ _ _).trans ?_
    rw [globals_placeFunction, globals_vacate]
    exact globals_internChild .function before.tree owner name
  | value value range state named =>
    obtain ⟨held, found⟩ := Option.isSome_iff_exists.1 isClass
    obtain ⟨_, _, grows⟩ := tends_defineValue config formed.tree tidy.tree found (plain _ named) value
      range formed.tree tidy.tree
    exact grows.globals

theorem settles_defineStep (plain : program.Plain)
    (step : DefineStep config program owner ownerName before after) (formed : before.Formed)
    (tidy : before.Tidy) {held : Class} (found : before.tree.classAt? owner = some held) :
    before.tree.Settles after.tree := by
  have isClass := Option.isSome_of_eq_some found
  have links := links_defineStep plain step formed tidy isClass
  refine ⟨globals_defineStep plain step formed tidy isClass, links, ?_, ?_⟩
  · intro name kind stands other
    obtain ⟨id, _, hangs, _⟩ := standing?_eq_some.1 stands
    refine standing?_of_steady hangs links
      (steady_defineStep plain step formed tidy isClass (formed.tree.parent?_of_child hangs) ?_)
      stands
    rintro rfl
    obtain ⟨class_, same⟩ := (standing?_class_iff hangs).2 ⟨held, found⟩
    rw [stands] at same
    exact other class_ (Option.some.inj same)
  · intro name class_ stands
    obtain ⟨id, _, hangs, _⟩ := standing?_eq_some.1 stands
    obtain ⟨current, there⟩ := (standing?_class_iff hangs).1 ⟨class_, stands⟩
    obtain ⟨later, reached, _⟩ := class_defineStep plain step formed tidy isClass there
    exact (standing?_class_iff (links hangs)).2 ⟨later, reached⟩

end Define

/-- Once the top level is indexed, nothing changes what its names stand for. -/
theorem settles_discover (config : DiscoveryConfig) (plain : program.Plain) :
    (indexed config program).tree.Settles (discover program config).tree := by
  have defines := defineAll_keeps config plain (fun state => (indexed config program).tree.Settles state.tree)
    (fun step formed tidy found settles => settles.trans (settles_defineStep plain step formed tidy found))
    (indexed config program).owners (formed_indexed config program) (tidy_indexed config plain) (.refl _)
  exact defines.2.2.trans (grows_discover config program).1.settles

/-! ### Consistency -/

/-- What is listed nowhere is listed rightly. -/
theorem lists_of_unlisted {tree : ScopeTree} (listing : tree.listing name = (none, none, none))
    (classes : tree.globals.classes.get? name = none) : tree.Lists name := by
  obtain ⟨values, functions, tables⟩ : tree.globals.values.get? name = none ∧
    tree.globals.functions.get? name = none ∧
      tree.globals.tables.get? name = none := by simpa [ScopeTree.listing] using listing
  constructor <;> simp [OrderedMap.contains_eq_isSome_get?, values, functions, tables, classes]

/-- What is listed only as what a naming made of it is listed rightly. -/
theorem lists_of_makes {tree : ScopeTree} {id : ScopeId} {kind : EntityKind} {naming : Naming}
    (hangs : tree.child? root name = some id) (stands : tree.standing? name = some kind)
    (makes : naming.Makes kind)
    (listing : tree.listing name = (if naming = .value then some id else none,
      if naming.isFunction then some id else none,
      if naming = .table then some id else none))
    (classes : tree.globals.classes.get? name = none) : tree.Lists name := by
  obtain ⟨values, functions, tables⟩ : tree.globals.values.get? name =
    (if naming = .value then some id else none) ∧
      tree.globals.functions.get? name = (if naming.isFunction then some id else none) ∧
      tree.globals.tables.get? name = (if naming = .table then some id else none) := by
    simpa only [ScopeTree.listing, Prod.mk.injEq] using listing
  rcases Naming.makes_cases makes with ⟨rfl, var, rfl⟩ | ⟨function, held, rfl, global⟩ | ⟨rfl, table, rfl⟩
  · have held := variableAt?_of_standing hangs stands
    rw [if_neg (by decide)] at functions tables
    constructor <;> simp [OrderedMap.contains_eq_isSome_get?, values, functions, tables, classes, hangs, held]
  · obtain ⟨current, found, same⟩ := functionAt?_of_standing hangs stands
    have held : ∃ current, tree.functionAt? id = some current ∧ current.kind = .global :=
      ⟨current, found, same.trans global⟩
    have apart : naming ≠ .value ∧ naming ≠ .table := by cases naming <;> simp_all [Naming.isFunction]
    rw [if_neg apart.1] at values
    rw [if_neg apart.2] at tables
    constructor <;> simp [OrderedMap.contains_eq_isSome_get?, values, functions, function,
      tables, classes, hangs, held]
  · have held := (isTable_iff_standing hangs).2 ⟨table, stands⟩
    rw [if_neg (by decide)] at values functions
    constructor <;> simp [OrderedMap.contains_eq_isSome_get?, values, functions, tables, classes, hangs, held]

/-- A name that is not a class is listed rightly exactly if no table is given to what is something else
already. -/
theorem Filed.lists_iff {before after : ScopeTree} {latest : List Naming} (filed : Filed before name latest)
    (free : before.classId? name = none) (settles : before.Settles after) :
    after.Lists name ↔ (.table ∈ latest → latest.head? = some .table) := by
  have classes : after.globals.classes.get? name = none := by rw [settles.globals]; exact free
  have listing : after.listing name = before.listing name := by simp only [ScopeTree.listing, settles.globals]
  cases latest with
  | nil =>
    obtain ⟨_, nothing⟩ := filed
    exact ⟨fun _ member => absurd member List.not_mem_nil,
      fun _ => lists_of_unlisted (listing.trans nothing) classes⟩
  | cons first rest =>
    obtain ⟨id, kind, hangs, stands, makes, entries⟩ := filed
    have there := settles.links hangs
    have known : after.standing? name = some kind := by
      apply settles.stands stands
      rintro held rfl
      cases first <;> exact makes
    constructor
    · intro lists member
      have tables : after.globals.tables.get? name = some id := by
        have third := congrArg (fun listed => listed.2.2) (listing.trans entries)
        rwa [if_pos member] at third
      obtain ⟨_, isTable⟩ := lists.tables id tables
      obtain ⟨table, same⟩ := (isTable_iff_standing there).1 isTable
      cases known.symm.trans same
      cases first <;> cases makes
      rfl
    · intro alone
      have same : .table ∈ first :: rest ↔ first = .table :=
        ⟨fun member => Option.some.inj (alone member), fun is => is ▸ List.mem_cons_self⟩
      refine lists_of_makes there known makes ?_ classes
      rw [listing, entries]
      simp only [same]

/-- A class is listed rightly exactly if no function is declared under its name. -/
theorem FiledClass.lists_iff {before after : ScopeTree} {id : ScopeId} {namings : List Naming}
    (filed : FiledClass before name id namings) (known : before.classId? name = some id)
    (settles : before.Settles after) :
    after.Lists name ↔ .declaration ∉ namings := by
  have classes : after.globals.classes.get? name = some id := by rw [settles.globals]; exact known
  have listing : after.listing name = before.listing name := by simp only [ScopeTree.listing, settles.globals]
  rw [filed.listing] at listing
  obtain ⟨values, functions, tables⟩ : after.globals.values.get? name = none ∧
      after.globals.functions.get? name = (if .declaration ∈ namings then some id else none) ∧
      after.globals.tables.get? name = none := by
    simpa only [ScopeTree.listing, Prod.mk.injEq] using listing
  constructor
  · intro lists member
    rw [if_pos member] at functions
    have once := lists.once
    simp [OrderedMap.contains_eq_isSome_get?, values, functions, tables, classes] at once
  · intro free
    rw [if_neg free] at functions
    have there := settles.links filed.hangs
    obtain ⟨held, stands⟩ := filed.class_ free
    have isClass := (standing?_class_iff there).1 (settles.class_ stands)
    constructor <;> simp [OrderedMap.contains_eq_isSome_get?, values, functions,
      tables, classes, there, isClass]

/-- When a discovery ends, the indices of the top level are consistent with the tree exactly if no
function is declared under the name of a class, and of the namings of another name, from its last
function on, a table is not given to what something else was made of. -/
theorem indices_consistent_iff (config : DiscoveryConfig) {program : Program} (plain : program.Plain) :
    (discover program config).tree.Indexed ↔ ∀ name,
      (program.DeclaresClass config name → ¬program.DeclaresFunction name) ∧
      (¬program.DeclaresClass config name → Naming.table ∈ program.latestNamings config name →
        (program.latestNamings config name).head? = some .table) := by
  have indexes := indexes_indexed config plain
  have settles := settles_discover config plain
  refine forall_congr' fun name => ?_
  have classed := classId?_indexed config plain name
  cases known : (indexed config program).tree.classId? name with
  | none =>
    have free : ¬program.DeclaresClass config name := by
      rw [← classed, known]
      exact Bool.false_ne_true
    rw [(indexes.filed name known).lists_iff known settles]
    simp only [free, not_false_eq_true, false_implies, true_implies, true_and, Program.latestNamings]
  | some id =>
    have declares : program.DeclaresClass config name := by
      rw [← classed, known]
      rfl
    rw [(indexes.classes name id known).lists_iff known settles, declaration_mem_iff]
    simp only [declares, not_true_eq_false, false_implies, true_implies, and_true]

/-- A value that becomes a function, and a table that is given a value. -/
def renamed : Program where
  body := [
    ⟨.local_ ["count"] [.number "0"], ⟨1, 0, 1, 15⟩⟩,
    ⟨.assign [.name "count"] [.function ⟨["step"], false, []⟩], ⟨2, 0, 2, 26⟩⟩,
    ⟨.assign [.name "Registry"] [.table []], ⟨3, 0, 3, 13⟩⟩,
    ⟨.assign [.name "Registry"] [.number "1"], ⟨4, 0, 4, 12⟩⟩]

/-- The function takes the place of the value, and the table stays a table. -/
theorem renamed_indexed : renamed.Plain ∧ (discover renamed .default).tree.Indexed := by
  have plain : renamed.Plain := by decide
  have namings : renamed.namings .default =
      [("count", .value), ("count", .function), ("Registry", .table), ("Registry", .value)] := by rfl
  refine ⟨plain, (indices_consistent_iff .default plain).2 fun name => ⟨?_, ?_⟩⟩
  · rintro _ ⟨stmt, member, written, isLocal, body, kind, _⟩
    simp only [renamed, List.mem_cons, List.not_mem_nil, or_false] at member
    rcases member with rfl | rfl | rfl | rfl <;> cases kind
  · intro _ member
    rw [Program.latestNamings, namings] at member ⊢
    by_cases count : name = "count"
    · subst count
      revert member
      decide
    · by_cases registry : name = "Registry"
      · subst registry
        decide
      · simp [namingsOf, Ne.symm count, Ne.symm registry, Naming.latest] at member

/-- A value that is given a table. -/
def refilled : Program where
  body := [
    ⟨.assign [.name "x"] [.number "1"], ⟨1, 0, 1, 5⟩⟩,
    ⟨.assign [.name "x"] [.table []], ⟨2, 0, 2, 6⟩⟩]

/-- The name is listed as a value and as a table, and its scope holds no table. -/
theorem table_listed_beside_value :
    (discover refilled .default).tree.globals.values.get? "x" = some ⟨1⟩ ∧
      (discover refilled .default).tree.globals.tables.get? "x" = some ⟨1⟩ ∧
      ((discover refilled .default).tree.entity? ⟨1⟩).map Entity.isTable = some false ∧
      ¬(discover refilled .default).tree.Indexed := by
  have values : (discover refilled .default).tree.globals.values.get? "x" = some ⟨1⟩ := by decide +kernel
  have tables : (discover refilled .default).tree.globals.tables.get? "x" = some ⟨1⟩ := by decide +kernel
  have entity : ((discover refilled .default).tree.entity? ⟨1⟩).map Entity.isTable =
    some false := by decide +kernel
  refine ⟨values, tables, entity, fun indexed => ?_⟩
  obtain ⟨_, held, found, isTable⟩ := (indexed "x").tables ⟨1⟩ tables
  rw [found, Option.map_some, isTable] at entity
  cases entity

end Discovery
end LuaClasses
