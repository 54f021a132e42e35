import LuaClasses.Proofs.ClassRecognition
import LuaClasses.Proofs.Lineage
import LuaClasses.Proofs.DescentAgreement
import Mathlib.Data.List.Chain
import Mathlib.Data.List.Nodup

/-! Superclasses and the links to them. A class that is declared again keeps the place that it had among
the classes and takes the base of its last declaration. Its link goes by that place, so it is there if
the superclass was declared before the first declaration of the class, whichever of them names it. -/

namespace LuaClasses

/-- Whether a class is declared somewhere before the first declaration of another. -/
def DeclaredBeforeFirst (parent name : String) (written : List Derivation) : Prop :=
  ∃ earlier one later, written = earlier ++ one :: later ∧ one.target = some name ∧
    (∀ other ∈ earlier, other.target ≠ some name) ∧ ∃ other ∈ earlier, other.target = some parent

/-- Whether a class is declared somewhere before the last declaration of another, the one that is in force. -/
def DeclaredBeforeLast (parent name : String) (written : List Derivation) : Prop :=
  ∃ earlier one later, written = earlier ++ one :: later ∧ one.target = some name ∧
    (∀ other ∈ later, other.target ≠ some name) ∧ ∃ other ∈ earlier, other.target = some parent

private theorem OrderedMap.position?_eq_some {α : Type} {map : OrderedMap α} {key : String} {place : Nat} :
    map.position? key = some place ↔ key ∈ map.keys ∧ map.keys.idxOf key = place := by
  rw [position?, List.idxOf?_eq_some_iff]
  constructor
  · rintro ⟨inside, rfl, _⟩
    exact ⟨List.getElem_mem inside, List.Nodup.idxOf_getElem map.distinct place inside⟩
  · rintro ⟨member, rfl⟩
    have inside := List.idxOf_lt_length_of_mem member
    refine ⟨inside, List.getElem_idxOf inside, fun earlier before same => ?_⟩
    have first : map.keys.idxOf map.keys[earlier] = earlier := List.Nodup.idxOf_getElem map.distinct earlier _
    rw [same] at first
    exact Nat.ne_of_lt before first.symm

theorem OrderedMap.mem_keys_of_get? {α : Type} {map : OrderedMap α} {key : String} {value : α}
    (found : map.get? key = some value) :
    key ∈ map.keys := by
  rw [mem_keys_iff_contains, contains_eq_isSome_get?, found, Option.isSome_some]

private theorem OrderedMap.exists_get? {α : Type} {map : OrderedMap α} {key : String}
    (member : key ∈ map.keys) :
    ∃ value, map.get? key = some value := by
  rwa [mem_keys_iff_contains, contains_eq_isSome_get?, Option.isSome_iff_exists] at member

/-- In the order of first occurrences a name follows exactly the names that occur before it. -/
theorem idxOf_eraseDups_lt {parent name : String} {earlier later : List String} (fresh : name ∉ earlier) :
    (earlier ++ name :: later).eraseDups.idxOf parent < (earlier ++ name :: later).eraseDups.idxOf name ↔
    parent ∈ earlier := by
  have unlisted : name ∉ earlier.eraseDups := fun listed => fresh (List.mem_eraseDups.1 listed)
  have left : (name :: later).removeAll earlier = name :: later.removeAll earlier := by
    rw [List.cons_removeAll, if_pos (by simpa using fresh)]
  rw [List.eraseDups_append, left, List.eraseDups_cons, List.idxOf_append, List.idxOf_append,
    if_neg unlisted, List.idxOf_cons_self,
    Nat.zero_add]
  by_cases listed : parent ∈ earlier.eraseDups
  · rw [if_pos listed]
    exact iff_of_true (List.idxOf_lt_length_of_mem listed) (List.mem_eraseDups.1 listed)
  · rw [if_neg listed]
    exact iff_of_false (by omega) fun member => listed (List.mem_eraseDups.2 member)

theorem mem_filterMap_target {written : List Derivation} {name : String} :
    name ∈ written.filterMap Derivation.target ↔ ∃ one ∈ written, one.target = some name :=
  List.mem_filterMap

/-- A name that is derived at all is derived for the first time somewhere. -/
theorem exists_first_derivation (written : List Derivation) {name : String}
    (declared : ∃ one ∈ written, one.target = some name) :
    ∃ earlier one later, written = earlier ++ one :: later ∧ one.target = some name ∧ ∀ other ∈ earlier,
      other.target ≠ some name := by
  obtain ⟨one, found⟩ : ∃ one, written.find? (fun one => one.target = some name) = some one := by
    rw [← Option.isSome_iff_exists, List.find?_isSome]
    exact declared.imp fun one held => ⟨held.1, decide_eq_true held.2⟩
  obtain ⟨named, earlier, later, split, fresh⟩ := List.find?_eq_some_iff_append.1 found
  exact ⟨earlier, one, later, split, of_decide_eq_true named, fun other member same => by
    simpa [same] using fresh other member⟩

private theorem exists_last_derivation (written : List Derivation) {name : String}
    (declared : ∃ one ∈ written, one.target = some name) :
    ∃ earlier one later, written = earlier ++ one :: later ∧ one.target = some name ∧ ∀ other ∈ later,
      other.target ≠ some name := by
  obtain ⟨earlier, one, later, split, named, fresh⟩ := exists_first_derivation written.reverse
    (declared.imp fun one held => ⟨List.mem_reverse.2 held.1, held.2⟩)
  refine ⟨later.reverse, one, earlier.reverse, ?_, named,
    fun other member => fresh other (List.mem_reverse.1 member)⟩
  rw [← List.reverse_reverse written, split]
  simp

private theorem DeclaredBeforeFirst.beforeLast {written : List Derivation} {parent name : String}
    (before : DeclaredBeforeFirst parent name written) : DeclaredBeforeLast parent name written := by
  obtain ⟨earlier, one, later, rfl, named, _, other, member, derived⟩ := before
  obtain ⟨skipped, last, rest, split, called, fresh⟩ := exists_last_derivation (one :: later)
    ⟨one, List.mem_cons_self, named⟩
  exact ⟨earlier ++ skipped, last, rest, by
    rw [split, List.append_assoc], called, fresh, other, List.mem_append_left _ member, derived⟩

theorem DeclaredBeforeLast.declared {written : List Derivation} {parent name : String}
    (before : DeclaredBeforeLast parent name written) : ∃ one ∈ written, one.target = some parent := by
  obtain ⟨earlier, one, later, rfl, _, _, other, member, derived⟩ := before
  exact ⟨other, List.mem_append_left _ member, derived⟩

/-- Of two classes the one comes before the other that is declared before the first declaration of the
other. -/
theorem place_lt_iff {written : List Derivation} (parent : String) {name : String}
    (declared : ∃ one ∈ written, one.target = some name) :
    (written.filterMap Derivation.target).eraseDups.idxOf parent <
    (written.filterMap Derivation.target).eraseDups.idxOf name ↔
      DeclaredBeforeFirst parent name written := by
  have order : ∀ {earlier one later}, written = earlier ++ one :: later → one.target = some name →
      (∀ other ∈ earlier, other.target ≠ some name) →
      ((written.filterMap Derivation.target).eraseDups.idxOf parent <
        (written.filterMap Derivation.target).eraseDups.idxOf name ↔
        ∃ other ∈ earlier, other.target = some parent) := by
    intro earlier one later split named fresh
    rw [split, List.filterMap_append, List.filterMap_cons_some named,
      idxOf_eraseDups_lt, mem_filterMap_target]
    intro member
    obtain ⟨other, listed, same⟩ := mem_filterMap_target.1 member
    exact fresh other listed same
  constructor
  · intro before
    obtain ⟨earlier, one, later, split, named, fresh⟩ := exists_first_derivation written declared
    exact ⟨earlier, one, later, split, named, fresh, (order split named fresh).1 before⟩
  · rintro ⟨earlier, one, later, split, named, fresh, listed⟩
    exact (order split named fresh).2 listed

namespace Discovery
open ScopeTree Relation

variable {config : DiscoveryConfig} {program : Program} {state : State} {written : List Derivation}

private theorem superclassLink?_eq_some {tree : ScopeTree} {owner : Class} {parent : ScopeId} :
    superclassLink? tree owner = some parent ↔ ∃ superclass, owner.superclass = some superclass ∧
      tree.classId? superclass = some parent ∧ ∃ place own,
        tree.globals.classes.position? superclass = some place ∧
        tree.globals.classes.position? owner.name = some own ∧ place < own := by
  simp only [superclassLink?, Option.bind_eq_bind, Option.bind_eq_some_iff, Option.ite_none_right_eq_some]
  constructor
  · rintro ⟨superclass, derived, place, before, own, after, less, known⟩
    exact ⟨superclass, derived, known, place, own, before, after, less⟩
  · rintro ⟨superclass, derived, known, place, own, before, after, less⟩
    exact ⟨superclass, derived, place, before, own, after, less, known⟩

/-! ### The classes before they are linked -/

/-- What a class is once some declarations are made: it has the name under which it is found and derives
from the base of its last declaration, without a link. -/
structure Fresh (config : DiscoveryConfig) (written : List Derivation) (tree : ScopeTree) (id : ScopeId)
    (owner : Class) : Prop where
  known : tree.classId? owner.name = some id
  unlinked : owner.superclassLink = none
  derived : ∃ base, lastBase? owner.name written = some base ∧
    owner.superclass = if base = config.rootClass then none else some base

/-- The names of the classes are those of the declarations, in the order in which each came first, and
lead to the scopes below the root that have these names. What is on such a scope may have been lost to
another class; all classes that there are, are listed. -/
structure State.Enrolls (config : DiscoveryConfig) (written : List Derivation) (state : State) : Prop where
  keys : state.tree.globals.classes.keys = (written.filterMap Derivation.target).eraseDups
  found : ∀ {name id}, state.tree.classId? name = some id →
    state.tree.find? (DottedName.child (state.tree.raw root) name) = some id
  listed : ∀ {name id}, state.tree.classId? name = some id → id ∈ state.owners
  fresh : ∀ {id owner}, state.tree.classAt? id = some owner → Fresh config written state.tree id owner

/-- What the declaration of a class does to the classes, wherever its scope and those below it lie. -/
structure ClassPlaced (config : DiscoveryConfig) (name base : String) (id : ScopeId)
    (before after : State) : Prop where
  found : after.tree.find? (DottedName.child (before.tree.raw root) name) = some id
  classes : after.tree.globals.classes = before.tree.globals.classes.insert name id
  bodies : after.classes = (before.resetBodies id).classes
  new : ∀ {owner}, after.tree.classAt? id = some owner → owner.name = name ∧
    owner.superclass = (if base = config.rootClass then none else some base) ∧ owner.superclassLink = none
  old : ∀ {other owner}, after.tree.classAt? other = some owner → other ≠ id →
    ∃ earlier, before.tree.classAt? other = some earlier ∧ earlier.lineage = owner.lineage

private theorem classPlaced_declareClass (config : DiscoveryConfig) (name base : String) (range : Range)
    (state : State) :
    ∃ id, ClassPlaced config name base id state (declareClass config name base range state) := by
  rw [declareClass_eq]
  dsimp only
  generalize given : (if base = config.rootClass then none else some base) = superclass
  have found := find?_internChild .class_ state.tree root name
  have lineal := lineal_internChild state.tree root name .class_
  have globals := globals_internChild .class_ state.tree root name
  have inside := index_internChild .class_ state.tree root name
  generalize state.tree.internChild root name .class_ = below at found lineal globals inside ⊢
  have same := sameShape_vacate (state.withTree below.1) below.2 s!"class `{name}` redefined" range
  have vacated := lineal_vacate (state.withTree below.1) below.2 s!"class `{name}` redefined" range
  have bodies := classes_vacate (state.withTree below.1) below.2 s!"class `{name}` redefined" range
  have globals := (globals_vacate (state.withTree below.1) below.2
    s!"class `{name}` redefined" range).trans globals
  generalize (state.withTree below.1).vacate below.2 s!"class `{name}` redefined" range =
    cleared at same vacated bodies globals ⊢
  have lineal := lineal.trans vacated
  have kept := (grows_internChild cleared.tree below.2 "constructor" .function).find?
    ((same.find? _).trans found)
  have made := lineal_internChild cleared.tree below.2 "constructor" .function
  have globals := (globals_internChild .function cleared.tree below.2 "constructor").trans globals
  rw [placeClass]
  generalize cleared.tree.internChild below.2 "constructor" .function = constructed at kept made globals ⊢
  have classless : Entity.lineage? (.new (.constructor .new)) = none := rfl
  have placed := (lineal.trans made).trans (lineal_setEntity_classless constructed.1 constructed.2 classless)
  have shape := sameShape_setEntity constructed.1 constructed.2 (.new (.constructor .new))
  have kept := (shape.find? _).trans kept
  have globals := (globals_setEntity constructed.1 constructed.2 (.new (.constructor .new))).trans globals
  dsimp only
  generalize constructed.1.setEntity constructed.2 (.new (.constructor .new)) = tree at placed kept globals ⊢
  refine ⟨below.2, ?_, ?_, ?_, ?_, ?_⟩
  · rw [tree_resetBodies]
    exact ((sameShape_setEntity tree below.2 _).find? _).trans kept
  · rw [tree_resetBodies, State.withTree]
    simp only [globals_setEntity, globals]
  · apply classes_resetBodies
    exact bodies
  · intro owner held
    rw [tree_resetBodies, State.withTree] at held
    have held : (tree.setEntity below.2 _).classAt? below.2 = some owner := held
    rw [classAt?, entity?_setEntity_self (index_lt_of_find? kept)] at held
    cases held
    exact ⟨rfl, given.symm, rfl⟩
  · intro other owner held apart
    rw [tree_resetBodies, State.withTree] at held
    have held : (tree.setEntity below.2 _).classAt? other = some owner := held
    rw [classAt?, entity?_setEntity, if_neg apart] at held
    exact placed.classAt? held

namespace State.Enrolls

theorem initial (config : DiscoveryConfig) : (State.initial config).Enrolls config [] where
  keys := rfl
  found := nofun
  listed := nofun
  fresh := by
    intro id owner held
    rw [State.initial, classAt?, entity?_new] at held
    cases held

variable (enrolls : state.Enrolls config written) {one : Derivation}
include enrolls

theorem skip (unnamed : one.target = none) :
    (declare config state one).Enrolls config (written ++ [one]) := by
  simp only [declare, unnamed]
  constructor
  · rw [State.tree_warn, List.filterMap_append, List.filterMap_cons_none unnamed,
      List.filterMap_nil, List.append_nil]
    exact enrolls.keys
  · rw [State.tree_warn]
    exact enrolls.found
  · rw [State.tree_warn, State.owners, State.classes_warn]
    exact enrolls.listed
  · rw [State.tree_warn]
    intro id owner held
    obtain ⟨known, unlinked, base, last, derived⟩ := enrolls.fresh held
    refine ⟨known, unlinked, base, ?_, derived⟩
    rw [lastBase?_concat, unnamed, if_neg (by simp)]
    exact last

theorem class_ (formed : state.Formed) {name : String} (named : one.target = some name) :
    (declare config state one).Enrolls config (written ++ [one]) := by
  have kept := (revises_declareClass config name one.base one.range state formed).2
  have rooted := kept.raw formed.tree formed.tree.root_lt
  obtain ⟨id, placed⟩ := classPlaced_declareClass config name one.base one.range state
  simp only [declare, named]
  generalize declareClass config name one.base one.range state = after at kept rooted placed ⊢
  have sole : ∀ {old}, state.tree.classId? name = some old → old = id := fun known =>
    Option.some.inj ((kept _ _ (enrolls.found known)).symm.trans placed.found)
  have known : ∀ other, after.tree.classId? other =
      if other = name then some id else state.tree.classId? other := by
    intro other
    rw [classId?, placed.classes, OrderedMap.get?_insert, classId?]
  constructor
  · rw [placed.classes, OrderedMap.keys_insert, List.filterMap_append,
      List.filterMap_cons_some named, List.filterMap_nil,
      List.eraseDups_append, ← enrolls.keys, List.cons_removeAll]
    have same : state.tree.globals.classes.contains name =
        (written.filterMap Derivation.target).contains name := by
      rw [OrderedMap.contains, enrolls.keys, Bool.eq_iff_iff]
      simp only [List.contains_iff_mem, List.mem_eraseDups]
    rw [same]
    cases (written.filterMap Derivation.target).contains name with
    | false => simp [List.eraseDups_cons]
    | true => simp
  · intro other held found
    rw [rooted]
    rw [known] at found
    split at found
    next same => cases found; rw [same]; exact placed.found
    next => exact kept _ _ (enrolls.found found)
  · intro other held found
    rw [State.owners, placed.bodies]
    apply mem_owners_resetBodies
    rw [known] at found
    split at found
    next => cases found; exact .inl rfl
    next => exact .inr (enrolls.listed found)
  · intro other owner held
    by_cases same : other = id
    · subst same
      obtain ⟨called, superclass, unlinked⟩ := placed.new held
      refine ⟨?_, unlinked, one.base, ?_, superclass⟩
      · rw [known, called, if_pos rfl]
      · rw [lastBase?_concat, called, if_pos named]
    · obtain ⟨earlier, placed, line⟩ := placed.old held same
      obtain ⟨found, unlinked, base, last, derived⟩ := enrolls.fresh placed
      simp only [Class.lineage, Prod.mk.injEq] at line
      obtain ⟨called, superclass, link⟩ := line
      rw [called] at found last
      have different : owner.name ≠ name := fun equal => same (sole (equal ▸ found))
      refine ⟨?_, link ▸ unlinked, base, ?_, superclass ▸ derived⟩
      · rw [known, if_neg different]
        exact found
      · rw [lastBase?_concat, named, if_neg fun equal => different (Option.some.inj equal).symm]
        exact last

end State.Enrolls

private theorem enrolls_declarations {rest : List Derivation} (formed : state.Formed)
    (enrolls : state.Enrolls config written) :
    (rest.foldl (declare config) state).Enrolls config (written ++ rest) := by
  induction rest generalizing state written with
  | nil => rw [List.append_nil]; exact enrolls
  | cons one rest ih =>
    rw [List.foldl_cons, List.append_cons]
    refine ih ?_ ?_
    · rw [declare]
      split
      next => exact (revises_declareClass config _ one.base one.range state formed).1
      next => exact (state.revises_warn _ _ _ formed).1
    · cases target : one.target with
      | none => exact enrolls.skip target
      | some name => exact enrolls.class_ formed target

/-! ### The links -/

/-- A class with its link, if it has a superclass. -/
def linkIn (tree : ScopeTree) (owner : Class) : Class :=
  if owner.superclass.isNone then owner else { owner with superclassLink := superclassLink? tree owner }

private theorem superclassLink?_congr {tree other : ScopeTree} (same : other.globals = tree.globals)
    (owner : Class) :
    superclassLink? other owner = superclassLink? tree owner := by
  simp only [superclassLink?, classId?, same]

private theorem linkIn_congr {tree other : ScopeTree} (same : other.globals = tree.globals) :
    linkIn other = linkIn tree := by
  funext owner
  rw [linkIn, linkIn, superclassLink?_congr same]

private theorem linkIn_linkIn (tree : ScopeTree) (owner : Class) :
    linkIn tree (linkIn tree owner) = linkIn tree owner := by
  unfold linkIn
  cases derived : owner.superclass with
  | none => simp [derived]
  | some base => simp [derived, superclassLink?]

private theorem lineage_linkIn (tree : ScopeTree) {owner : Class} (unlinked : owner.superclassLink = none) :
    (linkIn tree owner).lineage = (owner.name, owner.superclass, superclassLink? tree owner) := by
  unfold linkIn
  cases derived : owner.superclass with
  | none => simp [Class.lineage, superclassLink?, derived, unlinked]
  | some base => simp [Class.lineage]

private theorem globals_linkClass (tree : ScopeTree) (id : ScopeId) :
    (linkClass tree id).globals = tree.globals := by
  rcases State.Recognizes.linkClass_cases tree id with same | ⟨link, same⟩
  · rw [same]
  · rw [same, ScopeTree.modifyClass, globals_modifyEntity]

private theorem classAt?_linkClass (tree : ScopeTree) (id other : ScopeId) :
    (linkClass tree id).classAt? other = (tree.classAt? other).map fun owner =>
      if other = id then linkIn tree owner else owner := by
  by_cases same : other = id
  · subst same
    simp only [if_true, linkClass, linkIn]
    cases held : tree.classAt? other with
    | none => exact held
    | some owner =>
      dsimp only [Option.map_some]
      split
      next => exact held
      next => rw [classAt?_modifyClass_self, held, Option.map_some]
  · simp only [if_neg same, Option.map_id']
    rcases State.Recognizes.linkClass_cases tree id with unchanged | ⟨link, changed⟩
    · rw [unchanged]
    · rw [changed, classAt?, ScopeTree.modifyClass, entity?_modifyEntity, if_neg same, classAt?]

private theorem classAt?_linkClasses (ids : List ScopeId) (tree : ScopeTree) (other : ScopeId) :
    (ids.foldl linkClass tree).classAt? other = (tree.classAt? other).map fun owner =>
    if other ∈ ids then linkIn tree owner else owner := by
  induction ids generalizing tree with
  | nil => simp
  | cons id rest ih =>
    rw [List.foldl_cons, ih, classAt?_linkClass, Option.map_map, linkIn_congr (globals_linkClass tree id)]
    congr 1
    funext owner
    by_cases first : other = id <;> by_cases later : other ∈ rest <;> simp [first, later, linkIn_linkIn]

private theorem globals_linkClasses (ids : List ScopeId) (tree : ScopeTree) :
    (ids.foldl linkClass tree).globals = tree.globals := by
  induction ids generalizing tree with
  | nil => rfl
  | cons id rest ih => rw [List.foldl_cons, ih, globals_linkClass]

/-- What a class is once the classes are linked: it derives from the base of its last declaration, and
its link goes by the places of the two names. -/
structure Linked (config : DiscoveryConfig) (written : List Derivation) (tree : ScopeTree) (id : ScopeId)
    (owner : Class) : Prop where
  known : tree.classId? owner.name = some id
  link : owner.superclassLink = superclassLink? tree owner
  derived : ∃ base, lastBase? owner.name written = some base ∧
    owner.superclass = if base = config.rootClass then none else some base

private theorem enrolls_declared (config : DiscoveryConfig) (program : Program) :
    ((program.body.foldl (declareStatement config) (.initial config))).Enrolls config
    (program.derivations config) := by
  rw [declareStatements_eq, ← Program.derivations]
  exact enrolls_declarations (formed_initial config) (.initial config)

private theorem keys_declared (config : DiscoveryConfig) (program : Program) :
    (declared config program).tree.globals.classes.keys =
    ((program.derivations config).filterMap Derivation.target).eraseDups := by
  rw [← (enrolls_declared config program).keys, declared, declareClasses, State.withTree, globals_linkClasses]

/-- Different names lead to different scopes. -/
theorem name_unique_declared {one two : String} {id : ScopeId}
    (first : (declared config program).tree.classId? one = some id)
    (second : (declared config program).tree.classId? two = some id) : one = two := by
  have enrolls := enrolls_declared config program
  simp only [declared, declareClasses, State.withTree, classId?, globals_linkClasses] at first second
  have path := (raw_of_find? (enrolls.found first)).symm.trans (raw_of_find? (enrolls.found second))
  exact (String.append_right_inj _).1 path

private theorem linked_declared {id : ScopeId} {owner : Class}
    (held : (declared config program).tree.classAt? id = some owner) :
    Linked config (program.derivations config) (declared config program).tree id owner := by
  have enrolls := enrolls_declared config program
  rw [declared, declareClasses] at held ⊢
  generalize program.body.foldl (declareStatement config) (.initial config) = state at enrolls held ⊢
  have globals := globals_linkClasses state.owners state.tree
  simp only [State.withTree] at held ⊢
  rw [← State.owners] at held ⊢
  rw [classAt?_linkClasses] at held
  obtain ⟨fresh, found, same⟩ := Option.map_eq_some_iff.1 held
  obtain ⟨known, unlinked, derived⟩ := enrolls.fresh found
  rw [if_pos (enrolls.listed known)] at same
  have line := lineage_linkIn state.tree unlinked
  rw [same, Class.lineage, Prod.mk.injEq, Prod.mk.injEq] at line
  obtain ⟨called, superclass, link⟩ := line
  refine ⟨?_, ?_, ?_⟩
  · rw [called, classId?, globals]
    exact known
  · rw [superclassLink?_congr globals, link, superclassLink?, superclassLink?, called, superclass]
  · rw [called, superclass]
    exact derived

private theorem lastBase?_isSome {name : String} :
    (lastBase? name written).isSome = true ↔ ∃ one ∈ written, one.target = some name := by
  rw [lastBase?, Option.isSome_map, List.getLast?_isSome, Ne, List.filter_eq_nil_iff]
  simp

/-- Of a class whose last declaration names another class as its base, the link is there exactly if the
base was declared before the first declaration of the class. So it is there where the base was declared
before the last declaration, unless the base was not declared before the first. -/
theorem superclass_linked_iff {name base : String} {id : ScopeId} {owner : Class}
    (known : (declared config program).tree.classId? name = some id)
    (held : (declared config program).tree.classAt? id = some owner)
    (derived : lastBase? name (program.derivations config) = some base) (named : base ≠ config.rootClass) :
    owner.name = name ∧ owner.superclass = some base ∧
    (∀ parent, owner.superclassLink = some parent ↔
      (declared config program).tree.classId? base = some parent ∧
      DeclaredBeforeFirst base name (program.derivations config)) ∧
    ((∀ parent, owner.superclassLink = some parent ↔
      (declared config program).tree.classId? base = some parent ∧
        DeclaredBeforeLast base name (program.derivations config)) ↔
      (DeclaredBeforeLast base name (program.derivations config) →
        DeclaredBeforeFirst base name (program.derivations config))) := by
  obtain ⟨registered, link, last, found, superclass⟩ := linked_declared held
  have called := name_unique_declared registered known
  rw [called, derived] at found
  cases found
  rw [if_neg named] at superclass
  have order := place_lt_iff base (lastBase?_isSome.1 (Option.isSome_of_eq_some derived))
  rw [← keys_declared] at order
  have linked : ∀ parent, owner.superclassLink = some parent ↔
    (declared config program).tree.classId? base = some parent ∧
      DeclaredBeforeFirst base name (program.derivations config) := by
    intro parent
    rw [link, superclassLink?_eq_some, ← order]
    constructor
    · rintro ⟨other, same, found, place, own, parentPlace, ownPlace, less⟩
      cases superclass.symm.trans same
      rw [called] at ownPlace
      obtain ⟨_, rfl⟩ := OrderedMap.position?_eq_some.1 parentPlace
      obtain ⟨_, rfl⟩ := OrderedMap.position?_eq_some.1 ownPlace
      exact ⟨found, less⟩
    · rintro ⟨found, less⟩
      have place := OrderedMap.position?_eq_some.2 ⟨OrderedMap.mem_keys_of_get? found, rfl⟩
      have own := OrderedMap.position?_eq_some.2 ⟨OrderedMap.mem_keys_of_get? known, rfl⟩
      exact ⟨base, superclass, found, _, _, place, called ▸ own, less⟩
  refine ⟨called, superclass, linked, fun claimed before => ?_, fun first parent => ?_⟩
  · have member : base ∈ (declared config program).tree.globals.classes.keys := by
      rw [keys_declared, List.mem_eraseDups, mem_filterMap_target]
      exact before.declared
    obtain ⟨parent, found⟩ := OrderedMap.exists_get? member
    exact ((linked parent).1 ((claimed parent).2 ⟨found, before⟩)).2
  · rw [linked]
    exact and_congr_right fun _ => ⟨DeclaredBeforeFirst.beforeLast, first⟩

/-- Two classes side by side, and the second of them declared again with a base. -/
def rebasedText (base again : String) : String :=
  "Foo = ISBaseObject:derive(\"Foo\")\nBar = ISBaseObject:derive(\"Bar\")\n" ++ again ++ " = " ++ base ++
    ":derive(\"" ++ again ++ "\")"

/-- The class that comes second is linked to the first when it is declared again with the first as its
base. -/
theorem later_class_linked : ∃ program, Program.ofText (rebasedText "Foo" "Bar") = .ok program ∧
    ∃ id owner parent, (declared .default program).tree.classId? "Bar" = some id ∧
      (declared .default program).tree.classAt? id = some owner ∧
      lastBase? "Bar" (program.derivations .default) = some "Foo" ∧
      DeclaredBeforeFirst "Foo" "Bar" (program.derivations .default) ∧
      (declared .default program).tree.classId? "Foo" = some parent ∧ owner.superclassLink = some parent := by
  obtain ⟨program, parsed, targets, last, known, found, held⟩ : ∃ program,
    Program.ofText (rebasedText "Foo" "Bar") = .ok program ∧
      (program.derivations .default).map Derivation.target = [some "Foo", some "Bar", some "Bar"] ∧
      lastBase? "Bar" (program.derivations .default) = some "Foo" ∧
      (declared .default program).tree.classId? "Bar" = some ⟨3⟩ ∧
      (declared .default program).tree.classId? "Foo" = some ⟨1⟩ ∧
      ((declared .default program).tree.classAt? ⟨3⟩).isSome = true :=
    Program.exists_ofText _ (by decide +kernel)
  obtain ⟨owner, held⟩ := Option.isSome_iff_exists.1 held
  obtain ⟨foo, _, split, first, rest⟩ := List.map_eq_cons_iff.1 targets
  obtain ⟨bar, more, rfl, second, _⟩ := List.map_eq_cons_iff.1 rest
  have before : DeclaredBeforeFirst "Foo" "Bar" (program.derivations .default) := by
    refine ⟨[foo], bar, more, split, second, fun other member => ?_, foo, List.mem_singleton_self foo, first⟩
    rw [List.mem_singleton.1 member, first]
    decide
  obtain ⟨_, _, linked, _⟩ := superclass_linked_iff known held last (by decide)
  exact ⟨program, parsed, _, owner, _, known, held, last, before, found, (linked _).2 ⟨found, before⟩⟩

/-- The class that comes first is not linked to the second, although it was declared again after the
second and with it as its base. -/
theorem earlier_class_unlinked : ∃ program, Program.ofText (rebasedText "Bar" "Foo") = .ok program ∧
    ∃ owner, (declared .default program).tree.classId? "Foo" = some ⟨1⟩ ∧
      (declared .default program).tree.classAt? ⟨1⟩ = some owner ∧
      lastBase? "Foo" (program.derivations .default) = some "Bar" ∧
      owner.superclass = some "Bar" ∧ DeclaredBeforeLast "Bar" "Foo" (program.derivations .default) ∧
      (declared .default program).tree.classId? "Bar" = some ⟨3⟩ ∧ owner.superclassLink = none := by
  obtain ⟨program, parsed, targets, last, known, found, line⟩ : ∃ program,
    Program.ofText (rebasedText "Bar" "Foo") = .ok program ∧
      (program.derivations .default).map Derivation.target = [some "Foo", some "Bar", some "Foo"] ∧
      lastBase? "Foo" (program.derivations .default) = some "Bar" ∧
      (declared .default program).tree.classId? "Foo" = some ⟨1⟩ ∧
      (declared .default program).tree.classId? "Bar" = some ⟨3⟩ ∧
      ((declared .default program).tree.classAt? ⟨1⟩).map Class.lineage = some ("Foo", some "Bar", none) :=
    Program.exists_ofText _ (by decide +kernel)
  obtain ⟨owner, held, line⟩ := Option.map_eq_some_iff.1 line
  simp only [Class.lineage, Prod.mk.injEq] at line
  obtain ⟨foo, _, split, _, rest⟩ := List.map_eq_cons_iff.1 targets
  obtain ⟨bar, _, rfl, second, rest⟩ := List.map_eq_cons_iff.1 rest
  obtain ⟨again, more, rfl, third, rest⟩ := List.map_eq_cons_iff.1 rest
  have before : DeclaredBeforeLast "Bar" "Foo" (program.derivations .default) := by
    refine ⟨[foo, bar], again, more, split, third, fun other member => ?_, bar, by simp, second⟩
    rw [List.map_eq_nil_iff.1 rest] at member
    cases member
  exact ⟨program, parsed, owner, known, held, last, line.2.1, before, found, line.2.2⟩

/-! ### Chains of superclasses -/

end Discovery

/-- The superclass that a class is linked to. -/
def ScopeTree.superclassOf? (tree : ScopeTree) (id : ScopeId) : Option ScopeId :=
  (tree.classAt? id).bind Class.superclassLink

/-- The place of a scope among those to which the names of the classes lead. -/
def ScopeTree.classPlace (tree : ScopeTree) (id : ScopeId) : Nat := tree.globals.classes.values.idxOf id

private theorem OrderedMap.nodup_values {α : Type} {map : OrderedMap α}
    (unique : ∀ {one two value}, map.get? one = some value → map.get? two = some value → one = two) :
    map.values.Nodup := by
  refine List.pairwise_map.2 ((List.pairwise_map.1 map.distinct).imp_of_mem
    fun {one two} first second apart same => apart ?_)
  have left := (get?_eq_some_iff map one.1 one.2).2 first
  have right := (get?_eq_some_iff map two.1 two.2).2 second
  exact unique (left.trans (congrArg some same)) right

/-- Where names lead to different values, the place of a name is that of its value. -/
theorem OrderedMap.idxOf_values {map : OrderedMap ScopeId} (distinct : map.values.Nodup) {key : String}
    {value : ScopeId} (found : map.get? key = some value) {place : Nat}
    (stands : map.position? key = some place) : map.values.idxOf value = place := by
  obtain ⟨member, rfl⟩ := position?_eq_some.1 stands
  have within := List.idxOf_lt_length_of_mem member
  have inside : map.keys.idxOf key < map.entries.length := by rwa [keys, List.length_map] at within
  have named : (map.entries[map.keys.idxOf key]).1 = key := by
    have first := List.getElem_idxOf within
    simp only [keys, List.getElem_map] at first
    exact first
  have held : map.get? (map.entries[map.keys.idxOf key]).1 = some (map.entries[map.keys.idxOf key]).2 :=
    (get?_eq_some_iff map _ _).2 (List.getElem_mem inside)
  rw [named, found] at held
  have placed := List.Nodup.idxOf_getElem distinct (map.keys.idxOf key)
    (by rw [values, List.length_map]; exact inside)
  simp only [values, List.getElem_map, ← Option.some.inj held] at placed
  exact placed

namespace Discovery
open ScopeTree

/-- What the classes of the end of a discovery are found under and linked to. -/
theorem linked_discover {id : ScopeId} {owner : Class}
    (held : (discover program config).tree.classAt? id = some owner) :
    (discover program config).tree.classId? owner.name = some id ∧
      owner.superclassLink = superclassLink? (discover program config).tree owner := by
  have lineal := lineal_discover config program
  obtain ⟨earlier, found, line⟩ := lineal.classAt? held
  obtain ⟨known, link, _⟩ := linked_declared found
  simp only [Class.lineage, Prod.mk.injEq] at line
  obtain ⟨called, superclass, same⟩ := line
  rw [called] at known
  refine ⟨?_, ?_⟩
  · rw [classId?, lineal.classes]
    exact known
  · rw [← same, link]
    simp only [superclassLink?, classId?, called, superclass, lineal.classes]

private theorem nodup_classes_discover (config : DiscoveryConfig) (program : Program) :
    (discover program config).tree.globals.classes.values.Nodup := by
  rw [(lineal_discover config program).classes]
  exact OrderedMap.nodup_values name_unique_declared

/-- A link leads to what is registered under the name of the superclass, at an earlier place than the
class. -/
theorem superclassOf?_discover {id parent : ScopeId}
    (linked : (discover program config).tree.superclassOf? id = some parent) :
    ∃ owner superclass, (discover program config).tree.classAt? id = some owner ∧
      owner.superclass = some superclass ∧
      (discover program config).tree.classId? superclass = some parent ∧
      (discover program config).tree.classPlace parent < (discover program config).tree.classPlace id := by
  obtain ⟨owner, held, link⟩ := Option.bind_eq_some_iff.1 linked
  obtain ⟨known, computed⟩ := linked_discover held
  rw [link, eq_comm, superclassLink?_eq_some] at computed
  obtain ⟨superclass, derived, found, place, own, parentPlace, ownPlace, less⟩ := computed
  have distinct := nodup_classes_discover config program
  refine ⟨owner, superclass, held, derived, found, ?_⟩
  rw [classPlace, classPlace, OrderedMap.idxOf_values distinct found parentPlace,
    OrderedMap.idxOf_values distinct known ownPlace]
  exact less

/-- When a discovery ends, each link leads from a class to what is registered under the name of its
superclass. Along the links from class to class the places among the classes descend, so no scope is met
twice and there are no more of them than classes. -/
theorem superclasses_descend (config : DiscoveryConfig) (program : Program) :
    let tree := (discover program config).tree
    (∀ {id owner parent}, tree.classAt? id = some owner → owner.superclassLink = some parent →
      ∃ superclass, owner.superclass = some superclass ∧ tree.classId? superclass = some parent) ∧
    ∀ {first : ScopeId} {rest : List ScopeId}, (tree.classAt? first).isSome →
      (first :: rest).IsChain (fun id parent => tree.superclassOf? id = some parent) →
      (first :: rest) ⊆ tree.globals.classes.values ∧ ((first :: rest).map tree.classPlace).Pairwise (· > ·) ∧
      (first :: rest).Nodup ∧ (first :: rest).length ≤ tree.globals.classes.values.length := by
  intro tree
  refine ⟨fun {id owner parent} held link => ?_, fun {first rest} isClass chain => ?_⟩
  · obtain ⟨same, superclass, found, derived, leads, _⟩ :=
      superclassOf?_discover (Option.bind_eq_some_iff.2 ⟨owner, held, link⟩)
    cases held.symm.trans found
    exact ⟨superclass, derived, leads⟩
  · have listed : (first :: rest) ⊆ tree.globals.classes.values := by
      obtain ⟨owner, held⟩ := Option.isSome_iff_exists.1 isClass
      have start : first ∈ tree.globals.classes.values :=
        List.mem_map_of_mem (f := Prod.snd) (OrderedMap.mem_entries_of_get? (linked_discover held).1)
      clear isClass held
      induction rest generalizing first with
      | nil => exact List.cons_subset.2 ⟨start, List.nil_subset _⟩
      | cons second rest ih =>
        obtain ⟨link, further⟩ := List.isChain_cons_cons.1 chain
        obtain ⟨_, _, _, _, leads, _⟩ := superclassOf?_discover link
        refine List.cons_subset.2 ⟨start, ih further ?_⟩
        exact List.mem_map_of_mem (f := Prod.snd) (OrderedMap.mem_entries_of_get? leads)
    have descends : ((first :: rest).map tree.classPlace).Pairwise (· > ·) := by
      refine List.IsChain.pairwise (List.isChain_map _ |>.2 (chain.imp fun id parent link => ?_))
      obtain ⟨_, _, _, _, _, less⟩ := superclassOf?_discover link
      exact less
    have distinct : (first :: rest).Nodup := List.Nodup.of_map _ (descends.imp Nat.ne_of_gt)
    exact ⟨listed, descends, distinct, distinct.length_le_of_subset listed⟩

/-- Three classes of which each derives from the one before, the first from the last. -/
def cyclicText : String :=
  "Foo = Baz:derive(\"Foo\")\nBar = Foo:derive(\"Bar\")\nBaz = Bar:derive(\"Baz\")"

/-- The links go from the last class to the first and end there. -/
theorem cyclic_superclasses_descend : ∃ program, Program.ofText cyclicText = .ok program ∧
    (discover program .default).tree.superclassOf? ⟨5⟩ = some ⟨3⟩ ∧
    (discover program .default).tree.superclassOf? ⟨3⟩ = some ⟨1⟩ ∧
    (discover program .default).tree.superclassOf? ⟨1⟩ = none ∧
    (([⟨5⟩, ⟨3⟩, ⟨1⟩] : List ScopeId).map (discover program .default).tree.classPlace).Pairwise (· > ·) := by
  obtain ⟨program, parsed, isClass, first, second, last⟩ : ∃ program,
    Program.ofText cyclicText = .ok program ∧
      ((discover program .default).tree.classAt? ⟨5⟩).isSome = true ∧
      (discover program .default).tree.superclassOf? ⟨5⟩ = some ⟨3⟩ ∧
      (discover program .default).tree.superclassOf? ⟨3⟩ = some ⟨1⟩ ∧
      (discover program .default).tree.superclassOf? ⟨1⟩ = none :=
    Program.exists_ofText _ (by decide +kernel)
  have chain : ([⟨5⟩, ⟨3⟩, ⟨1⟩] : List ScopeId).IsChain fun id parent =>
      (discover program .default).tree.superclassOf? id = some parent :=
    .cons_cons first (.cons_cons second (.singleton _))
  exact ⟨program, parsed, first, second, last, ((superclasses_descend .default program).2 isClass chain).2.1⟩

end Discovery
end LuaClasses
