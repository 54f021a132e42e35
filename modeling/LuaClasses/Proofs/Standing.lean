import LuaClasses.Proofs.Enlistment

/-! What the names of the top level stand for, and what each write of the top level makes of it. A write
under one name leaves the others as they are, those included that no scope has yet. -/

namespace LuaClasses

namespace ScopeTree

/-- What a name of the top level stands for, but for what growth may add to it. -/
def standing? (tree : ScopeTree) (name : String) : Option EntityKind :=
  ((tree.child? root name).bind tree.entity?).map fun entity => entity.kind.outline

variable {tree before after : ScopeTree} {name : String} {id : ScopeId}

theorem standing?_of_hangs (hangs : tree.child? root name = some id) :
    tree.standing? name = (tree.entity? id).map fun entity => entity.kind.outline := by
  rw [standing?, hangs, Option.bind_some]

theorem standing?_eq_some {kind : EntityKind} :
    tree.standing? name = some kind ↔
      ∃ id entity, tree.child? root name = some id ∧ tree.entity? id = some entity ∧
        entity.kind.outline = kind := by
  constructor
  · intro stands
    obtain ⟨entity, found, outline⟩ := Option.map_eq_some_iff.1 stands
    obtain ⟨id, hangs, held⟩ := Option.bind_eq_some_iff.1 found
    exact ⟨id, entity, hangs, held, outline⟩
  · rintro ⟨id, entity, hangs, held, outline⟩
    rw [standing?_of_hangs hangs, held, Option.map_some, outline]

/-- A scope that came to hang under a name had no entity before. -/
theorem vacant_of_new_child (formed : before.Formed) (last : after.Formed) (links : before.Links after)
    (absent : before.child? root name = none) (hangs : after.child? root name = some id) :
    before.entity? id = none := by
  cases held : before.entity? id with
  | none => rfl
  | some entity =>
    obtain ⟨node, found⟩ := exists_node? (index_lt_of_entity? held)
    obtain ⟨_, _, _, _, older, _⟩ := last.child hangs
    have apart : id ≠ root := fun same => Nat.lt_irrefl _ (same ▸ older)
    obtain ⟨holder, _, _, below⟩ := formed.below found apart
    obtain ⟨rfl, named⟩ := last.child_unique (links below) hangs
    rw [named, absent] at below
    cases below

/-- A name goes on to stand for the same if the scope under it has the same entity as before. -/
theorem standing?_congr (formed : before.Formed) (last : after.Formed) (links : before.Links after)
    (same : ∀ id, after.child? root name = some id →
      (after.entity? id).map (fun entity => entity.kind.outline) = (before.entity? id).map
      fun entity => entity.kind.outline) :
    after.standing? name = before.standing? name := by
  cases found : before.child? root name with
  | some id =>
    have hangs := links found
    rw [standing?_of_hangs hangs, standing?_of_hangs found, same id hangs]
  | none =>
    have unnamed : before.standing? name = none := by rw [standing?, found, Option.bind_none, Option.map_none]
    cases hangs : after.child? root name with
    | none => rw [unnamed, standing?, hangs, Option.bind_none, Option.map_none]
    | some id =>
      rw [standing?_of_hangs hangs, same id hangs, vacant_of_new_child formed last links found hangs,
        unnamed, Option.map_none]

/-- Growth changes no name of the top level, unless it places an entity under it. -/
theorem Grows.standing? (grows : before.Grows after) (formed : before.Formed) (last : after.Formed)
    (fresh : ∀ id, before.entity? id = none → after.child? root name = some id → after.entity? id = none) :
    after.standing? name = before.standing? name := by
  refine standing?_congr formed last grows.links fun id hangs => ?_
  cases held : before.entity? id with
  | none => rw [fresh id held hangs]
  | some entity =>
    obtain ⟨later, reached, grown⟩ := grows.entity? held
    rw [reached, Option.map_some, Option.map_some, grown.outline]

private theorem standing?_internChild (formed : tree.Formed) {parent : ScopeId}
    (inside : parent.index < tree.size) (made : String) (valueType : ValueType) (name : String) :
    (tree.internChild parent made valueType).1.standing? name = tree.standing? name := by
  refine (tree.grows_internChild parent made valueType).standing? formed
    (formed.internChild inside made valueType) fun id vacant _ => ?_
  rw [entity?_internChild, vacant]

/-- What changes a scope of the top level and what is below it leaves the other names as they are. -/
theorem Aside.standing? (aside : Aside before after id id) (hangs : after.child? root name = some id)
    {other : String} (apart : other ≠ name) : after.standing? other = before.standing? other := by
  refine standing?_congr aside.formed aside.last aside.links fun member below => ?_
  have different : member ≠ id := fun same => apart (aside.last.child_unique below (same ▸ hangs)).2
  have top := aside.last.parent?_of_child hangs
  rw [aside.others different]
  rw [ancestors_of_parent? aside.last (aside.last.parent?_of_child below),
    ancestors_of_top aside.last.parent?_root]
  simp only [List.mem_cons, List.not_mem_nil, or_false, not_or]
  exact ⟨different.symm, aside.last.ne_root top⟩

private theorem standing?_setEntity_self (hangs : tree.child? root name = some id)
    (inside : id.index < tree.size) (entity : Entity) :
    (tree.setEntity id entity).standing? name = some entity.kind.outline := by
  rw [standing?_of_hangs ((sameShape_setEntity tree id entity).links hangs),
    entity?_setEntity_self inside, Option.map_some]

private theorem standing?_setEntity_other (away : tree.child? root name ≠ some id) (entity : Entity) :
    (tree.setEntity id entity).standing? name = tree.standing? name := by
  have same := sameShape_setEntity tree id entity
  cases found : tree.child? root name with
  | none => rw [standing?, standing?, same.child?, found, Option.bind_none, Option.bind_none]
  | some child =>
    rw [standing?_of_hangs ((same.child? _ _).trans found), standing?_of_hangs found,
      entity?_setEntity, if_neg]
    rintro rfl
    exact away found

@[simp] theorem standing?_withGlobals (tree : ScopeTree) (globals : Globals) (name : String) :
    ({ tree with globals } : ScopeTree).standing? name = tree.standing? name := rfl

/-- From the root a name without dots leads to what hangs under it. -/
theorem lookup_root (formed : tree.Formed) (plain : '.' ∉ name.toList) :
    tree.lookup name root = (tree.child? root name).filter fun found => tree.hasEntity found := by
  have descends : tree.resolveRelative root name = tree.child? root name := by
    rw [resolveRelative, DottedName.segments_of_dotless plain]
    simp
  rw [lookup, ancestors_of_top formed.parent?_root, List.findSome?_cons, descends, List.findSome?_nil]
  cases (tree.child? root name).filter fun found => tree.hasEntity found <;> rfl

end ScopeTree

namespace Discovery
open ScopeTree

variable {tree : ScopeTree} {name : String}

/-! ### The writes of the top level -/

/-- What a write under one name of the top level makes of it. -/
structure Writes (before after : ScopeTree) (name : String) (id : ScopeId) (kind : EntityKind) : Prop where
  hangs : after.child? root name = some id
  stands : after.standing? name = some kind
  others : ∀ {other}, other ≠ name → after.standing? other = before.standing? other

/-- A class takes the place of whatever has its name. -/
theorem writes_placeClass {id : ScopeId} (tidy : tree.TidyBut id) (hangs : tree.child? root name = some id)
    (superclass : Option String) :
    ∃ kind, Writes tree (placeClass tree id name superclass) name id (.class_ kind) := by
  have dots : '.' ∉ "constructor".toList := by decide
  have links := links_placeClass tree id name superclass
  have first := tidy.internChild tidy.index_lt dots .function
  have below := tidy.dotless.child?_internChild tidy.formed dots tidy.index_lt .function
  have kept := (tree.grows_internChild id "constructor" .function).links hangs
  have made := standing?_internChild tidy.formed tidy.index_lt "constructor" .function
  refine ⟨{ Class.new name (tree.internChild id "constructor" .function).2 with superclass },
    links hangs, ?_, fun {other} apart => ?_⟩
  all_goals
    unfold placeClass
    dsimp only
    generalize tree.internChild id "constructor" .function = constructor at first below kept made ⊢
    have shape := sameShape_setEntity constructor.1 constructor.2 (.new (.constructor .new))
  · exact standing?_setEntity_self (shape.links kept) (shape.size ▸ first.index_lt) _
  · have inner := first.formed.not_top first.top (first.formed.parent?_of_child below)
    rw [standing?_setEntity_other, standing?_setEntity_other, made]
    · exact fun same => inner (first.formed.parent?_of_child same)
    · intro same
      rw [shape.child?] at same
      exact apart (first.formed.child_unique same kept).2

/-- The scope of a name is made and vacated, and no other name stands for anything else. -/
structure Vacated (before after : ScopeTree) (name : String) (id : ScopeId) : Prop where
  tidy : after.TidyBut id
  hangs : after.child? root name = some id
  others : ∀ {other}, other ≠ name → after.standing? other = before.standing? other
  globals : after.globals = before.globals

theorem vacated_name {state : State} (formed : state.Formed) (tidy : state.Tidy) (plain : PlainName name)
    (valueType : ValueType) (message : String) (range : Range) :
    let made := state.tree.internChild root name valueType
    Vacated state.tree ((state.withTree made.1).vacate made.2 message range).tree name made.2 := by
  intro made
  have hung := hung_internChild formed.tree tidy.tree formed.tree.root_lt plain.1 valueType
  have first := hung.tidy.but hung.formed (hung.formed.parent?_of_child hung.hangs)
  obtain ⟨second, aside⟩ := tidyBut_vacate (state.withTree made.1) first
    (self_mem_ancestors _ _) message range
  have hangs := (aside made.2).links hung.hangs
  refine ⟨second, hangs, fun {other} apart => ?_, ?_⟩
  · exact ((aside made.2).standing? hangs apart).trans
      (standing?_internChild formed.tree formed.tree.root_lt name valueType other)
  · exact (globals_vacate (state.withTree made.1) made.2 message range).trans
      (globals_internChild valueType state.tree root name)

theorem writes_declareClass (config : DiscoveryConfig) (plain : PlainName name) (base : String)
    (range : Range) {state : State} (formed : state.Formed) (tidy : state.Tidy) :
    ∃ id kind, Writes state.tree (declareClass config name base range state).tree name id (.class_ kind) ∧
      (declareClass config name base range state).tree.globals =
        { state.tree.globals with classes := state.tree.globals.classes.insert name id } := by
  rw [declareClass_eq]
  dsimp only
  generalize (if base = config.rootClass then none else some base) = superclass
  have vacated := vacated_name formed tidy plain .class_ s!"class `{name}` redefined" range
  dsimp only at vacated
  generalize state.tree.internChild root name .class_ = below at vacated ⊢
  generalize (state.withTree below.1).vacate below.2 s!"class `{name}` redefined" range = cleared at vacated ⊢
  obtain ⟨kind, written⟩ := writes_placeClass vacated.tidy vacated.hangs superclass
  have globals := (globals_placeClass cleared.tree below.2 name superclass).trans vacated.globals
  generalize placeClass cleared.tree below.2 name superclass = placed at written globals ⊢
  rw [tree_resetBodies]
  refine ⟨below.2, kind, ⟨written.hangs, written.stands, fun {other} apart => ?_⟩, by
    simp only [State.withTree, globals]⟩
  exact (written.others apart).trans (vacated.others apart)

/-- A function takes the place of whatever has its name. -/
theorem writes_declareGlobalFunction {state : State} (formed : state.Formed) (tidy : state.Tidy)
    (plain : PlainName name) {body : FunctionBody} (params : ∀ name ∈ body.params, PlainName name)
    (range : Range) :
    ∃ id kind, kind.kind = .global ∧
      Writes state.tree (declareGlobalFunction name body range state).tree name id (.function kind) ∧
      (declareGlobalFunction name body range state).tree.globals = { state.tree.globals with
        values := state.tree.globals.values.erase name
        tables := state.tree.globals.tables.erase name
        functions := state.tree.globals.functions.insert name id } := by
  rw [declareGlobalFunction_eq]
  dsimp only
  have vacated := vacated_name formed tidy plain .function s!"global function `{name}` redefined" range
  dsimp only at vacated
  generalize state.tree.internChild root name .function = below at vacated ⊢
  generalize (state.withTree below.1).vacate below.2 s!"global function `{name}` redefined"
    range = cleared at vacated ⊢
  obtain ⟨_, placed, held, function, called, _⟩ :=
    placed_function params vacated.tidy (self_mem_ancestors _ _) vacated.tidy.index_lt name .global
  have globals := (globals_placeFunction cleared.tree below.2 name .global body).trans vacated.globals
  have last := (placed below.2).links vacated.hangs
  obtain ⟨⟨references, kind⟩, found, asFunction⟩ := Option.bind_eq_some_iff.1 function
  cases kind <;> cases asFunction
  refine ⟨below.2, { held with values := .empty, returns := .empty }, called,
    ⟨last, ?_, fun {other} apart => ?_⟩, ?_⟩
  · exact standing?_eq_some.2 ⟨below.2, _, last, found, rfl⟩
  · exact ((placed below.2).standing? last apart).trans (vacated.others apart)
  · simp only [State.withTree, globals]

/-- A table keeps what its name stands for already. -/
theorem writes_declareGlobalTable (formed : tree.Formed) (tidy : tree.Tidy) (plain : PlainName name) :
    ∃ id, Writes tree (declareGlobalTable name tree) name id
      ((tree.standing? name).getD (.table ⟨name, .empty⟩)) ∧
      (declareGlobalTable name tree).globals =
      { tree.globals with tables := tree.globals.tables.insert name id } := by
  have hung := hung_internChild formed tidy formed.root_lt plain.1 .table
  have made := standing?_internChild formed formed.root_lt name .table
  have size := index_internChild .table tree root name
  have globals := globals_internChild .table tree root name
  unfold declareGlobalTable
  dsimp only
  generalize tree.internChild root name .table = below at hung made size globals ⊢
  refine ⟨below.2, ?_, by split <;> simp only [globals, globals_setEntity]⟩
  split
  next occupied =>
    obtain ⟨entity, held⟩ := Option.isSome_iff_exists.1 occupied
    refine ⟨hung.hangs, ?_, fun {other} _ => made other⟩
    rw [standing?_withGlobals, ← made, standing?_of_hangs hung.hangs, held]
    rfl
  next vacant =>
    have absent : below.1.entity? below.2 = none := Option.not_isSome_iff_eq_none.1 vacant
    have shape := sameShape_setEntity below.1 below.2 (.new (.table ⟨name, .empty⟩))
    refine ⟨shape.links hung.hangs, ?_, fun {other} apart => ?_⟩
    · rw [standing?_withGlobals, standing?_setEntity_self hung.hangs size, ← made,
        standing?_of_hangs hung.hangs, absent]
      rfl
    · rw [standing?_withGlobals, standing?_setEntity_other, made]
      exact fun same => apart (hung.formed.child_unique same hung.hangs).2

/-- Evidence is taken in by entities that are there. -/
theorem vacant_applyEvidence {id : ScopeId} (vacant : tree.entity? id = none) (target : ScopeId)
    (evidence : Evidence) :
    (applyEvidence tree target evidence).1.entity? id = none := by
  cases held : tree.entity? target with
  | none => rw [applyEvidence_vacant tree held, vacant]
  | some entity =>
    rw [applyEvidence_held tree held, entity?_setEntity, if_neg, vacant]
    rintro rfl
    rw [held] at vacant
    cases vacant

private theorem standing?_applyEvidence (formed : tree.Formed) (target : ScopeId) (evidence : Evidence)
    (name : String) :
    (applyEvidence tree target evidence).1.standing? name = tree.standing? name := by
  obtain ⟨last, grows⟩ := advances_applyEvidence tree target evidence formed
  exact grows.standing? formed last fun id vacant _ => vacant_applyEvidence vacant target evidence

/-- A local of the top level keeps what its name stands for already. -/
theorem writes_defineLocal (formed : tree.Formed) (tidy : tree.Tidy) (plain : PlainName name)
    (range : Range) :
    Writes tree (defineLocal tree root name range).1 name (defineLocal tree root name range).2.1
      ((tree.standing? name).getD (.variable ⟨name, .empty, some range⟩)) := by
  have hung := hung_internChild formed tidy formed.root_lt plain.1 .value
  have made := standing?_internChild formed formed.root_lt name .value
  have size := index_internChild .value tree root name
  rw [defineLocal_eq]
  dsimp only
  generalize tree.internChild root name .value = below at hung made size ⊢
  split
  next occupied =>
    obtain ⟨entity, held⟩ := Option.isSome_iff_exists.1 occupied
    refine ⟨hung.hangs, ?_, fun {other} _ => made other⟩
    rw [← made, standing?_of_hangs hung.hangs, held]
    rfl
  next vacant =>
    have absent : below.1.entity? below.2 = none := Option.not_isSome_iff_eq_none.1 vacant
    generalize new : Entity.new (.variable (.new name (some range))) = entity
    have shape := sameShape_setEntity below.1 below.2 entity
    have whole := (sameShape_modifyEntity (below.1.setEntity below.2 entity) root
      (Entity.mapLocals fun locals => locals.insert name below.2)).trans shape
    -- The locals of the root are the entity of no name.
    have unlisted : ∀ other, ((below.1.setEntity below.2 entity).modifyEntity root
        (Entity.mapLocals fun locals => locals.insert name below.2)).standing? other =
          (below.1.setEntity below.2 entity).standing? other := by
      intro other
      rw [standing?, standing?, whole.child?, shape.child?]
      cases found : below.1.child? root other with
      | none => rfl
      | some child =>
        rw [Option.bind_some, Option.bind_some, entity?_modifyEntity,
          if_neg (hung.formed.ne_root (hung.formed.parent?_of_child found))]
    refine ⟨whole.links hung.hangs, ?_, fun {other} apart => ?_⟩
    · rw [unlisted, standing?_setEntity_self hung.hangs size, ← made,
        standing?_of_hangs hung.hangs, absent, ← new]
      rfl
    · rw [unlisted, standing?_setEntity_other, made]
      exact fun same => apart (hung.formed.child_unique same hung.hangs).2

theorem variableAt?_isSome_iff {id : ScopeId} (hangs : tree.child? root name = some id) :
    (tree.variableAt? id).isSome = true ↔ ∃ var, tree.standing? name = some (.variable var) := by
  rw [standing?_of_hangs hangs, variableAt?]
  cases tree.entity? id with
  | none => simp
  | some entity =>
    obtain ⟨references, kind⟩ := entity
    cases kind <;> simp [Entity.asVariable?, EntityKind.outline]

/-- A value keeps what its name stands for already, and is listed where that is a variable. -/
theorem writes_declareGlobalValue (config : DiscoveryConfig) (formed : tree.Formed) (tidy : tree.Tidy)
    (plain : PlainName name) (value : Option Expr) (range : Range) :
    ∃ id, Writes tree (declareGlobalValue config name value range tree) name id
        ((tree.standing? name).getD (.variable ⟨name, .empty, some range⟩)) ∧
      ((∃ var, (declareGlobalValue config name value range tree).standing? name = some (.variable var)) →
        (declareGlobalValue config name value range tree).globals =
          { tree.globals with values := tree.globals.values.insert name id }) ∧
      ((¬∃ var, (declareGlobalValue config name value range tree).standing? name = some (.variable var)) →
        (declareGlobalValue config name value range tree).globals = tree.globals) := by
  obtain ⟨last, grows⟩ := advances_defineLocal tree formed.root_lt name range formed
  have written := writes_defineLocal formed tidy plain range
  have listed := variableAt?_isSome_iff written.hangs
  unfold declareGlobalValue
  dsimp only
  generalize defineLocal tree root name range = defined at last grows written listed ⊢
  generalize classifyValue config tree (.at_ root) value = evidence
  refine ⟨defined.2.1, ?_⟩
  split
  next var =>
    obtain ⟨_, applied⟩ := advances_applyEvidence defined.1 defined.2.1 evidence last
    have unchanged := standing?_applyEvidence last defined.2.1 evidence
    refine ⟨⟨applied.links written.hangs, ?_, fun {other} apart => ?_⟩, fun _ => ?_,
      fun unlisted => absurd ?_ unlisted⟩
    · rw [standing?_withGlobals, unchanged, written.stands]
    · rw [standing?_withGlobals, unchanged, written.others apart]
    · simp only [applied.globals, grows.globals]
    · simp only [standing?_withGlobals, unchanged]
      exact listed.1 var
  next other => exact ⟨written, fun var => absurd (listed.2 var) other, fun _ => grows.globals⟩

/-- Where a member is made, no other scope gets an entity. -/
theorem memberScope_places (formed : tree.Formed) (dotless : tree.Dotless) {owner : ScopeId}
    (inside : owner.index < tree.size) (plain : '.' ∉ name.toList) (range : Range) :
    (memberScope tree owner name range).1.child? owner name = some (memberScope tree owner name range).2.1 ∧
      ∀ id, id ≠ (memberScope tree owner name range).2.1 → tree.entity? id = none →
        (memberScope tree owner name range).1.entity? id = none := by
  unfold memberScope
  dsimp only
  generalize (if (tree.classAt? owner).isSome then ValueType.value else ValueType.field) = valueType
  have hangs := dotless.child?_internChild formed plain inside valueType
  have made := entity?_internChild valueType tree owner name
  generalize tree.internChild owner name valueType = below at hangs made ⊢
  split
  next => exact ⟨hangs, fun id _ vacant => (made id).trans vacant⟩
  next =>
    refine ⟨(sameShape_modifyEntity _ owner _).links
      ((sameShape_setEntity below.1 below.2 _).links hangs), fun id apart vacant => ?_⟩
    have unplaced : (below.1.setEntity below.2 (.new (.variable (.new name (some range))))).entity? id =
        none := by
      rw [entity?_setEntity, if_neg apart, made, vacant]
    rw [entity?_modifyEntity]
    split
    next same => rw [← same, unplaced, Option.map_none]
    next => exact unplaced

/-- A member of a table leaves the names of the top level as they are. -/
theorem standing?_assignMember (formed : tree.Formed) (dotless : tree.Dotless) {base member : String}
    (owned : PlainName base) (plain : PlainName member) (table : isGlobalTable tree base = true)
    (evidence : Evidence) (range : Range) (name : String) :
    (assignMember tree (.at_ root) base member evidence range).1.standing? name = tree.standing? name ∧
      (assignMember tree (.at_ root) base member evidence range).1.globals = tree.globals := by
  have inside : (Frame.at_ root).scope.index < tree.size := formed.root_lt
  obtain ⟨last, grows⟩ := advances_assignMember tree (.at_ root) inside base member evidence range formed
  refine ⟨grows.standing? formed last fun id vacant hangs => ?_, grows.globals⟩
  obtain ⟨owner, found⟩ : ∃ owner, tree.lookup base root = some owner := by
    cases found : tree.lookup base root with
    | none => simp [isGlobalTable, found] at table
    | some owner => exact ⟨owner, rfl⟩
  have below : tree.child? root base = some owner := by
    rw [lookup_root formed owned.1] at found
    exact (Option.filter_eq_some_iff.1 found).1
  have scope : baseScope tree (Frame.at_ root).scope base = (tree, owner, 0) := by
    rw [baseScope_eq, Frame.at_]
    simp only [found]
  -- Only the member may get an entity, and it hangs below the table.
  have size := index_lt_of_find? (formed.find?_child below)
  obtain ⟨there, places⟩ := memberScope_places formed dotless size plain.1 range
  obtain ⟨middle, _⟩ := advances_memberScope tree size member range formed
  rw [assignMember_eq] at hangs last ⊢
  simp only [scope] at hangs last ⊢
  generalize memberScope tree owner member range = made at there places middle hangs last ⊢
  have away : ∀ {after : ScopeTree}, after.Formed → after.child? owner member = some made.2.1 →
      after.child? root name ≠ some made.2.1 := by
    intro after intact listed top
    obtain ⟨same, _⟩ := intact.child_unique top listed
    exact formed.ne_root (formed.parent?_of_child below) same.symm
  by_cases var : (made.1.variableAt? made.2.1).isSome = true
  · simp only [var, if_true] at hangs last ⊢
    have applied := (advances_applyEvidence made.1 made.2.1 evidence middle).2
    apply vacant_applyEvidence (places id ?_ vacant)
    rintro rfl
    exact away last (applied.links there) hangs
  · simp only [var, if_false, Bool.false_eq_true] at hangs last ⊢
    apply places id ?_ vacant
    rintro rfl
    exact away last there hangs

end Discovery
end LuaClasses
