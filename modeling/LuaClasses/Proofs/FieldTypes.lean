import LuaClasses.Proofs.Gist
import LuaClasses.Proofs.InstanceFields
import LuaClasses.Proofs.Turns

/-! The types of the fields whose values tell their types by their form. Whatever such a field takes in
comes from an assignment in a body of its class, and the first sweep makes every one of the
assignments. -/

namespace LuaClasses

/-- The type that a value has by its form alone: a literal, or an operation that gives one type whatever
it is applied to. -/
def Expr.settledType? (value : Expr) : Option LuaType :=
  match value.unparen with
  | .unary op _ => some op.resultType
  | .binary op _ _ => op.resultType?
  | _ => value.literalType?

theorem Expr.settledType?_of_literal {value : Expr} {type : LuaType}
    (tells : value.literalType? = some type) :
    value.settledType? = some type := by
  unfold settledType?
  split
  next op operand same => rw [literalType?, same] at tells; cases tells
  next op left right same => rw [literalType?, same] at tells; cases tells
  next => exact tells

namespace ScopeTree

variable {tree before after : ScopeTree} {owner : ScopeId} {name : String} {types : LuaType → Prop}

/-- Whether a field of a class has no references, and no other types than some. -/
def FieldHolds (tree : ScopeTree) (owner : ScopeId) (name : String) (types : LuaType → Prop) : Prop :=
  ∀ id, tree.FieldAt owner name id → ∀ taken, tree.intake? id = some taken →
    taken.1 = .empty ∧ ∀ known, taken.2 = some known → ∀ type ∈ known, types type

/-- Whether a field of a class has a type. -/
def FieldHas (tree : ScopeTree) (owner : ScopeId) (name : String) (type : LuaType) : Prop :=
  ∃ id, tree.FieldAt owner name id ∧ ∃ entity, tree.entity? id = some entity ∧ type ∈ entity.gathered

theorem FieldAt.unique (formed : tree.Formed) {other id : ScopeId} {called : String}
    (one : tree.FieldAt owner name id) (two : tree.FieldAt other called id) :
    other = owner ∧ called = name := by
  obtain ⟨fields, below, hangs⟩ := one
  obtain ⟨scope, first, second⟩ := two
  obtain ⟨rfl, rfl⟩ := formed.child_unique second hangs
  exact ⟨(formed.child_unique first below).1, rfl⟩

theorem FieldAt.eq {id other : ScopeId} (one : tree.FieldAt owner name id)
    (two : tree.FieldAt owner name other) : other = id := by
  obtain ⟨fields, below, hangs⟩ := one
  obtain ⟨scope, first, second⟩ := two
  cases below.symm.trans first
  exact Option.some.inj (second.symm.trans hangs)

private theorem index_lt_of_intake? {id : ScopeId} {taken : OrderedMap Reference × Option TypeSet}
    (given : tree.intake? id = some taken) : id.index < tree.size := by
  obtain ⟨entity, held, _⟩ := Option.map_eq_some_iff.1 given
  exact index_lt_of_entity? held

theorem FieldHas.grows {type : LuaType} (has : before.FieldHas owner name type) (grows : before.Grows after) :
    after.FieldHas owner name type := by
  obtain ⟨id, there, entity, held, member⟩ := has
  obtain ⟨later, reached, more⟩ := grows.entity? held
  exact ⟨id, there.carry grows.links, later, reached, more.gathered type member⟩

theorem FieldHolds.feeds (holds : before.FieldHolds owner name types) (formed : before.Formed)
    (last : after.Formed) (links : before.Links after) {but : ScopeId} (feeds : before.Feeds after but)
    (apart : ¬after.FieldAt owner name but) :
    after.FieldHolds owner name types := by
  intro id there taken given
  rw [feeds id fun same => apart (same ▸ there)] at given
  exact holds id (there.back formed last links (index_lt_of_intake? given)) taken given

end ScopeTree

namespace Discovery
open ScopeTree

theorem classify_settled (config : DiscoveryConfig) (tree : ScopeTree) (frame : Frame) {value : Expr}
    {type : LuaType} (settled : value.settledType? = some type) :
    classify config tree frame value = .ofType type := by
  rw [← classify_unparen]
  unfold Expr.settledType? at settled
  split at settled
  next op operand same =>
    cases settled
    rw [same, classify]
  next op left right same => rw [same, classify, settled]
  next =>
    unfold Expr.literalType? at settled
    split at settled <;> cases settled
    all_goals rename_i same; rw [same]; rfl

/-! ### The assignment of a field -/

section Assignment

variable {tree : ScopeTree}

private theorem intake?_applyEvidence_ofType (target : ScopeId) (type : LuaType) :
    (applyEvidence tree target (.ofType type)).1.intake? target =
      (tree.intake? target).map fun taken => (taken.1, taken.2.map (· ∪ .single type)) := by
  cases held : tree.entity? target with
  | none => rw [applyEvidence_vacant tree held, intake?, held]; rfl
  | some entity =>
    rw [applyEvidence_held tree held, intake?, entity?_setEntity_self (index_lt_of_entity? held),
      intake?, held]
    obtain ⟨references, kind⟩ := entity
    cases kind <;> rfl

private theorem intake?_occupy {id : ScopeId} (inside : id.index < tree.size) (name : String)
    (range : Range) :
    (tree.occupy id name range).intake? id = some ((tree.intake? id).getD (.empty, some .empty)) := by
  unfold occupy
  split
  next occupied =>
    obtain ⟨entity, held⟩ := Option.isSome_iff_exists.1 occupied
    rw [intake?, held]
    rfl
  next vacant =>
    rw [intake?, entity?_setEntity_self inside, intake?, Option.not_isSome_iff_eq_none.1 vacant]
    rfl

/-- A field takes in the type of a value that tells it, whether the field is new or not. -/
theorem intake?_assignField {frame : Frame} {owner : ScopeId}
    (nearest : tree.nearestClass frame.scope = some owner) (name : String) (type : LuaType)
    (range : Range) :
    (assignField tree frame name (.ofType type) range).1.intake? (tree.internField owner name).2 =
      some ((((tree.intake? (tree.internField owner name).2).getD (.empty, some .empty)).map id
        (Option.map (· ∪ .single type)))) := by
  have within := index_lt_of_find? (find?_internField tree owner name)
  rw [assignField_eq tree nearest, ← tree.intake?_internField owner name]
  generalize tree.internField owner name = field at within ⊢
  rw [intake?_applyEvidence_ofType, intake?_modifyClass, intake?_occupy within]
  rfl

section Owner

variable (formed : tree.Formed) (tidy : tree.Tidy) {frame : Frame} {owner : ScopeId} {name : String}
  (nearest : tree.nearestClass frame.scope = some owner) (plain : PlainName name)
include formed tidy nearest plain

private theorem fieldAt_assignField (evidence : Evidence) (range : Range) :
    (assignField tree frame name evidence range).1.FieldAt owner name (tree.internField owner name).2 := by
  obtain ⟨made, there⟩ := tends_internField formed tidy (index_lt_of_nearestClass nearest) plain.1
  obtain ⟨middle, kept, _⟩ := made formed tidy
  obtain ⟨_, _, grows⟩ := ((tends_enterField there range).trans (tends_applyEvidence _ evidence)) middle kept
  rw [assignField_eq tree nearest]
  exact there.carry grows.links

private theorem fieldHas_assignField (isClass : (tree.classAt? owner).isSome = true) (type : LuaType)
    (range : Range) :
    (assignField tree frame name (.ofType type) range).1.FieldHas owner name type := by
  have there := fieldAt_assignField formed tidy nearest plain (.ofType type) range
  have taken := intake?_assignField nearest name type range
  obtain ⟨_, kept, grows⟩ := tends_assignField formed tidy frame plain (.ofType type) range formed tidy
  obtain ⟨held, found⟩ := Option.isSome_iff_exists.1 (grows.isClass isClass)
  obtain ⟨entity, occupied, same⟩ := Option.map_eq_some_iff.1 taken
  have var := ((kept.shaped found).fields.listed there (Option.isSome_of_eq_some occupied)).2
  have gathers : entity.gathered?.isSome = true := by
    obtain ⟨references, kind⟩ := entity
    rw [variableAt?, occupied] at var
    cases kind <;> first | rfl | cases var
  refine ⟨_, there, entity, occupied, ?_⟩
  have sum := congrArg Prod.snd same
  dsimp only [Prod.map_snd] at sum
  rw [Entity.gathered]
  rw [sum] at gathers ⊢
  obtain ⟨known, before, union⟩ := Option.map_eq_some_iff.1 (Option.eq_some_of_isSome gathers)
  rw [before]
  exact TypeSet.mem_union.2 (.inr (TypeSet.mem_single.2 rfl))

/-- A field with allowed types goes on to have them when a value of an allowed type is assigned to it. -/
theorem fieldHolds_assignField {types : LuaType → Prop} (holds : tree.FieldHolds owner name types)
    {type : LuaType} (allowed : types type) (range : Range) :
    (assignField tree frame name (.ofType type) range).1.FieldHolds owner name types := by
  obtain ⟨last, _, grows⟩ := tends_assignField formed tidy frame plain (.ofType type) range formed tidy
  intro id there taken given
  cases (fieldAt_assignField formed tidy nearest plain (.ofType type) range).eq there
  rw [intake?_assignField nearest] at given
  obtain rfl := Option.some.inj given
  -- A new field begins with nothing, an old one with allowed types.
  have begins : ∀ start, (tree.intake? (tree.internField owner name).2).getD (.empty, some .empty) = start →
      start.1 = .empty ∧ ∀ known, start.2 = some known → ∀ type ∈ known, types type := by
    rintro _ rfl
    cases former : tree.intake? (tree.internField owner name).2 with
    | none => exact ⟨rfl, fun known same type member => by cases same; cases member⟩
    | some start =>
      exact holds _ (there.back formed last grows.links (index_lt_of_intake? former)) start former
  obtain ⟨bare, bounded⟩ := begins _ rfl
  refine ⟨bare, fun known same other member => ?_⟩
  obtain ⟨former, before, rfl⟩ := Option.map_eq_some_iff.1 same
  rcases TypeSet.mem_union.1 member with old | new
  · exact bounded former before other old
  · exact TypeSet.mem_single.1 new ▸ allowed

end Owner

end Assignment

/-! ### One step -/

section Turns

variable {config : DiscoveryConfig} {program : Program} {state : State} {tour : Tour}
  {site : Site} {owner scope : ScopeId}
  {name : String} {types : LuaType → Prop}

/-- A step that assigns a settled value to a field gives the field its type. -/
theorem fieldHas_site (plain : program.Plain) (turn : Turn config program state tour site owner scope)
    {target value : Expr} (assigned : site.action.target? = some (target, some value))
    (field : tour.frame.field? target = some name) {type : LuaType}
    (settled : value.settledType? = some type) :
    (site.run config tour.frame state).1.tree.FieldHas owner name type := by
  rw [turn.assign_eq assigned field, classifyValue, classify_settled config _ _ settled]
  exact fieldHas_assignField (turn.moment.swept plain).formed.tree (turn.tidy plain).tree
    (turn.nearestClass plain)
    (turn.named plain assigned field) (turn.hosts plain).isClass type site.range

/-- A field whose values are all settled takes in nothing but their types. -/
theorem fieldHolds_site (plain : program.Plain) (turn : Turn config program state tour site owner scope)
    {other : ScopeId}
    (top : (defined config program).tree.parent? other = some root)
    (settled : ∀ value, Gifts config program other name value →
      ∃ expr type, value = some expr ∧ expr.settledType? = some type ∧ types type)
    (holds : state.tree.FieldHolds other name types) :
    (site.run config tour.frame state).1.tree.FieldHolds other name types := by
  obtain ⟨former, level, _⟩ := turn.moment.swept plain
  obtain ⟨formed, onward⟩ := advances_site config tour.frame state site former
  cases assigned : site.field? tour.frame with
  | some called =>
    obtain ⟨⟨target, value⟩, targeted, field⟩ := Option.bind_eq_some_iff.1 assigned
    have named := turn.named plain targeted field
    have there := fieldAt_assignField former.tree (turn.tidy plain).tree (turn.nearestClass plain) named
      (classifyValue config state.tree (tour.frame.within scope) value) site.range
    rw [← turn.assign_eq targeted field] at there
    by_cases same : owner = other ∧ called = name
    · obtain ⟨rfl, rfl⟩ := same
      obtain ⟨expr, type, rfl, tells, allowed⟩ :=
        settled value ⟨tour, turn.made, turn.below, site, turn.member, target, targeted, field⟩
      rw [turn.assign_eq targeted field, classifyValue, classify_settled config _ _ tells]
      exact fieldHolds_assignField former.tree (turn.tidy plain).tree (turn.nearestClass plain)
        named holds allowed site.range
    · have feeds := feeds_assignField state.tree (turn.nearestClass plain) called
        (classifyValue config state.tree (tour.frame.within scope) value) site.range
      rw [← turn.assign_eq targeted field] at feeds
      exact holds.feeds former.tree formed.tree onward.tree.links feeds fun hung =>
        same (hung.unique formed.tree there)
  | none =>
    cases hangs : (site.run config tour.frame state).1.tree.child? other fieldsName with
    | none =>
      rintro id ⟨fields, below, _⟩
      exact nomatch hangs.symm.trans below
    | some fields =>
      have away := turn.away plain top hangs
      have foreign : ∀ entry, site.action.target? = some entry →
          (tour.frame.within scope).field? entry.1 = none := by
        intro entry target
        rw [Site.field?, target] at assigned
        exact assigned
      rw [turn.run_eq] at away formed onward hangs ⊢
      have returns : ∀ function, (tour.frame.within scope).function = some function →
          function ∈ state.tree.ancestors (tour.frame.within scope).scope := by
        intro function known
        obtain ⟨bodies, _, own⟩ := List.mem_flatMap.1 turn.made
        exact frame_function own known ▸ turn.within
      obtain ⟨id, feeds, apart⟩ := feeds_action config former.tree level
        (index_lt_of_find? turn.found) returns foreign
        (turn.names plain) site.range away
      refine holds.feeds former.tree formed.tree onward.tree.links feeds ?_
      rintro ⟨_, first, second⟩
      cases hangs.symm.trans first
      exact apart (formed.tree.parent?_of_child second)

end Turns

/-! ### Settled fields -/

section Settled

variable {config : DiscoveryConfig} {program : Program} {state : State} {tour : Tour}
  {owner : ScopeId} {name : String}
  {types : LuaType → Prop}

/-- A scope without references takes nothing in from others. -/
theorem propagateInto_of_bare {tree : ScopeTree} {id : ScopeId} {entity : Entity}
    (held : tree.entity? id = some entity) (bare : entity.references = .empty) :
    (propagateInto tree id).1 = tree := by
  refine idle_propagateInto ?_
  rw [propagateInto_held tree held, bare]
  simp only [Entity.newTypes]
  cases entity.gathered? <;> rfl

private theorem fieldHolds_propagateInto {tree : ScopeTree} (formed : tree.Formed)
    (holds : tree.FieldHolds owner name types) (target : ScopeId) :
    (propagateInto tree target).1.FieldHolds owner name types := by
  cases held : tree.entity? target with
  | none => rw [propagateInto_vacant tree held]; exact holds
  | some entity =>
    by_cases there : tree.FieldAt owner name target
    · have bare := (holds target there _
        (congrArg (Option.map fun entity : Entity => (entity.references, entity.gathered?)) held)).1
      rw [propagateInto_of_bare held bare]
      exact holds
    · have last := (advances_propagateInto tree target formed).1
      have shape : SameShape (propagateInto tree target).1 tree := by
        rw [propagateInto_held tree held]
        exact sameShape_setEntity tree target _
      refine holds.feeds formed last shape.links (feeds_propagateInto tree target) ?_
      simp only [FieldAt, shape.child?]
      exact there

private theorem fieldHolds_propagate {tree : ScopeTree} (formed : tree.Formed)
    (holds : tree.FieldHolds owner name types) :
    (propagate tree).1.FieldHolds owner name types := by
  rw [propagate_eq]
  refine (runEach_keeps (fun tree : ScopeTree => tree.Formed ∧ tree.FieldHolds owner name types) ?_
    ⟨formed, holds⟩).2
  exact fun target _ tree kept => ⟨(advances_propagateInto tree target kept.1).1,
    fieldHolds_propagateInto kept.1 kept.2 target⟩

variable (plain : program.Plain)
include plain

/-- When the members are entered, a field has one type, that of a literal. -/
theorem fieldHolds_defined {bodies : ClassBodies} (listed : bodies ∈ (defined config program).classes)
    {held : Class}
    (found : (defined config program).tree.classAt? bodies.owner = some held)
    (settled : ∀ value, program.AssignsField config held.name name value →
      ∃ expr type, value = some expr ∧ expr.settledType? = some type ∧ types type) :
    (defined config program).tree.FieldHolds bodies.owner name types := by
  have dotless := fun name member => (plain name member).1
  have entered := ((roster_defined config dotless).entered bodies listed).held held found
  have bound : ∀ step ∈ stepsOf program (defined config program).tree bodies.owner,
      step.bound ≠ fieldsName := by
    intro step member
    rw [stepsOf, found] at member
    refine (plain _ (names_memberSteps member ?_)).2
    cases step <;> exact List.mem_cons_self
  intro id there taken given
  obtain ⟨entity, occupied, rfl⟩ := Option.map_eq_some_iff.1 given
  have shape := (tidy_defined config plain).tree.shaped found
  have known := (shape.fields.listed there (Option.isSome_of_eq_some occupied)).1
  rw [OrderedMap.contains_eq_isSome_get?] at known
  obtain ⟨field, known⟩ := Option.isSome_iff_exists.1 known
  obtain ⟨same, type, range, literal, placed⟩ := entered.sown bound name field known
  cases there.eq same
  cases occupied.symm.trans placed
  rw [stepsOf, found] at literal
  obtain ⟨value, assigned, tells⟩ := assigns_of_listed_literal literal
  obtain ⟨expr, other, equal, settles, allowed⟩ := settled _ assigned
  cases equal
  cases settles.symm.trans (Expr.settledType?_of_literal tells)
  refine ⟨rfl, fun known same type' member => ?_⟩
  cases same
  exact TypeSet.mem_single.1 member ▸ allowed

/-! ### All types of a settled field -/

private theorem fieldHas_runSites (made : tour ∈ tours config (defined config program)) {id : ScopeId}
    (below : (defined config program).tree.parent? tour.frame.scope = some id) {sites : List Site}
    (within : sites ⊆ tour.sites) (stands : Stands config tour.frame sites state)
    (moment : Moment program config state) {site : Site} (member : site ∈ sites) {target value : Expr}
    (assigned : site.action.target? = some (target, some value))
    (field : tour.frame.field? target = some name) {type : LuaType}
    (settled : value.settledType? = some type) :
    (runSites config tour.frame sites state).1.tree.FieldHas id name type := by
  induction stands with
  | nil => cases member
  | @cons first rest state scope found inside others ih =>
    obtain ⟨begins, later⟩ := List.cons_subset.1 within
    have turn : Turn config program state tour first id scope := ⟨moment, made, begins, below, found, inside⟩
    rcases List.mem_cons.1 member with rfl | member
    · have formed := (turn.next.swept plain).formed
      exact (fieldHas_site plain turn assigned field settled).grows
        (advances_runSites config tour.frame rest _ formed).2.tree
    · exact ih later turn.next member

private theorem fieldHas_runTours {made : List Tour}
    (within : made ⊆ tours config (defined config program)) (moment : Moment program config state)
    {id : ScopeId} {value : Expr}
    (given : Tours.Give (defined config program).tree made id name (some value)) {type : LuaType}
    (settled : value.settledType? = some type) :
    (runTours config made state).1.tree.FieldHas id name type := by
  induction made generalizing state with
  | nil => obtain ⟨_, member, _⟩ := given; cases member
  | cons first rest ih =>
    obtain ⟨begins, later⟩ := List.cons_subset.1 within
    have walked : Moment program config (runSites config first.frame first.sites state).1 :=
      moment.runTours fun tour member => List.mem_singleton.1 member ▸ begins
    obtain ⟨tour, member, below, site, listed, target, assigned, field⟩ := given
    rcases List.mem_cons.1 member with rfl | member
    · have has := fieldHas_runSites plain (within List.mem_cons_self) below (List.Subset.refl _)
        (moment.stands plain (within List.mem_cons_self)) moment listed assigned field settled
      exact has.grows (advances_runTours config rest _ (walked.swept plain).formed).2.tree
    · exact ih later walked ⟨tour, member, below, site, listed, target, assigned, field⟩

private theorem fieldHas_discover (sweeps : 1 ≤ config.maxSweeps) {id : ScopeId} {value : Expr}
    (given : Gifts config program id name (some value)) {type : LuaType}
    (settled : value.settledType? = some type) :
    (discover program config).tree.FieldHas id name type := by
  have moment := Moment.seeded config program
  suffices ∀ left total, 1 ≤ left →
      (sweepUntilIdle config left total (seeded config program)).1.tree.FieldHas id name
      type from this _ 0 sweeps
  intro left total some
  obtain ⟨left, rfl⟩ := Nat.exists_eq_add_of_le' some
  have swept : (sweep config (seeded config program)).1.tree.FieldHas id name type := by
    obtain ⟨formed, _, grows⟩ := moment.swept plain
    have walked := fieldHas_runTours plain (List.Subset.refl _) moment given settled
    rw [sweep_eq config formed, tours_grows config (formed_defined config program) grows]
    exact walked.grows (advances_propagate _
      ((moment.runTours (List.Subset.refl _)).swept plain).formed.tree).2
  rw [sweepUntilIdle]
  dsimp only
  split
  next => exact swept
  next =>
    exact swept.grows (advances_sweepUntilIdle left (total + 1) _
      ((moment.sweep plain).swept plain).formed).2.tree

end Settled

/-- The types of a field whose values all tell their types by their form are the types of those values. -/
theorem field_types_of_settled (config : DiscoveryConfig) {program : Program} (plain : program.Plain)
    (sweeps : 1 ≤ config.maxSweeps)
    {id : ScopeId} (listed : id ∈ (discover program config).classes) {owner : Class}
    (found : (discover program config).tree.classAt? id = some owner) (regular : owner.Regular)
    {name : String} {field : ScopeId}
    (given : owner.fields.get? name = some field)
    (settled : ∀ value, program.AssignsField config owner.name name value →
      ∃ expr type, value = some expr ∧ expr.settledType? = some type) :
    ∃ var, (discover program config).tree.variableAt? field = some var ∧
      ∀ type, type ∈ var.types ↔
        ∃ expr : Expr, program.AssignsField config owner.name name (some expr) ∧
          expr.settledType? = some type := by
  have dotless := fun name member => (plain name member).1
  obtain ⟨bodies, member, rfl, held, reached, outline⟩ := exists_bodies_of_class listed found
  have called : held.outline.name = owner.outline.name := congrArg Class.name outline
  have same : held.outline.Regular := outline ▸ regular
  change held.name = owner.name at called
  have gifts := fun value => called ▸ gifts_iff dotless member reached same name value
  have allowed : ∀ value, program.AssignsField config owner.name name value → ∃ expr type, value = some expr ∧
      expr.settledType? = some type ∧
        ∃ expr : Expr, program.AssignsField config owner.name name (some expr) ∧
          expr.settledType? = some type := by
    intro value assigned
    obtain ⟨expr, type, rfl, tells⟩ := settled value assigned
    exact ⟨expr, type, rfl, tells, expr, assigned, tells⟩
  have begun := tidy_defined config plain
  have holds : (discover program config).tree.FieldHolds bodies.owner name fun type =>
      ∃ expr : Expr, program.AssignsField config owner.name name (some expr) ∧
        expr.settledType? = some type := by
    refine keeps_discover plain (fun state => state.tree.FieldHolds bodies.owner name _) ?_ ?_ ?_ ?_
    · exact fun turn holds => fieldHolds_site plain turn (begun.bodies bodies member).top
        (fun value given => allowed value ((gifts value).1 given)) holds
    · exact fun moment holds => fieldHolds_propagate (moment.swept plain).formed.tree holds
    · intro state kind message range holds
      rw [State.tree_warn]
      exact holds
    · exact fieldHolds_defined plain member reached (called ▸ allowed)
  obtain ⟨_, tidy, _⟩ := ((Moment.seeded config program).sweepUntilIdle plain config.maxSweeps 0).tends plain
    (formed_defined config program) begun
  obtain ⟨there, isVariable⟩ := (tidy.tree.shaped found).fields.fields given
  obtain ⟨var, known⟩ := Option.isSome_iff_exists.1 isVariable
  obtain ⟨⟨references, kind⟩, occupied, asVariable⟩ := Option.bind_eq_some_iff.1 known
  obtain rfl : kind = .variable var := by cases kind <;> cases asVariable; rfl
  refine ⟨var, known, fun type => ⟨fun member => ?_, ?_⟩⟩
  · exact (holds field there _ (congrArg
      (Option.map fun entity : Entity => (entity.references, entity.gathered?)) occupied)).2
      _ rfl type member
  · rintro ⟨expr, assigned, tells⟩
    obtain ⟨id, hung, entity, held, member⟩ := fieldHas_discover plain sweeps ((gifts _).2 assigned) tells
    cases there.eq hung
    cases held.symm.trans occupied
    exact member

/-- The values that a definition assigns in its body. -/
def MemberStep.values : MemberStep → List (Option Expr)
  | .function _ _ body _ => (assignments body.body).map Prod.snd
  | .value _ _ _ => []

private theorem values_of_assignsField {config : DiscoveryConfig} {program : Program}
    {ownerName name : String} {value : Option Expr}
    (assigns : program.AssignsField config ownerName name value) :
    ∃ step ∈ program.memberSteps ownerName, value ∈ step.values := by
  obtain ⟨indexer, body, self, known, _, target, member, _⟩ | ⟨method, body, _, known,
    target, member, _⟩ := assigns
  all_goals
    obtain ⟨range, step⟩ := exists_step_of_lastDefinition? known
    exact ⟨_, step, List.mem_map.2 ⟨_, member, rfl⟩⟩

/-- A field that two constructors and a method assign. -/
def settledText : String :=
  "Foo = ISBaseObject:derive(\"Foo\")\nfunction Foo.new() local o = \x7b\x7d o.x = \x7b\x7d return o end\n" ++
    "function Foo.new() local o = \x7b\x7d o.x = 1 o.x = nil if o then o.x = not o end return o end\n" ++
    "function Foo:set() self.x = self .. \"\" end"

/-- The table of the first constructor is gone, and the number that the entry of the last one replaces is
not. -/
theorem field_types_of_settled_rebuilt : ∃ program var, Program.ofText settledText = .ok program ∧
    (discover program .default).tree.variableAt? ⟨4⟩ = some var ∧ var.types.types =
    [.nil, .boolean, .number, .string] ∧
    ∃ expr : Expr, program.AssignsField .default "Foo" "x" (some expr) ∧
      expr.settledType? = some .number := by
  obtain ⟨program, parsed, plain, listed, settled, facts⟩ : ∃ program,
    Program.ofText settledText = .ok program ∧
      program.Plain ∧ ⟨1⟩ ∈ (discover program .default).classes ∧
      (∀ step ∈ program.memberSteps "Foo", ∀ value ∈ step.values,
        (value.bind Expr.settledType?).isSome = true) ∧
      ((discover program .default).tree.classAt? ⟨1⟩).any (fun held => held.name = "Foo" ∧
        !held.functions.contains "constructor" ∧ !held.methods.contains "constructor" ∧
        held.fields.get? "x" = some ⟨4⟩ ∧ ((discover program .default).tree.variableAt? ⟨4⟩).any fun var =>
          var.types.types = [.nil, .boolean, .number, .string]) = true :=
    Program.exists_ofText _ (by decide +kernel)
  obtain ⟨owner, found, facts⟩ := (Option.any_eq_true _ _).1 facts
  obtain ⟨name, functions, methods, given, facts⟩ := of_decide_eq_true facts
  obtain ⟨var, known, facts⟩ := (Option.any_eq_true _ _).1 facts
  have types := of_decide_eq_true facts
  have regular : owner.Regular := by simpa [Class.Regular] using And.intro functions methods
  have settled : ∀ value, program.AssignsField .default owner.name "x" value →
      ∃ expr type, value = some expr ∧ expr.settledType? = some type := by
    intro value assigns
    obtain ⟨step, member, within⟩ := values_of_assignsField (name ▸ assigns)
    obtain ⟨type, tells⟩ := Option.isSome_iff_exists.1 (settled step member value within)
    obtain ⟨expr, rfl, tells⟩ := Option.bind_eq_some_iff.1 tells
    exact ⟨expr, type, rfl, tells⟩
  obtain ⟨same, reached, union⟩ := field_types_of_settled .default plain (by decide) listed
    found regular given settled
  cases known.symm.trans reached
  refine ⟨program, var, parsed, known, types, name ▸ (union .number).1 ?_⟩
  rw [TypeSet.mem_def, types]
  decide

end Discovery
end LuaClasses
