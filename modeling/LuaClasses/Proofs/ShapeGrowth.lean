import LuaClasses.Proofs.ClassShape

/-! Growth keeps the shape of classes. What a walk adds to a class is a variable below it, and what
it adds below the scope of the fields is entered among the fields. -/

namespace LuaClasses.ScopeTree

theorem classAt?_eq_some {tree : ScopeTree} {id : ScopeId} {owner : Class}
    (held : tree.classAt? id = some owner) :
    ∃ references, tree.entity? id = some ⟨references, .class_ owner⟩ := by
  obtain ⟨⟨references, kind⟩, found, asClass⟩ := Option.bind_eq_some_iff.1 held
  cases kind <;> cases asClass
  exact ⟨references, found⟩

theorem variableAt?_eq_some {tree : ScopeTree} {id : ScopeId} {var : Variable}
    (held : tree.variableAt? id = some var) :
    ∃ references, tree.entity? id = some ⟨references, .variable var⟩ := by
  obtain ⟨⟨references, kind⟩, found, asVariable⟩ := Option.bind_eq_some_iff.1 held
  cases kind <;> cases asVariable
  exact ⟨references, found⟩

/-- The constructor of a class hangs below it. -/
theorem Formed.child?_constructor {tree : ScopeTree} (formed : tree.Formed) (dotless : tree.Dotless)
    {id : ScopeId} {owner : Class} (held : tree.classAt? id = some owner) :
    tree.child? id "constructor" = some owner.constructor := by
  obtain ⟨references, found⟩ := classAt?_eq_some held
  rw [← dotless.find?_child formed (by decide) (index_lt_of_entity? found)]
  exact (formed.entity found).slots _ List.mem_cons_self

section Grow

variable {before after : ScopeTree}

/-- What growth may add to the entities of a tree without any class losing its shape. -/
structure Adds (before after : ScopeTree) : Prop where
  fields : ∀ {id entity later}, before.entity? id = some entity → after.entity? id = some later →
    later.fields = entity.fields
  locals : ∀ {id entity later name value}, before.entity? id = some entity → after.entity? id = some later →
    later.locals.get? name = some value → entity.locals.get? name = some value ∨
      after.child? id name = some value ∧ (after.variableAt? value).isSome = true
  fresh : ∀ {id owner name}, before.hasEntity id = false → after.hasEntity id = true →
    ¬after.FieldAt owner name id

theorem ClassShaped.grow (formed : before.Formed) (dotless : before.Dotless) (last : after.Formed)
    (grows : before.Grows after) (adds : before.Adds after) {id : ScopeId} {later : Class}
    (held : after.classAt? id = some later) :
    ∃ owner, before.classAt? id = some owner ∧
      (before.ClassShaped id owner → after.ClassShaped id later) := by
  have outline := grows.classAt? id
  rw [held] at outline
  cases known : before.classAt? id with
  | none => rw [known] at outline; cases outline
  | some owner =>
    refine ⟨owner, rfl, fun shape => ?_⟩
    rw [known, Option.map_some, Option.map_some, Option.some.injEq] at outline
    simp only [Class.outline, Class.mk.injEq] at outline
    obtain ⟨_, _, _, constructor, _, _, functions, methods⟩ := outline
    obtain ⟨references, present⟩ := classAt?_eq_some known
    obtain ⟨others, reached⟩ := classAt?_eq_some held
    have lasts : ∀ id, before.Lasts after id := fun id => .of_grows grows id
    have inside := index_lt_of_entity? present
    refine ⟨(grows.parent? inside).trans shape.top, shape.ordinary.links formed last grows.links inside,
      ?_, fun regular => ?_⟩
    · refine shape.fields.carry formed last grows.links (adds.fields present reached) (fun _ => lasts _) ?_
      intro name field there occupied
      cases vacant : before.hasEntity field with
      | true => rfl
      | false => exact absurd there (adds.fresh vacant occupied)
    · have before := shape.members (by rw [Class.Regular, functions, methods] at regular; exact regular)
      refine before.carry formed last grows.links constructor functions methods ?_ ?_ fun _ =>
        ⟨lasts _, fun _ _ => lasts _⟩
      · exact formed.parent?_of_child (formed.child?_constructor dotless known)
      · exact fun found => adds.locals present reached found

theorem Shaped.grow (shaped : before.Shaped) (formed : before.Formed) (dotless : before.Dotless)
    (last : after.Formed) (grows : before.Grows after) (adds : before.Adds after) : after.Shaped := by
  intro id later held
  obtain ⟨owner, known, shape⟩ := ClassShaped.grow formed dotless last grows adds held
  exact shape (shaped known)

theorem ShapedBut.grow {but : ScopeId} (shaped : before.ShapedBut but) (formed : before.Formed)
    (dotless : before.Dotless) (last : after.Formed) (grows : before.Grows after) (adds : before.Adds after) :
    after.ShapedBut but := by
  intro id later apart held
  obtain ⟨owner, known, shape⟩ := ClassShaped.grow formed dotless last grows adds held
  exact shape (shaped apart known)

/-- Nothing is added where the entities stay as they are. -/
theorem Adds.of_entity? (same : ∀ id, after.entity? id = before.entity? id) : before.Adds after where
  fields := by
    intro id entity later held reached
    cases held.symm.trans ((same id).symm.trans reached)
    rfl
  locals := by
    intro id entity later name value held reached found
    cases held.symm.trans ((same id).symm.trans reached)
    exact .inl found
  fresh := by
    intro id owner name vacant occupied
    rw [hasEntity, same, ← hasEntity, vacant] at occupied
    cases occupied

/-- An entity may change in all but the names below it. -/
theorem Adds.setEntity (tree : ScopeTree) {id : ScopeId} {later : Entity}
    (fields : ∀ entity, tree.entity? id = some entity → later.fields = entity.fields)
    (locals : ∀ entity, tree.entity? id = some entity → later.locals = entity.locals)
    (fresh : tree.hasEntity id = false → ∀ owner name, ¬tree.FieldAt owner name id) :
    tree.Adds (tree.setEntity id later) := by
  have same := sameShape_setEntity tree id later
  refine ⟨fun {other entity after} held reached => ?_,
    fun {other entity after name value} held reached found => .inl ?_,
    fun {other owner name} vacant occupied there => ?_⟩
  · rw [entity?_setEntity] at reached
    split at reached
    next equal =>
      subst equal
      obtain ⟨_, _, rfl⟩ := Option.map_eq_some_iff.1 reached
      exact fields entity held
    next => rw [Option.some.inj (held.symm.trans reached)]
  · rw [entity?_setEntity] at reached
    split at reached
    next equal =>
      subst equal
      obtain ⟨_, _, rfl⟩ := Option.map_eq_some_iff.1 reached
      rw [← locals entity held]
      exact found
    next => rw [Option.some.inj (held.symm.trans reached)]; exact found
  · by_cases equal : other = id
    · subst equal
      obtain ⟨scope, first, second⟩ := there
      rw [same.child?] at first second
      exact fresh vacant owner name ⟨scope, first, second⟩
    · rw [hasEntity, entity?_setEntity, if_neg equal, ← hasEntity, vacant] at occupied
      cases occupied

/-- A name may be given to a variable that hangs below a scope by that name. -/
theorem Adds.modifyLocals (tree : ScopeTree) {scope id : ScopeId} {name : String} {f : Members → Members}
    (added : ∀ names entry, entry ∈ (f names).entries → entry = (name, id) ∨ entry ∈ names.entries)
    (hangs : tree.child? scope name = some id) (var : (tree.variableAt? id).isSome = true)
    (apart : id ≠ scope) :
    tree.Adds (tree.modifyEntity scope (Entity.mapLocals f)) := by
  have same := sameShape_modifyEntity tree scope (Entity.mapLocals f)
  refine ⟨fun {other entity after} held reached => ?_,
    fun {other entity after called value} held reached found => ?_,
    fun {other owner called} vacant occupied there => ?_⟩
  · rw [entity?_modifyEntity] at reached
    split at reached
    next equal =>
      subst equal
      rw [held, Option.map_some] at reached
      cases reached
      obtain ⟨references, kind⟩ := entity
      cases kind <;> rfl
    next => rw [Option.some.inj (held.symm.trans reached)]
  · rw [entity?_modifyEntity] at reached
    split at reached
    next equal =>
      subst equal
      rw [held, Option.map_some] at reached
      cases reached
      have known : (called, value) = (name, id) ∨ (called, value) ∈ entity.locals.entries := by
        have member := OrderedMap.mem_entries_of_get? found
        obtain ⟨references, kind⟩ := entity
        cases kind with
        | «variable» held => cases member
        | _ => exact added _ _ member
      rcases known with new | old
      · cases new
        refine .inr ⟨(same.child? _ _).trans hangs, ?_⟩
        rw [variableAt?, entity?_modifyEntity, if_neg apart]
        exact var
      · exact .inl ((OrderedMap.get?_eq_some_iff _ _ _).2 old)
    next => rw [Option.some.inj (held.symm.trans reached)]; exact .inl found
  · rw [hasEntity, entity?_modifyEntity] at occupied
    split at occupied
    next equal =>
      subst equal
      rw [Option.isSome_map, ← hasEntity, vacant] at occupied
      cases occupied
    next => rw [← hasEntity, vacant] at occupied; cases occupied

/-- What is known of a class after it was changed. -/
theorem classAt?_modifyClass {tree : ScopeTree} {id other : ScopeId} {f : Class → Class} {later : Class}
    (held : (tree.modifyClass id f).classAt? other = some later) :
    ∃ owner, tree.classAt? other = some owner ∧ later = if other = id then f owner else owner := by
  obtain ⟨references, found⟩ := classAt?_eq_some held
  rw [modifyClass, entity?_modifyEntity] at found
  split at found
  next same =>
    obtain ⟨⟨others, kind⟩, present, mapped⟩ := Option.map_eq_some_iff.1 found
    cases kind <;> cases mapped
    refine ⟨_, by rw [same, classAt?, present]; rfl, by rw [if_pos same]⟩
  next apart => exact ⟨later, by rw [classAt?, found]; rfl, by rw [if_neg apart]⟩

/-- How a tree changes when a variable at the scope of a field is entered among the fields of its class. -/
structure EntersField (before after : ScopeTree) (owner id : ScopeId) (name : String)
    (f : Members → Members) : Prop where
  shape : SameShape after before
  there : before.FieldAt owner name id
  lasts : ∀ scope, scope ≠ id → before.Lasts after scope
  fresh : ∀ scope, scope ≠ id → after.hasEntity scope = true → before.hasEntity scope = true
  var : (before.classAt? owner).isSome = true → (after.variableAt? id).isSome = true
  entered : ∀ fields, (f fields).contains name = true
  kept : ∀ fields other, OrderedMap.contains fields other = true → (f fields).contains other = true
  added : ∀ fields entry, entry ∈ (f fields).entries → entry = (name, id) ∨ entry ∈ fields.entries

namespace EntersField

variable {owner id : ScopeId} {name : String} {f : Members → Members} {held : Class}
  (enters : before.EntersField after owner id name f) (formed : before.Formed) (last : after.Formed)
include enters formed last

theorem fieldsShaped (known : before.classAt? owner = some held) (shaped : before.FieldsShaped owner held) :
    after.FieldsShaped owner { held with fields := f held.fields } := by
  have links := enters.shape.links
  obtain ⟨fields, below, hangs⟩ := enters.there
  have var := enters.var (Option.isSome_of_eq_some known)
  refine ⟨fun {called field} at_ holds => ?_, fun {called field} found => ?_⟩
  · by_cases new : field = id
    · subst new
      obtain ⟨_, _, second⟩ := at_
      rw [← (last.child_unique (links hangs) second).2]
      exact ⟨enters.entered _, var⟩
    · have holds := enters.fresh field new holds
      obtain ⟨listed, var⟩ := shaped.listed (at_.back formed last links (index_lt_of_hasEntity holds)) holds
      exact ⟨enters.kept _ _ listed, (enters.lasts field new).variableAt? var⟩
  · rcases enters.added _ _ (OrderedMap.mem_entries_of_get? found) with new | member
    · cases new
      exact ⟨⟨fields, links below, links hangs⟩, var⟩
    · obtain ⟨at_, old⟩ := shaped.fields ((OrderedMap.get?_eq_some_iff _ _ _).2 member)
      refine ⟨at_.carry links, ?_⟩
      by_cases new : field = id
      · rw [new]; exact var
      · exact (enters.lasts field new).variableAt? old

/-- No other class has the field. -/
theorem fieldsShaped_other {other : ScopeId} (apart : other ≠ owner)
    (shaped : before.FieldsShaped other held) :
    after.FieldsShaped other held := by
  have links := enters.shape.links
  obtain ⟨fields, below, hangs⟩ := enters.there
  have foreign : ∀ {called field}, before.FieldAt other called field → field ≠ id := by
    rintro called _ ⟨scope, first, second⟩ rfl
    obtain ⟨rfl, _⟩ := formed.child_unique hangs second
    exact apart (formed.child_unique first below).1
  refine shaped.carry formed last links rfl (fun at_ => enters.lasts _ (foreign at_)) fun at_ holds => ?_
  refine enters.fresh _ (fun new => ?_) holds
  subst new
  exact foreign (at_.back formed last links (index_lt_of_node? (formed.child hangs).choose_spec.1)) rfl

theorem membersShaped {other : ScopeId} {later : Class} (dotless : before.Dotless)
    (known : before.classAt? other = some held) (shaped : before.ClassShaped other held)
    (regular : held.Regular) (constructor : later.constructor = held.constructor)
    (values : later.values = held.values) (functions : later.functions = held.functions)
    (methods : later.methods = held.methods) :
    after.MembersShaped other later := by
  have links := enters.shape.links
  obtain ⟨fields, below, hangs⟩ := enters.there
  refine (shaped.members regular).carry formed last links constructor functions methods
    (formed.parent?_of_child (formed.child?_constructor dotless known)) (fun found => .inl (values ▸ found))
    fun {member} above => ⟨?_, fun param parented => ?_⟩
  · refine enters.lasts member fun new => ?_
    -- What hangs below a scope of fields does not hang below a class.
    rw [new, formed.parent?_of_child hangs] at above
    cases above
    exact shaped.ordinary owner below
  · by_cases new : param = id
    · subst new
      rw [formed.parent?_of_child hangs] at parented
      cases parented
      rw [formed.parent?_of_child below] at above
      cases above
      cases vacant : before.hasEntity param with
      | true =>
        exact .of_variable (shaped.fields.listed ⟨fields, below, hangs⟩ vacant).2
          (enters.var (Option.isSome_of_eq_some known))
      | false => exact .of_vacant (by simpa [hasEntity] using vacant)
    · exact enters.lasts param new

end EntersField

/-- A variable at the scope of a field may be entered among the fields of its class. -/
theorem Shaped.addField {tree placed : ScopeTree} (shaped : tree.Shaped) (formed : tree.Formed)
    (dotless : tree.Dotless) {owner id : ScopeId} {name : String} (there : tree.FieldAt owner name id)
    (same : SameShape placed tree)
    (others : ∀ other, other ≠ id → placed.entity? other = tree.entity? other)
    (classes : ∀ {held}, placed.classAt? id = some held → tree.classAt? id = some held)
    (var : (tree.classAt? owner).isSome = true → (placed.variableAt? id).isSome = true)
    {f : Members → Members} (entered : ∀ fields, (f fields).contains name = true)
    (kept : ∀ fields other, OrderedMap.contains fields other = true → (f fields).contains other = true)
    (added : ∀ fields entry, entry ∈ (f fields).entries → entry = (name, id) ∨ entry ∈ fields.entries)
    (last : (placed.modifyClass owner fun held => { held with fields := f held.fields }).Formed) :
    (placed.modifyClass owner fun held => { held with fields := f held.fields }).Shaped := by
  have enters : tree.EntersField (placed.modifyClass owner fun held =>
    { held with fields := f held.fields }) owner id name f := {
    shape := (sameShape_modifyEntity placed owner _).trans same
    there := there
    lasts := fun scope differs => .trans (.of_eq (others scope differs))
      (.of_modifyClass placed owner _ scope)
    fresh := by
      intro scope differs holds
      rw [hasEntity, ← others scope differs]
      rw [hasEntity, modifyClass, entity?_modifyEntity] at holds
      split at holds
      next equal => rw [Option.isSome_map] at holds; exact equal ▸ holds
      next => exact holds
    var := fun known => (Lasts.of_modifyClass placed owner _ id).variableAt? (var known)
    entered := entered
    kept := kept
    added := added }
  intro other later held
  obtain ⟨before, known, rfl⟩ := classAt?_modifyClass held
  have old : tree.classAt? other = some before := by
    by_cases equal : other = id
    · subst equal
      exact classes known
    · rw [classAt?, ← others other equal]
      exact known
  have shape := shaped old
  have inside := index_lt_of_entity? (classAt?_eq_some old).choose_spec
  have top := (enters.shape.parent? other).trans shape.top
  have ordinary := shape.ordinary.links formed last enters.shape.links inside
  split
  next equal =>
    subst equal
    exact ⟨top, ordinary, enters.fieldsShaped formed last old shape.fields,
      fun regular => enters.membersShaped formed last dotless old shape regular rfl rfl rfl rfl⟩
  next apart =>
    exact ⟨top, ordinary, enters.fieldsShaped_other formed last apart shape.fields,
      fun regular => enters.membersShaped formed last dotless old shape regular rfl rfl rfl rfl⟩

end Grow
end LuaClasses.ScopeTree
