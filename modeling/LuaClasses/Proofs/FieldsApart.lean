import LuaClasses.Proofs.LexicalScope
import LuaClasses.Proofs.LiveReferences
import LuaClasses.Proofs.DescentAgreement

/-! Instance fields and all else that stands on a scope. The fields of a class hang below a scope whose
name no part of a program has, so no entity but the class stores the scope of a field, and no name in a
body leads to it. -/

namespace LuaClasses
namespace ScopeTree

variable {tree : ScopeTree} {owner field : ScopeId}

/-- Whether a class lists a scope among its instance fields. -/
def ListsField (tree : ScopeTree) (owner field : ScopeId) : Prop :=
  ∃ held, tree.classAt? owner = some held ∧ field ∈ held.fields.values

/-- Whether the scopes of instance fields belong to nothing else. They hold variables, so none of them is
the scope of a function, a constructor, a block, a table or a class; no entity but the class stores one,
as a parameter, a local, a value or a member; and the indices of the top level list none. -/
structure FieldsApart (tree : ScopeTree) : Prop where
  isVariable : ∀ {owner field}, tree.ListsField owner field → (tree.variableAt? field).isSome = true
  stored : ∀ {owner field}, tree.ListsField owner field → ∀ {id entity spot}, tree.entity? id = some entity →
    (spot, field) ∈ entity.kind.stored → id = owner ∧ spot = .field
  globals : ∀ {owner field}, tree.ListsField owner field → field ∉ tree.globals.stored

/-! ### Where the scopes of fields hang -/

private theorem ListsField.fieldAt (shaped : tree.Shaped) (lists : tree.ListsField owner field) :
    (∃ name, tree.FieldAt owner name field) ∧ (tree.variableAt? field).isSome = true := by
  obtain ⟨held, found, member⟩ := lists
  obtain ⟨⟨name, _⟩, listed, rfl⟩ := List.mem_map.1 member
  obtain ⟨there, var⟩ := (shaped found).fields.fields ((OrderedMap.get?_eq_some_iff _ _ _).2 listed)
  exact ⟨⟨name, there⟩, var⟩

/-- No entity stands on the scope of the fields of a class. -/
theorem AnchoredBut.vacant_fields (anchored : tree.Anchored) (formed : tree.Formed) {fields : ScopeId}
    (below : tree.child? owner fieldsName = some fields) : tree.entity? fields = none := by
  by_contra occupied
  obtain ⟨parent, name, hangs, apart⟩ := anchored.named (Option.isSome_iff_ne_none.2 occupied)
  exact apart (formed.child_unique hangs below).2

/-- What hangs below the scope of fields of one class hangs nowhere else. -/
theorem Lies.eq_field (formed : tree.Formed) (anchored : tree.Anchored) {holder : ScopeId}
    {name : String} {spot : Spot} (there : tree.FieldAt owner name field)
    (lies : tree.Lies holder spot field) (occupied : tree.hasEntity holder = true ∨ holder = root) :
    holder = owner ∧ spot = .field := by
  obtain ⟨fields, below, hangs⟩ := there
  cases spot with
  | below =>
    obtain ⟨other, lies⟩ := lies
    obtain ⟨rfl, _⟩ := formed.child_unique lies hangs
    rcases occupied with occupied | rfl
    · rw [hasEntity, anchored.vacant_fields formed below] at occupied
      cases occupied
    · exact absurd below (formed.ordinary_root owner)
  | field =>
    obtain ⟨other, scope, first, second⟩ := lies
    obtain ⟨rfl, _⟩ := formed.child_unique second hangs
    exact ⟨(formed.child_unique first below).1, rfl⟩
  | top =>
    obtain ⟨other, lies⟩ := lies
    obtain ⟨rfl, _⟩ := formed.child_unique lies hangs
    exact absurd below (formed.ordinary_root owner)

private theorem AnchoredBut.fieldsApart (anchored : tree.Anchored) (formed : tree.Formed)
    (shaped : tree.Shaped) : tree.FieldsApart where
  isVariable := fun lists => (lists.fieldAt shaped).2
  stored := by
    intro owner field lists id entity spot held member
    obtain ⟨⟨name, there⟩, _⟩ := lists.fieldAt shaped
    have lies := (anchored.stored nofun held member).1
    exact lies.eq_field formed anchored there (.inl (Option.isSome_of_eq_some held))
  globals := by
    intro owner field lists listed
    obtain ⟨⟨name, there⟩, _⟩ := lists.fieldAt shaped
    obtain ⟨_, same⟩ := (anchored.globals field listed).1.eq_field formed anchored there (.inr rfl)
    cases same

/-! ### Names in bodies -/

/-- No scope of a body is the scope of the fields of a class, or below it. -/
theorem fields_not_mem_ancestors (formed : tree.Formed) {scope member fields other : ScopeId}
    (outer : tree.parent? owner = some root) (below : tree.parent? member = some owner)
    (ordinary : tree.Ordinary member) (around : member ∈ tree.ancestors scope)
    (top : tree.parent? other = some root) (hangs : tree.child? other fieldsName = some fields) :
    fields ∉ tree.ancestors scope := by
  intro inside
  have parent : ∀ {id parent}, tree.parent? id = some parent → id ∈ tree.ancestors scope →
      parent ∈ tree.ancestors scope := by
    intro id parent above inner
    refine mem_ancestors_trans formed ?_ inner
    rw [ancestors_of_parent? formed above]
    exact List.mem_cons_of_mem _ (self_mem_ancestors tree parent)
  have above := formed.parent?_of_child hangs
  obtain rfl : other = owner := formed.eq_of_mem_ancestors top outer
    (parent above inside) (parent below around)
  obtain rfl : fields = member := formed.eq_of_mem_ancestors above below inside around
  exact ordinary other hangs

/-- A path of names that do not name the scope of fields leads to no field, unless it starts there. -/
theorem resolveRelative_ne_field (formed : tree.Formed) {fields level : ScopeId} {name path : String}
    (below : tree.child? owner fieldsName = some fields) (hangs : tree.child? fields name = some field)
    (segments : ∀ segment ∈ DottedName.segments path, segment ≠ fieldsName) (apart : level ≠ fields)
    (other : level ≠ field) :
    tree.resolveRelative level path ≠ some field := by
  rw [resolveRelative]
  generalize DottedName.segments path = names at segments
  -- Along the path no scope is the one of the fields, so that the last step does not lead to a field.
  induction names generalizing level with
  | nil => exact fun same => other (Option.some.inj same)
  | cons segment rest ih =>
    obtain ⟨first, others⟩ := List.forall_mem_cons.1 segments
    rw [List.foldlM_cons]
    intro found
    obtain ⟨next, step, found⟩ := Option.bind_eq_some_iff.1 found
    refine ih (fun same => ?_) (fun same => ?_) others found
    · exact first (formed.child_unique (same ▸ step) below).2
    · exact apart (formed.child_unique (same ▸ step) hangs).1

end ScopeTree

namespace Discovery
open ScopeTree

variable {config : DiscoveryConfig} {program : Program} {state : State}

private theorem Moment.fieldsApart (moment : Moment program config state) (plain : program.Plain) :
    state.tree.FieldsApart := by
  obtain ⟨formed, tidy, _⟩ := moment.tends plain (formed_defined config program) (tidy_defined config plain)
  exact ((moment.anchors plain).anchoredBut (accounted_defined config plain).anchored).fieldsApart
    formed.tree tidy.tree.shaped

/-- No name in a body leads to a field. -/
theorem Moment.lookup_ne_field (moment : Moment program config state) (plain : program.Plain)
    {owner field : ScopeId} (lists : state.tree.ListsField owner field) {tour : Tour}
    (made : tour ∈ tours config (defined config program)) {scope : ScopeId}
    (within : tour.frame.scope ∈ state.tree.ancestors scope) {path : String}
    (segments : ∀ segment ∈ DottedName.segments path, segment ≠ fieldsName) :
    state.tree.lookup path scope ≠ some field := by
  obtain ⟨formed, tidy, grows⟩ := moment.tends plain (formed_defined config program)
    (tidy_defined config plain)
  have fair := (fair_tours config (formed_defined config program) (tidy_defined config plain) tour made).grows
    (formed_defined config program).tree formed.tree grows.tree
  obtain ⟨bodies, listed, own⟩ := List.mem_flatMap.1 made
  obtain ⟨below, outer⟩ := tour_below_class config plain listed own
  obtain ⟨held, found, _⟩ := id lists
  obtain ⟨⟨name, fields, hangs, step⟩, _⟩ := lists.fieldAt tidy.tree.shaped
  have before := (formed_defined config program).tree
  have outside := fields_not_mem_ancestors formed.tree (grows.tree.links.parent?_eq before formed.tree outer)
    (grows.tree.links.parent?_eq before formed.tree below) fair.ordinary within
    (tidy.tree.shaped found).top hangs
  intro reached
  obtain ⟨level, around, reached⟩ := List.exists_of_findSome?_eq_some reached
  have around_ : ∀ {outer}, outer ∈ state.tree.ancestors level → outer ∈ state.tree.ancestors scope :=
    fun inner => mem_ancestors_trans formed.tree inner around
  refine resolveRelative_ne_field formed.tree hangs step segments ?_ ?_
    (Option.filter_eq_some_iff.1 reached).1
  · rintro rfl
    exact outside around
  · rintro rfl
    refine outside (around_ ?_)
    rw [ancestors_of_parent? formed.tree (formed.tree.parent?_of_child step)]
    exact List.mem_cons_of_mem _ (self_mem_ancestors state.tree fields)

/-- The names of a text whose names do not include the one of the scope of fields are plain. -/
theorem plain_ofText {text : String} (parsed : Program.ofText text = .ok program)
    (free : fieldsName ∉ program.names) :
    program.Plain := by
  intro name member
  obtain ⟨file, read, lowered⟩ := Program.exists_file parsed
  have proper := Source.File.proper_program (Source.File.statementsProper_ofText read) lowered
  refine ⟨(proper.names name member).2, ?_⟩
  rintro rfl
  exact free member

/-- Where a text does not use the name of the scope of fields, the instance fields of classes share no
scope with anything else, at any moment of a discovery, and no name in the body of a class leads to
one. -/
theorem fields_apart {text : String} (config : DiscoveryConfig) (parsed : Program.ofText text = .ok program)
    (free : fieldsName ∉ program.names) {state : State} (moment : Moment program config state) :
    state.tree.FieldsApart ∧
      ∀ {owner field}, state.tree.ListsField owner field → ∀ tour ∈ tours config (defined config program),
        ∀ scope, tour.frame.scope ∈ state.tree.ancestors scope → ∀ path,
          (∀ segment ∈ DottedName.segments path, segment ≠ fieldsName) →
          state.tree.lookup path scope ≠ some field :=
  have plain := plain_ofText parsed free
  ⟨moment.fieldsApart plain, fun lists _ made _ within _ segments =>
    moment.lookup_ne_field plain lists made within segments⟩

/-- A constructor that sets an instance field, and a function of the class with a parameter of the name
of the field. -/
def sharingText (function : String) : String :=
  "Foo = ISBaseObject:derive(\"Foo\")\nfunction Foo.new() local o = \x7b\x7d o.x = 1 return o end\nfunction Foo." ++ function ++ "(x) end"

/-- The parameter has a scope of its own if the function has a name like any other. -/
theorem parameter_apart :
    ∃ program, Program.ofText (sharingText "get") = .ok program ∧ fieldsName ∉ program.names ∧
    Moment program .default (Run.start program .default).seed.sweep.1.state ∧
    (Run.start program .default).seed.sweep.1.state.tree.ListsField ⟨1⟩ ⟨4⟩ ∧
    (Run.start program .default).seed.sweep.1.state.tree.FieldsApart := by
  obtain ⟨program, parsed, free, fields⟩ : ∃ program, Program.ofText (sharingText "get") = .ok program ∧
      fieldsName ∉ program.names ∧ (((Run.start program .default).seed.sweep.1.state.tree.classAt? ⟨1⟩).any
        fun held => ⟨4⟩ ∈ held.fields.values) = true :=
    Program.exists_ofText _ (by decide +kernel)
  have moment : Moment program .default (Run.start program .default).seed.sweep.1.state :=
    .of_reached (.swept .seeded) (plain_ofText parsed free)
  obtain ⟨held, found, listed⟩ := (Option.any_eq_true _ _).1 fields
  exact ⟨program, parsed, free, moment, ⟨held, found, of_decide_eq_true listed⟩,
    (fields_apart .default parsed free moment).1⟩

/-- The function may be named like the scope of the fields. Then its parameter is the field, with the
type of the field. -/
theorem parameter_shares_field : ∃ program, Program.ofText (sharingText fieldsName) = .ok program ∧
    (discover program .default).tree.ListsField ⟨1⟩ ⟨4⟩ ∧
    ((discover program .default).tree.functionAt? ⟨3⟩).map Function.params = some [⟨4⟩] ∧
    ((discover program .default).tree.variableAt? ⟨4⟩).map Variable.types = some (.single .number) ∧
    ¬(discover program .default).tree.FieldsApart := by
  obtain ⟨program, parsed, fields, params, types⟩ : ∃ program,
    Program.ofText (sharingText fieldsName) = .ok program ∧
      (((discover program .default).tree.classAt? ⟨1⟩).any fun held => ⟨4⟩ ∈ held.fields.values) = true ∧
      ((discover program .default).tree.functionAt? ⟨3⟩).map Function.params = some [⟨4⟩] ∧
      ((discover program .default).tree.variableAt? ⟨4⟩).map Variable.types = some (.single .number) :=
    Program.exists_ofText _ (by decide +kernel)
  obtain ⟨held, found, listed⟩ := (Option.any_eq_true _ _).1 fields
  have lists : (discover program .default).tree.ListsField ⟨1⟩ ⟨4⟩ := ⟨held, found, of_decide_eq_true listed⟩
  refine ⟨program, parsed, lists, params, types, fun apart => ?_⟩
  obtain ⟨function, present, same⟩ := Option.map_eq_some_iff.1 params
  obtain ⟨⟨references, kind⟩, occupied, asFunction⟩ := Option.bind_eq_some_iff.1 present
  cases kind <;> cases asFunction
  have member : (.below, ⟨4⟩) ∈ (EntityKind.function function).stored := by
    rw [EntityKind.stored, same]
    exact List.mem_cons_self
  have other := (apart.stored lists occupied member).1
  cases other

end Discovery
end LuaClasses
