import LuaClasses.Proofs.FieldSweeps
import LuaClasses.Proofs.DescentAgreement
import Mathlib.Data.List.Nodup

/-! The fields of the instances of a class are those that the bodies of the class assign: its last
constructor, and the methods that no later definition of their names replaces. -/

namespace LuaClasses

open ScopeTree Discovery

/-- Whether a body of a class assigns a value to a field of the instance: the last constructor under the
name that it returns, or a method under the name that instances have in methods. There may be no value
opposite the target. -/
def Program.AssignsField (program : Program) (config : DiscoveryConfig) (ownerName field : String)
    (value : Option Expr) : Prop :=
  (∃ indexer body self, program.definition? ownerName config.constructorName = some (indexer, body) ∧
    selfAlias? body.body = some self ∧ Assigns body self field value) ∨
  ∃ method body, method ≠ config.constructorName ∧
    program.definition? ownerName method = some (.colon, body) ∧
    Assigns body config.instanceAlias field value

namespace Discovery

variable {config : DiscoveryConfig} {program : Program}

private theorem assigns_ofBody {tree : ScopeTree} {frame : Frame} {body : FunctionBody} {name : String}
    {value : Option Expr} :
    (Tour.ofBody tree frame body).Assigns name value ↔ ∃ self, frame.selfAlias = some self ∧
    Assigns body self name value := by
  have targets := targets_sites body.body (tree.raw frame.scope) []
  constructor
  · rintro ⟨site, member, target, assigned, field⟩
    obtain ⟨self, known, field⟩ := Option.bind_eq_some_iff.1 field
    refine ⟨self, known, target, ?_, field⟩
    rw [← targets]
    exact List.mem_filterMap.2 ⟨site, member, assigned⟩
  · rintro ⟨self, known, target, member, field⟩
    rw [← targets] at member
    obtain ⟨site, listed, assigned⟩ := List.mem_filterMap.1 member
    exact ⟨site, listed, target, assigned, Option.bind_eq_some_iff.2 ⟨self, known, field⟩⟩

/-- The literals that the last constructor gives to fields are values that sweeps find there again. -/
theorem assigns_of_listed_literal {held : Class} {name : String} {type : LuaType} {range : Range}
    (literal : (name, type, range) ∈ literalsOf (program.definition? held.name config.constructorName)) :
    ∃ value : Expr, program.AssignsField config held.name name (some value) ∧
      value.literalType? = some type := by
  rw [literalsOf] at literal
  cases known : program.definition? held.name config.constructorName with
  | none => rw [known] at literal; cases literal
  | some definition =>
    rw [known] at literal
    obtain ⟨self, value, named, assigned, tells⟩ := assigns_of_literal literal
    exact ⟨value, .inl ⟨definition.1, definition.2, self, known, named, assigned⟩, tells⟩

section Defined

variable (dotless : ∀ name ∈ program.names, '.' ∉ name.toList)
include dotless

theorem own_tours {bodies : ClassBodies} (listed : bodies ∈ (defined config program).classes) {tour : Tour}
    (made : tour ∈ tours config (defined config program))
    (below : (defined config program).tree.parent? tour.frame.scope = some bodies.owner) :
    tour ∈ toursOf config (defined config program).tree bodies := by
  obtain ⟨other, member, made⟩ := List.mem_flatMap.1 made
  have around := (hosted_toursOf dotless member made).1.below
  have same : other = bodies :=
    List.inj_on_of_nodup_map (roster_defined config dotless).distinct member listed
      (Option.some.inj (around.symm.trans below))
  exact same ▸ made

/-- The bodies that assign the fields of a class are its own. -/
theorem gifts_iff {bodies : ClassBodies} (listed : bodies ∈ (defined config program).classes)
    {held : Class} (found : (defined config program).tree.classAt? bodies.owner = some held)
    (regular : held.Regular) (name : String) (value : Option Expr) :
    Gifts config program bodies.owner name value ↔ program.AssignsField config held.name name value := by
  have entered := (roster_defined config dotless).entered bodies listed
  have selfAlias : ∀ {indexer body}, program.definition? held.name config.constructorName =
    some (indexer, body) →
      selfAliasAt? (defined config program).tree held.constructor = selfAlias? body.body := by
    intro indexer body known
    refine (entered.held held found).selfAlias regular indexer body ?_
    rw [stepsOf, found]
    exact known
  constructor
  · rintro ⟨tour, made, below, assigns⟩
    rcases mem_toursOf.1 (own_tours dotless listed made below) with
      ⟨body, owner, given, reached, rfl⟩ | ⟨_, id, body, member, rfl⟩ | ⟨method, id, body, member, rfl⟩
    · cases found.symm.trans reached
      obtain ⟨indexer, known⟩ := (entered.constructor_iff found).1 given
      obtain ⟨self, named, assigned⟩ := assigns_ofBody.1 assigns
      exact .inl ⟨indexer, body, self, known, (selfAlias known).symm.trans named, assigned⟩
    · obtain ⟨self, named, _⟩ := assigns_ofBody.1 assigns
      cases named
    · obtain ⟨other, known⟩ := (entered.member_iff found .colon).1 ⟨id, member⟩
      obtain ⟨self, named, assigned⟩ := assigns_ofBody.1 assigns
      cases named
      exact .inr ⟨method, body, other, known, assigned⟩
  · have gives : ∀ {tour}, tour ∈ toursOf config (defined config program).tree bodies →
      tour.Assigns name value →
        Gifts config program bodies.owner name value := fun made assigns =>
      ⟨_, List.mem_flatMap.2 ⟨bodies, listed, made⟩, (hosted_toursOf dotless listed made).1.below, assigns⟩
    rintro (⟨indexer, body, self, known, named, assigned⟩ | ⟨method, body, other, known, assigned⟩)
    · refine gives (mem_toursOf.2 (.inl ⟨body, held, (entered.constructor_iff found).2 ⟨indexer, known⟩,
        found, rfl⟩)) ?_
      exact assigns_ofBody.2 ⟨self, (selfAlias known).trans named, assigned⟩
    · obtain ⟨id, member⟩ := (entered.member_iff found .colon).2 ⟨other, known⟩
      refine gives (mem_toursOf.2 (.inr (.inr ⟨method, id, body, member, rfl⟩))) ?_
      exact assigns_ofBody.2 ⟨config.instanceAlias, rfl, assigned⟩

/-- The literals that entered fields are assigned in the last constructor, which sweeps walk again. -/
theorem assigns_of_entered {bodies : ClassBodies} (listed : bodies ∈ (defined config program).classes)
    {held : Class} (found : (defined config program).tree.classAt? bodies.owner = some held)
    {name : String} (given : (defined config program).tree.HasField bodies.owner name) :
    ∃ value, program.AssignsField config held.name name value := by
  have entered := (roster_defined config dotless).entered bodies listed
  obtain ⟨references, entity⟩ := classAt?_eq_some found
  rw [HasField, fieldsOf_of_held _ entity] at given
  obtain ⟨type, range, literal⟩ := (entered.held held found).fields name given
  rw [stepsOf, found, Option.map_some, Option.getD_some] at literal
  obtain ⟨value, assigned, _⟩ := assigns_of_listed_literal literal
  exact ⟨some value, assigned⟩

omit dotless in
/-- A class at the end is one that was there when its members were entered, with the same members. -/
theorem exists_bodies_of_class {id : ScopeId} (listed : id ∈ (discover program config).classes)
    {owner : Class} (found : (discover program config).tree.classAt? id = some owner) :
    ∃ bodies ∈ (defined config program).classes, bodies.owner = id ∧
      ∃ held, (defined config program).tree.classAt? id = some held ∧ held.outline = owner.outline := by
  obtain ⟨grows, owners⟩ := grows_discover config program
  rw [owners] at listed
  obtain ⟨bodies, member, same⟩ := List.mem_map.1 listed
  have outline := grows.classAt? id
  rw [found] at outline
  obtain ⟨held, reached, equal⟩ := Option.map_eq_some_iff.1 outline.symm
  exact ⟨bodies, member, same, held, reached, equal⟩

end Defined

/-- The fields of a class are those that its last constructor and its methods assign, at any depth of
blocks, and nothing else gives it a field. -/
theorem field_iff_assigned (config : DiscoveryConfig)
    (dotless : ∀ name ∈ program.names, '.' ∉ name.toList) (sweeps : 1 ≤ config.maxSweeps) {id : ScopeId}
    (listed : id ∈ (discover program config).classes) {owner : Class}
    (found : (discover program config).tree.classAt? id = some owner) (regular : owner.Regular)
    (field : String) :
    field ∈ owner.fields.keys ↔ ∃ value, program.AssignsField config owner.name field value := by
  obtain ⟨bodies, member, rfl, held, reached, outline⟩ := exists_bodies_of_class listed found
  have name : held.outline.name = owner.outline.name := congrArg Class.name outline
  have same : held.outline.Regular := outline ▸ regular
  change held.name = owner.name at name
  obtain ⟨references, entity⟩ := classAt?_eq_some found
  have given := hasField_discover dotless sweeps bodies.owner field
  rw [HasField, fieldsOf_of_held _ entity] at given
  simp only [gifts_iff dotless member reached same] at given
  rw [← name, OrderedMap.mem_keys_iff_contains]
  exact given.trans (or_iff_right_of_imp (assigns_of_entered dotless member reached))

/-- A class with two constructors, of which the last assigns two fields in a block, and a method that
assigns a third. -/
def rebuiltText : String :=
  "Foo = ISBaseObject:derive(\"Foo\")\nfunction Foo.new() local old = \x7b\x7d old.gone = 1 return old end\n" ++
    "function Foo.new() local o = \x7b\x7d if o then o.a, o.b = 1 end return o end\n" ++
    "function Foo:set() while self do self.c = self.a end end"

/-- A target without a value gives a field, and a constructor that another replaces gives none. -/
theorem field_iff_assigned_rebuilt : ∃ program owner, Program.ofText rebuiltText = .ok program ∧
    (discover program .default).tree.classAt? ⟨1⟩ = some owner ∧ owner.fields.keys = ["c", "a", "b"] ∧
    (∃ value, program.AssignsField .default "Foo" "b" value) ∧ ¬∃ value,
    program.AssignsField .default "Foo" "gone" value := by
  obtain ⟨program, parsed, dotless, listed, fields⟩ : ∃ program, Program.ofText rebuiltText = .ok program ∧
      (∀ name ∈ program.names, '.' ∉ name.toList) ∧ ⟨1⟩ ∈ (discover program .default).classes ∧
      ((discover program .default).tree.classAt? ⟨1⟩).any (fun held => held.name = "Foo" ∧
        !held.functions.contains "constructor" ∧ !held.methods.contains "constructor" ∧
        held.fields.keys = ["c", "a", "b"]) = true :=
    Program.exists_ofText _ (by decide +kernel)
  obtain ⟨owner, found, facts⟩ := (Option.any_eq_true _ _).1 fields
  obtain ⟨name, functions, methods, keys⟩ := of_decide_eq_true facts
  have regular : owner.Regular := by simpa [Class.Regular] using And.intro functions methods
  have given := field_iff_assigned .default dotless (by decide) listed found regular
  rw [name, keys] at given
  exact ⟨program, owner, parsed, found, keys, (given "b").1 (by decide),
    fun other => absurd ((given "gone").2 other) (by decide)⟩

end Discovery
end LuaClasses
