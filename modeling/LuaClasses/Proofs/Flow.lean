import LuaClasses.Proofs.Inflow
import Mathlib.Logic.Relation

/-! The graph along which types flow. A variable or a function takes in what the scopes offer to which
its references lead, and passes it on to those that refer to it. -/

namespace LuaClasses

theorem ScopeTree.lookup_congr {first second : ScopeTree} (shape : SameShape first second)
    (occupied : ∀ id, first.hasEntity id = second.hasEntity id) (name : String) (origin : ScopeId) :
    first.lookup name origin = second.lookup name origin := by
  have descends : ∀ level, first.resolveRelative level name = second.resolveRelative level name := by
    intro level
    simp only [resolveRelative, shape.child?]
  simp only [lookup, shape.ancestors, descends, occupied]

namespace Discovery
open ScopeTree Relation

/-- The references of a variable or a function lead from it to other scopes. -/
inductive Edge (tree : ScopeTree) (owner : ScopeId) : ScopeId → Prop
  | resolved {entity : Entity} {types : TypeSet} {target : ScopeId} (held : tree.entity? owner = some entity)
      (gathers : entity.gathered? = some types) (member : .resolved target ∈ entity.references.values) :
      Edge tree owner target
  | unresolved {entity : Entity} {types : TypeSet} {name : String} {origin target : ScopeId}
      (held : tree.entity? owner = some entity) (gathers : entity.gathered? = some types)
      (member : .unresolved name origin ∈ entity.references.values)
      (found : tree.lookup name origin = some target)
      (apart : target ≠ owner) : Edge tree owner target

/-- What a scope offers to those that refer to it. -/
inductive Offers (tree : ScopeTree) (id : ScopeId) : LuaType → Prop
  /-- The types of a variable, or those that a function returns. -/
  | gathered {entity : Entity} {types : TypeSet} {type : LuaType} (held : tree.entity? id = some entity)
      (gathers : entity.gathered? = some types) (member : type ∈ types) : Offers tree id type
  | class_ {owner : Class} (held : tree.classAt? id = some owner) : Offers tree id (.instanceOf owner.name)
  /-- An instance of the class around a constructor. -/
  | constructor {entity : Entity} {above : ScopeId} {owner : Class}
      (held : tree.entity? id = some entity) (constructs : entity.asConstructor?.isSome = true)
      (below : tree.parent? id = some above) (around : tree.classAt? above = some owner) :
      Offers tree id (.instanceOf owner.name)
  | table {entity : Entity} (held : tree.entity? id = some entity) (isTable : entity.isTable = true) :
    Offers tree id .table

/-- Whether a type is offered by a scope or by one that is reached from it along references. -/
def Arrives (tree : ScopeTree) (id : ScopeId) (type : LuaType) : Prop :=
  ∃ source, ReflTransGen (Edge tree) id source ∧ Offers tree source type

/-! ### Edges and offers as propagation reads them -/

variable {tree : ScopeTree}

theorem edge_iff {owner target : ScopeId} :
    Edge tree owner target ↔ ∃ entity, tree.entity? owner = some entity ∧ entity.gathered?.isSome = true ∧
      some target ∈ entity.references.values.map (destination? tree owner) := by
  constructor
  · intro edge
    cases edge with
    | resolved held gathers member =>
      exact ⟨_, held, Option.isSome_of_eq_some gathers, List.mem_map.2 ⟨_, member, rfl⟩⟩
    | unresolved held gathers member found apart =>
      exact ⟨_, held, Option.isSome_of_eq_some gathers,
        List.mem_map.2 ⟨_, member, destination?_unresolved.2 ⟨found, apart⟩⟩⟩
  · rintro ⟨entity, held, gathers, listed⟩
    obtain ⟨types, gathers⟩ := Option.isSome_iff_exists.1 gathers
    obtain ⟨reference, member, leads⟩ := List.mem_map.1 listed
    cases reference with
    | resolved other =>
      cases leads
      exact .resolved held gathers member
    | unresolved name origin =>
      obtain ⟨found, apart⟩ := destination?_unresolved.1 leads
      exact .unresolved held gathers member found apart

/-- A variable or a function offers what it has gathered. -/
theorem referenceTypes_of_gathers {id : ScopeId} {entity : Entity} {types : TypeSet}
    (held : tree.entity? id = some entity) (gathers : entity.gathered? = some types) :
    referenceTypes tree id = types := by
  obtain ⟨references, kind⟩ := entity
  unfold referenceTypes
  rw [held]
  cases kind <;> cases gathers <;> rfl

private theorem offers_of_mem {id : ScopeId} {type : LuaType} (member : type ∈ referenceTypes tree id) :
    Offers tree id type := by
  unfold referenceTypes at member
  cases held : tree.entity? id with
  | none =>
    rw [held] at member
    cases member
  | some entity =>
    rw [held] at member
    obtain ⟨references, kind⟩ := entity
    cases kind with
    | «variable» var => exact .gathered held rfl member
    | function function => exact .gathered held rfl member
    | class_ owner =>
      rw [TypeSet.mem_single.1 member]
      exact .class_ (by rw [classAt?, held]; rfl)
    | constructor constructor =>
      cases made : instanceOfConstructor? tree id with
      | none =>
        simp only [Option.map_some, made] at member
        cases member
      | some other =>
        simp only [Option.map_some, made] at member
        obtain ⟨owner, around, rfl⟩ := Option.map_eq_some_iff.1 made
        obtain ⟨above, below, classed⟩ := Option.bind_eq_some_iff.1 around
        rw [TypeSet.mem_single.1 member]
        exact .constructor held rfl below classed
    | table table =>
      rw [TypeSet.mem_single.1 member]
      exact .table held rfl
    | block block => cases member

theorem Offers.mem {id : ScopeId} {type : LuaType} (offers : Offers tree id type) :
    type ∈ referenceTypes tree id := by
  cases offers with
  | gathered held gathers member =>
    rw [referenceTypes_of_gathers held gathers]
    exact member
  | @class_ owner held =>
    obtain ⟨⟨references, kind⟩, found, asClass⟩ := Option.bind_eq_some_iff.1 held
    unfold referenceTypes
    rw [found]
    cases kind <;> cases asClass
    exact TypeSet.mem_single.2 rfl
  | @constructor entity above owner held constructs below around =>
    obtain ⟨references, kind⟩ := entity
    have made : instanceOfConstructor? tree id = some owner.instanceType := by
      rw [instanceOfConstructor?, below, Option.bind_some, around, Option.map_some]
    unfold referenceTypes
    rw [held]
    cases kind <;> cases constructs
    simp only [Option.map_some, made]
    exact TypeSet.mem_single.2 rfl
  | @table entity held isTable =>
    obtain ⟨references, kind⟩ := entity
    unfold referenceTypes
    rw [held]
    cases kind <;> cases isTable
    exact TypeSet.mem_single.2 rfl

/-- The types that a read of a scope gives are those that it offers. -/
theorem mem_referenceTypes {id : ScopeId} {type : LuaType} :
    type ∈ referenceTypes tree id ↔ Offers tree id type :=
  ⟨offers_of_mem, Offers.mem⟩

theorem Arrives.of_offers {id : ScopeId} {type : LuaType} (offers : Offers tree id type) :
    Arrives tree id type :=
  ⟨id, .refl, offers⟩

theorem Arrives.pass {owner target : ScopeId} {type : LuaType} (edge : Edge tree owner target)
    (arrives : Arrives tree target type) :
    Arrives tree owner type := by
  obtain ⟨source, reached, offers⟩ := arrives
  exact ⟨source, reached.head edge, offers⟩

/-! ### The order in which references are listed -/

/-- Two trees that list the references of their entities in different orders, and agree in all else that
propagation reads. -/
structure Relisted (first second : ScopeTree) : Prop where
  shape : SameShape first second
  kinds : ∀ id, (first.entity? id).map Entity.kind = (second.entity? id).map Entity.kind
  references : ∀ id one two, first.entity? id = some one → second.entity? id = some two →
    one.references.entries.Perm two.references.entries

namespace Relisted

variable {first second : ScopeTree}

theorem symm (relisted : Relisted first second) : Relisted second first where
  shape := relisted.shape.symm
  kinds := fun id => (relisted.kinds id).symm
  references := fun id one two left right => (relisted.references id two one right left).symm

theorem occupied (relisted : Relisted first second) (id : ScopeId) :
    first.hasEntity id = second.hasEntity id := by
  have same := congrArg Option.isSome (relisted.kinds id)
  rwa [Option.isSome_map, Option.isSome_map] at same

theorem entity? (relisted : Relisted first second) {id : ScopeId} {entity : Entity}
    (held : first.entity? id = some entity) :
    ∃ other, second.entity? id = some other ∧ other.kind = entity.kind ∧
      ∀ reference ∈ entity.references.values, reference ∈ other.references.values := by
  have same := relisted.kinds id
  rw [held, Option.map_some] at same
  obtain ⟨other, found, kind⟩ := Option.map_eq_some_iff.1 same.symm
  refine ⟨other, found, kind, fun reference member => ?_⟩
  exact ((relisted.references id entity other held found).map Prod.snd).subset member

theorem gathered? {one two : Entity} (kind : two.kind = one.kind) : two.gathered? = one.gathered? := by
  simp only [Entity.gathered?, kind]

theorem classAt? (relisted : Relisted first second) (id : ScopeId) :
    second.classAt? id = first.classAt? id := by
  have read : ∀ held : Option Entity, held.bind Entity.asClass? =
      (held.map Entity.kind).bind fun kind => (Entity.mk .empty kind).asClass? := by
    intro held
    cases held <;> rfl
  rw [ScopeTree.classAt?, ScopeTree.classAt?, read, read, relisted.kinds]

theorem edge (relisted : Relisted first second) {owner target : ScopeId} (edge : Edge first owner target) :
    Edge second owner target := by
  cases edge with
  | resolved held gathers member =>
    obtain ⟨other, found, kind, kept⟩ := relisted.entity? held
    exact .resolved found ((gathered? kind).trans gathers) (kept _ member)
  | unresolved held gathers member leads apart =>
    obtain ⟨other, found, kind, kept⟩ := relisted.entity? held
    have leads := (lookup_congr relisted.shape relisted.occupied _ _).symm.trans leads
    exact .unresolved found ((gathered? kind).trans gathers) (kept _ member) leads apart

theorem offers (relisted : Relisted first second) {id : ScopeId} {type : LuaType}
    (offers : Offers first id type) :
    Offers second id type := by
  cases offers with
  | gathered held gathers member =>
    obtain ⟨other, found, kind, _⟩ := relisted.entity? held
    exact .gathered found ((gathered? kind).trans gathers) member
  | class_ held => exact .class_ ((relisted.classAt? id).trans held)
  | constructor held constructs below around =>
    obtain ⟨other, found, kind, _⟩ := relisted.entity? held
    refine .constructor found ?_ ((relisted.shape.parent? id).symm.trans below)
      ((relisted.classAt? _).trans around)
    · simp only [Entity.asConstructor?, kind] at constructs ⊢
      exact constructs
  | table held isTable =>
    obtain ⟨other, found, kind, _⟩ := relisted.entity? held
    refine .table found ?_
    simp only [Entity.isTable, kind] at isTable ⊢
    exact isTable

theorem arrives (relisted : Relisted first second) {id : ScopeId} {type : LuaType} :
    Arrives first id type ↔ Arrives second id type := by
  have onward : ∀ {one two : ScopeTree}, Relisted one two → Arrives one id type → Arrives two id type := by
    rintro one two relisted ⟨source, reached, offers⟩
    have kept : ReflTransGen (Edge two) id source := by
      clear offers
      induction reached with
      | refl => exact .refl
      | tail _ edge ih => exact ih.tail (relisted.edge edge)
    exact ⟨source, kept, relisted.offers offers⟩
  exact ⟨onward relisted, onward relisted.symm⟩

end Relisted
end Discovery
end LuaClasses
