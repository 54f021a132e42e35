import LuaClasses.Proofs.Convergence
import LuaClasses.Proofs.Flow

/-! Propagation computes reachability. Whatever tree it is begun in and in whatever order the holders of
references are visited, rounds of propagation come to an end, and then every variable and every function
has exactly the types that arrive along references. No round brings a type that does not arrive, and
where a round finds nothing, every type has moved along every edge. -/

namespace LuaClasses

namespace Entity

theorem mem_gathered {entity : Entity} {type : LuaType} :
    type ∈ entity.gathered ↔ ∃ types, entity.gathered? = some types ∧ type ∈ types := by
  unfold gathered
  cases entity.gathered? with
  | none => simp [TypeSet.mem_def, TypeSet.empty]
  | some types => simp

/-- What is the same of a kind and of its outline is the same of two entities with one outline. -/
theorem read_outline {α : Type} {one two : Entity} (same : two.kind.outline = one.kind.outline)
    (f : EntityKind → α) (blind : ∀ kind, f kind.outline = f kind) : f two.kind = f one.kind := by
  rw [← blind, same, blind]

theorem Grows.gathers {before after : Entity} (grows : before.Grows after) :
    after.gathered?.isSome = before.gathered?.isSome :=
  read_outline grows.outline (fun kind => (Entity.new kind).gathered?.isSome)
    fun kind => by cases kind <;> rfl

theorem Grows.constructs {before after : Entity} (grows : before.Grows after) :
    after.asConstructor?.isSome = before.asConstructor?.isSome :=
  read_outline grows.outline (fun kind => (Entity.new kind).asConstructor?.isSome)
    fun kind => by cases kind <;> rfl

theorem Grows.isTable {before after : Entity} (grows : before.Grows after) : after.isTable = before.isTable :=
  read_outline grows.outline (fun kind => (Entity.new kind).isTable) fun kind => by cases kind <;> rfl

end Entity

namespace Discovery
open ScopeTree Relation

/-- An order in which the holders of references are visited. -/
structure VisitOrder where
  owners : ScopeTree → List ScopeId
  complete : ∀ tree, (owners tree).Perm (referrers tree)

/-- The order in which the scopes were made. -/
def VisitOrder.creation : VisitOrder := ⟨referrers, fun _ => .refl _⟩

/-- One round of propagation, with what it finds. -/
def propagateIn (order : VisitOrder) (tree : ScopeTree) : ScopeTree × Nat :=
  runEach (fun owner tree => propagateInto tree owner) (order.owners tree) tree

private theorem propagateIn_creation (tree : ScopeTree) : propagateIn .creation tree = propagate tree :=
  (propagate_eq tree).symm

/-- The tree after so many rounds, each in an order of its own. -/
def rounds (orders : Nat → VisitOrder) (tree : ScopeTree) : Nat → ScopeTree
  | 0 => tree
  | count + 1 => (propagateIn (orders count) (rounds orders tree count)).1

variable {tree : ScopeTree}

theorem destination?_settle (owner : ScopeId) (reference : Reference) :
    destination? tree owner (settle tree owner reference) = destination? tree owner reference := by
  unfold settle
  cases leads : destination? tree owner reference with
  | none => exact leads
  | some target => rfl

private theorem grows_propagateInto (owner : ScopeId) : tree.Grows (propagateInto tree owner).1 := by
  cases held : tree.entity? owner with
  | none =>
    rw [propagateInto_vacant tree held]
    exact .refl tree
  | some entity =>
    rw [propagateInto_held tree held]
    apply grows_setEntity
    · intro other found
      cases held.symm.trans found
      exact (grows_settle tree owner entity).trans (Entity.grows_gather _ _)
    · intro vacant
      rw [held] at vacant
      cases vacant

/-! ### No round brings what does not arrive -/

/-- What rounds of propagation make of a tree. -/
structure Follows (start now : ScopeTree) : Prop where
  grows : start.Grows now
  shape : SameShape now start
  occupied : ∀ id, now.hasEntity id = start.hasEntity id
  /-- Each reference leads where it led. -/
  destinations : ∀ id before after, start.entity? id = some before → now.entity? id = some after →
    after.references.values.map (destination? start id) = before.references.values.map (destination? start id)
  arrived : ∀ id entity, now.entity? id = some entity → ∀ type ∈ entity.gathered, Arrives start id type

namespace Follows

variable {start now : ScopeTree}

theorem refl (tree : ScopeTree) : Follows tree tree where
  grows := .refl tree
  shape := .refl tree
  occupied := fun _ => rfl
  destinations := by
    intro id before after one two
    cases one.symm.trans two
    rfl
  arrived := by
    intro id entity held type member
    obtain ⟨types, gathers, listed⟩ := Entity.mem_gathered.1 member
    exact .of_offers (.gathered held gathers listed)

variable (follows : Follows start now)
include follows

theorem entity? {id : ScopeId} {after : Entity} (held : now.entity? id = some after) :
    ∃ before, start.entity? id = some before ∧ before.Grows after := by
  have occupied := follows.occupied id
  rw [hasEntity, held, hasEntity] at occupied
  obtain ⟨before, found⟩ := Option.isSome_iff_exists.1 occupied.symm
  obtain ⟨later, reached, grown⟩ := follows.grows.entity? found
  cases held.symm.trans reached
  exact ⟨before, found, grown⟩

theorem destination? (owner : ScopeId) (reference : Reference) :
    Discovery.destination? now owner reference = Discovery.destination? start owner reference := by
  cases reference with
  | resolved target => rfl
  | unresolved name origin => simp only [Discovery.destination?, lookup_congr follows.shape follows.occupied]

theorem className {id : ScopeId} : (now.classAt? id).map Class.name = (start.classAt? id).map Class.name := by
  have named : ∀ held : Option Class, held.map Class.name = (held.map Class.outline).map Class.name := by
    intro held
    cases held <;> rfl
  rw [named, follows.grows.classAt?, ← named]

/-- What a scope offers now arrives there. -/
theorem arrives_of_offers {id : ScopeId} {type : LuaType} (offers : Offers now id type) :
    Arrives start id type := by
  have class_ : ∀ {at_ owner}, now.classAt? at_ = some owner → ∃ earlier, start.classAt? at_ =
      some earlier ∧ earlier.name = owner.name := by
    intro at_ owner held
    have named : (start.classAt? at_).map Class.name = some owner.name := by
      rw [← follows.className, held, Option.map_some]
    exact Option.map_eq_some_iff.1 named
  cases offers with
  | gathered held gathers member =>
    exact follows.arrived id _ held type (Entity.mem_gathered.2 ⟨_, gathers, member⟩)
  | class_ held =>
    obtain ⟨owner, found, name⟩ := class_ held
    rw [← name]
    exact .of_offers (.class_ found)
  | constructor held constructs below around =>
    obtain ⟨before, found, grown⟩ := follows.entity? held
    obtain ⟨owner, classed, name⟩ := class_ around
    rw [← name]
    refine .of_offers (.constructor found (grown.constructs.symm.trans constructs) ?_ classed)
    exact (follows.shape.parent? id).symm.trans below
  | table held isTable =>
    obtain ⟨before, found, grown⟩ := follows.entity? held
    exact .of_offers (.table found (grown.isTable.symm.trans isTable))

/-- What a scope offered at the start it offers now. -/
theorem offers {id : ScopeId} {type : LuaType} (offers : Offers start id type) : Offers now id type := by
  have class_ : ∀ {at_ owner}, start.classAt? at_ = some owner → ∃ later, now.classAt? at_ = some later ∧
      later.name = owner.name := by
    intro at_ owner held
    have named : (now.classAt? at_).map Class.name = some owner.name := by
      rw [follows.className, held, Option.map_some]
    exact Option.map_eq_some_iff.1 named
  cases offers with
  | gathered held gathers member =>
    obtain ⟨later, reached, grown⟩ := follows.grows.entity? held
    obtain ⟨types, found, listed⟩ := Entity.mem_gathered.1
      (grown.gathered type (Entity.mem_gathered.2 ⟨_, gathers, member⟩))
    exact .gathered reached found listed
  | class_ held =>
    obtain ⟨owner, found, name⟩ := class_ held
    rw [← name]
    exact .class_ found
  | constructor held constructs below around =>
    obtain ⟨later, reached, grown⟩ := follows.grows.entity? held
    obtain ⟨owner, classed, name⟩ := class_ around
    rw [← name]
    exact .constructor reached (grown.constructs.trans constructs)
      ((follows.shape.parent? id).trans below) classed
  | table held isTable =>
    obtain ⟨later, reached, grown⟩ := follows.grows.entity? held
    exact .table reached (grown.isTable.trans isTable)

/-- What comes in along the references of an owner arrives there. -/
theorem arrives_of_incoming {owner : ScopeId} {entity : Entity} (held : now.entity? owner = some entity)
    (gathers : entity.gathered?.isSome = true) {type : LuaType}
    (member : type ∈ incoming now owner entity.references.values) :
    Arrives start owner type := by
  obtain ⟨before, found, grown⟩ := follows.entity? held
  obtain ⟨reference, listed, target, leads, offered⟩ := mem_incoming.1 member
  have edge : Edge start owner target := by
    rw [edge_iff]
    refine ⟨before, found, grown.gathers.symm.trans gathers, ?_⟩
    rw [← follows.destinations owner before entity found held, ← leads, follows.destination?]
    exact List.mem_map_of_mem listed
  exact .pass edge (follows.arrives_of_offers (mem_referenceTypes.1 offered))

theorem propagateInto (owner : ScopeId) : Follows start (Discovery.propagateInto now owner).1 := by
  have grown := follows.grows.trans (grows_propagateInto owner)
  cases held : now.entity? owner with
  | none =>
    rw [propagateInto_vacant now held]
    exact follows
  | some entity =>
    rw [propagateInto_held now held] at grown ⊢
    dsimp only at grown ⊢
    obtain ⟨node, present, _⟩ := Option.bind_eq_some_iff.1 held
    constructor
    case grows => exact grown
    case shape => exact (sameShape_setEntity now owner _).trans follows.shape
    case occupied =>
      intro id
      rw [← follows.occupied, hasEntity, hasEntity, entity?_setEntity]
      split
      next same => rw [same, present, held]; rfl
      next => rfl
    case destinations =>
      intro id before after found reached
      rw [entity?_setEntity] at reached
      split at reached
      next same =>
        subst same
        rw [present, Option.map_some] at reached
        cases reached
        rw [← follows.destinations id before entity found held, Entity.references_gather,
          OrderedMap.values_mapValues, List.map_map]
        apply List.map_congr_left
        intro reference _
        rw [Function.comp_apply, ← follows.destination?, ← follows.destination?, destination?_settle]
      next => exact follows.destinations id before after found reached
    case arrived =>
      intro id after reached type member
      rw [entity?_setEntity] at reached
      split at reached
      next same =>
        subst same
        rw [present, Option.map_some] at reached
        cases reached
        rcases (Entity.gathered_gather _ _ type).1 member with old | ⟨new, gathers⟩
        · exact follows.arrived id entity held type old
        · exact follows.arrives_of_incoming held gathers new
      next => exact follows.arrived id after reached type member

private theorem propagateIn (order : VisitOrder) : Follows start (Discovery.propagateIn order now).1 :=
  runEach_keeps (Follows start) (fun owner _ _ kept => kept.propagateInto owner) follows

/-! ### Where nothing is found, everything has arrived -/

/-- Where nothing new comes in for any owner, every type has moved along every edge. -/
theorem offers_of_arrives (idle : ∀ owner ∈ referrers now, (Discovery.propagateInto now owner).2 = 0)
    {id : ScopeId} {type : LuaType} (arrives : Arrives start id type) : Offers now id type := by
  obtain ⟨source, reached, offers⟩ := arrives
  induction reached using ReflTransGen.head_induction_on with
  | refl => exact follows.offers offers
  | head edge _ ih =>
    obtain ⟨before, found, gathers, listed⟩ := edge_iff.1 edge
    obtain ⟨after, held, grown⟩ := follows.grows.entity? found
    rw [← follows.destinations _ before after found held] at listed
    obtain ⟨reference, member, leads⟩ := List.mem_map.1 listed
    obtain ⟨types, gathers⟩ := Option.isSome_iff_exists.1 (grown.gathers.trans gathers)
    have quiet := idle _ (mem_referrers held member)
    rw [← follows.destination?] at leads
    exact .gathered held gathers (gathered_of_idle held quiet member leads gathers (mem_referenceTypes.2 ih))

end Follows

private theorem follows_rounds (orders : Nat → VisitOrder) (tree : ScopeTree) (count : Nat) :
    Follows tree (rounds orders tree count) := by
  induction count with
  | zero => exact .refl tree
  | succ count ih => exact ih.propagateIn (orders count)

/-! ### The rounds come to an end -/

/-- All that types may become while they are propagated. -/
def horizonOf (tree : ScopeTree) : Horizon := .ofState .default ⟨tree, [], []⟩

private theorem holds_rounds (orders : Nat → VisitOrder) (tree : ScopeTree) (count : Nat) :
    (horizonOf tree).Holds (rounds orders tree count) := by
  induction count with
  | zero => exact Horizon.ofState_holds .default ⟨tree, [], []⟩
  | succ count ih =>
    exact runEach_keeps (horizonOf tree).Holds
      (fun owner _ _ held => held.propagateInto (Horizon.ofState_closed .default ⟨tree, [], []⟩) owner) ih

private theorem gains_propagateIn (order : VisitOrder) (tree : ScopeTree) :
    Gains tree (propagateIn order tree).1 (propagateIn order tree).2 :=
  runEach_adds ScopeTree.weight (fun owner _ tree => gains_propagateInto tree owner) tree

/-- Rounds that find something are paid for by the weight of the tree. -/
theorem le_weight_rounds (orders : Nat → VisitOrder) (tree : ScopeTree) {count : Nat}
    (busy : ∀ earlier < count, (propagateIn (orders earlier) (rounds orders tree earlier)).2 ≠ 0) :
    count ≤ (rounds orders tree count).weight := by
  induction count with
  | zero => exact Nat.zero_le _
  | succ count ih =>
    have before := ih fun earlier less => busy earlier (Nat.lt_succ_of_lt less)
    have found := busy count (Nat.lt_succ_self count)
    have gains := gains_propagateIn (orders count) (rounds orders tree count)
    unfold Gains at gains
    rw [rounds]
    omega

private theorem exists_idle_round (orders : Nat → VisitOrder) (tree : ScopeTree) :
    ∃ count, (propagateIn (orders count) (rounds orders tree count)).2 = 0 := by
  by_contra busy
  have spent : ∀ count, count ≤ (rounds orders tree count).weight :=
    fun count => le_weight_rounds orders tree fun earlier _ idle => busy ⟨earlier, idle⟩
  have bound : ∀ count, (rounds orders tree count).weight ≤ tree.size * (horizonOf tree).heaviest := by
    intro count
    rw [← (follows_rounds orders tree count).shape.size]
    exact (holds_rounds orders tree count).weight_le_size
  have first := spent (tree.size * (horizonOf tree).heaviest + 1)
  have second := bound (tree.size * (horizonOf tree).heaviest + 1)
  omega

theorem mem_gathered_rounds (orders : Nat → VisitOrder) (tree : ScopeTree) {count : Nat}
    (idle : (propagateIn (orders count) (rounds orders tree count)).2 = 0) {id : ScopeId} {before : TypeSet}
    (gathers : (tree.entity? id).bind Entity.gathered? = some before) :
    ∃ after, ((rounds orders tree count).entity? id).bind Entity.gathered? = some after ∧
      ∀ type, type ∈ after ↔ Arrives tree id type := by
  have follows := follows_rounds orders tree count
  have quiet : ∀ owner ∈ referrers (rounds orders tree count),
      (propagateInto (rounds orders tree count) owner).2 = 0 := by
    intro owner member
    exact idle_owners idle owner (((orders count).complete _).mem_iff.2 member)
  obtain ⟨entity, held, types⟩ := Option.bind_eq_some_iff.1 gathers
  obtain ⟨later, reached, grown⟩ := follows.grows.entity? held
  obtain ⟨after, gathered⟩ := Option.isSome_iff_exists.1
    (grown.gathers.trans (Option.isSome_of_eq_some types))
  refine ⟨after, by
    rw [reached, Option.bind_some, gathered], fun type => ⟨fun member => ?_, fun arrives => ?_⟩⟩
  · exact follows.arrived id later reached type (Entity.mem_gathered.2 ⟨after, gathered, member⟩)
  · have offered := mem_referenceTypes.2 (follows.offers_of_arrives quiet arrives)
    rwa [referenceTypes_of_gathers reached gathered] at offered

/-- What gathers types after the rounds gathered them before. -/
theorem gathers_before (orders : Nat → VisitOrder) (tree : ScopeTree) (count : Nat) {id : ScopeId}
    {after : TypeSet}
    (gathers : ((rounds orders tree count).entity? id).bind Entity.gathered? = some after) :
    ∃ before, (tree.entity? id).bind Entity.gathered? = some before := by
  obtain ⟨later, reached, types⟩ := Option.bind_eq_some_iff.1 gathers
  obtain ⟨entity, held, grown⟩ := (follows_rounds orders tree count).entity? reached
  obtain ⟨before, gathered⟩ := Option.isSome_iff_exists.1
    (grown.gathers.symm.trans (Option.isSome_of_eq_some types))
  exact ⟨before, by rw [held, Option.bind_some, gathered]⟩

/-- Propagation computes reachability: its rounds come to an end, and where one finds nothing, every
variable and every function has the types that arrive along references and no others. The order in which
owners are visited does not matter, nor does the order in which references are listed. -/
theorem propagation_is_reachability (tree : ScopeTree) (orders : Nat → VisitOrder) :
    (∀ now, propagateIn .creation now = propagate now) ∧
    (∃ count, (propagateIn (orders count) (rounds orders tree count)).2 = 0) ∧
    ∀ count, (propagateIn (orders count) (rounds orders tree count)).2 = 0 →
      (∀ id before, (tree.entity? id).bind Entity.gathered? = some before →
        ∃ after, ((rounds orders tree count).entity? id).bind Entity.gathered? = some after ∧
          ∀ type, type ∈ after ↔ Arrives tree id type) ∧
      ∀ other others last, Relisted tree other →
        (propagateIn (others last) (rounds others other last)).2 = 0 →
        ∀ id, ((rounds others other last).entity? id).bind Entity.gathered? =
          ((rounds orders tree count).entity? id).bind Entity.gathered? := by
  refine ⟨propagateIn_creation, exists_idle_round orders tree,
    fun count idle => ⟨fun id before gathers => ?_, ?_⟩⟩
  · exact mem_gathered_rounds orders tree idle gathers
  · intro other others last relisted ended id
    have start : (other.entity? id).bind Entity.gathered? = (tree.entity? id).bind Entity.gathered? := by
      have read : ∀ held : Option Entity, held.bind Entity.gathered? =
          (held.map Entity.kind).bind fun kind => (Entity.mk .empty kind).gathered? := by
        intro held
        cases held <;> rfl
      rw [read, read, relisted.kinds]
    cases gathers : (tree.entity? id).bind Entity.gathered? with
    | none =>
      -- What gathers nothing at the start gathers nothing at the end, in either tree.
      have nothing : ∀ (from_ : ScopeTree) (schedule : Nat → VisitOrder) (spent : Nat),
          (from_.entity? id).bind Entity.gathered? = none →
          ((rounds schedule from_ spent).entity? id).bind Entity.gathered? = none := by
        intro from_ schedule spent empty
        apply Option.eq_none_iff_forall_ne_some.2
        intro after later
        obtain ⟨before, earlier⟩ := gathers_before schedule from_ spent later
        rw [empty] at earlier
        cases earlier
      rw [nothing tree orders count gathers, nothing other others last (start.trans gathers)]
    | some before =>
      obtain ⟨one, reached, exact_⟩ := mem_gathered_rounds orders tree idle gathers
      obtain ⟨two, arrived, same⟩ := mem_gathered_rounds others other ended (start.trans gathers)
      rw [reached, arrived]
      apply congrArg some
      apply TypeSet.ext
      intro type
      rw [same, exact_, relisted.arrives]

end Discovery
end LuaClasses
