import LuaClasses.Proofs.AlikeEnds
import LuaClasses.Proofs.Awaiting
import LuaClasses.Proofs.Charts
import LuaClasses.Proofs.KnownTypes
import LuaClasses.Proofs.Reachability
import LuaClasses.Proofs.TargetNames
import LuaClasses.Proofs.Turns

/-! Sweeps of two discoveries side by side. Where a reference leads does not change while types move, so each
turn settles the references of one entity, and all turns together settle all of them, whatever their
order. The scopes have other numbers and are visited in another order, but both discoveries walk the same
bodies at the same paths, references settle to the same paths, and what arrives in one tree the other has
in the end. -/

namespace LuaClasses

private theorem OrderedMap.mapValues_mapValues {α β γ : Type} (f : α → β) (g : β → γ) (map : OrderedMap α) :
    (map.mapValues f).mapValues g = map.mapValues fun value => g (f value) :=
  OrderedMap.ext (by simp [mapValues])

theorem EntityKind.shape_gather (raw : ScopeId → String) (entity : Entity) (types : TypeSet) :
    (entity.gather types).kind.shape raw = entity.kind.shape raw := by
  obtain ⟨references, kind⟩ := entity
  cases kind <;> rfl

namespace Discovery
open ScopeTree

private theorem settle_settle (tree : ScopeTree) (owner : ScopeId) (reference : Reference) :
    settle tree owner (settle tree owner reference) = settle tree owner reference := by
  have leads : destination? tree owner (settle tree owner reference) = destination? tree owner
    reference := destination?_settle owner reference
  generalize same : settle tree owner reference = settled at leads ⊢
  rw [settle, leads]
  rw [settle] at same
  split at same
  next => exact same
  next => rfl

/-- What stands at a scope while propagation goes on: of the same shape, with references that settle to
the same. -/
structure Settles (start : ScopeTree) (id : ScopeId) (before after : Entity) : Prop where
  shape : after.kind.shape start.raw = before.kind.shape start.raw
  references : after.references.mapValues (settle start id) = before.references.mapValues (settle start id)

/-- What turns of propagation at some owners make of a tree, but for types. -/
structure Settling (start now : ScopeTree) (owners : List ScopeId) : Prop where
  follows : Follows start now
  entities : ∀ id, Option.Rel (Settles start id) (start.entity? id) (now.entity? id)
  settled : ∀ id ∈ owners, ∀ {after}, now.entity? id = some after → after.references.mapValues
    (settle start id) = after.references

namespace Settling

theorem refl (tree : ScopeTree) : Settling tree tree [] where
  follows := .refl tree
  entities := by
    intro id
    cases tree.entity? id with
    | none => exact .none
    | some entity => exact .some ⟨rfl, rfl⟩
  settled := nofun

variable {start now : ScopeTree} {owners : List ScopeId} (settling : Settling start now owners)
include settling

theorem propagateInto (owner : ScopeId) :
    Settling start (Discovery.propagateInto now owner).1 (owner :: owners) := by
  have follows := settling.follows.propagateInto owner
  cases held : now.entity? owner with
  | none =>
    rw [propagateInto_vacant now held] at follows ⊢
    refine ⟨follows, settling.entities, fun id member after reached => ?_⟩
    rcases List.mem_cons.1 member with rfl | old
    · cases held.symm.trans reached
    · exact settling.settled id old reached
  | some entity =>
    have same : settle now owner = settle start owner := funext fun reference => by
      rw [settle, settle, settling.follows.destination?]
    rw [propagateInto_held now held, same] at follows ⊢
    have inside := index_lt_of_entity? held
    refine ⟨follows, fun id => ?_, fun id member after reached => ?_⟩
    · by_cases own : id = owner
      · subst own
        have known := settling.entities id
        rw [held] at known
        rw [entity?_setEntity_self inside]
        generalize start.entity? id = before at known ⊢
        cases known with
        | some settles =>
          refine .some ⟨(EntityKind.shape_gather _ _ _).trans settles.shape, ?_⟩
          rw [Entity.references_gather, OrderedMap.mapValues_mapValues, ← settles.references]
          exact OrderedMap.mapValues_congr fun reference _ => settle_settle start id reference
      · rw [entity?_setEntity, if_neg own]
        exact settling.entities id
    · rw [entity?_setEntity] at reached
      split at reached
      next own =>
        subst own
        obtain ⟨_, _, rfl⟩ := Option.map_eq_some_iff.1 reached
        rw [Entity.references_gather, OrderedMap.mapValues_mapValues]
        exact OrderedMap.mapValues_congr fun reference _ => settle_settle start id reference
      next other =>
        rcases List.mem_cons.1 member with own | old
        · exact absurd own other
        · exact settling.settled id old reached

theorem mono {others : List ScopeId} (fewer : others ⊆ owners) : Settling start now others :=
  ⟨settling.follows, settling.entities, fun id member _ reached => settling.settled id (fewer member) reached⟩

theorem runEach (turns : List ScopeId) :
    Settling start (LuaClasses.runEach (fun owner tree => Discovery.propagateInto tree owner) turns
      now).1 (turns ++ owners) := by
  induction turns generalizing now owners with
  | nil => exact settling
  | cons owner rest ih =>
    refine (ih (settling.propagateInto owner)).mono fun id member => ?_
    simp only [List.mem_append, List.mem_cons] at member ⊢
    tauto

end Settling

variable (tree : ScopeTree)

private theorem settling_propagate : Settling tree (propagate tree).1 (referrers tree) := by
  rw [propagate_eq]
  exact ((Settling.refl tree).runEach (referrers tree)).mono (List.subset_append_left _ _)

/-- Propagation settles the references of all entities and changes nothing else but types. -/
theorem settled_propagate (id : ScopeId) :
    Option.Rel (fun before after => after.kind.shape tree.raw = before.kind.shape tree.raw ∧
    after.references = before.references.mapValues (settle tree id)) (tree.entity? id)
      ((propagate tree).1.entity? id) := by
  have settling := settling_propagate tree
  have known := settling.entities id
  cases held : tree.entity? id with
  | none =>
    rw [held] at known
    generalize (propagate tree).1.entity? id = after at known ⊢
    cases known
    exact .none
  | some before =>
    rw [held] at known
    cases reached : (propagate tree).1.entity? id with
    | none =>
      rw [reached] at known
      cases known
    | some after =>
      rw [reached] at known
      cases known with
      | some settles =>
        refine .some ⟨settles.shape, ?_⟩
        rw [← settles.references]
        by_cases refers : id ∈ referrers tree
        · exact (settling.settled id refers reached).symm
        · -- What is not visited has no references to settle.
          have bare : before.references.values = [] :=
            List.eq_nil_iff_forall_not_mem.2 fun reference member => refers (mem_referrers held member)
          have same := congrArg OrderedMap.values settles.references
          rw [OrderedMap.values_mapValues, OrderedMap.values_mapValues, bare, List.map_nil,
            List.map_eq_nil_iff] at same
          have empty : after.references.entries = [] := List.map_eq_nil_iff.1 same
          exact OrderedMap.ext (by simp [OrderedMap.mapValues, empty])

end Discovery
end LuaClasses

/-! ### Two discoveries -/

namespace LuaClasses
open DottedName ScopeTree Discovery Relation

private theorem OrderedMap.mapValues_related {α β γ δ : Type} {f : α → γ} {g : β → γ} {h : α → δ}
    {k : β → δ} {map : OrderedMap α} {other : OrderedMap β} (same : map.mapValues f = other.mapValues g)
    (each : ∀ one ∈ map.values, ∀ two ∈ other.values, f one = g two → h one = k two) :
    map.mapValues h = other.mapValues k := by
  refine OrderedMap.ext ?_
  replace same := congrArg OrderedMap.entries same
  unfold values at each
  simp only [mapValues] at same ⊢
  generalize map.entries = entries, other.entries = others at same each ⊢
  induction entries generalizing others with
  | nil => rw [List.map_nil, eq_comm, List.map_eq_nil_iff] at same; rw [same]; rfl
  | cons first rest ih =>
    cases others with
    | nil => cases same
    | cons second more =>
      obtain ⟨heads, tails⟩ := List.cons_eq_cons.1 same
      obtain ⟨keys, values⟩ := Prod.mk.inj heads
      rw [List.map_cons, List.map_cons, keys, each _ List.mem_cons_self _ List.mem_cons_self values,
        ih more tails fun one left two right => each one (List.mem_cons_of_mem _ left) two
          (List.mem_cons_of_mem _ right)]

theorem Entity.Grows.mem_resolved {before after : Entity} (grows : before.Grows after) {target : ScopeId}
    (member : .resolved target ∈ before.references.values) : .resolved target ∈ after.references.values := by
  obtain ⟨⟨key, reference⟩, listed, same⟩ := List.mem_map.1 member
  obtain ⟨later, reached, kept⟩ := grows.references key reference
    ((OrderedMap.get?_eq_some_iff _ _ _).2 listed)
  dsimp only at same
  subst same
  rw [← kept rfl]
  exact List.mem_map_of_mem (OrderedMap.mem_entries_of_get? reached)

namespace ScopeTree

variable {tree : ScopeTree}

private theorem index_lt_of_destination? {owner target : ScopeId} {reference : Reference}
    (inside : reference.scope.index < tree.size)
    (leads : Discovery.destination? tree owner reference = some target) :
    target.index < tree.size := by
  cases reference with
  | resolved => cases leads; exact inside
  | unresolved => exact index_lt_of_hasEntity (hasEntity_of_lookup (destination?_unresolved.1 leads).1)

theorem Sound.propagateInto (sound : tree.Sound) (owner : ScopeId) :
    (Discovery.propagateInto tree owner).1.Sound := by
  cases held : tree.entity? owner with
  | none => rw [propagateInto_vacant tree held]; exact sound
  | some entity =>
    rw [propagateInto_held tree held]
    refine sound.setEntity owner fun scope member => ?_
    rw [Entity.scopes_gather] at member
    rcases List.mem_append.1 member with listed | kept
    · rw [OrderedMap.values_mapValues, List.map_map] at listed
      obtain ⟨reference, known, rfl⟩ := List.mem_map.1 listed
      have inside := sound.moored held _ (List.mem_append_left _ (List.mem_map_of_mem known))
      rw [Function.comp_apply, settle]
      split
      next target leads => exact index_lt_of_destination? inside leads
      next => exact inside
    · exact sound.moored held scope (List.mem_append_right _ kept)

theorem Sound.propagate (sound : tree.Sound) : (Discovery.propagate tree).1.Sound := by
  rw [propagate_eq]
  exact runEach_keeps ScopeTree.Sound (fun owner _ _ sound => sound.propagateInto owner) sound

/-- What propagation makes of a chart. -/
theorem chart_propagate (tree : ScopeTree) (path : String) :
    (tree.chart path = none → (Discovery.propagate tree).1.chart path = none) ∧
      ∀ {look}, tree.chart path = some look → ∃ id before after, tree.find? path = some id ∧
        tree.entity? id = some before ∧
        (Discovery.propagate tree).1.entity? id = some after ∧
        (Discovery.propagate tree).1.chart path = some (after.look tree.raw) := by
  have shape := (settling_propagate tree).follows.shape
  have raw : (Discovery.propagate tree).1.raw = tree.raw := funext shape.raw
  have place : (Discovery.propagate tree).1.chart path =
      ((tree.find? path).bind (Discovery.propagate tree).1.entity?).map (Entity.look tree.raw) := by
    rw [chart, shape.find?, raw]
  have settled := settled_propagate tree
  constructor
  · intro empty
    rw [place]
    cases found : tree.find? path with
    | none => rfl
    | some id =>
      rw [chart, found, Option.bind_some, Option.map_eq_none_iff] at empty
      have known := settled id
      rw [empty] at known
      rw [Option.bind_some]
      generalize (Discovery.propagate tree).1.entity? id = after at known ⊢
      cases known
      rfl
  · intro look there
    obtain ⟨id, before, found, held, _⟩ := chart_eq_some there
    have known := settled id
    rw [held] at known
    cases reached : (Discovery.propagate tree).1.entity? id with
    | none =>
      rw [reached] at known
      cases known
    | some after =>
      refine ⟨id, before, after, found, held, reached, ?_⟩
      rw [place, found, Option.bind_some, reached, Option.map_some]

end ScopeTree

section Propagated

variable {tree : ScopeTree} {id : ScopeId} {before after : Entity} (held : tree.entity? id = some before)
  (reached : (propagate tree).1.entity? id = some after)
include held reached

private theorem shape_propagate : (after.look tree.raw).shape = (before.look tree.raw).shape := by
  have settled := settled_propagate tree id
  rw [held, reached] at settled
  cases settled with
  | some settles => exact settles.1

private theorem references_propagate : after.references = before.references.mapValues (settle tree id) := by
  have settled := settled_propagate tree id
  rw [held, reached] at settled
  cases settled with
  | some settles => exact settles.2

end Propagated

section Toward

variable {top : String} {one two first second : ScopeTree} (alike : Alike (.toward top one two) first second)
  (left : one.AtRest) (right : two.AtRest)

section Destinations

variable {id other : ScopeId} (twins : Twins first second id other) {reference counterpart : Reference}
  (inside : reference.scope.index < first.size) (around : counterpart.scope.index < second.size)
  (same : reference.lead first.raw = counterpart.lead second.raw)
include alike left right twins inside around same

/-- References that look the same lead to the same path, or nowhere. -/
theorem Alike.destinations :
    (destination? first id reference = none ∧ destination? second other counterpart = none) ∨ ∃ found like,
      destination? first id reference = some found ∧ destination? second other counterpart = some like ∧
        Twins first second found like := by
  cases reference with
  | resolved target =>
    cases counterpart with
    | unresolved => cases same
    | resolved like => exact .inr ⟨target, like, rfl, rfl, inside, around, Lead.resolved.inj same⟩
  | unresolved name origin =>
    cases counterpart with
    | resolved => cases same
    | unresolved called place =>
      obtain ⟨rfl, path⟩ := Lead.unresolved.inj same
      have origins : Twins first second origin place := ⟨inside, around, path⟩
      rcases (alike.agree (Likeness.lasting_toward left right)).lookup origins fun _ _ => trivial with
        ⟨nowhere, lost⟩ | ⟨found, like, here, there, targets, _⟩
      · rw [destination?, destination?, nowhere, lost]
        exact .inl ⟨rfl, rfl⟩
      · rw [destination?, destination?, here, there, Option.filter_some, Option.filter_some]
        have own := Twins.ids alike.left.shaped targets twins alike.right.shaped
        by_cases self : found = id
        · simp [self, own.1 self]
        · simp [self, mt own.2 self, targets]

private theorem Alike.leads_settle :
    (settle first id reference).lead first.raw = (settle second other counterpart).lead second.raw := by
  rw [settle, settle]
  rcases alike.destinations left right twins inside around same with ⟨nowhere, lost⟩ | ⟨found,
    like, here, there, targets⟩
  · rw [nowhere, lost]
    exact same
  · rw [here, there]
    exact congrArg Lead.resolved targets.path

end Destinations

variable (grows : (propagate first).1.Grows one)
include alike left right grows

/-- What arrives in one tree, the other has in the end. -/
theorem Alike.arrives {id other : ScopeId} (twins : Twins first second id other) {type : LuaType}
    (arrives : Arrives second other type) :
    Offers one id type := by
  have onward := (settling_propagate first).follows.grows.trans grows
  obtain ⟨source, reached, offers⟩ := arrives
  induction reached using ReflTransGen.head_induction_on generalizing id with
  | refl => exact alike.offers twins onward left.sound offers
  | head edge _ ih =>
    obtain ⟨like, held, gathers, leads⟩ := edge_iff.1 edge
    obtain ⟨counterpart, listed, leads⟩ := List.mem_map.1 leads
    obtain ⟨entity, found, bounded⟩ := alike.bounded twins held
    -- The same reference is held in the first tree and leads to the same path.
    have values := congrArg OrderedMap.values bounded.references
    simp only [Entity.look, OrderedMap.values_mapValues] at values
    obtain ⟨reference, member, same⟩ := List.mem_map.1 (values ▸ List.mem_map_of_mem listed)
    have inside := alike.left.moored found _ (List.mem_append_left _ (List.mem_map_of_mem member))
    have around := alike.right.moored held _ (List.mem_append_left _ (List.mem_map_of_mem listed))
    rcases alike.destinations left right twins inside around same with ⟨_, lost⟩ | ⟨target,
      there, here, reached, targets⟩
    · cases lost.symm.trans leads
    · cases reached.symm.trans leads
      have settled := settled_propagate first id
      rw [found] at settled
      cases last : (propagate first).1.entity? id with
      | none => rw [last] at settled; cases settled
      | some after =>
        rw [last] at settled
        cases settled with
        | some settles =>
          obtain ⟨later, final, grown⟩ := grows.entity? last
          have kept : .resolved target ∈ after.references.values := by
            rw [settles.2, OrderedMap.values_mapValues]
            exact List.mem_map.2 ⟨reference, member, by rw [settle, here]⟩
          have whole : later.gathered?.isSome = true := by
            rw [grown.gathers, (Entity.kinds_of_shape settles.1).1, (Entity.kinds_of_shape bounded.shape).1]
            exact gathers
          obtain ⟨types, gathered⟩ := Option.isSome_iff_exists.1 whole
          exact .gathered final gathered (left.received final gathered (grown.mem_resolved kept) (ih targets))

section Entities

variable {id other : ScopeId} (twins : Twins first second id other) {entity like after last : Entity}
  (held : first.entity? id = some entity) (reached : second.entity? other = some like)
  (onward : (propagate first).1.entity? id = some after)
  (further : (propagate second).1.entity? other = some last)
include twins held reached onward further

/-- The types that propagation brings in one tree, the other has in the end. -/
theorem Alike.types_propagate : ∀ type ∈ last.gathered, type ∈ one.typesAt (first.raw id) := by
  intro type member
  obtain ⟨_, found, bounded⟩ := alike.bounded twins reached
  cases held.symm.trans found
  have offered := alike.arrives left right grows twins
    ((settling_propagate second).follows.arrived other last further type member)
  obtain ⟨later, final, grown⟩ := grows.entity? onward
  refine (mem_typesAt ((settling_propagate first).follows.grows.trans grows) left.sound twins.left).2
    ⟨later, final, ?_⟩
  have gathers : later.gathered?.isSome = true := by
    obtain ⟨types, gathered, _⟩ := Entity.mem_gathered.1 member
    rw [grown.gathers, (Entity.kinds_of_shape (shape_propagate held onward)).1,
      (Entity.kinds_of_shape bounded.shape).1,
      ← (Entity.kinds_of_shape (shape_propagate reached further)).1, gathered]
    rfl
  obtain ⟨types, gathered⟩ := Option.isSome_iff_exists.1 gathers
  refine Entity.mem_gathered.2 ⟨types, gathered, ?_⟩
  rw [← referenceTypes_of_gathers final gathered]
  exact offered.mem

/-- What stands at a path after propagation agrees. -/
theorem Alike.bounded_propagate (ends : (propagate second).1.Grows two) :
    Look.Bounded top (one.typesAt (first.raw id)) (two.typesAt (first.raw id)) (after.look first.raw)
      (last.look second.raw) := by
  obtain ⟨_, found, bounded⟩ := alike.bounded twins reached
  cases held.symm.trans found
  have settled := references_propagate held onward
  have also := references_propagate reached further
  refine ⟨?_, ?_, ?_, ?_, alike.types_propagate left right grows twins held reached onward further⟩
  · simp only [Entity.look]
    rw [settled, also, OrderedMap.mapValues_mapValues, OrderedMap.mapValues_mapValues]
    refine OrderedMap.mapValues_related bounded.references fun reference member counterpart listed same => ?_
    exact alike.leads_settle left right twins
      (alike.left.moored held _ (List.mem_append_left _ (List.mem_map_of_mem member)))
      (alike.right.moored reached _ (List.mem_append_left _ (List.mem_map_of_mem listed))) same
  · exact (shape_propagate held onward).trans (bounded.shape.trans (shape_propagate reached further).symm)
  · intro key lead kept within
    rw [Entity.look, settled, OrderedMap.mapValues_mapValues, OrderedMap.get?_mapValues] at kept
    obtain ⟨reference, known, rfl⟩ := Option.map_eq_some_iff.1 kept
    have labelled := bounded.labelled key (reference.lead first.raw)
      (by rw [Entity.look, OrderedMap.get?_mapValues, known]; rfl) within
    cases reference with
    | unresolved => cases labelled
    | resolved target => exact labelled
  · have swapped := alike.symm_toward.types_propagate right left ends twins.symm reached held further onward
    rwa [← twins.path] at swapped

end Entities

/-- Propagation keeps trees alike that come to rest. -/
theorem Alike.propagate (ends : (Discovery.propagate second).1.Grows two) :
    Alike (.toward top one two) (Discovery.propagate first).1 (Discovery.propagate second).1 := by
  have shape := (settling_propagate first).follows.shape
  have form := (settling_propagate second).follows.shape
  refine ⟨alike.left.propagate, alike.right.propagate, by
    rw [shape.raw, form.raw, alike.top], fun path _ => ?_⟩
  have known := alike.looks path trivial
  have moved := first.chart_propagate path
  have also := second.chart_propagate path
  cases here : first.chart path with
  | none =>
    cases there : second.chart path with
    | none =>
      rw [moved.1 here, also.1 there]
      exact .none
    | some =>
      rw [here, there] at known
      cases known
  | some look =>
    cases there : second.chart path with
    | none =>
      rw [here, there] at known
      cases known
    | some like =>
      obtain ⟨id, entity, after, found, held, onward, chart⟩ := moved.2 here
      obtain ⟨other, counterpart, last, reached, beside, further, final⟩ := also.2 there
      have path := (raw_of_find? found).trans (raw_of_find? reached).symm
      have twins : Twins first second id other := ⟨index_lt_of_find? found, index_lt_of_find? reached, path⟩
      rw [chart, final, ← raw_of_find? found]
      exact .some (alike.bounded_propagate left right grows twins held beside onward further ends)

end Toward

/-! ### Tours of both -/

theorem ScopeTree.Twins.grows {first second later last : ScopeTree} {one two : ScopeId}
    (twins : Twins first second one two) (onward : first.Grows later) (further : second.Grows last) :
    Twins later last one two :=
  ⟨onward.index_lt twins.left, further.index_lt twins.right, by
    rw [onward.raw twins.left, further.raw twins.right, twins.path]⟩

namespace Discovery

/-- Tours through the same body in two trees. -/
structure Tour.Matches (first second : ScopeTree) (one two : Tour) : Prop where
  scope : Twins first second one.frame.scope two.frame.scope
  returns : one.frame.function.isSome = two.frame.function.isSome
  selfAlias : one.frame.selfAlias = two.frame.selfAlias
  sites : one.sites = two.sites

/-- Moments of two discoveries at which their states are alike. -/
structure Paired (gone : List Diagnostic) (config : DiscoveryConfig) (program other : Program)
    (one two : ScopeTree) (first second : State) : Prop where
  left : Moment program config first
  right : Moment other config second
  alike : AlikeStates gone (.toward config.globalScope one two) first second

variable {gone : List Diagnostic} {config : DiscoveryConfig} {program other : Program}
  {one two : ScopeTree} {first second : State}
  (plain : program.Plain) (likewise : other.Plain) (spares : program.Spares config.globalScope)
  (left : one.AtRest) (right : two.AtRest)

namespace Paired

section Step

variable (paired : Paired gone config program other one two first second) {tour like : Tour}
  {site : Site} {owner scope around place : ScopeId}
  (turn : Turn config program first tour site owner scope)
  (counter : Turn config other second like site around place)
  (same : tour.Matches (defined config program).tree (defined config other).tree like)
include plain likewise turn counter same

theorem scopes : Twins first.tree second.tree tour.frame.scope like.frame.scope :=
  same.scope.grows (turn.moment.swept plain).grows.tree (counter.moment.swept likewise).grows.tree

include paired

/-- The class around a body looks the same in both trees. -/
theorem sameClass :
    SameClass (Likeness.toward config.globalScope one two).seen (program.classNames config) first.tree
      second.tree owner around := by
  have trees := paired.alike.trees
  have hosts := turn.hosts plain
  have others := counter.hosts likewise
  have twins : Twins first.tree second.tree owner around := by
    have scopes := scopes plain likewise turn counter same
    rcases scopes.parents trees.left.shaped trees.right.shaped trees.top with ⟨alone, _⟩ | ⟨_, _,
      above, beside, _, _, outer⟩
    · cases alone.symm.trans hosts.below
    · cases above.symm.trans hosts.below
      cases beside.symm.trans others.below
      exact outer
  obtain ⟨held, found⟩ := Option.isSome_iff_exists.1 hosts.isClass
  obtain ⟨counterpart, beside⟩ := Option.isSome_iff_exists.1 others.isClass
  obtain ⟨entity, here, asClass⟩ := Option.bind_eq_some_iff.1 found
  obtain ⟨likeEntity, there, alsoClass⟩ := Option.bind_eq_some_iff.1 beside
  obtain ⟨_, again, bounded⟩ := trees.bounded twins there
  cases here.symm.trans again
  have name := (Known.of_arises turn.moment.arises here).name held asClass
  have inside := trees.left.moored here
  have within := trees.right.moored there
  have shape := bounded.shape
  obtain ⟨references, kind⟩ := entity
  obtain ⟨likeReferences, likeKind⟩ := likeEntity
  cases kind <;> cases asClass
  cases likeKind <;> cases alsoClass
  refine ⟨twins, trivial, held, counterpart, found, beside, Shape.class_.inj shape, name,
    fun id member => ⟨inside id ?_, trivial⟩,
    fun id member => within id ?_⟩
  all_goals simp only [Entity.scopes, EntityKind.scopes, List.mem_append, List.mem_cons,
    member, true_or, or_true]

include left right

theorem readers :
    Readers (Likeness.toward config.globalScope one two).seen
      (Likeness.toward config.globalScope one two).known
    (program.classNames config) first.tree second.tree (tour.frame.within scope)
    (like.frame.within place) where
  agree := paired.alike.trees.agree (Likeness.lasting_toward left right)
  scope := ⟨index_lt_of_find? turn.found, index_lt_of_find? counter.found,
    (raw_of_find? turn.found).trans (raw_of_find? counter.found).symm⟩
  selfAlias := same.selfAlias
  instances := fun _ => ⟨owner, around, turn.nearestClass plain, counter.nearestClass likewise,
    paired.sameClass plain likewise turn counter same⟩
  seen := fun _ _ _ _ => trivial

include spares

/-- The same step of the same body keeps states alike. -/
theorem step (grows : (site.run config tour.frame first).1.tree.Grows one)
    (further : (site.run config like.frame second).1.tree.Grows two) :
    Paired gone config program other one two (site.run config tour.frame first).1
      (site.run config like.frame second).1 := by
  refine ⟨turn.next, counter.next, ?_⟩
  have dotless := fun name member => (plain name member).1
  obtain ⟨_, belong⟩ := belong_tours plain turn.made
  have belongs := belong site turn.member
  have begins := turn.next.arises.raw_root
  rw [turn.run_eq] at grows begins ⊢
  rw [counter.run_eq] at further ⊢
  refine paired.alike.action (Likeness.lasting_toward left right) (fun _ => trivial)
    (paired.readers plain likewise left right turn counter same)
    config ?_ (fun name member => (turn.names plain name member).1)
    (fun name member => spares.not_within dotless (belongs.names member) (.refl name))
    (fun expr told => spares.targets dotless (belongs.values expr told)) site.range ⟨begins, grows, further⟩
  have returns := same.returns
  cases function : tour.frame.function with
  | none =>
    rw [function, Option.isSome_none, eq_comm, Option.isSome_eq_false_iff,
      Option.isNone_iff_eq_none] at returns
    exact .inl ⟨function, returns⟩
  | some id =>
    rw [function, Option.isSome_some, eq_comm, Option.isSome_iff_exists] at returns
    obtain ⟨there, gathers⟩ := returns
    have scopes := scopes plain likewise turn counter same
    obtain ⟨_, _, own⟩ := List.mem_flatMap.1 turn.made
    obtain ⟨_, _, also⟩ := List.mem_flatMap.1 counter.made
    rw [← frame_function own function, ← frame_function also gathers] at scopes
    exact .inr ⟨id, there, function, gathers, scopes⟩

end Step

include plain likewise spares left right

/-- The walk of the same body keeps states alike. -/
theorem runSites {tour like : Tour} (made : tour ∈ tours config (defined config program))
    (again : like ∈ tours config (defined config other))
    (same : tour.Matches (defined config program).tree (defined config other).tree like)
    {sites : List Site} (within : sites ⊆ tour.sites) (stands : Stands config tour.frame sites first)
    (others : Stands config like.frame sites second)
    (paired : Paired gone config program other one two first second)
    (grows : (Discovery.runSites config tour.frame sites first).1.tree.Grows one)
    (further : (Discovery.runSites config like.frame sites second).1.tree.Grows two) :
    Paired gone config program other one two (Discovery.runSites config tour.frame sites first).1
      (Discovery.runSites config like.frame sites second).1 := by
  induction stands generalizing second with
  | nil => exact paired
  | @cons site rest state scope found below later ih =>
    cases others with
    | cons reached around last =>
      obtain ⟨owner, above⟩ := exists_below plain made
      obtain ⟨outer, beside⟩ := exists_below likewise again
      have member : site ∈ tour.sites := within List.mem_cons_self
      have turn : Turn config program state tour site owner scope :=
        ⟨paired.left, made, member, above, found, below⟩
      have counter : Turn config other second like site outer _ :=
        ⟨paired.right, again, same.sites ▸ member, beside, reached, around⟩
      have onward := (advances_runSites config tour.frame rest _ (turn.next.swept plain).formed).2.tree
      have beyond := (advances_runSites config like.frame rest _ (counter.next.swept likewise).formed).2.tree
      have next := paired.step plain likewise spares left right turn counter same
        (onward.trans grows) (beyond.trans further)
      exact ih (fun other member => within (List.mem_cons_of_mem _ member)) last next grows further

/-- The same walks keep states alike. -/
theorem runTours {made again : List Tour}
    (pairs : List.Forall₂ (Tour.Matches (defined config program).tree (defined config other).tree) made again)
    (within : made ⊆ tours config (defined config program))
    (inside : again ⊆ tours config (defined config other))
    (paired : Paired gone config program other one two first second)
    (grows : (Discovery.runTours config made first).1.tree.Grows one)
    (further : (Discovery.runTours config again second).1.tree.Grows two) :
    Paired gone config program other one two (Discovery.runTours config made first).1
      (Discovery.runTours config again second).1 := by
  induction pairs generalizing first second with
  | nil => exact paired
  | @cons tour like rest others same _ ih =>
    have made := within List.mem_cons_self
    have again := inside List.mem_cons_self
    have alone : [tour] ⊆ tours config (defined config program) :=
      List.cons_subset.2 ⟨made, List.nil_subset _⟩
    have beside : [like] ⊆ tours config (defined config other) :=
      List.cons_subset.2 ⟨again, List.nil_subset _⟩
    have after := paired.left.runTours alone
    have since := paired.right.runTours beside
    have onward := (advances_runTours config rest _ (after.swept plain).formed).2.tree
    have beyond := (advances_runTours config others _ (since.swept likewise).formed).2.tree
    refine ih (List.subset_of_cons_subset within) (List.subset_of_cons_subset inside) ?_ grows further
    have stands := paired.left.stands plain made
    have also := paired.right.stands likewise again
    have ends : (Discovery.runSites config like.frame like.sites second).1.tree.Grows two :=
      beyond.trans further
    rw [← same.sites] at also ends
    show Paired gone config program other one two (Discovery.runSites config tour.frame tour.sites first).1
      (Discovery.runSites config like.frame like.sites second).1
    rw [← same.sites]
    exact runSites plain likewise spares left right made again same (List.Subset.refl _) stands also
      paired (onward.trans grows) ends

/-- A sweep keeps states alike. -/
theorem sweep (pairs : List.Forall₂ (Tour.Matches (defined config program).tree (defined config other).tree)
      (tours config (defined config program)) (tours config (defined config other)))
    (paired : Paired gone config program other one two first second)
    (grows : (Discovery.sweep config first).1.tree.Grows one)
    (further : (Discovery.sweep config second).1.tree.Grows two) :
    Paired gone config program other one two (Discovery.sweep config first).1
      (Discovery.sweep config second).1 := by
  have begun := paired.left.swept plain
  have started := paired.right.swept likewise
  refine ⟨paired.left.sweep plain, paired.right.sweep likewise, ?_⟩
  rw [sweep_eq config begun.formed, tours_grows config (formed_defined config program) begun.grows] at grows ⊢
  rw [sweep_eq config started.formed, tours_grows config (formed_defined config other)
    started.grows] at further ⊢
  have after := paired.left.runTours (List.Subset.refl (tours config (defined config program)))
  have since := paired.right.runTours (List.Subset.refl (tours config (defined config other)))
  have onward := (advances_propagate _ (after.swept plain).formed.tree).2
  have beyond := (advances_propagate _ (since.swept likewise).formed.tree).2
  have walked := paired.runTours plain likewise spares left right pairs (List.Subset.refl _)
    (List.Subset.refl _) (onward.trans grows)
    (beyond.trans further)
  exact walked.alike.withTree (walked.alike.trees.propagate left right grows further)

end Paired
end Discovery

end LuaClasses
