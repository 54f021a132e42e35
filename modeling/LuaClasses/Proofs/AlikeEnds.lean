import LuaClasses.Proofs.AlikeWalk
import LuaClasses.Proofs.Reachability
import LuaClasses.Proofs.ReferenceKeys

/-! Trees that agree in all but types, of which neither has more than the other comes to have. What an
entity takes in goes along references that both trees have, and where the other comes to rest, the types
have moved along these references. -/

namespace LuaClasses
open DottedName ScopeTree Discovery

namespace ScopeTree

/-- The types known at a path. -/
def typesAt (tree : ScopeTree) (path : String) : TypeSet := ((tree.chart path).map Look.types).getD .empty

/-- A sound tree in which types have moved along all references. -/
structure AtRest (tree : ScopeTree) : Prop where
  sound : tree.Sound
  received : ∀ {id entity types target}, tree.entity? id = some entity → entity.gathered? = some types →
    .resolved target ∈ entity.references.values → ∀ {type}, Offers tree target type → type ∈ types

theorem WellShaped.within_root {tree : ScopeTree} (shaped : tree.WellShaped) {id : ScopeId}
    (inside : id.index < tree.size) :
    Within (tree.raw root) (tree.raw id) := by
  obtain ⟨frame, formed, _, same⟩ := shaped
  rw [same.raw, same.raw]
  exact formed.within_root (same.size ▸ inside)

/-- What a scope offers it offers on. -/
theorem offers_grows {before after : ScopeTree} (grows : before.Grows after) {id : ScopeId} {type : LuaType}
    (offers : Offers before id type) : Offers after id type := by
  have class_ : ∀ {at_ owner}, before.classAt? at_ = some owner → ∃ later, after.classAt? at_ =
      some later ∧ later.name = owner.name := by
    intro at_ owner held
    obtain ⟨later, reached, outline⟩ := Option.map_eq_some_iff.1
      ((grows.classAt? at_).trans (congrArg (Option.map Class.outline) held))
    exact ⟨later, reached, show later.outline.name = owner.outline.name from congrArg Class.name outline⟩
  cases offers with
  | gathered held gathers member =>
    obtain ⟨later, reached, grown⟩ := grows.entity? held
    obtain ⟨types, found, listed⟩ := Entity.mem_gathered.1
      (grown.gathered type (Entity.mem_gathered.2 ⟨_, gathers, member⟩))
    exact .gathered reached found listed
  | class_ held =>
    obtain ⟨owner, found, name⟩ := class_ held
    rw [← name]
    exact .class_ found
  | constructor held constructs below around =>
    obtain ⟨later, reached, grown⟩ := grows.entity? held
    obtain ⟨owner, classed, name⟩ := class_ around
    rw [← name]
    exact .constructor reached (grown.constructs.trans constructs)
      ((grows.parent? (index_lt_of_entity? held)).trans below) classed
  | table held isTable =>
    obtain ⟨later, reached, grown⟩ := grows.entity? held
    exact .table reached (grown.isTable.trans isTable)

end ScopeTree

/-- Whether a reference that is kept under the path of a scope leads to that scope. -/
def Look.Labelled (top : String) (look : Look) : Prop :=
  ∀ key lead, look.references.get? key = some lead → Within top key → lead = .resolved key

/-- Looks that agree in all but types, each with types of a set only. -/
structure Look.Bounded (top : String) (one two : TypeSet) (look like : Look) : Prop where
  references : look.references = like.references
  shape : look.shape = like.shape
  labelled : look.Labelled top
  left : ∀ type ∈ look.types, type ∈ two
  right : ∀ type ∈ like.types, type ∈ one

/-- Trees that come to be two other trees. -/
def Likeness.toward (top : String) (one two : ScopeTree) : Likeness where
  seen _ := True
  known name := ¬Within top name
  agrees path := Look.Bounded top (one.typesAt path) (two.typesAt path)
  future first second := first.raw root = top ∧ first.Grows one ∧ second.Grows two

/-- What entities of the same kind have in common. -/
theorem Entity.kinds_of_tag {entity like : Entity} (tags : entity.kind.tag = like.kind.tag) :
    entity.gathered?.isSome = like.gathered?.isSome ∧ entity.asConstructor?.isSome =
      like.asConstructor?.isSome ∧
      entity.isTable = like.isTable ∧ entity.asClass?.map Class.name = like.asClass?.map Class.name := by
  obtain ⟨_, kind⟩ := entity
  obtain ⟨_, kind'⟩ := like
  cases kind <;> cases kind' <;> try cases tags
  case class_.class_ => exact ⟨rfl, rfl, rfl, congrArg some (Tag.class_.inj tags)⟩
  all_goals exact ⟨rfl, rfl, rfl, rfl⟩

theorem Entity.kinds_of_shape {raw raw' : ScopeId → String} {entity like : Entity}
    (same : (entity.look raw).shape = (like.look raw').shape) :
    entity.gathered?.isSome = like.gathered?.isSome ∧ entity.asConstructor?.isSome =
      like.asConstructor?.isSome ∧
      entity.isTable = like.isTable ∧ entity.asClass?.map Class.name = like.asClass?.map Class.name := by
  have tags := congrArg Shape.tag same
  rw [look, look, EntityKind.tag_shape, EntityKind.tag_shape] at tags
  exact kinds_of_tag tags

/-- What a scope offers its counterpart offers, but for the types that the scope has gathered. -/
theorem ScopeTree.Agree.offers {visible : String → Prop} {first second : ScopeTree}
    (agree : Agree visible first second) {id other : ScopeId} (twins : Twins first second id other)
    (seen : visible (first.raw id)) {type : LuaType} (offers : Offers second other type) :
    (∃ like, second.entity? other = some like ∧ type ∈ like.gathered) ∨ Offers first id type := by
  have held : ∀ {at_ there : ScopeId} {like : Entity}, Twins first second at_ there →
    visible (first.raw at_) →
      second.entity? there = some like → ∃ entity, first.entity? at_ = some entity ∧
        entity.kind.tag = like.kind.tag := by
    intro at_ there like around visible reached
    have tags := agree.tag? around visible
    rw [reached, Option.map_some] at tags
    exact Option.map_eq_some_iff.1 tags
  have class_ : ∀ {at_ there : ScopeId} {like : Class}, Twins first second at_ there →
    visible (first.raw at_) →
      second.classAt? there = some like → ∃ owner, first.classAt? at_ = some owner ∧
        owner.name = like.name := by
    intro at_ there like around visible reached
    obtain ⟨entity, there, asClass⟩ := Option.bind_eq_some_iff.1 reached
    obtain ⟨counterpart, found, tags⟩ := held around visible there
    obtain ⟨_, _, _, named⟩ := Entity.kinds_of_tag tags
    rw [asClass, Option.map_some] at named
    obtain ⟨owner, owned, name⟩ := Option.map_eq_some_iff.1 named
    exact ⟨owner, Option.bind_eq_some_iff.2 ⟨counterpart, found, owned⟩, name⟩
  cases offers with
  | gathered reached gathers member => exact .inl ⟨_, reached, Entity.mem_gathered.2 ⟨_, gathers, member⟩⟩
  | class_ reached =>
    obtain ⟨owner, found, name⟩ := class_ twins seen reached
    rw [← name]
    exact .inr (.class_ found)
  | constructor reached constructs below around =>
    obtain ⟨entity, found, tags⟩ := held twins seen reached
    obtain ⟨_, kind, _⟩ := Entity.kinds_of_tag tags
    rcases twins.parents agree.left agree.right agree.top with ⟨_, alone⟩ | ⟨outer, above,
      hung, beside, _, _, outside⟩
    · cases alone.symm.trans below
    · cases beside.symm.trans below
      obtain ⟨_, name, again, _, _, raw, _⟩ :=
          (agree.left.parent_cases twins.left).resolve_left fun ⟨_, alone⟩ => by
        cases hung.symm.trans alone
      cases again.symm.trans hung
      obtain ⟨owner, classed, name⟩ := class_ outside (agree.around _ name (raw ▸ seen)) around
      rw [← name]
      exact .inr (.constructor found (kind.trans constructs) hung classed)
  | table reached isTable =>
    obtain ⟨entity, found, tags⟩ := held twins seen reached
    obtain ⟨_, _, kind, _⟩ := Entity.kinds_of_tag tags
    exact .inr (.table found (kind.trans isTable))

section Toward

variable {top : String} {one two first second : ScopeTree}

theorem Look.Bounded.symm {left right : TypeSet} {look like : Look}
    (bounded : Look.Bounded top left right look like) :
    Look.Bounded top right left like look where
  references := bounded.references.symm
  shape := bounded.shape.symm
  labelled := by
    intro key lead kept
    rw [← bounded.references] at kept
    exact bounded.labelled key lead kept
  left := bounded.right
  right := bounded.left

theorem Alike.symm_toward (alike : Alike (.toward top one two) first second) :
    Alike (.toward top two one) second first where
  left := alike.right
  right := alike.left
  top := alike.top.symm
  looks := by
    intro path seen
    have same := alike.looks path seen
    generalize first.chart path = look, second.chart path = like at same ⊢
    cases same with
    | some bounded => exact .some bounded.symm
    | none => exact .none

/-- What is known at a path in the end is what its scope has gathered. -/
theorem ScopeTree.mem_typesAt (grows : first.Grows one) (sound : one.Sound) {id : ScopeId}
    (inside : id.index < first.size) {type : LuaType} :
    type ∈ one.typesAt (first.raw id) ↔ ∃ entity, one.entity? id = some entity ∧ type ∈ entity.gathered := by
  rw [← grows.raw inside, typesAt, chart_raw sound.shaped (grows.index_lt inside)]
  cases one.entity? id with
  | none =>
    simp only [Option.map_none, Option.getD_none, reduceCtorEq, false_and, exists_false, iff_false]
    exact List.not_mem_nil
  | some entity =>
    simp only [Option.map_some, Option.getD_some, Option.some.injEq, exists_eq_left']
    rfl

section Bounds

variable (alike : Alike (.toward top one two) first second) {id other : ScopeId}
  (twins : Twins first second id other)
include alike twins

/-- What stands at scopes of the same path agrees. -/
theorem Alike.bounded {like : Entity} (reached : second.entity? other = some like) :
    ∃ entity, first.entity? id = some entity ∧
    Look.Bounded top (one.typesAt (first.raw id)) (two.typesAt (first.raw id)) (entity.look first.raw)
      (like.look second.raw) := by
  have looks := alike.looks_at twins trivial
  rw [reached, Option.map_some] at looks
  cases held : first.entity? id with
  | none =>
    rw [held] at looks
    cases looks
  | some entity =>
    rw [held] at looks
    cases looks with
    | some bounded => exact ⟨entity, rfl, bounded⟩

/-- What a scope offers in one tree its counterpart offers in what the other comes to be. -/
theorem Alike.offers (grows : first.Grows one) (sound : one.Sound) {type : LuaType}
    (offers : Offers second other type) :
    Offers one id type := by
  have agree := alike.agree_of_tags (fun seen => seen) fun bounded => congrArg Shape.tag bounded.shape
  rcases agree.offers twins trivial offers with ⟨like, reached, member⟩ | same
  · obtain ⟨entity, found, bounded⟩ := alike.bounded twins reached
    obtain ⟨last, there, listed⟩ := (mem_typesAt grows sound twins.left).1 (bounded.right type member)
    obtain ⟨types, gathered, known⟩ := Entity.mem_gathered.1 listed
    exact .gathered there gathered known
  · exact offers_grows grows same

end Bounds

/-! ### What takes in evidence -/

/-- Evidence that tells the same gives references that look the same. -/
theorem Discovery.Testify.leads {likeness : Likeness} {id other : ScopeId} {evidence like : Evidence}
    (same : Testify likeness.seen likeness.known first second evidence like)
    (alike : Alike likeness first second) (twins : Twins first second id other) :
    (evidence.referenceOf id).map (Reference.lead first.raw) = (like.referenceOf other).map
    (Reference.lead second.raw) := by
  obtain ⟨_, reference⟩ := evidence
  obtain ⟨_, counterpart⟩ := like
  rw [Evidence.referenceOf, Evidence.referenceOf]
  cases same.references with
  | none => rfl
  | unresolved named origins =>
    simp only [Option.filter_some, Reference.target?, ne_eq, reduceCtorEq, not_false_eq_true,
      decide_true, if_true, Option.map_some,
      Reference.lead, origins.path]
  | @resolved one two targets =>
    have self := Twins.ids alike.left.shaped targets twins alike.right.shaped
    simp only [Option.filter_some, Reference.target?, ne_eq, Option.some.injEq]
    by_cases own : one = id
    · simp [own, self.1 own]
    · simp [own, mt self.2 own, Reference.lead, targets.path]

namespace Look

private theorem references_take {look like : Look} (same : look.references = like.references)
    (lead : Option Lead) :
    (look.take lead).references = (like.take lead).references := by
  unfold take
  cases lead with
  | none => exact same
  | some lead =>
    dsimp only
    rw [same]
    split
    next => rfl
    next => exact same

theorem Labelled.gather {look : Look} (labelled : look.Labelled top) (types : TypeSet) :
    (look.gather types).Labelled top := by
  intro key lead kept
  rw [references_gather] at kept
  exact labelled key lead kept

/-- A reference that is taken in is kept, or another one to the same scope. -/
theorem Labelled.take {look : Look} (labelled : look.Labelled top) {lead : Lead}
    (named : ∀ target origin, lead = .unresolved target origin → ¬Within top target) :
    (look.take (some lead)).Labelled top := by
  intro key kept found within
  unfold Look.take at found
  dsimp only at found
  split at found
  next =>
    rw [OrderedMap.get?_insert] at found
    split at found
    next at_ =>
      cases found
      subst at_
      cases lead with
      | unresolved target origin => exact absurd within (named target origin rfl)
      | resolved target => rfl
    next => exact labelled key kept found within
  next => exact labelled key kept found within

/-- The reference to a scope is there once one is taken in. -/
theorem Labelled.get?_take {look : Look} (labelled : look.Labelled top) {target : String}
    (within : Within top target) :
    (look.take (some (.resolved target))).references.get? target = some (.resolved target) := by
  unfold Look.take
  dsimp only
  split
  next => exact (OrderedMap.get?_insert _ _ _ _).trans (if_pos rfl)
  next worse =>
    dsimp only [Lead.improves, Lead.key] at worse
    cases known : look.references.get? target with
    | none => simp [known] at worse
    | some kept => rw [labelled target kept known within]

end Look

theorem Discovery.Evidence.mem_typesFor {evidence : Evidence} {tree : ScopeTree} {id : ScopeId}
    {type : LuaType} :
    type ∈ evidence.typesFor tree id ↔
      type ∈ evidence.types ∨ ∃ source, evidence.referenceOf id = some (.resolved source) ∧
        Offers tree source type := by
  unfold Evidence.typesFor
  cases evidence.referenceOf id with
  | none => simp
  | some reference =>
    cases reference with
    | unresolved => simp [Reference.target?]
    | resolved source => simp [Reference.target?, mem_referenceTypes]

private theorem Discovery.entity?_applyEvidence {tree : ScopeTree} {id : ScopeId} {entity : Entity}
    (held : tree.entity? id = some entity) (evidence : Evidence) :
    (Discovery.applyEvidence tree id evidence).1.entity? id = some (evidence.absorb tree id entity).1 := by
  rw [applyEvidence_held tree held]
  exact entity?_setEntity_self (index_lt_of_entity? held) _

private theorem Discovery.grows_applyEvidence (tree : ScopeTree) (id : ScopeId) (evidence : Evidence) :
    tree.Grows (Discovery.applyEvidence tree id evidence).1 := by
  cases held : tree.entity? id with
  | none => rw [applyEvidence_vacant tree held]; exact .refl tree
  | some entity =>
    rw [applyEvidence_held tree held]
    refine grows_setEntity tree id _ (fun other found => ?_) fun vacant => ?_
    · cases held.symm.trans found
      exact evidence.grows_absorb tree id entity
    · cases held.symm.trans vacant

theorem Entity.gathers_shape (raw : ScopeId → String) (entity : Entity) :
    (entity.look raw).shape.gathers = entity.gathered?.isSome := by
  obtain ⟨_, kind⟩ := entity
  cases kind <;> rfl

/-- A reference that leads somewhere has a counterpart that leads to the same path. -/
theorem Discovery.Testify.resolved {likeness : Likeness} {id other : ScopeId} {evidence like : Evidence}
    (same : Testify likeness.seen likeness.known first second evidence like)
    (alike : Alike likeness first second) (twins : Twins first second id other) {source : ScopeId}
    (taken : like.referenceOf other = some (.resolved source)) :
    ∃ origin, evidence.referenceOf id = some (.resolved origin) ∧ Twins first second origin source := by
  have leads := same.leads alike twins
  rw [taken, Option.map_some] at leads
  obtain ⟨reference, given, lead⟩ := Option.map_eq_some_iff.1 leads
  cases reference with
  | unresolved => cases lead
  | resolved origin =>
    have inside := same.references.inside
    exact ⟨origin, given, inside.1 _ (Option.filter_eq_some_iff.1 given).1,
      inside.2 _ (Option.filter_eq_some_iff.1 taken).1, Lead.resolved.inj lead⟩

/-- A reference to a scope is kept once it is taken in. -/
theorem Discovery.Evidence.keeps_resolved {tree : ScopeTree} (sound : tree.Sound) {id origin : ScopeId}
    {entity later : Entity} (held : tree.entity? id = some entity)
    (labelled : (entity.look tree.raw).Labelled (tree.raw root)) {evidence : Evidence}
    (given : evidence.referenceOf id = some (.resolved origin)) (inside : origin.index < tree.size)
    (grown : (evidence.absorb tree id entity).1.Grows later) :
    .resolved origin ∈ later.references.values := by
  have kept := (labelled.gather (evidence.typesFor tree id)).get?_take (sound.shaped.within_root inside)
  have look := entity.look_absorb tree evidence id
  rw [given, Option.map_some, Reference.lead] at look
  rw [← look, Entity.look, OrderedMap.get?_mapValues] at kept
  obtain ⟨reference, found, lead⟩ := Option.map_eq_some_iff.1 kept
  cases reference with
  | unresolved => cases lead
  | resolved target =>
    have listed : .resolved target ∈ (evidence.absorb tree id entity).1.references.values :=
      List.mem_map_of_mem (OrderedMap.mem_entries_of_get? found)
    have around : target.index < tree.size := by
      rcases entity.scopes_absorb tree evidence id target
        (List.mem_append_left _ (List.mem_map_of_mem listed)) with
        ⟨reference, told, scope⟩ | old
      · cases (Option.filter_eq_some_iff.1 given).1.symm.trans told
        exact scope ▸ inside
      · exact sound.moored held target old
    cases sound.shaped.raw_inj around inside (Lead.resolved.inj lead)
    obtain ⟨last, reached, same⟩ := grown.references _ _ found
    rw [← same rfl]
    exact List.mem_map_of_mem (OrderedMap.mem_entries_of_get? reached)

section Absorb

variable (alike : Alike (.toward top one two) first second) {id other : ScopeId}
  (twins : Twins first second id other)
  {evidence like : Evidence}
  (same : Testify (Likeness.toward top one two).seen (Likeness.toward top one two).known
    first second evidence like)
  {entity counterpart : Entity} (held : first.entity? id = some entity)
  (reached : second.entity? other = some counterpart)
include alike twins same held reached

/-- What one of two alike entities takes in, the other has in the end. -/
theorem Alike.types_absorb (begins : first.raw root = top) (rest : one.AtRest)
    (grows : (Discovery.applyEvidence first id evidence).1.Grows one) :
    ∀ type ∈ ((like.absorb second other counterpart).1.look second.raw).types,
      type ∈ one.typesAt (first.raw id) := by
  intro type member
  obtain ⟨_, found, bounded⟩ := alike.bounded twins reached
  cases held.symm.trans found
  have onward := (grows_applyEvidence first id evidence).trans grows
  rw [Entity.look_absorb, Look.types_take, Look.gather] at member
  split at member
  next gathers =>
    rcases TypeSet.mem_union.1 member with old | new
    · exact bounded.right type old
    · obtain ⟨later, there, grown⟩ := grows.entity? (entity?_applyEvidence held evidence)
      refine (mem_typesAt onward rest.sound twins.left).2 ⟨later, there, ?_⟩
      have alsoGathers : entity.gathered?.isSome = true := by
        rw [(Entity.kinds_of_shape bounded.shape).1, ← Entity.gathers_shape second.raw, gathers]
      rcases Evidence.mem_typesFor.1 new with told | ⟨source, taken, offered⟩
      · refine grown.gathered type ?_
        rw [Entity.gathered, Entity.gathered?, Evidence.kind_absorb]
        exact (Entity.gathered_gather _ _ type).2
          (.inr ⟨Evidence.mem_typesFor.2 (.inl (same.types ▸ told)), alsoGathers⟩)
      · -- The other has a reference to the counterpart of the source, along which the type has come.
        obtain ⟨origin, given, sources⟩ := same.resolved alike twins taken
        have kept := Evidence.keeps_resolved alike.left held
          (begins ▸ bounded.labelled) given sources.left grown
        have known := alike.offers sources onward rest.sound offered
        have gathered := grown.gathers.trans
          ((evidence.grows_absorb first id entity).gathers.trans alsoGathers)
        obtain ⟨types, gathered⟩ := Option.isSome_iff_exists.1 gathered
        exact Entity.mem_gathered.2 ⟨types, gathered, rest.received there gathered kept known⟩
  next => exact bounded.right type member

end Absorb

theorem Discovery.Testify.known {likeness : Likeness} {evidence like : Evidence}
    (same : Testify likeness.seen likeness.known first second evidence like) {target : String}
    {origin : ScopeId} (given : evidence.reference = some (.unresolved target origin)) :
    likeness.known target := by
  obtain ⟨_, reference⟩ := evidence
  obtain ⟨_, counterpart⟩ := like
  cases same.references with
  | none => cases given
  | resolved => cases given
  | unresolved named => cases given; exact named

theorem Discovery.Testify.symm_toward {evidence like : Evidence}
    (same : Testify (Likeness.toward top one two).seen (Likeness.toward top one two).known
      first second evidence like)
    :
    Testify (Likeness.toward top two one).seen (Likeness.toward top two one).known second
      first like evidence := by
  obtain ⟨_, reference⟩ := evidence
  obtain ⟨_, counterpart⟩ := like
  refine ⟨same.types.symm, ?_⟩
  cases same.references with
  | none => exact .none
  | resolved twins => exact .resolved twins.symm trivial
  | unresolved named twins => exact .unresolved named twins.symm

/-- Trees that come to rest stay alike on the way. -/
theorem Likeness.lasting_toward (left : one.AtRest) (right : two.AtRest) :
    (Likeness.toward top one two).Lasting where
  around := fun _ => trivial
  tag := fun bounded => congrArg Shape.tag bounded.shape
  fresh := fun _ _ => ⟨rfl, rfl, nofun, nofun, nofun⟩
  mapClass := fun _ bounded => ⟨bounded.references, congrArg (Shape.mapClass _) bounded.shape,
    bounded.labelled, bounded.left, bounded.right⟩
  absorb := by
    rintro first second id other evidence like entity counterpart alike twins - same held reached
      ⟨begins, onward, further⟩
    have begun : first.raw root = top := by
      have inside : root.index < first.size := Nat.lt_of_le_of_lt (Nat.zero_le _) twins.left
      rw [← begins, (grows_applyEvidence first id evidence).raw inside]
    obtain ⟨_, found, bounded⟩ := alike.bounded twins reached
    cases held.symm.trans found
    have leads := same.leads alike twins
    have looks := And.intro (entity.look_absorb first evidence id) (counterpart.look_absorb second like other)
    refine ⟨?_, ?_, ?_, ?_, ?_⟩
    · rw [looks.1, looks.2, leads]
      exact Look.references_take (by
        rw [Look.references_gather, Look.references_gather, bounded.references]) _
    · rw [looks.1, looks.2, Look.shape_take, Look.shape_take, Look.shape_gather,
        Look.shape_gather, bounded.shape]
    · rw [looks.1]
      have labelled := bounded.labelled.gather (evidence.typesFor first id)
      cases taken : evidence.referenceOf id with
      | none => exact labelled
      | some reference =>
        refine labelled.take fun target origin unresolved => ?_
        cases reference with
        | resolved => cases unresolved
        | unresolved name scope =>
          cases unresolved
          exact same.known (Option.filter_eq_some_iff.1 taken).1
    · have swapped := alike.symm_toward.types_absorb twins.symm same.symm_toward reached held
        (alike.top.symm.trans begun) right further
      rw [← twins.path] at swapped
      exact swapped
    · exact alike.types_absorb twins same held reached begun left onward

end Toward
end LuaClasses
