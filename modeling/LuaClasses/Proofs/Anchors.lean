import LuaClasses.Proofs.Enlistment

/-! The scopes that entities store. Each hangs where the entity that stores it says and carries an entity
itself, so dropping what stands below a scope takes nothing away from an entity that stays. -/

namespace LuaClasses

/-- Where a stored scope hangs, as seen from the scope of the entity that stores it. -/
inductive Spot where
  | below
  /-- Below the scope of the instance fields. -/
  | field
  | top
  deriving DecidableEq

/-- The scopes that an entity stores, each with the spot at which it hangs. -/
def EntityKind.stored : EntityKind → List (Spot × ScopeId)
  | .variable _ => []
  | .function held => (held.params ++ held.values.values).map (.below, ·)
  | .constructor held => (held.params ++ held.values.values).map (.below, ·)
  | .table held => held.fields.values.map (.below, ·)
  | .class_ held =>
    (held.constructor :: (held.values.values ++ held.functions.values ++ held.methods.values)).map
    (.below, ·) ++
      (held.fields.values.map (.field, ·) ++ held.superclassLink.toList.map (.top, ·))
  | .block held => held.values.values.map (.below, ·)

/-- The scopes that the indices of the top level store. -/
def Globals.stored (globals : Globals) : List ScopeId :=
  globals.values.values ++ globals.functions.values ++ globals.tables.values ++ globals.classes.values

theorem OrderedMap.mem_values_of_added {members later : Members} {name : String} {id value : ScopeId}
    (added : ∀ entry ∈ later.entries, entry = (name, id) ∨ entry ∈ members.entries)
    (member : value ∈ later.values) :
    value = id ∨ value ∈ members.values := by
  obtain ⟨entry, listed, rfl⟩ := List.mem_map.1 member
  rcases added entry listed with rfl | old
  · exact .inl rfl
  · exact .inr (List.mem_map_of_mem old)

section Stored

variable {slot : Spot × ScopeId} {name : String} {id : ScopeId}

theorem Entity.stored_gather (entity : Entity) (types : TypeSet) :
    (entity.gather types).kind.stored = entity.kind.stored := by
  obtain ⟨references, kind⟩ := entity
  cases kind <;> rfl

/-- A further name that lives in the scope of an entity is stored, and nothing else that is new. -/
theorem Entity.stored_mapLocals {entity : Entity} {f : Members → Members}
    (added : ∀ names entry, entry ∈ (f names).entries → entry = (name, id) ∨ entry ∈ names.entries)
    (member : slot ∈ (entity.mapLocals f).kind.stored) : slot = (.below, id) ∨ slot ∈ entity.kind.stored := by
  have value {members : Members} {value : ScopeId} : value ∈ (f members).values → value = id ∨
      value ∈ members.values :=
    OrderedMap.mem_values_of_added (added members)
  obtain ⟨references, kind⟩ := entity
  cases kind with
  | «variable» held => exact .inr member
  | class_ held =>
    simp only [mapLocals, EntityKind.stored, List.mem_append, List.mem_map, List.mem_cons] at member ⊢
    grind
  | _ held =>
    simp only [mapLocals, EntityKind.stored, List.mem_append, List.mem_map] at member ⊢
    grind

theorem Entity.stored_mapFields {entity : Entity} {f : Members → Members}
    (added : ∀ fields entry, entry ∈ (f fields).entries → entry = (name, id) ∨ entry ∈ fields.entries)
    (member : slot ∈ (entity.mapClass fun owner => { owner with fields := f owner.fields }).kind.stored) :
    slot = (.field, id) ∨ slot ∈ entity.kind.stored := by
  have value {members : Members} {value : ScopeId} : value ∈ (f members).values → value = id ∨
      value ∈ members.values :=
    OrderedMap.mem_values_of_added (added members)
  obtain ⟨references, kind⟩ := entity
  cases kind with
  | class_ held =>
    simp only [mapClass, EntityKind.stored, List.mem_append, List.mem_map] at member ⊢
    grind
  | _ held => exact .inr member

/-- A class that has lost its fields stores the rest. -/
theorem Entity.stored_dropFields {entity : Entity}
    (member : slot ∈ (entity.mapClass fun owner => { owner with fields := .empty }).kind.stored) :
    slot ∈ entity.kind.stored ∧ slot.1 ≠ .field := by
  obtain ⟨references, kind⟩ := entity
  cases kind <;>
    simp only [mapClass, EntityKind.stored, OrderedMap.values, OrderedMap.empty, List.mem_append,
      List.mem_map] at member ⊢ <;>
    grind

/-- A class that is linked to another stores that one, if it is found. -/
theorem Entity.stored_link {entity : Entity} {link : Option ScopeId}
    (member : slot ∈ (entity.mapClass fun owner => { owner with superclassLink := link }).kind.stored) :
    (∃ id, link = some id ∧ slot = (.top, id)) ∨ slot ∈ entity.kind.stored := by
  obtain ⟨references, kind⟩ := entity
  cases kind with
  | class_ held =>
    simp only [mapClass, EntityKind.stored, List.mem_append, List.mem_map, Option.mem_toList] at member ⊢
    grind
  | _ held => exact .inr member

end Stored

namespace ScopeTree

/-- Whether a scope hangs at a spot of another. -/
def Lies (tree : ScopeTree) (holder : ScopeId) : Spot → ScopeId → Prop
  | .below, id => ∃ name, tree.child? holder name = some id
  | .field, id => ∃ name, tree.FieldAt holder name id
  | .top, id => ∃ name, tree.child? root name = some id

/-- Whether a scope hangs by the name of something that a program can write. -/
def Named (tree : ScopeTree) (id : ScopeId) : Prop :=
  ∃ parent name, tree.child? parent name = some id ∧ name ≠ fieldsName

/-- Whether all that is stored carries entities and hangs where it should. The entity of one scope may be
excepted. -/
structure AnchoredBut (tree : ScopeTree) (but : Option ScopeId) : Prop where
  stored : ∀ {id entity spot link}, some id ≠ but → tree.entity? id = some entity →
    (spot, link) ∈ entity.kind.stored →
    tree.Lies id spot link ∧ tree.hasEntity link = true
  named : ∀ {id}, tree.hasEntity id = true → tree.Named id
  globals : ∀ id ∈ tree.globals.stored, tree.Lies root .top id ∧ tree.hasEntity id = true

/-- Whether all that is stored carries entities and hangs where it should. -/
abbrev Anchored (tree : ScopeTree) : Prop := tree.AnchoredBut none

/-- Whether a reference leads to a scope. -/
def RefersTo (tree : ScopeTree) (target : ScopeId) : Prop :=
  ∃ id entity, tree.entity? id = some entity ∧ .resolved target ∈ entity.references.values

theorem RefersTo.of_entities {before after : ScopeTree} {target : ScopeId}
    (refers : after.RefersTo target)
    (kept : ∀ id entity, after.entity? id = some entity → before.entity? id = some entity) :
    before.RefersTo target := by
  obtain ⟨id, entity, held, member⟩ := refers
  exact ⟨id, entity, kept id entity held, member⟩

theorem RefersTo.of_modifyEntity {tree : ScopeTree} {id target : ScopeId} {f : Entity → Entity}
    (refers : (tree.modifyEntity id f).RefersTo target)
    (same : ∀ entity, (f entity).references = entity.references) :
    tree.RefersTo target := by
  obtain ⟨other, found, held, member⟩ := refers
  rw [entity?_modifyEntity] at held
  split at held
  next =>
    obtain ⟨entity, before, rfl⟩ := Option.map_eq_some_iff.1 held
    rw [same] at member
    exact ⟨id, entity, before, member⟩
  next => exact ⟨other, found, held, member⟩

section Links

variable {before after : ScopeTree} (links : before.Links after)
include links

theorem Lies.carry {holder link : ScopeId} {spot : Spot} (lies : before.Lies holder spot link) :
    after.Lies holder spot link := by
  cases spot with
  | below => exact lies.imp fun _ hangs => links hangs
  | field => exact lies.imp fun _ there => there.carry links
  | top => exact lies.imp fun _ hangs => links hangs

theorem Named.carry {id : ScopeId} (named : before.Named id) : after.Named id := by
  obtain ⟨parent, name, hangs, apart⟩ := named
  exact ⟨parent, name, links hangs, apart⟩

end Links

theorem Named.ordinary {tree : ScopeTree} (formed : tree.Formed) {id : ScopeId} (named : tree.Named id) :
    tree.Ordinary id := by
  obtain ⟨parent, name, hangs, apart⟩ := named
  exact formed.ordinary_child hangs apart

theorem Named.ne_root {tree : ScopeTree} (formed : tree.Formed) {id : ScopeId} (named : tree.Named id) :
    id ≠ root := by
  rintro rfl
  obtain ⟨parent, name, hangs, _⟩ := named
  have above := formed.parent?_of_child hangs
  rw [formed.parent?_root] at above
  cases above

/-! ### Writes that take nothing away -/

/-- What a change adds to a tree is anchored, and its new references lead to entities. -/
structure Anchors (before after : ScopeTree) : Prop where
  links : before.Links after
  held : ∀ {id}, before.hasEntity id = true → after.hasEntity id = true
  named : ∀ {id}, after.hasEntity id = true → before.hasEntity id = true ∨ after.Named id
  stored : ∀ {id entity spot link}, after.entity? id = some entity → (spot, link) ∈ entity.kind.stored →
    (∃ former, before.entity? id = some former ∧ (spot, link) ∈ former.kind.stored) ∨
      after.Lies id spot link ∧ after.hasEntity link = true
  references : ∀ {target}, after.RefersTo target → after.hasEntity target = true ∨ before.RefersTo target
  globals : after.globals = before.globals

namespace Anchors

variable {first second third tree : ScopeTree}

/-- A change that leaves the entities alone adds nothing. -/
theorem of_entities (links : first.Links second) (same : ∀ id, second.entity? id = first.entity? id)
    (globals : second.globals = first.globals) : first.Anchors second where
  links := links
  held := fun held => by rw [hasEntity, same]; exact held
  named := fun held => by rw [hasEntity, same] at held; exact .inl held
  stored := fun held member => .inl ⟨_, (same _).symm.trans held, member⟩
  references := by
    rintro target ⟨id, entity, held, member⟩
    exact .inr ⟨id, entity, (same id).symm.trans held, member⟩
  globals := globals

theorem refl (tree : ScopeTree) : tree.Anchors tree :=
  of_entities (fun _ _ _ found => found) (fun _ => rfl) rfl

theorem trans (one : first.Anchors second) (two : second.Anchors third) : first.Anchors third where
  links := fun _ _ _ found => two.links (one.links found)
  held := fun held => two.held (one.held held)
  named := by
    intro id held
    rcases two.named held with middle | new
    · exact (one.named middle).imp_right (Named.carry two.links)
    · exact .inr new
  stored := by
    intro id entity spot link held member
    rcases two.stored held member with ⟨former, middle, listed⟩ | new
    · rcases one.stored middle listed with old | ⟨lies, stands⟩
      · exact .inl old
      · exact .inr ⟨lies.carry two.links, two.held stands⟩
    · exact .inr new
  references := by
    intro target refers
    rcases two.references refers with stands | middle
    · exact .inl stands
    · exact (one.references middle).imp_left two.held
  globals := two.globals.trans one.globals

/-- What is anchored stays so. -/
theorem anchoredBut (anchors : first.Anchors second) {but : Option ScopeId}
    (anchored : first.AnchoredBut but) :
    second.AnchoredBut but where
  stored := by
    intro id entity spot link apart held member
    rcases anchors.stored held member with ⟨former, before, listed⟩ | new
    · obtain ⟨lies, stands⟩ := anchored.stored apart before listed
      exact ⟨lies.carry anchors.links, anchors.held stands⟩
    · exact new
  named := by
    intro id held
    rcases anchors.named held with before | new
    · exact (anchored.named before).carry anchors.links
    · exact new
  globals := by
    intro id member
    rw [anchors.globals] at member
    obtain ⟨lies, stands⟩ := anchored.globals id member
    exact ⟨lies.carry anchors.links, anchors.held stands⟩

theorem internChild (tree : ScopeTree) (parent : ScopeId) (name : String) (valueType : ValueType) :
    tree.Anchors (tree.internChild parent name valueType).1 :=
  of_entities (tree.grows_internChild parent name valueType).links
    (entity?_internChild valueType tree parent name)
    (globals_internChild valueType tree parent name)

/-- An entity may be placed if what it adds is anchored. -/
theorem setEntity {id : ScopeId} {entity : Entity} (named : tree.hasEntity id = true ∨ tree.Named id)
    (stored : ∀ {spot link}, (spot, link) ∈ entity.kind.stored →
      (∃ former, tree.entity? id = some former ∧ (spot, link) ∈ former.kind.stored) ∨
        tree.Lies id spot link ∧ tree.hasEntity link = true)
    (references : ∀ {target}, .resolved target ∈ entity.references.values →
      tree.hasEntity target = true ∨ tree.RefersTo target) : tree.Anchors (tree.setEntity id entity) := by
  have links := (sameShape_setEntity tree id entity).links
  have held : ∀ {other}, tree.hasEntity other = true → (tree.setEntity id entity).hasEntity other = true := by
    intro other held
    by_cases same : other = id
    · subst same
      exact hasEntity_setEntity_self (index_lt_of_hasEntity held) _
    · rw [hasEntity, entity?_setEntity, if_neg same]
      exact held
  have later : ∀ {other found}, (tree.setEntity id entity).entity? other = some found →
      other = id ∧ found = entity ∨ tree.entity? other = some found := by
    intro other found held
    rw [entity?_setEntity] at held
    split at held
    next same =>
      obtain ⟨_, _, rfl⟩ := Option.map_eq_some_iff.1 held
      exact .inl ⟨same, rfl⟩
    next => exact .inr held
  refine ⟨links, held, fun {other} there => ?_, fun {other found spot link} there member => ?_,
    fun {target} refers => ?_, rfl⟩
  · obtain ⟨found, there⟩ := Option.isSome_iff_exists.1 there
    rcases later there with ⟨rfl, rfl⟩ | old
    · exact named.imp_right (Named.carry links)
    · exact .inl (Option.isSome_of_eq_some old)
  · rcases later there with ⟨rfl, rfl⟩ | old
    · exact (stored member).imp_right (And.imp (Lies.carry links) held)
    · exact .inl ⟨found, old, member⟩
  · obtain ⟨other, found, there, member⟩ := refers
    rcases later there with ⟨rfl, rfl⟩ | old
    · exact (references member).imp_left held
    · exact .inr ⟨other, found, old, member⟩

/-- An entity that stores nothing and refers to nothing may stand on any named scope. -/
theorem place {id : ScopeId} {kind : EntityKind} (named : tree.Named id) (bare : kind.stored = []) :
    tree.Anchors (tree.setEntity id (.new kind)) := by
  refine setEntity (.inr named) (fun member => ?_) fun member => ?_
  · rw [show (Entity.new kind).kind.stored = [] from bare] at member
    cases member
  · cases member

/-- An entity may change if what it stores besides is anchored and its references are as they were. -/
theorem modifyEntity {id : ScopeId} {f : Entity → Entity}
    (references : ∀ entity, (f entity).references = entity.references)
    (stored : ∀ {entity spot link}, (spot, link) ∈ (f entity).kind.stored →
      tree.Lies id spot link ∧ tree.hasEntity link = true ∨ (spot, link) ∈ entity.kind.stored) :
    tree.Anchors (tree.modifyEntity id f) := by
  have links := (sameShape_modifyEntity tree id f).links
  have held : ∀ other, (tree.modifyEntity id f).hasEntity other = tree.hasEntity other := by
    intro other
    rw [hasEntity, entity?_modifyEntity]
    split
    next same => rw [Option.isSome_map, same]; rfl
    next => rfl
  refine ⟨links, fun {other} there => (held other).trans there,
    fun {other} there => .inl ((held other).symm.trans there),
    fun {other found spot link} there member => ?_, fun refers =>
      .inr (refers.of_modifyEntity references), rfl⟩
  rw [entity?_modifyEntity] at there
  split at there
  next same =>
    subst same
    obtain ⟨entity, before, rfl⟩ := Option.map_eq_some_iff.1 there
    rcases stored member with ⟨lies, stands⟩ | known
    · exact .inr ⟨lies.carry links, (held link).trans stands⟩
    · exact .inl ⟨entity, before, known⟩
  next => exact .inl ⟨found, there, member⟩

/-- The names in the scope of an entity may be changed if the one that is added hangs there. -/
theorem mapLocals {scope id : ScopeId} {name : String} {f : Members → Members}
    (added : ∀ names entry, entry ∈ (f names).entries → entry = (name, id) ∨ entry ∈ names.entries)
    (hangs : tree.child? scope name = some id) (stands : tree.hasEntity id = true) :
    tree.Anchors (tree.modifyEntity scope (Entity.mapLocals f)) := by
  refine modifyEntity (fun _ => rfl) fun member => ?_
  rcases Entity.stored_mapLocals added member with new | old
  · cases new
    exact .inl ⟨⟨name, hangs⟩, stands⟩
  · exact .inr old

end Anchors

/-! ### Writes that drop entities -/

/-- What an entity stores is below a scope only if the entity stands there itself, or below it. -/
theorem Lies.outside {tree : ScopeTree} (formed : tree.Formed) {holder cleared link : ScopeId}
    {spot : Spot} (lies : tree.Lies holder spot link) (apart : holder ≠ cleared)
    (outside : holder ∉ tree.descendants cleared) (notRoot : cleared ≠ root)
    (foreign : spot = .field → tree.child? holder fieldsName ≠ some cleared) :
    link ∉ tree.descendants cleared := by
  have climb : ∀ {child parent name}, tree.child? parent name = some child →
    child ∈ tree.descendants cleared →
      parent = cleared ∨ parent ∈ tree.descendants cleared :=
    fun hangs member => eq_or_mem_descendants formed
      (mem_ancestors_parent formed member (formed.parent?_of_child hangs))
  intro member
  cases spot with
  | below =>
    obtain ⟨name, hangs⟩ := lies
    exact (climb hangs member).elim apart outside
  | field =>
    obtain ⟨name, fields, first, second⟩ := lies
    rcases climb second member with rfl | inner
    · exact foreign rfl first
    · exact (climb first inner).elim apart outside
  | top =>
    obtain ⟨name, hangs⟩ := lies
    rcases climb hangs member with same | inner
    · exact notRoot same.symm
    · exact Nat.not_lt_zero _ (index_lt_of_descendant inner)

namespace AnchoredBut

variable {tree : ScopeTree} {but : Option ScopeId}

theorem weaken (anchored : tree.Anchored) (but : Option ScopeId) : tree.AnchoredBut but :=
  ⟨fun _ => anchored.stored nofun, anchored.named, anchored.globals⟩

theorem withGlobals (anchored : tree.AnchoredBut but) {globals : Globals}
    (kept : ∀ id ∈ globals.stored, id ∈ tree.globals.stored ∨ tree.Lies root .top id ∧
      tree.hasEntity id = true)
    :
    ({ tree with globals } : ScopeTree).AnchoredBut but :=
  ⟨anchored.stored, anchored.named, fun id member => (kept id member).elim (anchored.globals id)
    fun new => new⟩

/-- Where what stands below a scope is dropped, all else stays anchored of which no entity stores a part. -/
theorem drop {after : ScopeTree} {later : Option ScopeId} {id : ScopeId}
    (anchored : tree.AnchoredBut but) (formed : tree.Formed)
    (notRoot : id ≠ root) (same : SameShape after tree) (globals : after.globals = tree.globals)
    (held : ∀ other, after.hasEntity other = (tree.clearDescendants id).hasEntity other)
    (stored : ∀ {other entity spot link}, some other ≠ later → after.entity? other = some entity →
      (spot, link) ∈ entity.kind.stored → some other ≠ but ∧ other ≠ id ∧
        (spot = .field → tree.child? other fieldsName ≠ some id) ∧
        ∃ former, tree.entity? other = some former ∧ (spot, link) ∈ former.kind.stored) :
          after.AnchoredBut later := by
  have cleared : ∀ {other}, after.hasEntity other = true → other ∉ tree.descendants id ∧
      tree.hasEntity other = true := by
    intro other there
    rw [held, hasEntity, entity?_clearDescendants] at there
    split at there
    next => cases there
    next outside => exact ⟨outside, there⟩
  have stays : ∀ {other}, other ∉ tree.descendants id → tree.hasEntity other = true →
      after.hasEntity other = true := by
    intro other outside there
    rw [held, hasEntity, entity?_clearDescendants, if_neg outside]
    exact there
  refine ⟨fun {other entity spot link} apart there member => ?_,
    fun {other} there => ?_, fun other member => ?_⟩
  · obtain ⟨outside, _⟩ := cleared (Option.isSome_of_eq_some there)
    obtain ⟨other', different, foreign, former, before, listed⟩ := stored apart there member
    obtain ⟨lies, stands⟩ := anchored.stored other' before listed
    exact ⟨lies.carry same.links, stays (lies.outside formed different outside notRoot foreign) stands⟩
  · exact (anchored.named (cleared there).2).carry same.links
  · rw [globals] at member
    obtain ⟨lies, stands⟩ := anchored.globals other member
    have outside : root ∉ tree.descendants id := fun inside =>
      Nat.not_lt_zero _ (index_lt_of_descendant inside)
    have apart : Spot.top ≠ .field := by decide
    exact ⟨lies.carry same.links, stays (lies.outside formed notRoot.symm outside notRoot fun isField =>
      absurd isField apart) stands⟩

/-- Dropping what stands below a scope may leave its own entity without what it stores, but no other. -/
theorem clearDescendants (anchored : tree.Anchored) (formed : tree.Formed) {id : ScopeId}
    (named : tree.Named id) :
    (tree.clearDescendants id).AnchoredBut (some id) := by
  refine anchored.drop formed (named.ne_root formed) (sameShape_clearDescendants tree id)
    (Discovery.globals_clearDescendants tree id) (fun _ => rfl)
    fun {other entity spot link} apart there member => ?_
  exact ⟨nofun, fun equal => apart (congrArg some equal), fun _ => named.ordinary formed other, entity,
    tree.entity?_of_clearDescendants there, member⟩

/-- A class may lose its fields together with what stands below their scope. -/
theorem dropFields (anchored : tree.AnchoredBut but) (formed : tree.Formed) {owner fields : ScopeId}
    (below : tree.child? owner fieldsName = some fields) :
    ((tree.clearDescendants fields).modifyClass owner fun held =>
      { held with fields := .empty }).AnchoredBut but := by
  have same := (sameShape_modifyEntity (tree.clearDescendants fields) owner
    (Entity.mapClass fun held => { held with fields := .empty })).trans
    (sameShape_clearDescendants tree fields)
  have notRoot : fields ≠ root := by
    rintro rfl
    have above := formed.parent?_of_child below
    rw [formed.parent?_root] at above
    cases above
  refine anchored.drop formed notRoot same (Discovery.globals_clearDescendants tree fields) (fun other => ?_)
    fun {other entity spot link} apart there member => ?_
  · rw [hasEntity, modifyClass, entity?_modifyEntity]
    split
    next equal => rw [Option.isSome_map, equal]; rfl
    next => rfl
  · have kept : ∃ former, tree.entity? other = some former ∧ (spot, link) ∈ former.kind.stored ∧
        (other = owner → spot ≠ .field) := by
      rw [modifyClass, entity?_modifyEntity] at there
      split at there
      next equal =>
        obtain ⟨former, before, rfl⟩ := Option.map_eq_some_iff.1 there
        obtain ⟨old, plain⟩ := Entity.stored_dropFields member
        exact ⟨former, equal ▸ tree.entity?_of_clearDescendants before, old, fun _ => plain⟩
      next different =>
        exact ⟨entity, tree.entity?_of_clearDescendants there, member, fun equal => absurd equal different⟩
    obtain ⟨former, before, listed, plain⟩ := kept
    refine ⟨apart, ?_, fun isField hangs => ?_, former, before, listed⟩
    · rintro rfl
      -- No entity stands on a scope of fields.
      obtain ⟨parent, name, hangs, different⟩ := anchored.named (Option.isSome_of_eq_some before)
      exact different (formed.child_unique hangs below).2
    · exact plain (formed.child_unique hangs below).1 isField

/-- The entity that was excepted may be replaced by one that stores nothing astray. -/
theorem place {id : ScopeId} (anchored : tree.AnchoredBut (some id)) (named : tree.Named id)
    (entity : Entity)
    (stored : ∀ {spot link}, (spot, link) ∈ entity.kind.stored → tree.Lies id spot link ∧
      tree.hasEntity link = true)
    (references : entity.references = .empty) :
    (tree.setEntity id entity).Anchored ∧ tree.Anchors (tree.setEntity id entity) := by
  have anchors : tree.Anchors (tree.setEntity id entity) := by
    refine .setEntity (.inr named) (fun member => .inr (stored member)) fun member => ?_
    rw [references] at member
    cases member
  refine ⟨⟨fun {other found spot link} _ held member => ?_, (anchors.anchoredBut anchored).named,
    (anchors.anchoredBut anchored).globals⟩, anchors⟩
  by_cases same : other = id
  · subst same
    rw [entity?_setEntity, if_pos rfl] at held
    obtain ⟨_, _, rfl⟩ := Option.map_eq_some_iff.1 held
    obtain ⟨lies, stands⟩ := stored member
    exact ⟨lies.carry anchors.links, anchors.held stands⟩
  · exact (anchors.anchoredBut anchored).stored (fun equal => same (Option.some.inj equal)) held member

end AnchoredBut
end ScopeTree
end LuaClasses
