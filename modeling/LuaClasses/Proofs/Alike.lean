import LuaClasses.Proofs.ChartReads

/-! Trees with charts that agree. A likeness says at which paths two trees are compared and what must be
the same of what stands there. A write that is done at the same path in both trees keeps them alike. -/

namespace LuaClasses
open DottedName

/-! ### Changes to a look -/

theorem OrderedMap.insertNew_mapValues {α β : Type} (f : α → β) (map : OrderedMap α) (key : String)
    (value : α) :
    (map.mapValues f).insertNew key (f value) = (map.insertNew key value).mapValues f := by
  refine OrderedMap.ext ?_
  unfold insertNew
  simp only [contains_mapValues]
  split
  next => simp [mapValues]
  next => rfl

namespace Shape

/-- Whether an entity gathers types. -/
def gathers : Shape → Bool
  | .variable _ => true
  | .function _ _ => true
  | _ => false

def mapClass (g : ClassLook → ClassLook) : Shape → Shape
  | .class_ held => .class_ (g held)
  | other => other

end Shape

/-- Whether a reference says more than the one kept under its name. -/
def Lead.improves (references : OrderedMap Lead) (lead : Lead) : Bool :=
  match references.get? lead.key with
  | none => true
  | some known => !known.isResolved && lead.isResolved

namespace Look

def gather (types : TypeSet) (look : Look) : Look :=
  if look.shape.gathers then { look with types := look.types ∪ types } else look

def take (lead : Option Lead) (look : Look) : Look :=
  match lead with
  | none => look
  | some lead =>
    if lead.improves look.references then { look with references := look.references.insert lead.key lead } else look

def mapClass (g : ClassLook → ClassLook) (look : Look) : Look := { look with shape := look.shape.mapClass g }

@[simp] theorem references_gather (types : TypeSet) (look : Look) :
    (look.gather types).references = look.references := by
  unfold gather
  split <;> rfl

@[simp] theorem shape_gather (types : TypeSet) (look : Look) : (look.gather types).shape = look.shape := by
  unfold gather
  split <;> rfl

@[simp] theorem types_take (lead : Option Lead) (look : Look) : (look.take lead).types = look.types := by
  unfold take
  split
  next => rfl
  next => split <;> rfl

@[simp] theorem shape_take (lead : Option Lead) (look : Look) : (look.take lead).shape = look.shape := by
  unfold take
  split
  next => rfl
  next => split <;> rfl

end Look

namespace Entity
open Discovery

variable (raw : ScopeId → String)

private theorem look_gather (entity : Entity) (types : TypeSet) :
    (entity.gather types).look raw = (entity.look raw).gather types := by
  obtain ⟨references, kind⟩ := entity
  cases kind <;> rfl

/-- A name that is entered below an entity shows if the entity is a class. -/
theorem look_mapLocals (entity : Entity) {f : Members → Members} {g : OrderedMap String → OrderedMap String}
    (same : ∀ members, (f members).mapValues raw = g (members.mapValues raw)) :
    (entity.mapLocals f).look raw = (entity.look raw).mapClass fun held =>
    { held with values := g held.values } := by
  obtain ⟨references, kind⟩ := entity
  cases kind with
  | class_ held => simp only [mapLocals, look, EntityKind.shape, Class.look, same]; rfl
  | _ => rfl

theorem look_mapClass (entity : Entity) {f : Class → Class} {g : ClassLook → ClassLook}
    (same : ∀ held : Class, (f held).look raw = g (held.look raw)) :
    (entity.mapClass f).look raw = (entity.look raw).mapClass g := by
  obtain ⟨references, kind⟩ := entity
  cases kind with
  | class_ held => simp only [mapClass, look, EntityKind.shape, same]; rfl
  | _ => rfl

private theorem improves_look (tree : ScopeTree) (entity : Entity) (reference : Reference) :
    (reference.lead tree.raw).improves (entity.look tree.raw).references =
      improves entity.references (referenceKey tree reference) reference := by
  have key : (reference.lead tree.raw).key = referenceKey tree reference := by cases reference <;> rfl
  unfold Lead.improves improves
  rw [key, look, OrderedMap.get?_mapValues, Reference.isResolved_lead]
  cases entity.references.get? (referenceKey tree reference) with
  | none => rfl
  | some known => simp only [Option.map_some, Reference.isResolved_lead]

/-- What becomes of the look of an entity that takes in evidence. -/
theorem look_absorb (tree : ScopeTree) (entity : Entity) (evidence : Evidence) (target : ScopeId) :
    (evidence.absorb tree target entity).1.look tree.raw =
      ((entity.look tree.raw).gather (evidence.typesFor tree target)).take
        ((evidence.referenceOf target).map (Reference.lead tree.raw)) := by
  unfold Evidence.absorb
  cases evidence.referenceOf target with
  | none => exact look_gather tree.raw entity _
  | some reference =>
    have key : referenceKey tree reference = (reference.lead tree.raw).key := by cases reference <;> rfl
    rw [Option.map_some, Look.take, Look.references_gather, improves_look, ← look_gather]
    dsimp only
    split
    next =>
      have inserted := OrderedMap.insert_mapValues (Reference.lead tree.raw) entity.references
        (referenceKey tree reference) reference
      rw [key] at inserted ⊢
      simp only [look, ← inserted]
      rfl
    next => rfl

/-! ### The scopes that are told of -/

theorem scopes_gather (entity : Entity) (types : TypeSet) : (entity.gather types).scopes = entity.scopes := by
  obtain ⟨references, kind⟩ := entity
  cases kind <;> rfl

theorem scopes_mapLocals {entity : Entity} {f : Members → Members} {id : ScopeId}
    (adds : ∀ members, ∀ other ∈ (f members).values, other = id ∨ other ∈ members.values) :
    ∀ other ∈ (entity.mapLocals f).scopes, other = id ∨ other ∈ entity.scopes := by
  obtain ⟨references, kind⟩ := entity
  intro other member
  cases kind with
  | class_ held =>
    have values := adds held.values other
    simp only [mapLocals, scopes, EntityKind.scopes, List.mem_append, List.mem_cons] at member ⊢
    tauto
  | _ => exact .inr member

theorem scopes_mapClass {entity : Entity} {f : Class → Class} {id : ScopeId}
    (adds : ∀ held : Class, ∀ other ∈ (EntityKind.class_ (f held)).scopes, other = id ∨
      other ∈ (EntityKind.class_ held).scopes)
    :
    ∀ other ∈ (entity.mapClass f).scopes, other = id ∨ other ∈ entity.scopes := by
  obtain ⟨references, kind⟩ := entity
  intro other member
  cases kind with
  | class_ held =>
    have added := adds held other
    simp only [mapClass, scopes, List.mem_append] at member ⊢
    tauto
  | _ => exact .inr member

theorem scopes_absorb (tree : ScopeTree) (entity : Entity) (evidence : Evidence) (target : ScopeId) :
    ∀ other ∈ (evidence.absorb tree target entity).1.scopes,
      (∃ reference, evidence.reference = some reference ∧ other = reference.scope) ∨
      other ∈ entity.scopes := by
  intro other member
  unfold Evidence.absorb at member
  cases taken : evidence.referenceOf target with
  | none =>
    rw [taken] at member
    exact .inr (scopes_gather entity _ ▸ member)
  | some reference =>
    rw [taken] at member
    dsimp only at member
    split at member
    next =>
      rcases List.mem_append.1 member with listed | kept
      · obtain ⟨held, inside, same⟩ := List.mem_map.1 listed
        obtain ⟨entry, entered, rfl⟩ := List.mem_map.1 inside
        rcases OrderedMap.mem_insert entered with rfl | old
        · exact .inl ⟨reference, (Option.filter_eq_some_iff.1 taken).1, same.symm⟩
        · exact .inr (List.mem_append_left _ (List.mem_map.2 ⟨_, List.mem_map_of_mem old, same⟩))
      · refine .inr (scopes_gather entity (evidence.typesFor tree target) ▸ ?_)
        exact List.mem_append_right _ kept
    next => exact .inr (scopes_gather entity _ ▸ member)

end Entity

/-! ### Alike trees -/

/-- A way in which two trees may be alike. -/
structure Likeness where
  /-- The paths at which the trees are compared. -/
  seen : String → Prop
  /-- The names for which a reference may wait. -/
  known : String → Prop
  /-- What must agree of what stands at a path. -/
  agrees : String → Look → Look → Prop
  /-- What is to come of the trees. -/
  future : ScopeTree → ScopeTree → Prop

variable {likeness : Likeness}

/-- Sound trees in which the same stands at the same paths, as far as a likeness compares them. -/
structure Alike (likeness : Likeness) (first second : ScopeTree) : Prop where
  left : first.Sound
  right : second.Sound
  top : first.raw ScopeTree.root = second.raw ScopeTree.root
  looks : ∀ path, likeness.seen path → Option.Rel (likeness.agrees path)
    (first.chart path) (second.chart path)

/-- A change to a class that is the same whatever its fields are. -/
def ClassLook.Steady (g : ClassLook → ClassLook) : Prop :=
  ∀ one two : ClassLook, { one with fields := .empty } = { two with fields := .empty } →
    { g one with fields := .empty } = { g two with fields := .empty }

namespace Likeness
open ScopeTree Discovery

/-- A likeness that writes keep. -/
structure Lasting (likeness : Likeness) : Prop where
  around : ∀ {path name}, likeness.seen (child path name) → likeness.seen path
  tag : ∀ {path look like}, likeness.agrees path look like → look.shape.tag = like.shape.tag
  fresh : ∀ path shape, likeness.agrees path ⟨.empty, .empty, shape⟩ ⟨.empty, .empty, shape⟩
  mapClass : ∀ {path look like g}, ClassLook.Steady g → likeness.agrees path look like →
    likeness.agrees path (look.mapClass g) (like.mapClass g)
  /-- What takes in the same evidence stays alike, in view of what is to come. -/
  absorb : ∀ {first second one two evidence other entity like}, Alike likeness first second →
    Twins first second one two →
    likeness.seen (first.raw one) → Testify likeness.seen likeness.known first second evidence other →
    first.entity? one = some entity → second.entity? two = some like →
    likeness.future (applyEvidence first one evidence).1 (applyEvidence second two other).1 →
    likeness.agrees (first.raw one) ((evidence.absorb first one entity).1.look first.raw)
      ((other.absorb second two like).1.look second.raw)

end Likeness

namespace ScopeTree

variable {first second : ScopeTree} {one two : ScopeId}

/-- Scopes at the same path stay so. -/
theorem Twins.onward {later last : ScopeTree} (twins : Twins first second one two)
    (left : first.WellShaped) (right : second.WellShaped) (onward : first.Keeps later)
    (further : second.Keeps last) : Twins later last one two := by
  have found := onward _ _ (left.find?_raw twins.left)
  have reached := further _ _ (right.find?_raw twins.right)
  exact ⟨index_lt_of_find? found, index_lt_of_find? reached, by
    rw [raw_of_find? found, raw_of_find? reached, twins.path]⟩

theorem Twins.ids (left : first.WellShaped) (twins : Twins first second one two) {id other : ScopeId}
    (twin : Twins first second id other) (right : second.WellShaped) : one = id ↔ two = other := by
  constructor
  · rintro rfl
    exact right.raw_inj twins.right twin.right (twins.path.symm.trans twin.path)
  · rintro rfl
    exact left.raw_inj twins.left twin.left (twins.path.trans twin.path.symm)

theorem keeps_internChild (tree : ScopeTree) (parent : ScopeId) (name : String) (valueType : ValueType) :
    tree.Keeps (tree.internChild parent name valueType).1 :=
  fun _ _ found => (tree.grows_internChild parent name valueType).find? found

end ScopeTree

namespace Alike
open ScopeTree Discovery

variable {first second later last : ScopeTree} {one two : ScopeId} (alike : Alike likeness first second)
include alike

theorem agree_of_tags (around : ∀ {path name}, likeness.seen (child path name) → likeness.seen path)
    (tag : ∀ {path look like}, likeness.agrees path look like → look.shape.tag = like.shape.tag) :
    Agree likeness.seen first second where
  left := alike.left.shaped
  right := alike.right.shaped
  top := alike.top
  around := fun _ _ => around
  tags := by
    intro path seen
    have same := alike.looks path seen
    rw [ScopeTree.tag?, ScopeTree.tag?]
    generalize first.chart path = look, second.chart path = like at same ⊢
    cases same with
    | some agrees => rw [Option.map_some, Option.map_some, tag agrees]
    | none => rfl

theorem agree (lasting : likeness.Lasting) : Agree likeness.seen first second :=
  alike.agree_of_tags lasting.around lasting.tag

theorem onward (twins : Twins first second one two) (onward : first.Keeps later)
    (further : second.Keeps last) :
    Twins later last one two :=
  twins.onward alike.left.shaped alike.right.shaped onward further

/-- What stands at scopes of the same path. -/
theorem looks_at (twins : Twins first second one two) (seen : likeness.seen (first.raw one)) :
    Option.Rel (likeness.agrees (first.raw one)) ((first.entity? one).map (Entity.look first.raw))
      ((second.entity? two).map (Entity.look second.raw)) := by
  rw [← chart_raw alike.left.shaped twins.left, ← chart_raw alike.right.shaped twins.right, ← twins.path]
  exact alike.looks _ seen

theorem hasEntity (lasting : likeness.Lasting) (twins : Twins first second one two)
    (seen : likeness.seen (first.raw one)) :
    first.hasEntity one = second.hasEntity two := by
  rw [hasEntity_eq alike.left.shaped twins.left, hasEntity_eq alike.right.shaped twins.right, ← twins.path,
    (alike.agree lasting).tags _ seen]

theorem variableAt? (lasting : likeness.Lasting) (twins : Twins first second one two)
    (seen : likeness.seen (first.raw one)) :
    (first.variableAt? one).isSome = (second.variableAt? two).isSome := by
  have tagged : ∀ (tree : ScopeTree) (id : ScopeId),
      (tree.variableAt? id).isSome =
        ((tree.entity? id).map (fun entity => entity.kind.tag) == some .variable) := by
    intro tree id
    rw [ScopeTree.variableAt?]
    cases tree.entity? id with
    | none => rfl
    | some entity =>
      obtain ⟨references, kind⟩ := entity
      cases kind <;> rfl
  rw [tagged, tagged, (alike.agree lasting).tag? twins seen]

/-- Trees that have changed at one path. -/
theorem change (left : later.Sound) (right : last.Sound) (top : later.raw root = last.raw root)
    {path : String} {look like : Option Look}
    (onward : ∀ other, later.chart other = if other = path then look else first.chart other)
    (further : ∀ other, last.chart other = if other = path then like else second.chart other)
    (same : likeness.seen path → Option.Rel (likeness.agrees path) look like) :
    Alike likeness later last where
  left := left
  right := right
  top := top
  looks := by
    intro other seen
    rw [onward, further]
    split
    next at_ =>
      subst at_
      exact same seen
    next => exact alike.looks other seen

/-- A new scope is made in both. -/
theorem internChild (twins : Twins first second one two) {name : String} (plain : '.' ∉ name.toList)
    (valueType other : ValueType) :
    Alike likeness (first.internChild one name valueType).1 (second.internChild two name other).1 ∧
      Twins (first.internChild one name valueType).1 (second.internChild two name other).1
        (first.internChild one name valueType).2
        (second.internChild two name other).2 ∧
      (first.internChild one name valueType).1.raw (first.internChild one name valueType).2 =
      child (first.raw one) name := by
  have left := raw_of_find? (find?_internChild valueType first one name)
  have right := raw_of_find? (find?_internChild other second two name)
  have inside := alike.left.shaped
  refine ⟨⟨alike.left.internChild twins.left plain valueType,
    alike.right.internChild twins.right plain other, ?_, fun path seen => ?_⟩,
    ⟨index_internChild .., index_internChild .., by rw [left, right, twins.path]⟩, left⟩
  · have top : Twins first second root root :=
      ⟨Nat.lt_of_le_of_lt (Nat.zero_le _) twins.left, Nat.lt_of_le_of_lt (Nat.zero_le _) twins.right,
        alike.top⟩
    exact (alike.onward top (first.keeps_internChild one name valueType)
      (second.keeps_internChild two name other)).path
  · rw [chart_internChild alike.left, chart_internChild alike.right]
    exact alike.looks path seen

theorem setEntity (twins : Twins first second one two) {entity like : Entity}
    (left : ∀ scope ∈ entity.scopes, scope.index < first.size)
    (right : ∀ scope ∈ like.scopes, scope.index < second.size)
    (same : likeness.seen (first.raw one) →
      likeness.agrees (first.raw one) (entity.look first.raw) (like.look second.raw))
    :
    Alike likeness (first.setEntity one entity) (second.setEntity two like) := by
  refine alike.change (alike.left.setEntity one left) (alike.right.setEntity two right) ?_
    (chart_setEntity alike.left.shaped twins.left entity)
    (fun path => twins.path ▸ chart_setEntity alike.right.shaped twins.right like path)
    fun seen => .some (same seen)
  rw [(sameShape_setEntity first one entity).raw, (sameShape_setEntity second two like).raw, alike.top]

theorem modifyEntity (twins : Twins first second one two) {f g : Entity → Entity}
    (left : ∀ {entity}, first.entity? one = some entity → ∀ scope ∈ (f entity).scopes,
      scope.index < first.size)
    (right : ∀ {entity}, second.entity? two = some entity → ∀ scope ∈ (g entity).scopes,
      scope.index < second.size)
    (same : likeness.seen (first.raw one) → ∀ {entity like : Entity},
      likeness.agrees (first.raw one) (entity.look first.raw) (like.look second.raw) →
      likeness.agrees (first.raw one) ((f entity).look first.raw) ((g like).look second.raw)) :
    Alike likeness (first.modifyEntity one f) (second.modifyEntity two g) := by
  refine alike.change (alike.left.modifyEntity one left) (alike.right.modifyEntity two right) ?_
    (chart_modifyEntity alike.left.shaped twins.left f)
    (fun path => twins.path ▸ chart_modifyEntity alike.right.shaped twins.right g path) fun seen => ?_
  · rw [(sameShape_modifyEntity first one f).raw, (sameShape_modifyEntity second two g).raw, alike.top]
  · have looks := alike.looks_at twins seen
    cases held : first.entity? one with
    | none =>
      cases reached : second.entity? two with
      | none => exact .none
      | some like =>
        rw [held, reached] at looks
        cases looks
    | some entity =>
      cases reached : second.entity? two with
      | none =>
        rw [held, reached] at looks
        cases looks
      | some like =>
        rw [held, reached] at looks
        cases looks with
        | some agrees => exact .some (same seen agrees)

theorem clearDescendants (twins : Twins first second one two) :
    Alike likeness (first.clearDescendants one) (second.clearDescendants two) where
  left := alike.left.clearDescendants one
  right := alike.right.clearDescendants two
  top := by
    rw [(sameShape_clearDescendants first one).raw, (sameShape_clearDescendants second two).raw, alike.top]
  looks := by
    intro path seen
    rw [chart_clearDescendants alike.left.shaped twins.left,
      chart_clearDescendants alike.right.shaped twins.right, twins.path]
    split
    next => exact .none
    next => exact alike.looks path seen

end Alike
end LuaClasses
