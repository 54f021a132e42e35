import LuaClasses.Proofs.Interning
import LuaClasses.Proofs.Maps

/-! Trees that only grow. A grown tree has every scope of the old one in the same place, every
entity with at least the types, names and references it had, and no other globals. What is new
in it are variables and blocks. -/

namespace LuaClasses

/-- What growth never changes of an entity: all but the types it gathers and the variables and
fields below it. -/
def EntityKind.outline : EntityKind → EntityKind
  | .variable held => .variable { held with types := .empty }
  | .function held => .function { held with values := .empty, returns := .empty }
  | .constructor held => .constructor { held with values := .empty }
  | .table held => .table { held with fields := .empty }
  | .class_ held => .class_ { held with fields := .empty, values := .empty }
  | .block held => .block { held with values := .empty }

/-- Variables and blocks are what a walk places on scopes. -/
def EntityKind.isPlaced : EntityKind → Bool
  | .variable _ => true
  | .block _ => true
  | _ => false

private theorem EntityKind.isPlaced_outline (kind : EntityKind) : kind.outline.isPlaced = kind.isPlaced := by
  cases kind <;> rfl

namespace Entity

/-- The types of a variable or the types that a function returns. Other entities gather none. -/
def gathered (entity : Entity) : TypeSet := entity.gathered?.getD .empty

/-- The names that live directly in the scope of an entity. -/
def locals (entity : Entity) : Members := entity.locals?.getD .empty

/-- The instance fields of a class. Other entities have none. -/
def fields (entity : Entity) : Members := (entity.asClass?.map Class.fields).getD .empty

structure Grows (before after : Entity) : Prop where
  outline : after.kind.outline = before.kind.outline
  gathered : ∀ type ∈ before.gathered, type ∈ after.gathered
  locals : before.locals.Within after.locals
  fields : before.fields.Within after.fields
  references : ∀ key reference, before.references.get? key = some reference →
    ∃ later, after.references.get? key = some later ∧ (reference.isResolved = true → later = reference)

namespace Grows

variable {first second third : Entity}

theorem refl (entity : Entity) : Grows entity entity :=
  ⟨rfl, fun _ member => member, .refl _, .refl _, fun _ reference found => ⟨reference, found, fun _ => rfl⟩⟩

theorem trans (one : Grows first second) (two : Grows second third) : Grows first third where
  outline := two.outline.trans one.outline
  gathered := fun type member => two.gathered type (one.gathered type member)
  locals := one.locals.trans two.locals
  fields := one.fields.trans two.fields
  references := by
    intro key reference found
    obtain ⟨middle, held, kept⟩ := one.references key reference found
    obtain ⟨last, reached, settled⟩ := two.references key middle held
    refine ⟨last, reached, fun resolved => ?_⟩
    rw [settled (kept resolved ▸ resolved), kept resolved]

end Grows

/-! ### The ways in which an entity grows -/

theorem gathered_gather (entity : Entity) (types : TypeSet) (type : LuaType) :
    type ∈ (entity.gather types).gathered ↔
      type ∈ entity.gathered ∨ type ∈ types ∧ entity.gathered?.isSome = true := by
  obtain ⟨references, kind⟩ := entity
  cases kind <;> simp [gathered, gathered?, gather, TypeSet.mem_def, TypeSet.empty]
  all_goals exact TypeSet.mem_union

theorem grows_gather (entity : Entity) (types : TypeSet) : entity.Grows (entity.gather types) where
  outline := by obtain ⟨references, kind⟩ := entity; cases kind <;> rfl
  gathered := fun type member => (gathered_gather entity types type).2 (.inl member)
  locals := by obtain ⟨references, kind⟩ := entity; cases kind <;> exact .refl _
  fields := by obtain ⟨references, kind⟩ := entity; cases kind <;> exact .refl _
  references := fun _ reference found => ⟨reference, found, fun _ => rfl⟩

theorem grows_mapLocals (entity : Entity) (f : Members → Members)
    (within : entity.locals.Within (f entity.locals)) :
    entity.Grows (entity.mapLocals f) where
  outline := by obtain ⟨references, kind⟩ := entity; cases kind <;> rfl
  gathered := by obtain ⟨references, kind⟩ := entity; cases kind <;> exact fun _ member => member
  locals := by
    obtain ⟨references, kind⟩ := entity
    cases kind
    · exact .refl _
    all_goals exact within
  fields := by obtain ⟨references, kind⟩ := entity; cases kind <;> exact .refl _
  references := fun _ reference found => ⟨reference, found, fun _ => rfl⟩

theorem grows_addField (entity : Entity) (name : String) (id : ScopeId) :
    entity.Grows (entity.mapClass fun owner => { owner with fields := owner.fields.insertNew name id }) := by
  obtain ⟨references, kind⟩ := entity
  cases kind
  case class_ owner =>
    exact ⟨rfl, fun _ member => member, .refl _, OrderedMap.within_insertNew _ _ _,
      fun _ reference found => ⟨reference, found, fun _ => rfl⟩⟩
  all_goals exact .refl _

/-- A reference is only put in place of one that does not lead anywhere yet. -/
theorem grows_insertReference (entity : Entity) (key : String) (reference : Reference)
    (improves : Discovery.improves entity.references key reference = true) :
    entity.Grows { entity with references := entity.references.insert key reference } := by
  refine ⟨rfl, fun _ member => member, .refl _, .refl _, fun name held found => ?_⟩
  rw [OrderedMap.get?_insert]
  split
  next same =>
    subst same
    refine ⟨reference, rfl, fun resolved => ?_⟩
    simp [Discovery.improves, found, resolved] at improves
  next => exact ⟨held, found, fun _ => rfl⟩

end Entity

/-! ### Nodes and trees -/

structure Node.Grows (before after : Node) : Prop where
  raw : after.raw = before.raw
  name : after.name = before.name
  parent : after.parent = before.parent
  valueType : after.valueType = before.valueType
  children : before.children.Within after.children
  entity : ∀ entity, before.entity = some entity → ∃ later, after.entity = some later ∧ entity.Grows later

theorem Node.Grows.refl (node : Node) : node.Grows node :=
  ⟨rfl, rfl, rfl, rfl, .refl _, fun entity found => ⟨entity, found, .refl _⟩⟩

theorem Node.Grows.trans {first second third : Node} (one : first.Grows second) (two : second.Grows third) :
    first.Grows third where
  raw := two.raw.trans one.raw
  name := two.name.trans one.name
  parent := two.parent.trans one.parent
  valueType := two.valueType.trans one.valueType
  children := one.children.trans two.children
  entity := by
    intro entity found
    obtain ⟨middle, held, grown⟩ := one.entity entity found
    obtain ⟨last, reached, further⟩ := two.entity middle held
    exact ⟨last, reached, grown.trans further⟩

namespace ScopeTree

structure Grows (before after : ScopeTree) : Prop where
  nodes : ∀ id node, before.node? id = some node → ∃ later, after.node? id = some later ∧ node.Grows later
  globals : after.globals = before.globals
  placed : ∀ id entity, before.entity? id = none → after.entity? id = some entity →
    entity.kind.isPlaced = true

namespace Grows

variable {before after : ScopeTree}

theorem refl (tree : ScopeTree) : Grows tree tree where
  nodes := fun _ node found => ⟨node, found, .refl _⟩
  globals := rfl
  placed := fun _ _ vacant held => by rw [vacant] at held; cases held

theorem entity? (grows : before.Grows after) {id : ScopeId} {entity : Entity}
    (found : before.entity? id = some entity) :
    ∃ later, after.entity? id = some later ∧ entity.Grows later := by
  obtain ⟨node, present, held⟩ := Option.bind_eq_some_iff.1 found
  obtain ⟨later, there, grown⟩ := grows.nodes id node present
  obtain ⟨last, reached, further⟩ := grown.entity entity held
  exact ⟨last, Option.bind_eq_some_iff.2 ⟨later, there, reached⟩, further⟩

theorem trans {first second third : ScopeTree} (one : Grows first second) (two : Grows second third) :
    Grows first third where
  nodes := by
    intro id node found
    obtain ⟨middle, held, grown⟩ := one.nodes id node found
    obtain ⟨last, reached, further⟩ := two.nodes id middle held
    exact ⟨last, reached, grown.trans further⟩
  globals := two.globals.trans one.globals
  placed := by
    intro id entity vacant held
    cases between : second.entity? id with
    | none => exact two.placed id entity between held
    | some middle =>
      obtain ⟨last, reached, grown⟩ := two.entity? between
      cases reached.symm.trans held
      rw [← EntityKind.isPlaced_outline, grown.outline, EntityKind.isPlaced_outline]
      exact one.placed id middle vacant between

theorem index_lt (grows : before.Grows after) {id : ScopeId} (inside : id.index < before.size) :
    id.index < after.size := by
  obtain ⟨node, found⟩ := exists_node? inside
  obtain ⟨later, held, _⟩ := grows.nodes id node found
  exact index_lt_of_node? held

theorem raw (grows : before.Grows after) {id : ScopeId} (inside : id.index < before.size) :
    after.raw id = before.raw id := by
  obtain ⟨node, found⟩ := exists_node? inside
  obtain ⟨later, held, grown⟩ := grows.nodes id node found
  rw [raw_of_node? found, raw_of_node? held, grown.raw]

theorem parent? (grows : before.Grows after) {id : ScopeId} (inside : id.index < before.size) :
    after.parent? id = before.parent? id := by
  obtain ⟨node, found⟩ := exists_node? inside
  obtain ⟨later, held, grown⟩ := grows.nodes id node found
  simp [ScopeTree.parent?, found, held, grown.parent]

theorem child? (grows : before.Grows after) {id child : ScopeId} {name : String}
    (found : before.child? id name = some child) : after.child? id name = some child := by
  obtain ⟨node, present, held⟩ := Option.bind_eq_some_iff.1 found
  obtain ⟨later, there, grown⟩ := grows.nodes id node present
  exact Option.bind_eq_some_iff.2 ⟨later, there, grown.children name child held⟩

theorem hasEntity (grows : before.Grows after) {id : ScopeId} (held : before.hasEntity id = true) :
    after.hasEntity id = true := by
  obtain ⟨entity, found⟩ := Option.isSome_iff_exists.1 held
  obtain ⟨later, reached, _⟩ := grows.entity? found
  exact Option.isSome_iff_exists.2 ⟨later, reached⟩

theorem find? (grows : before.Grows after) {path : String} {id : ScopeId}
    (found : before.find? path = some id) :
    after.find? path = some id := by
  obtain ⟨node, present, same⟩ := (find?_eq_some_iff before).1 found
  obtain ⟨later, there, grown⟩ := grows.nodes id node present
  exact (find?_eq_some_iff after).2 ⟨later, there, grown.raw.trans same⟩

end Grows

/-! ### The ways in which a tree grows -/

variable (tree : ScopeTree)

private theorem grows_modifySlot (id : ScopeId) (f : Option Entity → Option Entity)
    (grows : ∀ held, tree.entity? id = some held → ∃ later, f (some held) = some later ∧ held.Grows later)
    (placed : tree.entity? id = none → ∀ entity, f none = some entity → entity.kind.isPlaced = true) :
    tree.Grows (tree.modifySlot id f) := by
  refine ⟨fun other node found => ?_, rfl, fun other entity vacant held => ?_⟩
  · rw [node?_modifySlot]
    split
    next same =>
      subst same
      rw [found]
      refine ⟨_, rfl, rfl, rfl, rfl, rfl, .refl _, fun held present => ?_⟩
      obtain ⟨later, same, grown⟩ := grows held (Option.bind_eq_some_iff.2 ⟨node, found, present⟩)
      exact ⟨later, (congrArg f present).trans same, grown⟩
    next => exact ⟨node, found, .refl _⟩
  · rw [entity?, node?_modifySlot] at held
    split at held
    next same =>
      subst same
      cases found : tree.node? other with
      | none => simp [found] at held
      | some node =>
        have absent : node.entity = none := by rwa [entity?, found, Option.bind_some] at vacant
        rw [found, Option.map_some, Option.bind_some, absent] at held
        exact placed vacant entity held
    next =>
      rw [entity?] at vacant
      rw [vacant] at held
      cases held

/-- Placing an entity on a scope where none stands, or in place of a smaller one. -/
theorem grows_setEntity (id : ScopeId) (entity : Entity)
    (grows : ∀ held, tree.entity? id = some held → held.Grows entity)
    (placed : tree.entity? id = none → entity.kind.isPlaced = true) :
    tree.Grows (tree.setEntity id entity) := by
  refine grows_modifySlot tree id _ (fun held present => ⟨entity, rfl, grows held present⟩)
    fun vacant other same => ?_
  cases same
  exact placed vacant

theorem grows_modifyEntity (id : ScopeId) (f : Entity → Entity)
    (grows : ∀ held, tree.entity? id = some held → held.Grows (f held)) :
    tree.Grows (tree.modifyEntity id f) :=
  grows_modifySlot tree id _ (fun held present => ⟨f held, rfl, grows held present⟩)
    fun _ _ same => nomatch same

theorem grows_internChild (parent : ScopeId) (name : String) (valueType : ValueType) :
    tree.Grows (tree.internChild parent name valueType).1 := by
  cases absent : tree.find? (DottedName.child (tree.raw parent) name) with
  | some id => rw [internChild_found valueType absent]; exact .refl tree
  | none =>
    refine ⟨fun id node found => ?_, rfl, fun id entity vacant held => ?_⟩
    · rw [node?_internChild valueType absent, if_neg (Nat.ne_of_lt (index_lt_of_node? found)), found]
      split
      next =>
        refine ⟨_, rfl, rfl, rfl, rfl, rfl, OrderedMap.within_insertNew _ _ _, fun entity held => ?_⟩
        exact ⟨entity, held, .refl _⟩
      next => exact ⟨node, rfl, .refl _⟩
    · rw [entity?_internChild, vacant] at held
      cases held

end ScopeTree
end LuaClasses
