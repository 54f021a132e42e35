import LuaClasses.Proofs.Arrival
import LuaClasses.Proofs.BlockPaths
import LuaClasses.Proofs.LexicalScope
import LuaClasses.Proofs.Reach
import LuaClasses.Proofs.WalkWrites

/-! The keys of references. An entity keeps a reference that waits under the name for which it waits, and
one that leads to a scope under the path of that scope. Where no scope has a path of the form of the
name, nothing else is kept under the name, so what waits there is neither turned away nor replaced before
it leads somewhere. -/

namespace LuaClasses
namespace ScopeTree

/-- The reference that the entity of a scope keeps under a key. -/
def reference? (tree : ScopeTree) (id : ScopeId) (key : String) : Option Reference :=
  (tree.entity? id).bind fun entity => entity.references.get? key

/-- Whether no scope has a path. -/
def Foreign (tree : ScopeTree) (path : String) : Prop := ∀ id, tree.raw id ≠ path

variable {tree first second third before after : ScopeTree} {id target : ScopeId} {key path : String}

theorem reference?_of_held {entity : Entity} (held : tree.entity? id = some entity) :
    tree.reference? id key = entity.references.get? key := by
  rw [reference?, held, Option.bind_some]

theorem reference?_of_vacant (vacant : tree.entity? id = none) : tree.reference? id key = none := by
  rw [reference?, vacant, Option.bind_none]

theorem reference?_of_entity? (same : after.entity? id = before.entity? id) :
    after.reference? id key = before.reference? id key := by
  rw [reference?, same, reference?]

private theorem reference?_setEntity_other {other : ScopeId} (apart : other ≠ id) (entity : Entity) :
    (tree.setEntity id entity).reference? other key = tree.reference? other key :=
  reference?_of_entity? (by rw [entity?_setEntity, if_neg apart])

theorem index_lt_of_raw (named : tree.raw id ≠ "") : id.index < tree.size := by
  cases present : tree.node? id with
  | none => simp [raw, present] at named
  | some node => exact index_lt_of_node? present

theorem Formed.raw_inj (formed : tree.Formed) (named : tree.raw id ≠ "")
    (same : tree.raw target = tree.raw id) : target = id := by
  have there := formed.find?_raw (index_lt_of_raw named)
  rw [← same, formed.find?_raw (index_lt_of_raw (same ▸ named))] at there
  exact Option.some.inj there

/-- The paths of all scopes go on from that of the root. -/
theorem Formed.within_root (formed : tree.Formed) (inside : id.index < tree.size) :
    DottedName.Within (tree.raw ScopeTree.root) (tree.raw id) := by
  induction place : id.index using Nat.strong_induction_on generalizing id with
  | _ index ih =>
    by_cases top : id = ScopeTree.root
    · rw [top]
      exact .refl _
    · obtain ⟨node, present⟩ := exists_node? inside
      obtain ⟨parent, _, older, hangs⟩ := formed.below present top
      rw [raw_of_find? (formed.find?_child hangs)]
      exact (ih parent.index (place ▸ older) (Nat.lt_trans older inside) rfl).trans
        (DottedName.within_child _ _)

theorem Formed.foreign (formed : tree.Formed) (named : path ≠ "")
    (away : ¬DottedName.Within (tree.raw ScopeTree.root) path) :
    tree.Foreign path := by
  rintro id rfl
  exact away (formed.within_root (index_lt_of_raw named))

/-- From the root, a name leads to the scope whose path is that of the root with the name behind it. -/
theorem Formed.find?_of_lookup (formed : tree.Formed) (found : tree.lookup path ScopeTree.root = some id) :
    tree.find? (DottedName.child (tree.raw ScopeTree.root) path) = some id := by
  have inside := index_lt_of_hasEntity (hasEntity_of_lookup found)
  obtain ⟨level, around, reached⟩ := List.exists_of_findSome?_eq_some found
  rw [ancestors_of_top formed.parent?_root, List.mem_singleton] at around
  rw [← around, ← raw_of_resolveRelative formed (Option.filter_eq_some_iff.1 reached).1]
  exact formed.find?_raw inside

/-! ### What becomes of a reference -/

/-- What a walk may make of what is kept under a key: nothing else, or a reference that waits for the
name where nothing was kept, or one to the scope of that path where no other leads anywhere yet. -/
inductive Becomes (origins : ScopeId → Prop) (tree : ScopeTree) (key : String) :
    Option Reference → Option Reference → Prop
  | same (kept : Option Reference) : Becomes origins tree key kept kept
  | waits {origin : ScopeId} (from_ : origins origin) : Becomes origins tree key none
    (some (.unresolved key origin))
  | leads {former : Option Reference} {target : ScopeId} (open_ : ∀ other, former ≠ some (.resolved other))
      (path : tree.raw target = key) : Becomes origins tree key former (some (.resolved target))

variable {origins : ScopeId → Prop}

theorem Becomes.mono {former later : Option Reference} (becomes : Becomes origins before key former later)
    (raws : ∀ id, before.raw id = key → after.raw id = key) : Becomes origins after key former later := by
  cases becomes with
  | same => exact .same _
  | waits from_ => exact .waits from_
  | leads open_ path => exact .leads open_ (raws _ path)

theorem Becomes.trans {one two three : Option Reference} (left : Becomes origins tree key one two)
    (right : Becomes origins tree key two three) : Becomes origins tree key one three := by
  cases right with
  | same => exact left
  | waits from_ => cases left with | same => exact .waits from_
  | leads open_ path =>
    cases left with
    | same => exact .leads open_ path
    | waits => exact .leads nofun path
    | leads => exact absurd rfl (open_ _)

/-- A change that makes nothing else of any reference. -/
structure Keys (origins : ScopeId → Prop) (before after : ScopeTree) : Prop where
  raws : ∀ {id}, before.raw id ≠ "" → after.raw id = before.raw id
  becomes : ∀ id {key}, key ≠ "" → Becomes origins after key (before.reference? id key)
    (after.reference? id key)

namespace Keys

theorem of_references (raws : ∀ {id}, before.raw id ≠ "" → after.raw id = before.raw id)
    (same : ∀ id key, after.reference? id key = before.reference? id key) : Keys origins before after :=
  ⟨raws, fun id key _ => same id key ▸ .same _⟩

theorem refl (tree : ScopeTree) : Keys origins tree tree := of_references (fun _ => rfl) fun _ _ => rfl

theorem trans (one : Keys origins first second) (two : Keys origins second third) :
    Keys origins first third where
  raws := fun named => (two.raws (one.raws named ▸ named)).trans (one.raws named)
  becomes := by
    intro id key named
    refine ((one.becomes id named).mono fun other path => ?_).trans (two.becomes id named)
    rw [two.raws (path ▸ named), path]

/-- What leads somewhere stays as it is. -/
theorem resolved (keys : Keys origins before after) (named : key ≠ "")
    (leads : before.reference? id key = some (.resolved target)) :
    after.reference? id key = some (.resolved target) := by
  have becomes := keys.becomes id named
  rw [leads] at becomes
  generalize after.reference? id key = later at becomes ⊢
  cases becomes with
  | same => rfl
  | leads open_ => exact absurd rfl (open_ target)

/-- What waits under a path that no scope has waits on. -/
theorem unresolved (keys : Keys origins before after) (foreign : after.Foreign path) (named : path ≠ "")
    {origin : ScopeId} (waits : before.reference? id path = some (.unresolved path origin)) :
    after.reference? id path = some (.unresolved path origin) := by
  have becomes := keys.becomes id named
  rw [waits] at becomes
  generalize after.reference? id path = later at becomes ⊢
  cases becomes with
  | same => rfl
  | leads _ at_ => exact absurd at_ (foreign _)

end Keys

/-- Whether all that an entity keeps under keys waits for them, looked up from the root, or leads to the
scopes of these paths. -/
def Keyed (tree : ScopeTree) (id : ScopeId) : Prop :=
  ∀ {key reference}, key ≠ "" → tree.reference? id key = some reference →
    reference = .unresolved key ScopeTree.root ∨ ∃ target,
      reference = .resolved target ∧ tree.raw target = key

theorem Keyed.of_vacant (vacant : tree.entity? id = none) : tree.Keyed id := by
  intro key reference _ kept
  rw [reference?_of_vacant vacant] at kept
  cases kept

theorem Keyed.keys (keyed : before.Keyed id) (keys : Keys (· = ScopeTree.root) before after) :
    after.Keyed id := by
  intro key reference named kept
  have becomes := keys.becomes id named
  rw [kept] at becomes
  cases former : before.reference? id key with
  | none =>
    rw [former] at becomes
    cases becomes with
    | waits from_ => exact .inl (from_ ▸ rfl)
    | leads _ path => exact .inr ⟨_, rfl, path⟩
  | some old =>
    rw [former] at becomes
    cases becomes with
    | same =>
      refine (keyed named former).imp_right fun ⟨target, same, path⟩ => ⟨target, same, ?_⟩
      rw [keys.raws (path ▸ named), path]
    | leads _ path => exact .inr ⟨_, rfl, path⟩

end ScopeTree

namespace Discovery
open ScopeTree Relation

variable {tree before after : ScopeTree} {origins : ScopeId → Prop}

/-! ### The writes of a walk -/

/-- Whether evidence waits for nothing but names that are looked up from some scopes. -/
def Evidence.WaitsFrom (origins : ScopeId → Prop) (evidence : Evidence) : Prop :=
  ∀ target origin, evidence.reference = some (.unresolved target origin) → origins origin

private theorem Evidence.becomes_absorb {evidence : Evidence} (waits : evidence.WaitsFrom origins)
    (id : ScopeId) (entity : Entity) (key : String) :
    Becomes origins tree key (entity.references.get? key)
      ((evidence.absorb tree id entity).1.references.get? key) := by
  unfold absorb
  cases taken : evidence.referenceOf id with
  | none => exact .same _
  | some reference =>
    have given := (Option.filter_eq_some_iff.1 taken).1
    dsimp only
    by_cases better : improves entity.references (referenceKey tree reference) reference = true
    · rw [if_pos better]
      dsimp only
      rw [OrderedMap.get?_insert]
      split
      next at_ =>
        subst at_
        cases reference with
        | unresolved target origin =>
          have free : entity.references.get? target = Option.none := by
            cases known : entity.references.get? target with
            | none => rfl
            | some old => simp [improves, referenceKey, known, Reference.isResolved] at better
          simp only [referenceKey, free]
          exact .waits (waits target origin given)
        | resolved target =>
          refine .leads (fun other known => ?_) rfl
          simp [improves, known, Reference.isResolved] at better
      next => exact .same _
    · rw [if_neg better]
      exact .same _

private theorem keys_applyEvidence (tree : ScopeTree) (id : ScopeId) {evidence : Evidence}
    (waits : evidence.WaitsFrom origins) :
    Keys origins tree (applyEvidence tree id evidence).1 := by
  cases held : tree.entity? id with
  | none => rw [applyEvidence_vacant tree held]; exact .refl tree
  | some entity =>
    rw [applyEvidence_held tree held]
    have same := sameShape_setEntity tree id (evidence.absorb tree id entity).1
    refine ⟨fun _ => same.raw _, fun other key _ => ?_⟩
    by_cases equal : other = id
    · subst equal
      rw [reference?_of_held held, reference?_of_held (entity?_setEntity_self (index_lt_of_entity? held) _)]
      exact (Evidence.becomes_absorb waits other entity key).mono fun _ path => (same.raw _).trans path
    · rw [reference?_setEntity_other equal]
      exact .same _

private theorem keys_modifyEntity (tree : ScopeTree) (id : ScopeId) {f : Entity → Entity}
    (same : ∀ entity, (f entity).references = entity.references) :
    Keys origins tree (tree.modifyEntity id f) := by
  refine .of_references (fun _ => (sameShape_modifyEntity tree id f).raw _) fun other key => ?_
  rw [reference?, entity?_modifyEntity, reference?]
  split
  next equal =>
    rw [equal]
    cases tree.entity? id with
    | none => rfl
    | some entity => rw [Option.map_some, Option.bind_some, Option.bind_some, same]
  next => rfl

variable {places : EntityKind → Prop} {takes : Evidence → Prop}
  (waits : ∀ evidence, takes evidence → evidence.WaitsFrom origins)
include waits

private theorem keys_writing (write : Writing places takes before after) : Keys origins before after := by
  cases write with
  | make parent name valueType =>
    refine .of_references (fun named => ?_) fun id key => reference?_of_entity?
      (entity?_internChild valueType before parent name id)
    exact (before.grows_internChild parent name valueType).raw (index_lt_of_raw named)
  | @place id kind vacant _ =>
    refine .of_references (fun _ => (sameShape_setEntity before id _).raw _) fun other key => ?_
    by_cases equal : other = id
    · subst equal
      rw [reference?_of_vacant vacant, reference?, entity?_setEntity, if_pos rfl]
      cases before.node? other <;> rfl
    · exact reference?_setEntity_other equal _
  | name scope f => exact keys_modifyEntity before scope fun entity => by obtain ⟨references, kind⟩ := entity; cases kind <;> rfl
  | field owner f => exact keys_modifyEntity before owner fun entity => by obtain ⟨references, kind⟩ := entity; cases kind <;> rfl
  | take id given => exact keys_applyEvidence before id (waits _ given)

theorem keys_writings (writes : Writings places takes before after) : Keys origins before after := by
  induction writes with
  | refl => exact .refl before
  | tail _ last ih => exact ih.trans (keys_writing waits last)

end Discovery
end LuaClasses
