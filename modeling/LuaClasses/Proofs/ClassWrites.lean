import LuaClasses.Proofs.FieldWalk
import LuaClasses.Proofs.ShapeMembers
import LuaClasses.Proofs.TreeWrites

/-! What the entry of a member leaves alone. All of its writes are to one class and below it, so the
scopes and the other classes stay as they are. -/

namespace LuaClasses
namespace ScopeTree

variable {tree before after : ScopeTree}

theorem Stays.parent? (stays : before.Stays after) {id parent : ScopeId}
    (above : before.parent? id = some parent) :
    after.parent? id = some parent := by
  obtain ⟨node, present, outer⟩ := Option.bind_eq_some_iff.1 above
  obtain ⟨later, reached, kept⟩ := stays present
  rw [ScopeTree.parent?, reached, Option.bind_some, kept.parent, outer]

theorem Stays.mem_ancestors (stays : before.Stays after) {outer inner : ScopeId}
    (around : outer ∈ before.ancestors inner) :
    outer ∈ after.ancestors inner := by
  induction inner using ancestors_induction before with
  | below id parent above older ih =>
    rw [ancestors_of_older above older] at around
    rw [ancestors_of_older (stays.parent? above) older]
    exact List.mem_cons.2 ((List.mem_cons.1 around).imp_right ih)
  | outermost id outermost =>
    rw [outermost.ancestors, List.mem_singleton] at around
    exact around ▸ self_mem_ancestors after outer

theorem ClassNode.stays {id : ScopeId} (node : before.ClassNode id) (stays : before.Stays after) :
    after.ClassNode id := by
  obtain ⟨held, present, isClass⟩ := node
  obtain ⟨later, reached, kept⟩ := stays present
  exact ⟨later, reached, kept.valueType.trans isClass⟩

/-- What a write does that changes entities below one scope only, or the one on it. -/
structure Confined (outer : ScopeId) (before after : ScopeTree) : Prop where
  level : before.Level → after.Level
  stays : before.Stays after
  others : ∀ {other}, outer ∉ after.ancestors other → after.entity? other = before.entity? other

namespace Confined

variable {outer inner : ScopeId}

theorem refl (outer : ScopeId) (tree : ScopeTree) : Confined outer tree tree := ⟨id, .refl tree, fun _ => rfl⟩

theorem trans {first second third : ScopeTree} (one : Confined outer first second)
    (two : Confined outer second third) :
    Confined outer first third where
  level := two.level ∘ one.level
  stays := one.stays.trans two.stays
  others := fun outside => (two.others outside).trans
    (one.others fun around => outside (two.stays.mem_ancestors around))

theorem widen (confined : Confined inner before after) (formed : after.Formed)
    (around : outer ∈ after.ancestors inner) :
    Confined outer before after where
  level := confined.level
  stays := confined.stays
  others := fun outside => confined.others fun within => outside (mem_ancestors_trans formed around within)

theorem of_sameShape (same : SameShape after before)
    (others : ∀ {other}, outer ∉ before.ancestors other → after.entity? other = before.entity? other) :
    Confined outer before after where
  level := (·.of_sameShape same)
  stays := .of_sameShape same
  others := fun outside => others (same.ancestors _ ▸ outside)

end Confined

private theorem confined_internChild (outer : ScopeId) (tree : ScopeTree) {name : String}
    (plain : '.' ∉ name.toList) (parent : ScopeId) (valueType : ValueType) (other : valueType ≠ .class_) :
    Confined outer tree (tree.internChild parent name valueType).1 where
  level := (tree.neutral_internChild plain parent valueType other).level
  stays := tree.stays_intern _ _ _ _
  others := fun _ => entity?_internChild valueType tree parent name _

private theorem confined_setEntity {outer id : ScopeId} (around : outer ∈ tree.ancestors id)
    (entity : Entity) :
    Confined outer tree (tree.setEntity id entity) := by
  refine .of_sameShape (sameShape_setEntity tree id entity) fun outside => ?_
  rw [entity?_setEntity, if_neg]
  rintro rfl
  exact outside around

private theorem confined_modifyEntity {outer id : ScopeId} (around : outer ∈ tree.ancestors id)
    (f : Entity → Entity) :
    Confined outer tree (tree.modifyEntity id f) := by
  refine .of_sameShape (sameShape_modifyEntity tree id f) fun outside => ?_
  rw [entity?_modifyEntity, if_neg]
  rintro rfl
  exact outside around

theorem confined_clearDescendants (formed : tree.Formed) {outer id : ScopeId}
    (around : outer ∈ tree.ancestors id) :
    Confined outer tree (tree.clearDescendants id) := by
  refine .of_sameShape (sameShape_clearDescendants tree id) fun outside => ?_
  rw [entity?_clearDescendants, if_neg]
  exact fun below => outside (mem_ancestors_trans formed around (mem_ancestors_of_descendant formed below))

/-- A scope that hangs below another is not around it. -/
theorem Formed.not_around (formed : tree.Formed) {id parent : ScopeId}
    (above : tree.parent? id = some parent) :
    id ∉ tree.ancestors parent :=
  fun around => absurd (index_le_of_mem_ancestors around) (Nat.not_le_of_lt (formed.older above))

theorem Formed.not_around_sibling (formed : tree.Formed) {first second parent : ScopeId}
    (left : tree.parent? first = some parent) (right : tree.parent? second = some parent)
    (apart : first ≠ second) :
    first ∉ tree.ancestors second :=
  fun around => apart (formed.eq_of_mem_ancestors left right around (self_mem_ancestors tree second))

/-- What is confined to one class leaves alone all that is on another and below it. -/
theorem Confined.apart {owner other id : ScopeId} (confined : Confined owner before after)
    (last : after.Formed) (left : after.parent? owner = some root)
    (right : after.parent? other = some root) (apart : other ≠ owner)
    (below : other ∈ after.ancestors id) : after.entity? id = before.entity? id :=
  confined.others fun around => apart (last.eq_of_mem_ancestors right left below around)

end ScopeTree

namespace Discovery
open ScopeTree

variable {tree : ScopeTree}

private theorem confined_applyEvidence {outer target : ScopeId} (around : outer ∈ tree.ancestors target)
    (evidence : Evidence) :
    Confined outer tree (applyEvidence tree target evidence).1 := by
  cases held : tree.entity? target with
  | none => rw [applyEvidence_vacant tree held]; exact .refl outer tree
  | some entity => rw [applyEvidence_held tree held]; exact confined_setEntity around _

/-! ### Functions -/

private theorem confined_declareParams {id : ScopeId} {names : List String}
    (plain : ∀ name ∈ names, '.' ∉ name.toList) (formed : tree.Formed) (level : tree.Level)
    (inside : id.index < tree.size) :
    Confined id tree (declareParams id names tree).1 := by
  induction names generalizing tree with
  | nil => exact .refl id tree
  | cons name rest ih =>
    have dotless := plain name List.mem_cons_self
    have made := confined_internChild id tree dotless id .value nofun
    have hangs := level.dotless.child?_internChild formed dotless inside .value
    have revised := (revises_internChild tree inside name .value).trans
      (revises_setEntity (tree.internChild id name .value).1 (tree.internChild id name .value).2
        (.new (.variable (.new name none))) (fits_variable _ _ _))
    have grown := formed.internChild inside name .value
    rw [declareParams]
    dsimp only
    generalize tree.internChild id name .value = first at made hangs revised grown ⊢
    have below : id ∈ first.1.ancestors first.2 := by
      rw [ancestors_of_parent? grown (grown.parent?_of_child hangs)]
      exact List.mem_cons_of_mem _ (self_mem_ancestors _ id)
    have placed := made.trans (confined_setEntity below (.new (.variable (.new name none))))
    obtain ⟨last, kept⟩ := revised formed
    exact placed.trans (ih (fun other member => plain other (List.mem_cons_of_mem _ member))
      last (placed.level level)
      (kept.index_lt formed inside))

theorem confined_placeParams {id : ScopeId} {names : List String} (plain : ∀ name ∈ names, '.' ∉ name.toList)
    (formed : tree.Formed) (level : tree.Level) (inside : id.index < tree.size) (entity : Entity) :
    Confined id tree ((declareParams id names tree).1.setEntity id entity) :=
  (confined_declareParams plain formed level inside).trans
  (confined_setEntity (self_mem_ancestors _ id) entity)

private theorem confined_vacate (state : State) (formed : state.tree.Formed) (id : ScopeId)
    (message : String) (range : Range) :
    Confined id state.tree (state.vacate id message range).tree := by
  unfold State.vacate
  split
  next => exact confined_clearDescendants formed (self_mem_ancestors _ id)
  next => exact .refl id _

private theorem confined_placeFunction {id : ScopeId} {body : FunctionBody}
    (params : ∀ name ∈ body.params, '.' ∉ name.toList) (formed : tree.Formed) (level : tree.Level)
    (inside : id.index < tree.size) (name : String) (kind : FunctionKind) :
    Confined id tree (placeFunction tree id name kind body) :=
  confined_placeParams params formed level inside _

/-- A scope that was filled below a class, while nothing else was written. -/
structure InPlace (before after : ScopeTree) (owner id : ScopeId) (name : String) : Prop where
  formed : after.Formed
  level : after.Level
  hangs : after.child? owner name = some id
  confined : Confined id before after

namespace InPlace

variable {before after : ScopeTree} {owner id : ScopeId} {name : String}
  (place : InPlace before after owner id name)
include place

theorem around : owner ∈ after.ancestors id := by
  rw [ancestors_of_parent? place.formed (place.formed.parent?_of_child place.hangs)]
  exact List.mem_cons_of_mem _ (self_mem_ancestors after owner)

theorem owner_kept : after.entity? owner = before.entity? owner :=
  place.confined.others (place.formed.not_around (place.formed.parent?_of_child place.hangs))

theorem sibling_kept {other : ScopeId} (above : before.parent? other = some owner) (apart : other ≠ id) :
    after.entity? other = before.entity? other :=
  place.confined.others (place.formed.not_around_sibling (place.formed.parent?_of_child place.hangs)
    (place.confined.stays.parent? above) apart.symm)

/-- A member that is not the scope of the fields is not around any field. -/
theorem field_apart {field : ScopeId} {called : String} (there : before.FieldAt owner called field)
    (other : name ≠ fieldsName) :
    field ≠ owner ∧ id ∉ after.ancestors field := by
  obtain ⟨fields, first, inner⟩ := there
  have outer := place.formed.parent?_of_child (place.confined.stays.child? first)
  have inner := place.formed.parent?_of_child (place.confined.stays.child? inner)
  have own := place.formed.parent?_of_child place.hangs
  have older := Nat.lt_trans (place.formed.older outer) (place.formed.older inner)
  refine ⟨fun equal => Nat.lt_irrefl _ (equal ▸ older), fun around => ?_⟩
  rw [ancestors_of_parent? place.formed inner] at around
  rcases List.mem_cons.1 around with rfl | above
  · cases own.symm.trans inner
    exact Nat.lt_irrefl _ (place.formed.older outer)
  · refine place.formed.not_around_sibling own outer ?_ above
    rintro rfl
    exact other (place.formed.child_unique place.hangs (place.confined.stays.child? first)).2

/-- The class may enter in its lists what was put in place. -/
theorem listed (f : Class → Class) : Confined owner before (after.modifyClass owner f) :=
  (place.confined.widen place.formed place.around).trans
  (confined_modifyEntity (self_mem_ancestors after owner) _)

end InPlace

theorem inPlace_function {state : State} (formed : state.tree.Formed) (level : state.tree.Level)
    {owner : ScopeId} (inside : owner.index < state.tree.size) {name : String}
    (plain : '.' ∉ name.toList) (kind : FunctionKind) {body : FunctionBody}
    (params : ∀ name ∈ body.params, '.' ∉ name.toList) (message : String) (range : Range) :
    let made := state.tree.internChild owner name .function
    let vacated := (state.withTree made.1).vacate made.2 message range
    InPlace state.tree (placeFunction vacated.tree made.2 name kind body) owner made.2 name := by
  dsimp only
  have made := fun outer => confined_internChild outer state.tree plain owner .function nofun
  have hangs := level.dotless.child?_internChild formed plain inside .function
  have grown := formed.internChild inside name .function
  have there := index_internChild .function state.tree owner name
  generalize state.tree.internChild owner name .function = first at made hangs grown there ⊢
  have vacated := (made first.2).trans (confined_vacate (state.withTree first.1) grown first.2 message range)
  have same := sameShape_vacate (state.withTree first.1) first.2 message range
  have cleared : ((state.withTree first.1).vacate first.2 message range).tree.Formed := by
    unfold State.vacate
    split
    next => exact (revises_clearDescendants first.1 first.2 grown).1
    next => exact grown
  generalize (state.withTree first.1).vacate first.2 message range = second at vacated same cleared ⊢
  have inside : first.2.index < second.tree.size := by rw [same.size]; exact there
  have placed := confined_placeFunction params cleared (vacated.level level) inside name kind
  exact ⟨(revises_placeFunction inside name kind body cleared).1, placed.level (vacated.level level),
    placed.stays.child? ((same.child? _ _).trans hangs), vacated.trans placed⟩

theorem defineFunction_inPlace {state : State} (formed : state.tree.Formed) (level : state.tree.Level)
    {owner : ScopeId} (inside : owner.index < state.tree.size) {name : String}
    (plain : '.' ∉ name.toList) (indexer : Indexer) {body : FunctionBody}
    (params : ∀ name ∈ body.params, '.' ∉ name.toList) (range : Range) :
    ∃ placed id, InPlace state.tree placed owner id name ∧
      (defineFunction owner name indexer body range state).tree =
        placed.modifyClass owner (fun held => Class.enterFunction held indexer name id) ∧
      (defineFunction owner name indexer body range state).classes =
        state.classes.map fun bodies => if bodies.owner = owner then bodies.enterFunction indexer name
          id body else bodies := by
  rw [defineFunction_eq]
  refine ⟨_, _, inPlace_function formed level inside plain
    (FunctionKind.ofIndexer indexer) params _ range, rfl, ?_⟩
  simp only [State.modifyBodies, State.withTree, classes_vacate]

/-! ### Values -/

theorem inPlace_value (formed : tree.Formed) (level : tree.Level) {owner : ScopeId}
    (inside : owner.index < tree.size) {name : String} (plain : '.' ∉ name.toList) :
    InPlace tree (tree.internChild owner name .value).1 owner
      (tree.internChild owner name .value).2 name where
  formed := formed.internChild inside name .value
  level := (tree.neutral_internChild plain owner .value nofun).level level
  hangs := level.dotless.child?_internChild formed plain inside .value
  confined := confined_internChild _ tree plain owner .value nofun

private theorem confined_placeValue {owner id : ScopeId} (around : owner ∈ tree.ancestors id)
    (name : String) (range : Range) :
    Confined owner tree (placeValue owner name range tree id) := by
  unfold placeValue
  split
  next => exact .refl owner tree
  next => exact (confined_setEntity around _).trans (confined_modifyEntity (self_mem_ancestors _ owner) _)

theorem confined_defineValue (config : DiscoveryConfig) (formed : tree.Formed) (level : tree.Level)
    {owner : ScopeId} (inside : owner.index < tree.size) {name : String} (plain : '.' ∉ name.toList)
    (value : Option Expr) (range : Range) :
    Confined owner tree (defineValue config owner name value range tree) := by
  have place := inPlace_value formed level inside plain
  rw [defineValue_eq]
  dsimp only
  generalize tree.internChild owner name .value = made at place ⊢
  have placed := confined_placeValue place.around name range
  have made := (place.confined.widen place.formed place.around).trans placed
  refine made.trans (applyValue_cases config owner value (.refl owner _) fun evidence => ?_)
  exact confined_applyEvidence (placed.stays.mem_ancestors place.around) evidence

/-! ### Constructors -/

theorem confined_dropConstructor (formed : tree.Formed) {owner constructor : ScopeId}
    (above : tree.parent? constructor = some owner) :
    Confined owner tree (dropConstructor owner constructor tree) := by
  have around : ∀ {id : ScopeId}, tree.parent? id = some owner → owner ∈ tree.ancestors id := fun above => by
    rw [ancestors_of_parent? formed above]
    exact List.mem_cons_of_mem _ (self_mem_ancestors tree owner)
  have first := confined_clearDescendants formed (around above)
  have same := sameShape_clearDescendants tree constructor
  have middle := (revises_clearDescendants tree constructor formed).1
  unfold dropConstructor
  dsimp only
  generalize tree.clearDescendants constructor = cleared at first same middle ⊢
  split
  next fields hangs =>
    rw [same.child?] at hangs
    exact (first.trans (confined_clearDescendants middle
      (same.ancestors _ ▸ around (formed.parent?_of_child hangs)))).trans
      (confined_modifyEntity (self_mem_ancestors _ owner) _)
  next => exact first.trans (confined_modifyEntity (self_mem_ancestors _ owner) _)

theorem classAt?_dropConstructor (formed : tree.Formed) {owner constructor : ScopeId}
    (above : tree.parent? constructor = some owner) :
    (dropConstructor owner constructor tree).classAt? owner =
      (tree.classAt? owner).map fun held => { held with fields := .empty } := by
  have kept : ∀ {before : ScopeTree} {id : ScopeId}, before.Formed → before.parent? id = some owner →
      (before.clearDescendants id).entity? owner = before.entity? owner := fun formed above => by
    rw [entity?_clearDescendants, if_neg]
    exact fun below => formed.not_around above (mem_ancestors_of_descendant formed below)
  have first := kept formed above
  have same := sameShape_clearDescendants tree constructor
  have middle := (revises_clearDescendants tree constructor formed).1
  unfold dropConstructor
  dsimp only
  rw [classAt?_modifyClass_self, classAt?, classAt?]
  split
  next fields hangs => rw [kept middle (middle.parent?_of_child hangs), first]
  next => rw [first]

/-! ### Fields -/

/-- The field of a class that was filled, while nothing else was written. -/
structure FieldInPlace (before after : ScopeTree) (owner id : ScopeId) (name : String) : Prop where
  formed : after.Formed
  level : after.Level
  there : after.FieldAt owner name id
  confined : Confined id before after

namespace FieldInPlace

variable {before after : ScopeTree} {owner id : ScopeId} {name : String}
  (place : FieldInPlace before after owner id name)
include place

theorem parents : ∃ fields, after.parent? fields = some owner ∧ after.parent? id = some fields := by
  obtain ⟨fields, outer, inner⟩ := place.there
  exact ⟨fields, place.formed.parent?_of_child outer, place.formed.parent?_of_child inner⟩

theorem around : owner ∈ after.ancestors id := by
  obtain ⟨fields, outer, inner⟩ := place.parents
  rw [ancestors_of_parent? place.formed inner, ancestors_of_parent? place.formed outer]
  simp [self_mem_ancestors after owner]

theorem not_around_owner : id ∉ after.ancestors owner := by
  obtain ⟨fields, outer, inner⟩ := place.parents
  exact fun around => absurd (index_le_of_mem_ancestors around)
    (Nat.not_le_of_lt (Nat.lt_trans (place.formed.older outer) (place.formed.older inner)))

theorem owner_kept : after.entity? owner = before.entity? owner :=
  place.confined.others place.not_around_owner

private theorem member_kept {other : ScopeId} (above : before.parent? other = some owner) :
    after.entity? other = before.entity? other := by
  have above := place.confined.stays.parent? above
  refine place.confined.others fun around => ?_
  rw [ancestors_of_parent? place.formed above] at around
  rcases List.mem_cons.1 around with rfl | outer
  · obtain ⟨fields, outer, inner⟩ := place.parents
    cases above.symm.trans inner
    exact Nat.lt_irrefl _ (place.formed.older outer)
  · exact place.not_around_owner outer

private theorem field_kept {other : ScopeId} {called : String}
    (there : before.FieldAt owner called other) (apart : called ≠ name) :
    after.FieldAt owner called other ∧ after.entity? other = before.entity? other := by
  obtain ⟨shared, outer, inner⟩ := there
  have outer := place.confined.stays.child? outer
  have inner := place.confined.stays.child? inner
  refine ⟨⟨shared, outer, inner⟩, place.confined.others ?_⟩
  obtain ⟨fields, first, second⟩ := place.there
  cases outer.symm.trans first
  refine place.formed.not_around_sibling (place.formed.parent?_of_child second)
    (place.formed.parent?_of_child inner) ?_
  rintro rfl
  exact apart (place.formed.child_unique inner second).2

theorem listed (f : Class → Class) : Confined owner before (after.modifyClass owner f) :=
  (place.confined.widen place.formed place.around).trans
  (confined_modifyEntity (self_mem_ancestors after owner) _)

end FieldInPlace

theorem placeField_inPlace (formed : tree.Formed) (level : tree.Level) {owner : ScopeId}
    (inside : owner.index < tree.size) {name : String} (plain : '.' ∉ name.toList) (range : Range)
    (type : LuaType) :
    ∃ placed id, FieldInPlace tree placed owner id name ∧
      placed.entity? id = some (.new (.variable ⟨name, .single type, some range⟩)) ∧
      placeField owner range tree name type =
        placed.modifyClass owner (fun held => { held with fields := held.fields.insert name id }) := by
  have outer := level.dotless.child?_internChild formed dotless_fieldsName inside .table
  have below := index_internChild .table tree owner fieldsName
  have middle := formed.internChild inside fieldsName .table
  have kept := (tree.neutral_internChild dotless_fieldsName owner .table nofun).level level
  have made := fun id => confined_internChild id tree dotless_fieldsName owner .table nofun
  unfold placeField internField
  dsimp only
  generalize tree.internChild owner fieldsName .table = fields at outer below middle kept made ⊢
  have inner := kept.dotless.child?_internChild middle plain below .field
  have there := index_internChild .field fields.1 fields.2 name
  have last := middle.internChild below name .field
  have lasting := (fields.1.neutral_internChild plain fields.2 .field nofun).level kept
  have grown := fun id => (made id).trans (confined_internChild id fields.1 plain fields.2 .field nofun)
  have links := (fields.1.stays_intern (DottedName.child (fields.1.raw fields.2) name) name
    (some fields.2) .field).child? outer
  change (fields.1.internChild fields.2 name .field).1.child? owner fieldsName = some fields.2 at links
  generalize fields.1.internChild fields.2 name .field = field at inner there last lasting grown links ⊢
  have same := sameShape_setEntity field.1 field.2 (.new (.variable ⟨name, .single type, some range⟩))
  refine ⟨_, field.2, ⟨?_, lasting.of_sameShape same, ⟨fields.2, ?_, ?_⟩, ?_⟩,
    entity?_setEntity_self there _, rfl⟩
  · exact last.setEntity (fits_variable _ _ _)
  · exact (same.child? _ _).trans links
  · exact (same.child? _ _).trans inner
  · exact (grown field.2).trans (confined_setEntity (self_mem_ancestors _ field.2) _)

/-- The fields of a class that come from literals, each with one of the types that were given to it. -/
def Sown (tree : ScopeTree) (owner : ScopeId) (fields : Members)
    (literals : List (String × LuaType × Range)) : Prop :=
  ∀ name id, fields.get? name = some id → tree.FieldAt owner name id ∧
    ∃ type range, (name, type, range) ∈ literals ∧ tree.entity? id =
      some (.new (.variable ⟨name, .single type, some range⟩))

/-- What entering literals does to a class that had the fields of the literals before them. -/
structure Sows (before after : ScopeTree) (owner : ScopeId) (held : Class)
    (literals : List (String × LuaType × Range)) :
    Prop where
  formed : after.Formed
  confined : Confined owner before after
  found : ∃ fields, after.classAt? owner = some { held with fields } ∧ Sown after owner fields literals
  members : ∀ {other}, before.parent? other = some owner → after.entity? other = before.entity? other

private theorem sows_placeField (formed : tree.Formed) (level : tree.Level) {owner : ScopeId}
    (inside : owner.index < tree.size) {held : Class} {fields : Members}
    (found : tree.classAt? owner = some { held with fields })
    {literals : List (String × LuaType × Range)} (sown : Sown tree owner fields literals) {name : String}
    (plain : '.' ∉ name.toList) (range : Range) (type : LuaType) :
    Sows tree (placeField owner range tree name type) owner held (literals ++ [(name, type, range)]) := by
  have revised := (revises_placeField inside range name type formed).1
  obtain ⟨placed, id, place, entity, same⟩ := placeField_inPlace formed level inside plain range type
  rw [same] at revised ⊢
  have shape := sameShape_modifyEntity placed owner
    (Entity.mapClass fun held => { held with fields := held.fields.insert name id })
  have others : ∀ {other : ScopeId}, other ≠ owner →
      (placed.modifyClass owner fun held => { held with fields := held.fields.insert name id }).entity?
      other =
        placed.entity? other := fun apart => by rw [modifyClass, entity?_modifyEntity, if_neg apart]
  have apart : id ≠ owner := fun equal => place.not_around_owner (equal ▸ self_mem_ancestors placed id)
  refine ⟨revised, place.listed _, ⟨fields.insert name id, ?_, ?_⟩, ?_⟩
  · rw [classAt?_modifyClass_self, classAt?, place.owner_kept, ← classAt?, found]
    rfl
  · intro called other listed
    rw [OrderedMap.get?_insert] at listed
    split at listed
    next equal =>
      cases listed
      obtain ⟨outer, first, second⟩ := place.there
      refine ⟨⟨outer, (shape.child? _ _).trans first, equal ▸ (shape.child? _ _).trans second⟩, type,
        range, ?_, ?_⟩
      · exact equal ▸ List.mem_append_right _ (List.mem_singleton_self _)
      · rw [others apart, entity, equal]
    next different =>
      obtain ⟨there, type, range, member, known⟩ := sown called other listed
      obtain ⟨⟨outer, first, second⟩, kept⟩ := place.field_kept there different
      refine ⟨⟨outer, (shape.child? _ _).trans first, (shape.child? _ _).trans second⟩, type, range,
        List.mem_append_left _ member, ?_⟩
      rw [others, kept, known]
      rintro rfl
      rw [classAt?, known] at found
      cases found
  · intro other above
    rw [others fun equal => absurd (formed.older (equal ▸ above)) (Nat.lt_irrefl _), place.member_kept above]

theorem Sows.trans {first second third : ScopeTree} {owner : ScopeId} {held : Class}
    {some all : List (String × LuaType × Range)} (one : Sows first second owner held some)
    (two : Sows second third owner held all) : Sows first third owner held all where
  formed := two.formed
  confined := one.confined.trans two.confined
  found := two.found
  members := fun above => (two.members (one.confined.stays.parent? above)).trans (one.members above)

theorem sows_placeFields {owner : ScopeId} {held : Class} {entries : List (String × LuaType × Range)}
    (plain : ∀ entry ∈ entries, '.' ∉ entry.1.toList) (seen : List String) {state : State}
    (formed : state.tree.Formed) (level : state.tree.Level) (inside : owner.index < state.tree.size)
    {fields : Members} (found : state.tree.classAt? owner = some { held with fields })
    {literals : List (String × LuaType × Range)} (sown : Sown state.tree owner fields literals) :
    Sows state.tree (placeFields owner entries seen state).tree owner held (literals ++ entries) := by
  induction entries generalizing seen state fields literals with
  | nil =>
    rw [List.append_nil]
    exact ⟨formed, .refl owner _, ⟨fields, found, sown⟩, fun _ => rfl⟩
  | cons entry rest ih =>
    obtain ⟨name, type, range⟩ := entry
    have first := sows_placeField formed level inside found sown (plain _ List.mem_cons_self) range type
    obtain ⟨later, known, given⟩ := first.found
    have within := (revises_placeField inside range name type formed).2.index_lt formed inside
    have turn : ∀ next : State, next.tree = placeField owner range state.tree name type →
        Sows state.tree (placeFields owner rest (name :: seen) next).tree owner held
          (literals ++ (name, type, range) :: rest) := by
      intro next same
      rw [← same] at first known given within
      rw [List.append_cons]
      exact first.trans (ih (fun other member => plain other (List.mem_cons_of_mem _ member))
        (name :: seen) first.formed
        (first.confined.level level) within known given)
    rw [placeFields]
    split
    next => exact turn _ (congrArg (placeField owner range · name type) (state.tree_warn _ _ _))
    next => exact turn _ rfl

end Discovery
end LuaClasses
