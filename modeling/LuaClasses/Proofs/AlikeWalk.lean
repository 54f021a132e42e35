import LuaClasses.Proofs.Alike
import LuaClasses.Proofs.Reach
import LuaClasses.Proofs.ShapeSweep

/-! Steps of a walk in alike trees. A step finds and makes the same scopes in both, and what takes in
evidence takes in the same. What it reports it reports in both. -/

namespace LuaClasses
open DottedName ScopeTree Discovery

variable {likeness : Likeness}

namespace ClassLook

/-- A change that says what each of the lists of a class becomes does not depend on the fields. -/
theorem steady_enterValue (f : OrderedMap String → OrderedMap String) :
    Steady fun held => { held with values := f held.values } := by
  rintro ⟨⟩ ⟨⟩ same
  cases same
  rfl

end ClassLook

namespace Discovery.Referents

variable {first second later last : ScopeTree}

theorem onward {one two : Option Reference}
    (same : Referents likeness.seen likeness.known first second one two)
    (alike : Alike likeness first second) (onward : first.Keeps later) (further : second.Keeps last) :
    Referents likeness.seen likeness.known later last one two := by
  cases same with
  | none => exact .none
  | resolved twins seen =>
    refine .resolved (alike.onward twins onward further) ?_
    rwa [raw_of_find? (onward _ _ (alike.left.shaped.find?_raw twins.left))]
  | unresolved named twins => exact .unresolved named (alike.onward twins onward further)

theorem inside {one two : Option Reference}
    (same : Referents likeness.seen likeness.known first second one two) :
    (∀ reference, one = some reference → reference.scope.index < first.size) ∧
      ∀ reference, two = some reference → reference.scope.index < second.size := by
  cases same with
  | none => exact ⟨nofun, nofun⟩
  | resolved twins =>
    exact ⟨fun _ same => by cases same; exact twins.left, fun _ same => by cases same; exact twins.right⟩
  | unresolved _ twins =>
    exact ⟨fun _ same => by cases same; exact twins.left, fun _ same => by cases same; exact twins.right⟩

end Discovery.Referents

theorem Discovery.Testify.onward {first second later last : ScopeTree} {one two : Evidence}
    (same : Testify likeness.seen likeness.known first second one two)
    (alike : Alike likeness first second) (onward : first.Keeps later) (further : second.Keeps last) :
    Testify likeness.seen likeness.known later last one two :=
  ⟨same.types, same.references.onward alike onward further⟩

theorem ScopeTree.Keeps.trans {first second third : ScopeTree} (one : first.Keeps second)
    (two : second.Keeps third) : first.Keeps third :=
  fun _ _ found => two _ _ (one _ _ found)

private theorem ScopeTree.keeps_occupy (tree : ScopeTree) (id : ScopeId) (name : String) (range : Range) :
    tree.Keeps (tree.occupy id name range) :=
  (sameShape_occupy tree id name range).keeps

namespace Alike

variable {first second : ScopeTree} {one two : ScopeId} (lasting : likeness.Lasting)

section Writes

variable (alike : Alike likeness first second)
include alike

/-- A name of a scope is entered among those that live directly in another. -/
theorem mapLocals (lasting : likeness.Lasting) (twins : Twins first second one two) {id other : ScopeId}
    (members : Twins first second id other) {f g : Members → Members}
    {h : OrderedMap String → OrderedMap String}
    (left : ∀ held, (f held).mapValues first.raw = h (held.mapValues first.raw))
    (right : ∀ held, (g held).mapValues second.raw = h (held.mapValues second.raw))
    (adds : ∀ held, ∀ entry ∈ (f held).values, entry = id ∨ entry ∈ held.values)
    (gives : ∀ held, ∀ entry ∈ (g held).values, entry = other ∨ entry ∈ held.values) :
    Alike likeness (first.modifyEntity one (Entity.mapLocals f))
      (second.modifyEntity two (Entity.mapLocals g)) := by
  refine alike.modifyEntity twins (fun {entity} held scope member => ?_)
    (fun {entity} held scope member => ?_) fun _ entity like agrees => ?_
  · rcases Entity.scopes_mapLocals adds scope member with rfl | old
    · exact members.left
    · exact alike.left.moored held scope old
  · rcases Entity.scopes_mapLocals gives scope member with rfl | old
    · exact members.right
    · exact alike.right.moored held scope old
  · rw [Entity.look_mapLocals first.raw entity left, Entity.look_mapLocals second.raw like right]
    exact lasting.mapClass (ClassLook.steady_enterValue h) agrees

/-- A class is changed in the same way. -/
theorem modifyClass (twins : Twins first second one two) {id other : ScopeId}
    (members : Twins first second id other) {f g : Class → Class} {h : ClassLook → ClassLook}
    (left : ∀ held : Class, (f held).look first.raw = h (held.look first.raw))
    (right : ∀ held : Class, (g held).look second.raw = h (held.look second.raw))
    (adds : ∀ held : Class, ∀ entry ∈ (EntityKind.class_ (f held)).scopes, entry = id ∨
      entry ∈ (EntityKind.class_ held).scopes)
    (gives : ∀ held : Class, ∀ entry ∈ (EntityKind.class_ (g held)).scopes, entry = other ∨
      entry ∈ (EntityKind.class_ held).scopes)
    (kept : ∀ {look like}, likeness.seen (first.raw one) → likeness.agrees (first.raw one) look like →
      likeness.agrees (first.raw one) (look.mapClass h) (like.mapClass h)) :
    Alike likeness (first.modifyClass one f) (second.modifyClass two g) := by
  refine alike.modifyEntity twins (fun {entity} held scope member => ?_)
    (fun {entity} held scope member => ?_) fun seen entity like agrees => ?_
  · rcases Entity.scopes_mapClass adds scope member with rfl | old
    · exact members.left
    · exact alike.left.moored held scope old
  · rcases Entity.scopes_mapClass gives scope member with rfl | old
    · exact members.right
    · exact alike.right.moored held scope old
  · rw [Entity.look_mapClass first.raw entity left, Entity.look_mapClass second.raw like right]
    exact kept seen agrees

include lasting

/-- A new variable or block is placed where nothing stands. -/
theorem place (twins : Twins first second one two) {kind other : EntityKind} (bare : kind.scopes = [])
    (like : other.scopes = [])
    (left : (Entity.new kind).look first.raw = ⟨.empty, .empty, kind.shape first.raw⟩)
    (same : (Entity.new kind).look first.raw = (Entity.new other).look second.raw) :
    Alike likeness (first.setEntity one (.new kind)) (second.setEntity two (.new other)) := by
  refine alike.setEntity twins (fun scope member => ?_) (fun scope member => ?_) fun _ => ?_
  · rw [Entity.scopes, show (Entity.new kind).kind = kind from rfl, bare] at member
    cases member
  · rw [Entity.scopes, show (Entity.new other).kind = other from rfl, like] at member
    cases member
  · rw [← same, left]
    exact lasting.fresh _ _

theorem placeVariable (twins : Twins first second one two) (name : String) (range other : Option Range) :
    Alike likeness (first.setEntity one (.new (.variable (.new name range))))
      (second.setEntity two (.new (.variable (.new name other)))) :=
  alike.place lasting twins rfl rfl rfl rfl

theorem occupy (twins : Twins first second one two) (seen : likeness.seen (first.raw one))
    (name : String) (range : Range) :
    Alike likeness (first.occupy one name range) (second.occupy two name range) := by
  unfold ScopeTree.occupy
  rw [alike.hasEntity lasting twins seen]
  split
  next => exact alike
  next => exact alike.placeVariable lasting twins name _ _

/-- What stands at scopes of the same path takes in the same evidence. -/
theorem applyEvidence (twins : Twins first second one two) (seen : likeness.seen (first.raw one))
    {evidence other : Evidence} (same : Testify likeness.seen likeness.known first second evidence other)
    (future : likeness.future (Discovery.applyEvidence first one evidence).1
      (Discovery.applyEvidence second two other).1)
    :
    Alike likeness (Discovery.applyEvidence first one evidence).1
      (Discovery.applyEvidence second two other).1 := by
  have occupied := alike.hasEntity lasting twins seen
  rw [ScopeTree.hasEntity, ScopeTree.hasEntity] at occupied
  cases held : first.entity? one with
  | none =>
    rw [held, Option.isSome_none, eq_comm, Option.isSome_eq_false_iff, Option.isNone_iff_eq_none] at occupied
    rw [applyEvidence_vacant first held, applyEvidence_vacant second occupied]
    exact alike
  | some entity =>
    rw [held, Option.isSome_some, eq_comm, Option.isSome_iff_exists] at occupied
    obtain ⟨like, reached⟩ := occupied
    have absorbed := lasting.absorb alike twins seen same held reached future
    rw [applyEvidence_held first held, applyEvidence_held second reached]
    refine alike.setEntity twins (fun scope member => ?_) (fun scope member => ?_) fun _ => absorbed
    · rcases Entity.scopes_absorb first entity evidence one scope member with ⟨reference, given, rfl⟩ | old
      · exact same.references.inside.1 reference given
      · exact alike.left.moored held scope old
    · rcases Entity.scopes_absorb second like other two scope member with ⟨reference, given, rfl⟩ | old
      · exact same.references.inside.2 reference given
      · exact alike.right.moored reached scope old

end Writes

/-! ### The writes of a walk -/

/-- Scopes that stand at the same path of alike trees, into which the trees before lead. -/
structure Finds (likeness : Likeness) (first second later last : ScopeTree) (one two : ScopeId)
    (path : String) : Prop where
  alike : Alike likeness later last
  twins : Twins later last one two
  path : later.raw one = path
  onward : first.Keeps later
  further : second.Keeps last

variable {name : String} (plain : '.' ∉ name.toList)
  (alike : Alike likeness first second) (twins : Twins first second one two)
include alike twins plain

theorem finds_internChild (valueType other : ValueType) :
    Finds likeness first second (first.internChild one name valueType).1 (second.internChild two name other).1
      (first.internChild one name valueType).2 (second.internChild two name other).2
      (child (first.raw one) name) := by
  obtain ⟨after, ids, path⟩ := alike.internChild twins plain valueType other
  exact ⟨after, ids, path, first.keeps_internChild one name valueType,
    second.keeps_internChild two name other⟩

omit plain in
include lasting in
theorem enterBlock (kind : BlockKind) (index : Nat)
    (seen : likeness.seen (child (first.raw one) (blockName kind index))) :
    Alike likeness (Discovery.enterBlock first one kind index).1
      (Discovery.enterBlock second two kind index).1 := by
  have made := alike.finds_internChild (plain_blockName kind index).1 twins .block .block
  rw [enterBlock_eq, enterBlock_eq]
  dsimp only
  rw [made.alike.hasEntity lasting made.twins (made.path ▸ seen)]
  split
  next => exact made.alike
  next => exact made.alike.place lasting made.twins rfl rfl rfl rfl

include lasting in
/-- A member of a scope, made as a variable that is entered below the scope in some way if it is missing. -/
theorem finds_member (valueType other : ValueType) (seen : likeness.seen (child (first.raw one) name))
    (range : Range) {f : ScopeId → Members → Members}
    {g : String → OrderedMap String → OrderedMap String}
    (shows : ∀ (raw : ScopeId → String) id held, (f id held).mapValues raw = g (raw id) (held.mapValues raw))
    (adds : ∀ id held, ∀ entry ∈ (f id held).values, entry = id ∨ entry ∈ held.values) :
    let made := first.internChild one name valueType
    let like := second.internChild two name other
    let entered (made : ScopeTree × ScopeId) (parent : ScopeId) : ScopeTree :=
      if made.1.hasEntity made.2 then made.1
      else (made.1.setEntity made.2 (.new (.variable (.new name (some range))))).modifyEntity parent
        (Entity.mapLocals (f made.2))
    Finds likeness first second (entered made one) (entered like two) made.2 like.2
      (child (first.raw one) name) := by
  intro made like entered
  have found : Finds likeness first second made.1 like.1 made.2 like.2 _ :=
    alike.finds_internChild plain twins valueType other
  simp only [entered]
  rw [found.alike.hasEntity lasting found.twins (found.path ▸ seen)]
  split
  next => exact found
  next =>
    have placed := found.alike.placeVariable lasting found.twins name (some range) (some range)
    have left := (sameShape_setEntity made.1 made.2 (.new (.variable (.new name (some range))))).keeps
    have right := (sameShape_setEntity like.1 like.2 (.new (.variable (.new name (some range))))).keeps
    have outer := alike.onward twins (found.onward.trans left) (found.further.trans right)
    have inner := found.alike.onward found.twins left right
    refine ⟨placed.mapLocals lasting outer inner (shows _ made.2) (fun held => ?_) (adds _) (adds _), ?_,
      ?_, ?_, ?_⟩
    · rw [inner.path]
      exact shows _ like.2 held
    · exact inner.onward placed.left.shaped placed.right.shaped (sameShape_modifyEntity _ _ _).keeps
        (sameShape_modifyEntity _ _ _).keeps
    · rw [(sameShape_modifyEntity _ _ _).raw, (sameShape_setEntity _ _ _).raw]
      exact found.path
    · exact found.onward.trans (left.trans (sameShape_modifyEntity _ _ _).keeps)
    · exact found.further.trans (right.trans (sameShape_modifyEntity _ _ _).keeps)

include lasting in
theorem finds_local (seen : likeness.seen (child (first.raw one) name)) (range : Range) :
    Finds likeness first second (defineLocal first one name range).1 (defineLocal second two name range).1
      (defineLocal first one name range).2.1 (defineLocal second two name range).2.1
      (child (first.raw one) name) := by
  have made := alike.finds_member lasting plain twins .value .value seen range
    (f := fun id held => held.insert name id) (g := fun path held => held.insert name path)
    (fun raw id held => (OrderedMap.insert_mapValues raw held name id).symm) fun _ _ _ =>
    OrderedMap.mem_values_insert
  rw [defineLocal_eq, defineLocal_eq]
  simpa only [apply_ite Prod.fst, apply_ite Prod.snd, ite_self] using made

include lasting in
private theorem finds_memberScope (seen : likeness.seen (child (first.raw one) name)) (range : Range) :
    Finds likeness first second (memberScope first one name range).1 (memberScope second two name range).1
      (memberScope first one name range).2.1 (memberScope second two name range).2.1
      (child (first.raw one) name) := by
  have made := fun valueType other => alike.finds_member lasting plain twins valueType other seen range
    (f := fun id held => held.insertNew name id) (g := fun path held => held.insertNew name path)
    (fun raw id held => (OrderedMap.insertNew_mapValues raw held name id).symm) fun _ _ _ =>
    OrderedMap.mem_values_insertNew
  unfold memberScope
  simpa only [apply_ite Prod.fst, apply_ite Prod.snd, ite_self] using made _ _

omit plain in
/-- A base of a member stands for scopes at the same path, found or made. -/
theorem finds_baseScope {base : String} (dotless : '.' ∉ base.toList) (lasting : likeness.Lasting)
    (seen : ∀ level ∈ first.levels one, likeness.seen (child level base)) :
    ∃ path, likeness.seen path ∧ Finds likeness first second (baseScope first one base).1
      (baseScope second two base).1
      (baseScope first one base).2.1 (baseScope second two base).2.1 path := by
  rw [baseScope_eq, baseScope_eq]
  rcases (alike.agree lasting).lookup twins seen with ⟨left, right⟩ | ⟨found, other,
    left, right, ids, visible⟩
  · rw [left, right]
    have here : first.raw one ∈ first.levels one := List.mem_map_of_mem (self_mem_ancestors first one)
    exact ⟨_, seen _ here, alike.finds_internChild dotless twins .table .table⟩
  · rw [left, right]
    exact ⟨_, visible, alike, ids, rfl, fun _ _ found => found, fun _ _ found => found⟩

theorem finds_internField :
    Finds likeness first second (first.internField one name).1 (second.internField two name).1
      (first.internField one name).2
      (second.internField two name).2 (child (child (first.raw one) fieldsName) name) := by
  have fields := alike.finds_internChild (show '.' ∉ fieldsName.toList by decide) twins .table .table
  have field := fields.alike.finds_internChild plain fields.twins .field .field
  exact ⟨field.alike, field.twins, field.path.trans (by rw [fields.path]),
    fields.onward.trans field.onward, fields.further.trans field.further⟩

omit plain in
include lasting in
/-- A field is listed by its class. -/
theorem listField {id other : ScopeId} (members : Twins first second id other) (name : String) :
    Alike likeness (first.modifyClass one fun held => { held with fields := held.fields.insertNew name id })
      (second.modifyClass two fun held => { held with fields := held.fields.insertNew name other }) := by
  have adds : ∀ id, ∀ held : Class, ∀ entry ∈ (EntityKind.class_ { held with fields := held.fields.insertNew name id }).scopes,
      entry = id ∨ entry ∈ (EntityKind.class_ held).scopes := by
    intro id held entry inside
    have values : entry ∈ (held.fields.insertNew name id).values → _ := OrderedMap.mem_values_insertNew
    simp only [EntityKind.scopes, List.mem_cons, List.mem_append] at inside ⊢
    tauto
  refine alike.modifyClass twins members
    (h := fun held => { held with fields := held.fields.insertNew name (first.raw id) })
    (fun held => ?_) (fun held => ?_) (adds id) (adds other) fun _ agrees =>
    lasting.mapClass (fun _ _ same => same) agrees
  · simp only [Class.look, OrderedMap.insertNew_mapValues]
  · simp only [Class.look, members.path, OrderedMap.insertNew_mapValues]

end Alike

/-! ### Assignments -/

namespace Alike

variable {first second : ScopeTree} (lasting : likeness.Lasting) (alike : Alike likeness first second)
  {one two : Frame} {evidence other : Evidence}
  (same : Testify likeness.seen likeness.known first second evidence other)
include lasting alike same

/-- A field of the instance is assigned. -/
theorem assignField {owner like : ScopeId} (nearest : first.nearestClass one.scope = some owner)
    (around : second.nearestClass two.scope = some like)
    (twins : Twins first second owner like) {name : String}
    (plain : '.' ∉ name.toList) (seen : likeness.seen (child (child (first.raw owner) fieldsName) name))
    (range : Range)
    (future : likeness.future (Discovery.assignField first one name evidence range).1
      (Discovery.assignField second two name other range).1) :
    Alike likeness (Discovery.assignField first one name evidence range).1
      (Discovery.assignField second two name other range).1 := by
  have made := alike.finds_internField plain twins
  rw [assignField_eq first nearest, assignField_eq second around] at future ⊢
  dsimp only at future ⊢
  generalize first.internField owner name = one, second.internField like name = two at future made ⊢
  have occupied := made.alike.occupy lasting made.twins (made.path ▸ seen) name range
  have here := one.1.keeps_occupy one.2 name range
  have there := two.1.keeps_occupy two.2 name range
  have member := made.alike.onward made.twins here there
  have listed := occupied.listField lasting
    (alike.onward twins (made.onward.trans here) (made.further.trans there)) member name
  have left := (sameShape_modifyEntity (one.1.occupy one.2 name range) owner
    (Entity.mapClass fun held => { held with fields := held.fields.insertNew name one.2 })).keeps
  have right := (sameShape_modifyEntity (two.1.occupy two.2 name range) like
    (Entity.mapClass fun held => { held with fields := held.fields.insertNew name two.2 })).keeps
  refine listed.applyEvidence lasting (occupied.onward member left right) ?_ ?_ future
  · rw [ScopeTree.modifyClass, (sameShape_modifyEntity _ _ _).raw, (sameShape_occupy _ _ _ _).raw, made.path]
    exact seen
  · exact same.onward alike (made.onward.trans (here.trans left)) (made.further.trans (there.trans right))

/-- A member of something else is assigned. -/
theorem assignMember (twins : Twins first second one.scope two.scope) {base name : String}
    (dotless : '.' ∉ base.toList)
    (plain : '.' ∉ name.toList) (seen : ∀ level ∈ first.levels one.scope, likeness.seen (child level base))
    (below : ∀ path, likeness.seen path → likeness.seen (child path name)) (range : Range)
    (future : likeness.future (Discovery.assignMember first one base name evidence range).1
      (Discovery.assignMember second two base name other range).1) :
    Alike likeness (Discovery.assignMember first one base name evidence range).1
      (Discovery.assignMember second two base name other range).1 := by
  obtain ⟨path, visible, holder⟩ := alike.finds_baseScope twins dotless lasting seen
  have inner := below path visible
  rw [← holder.path] at inner
  have member := holder.alike.finds_memberScope lasting plain holder.twins inner range
  rw [assignMember_eq, assignMember_eq] at future ⊢
  dsimp only at future ⊢
  have sameKind := member.alike.variableAt? lasting member.twins (member.path ▸ inner)
  by_cases isVariable : ((memberScope (baseScope second two.scope base).1
    (baseScope second two.scope base).2.1 name range).1.variableAt?
      (memberScope (baseScope second two.scope base).1 (baseScope second two.scope base).2.1 name
        range).2.1).isSome = true
  · rw [if_pos isVariable, if_pos (sameKind.trans isVariable)] at future ⊢
    refine member.alike.applyEvidence lasting member.twins (member.path ▸ inner) ?_ future
    exact same.onward alike (holder.onward.trans member.onward) (holder.further.trans member.further)
  · rw [if_neg isVariable, if_neg (sameKind ▸ isVariable)]
    exact member.alike

end Alike

/-! ### Steps of bodies -/

namespace Discovery

/-- Problems of two states. The first may have more of those that are given. -/
structure Echoes (gone first second : List Diagnostic) : Prop where
  subset : second ⊆ first
  others : (first.filter fun problem => problem ∉ gone) = second.filter fun problem => problem ∉ gone

namespace Echoes

theorem refl (gone problems : List Diagnostic) : Echoes gone problems problems := ⟨List.Subset.refl _, rfl⟩

variable {gone : List Diagnostic} {one two : State} (echoes : Echoes gone one.diagnostics two.diagnostics)
include echoes

theorem warn (kind : DiagnosticKind) (message : String) (range : Option Range) :
    Echoes gone (one.warn kind message range).diagnostics (two.warn kind message range).diagnostics := by
  have other : (⟨kind, message, range⟩ : Diagnostic) ∉ gone →
      ((⟨kind, message, range⟩ : Diagnostic) ∈ one.diagnostics ↔
        ⟨kind, message, range⟩ ∈ two.diagnostics) := by
    intro kept
    have filtered := congrArg ((⟨kind, message, range⟩ : Diagnostic) ∈ ·) echoes.others
    simpa [List.mem_filter, kept] using filtered
  unfold State.warn
  dsimp only
  split
  next known =>
    split
    next => exact echoes
    next new =>
      have left : (⟨kind, message, range⟩ : Diagnostic) ∈ gone := by_contra fun kept =>
        new ((other kept).1 known)
      refine ⟨List.append_subset.2 ⟨echoes.subset, fun _ member => List.mem_singleton.1 member ▸ known⟩, ?_⟩
      rw [List.filter_append, echoes.others]
      simp [left]
  next new =>
    rw [if_neg fun known => new (echoes.subset known)]
    refine ⟨List.append_subset.2 ⟨fun _ member => List.mem_append_left _ (echoes.subset member),
      List.subset_append_right _ _⟩, ?_⟩
    rw [List.filter_append, List.filter_append, echoes.others]

/-- A problem that may be missing in the second state is reported in the first only. -/
theorem warnFirst {kind : DiagnosticKind} {message : String} {range : Option Range}
    (left : ⟨kind, message, range⟩ ∈ gone) :
    Echoes gone (one.warn kind message range).diagnostics two.diagnostics := by
  unfold State.warn
  dsimp only
  split
  next => exact echoes
  next =>
    refine ⟨fun _ member => List.mem_append_left _ (echoes.subset member), ?_⟩
    rw [List.filter_append, ← echoes.others]
    simp [left]

end Echoes

/-- States with alike trees and the same problems but for given ones. -/
structure AlikeStates (gone : List Diagnostic) (likeness : Likeness) (first second : State) : Prop where
  trees : Alike likeness first.tree second.tree
  problems : Echoes gone first.diagnostics second.diagnostics

namespace AlikeStates

variable {gone : List Diagnostic} (lasting : likeness.Lasting) (everywhere : ∀ path, likeness.seen path)
  {first second : State}
  (alike : AlikeStates gone likeness first second)
include alike

theorem withTree {one two : ScopeTree} (trees : Alike likeness one two) :
    AlikeStates gone likeness (first.withTree one) (second.withTree two) :=
  ⟨trees, alike.problems⟩

theorem warn (kind : DiagnosticKind) (message : String) (range : Option Range) :
    AlikeStates gone likeness (first.warn kind message range) (second.warn kind message range) := by
  refine ⟨?_, alike.problems.warn kind message range⟩
  rw [State.tree_warn, State.tree_warn]
  exact alike.trees

variable {classes : List String} {one two : Frame}
  (readers : Readers likeness.seen likeness.known classes first.tree second.tree one two)
  {evidence other : Evidence} (same : Testify likeness.seen likeness.known first.tree
    second.tree evidence other)
include lasting everywhere

omit everywhere in
include readers same in
theorem defineLocal {name : String} (plain : '.' ∉ name.toList) (range : Range)
    (seen : likeness.seen (child (first.tree.raw one.scope) name))
    (future : likeness.future
      (applyEvidence (Discovery.defineLocal first.tree one.scope name range).1
        (Discovery.defineLocal first.tree one.scope name range).2.1 evidence).1
      (applyEvidence (Discovery.defineLocal second.tree two.scope name range).1
        (Discovery.defineLocal second.tree two.scope name range).2.1 other).1) :
    Alike likeness
      (applyEvidence (Discovery.defineLocal first.tree one.scope name range).1
        (Discovery.defineLocal first.tree one.scope name range).2.1 evidence).1
      (applyEvidence (Discovery.defineLocal second.tree two.scope name range).1
        (Discovery.defineLocal second.tree two.scope name range).2.1 other).1 := by
  have made := alike.trees.finds_local lasting plain readers.scope seen range
  exact made.alike.applyEvidence lasting made.twins (made.path ▸ seen)
    (same.onward alike.trees made.onward made.further) future

include readers same in
theorem assignName {name : String} (plain : '.' ∉ name.toList) (named : likeness.known name) (range : Range)
    (future : likeness.future (Discovery.assignName first one name evidence range).1.tree
      (Discovery.assignName second two name other range).1.tree) :
    AlikeStates gone likeness (Discovery.assignName first one name evidence range).1
      (Discovery.assignName second two name other range).1 := by
  unfold Discovery.assignName at future ⊢
  rcases (alike.trees.agree lasting).lookup readers.scope (readers.seen name named) with ⟨left,
    right⟩ | ⟨found, id, left, right, twins, seen⟩
  · rw [left, right] at future ⊢
    exact alike.withTree (alike.defineLocal lasting readers same plain range (everywhere _) future)
  · rw [left, right] at future ⊢
    dsimp only at future ⊢
    have sameKind := alike.trees.variableAt? lasting twins seen
    by_cases isVariable : (second.tree.variableAt? id).isSome = true
    · rw [if_pos isVariable, if_pos (sameKind.trans isVariable)] at future ⊢
      exact alike.withTree (alike.trees.applyEvidence lasting twins seen same future)
    · rw [if_neg isVariable, if_neg (sameKind ▸ isVariable)]
      exact alike.warn _ _ _

include readers same in
theorem assign {target : Expr} (plain : ∀ name ∈ target.names, '.' ∉ name.toList)
    (named : ∀ name ∈ target.names, likeness.known name)
    (range : Range) (future : likeness.future (Discovery.assign first one target evidence range).1.tree
      (Discovery.assign second two target other range).1.tree) :
    AlikeStates gone likeness (Discovery.assign first one target evidence range).1
      (Discovery.assign second two target other range).1 := by
  rw [← Expr.names_unparen] at plain named
  unfold Discovery.assign at future ⊢
  generalize target.unparen = form at plain named future ⊢
  cases form with
  | name name =>
    exact alike.assignName lasting everywhere readers same (plain name List.mem_cons_self)
      (named name List.mem_cons_self) range future
  | member object name =>
    have last : name ∈ (Expr.member object name).names :=
      List.mem_append_right _ (List.mem_singleton_self name)
    dsimp only at future ⊢
    cases based : object.name? with
    | none => exact alike.warn _ _ _
    | some base =>
      have first : base ∈ (Expr.member object name).names :=
        List.mem_append_left _ (Expr.name_mem_names based)
      simp only [based] at future ⊢
      have sameName := readers.isAlias base
      by_cases instanceName : two.isAlias base = true
      · rw [if_pos instanceName, if_pos (sameName.trans instanceName)] at future ⊢
        obtain ⟨owner, like, nearest, around, class_⟩ :=
          readers.instances_of_isAlias (sameName.trans instanceName)
        exact alike.withTree
          (alike.trees.assignField lasting same nearest around class_.twins (plain name last)
            (everywhere _) range future)
      · rw [if_neg instanceName, if_neg (sameName ▸ instanceName)] at future ⊢
        exact alike.withTree (alike.trees.assignMember lasting same readers.scope
          (plain base first) (plain name last)
          (readers.seen base (named base first)) (fun _ _ => everywhere _) range future)
  | _ => exact alike.warn _ _ _

include readers in
/-- A step of a body keeps states alike. -/
theorem action (config : DiscoveryConfig)
    (returns : (one.function = none ∧ two.function = none) ∨
      ∃ id other, one.function = some id ∧ two.function = some other ∧ Twins first.tree second.tree id other)
    {action : Action} (plain : ∀ name ∈ action.names, '.' ∉ name.toList)
    (named : ∀ name ∈ action.names, likeness.known name)
    (told : ∀ expr ∈ action.values, ∀ target ∈ expr.targets config classes, likeness.known target)
    (range : Range)
    (future : likeness.future (action.run config one range first).1.tree
      (action.run config two range second).1.tree) :
    AlikeStates gone likeness (action.run config one range first).1
      (action.run config two range second).1 := by
  cases action with
  | block kind index =>
    exact alike.withTree (alike.trees.enterBlock lasting readers.scope kind index (everywhere _))
  | local_ name value =>
    have same := readers.classifyValue config fun expr (given : expr ∈ value) =>
      told expr (Option.mem_toList.2 given)
    exact alike.withTree (alike.defineLocal lasting readers same (plain name List.mem_cons_self)
      range (everywhere _) future)
  | target expr value =>
    have same := readers.classifyValue config fun expr (given : expr ∈ value) =>
      told expr (Option.mem_toList.2 given)
    exact alike.assign lasting everywhere readers same plain named range future
  | return_ values =>
    have same := readers.returnEvidence config fun expr (given : expr ∈ values.head?) =>
      told expr (Option.mem_toList.2 given)
    simp only [Action.run] at future ⊢
    rcases returns with ⟨left, right⟩ | ⟨id, other, left, right, twins⟩
    · rw [left, right]
      exact alike
    · rw [left, right] at future ⊢
      exact alike.withTree (alike.trees.applyEvidence lasting twins (everywhere _) same future)

end AlikeStates
end Discovery

end LuaClasses
