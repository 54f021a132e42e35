import LuaClasses.Proofs.AlikeMembers
import LuaClasses.Proofs.Stripping
import LuaClasses.Proofs.Thinning

/-! The entry of constructors beside states that lack one. A constructor makes its parameters and the
fields of its class, and nothing else. The next one drops both, so once it is entered nothing is left of
whether there was one before. -/

namespace LuaClasses
open DottedName ScopeTree Discovery

/-! ### What a constructor leaves alike -/

/-- How a class and its constructor may differ if a constructor is entered in one of two trees. -/
inductive Beside (owner : String) : String → Look → Look → Prop
  | class_ {look like : Look} (bare : look.shape.gathers = false)
    (same : look.fieldless = like.fieldless) : Beside owner owner look like
  | constructor {look like : Look} (left : look.shape.tag = .constructor)
    (right : like.shape.tag = .constructor) :
    Beside owner (child owner "constructor") look like

theorem Beside.fieldless {owner path : String} {look like : Look} (differ : Beside owner path look like)
    (own : path = owner) :
    look.fieldless = like.fieldless := by
  cases differ with
  | class_ _ same => exact same
  | constructor => exact absurd own (child_ne_self _ _)

private theorem Look.Close.refield {top owner : String} {look like : Look}
    (close : Look.Close top (Beside owner owner) look like) (g : OrderedMap String → OrderedMap String) :
    Look.Close top (Beside owner owner) (look.mapClass fun held => { held with fields := g held.fields })
      like := by
  have same : look.fieldless = like.fieldless := close.same.elim (congrArg Look.fieldless)
    fun differ => differ.fieldless rfl
  obtain ⟨references, types, shape⟩ := look
  cases shape with
  | class_ held => exact ⟨close.left, close.right, .inr (.class_ rfl same)⟩
  | _ => exact close

private theorem Shape.gathers_mapClass (g : ClassLook → ClassLook) (shape : Shape) :
    (shape.mapClass g).gathers = shape.gathers := by
  cases shape <;> rfl

private theorem Shape.tag_mapClass_constructor {shape : Shape} (same : shape.tag = .constructor)
    (g : ClassLook → ClassLook) :
    (shape.mapClass g).tag = .constructor := by
  cases shape <;> first | exact same | cases same

theorem tame_aside (owner : String) : Tame (Beside owner) where
  tag := by
    rintro _ look like (⟨_, same⟩ | ⟨left, right⟩)
    · rw [← look.tag_fieldless, ← like.tag_fieldless, same]
    · rw [left, right]
  gathers := by
    rintro _ look like (⟨bare, _⟩ | ⟨left, _⟩)
    · exact bare
    · have same : look.shape.tag = (Shape.constructor [] false none).tag := left
      exact Shape.gathers_of_tag same
  mapClass := by
    rintro _ look like g steady (⟨bare, same⟩ | ⟨left, right⟩)
    · exact .class_ ((Shape.gathers_mapClass g look.shape).trans bare) (Look.fieldless_mapClass same steady)
    · exact .constructor (Shape.tag_mapClass_constructor left g) (Shape.tag_mapClass_constructor right g)
  take := by
    rintro _ look like lead (⟨bare, same⟩ | ⟨left, right⟩)
    · exact .class_ (by rw [Look.shape_take, bare]) (by rw [Look.fieldless_take, Look.fieldless_take, same])
    · exact .constructor (by rw [Look.shape_take, left]) (by rw [Look.shape_take, right])

namespace Likeness

/-- Trees with the same entities. -/
def same (top : String) : Likeness := close top (fun _ => True) (fun _ => True) fun _ _ _ => False

/-- Trees with the same entities but for what a constructor of the class at a path has made. -/
def aside (top owner : String) : Likeness :=
  close top (fun path => ¬Hides owner path) (fun name => ¬Hides owner (child owner name) ∧
    ¬Hides owner (child top name)) (Beside owner)

theorem lasting_same (top : String) : (same top).Lasting :=
  lasting_close ⟨nofun, nofun, nofun, nofun⟩ fun _ => trivial

end Likeness

namespace Alike

section Beside

variable {top owner : String} {first second : ScopeTree}

/-- Trees that are the same are so but for a constructor. -/
theorem aside (alike : Alike (.same top) first second) (owner : String) :
    Alike (.aside top owner) first second where
  left := alike.left
  right := alike.right
  top := alike.top
  looks := by
    intro path _
    have same := alike.looks path trivial
    generalize first.chart path = look, second.chart path = like at same ⊢
    cases same with
    | none => exact .none
    | some close => exact .some ⟨close.left, close.right, close.same.imp_right False.elim⟩

variable (alike : Alike (.aside top owner) first second)
include alike

/-! ### Writes to one tree only -/

private theorem internLeft {parent : ScopeId} (inside : parent.index < first.size) {name : String}
    (plain : '.' ∉ name.toList) (valueType : ValueType) :
    Alike (.aside top owner) (first.internChild parent name valueType).1 second where
  left := alike.left.internChild inside plain valueType
  right := alike.right
  top := ((first.grows_internChild parent name valueType).raw
    (Nat.lt_of_le_of_lt (Nat.zero_le _) inside)).trans alike.top
  looks := by
    intro path away
    rw [chart_internChild alike.left]
    exact alike.looks path away

/-- A change at one path of the first tree that differs in nothing that is in sight. -/
theorem changeLeft {later : ScopeTree} (left : later.Sound) (top_ : later.raw root = first.raw root)
    {path : String} {look : Option Look}
    (onward : ∀ other, later.chart other = if other = path then look else first.chart other)
    (same : ¬Hides owner path → Option.Rel (Look.Close top (Beside owner path)) look (second.chart path)) :
    Alike (.aside top owner) later second := by
  refine alike.change left alike.right (top_.trans alike.top) onward (fun other => ?_) same
  split
  next at_ => rw [at_]
  next => rfl

private theorem setHidden {id : ScopeId} (inside : id.index < first.size)
    (hidden : Hides owner (first.raw id)) {entity : Entity}
    (moored : ∀ scope ∈ entity.scopes, scope.index < first.size) :
    Alike (.aside top owner) (first.setEntity id entity) second :=
  alike.changeLeft (alike.left.setEntity id moored) ((sameShape_setEntity first id entity).raw _)
    (chart_setEntity alike.left.shaped inside entity)
    fun away => absurd hidden away

/-- The fields of the class change. -/
theorem modifyFields {id : ScopeId} (inside : id.index < first.size) (own : first.raw id = owner)
    {f : Members → Members} {g : OrderedMap String → OrderedMap String}
    (shows : ∀ fields : Members, (f fields).mapValues first.raw = g (fields.mapValues first.raw))
    (moored : ∀ fields : Members, ∀ scope ∈ (f fields).values,
      scope.index < first.size ∨ scope ∈ fields.values)
    :
    Alike (.aside top owner) (first.modifyClass id fun held => { held with fields := f held.fields })
      second := by
  refine alike.changeLeft (alike.left.modifyEntity id fun {entity} present scope member => ?_)
    ((sameShape_modifyEntity first id _).raw _)
    (chart_modifyEntity alike.left.shaped inside _) fun away => ?_
  · obtain ⟨references, kind⟩ := entity
    have old := alike.left.moored present scope
    cases kind with
    | class_ held =>
      have new := moored held.fields scope
      simp only [Entity.mapClass, Entity.scopes, EntityKind.scopes, List.mem_append,
        List.mem_cons] at member old
      tauto
    | _ => exact old member
  · have looks := alike.looks (first.raw id) away
    have shown : ∀ entity : Entity, (entity.mapClass fun held =>
      { held with fields := f held.fields }).look first.raw =
        (entity.look first.raw).mapClass fun held => { held with fields := g held.fields } := fun entity =>
      entity.look_mapClass first.raw fun held => by simp only [Class.look, shows]
    rw [chart_raw alike.left.shaped inside] at looks
    rw [own] at looks ⊢
    cases present : first.entity? id with
    | none =>
      rw [present] at looks
      exact looks
    | some entity =>
      rw [present, Option.map_some] at looks
      rw [Option.map_some, shown]
      generalize second.chart owner = like at looks ⊢
      cases looks with
      | some close => exact .some (close.refield g)

/-- What the constructor of the class has made is dropped. -/
theorem stripLeft {later : ScopeTree} (stripped : Stripped owner first later) :
    Alike (.aside top owner) later second where
  left := stripped.sound
  right := alike.right
  top := (stripped.same.raw _).trans alike.top
  looks := by
    intro path away
    have looks := alike.looks path away
    rw [stripped.chart, if_neg away]
    split
    next at_ =>
      subst at_
      generalize first.chart path = look, second.chart path = like at looks ⊢
      cases looks with
      | none => exact .none
      | some close => exact .some (close.refield fun _ => .empty)
    next => exact looks

/-! ### A constructor in one of two trees -/

private theorem declareParamsLeft {id : ScopeId} (inside : id.index < first.size)
    (hangs : first.raw id = child owner "constructor") {names : List String}
    (plain : ∀ name ∈ names, '.' ∉ name.toList) :
    Alike (.aside top owner) (Discovery.declareParams id names first).1 second ∧
      first.Keeps (Discovery.declareParams id names first).1 ∧
      ∀ param ∈ (Discovery.declareParams id names first).2,
        param.index < (Discovery.declareParams id names first).1.size := by
  induction names generalizing first with
  | nil => exact ⟨alike, fun _ _ found => found, nofun⟩
  | cons name rest ih =>
    have made := alike.internLeft inside (plain name List.mem_cons_self) .value
    have there := raw_of_find? (find?_internChild .value first id name)
    have below := index_internChild .value first id name
    have onward := first.keeps_internChild id name .value
    rw [Discovery.declareParams]
    dsimp only
    generalize first.internChild id name .value = param at made there below onward ⊢
    have hidden : Hides owner (param.1.raw param.2) := by
      rw [there, hangs]
      exact hides_param owner name
    have bare : ∀ scope ∈ (Entity.new (.variable (.new name none))).scopes, scope.index < param.1.size :=
      fun _ member => by cases member
    have placed := made.setHidden below hidden bare
    have same := sameShape_setEntity param.1 param.2 (.new (.variable (.new name none)))
    have kept := onward.trans same.keeps
    obtain ⟨last, further, within⟩ := ih placed (kept.inside alike.left.shaped inside)
      ((kept.raw_shaped alike.left.shaped inside).trans hangs)
      fun other member => plain other (List.mem_cons_of_mem _ member)
    refine ⟨last, kept.trans further, List.forall_mem_cons.2 ⟨?_, within⟩⟩
    exact further.inside placed.left.shaped (same.size ▸ below)

private theorem placeConstructorLeft {id : ScopeId} (inside : id.index < first.size)
    (hangs : first.raw id = child owner "constructor")
    (stands : second.tag? (child owner "constructor") = some .constructor) {held : Constructor}
    (moored : ∀ param ∈ held.params, param.index < first.size) :
    Alike (.aside top owner) (first.setEntity id (.new (.constructor held))) second := by
  refine alike.changeLeft (alike.left.setEntity id moored) ((sameShape_setEntity first id _).raw _)
    (chart_setEntity alike.left.shaped inside _) fun away => ?_
  have looks := alike.looks (first.raw id) away
  rw [hangs] at looks ⊢
  obtain ⟨like, shown, tag⟩ := Option.map_eq_some_iff.1 stands
  rw [shown] at looks ⊢
  generalize first.chart (child owner "constructor") = look at looks
  cases looks with
  | some close => exact .some ⟨nofun, close.right, .inr (.constructor rfl tag)⟩

private theorem placeFieldLeft {id : ScopeId} (inside : id.index < first.size)
    (own : first.raw id = owner) {name : String} (plain : '.' ∉ name.toList) (type : LuaType)
    (range : Range) :
    Alike (.aside top owner) (placeField id range first name type) second ∧
      first.Keeps (placeField id range first name type) := by
  have fields := alike.internLeft inside (show '.' ∉ fieldsName.toList by decide) .table
  have there := raw_of_find? (find?_internChild .table first id fieldsName)
  have below := index_internChild .table first id fieldsName
  have onward := first.keeps_internChild id fieldsName .table
  unfold placeField internField
  dsimp only
  generalize first.internChild id fieldsName .table = middle at fields there below onward ⊢
  have field := fields.internLeft below plain .field
  have beneath := raw_of_find? (find?_internChild .field middle.1 middle.2 name)
  have lower := index_internChild .field middle.1 middle.2 name
  have further := onward.trans (middle.1.keeps_internChild middle.2 name .field)
  generalize middle.1.internChild middle.2 name .field = made at field beneath lower further ⊢
  have hidden : Hides owner (made.1.raw made.2) := by
    rw [beneath, there, own]
    exact hides_field owner name
  let entity : Entity := .new (.variable ⟨name, .single type, some range⟩)
  have bare : ∀ scope ∈ entity.scopes, scope.index < made.1.size := fun _ member => by cases member
  have placed := field.setHidden lower hidden bare
  have same := sameShape_setEntity made.1 made.2 entity
  have kept := further.trans same.keeps
  refine ⟨?_, kept.trans (sameShape_modifyEntity _ _ _).keeps⟩
  refine placed.modifyFields (kept.inside alike.left.shaped inside)
    ((kept.raw_shaped alike.left.shaped inside).trans own)
    (g := fun fields => fields.insert name ((made.1.setEntity made.2 entity).raw made.2))
    (fun fields => (OrderedMap.insert_mapValues _ fields name made.2).symm)
    fun fields scope member => ?_
  refine (OrderedMap.mem_values_insert member).imp_left fun equal => ?_
  rw [equal, same.size]
  exact lower

end Beside
end Alike

/-- The fields that a constructor gives its class have names of its body. -/
theorem Discovery.plain_literals {body : FunctionBody}
    (plain : ∀ name ∈ bodyNames body, '.' ∉ name.toList) {self : String}
    (named : selfAlias? body.body = some self) : ∀ field ∈ body.body.flatMap fun stmt =>
      (literalFields self stmt.kind).map fun (name, type) => (name, type, stmt.range),
      '.' ∉ field.1.toList := by
  intro field member
  have literals : FunctionBody.literals body = body.body.flatMap fun stmt =>
      (literalFields self stmt.kind).map fun (name, type) => (name, type, stmt.range) := by
    rw [FunctionBody.literals, named]
  exact plain _ (names_literals (literals ▸ member))

namespace Discovery.AlikeStates

variable {gone : List Diagnostic} {top owner : String} {first second : State}
  (alike : AlikeStates gone (.aside top owner) first second) {id : ScopeId}
include alike

/-- A problem that a definition causes in the first state. -/
theorem warnLeft {kind : DiagnosticKind} {message : String} {range : Option Range}
    (left : ⟨kind, message, range⟩ ∈ gone) :
    AlikeStates gone (.aside top owner) (first.warn kind message range) second :=
  ⟨(first.tree_warn kind message range).symm ▸ alike.trees, alike.problems.warnFirst left⟩

private theorem withLeft {later : ScopeTree} (trees : Alike (.aside top owner) later second.tree) :
    AlikeStates gone (.aside top owner) (first.withTree later) second :=
  ⟨trees, alike.problems⟩

private theorem placeFieldsLeft (inside : id.index < first.tree.size) (own : first.tree.raw id = owner)
    {fields : List (String × LuaType × Range)} (plain : ∀ field ∈ fields, '.' ∉ field.1.toList)
    {seen : List String} (left : repeatedFields fields seen ⊆ gone) :
    AlikeStates gone (.aside top owner) (placeFields id fields seen first) second := by
  induction fields generalizing first seen with
  | nil => exact alike
  | cons field rest ih =>
    obtain ⟨name, type, range⟩ := field
    obtain ⟨dotless, others⟩ := List.forall_mem_cons.1 plain
    obtain ⟨repeated, later⟩ := repeatedFields_cons_subset.1 left
    obtain ⟨placed, kept⟩ := alike.trees.placeFieldLeft inside own dotless type range
    rw [placeFields]
    have warned : AlikeStates gone (.aside top owner) (if name ∈ seen then
        first.warn .duplicateDefinition s!"field `{name}` redefined" (some range) else first) second := by
      split
      next known => exact alike.warnLeft (repeated known)
      next => exact alike
    have same : (if name ∈ seen then first.warn .duplicateDefinition s!"field `{name}` redefined"
      (some range) else first).tree =
        first.tree := by
      split
      next => exact first.tree_warn _ _ _
      next => rfl
    generalize (if name ∈ seen then
        first.warn .duplicateDefinition s!"field `{name}` redefined" (some range) else first) =
          told at warned same ⊢
    rw [same]
    exact ih (warned.withLeft placed) (kept.inside alike.trees.left.shaped inside)
      ((kept.raw_shaped alike.trees.left.shaped inside).trans own) others later

/-- A constructor is defined in the first state only. -/
theorem defineConstructorLeft {held : Class} (found : first.tree.classAt? id = some held)
    (own : first.tree.raw id = owner)
    (hangs : first.tree.raw held.constructor = child owner "constructor")
    (stands : second.tree.tag? (child owner "constructor") = some .constructor) {ownerName : String}
    {body : FunctionBody} (plain : ∀ name ∈ bodyNames body, '.' ∉ name.toList) {range : Range}
    (stripped : Stripped owner first.tree (vacateConstructor id held.constructor ownerName range first).tree)
    (left : constructorProblems ownerName body range ⊆ gone) :
    AlikeStates gone (.aside top owner) (Discovery.defineConstructor id ownerName body range first)
      second := by
  obtain ⟨replaces, causes⟩ := List.cons_subset.1 left
  have inside := index_lt_of_classAt? found
  have below := alike.trees.left.index_constructor found
  have cleared : AlikeStates gone (.aside top owner)
      (vacateConstructor id held.constructor ownerName range first) second := by
    refine ⟨alike.trees.stripLeft stripped, ?_⟩
    unfold vacateConstructor
    split
    next => exact alike.problems.warnFirst replaces
    next => exact alike.problems
  have same := stripped.same
  rw [defineConstructor_eq found]
  dsimp only
  generalize vacateConstructor id held.constructor ownerName range first = former at cleared same ⊢
  have inside : id.index < former.tree.size := same.size ▸ inside
  have below : held.constructor.index < former.tree.size := same.size ▸ below
  obtain ⟨declared, onward, params⟩ := cleared.trees.declareParamsLeft below ((same.raw _).trans hangs)
    fun name member => plain name (params_subset body member)
  have placed : AlikeStates gone (.aside top owner)
      (placeConstructor id held.constructor body former) second := by
    refine ⟨declared.placeConstructorLeft (onward.inside cleared.trees.left.shaped below) ?_ stands
      params, cleared.problems⟩
    exact (onward.raw_shaped cleared.trees.left.shaped below).trans ((same.raw _).trans hangs)
  have kept : former.tree.Keeps (placeConstructor id held.constructor body former).tree :=
    onward.trans (sameShape_setEntity _ _ _).keeps
  generalize placeConstructor id held.constructor body former = last at placed kept ⊢
  cases named : selfAlias? body.body with
  | none =>
    rw [named] at causes
    exact placed.warnLeft (causes (List.mem_singleton_self _))
  | some self =>
    rw [named, FunctionBody.literals, named] at causes
    exact placed.placeFieldsLeft (kept.inside cleared.trees.left.shaped inside)
      ((kept.raw_shaped cleared.trees.left.shaped inside).trans ((same.raw _).trans own))
      (plain_literals plain named) causes

end Discovery.AlikeStates

/-! ### A constructor that replaces others -/

/-- How trees may still differ once what a constructor made is dropped: in the constructor itself. -/
inductive Replaced (owner : String) : String → Look → Look → Prop
  | constructor {look like : Look} (left : look.shape.tag = .constructor)
    (right : like.shape.tag = .constructor) :
    Replaced owner (child owner "constructor") look like

theorem Replaced.beside {owner path : String} {look like : Look} (differ : Replaced owner path look like) :
    Beside owner path look like := by
  cases differ with
  | constructor left right => exact .constructor left right

private theorem tame_replaced (owner : String) : Tame (Replaced owner) where
  tag := fun differ => (tame_aside owner).tag differ.beside
  gathers := fun differ => (tame_aside owner).gathers differ.beside
  mapClass := by
    rintro _ look like g _ ⟨left, right⟩
    exact .constructor (Shape.tag_mapClass_constructor left g) (Shape.tag_mapClass_constructor right g)
  take := by
    rintro _ look like lead ⟨left, right⟩
    exact .constructor (by rw [Look.shape_take, left]) (by rw [Look.shape_take, right])

/-- Trees with the same entities but for the constructor of the class at a path. -/
def Likeness.vacated (top owner : String) : Likeness :=
  close top (fun _ => True) (fun _ => True) (Replaced owner)

private theorem Likeness.lasting_vacated (top owner : String) : (vacated top owner).Lasting :=
  lasting_close (tame_replaced owner) fun _ => trivial

namespace Alike

variable {top owner : String} {first second : ScopeTree} {one two : ScopeId}

/-- What two trees hide is dropped in both. -/
theorem strip (alike : Alike (.aside top owner) first second) {later last : ScopeTree}
    (left : Stripped owner first later) (right : Stripped owner second last) :
    Alike (.vacated top owner) later last where
  left := left.sound
  right := right.sound
  top := by rw [left.same.raw, right.same.raw, alike.top]
  looks := by
    intro path _
    rw [left.chart, right.chart]
    by_cases hidden : Hides owner path
    · rw [if_pos hidden, if_pos hidden]
      exact .none
    · have looks := alike.looks path hidden
      rw [if_neg hidden, if_neg hidden]
      by_cases own : path = owner
      · subst own
        rw [if_pos rfl, if_pos rfl]
        generalize first.chart path = look, second.chart path = like at looks ⊢
        cases looks with
        | none => exact .none
        | some close =>
          exact .some ⟨close.left, close.right,
            .inl (close.same.elim (congrArg Look.fieldless) fun differ => differ.fieldless rfl)⟩
      · rw [if_neg own, if_neg own]
        generalize first.chart path = look, second.chart path = like at looks ⊢
        cases looks with
        | none => exact .none
        | some close =>
          refine .some ⟨close.left, close.right, close.same.imp_right fun differ => ?_⟩
          cases differ with
          | class_ => exact absurd rfl own
          | constructor left right => exact .constructor left right

/-- The same constructor is placed in both trees. -/
theorem replaceConstructor (alike : Alike (.vacated top owner) first second)
    (twins : Twins first second one two) (hangs : first.raw one = child owner "constructor")
    {held other : Constructor} (left : ∀ param ∈ held.params, param.index < first.size)
    (right : ∀ param ∈ other.params, param.index < second.size)
    (params : held.params.map first.raw = other.params.map second.raw)
    (vararg : held.vararg = other.vararg) (selfAlias : held.selfAlias = other.selfAlias) :
    Alike (.same top) (first.setEntity one (.new (.constructor held)))
      (second.setEntity two (.new (.constructor other))) where
  left := alike.left.setEntity one left
  right := alike.right.setEntity two right
  top := by rw [(sameShape_setEntity first one _).raw, (sameShape_setEntity second two _).raw, alike.top]
  looks := by
    intro path _
    rw [chart_setEntity alike.left.shaped twins.left,
      chart_setEntity alike.right.shaped twins.right, ← twins.path, hangs]
    split
    next =>
      refine .some ⟨nofun, nofun, .inl ?_⟩
      simp only [Entity.look, EntityKind.shape, Entity.new, params, vararg, selfAlias]
      rfl
    next away =>
      have looks := alike.looks path trivial
      generalize first.chart path = look, second.chart path = like at looks ⊢
      cases looks with
      | none => exact .none
      | some close =>
        refine .some ⟨close.left, close.right, close.same.imp_right fun differ => ?_⟩
        cases differ
        exact away rfl

/-- A field of a class is placed in both trees. -/
theorem placeField (alike : Alike (.same top) first second) (twins : Twins first second one two)
    {name : String} (plain : '.' ∉ name.toList) (type : LuaType) (range : Range) :
    Alike (.same top) (placeField one range first name type) (placeField two range second name type) ∧
      first.Keeps (placeField one range first name type) ∧
        second.Keeps (placeField two range second name type) := by
  have made := alike.finds_internField plain twins
  unfold Discovery.placeField
  dsimp only
  generalize first.internField one name = field, second.internField two name = other at made ⊢
  let entity : Entity := .new (.variable ⟨name, .single type, some range⟩)
  have placed : Alike (.same top) (field.1.setEntity field.2 entity) (other.1.setEntity other.2 entity) :=
    made.alike.placeSame made.twins nofun nofun rfl
  have left := (sameShape_setEntity field.1 field.2 entity).keeps
  have right := (sameShape_setEntity other.1 other.2 entity).keeps
  have members := made.alike.onward made.twins left right
  have adds : ∀ id, ∀ held : Class, ∀ entry ∈ (EntityKind.class_ { held with fields := held.fields.insert name id }).scopes,
      entry = id ∨ entry ∈ (EntityKind.class_ held).scopes := by
    intro id held entry inside
    have fields : entry ∈ (held.fields.insert name id).values → _ := OrderedMap.mem_values_insert
    simp only [EntityKind.scopes, List.mem_cons, List.mem_append] at inside ⊢
    tauto
  let path := (field.1.setEntity field.2 entity).raw field.2
  refine ⟨placed.modifyClass (alike.onward twins (made.onward.trans left) (made.further.trans right)) members
      (h := fun held => { held with fields := held.fields.insert name path }) (fun held => ?_)
      (fun held => ?_) (adds field.2) (adds other.2)
      fun _ agrees => ?_,
    made.onward.trans (left.trans (sameShape_modifyEntity _ _ _).keeps),
      made.further.trans (right.trans (sameShape_modifyEntity _ _ _).keeps)⟩
  · simp only [Class.look, OrderedMap.insert_mapValues, path]
  · simp only [Class.look, OrderedMap.insert_mapValues, path, members.path]
  · exact (Likeness.lasting_same top).mapClass (fun _ _ same => same) agrees

end Alike

namespace Discovery.AlikeStates

variable {gone : List Diagnostic} {top owner : String} {first second : State} {one two : ScopeId}

theorem placeFields (alike : AlikeStates gone (.same top) first second)
    (twins : Twins first.tree second.tree one two) {fields : List (String × LuaType × Range)}
    (plain : ∀ field ∈ fields, '.' ∉ field.1.toList) (seen : List String) :
    AlikeStates gone (.same top) (Discovery.placeFields one fields seen first)
      (Discovery.placeFields two fields seen second) := by
  induction fields generalizing first second seen with
  | nil => exact alike
  | cons field rest ih =>
    obtain ⟨name, type, range⟩ := field
    obtain ⟨dotless, others⟩ := List.forall_mem_cons.1 plain
    rw [Discovery.placeFields, Discovery.placeFields]
    have step : ∀ {former latter : State}, AlikeStates gone (.same top) former latter →
      Twins former.tree latter.tree one two →
        AlikeStates gone (.same top)
          (Discovery.placeFields one rest (name :: seen)
            (former.withTree (placeField one range former.tree name type)))
          (Discovery.placeFields two rest (name :: seen)
            (latter.withTree (placeField two range latter.tree name type))) := by
      intro former latter alike twins
      obtain ⟨placed, onward, further⟩ := alike.trees.placeField twins dotless type range
      exact ih (alike.withTree placed) (alike.trees.onward twins onward further) others _
    split
    next =>
      refine step (alike.warn _ _ _) ?_
      rw [State.tree_warn, State.tree_warn]
      exact twins
    next => exact step alike twins

/-- A constructor is defined in both states. -/
theorem defineConstructor (alike : AlikeStates gone (.aside top owner) first second)
    (twins : Twins first.tree second.tree one two)
    {held like : Class} (found : first.tree.classAt? one = some held)
    (reached : second.tree.classAt? two = some like)
    (hangs : first.tree.raw held.constructor = child owner "constructor")
    (below : second.tree.raw like.constructor = child owner "constructor")
    {ownerName : String} {body : FunctionBody} (plain : ∀ name ∈ bodyNames body, '.' ∉ name.toList)
    {range : Range}
    (known : ((second.bodies? two).bind ClassBodies.constructor).isSome = true →
      ((first.bodies? one).bind ClassBodies.constructor).isSome = true)
    (gap : ((first.bodies? one).bind ClassBodies.constructor).isSome = true →
      ((second.bodies? two).bind ClassBodies.constructor).isSome = false →
      replacement ownerName range ∈ gone)
    (left : Stripped owner first.tree (vacateConstructor one held.constructor ownerName range first).tree)
    (right : Stripped owner second.tree (vacateConstructor two like.constructor
      ownerName range second).tree) :
    AlikeStates gone (.same top) (Discovery.defineConstructor one ownerName body range first)
      (Discovery.defineConstructor two ownerName body range second) := by
  have cleared : AlikeStates gone (.vacated top owner)
    (vacateConstructor one held.constructor ownerName range first)
      (vacateConstructor two like.constructor ownerName range second) := by
    refine ⟨alike.trees.strip left right, ?_⟩
    unfold vacateConstructor
    by_cases later : ((second.bodies? two).bind ClassBodies.constructor).isSome = true
    · rw [if_pos later, if_pos (known later)]
      exact alike.problems.warn _ _ _
    · rw [if_neg later]
      split
      next earlier => exact alike.problems.warnFirst (gap earlier (Bool.eq_false_iff.2 later))
      next => exact alike.problems
  have constructors : Twins first.tree second.tree held.constructor like.constructor :=
    ⟨alike.trees.left.index_constructor found, alike.trees.right.index_constructor reached,
      hangs.trans below.symm⟩
  have onward := left.same.keeps
  have further := right.same.keeps
  rw [defineConstructor_eq found, defineConstructor_eq reached]
  dsimp only
  generalize vacateConstructor one held.constructor ownerName range first = former,
    vacateConstructor two like.constructor ownerName range second = latter at cleared onward further ⊢
  have twins := alike.trees.onward twins onward further
  have path := (onward.raw_shaped alike.trees.left.shaped constructors.left).trans hangs
  have constructors := alike.trees.onward constructors onward further
  have params := cleared.trees.declareParams (Likeness.lasting_vacated top owner) constructors
    fun name member => plain name (params_subset body member)
  have placed : AlikeStates gone (.same top) (placeConstructor one held.constructor body former)
      (placeConstructor two like.constructor body latter) := by
    refine ⟨params.alike.replaceConstructor
      (cleared.trees.onward constructors params.onward params.further) ?_ params.left params.right
      params.paths rfl rfl, cleared.problems⟩
    exact (params.onward.raw_shaped cleared.trees.left.shaped constructors.left).trans path
  have twins : Twins (placeConstructor one held.constructor body former).tree
      (placeConstructor two like.constructor body latter).tree one two :=
    cleared.trees.onward twins (params.onward.trans (sameShape_setEntity _ _ _).keeps)
      (params.further.trans (sameShape_setEntity _ _ _).keeps)
  generalize placeConstructor one held.constructor body former = former,
    placeConstructor two like.constructor body latter = latter
    at placed twins ⊢
  cases named : selfAlias? body.body with
  | none => exact placed.warn _ _ _
  | some self => exact placed.placeFields twins (plain_literals plain named) []

end Discovery.AlikeStates

end LuaClasses
