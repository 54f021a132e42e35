import LuaClasses.Proofs.Ancestry
import LuaClasses.Proofs.SweepTours

/-! The shape of a class: which entities its constructor, its members, their parameters and its
fields carry. What stands below a class depends on nothing outside it, so a write somewhere else
keeps the shape. -/

namespace LuaClasses

/-- A class without a function or method named like the scope of its constructor. -/
def Class.Regular (owner : Class) : Prop :=
  owner.functions.contains "constructor" = false ∧ owner.methods.contains "constructor" = false

namespace ScopeTree

def functionAt? (tree : ScopeTree) (id : ScopeId) : Option Function :=
  (tree.entity? id).bind Entity.asFunction?

def constructorAt? (tree : ScopeTree) (id : ScopeId) : Option Constructor :=
  (tree.entity? id).bind Entity.asConstructor?

/-- Parameters are variables that hang below their function. -/
def ParamsShaped (tree : ScopeTree) (id : ScopeId) (params : List ScopeId) : Prop :=
  ∀ param ∈ params, (tree.variableAt? param).isSome = true ∧ tree.parent? param = some id

def ConstructorShaped (tree : ScopeTree) (id : ScopeId) : Prop :=
  ∃ held, tree.constructorAt? id = some held ∧ tree.ParamsShaped id held.params

def FunctionShaped (tree : ScopeTree) (kind : FunctionKind) (id : ScopeId) : Prop :=
  ∃ held, tree.functionAt? id = some held ∧ held.kind = kind ∧ tree.ParamsShaped id held.params

def FieldAt (tree : ScopeTree) (owner : ScopeId) (name : String) (id : ScopeId) : Prop :=
  ∃ fields, tree.child? owner fieldsName = some fields ∧ tree.child? fields name = some id

/-- The fields of a class are exactly what stands below its scope of fields, all of it variables. -/
structure FieldsShaped (tree : ScopeTree) (id : ScopeId) (owner : Class) : Prop where
  listed : ∀ {name field}, tree.FieldAt id name field → tree.hasEntity field = true →
    owner.fields.contains name = true ∧ (tree.variableAt? field).isSome = true
  fields : ∀ {name field}, owner.fields.get? name = some field →
    tree.FieldAt id name field ∧ (tree.variableAt? field).isSome = true

structure MembersShaped (tree : ScopeTree) (id : ScopeId) (owner : Class) : Prop where
  constructor : tree.ConstructorShaped owner.constructor
  values : ∀ {name value}, owner.values.get? name = some value →
    tree.child? id name = some value ∧ (tree.variableAt? value).isSome = true
  functions : ∀ {name function}, owner.functions.get? name = some function →
    tree.child? id name = some function ∧ tree.FunctionShaped .static function
  methods : ∀ {name method}, owner.methods.get? name = some method →
    tree.child? id name = some method ∧ tree.FunctionShaped .method method
  named : ∀ {name}, owner.functions.contains name = true ∨
    owner.methods.contains name = true → name ≠ fieldsName

structure ClassShaped (tree : ScopeTree) (id : ScopeId) (owner : Class) : Prop where
  top : tree.parent? id = some root
  ordinary : tree.Ordinary id
  fields : tree.FieldsShaped id owner
  /-- A member of that name takes the place of the constructor. -/
  members : owner.Regular → tree.MembersShaped id owner

/-- Whether all classes have their shape. -/
def Shaped (tree : ScopeTree) : Prop :=
  ∀ ⦃id owner⦄, tree.classAt? id = some owner → tree.ClassShaped id owner

/-- Whether all classes but one have their shape. -/
def ShapedBut (tree : ScopeTree) (but : ScopeId) : Prop :=
  ∀ ⦃id owner⦄, id ≠ but → tree.classAt? id = some owner → tree.ClassShaped id owner

theorem FieldAt.find? {tree : ScopeTree} (formed : tree.Formed) {owner id : ScopeId} {name : String}
    (there : tree.FieldAt owner name id) :
    tree.find? (DottedName.child (DottedName.child (tree.raw owner) fieldsName) name) = some id := by
  obtain ⟨fields, below, hangs⟩ := there
  rw [← raw_of_find? (formed.find?_child below)]
  exact formed.find?_child hangs

/-! ### What lasts -/

/-- Whether what the shape of a class asks of an entity goes on to hold from one tree to another. -/
structure Lasts (before after : ScopeTree) (id : ScopeId) : Prop where
  variableAt? : (before.variableAt? id).isSome = true → (after.variableAt? id).isSome = true
  functionAt? : ∀ {held}, before.functionAt? id = some held →
    ∃ later, after.functionAt? id = some later ∧ later.kind = held.kind ∧ later.params = held.params
  constructorAt? : ∀ {held}, before.constructorAt? id = some held →
    ∃ later, after.constructorAt? id = some later ∧ later.params = held.params

namespace Lasts

variable {before after : ScopeTree} {id : ScopeId}

theorem of_eq (same : after.entity? id = before.entity? id) : before.Lasts after id where
  variableAt? := by simp only [ScopeTree.variableAt?, same]; exact fun known => known
  functionAt? := by simp only [ScopeTree.functionAt?, same]; exact fun found => ⟨_, found, rfl, rfl⟩
  constructorAt? := by simp only [ScopeTree.constructorAt?, same]; exact fun found => ⟨_, found, rfl⟩

theorem of_vacant (vacant : before.entity? id = none) : before.Lasts after id where
  variableAt? := by simp [ScopeTree.variableAt?, vacant]
  functionAt? := by simp [ScopeTree.functionAt?, vacant]
  constructorAt? := by simp [ScopeTree.constructorAt?, vacant]

/-- A variable may take the place of another. -/
theorem of_variable (old : (before.variableAt? id).isSome = true)
    (new : (after.variableAt? id).isSome = true) :
    before.Lasts after id := by
  obtain ⟨var, held⟩ := Option.isSome_iff_exists.1 old
  obtain ⟨⟨references, kind⟩, found, asVariable⟩ := Option.bind_eq_some_iff.1 held
  cases kind <;> cases asVariable
  refine ⟨fun _ => new, fun found' => ?_, fun found' => ?_⟩
  · rw [ScopeTree.functionAt?, found] at found'
    cases found'
  · rw [ScopeTree.constructorAt?, found] at found'
    cases found'

theorem of_grows (grows : before.Grows after) (id : ScopeId) : before.Lasts after id := by
  cases held : before.entity? id with
  | none => exact .of_vacant held
  | some entity =>
    obtain ⟨⟨others, later⟩, reached, grown⟩ := grows.entity? held
    obtain ⟨references, kind⟩ := entity
    have outline := grown.outline
    refine ⟨fun known => ?_, fun known => ?_, fun known => ?_⟩
    · simp only [ScopeTree.variableAt?, held, reached] at known ⊢
      cases kind <;> cases known
      cases later <;> simp only [EntityKind.outline, reduceCtorEq] at outline
      rfl
    · simp only [ScopeTree.functionAt?, held, reached] at known ⊢
      cases kind <;> cases known
      cases later <;> simp only [EntityKind.outline, reduceCtorEq, EntityKind.function.injEq,
        Function.mk.injEq] at outline
      exact ⟨_, rfl, outline.2.1, outline.2.2.1⟩
    · simp only [ScopeTree.constructorAt?, held, reached] at known ⊢
      cases kind <;> cases known
      cases later <;> simp only [EntityKind.outline, reduceCtorEq,
        EntityKind.constructor.injEq, Constructor.mk.injEq]
        at outline
      exact ⟨_, rfl, outline.1⟩

theorem of_modifyClass (tree : ScopeTree) (owner : ScopeId) (f : Class → Class) (id : ScopeId) :
    tree.Lasts (tree.modifyClass owner f) id := by
  by_cases same : id = owner
  · subst same
    have after : (tree.modifyClass id f).entity? id = (tree.entity? id).map (Entity.mapClass f) := by
      rw [modifyClass, entity?_modifyEntity, if_pos rfl]
    cases held : tree.entity? id with
    | none => exact .of_vacant held
    | some entity =>
      obtain ⟨references, kind⟩ := entity
      rw [held, Option.map_some] at after
      cases kind with
      | class_ owner =>
        refine ⟨fun known => ?_, fun known => ?_, fun known => ?_⟩
        · rw [ScopeTree.variableAt?, held] at known; cases known
        · rw [ScopeTree.functionAt?, held] at known; cases known
        · rw [ScopeTree.constructorAt?, held] at known; cases known
      | _ => exact .of_eq (after.trans held.symm)
  · exact .of_eq (by rw [modifyClass, entity?_modifyEntity, if_neg same])

theorem trans {first second third : ScopeTree} (one : first.Lasts second id) (two : second.Lasts third id) :
    first.Lasts third id where
  variableAt? := fun known => two.variableAt? (one.variableAt? known)
  functionAt? := by
    intro held found
    obtain ⟨middle, reached, kind, params⟩ := one.functionAt? found
    obtain ⟨later, last, sameKind, same⟩ := two.functionAt? reached
    exact ⟨later, last, sameKind.trans kind, same.trans params⟩
  constructorAt? := by
    intro held found
    obtain ⟨middle, reached, params⟩ := one.constructorAt? found
    obtain ⟨later, last, same⟩ := two.constructorAt? reached
    exact ⟨later, last, same.trans params⟩

end Lasts

section Carry

variable {before after : ScopeTree} (formed : before.Formed) (last : after.Formed)
  (links : before.Links after)
include formed last links

theorem ParamsShaped.carry {id : ScopeId} {params : List ScopeId}
    (shaped : before.ParamsShaped id params)
    (lasts : ∀ param, before.parent? param = some id → before.Lasts after param) :
    after.ParamsShaped id params := by
  intro param member
  obtain ⟨var, hangs⟩ := shaped param member
  exact ⟨(lasts param hangs).variableAt? var, links.parent?_eq formed last hangs⟩

theorem ConstructorShaped.carry {id : ScopeId} (shaped : before.ConstructorShaped id)
    (lasts : before.Lasts after id)
    (params : ∀ param, before.parent? param = some id → before.Lasts after param) :
    after.ConstructorShaped id := by
  obtain ⟨held, found, below⟩ := shaped
  obtain ⟨later, reached, same⟩ := lasts.constructorAt? found
  exact ⟨later, reached, same ▸ below.carry formed last links params⟩

theorem FunctionShaped.carry {kind : FunctionKind} {id : ScopeId}
    (shaped : before.FunctionShaped kind id) (lasts : before.Lasts after id)
    (params : ∀ param, before.parent? param = some id → before.Lasts after param) :
    after.FunctionShaped kind id := by
  obtain ⟨held, found, kinded, below⟩ := shaped
  obtain ⟨later, reached, sameKind, same⟩ := lasts.functionAt? found
  exact ⟨later, reached, sameKind.trans kinded, same ▸ below.carry formed last links params⟩

omit last formed in
theorem FieldAt.carry {owner field : ScopeId} {name : String} (found : before.FieldAt owner name field) :
    after.FieldAt owner name field := by
  obtain ⟨fields, first, second⟩ := found
  exact ⟨fields, links first, links second⟩

theorem FieldAt.back {owner field : ScopeId} {name : String} (found : after.FieldAt owner name field)
    (inside : field.index < before.size) : before.FieldAt owner name field := by
  obtain ⟨fields, first, second⟩ := found
  have inner := links.child?_back formed last second inside
  obtain ⟨_, _, _, _, older, _⟩ := formed.child inner
  exact ⟨fields, links.child?_back formed last first (Nat.lt_trans older inside), inner⟩

/-- The fields keep their shape if they keep their entities and no other becomes occupied. -/
theorem FieldsShaped.carry {id : ScopeId} {owner later : Class} (shaped : before.FieldsShaped id owner)
    (same : later.fields = owner.fields)
    (lasts : ∀ {name field}, before.FieldAt id name field → before.Lasts after field)
    (fresh : ∀ {name field}, after.FieldAt id name field → after.hasEntity field = true →
      before.hasEntity field = true) : after.FieldsShaped id later where
  listed := by
    intro name field there held
    have occupied := fresh there held
    have old := there.back formed last links (index_lt_of_hasEntity occupied)
    obtain ⟨known, var⟩ := shaped.listed old occupied
    exact ⟨same ▸ known, (lasts old).variableAt? var⟩
  fields := by
    intro name field found
    obtain ⟨there, var⟩ := shaped.fields (same ▸ found)
    exact ⟨there.carry links, (lasts there).variableAt? var⟩

/-- The members keep their shape if they and their parameters keep their entities and every
further value is a variable. -/
theorem MembersShaped.carry {id : ScopeId} {owner later : Class} (shaped : before.MembersShaped id owner)
    (constructor : later.constructor = owner.constructor) (functions : later.functions = owner.functions)
    (methods : later.methods = owner.methods) (hangs : before.parent? owner.constructor = some id)
    (values : ∀ {name value}, later.values.get? name = some value → owner.values.get? name = some value ∨
      after.child? id name = some value ∧ (after.variableAt? value).isSome = true)
    (lasts : ∀ {member}, before.parent? member = some id → before.Lasts after member ∧
      ∀ param, before.parent? param = some member → before.Lasts after param) :
        after.MembersShaped id later where
  constructor := by
    rw [constructor]
    exact shaped.constructor.carry formed last links (lasts hangs).1 (lasts hangs).2
  values := by
    intro name value found
    rcases values found with old | new
    · obtain ⟨there, var⟩ := shaped.values old
      exact ⟨links there, (lasts (formed.parent?_of_child there)).1.variableAt? var⟩
    · exact new
  functions := by
    intro name function found
    obtain ⟨there, held⟩ := shaped.functions (functions ▸ found)
    have parented := formed.parent?_of_child there
    exact ⟨links there, held.carry formed last links (lasts parented).1 (lasts parented).2⟩
  methods := by
    intro name method found
    obtain ⟨there, held⟩ := shaped.methods (methods ▸ found)
    have parented := formed.parent?_of_child there
    exact ⟨links there, held.carry formed last links (lasts parented).1 (lasts parented).2⟩
  named := by
    rw [functions, methods]
    exact shaped.named

end Carry

end ScopeTree
end LuaClasses
