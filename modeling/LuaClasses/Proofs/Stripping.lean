import LuaClasses.Proofs.AlikeEnds
import LuaClasses.Proofs.ScopeNames

/-! What is left of a class once what its constructor gave it is dropped. A constructor makes its
parameters and the fields of its class. Both stand at paths where nothing else of the class does, so a
chart tells what is dropped. -/

namespace LuaClasses
open DottedName ScopeTree Discovery

/-! ### Where a constructor writes -/

namespace DottedName

/-- Whether a path lies below the constructor of the class at a path, or below the fields of the class. -/
def Hides (owner path : String) : Prop :=
  Beneath (child owner "constructor") path ∨ Beneath (child owner fieldsName) path

instance (owner path : String) : Decidable (Hides owner path) := inferInstanceAs (Decidable (_ ∨ _))

variable {owner path name : String}

private theorem beneath_child (outer name : String) : Beneath outer (child outer name) := by
  rw [Beneath, toList_child]
  exact ⟨name.toList, by simp⟩

theorem Beneath.child {outer path : String} (beneath : Beneath outer path) (name : String) :
    Beneath outer (child path name) := by
  rw [Beneath, toList_child]
  exact List.IsPrefix.trans beneath (List.prefix_append _ _)

private theorem not_beneath_parent (parent name : String) :
    ¬Beneath (DottedName.child parent name) parent :=
  fun beneath =>
  not_within_parent parent name (List.IsPrefix.trans beneath (List.prefix_append _ _))

theorem child_ne_self (parent name : String) : DottedName.child parent name ≠ parent := by
  intro same
  have within := not_within_parent parent name
  nth_rewrite 2 [← same] at within
  exact within (.refl _)

theorem Hides.child (hides : Hides owner path) (name : String) : Hides owner (child path name) :=
  hides.imp (·.child name) (·.child name)

theorem hides_param (owner name : String) : Hides owner (child (child owner "constructor") name) :=
  .inl (beneath_child _ name)

theorem hides_field (owner name : String) : Hides owner (child (child owner fieldsName) name) :=
  .inr (beneath_child _ name)

private theorem not_hides_self (owner : String) : ¬Hides owner owner :=
  fun hides => hides.elim (not_beneath_parent _ _) (not_beneath_parent _ _)

/-- What hangs below a class is in sight. -/
theorem not_hides_member (owner : String) (plain : '.' ∉ name.toList) : ¬Hides owner (child owner name) := by
  rintro (below | below)
  all_goals
    rcases (beneath_child_iff plain).1 below with same | deeper
    · exact child_ne_self _ _ same
    · exact not_beneath_parent _ _ deeper

end DottedName

/-! ### What a class is like without the fields -/

/-- A look without the fields of the class. -/
def Look.fieldless (look : Look) : Look := look.mapClass fun held => { held with fields := .empty }

namespace Look

@[simp] theorem tag_fieldless (look : Look) : look.fieldless.shape.tag = look.shape.tag := by
  obtain ⟨_, _, shape⟩ := look
  cases shape <;> rfl

theorem fieldless_mapClass {look like : Look} (same : look.fieldless = like.fieldless)
    {g : ClassLook → ClassLook} (steady : ClassLook.Steady g) :
    (look.mapClass g).fieldless = (like.mapClass g).fieldless := by
  obtain ⟨_, _, shape⟩ := look
  obtain ⟨_, _, counterpart⟩ := like
  obtain ⟨rfl, rfl, shapes⟩ := Look.mk.inj same
  cases shape <;> cases counterpart <;> try cases shapes
  case class_.class_ one two =>
    simp only [fieldless, mapClass, Shape.mapClass, steady one two (Shape.class_.inj shapes)]
  all_goals rfl

theorem fieldless_take (look : Look) (lead : Option Lead) :
    (look.take lead).fieldless = look.fieldless.take lead := by
  cases lead with
  | none => rfl
  | some lead =>
    unfold take
    dsimp only
    rw [show look.fieldless.references = look.references from rfl]
    split <;> rfl

end Look

/-! ### What is dropped -/

namespace ScopeTree

variable {tree : ScopeTree}

private theorem WellShaped.find?_dotless (shaped : tree.WellShaped) {level : ScopeId}
    (inside : level.index < tree.size) {name : String} (plain : '.' ∉ name.toList) :
    tree.find? (DottedName.child (tree.raw level) name) = tree.child? level name := by
  rw [shaped.find?_child inside, resolveRelative, segments_of_dotless plain, List.foldlM_cons]
  cases tree.child? level name <;> rfl

/-- Where a scope is below a child of another, there is the child. -/
theorem WellShaped.child?_of_beneath (shaped : tree.WellShaped) {owner id : ScopeId}
    (around : owner.index < tree.size) {name : String} (plain : '.' ∉ name.toList)
    (inside : id.index < tree.size)
    (beneath : Beneath (DottedName.child (tree.raw owner) name) (tree.raw id)) :
    (tree.child? owner name).isSome = true := by
  induction id using ancestors_induction tree with
  | below id parent above older ih =>
    rcases shaped.parent_cases inside with ⟨_, alone⟩ | ⟨outer, last, hangs, _, dotless, raw, _⟩
    · cases above.symm.trans alone
    · cases above.symm.trans hangs
      have holder := Nat.lt_trans older inside
      rw [raw] at beneath
      rcases (beneath_child_iff dotless).1 beneath with same | deeper
      · rw [← shaped.find?_dotless around plain, same, shaped.find?_raw holder]
        rfl
      · exact ih holder deeper
  | outermost id outermost =>
    rcases shaped.parent_cases inside with ⟨rfl, _⟩ | ⟨_, _, above, older, _⟩
    · -- The path of the top level begins all others, so none of them goes on to it.
      have shorter := List.IsPrefix.length_le (shaped.within_root around)
      have longer := List.IsPrefix.length_le beneath
      rw [toList_child] at longer
      simp only [List.length_append, List.length_cons, List.length_nil] at shorter longer
      omega
    · exact absurd older (outermost _ above)

/-- Drop what is below a child of a scope, if there is one. -/
def clearChild (tree : ScopeTree) (owner : ScopeId) (name : String) : ScopeTree :=
  (tree.child? owner name).elim tree tree.clearDescendants

private theorem sameShape_clearChild (tree : ScopeTree) (owner : ScopeId) (name : String) :
    SameShape (tree.clearChild owner name) tree := by
  unfold clearChild
  cases tree.child? owner name with
  | none => exact .refl tree
  | some id => exact sameShape_clearDescendants tree id

private theorem Sound.clearChild (sound : tree.Sound) (owner : ScopeId) (name : String) :
    (tree.clearChild owner name).Sound := by
  unfold ScopeTree.clearChild
  cases tree.child? owner name with
  | none => exact sound
  | some id => exact sound.clearDescendants id

private theorem chart_clearChild (shaped : tree.WellShaped) {owner : ScopeId}
    (inside : owner.index < tree.size) {name : String} (plain : '.' ∉ name.toList) (path : String) :
    (tree.clearChild owner name).chart path =
      if Beneath (DottedName.child (tree.raw owner) name) path then none else tree.chart path := by
  have there := shaped.find?_dotless inside plain
  unfold clearChild
  cases found : tree.child? owner name with
  | some id =>
    rw [found] at there
    rw [Option.elim_some, chart_clearDescendants shaped (index_lt_of_find? there), raw_of_find? there]
  | none =>
    rw [Option.elim_none]
    split
    next beneath =>
      by_contra shown
      obtain ⟨look, shown⟩ := Option.ne_none_iff_exists'.1 shown
      obtain ⟨id, entity, reached, held, _⟩ := chart_eq_some shown
      have child := shaped.child?_of_beneath inside plain (index_lt_of_entity? held)
        ((raw_of_find? reached).symm ▸ beneath)
      rw [found] at child
      cases child
    next => rfl

private theorem dropConstructor_eq (owner constructor : ScopeId) (tree : ScopeTree) :
    dropConstructor owner constructor tree =
    ((tree.clearDescendants constructor).clearChild owner fieldsName).modifyClass owner fun held =>
    { held with fields := .empty } := by
  unfold dropConstructor clearChild
  dsimp only
  cases (tree.clearDescendants constructor).child? owner fieldsName <;> rfl

/-- What stands at each path once what a constructor made is dropped. -/
structure Stripped (owner : String) (before after : ScopeTree) : Prop where
  sound : after.Sound
  same : SameShape after before
  chart : ∀ path, after.chart path =
    if Hides owner path then none else if path = owner then (before.chart owner).map
      Look.fieldless else before.chart path

variable {owner constructor : ScopeId}

private theorem chart_dropConstructor (shaped : tree.WellShaped) (inside : owner.index < tree.size)
    (below : constructor.index < tree.size)
    (hangs : tree.raw constructor = DottedName.child (tree.raw owner) "constructor") (path : String) :
    (dropConstructor owner constructor tree).chart path = if Hides (tree.raw owner) path then none
      else if path = tree.raw owner then (tree.chart (tree.raw owner)).map
        Look.fieldless else tree.chart path := by
  have first := sameShape_clearDescendants tree constructor
  have same := (sameShape_clearChild (tree.clearDescendants constructor) owner fieldsName).trans first
  have shown : ∀ path, ((tree.clearDescendants constructor).clearChild owner fieldsName).chart path =
      if Hides (tree.raw owner) path then none else tree.chart path := by
    intro path
    rw [chart_clearChild (shaped.of_sameShape first) (first.size ▸ inside) (by decide),
      chart_clearDescendants shaped below, first.raw, hangs]
    by_cases param : Beneath (DottedName.child (tree.raw owner) "constructor") path <;>
      by_cases field : Beneath (DottedName.child (tree.raw owner) fieldsName) path <;>
        simp [Hides, param, field]
  rw [dropConstructor_eq]
  generalize (tree.clearDescendants constructor).clearChild owner fieldsName = cleared at same shown ⊢
  have around : owner.index < cleared.size := same.size ▸ inside
  have left := shaped.of_sameShape same
  rw [modifyClass, chart_modifyEntity left around, same.raw]
  by_cases at_ : path = tree.raw owner
  · subst at_
    rw [if_pos rfl, if_neg (not_hides_self _), if_pos rfl]
    have own := shown (tree.raw owner)
    rw [if_neg (not_hides_self _)] at own
    rw [← own, ← same.raw, chart_raw left around, Option.map_map]
    exact Option.map_congr fun entity _ => Entity.look_mapClass cleared.raw entity fun held => rfl
  · rw [if_neg at_, if_neg at_, shown]

theorem stripped_dropConstructor (sound : tree.Sound) (inside : owner.index < tree.size)
    (below : constructor.index < tree.size)
    (hangs : tree.raw constructor = DottedName.child (tree.raw owner) "constructor") :
    Stripped (tree.raw owner) tree (dropConstructor owner constructor tree) where
  sound := by
    rw [dropConstructor_eq]
    have cleared := (sound.clearDescendants constructor).clearChild owner fieldsName
    refine cleared.modifyEntity owner fun {entity} held scope member => ?_
    obtain ⟨references, kind⟩ := entity
    have old := cleared.moored held scope
    cases kind with
    | class_ owner =>
      have empty : scope ∉ (OrderedMap.empty : Members).values := nofun
      simp only [Entity.mapClass, Entity.scopes, EntityKind.scopes, List.mem_append,
        List.mem_cons] at member old
      tauto
    | _ => exact old member
  same := sameShape_dropConstructor owner constructor tree
  chart := chart_dropConstructor sound.shaped inside below hangs

/-- Where a constructor has made nothing, nothing is to be dropped. -/
theorem Stripped.refl {owner : String} (sound : tree.Sound)
    (bare : ∀ path, Hides owner path → tree.chart path = none)
    (fieldless : (tree.chart owner).map Look.fieldless = tree.chart owner) :
    Stripped owner tree tree where
  sound := sound
  same := .refl tree
  chart := by
    intro path
    split
    next hidden => exact bare path hidden
    next =>
      split
      next at_ => rw [at_, fieldless]
      next => rfl

theorem Sound.index_constructor (sound : tree.Sound) {id : ScopeId} {held : Class}
    (found : tree.classAt? id = some held) : held.constructor.index < tree.size := by
  obtain ⟨references, entity⟩ := classAt?_eq_some found
  exact sound.moored entity _ (List.mem_append_right _ List.mem_cons_self)

end ScopeTree

end LuaClasses
