import LuaClasses.Proofs.ShapeWalk

/-! Changes inside one class. What stands below one class is not below another, so a change there keeps
the shape of all other classes. A change to one member leaves aside the other classes too, and of
the class itself its fields and its other members. -/

namespace LuaClasses.ScopeTree

variable {tree before after : ScopeTree} {but : ScopeId}

/-- Whatever changes inside one class, the others keep their shape. -/
theorem ShapedBut.change (shaped : before.ShapedBut but) (formed : before.Formed) (dotless : before.Dotless)
    (last : after.Formed) (same : SameShape after before) (top : before.parent? but = some root)
    (others : ∀ id, but ∉ before.ancestors id → after.entity? id = before.entity? id)
    (classes : ∀ {id owner}, id ≠ but → after.classAt? id = some owner → (before.classAt? id).isSome = true) :
    after.ShapedBut but := by
  intro id owner apart held
  obtain ⟨old, known⟩ := Option.isSome_iff_exists.1 (classes apart held)
  have shape := shaped apart known
  have unchanged : ∀ other, id ∈ before.ancestors other → after.entity? other = before.entity? other := by
    intro other around
    refine others other fun inside => apart ?_
    exact formed.eq_of_mem_ancestors shape.top top around inside
  have kept : after.classAt? id = before.classAt? id := by
    rw [classAt?, unchanged id (self_mem_ancestors before id), ← classAt?]
  rw [kept, known] at held
  cases held
  have below : ∀ {member}, before.parent? member = some id → id ∈ before.ancestors member := by
    intro member above
    rw [ancestors_of_parent? formed above]
    exact List.mem_cons_of_mem _ (self_mem_ancestors before id)
  have further : ∀ {param member}, before.parent? member = some id → before.parent? param = some member →
      id ∈ before.ancestors param := by
    intro param member above parented
    rw [ancestors_of_parent? formed parented]
    exact List.mem_cons_of_mem _ (below above)
  have field : ∀ {name other}, before.FieldAt id name other → id ∈ before.ancestors other := by
    rintro name other ⟨fields, first, second⟩
    exact further (formed.parent?_of_child first) (formed.parent?_of_child second)
  have inside := index_lt_of_entity? (classAt?_eq_some known).choose_spec
  have links := same.links
  refine ⟨(same.parent? id).trans shape.top, shape.ordinary.links formed last links inside, ?_,
    fun regular => ?_⟩
  · refine shape.fields.carry formed last links rfl (fun there => .of_eq (unchanged _ (field there)))
      fun there occupied => ?_
    have size := index_lt_of_hasEntity occupied
    rw [same.size] at size
    rw [hasEntity, unchanged _ (field (there.back formed last links size))] at occupied
    exact occupied
  · refine (shape.members regular).carry formed last links rfl rfl rfl
      (formed.parent?_of_child (formed.child?_constructor dotless known)) .inl fun above =>
      ⟨?_, fun param parented => ?_⟩
    · exact .of_eq (unchanged _ (below above))
    · exact .of_eq (unchanged _ (further above parented))

/-- What is placed inside a class and is no class itself does not matter to the others. -/
theorem ShapedBut.setEntity (shaped : tree.ShapedBut but) (formed : tree.Formed) (dotless : tree.Dotless)
    (top : tree.parent? but = some root) {id : ScopeId} (inside : but ∈ tree.ancestors id) {entity : Entity}
    (last : (tree.setEntity id entity).Formed) (unclassed : id ≠ but → entity.asClass? = none) :
    (tree.setEntity id entity).ShapedBut but := by
  refine shaped.change formed dotless last (sameShape_setEntity tree id entity) top
    (fun other outside => ?_) ?_
  · rw [entity?_setEntity, if_neg]
    rintro rfl
    exact outside inside
  · intro other owner apart held
    rw [classAt?, entity?_setEntity] at held
    split at held
    next equal =>
      subst equal
      cases found : tree.node? other with
      | none => rw [found] at held; cases held
      | some node =>
        rw [found, Option.map_some, Option.bind_some, unclassed apart] at held
        cases held
    next => rw [classAt?, held]; rfl

theorem ShapedBut.clearDescendants (shaped : tree.ShapedBut but) (formed : tree.Formed)
    (dotless : tree.Dotless) (top : tree.parent? but = some root) {id : ScopeId}
    (inside : but ∈ tree.ancestors id) :
    (tree.clearDescendants id).ShapedBut but := by
  have kept := revises_clearDescendants tree id formed
  refine shaped.change formed dotless kept.1 (sameShape_clearDescendants tree id) top
    (fun other outside => ?_) ?_
  · rw [entity?_clearDescendants, if_neg fun below => outside ?_]
    exact mem_ancestors_trans formed inside (mem_ancestors_of_descendant formed below)
  · intro other owner _ held
    obtain ⟨references, found⟩ := classAt?_eq_some held
    rw [classAt?, tree.entity?_of_clearDescendants found]
    rfl

theorem ShapedBut.modifyClass (shaped : tree.ShapedBut but) (formed : tree.Formed) (dotless : tree.Dotless)
    (top : tree.parent? but = some root) (f : Class → Class) (last : (tree.modifyClass but f).Formed) :
    (tree.modifyClass but f).ShapedBut but := by
  refine shaped.change formed dotless last (sameShape_modifyEntity tree but _) top
    (fun other outside => ?_) ?_
  · rw [ScopeTree.modifyClass, entity?_modifyEntity, if_neg]
    rintro rfl
    exact outside (self_mem_ancestors tree other)
  · intro other owner _ held
    obtain ⟨before, known, _⟩ := classAt?_modifyClass held
    rw [known]
    rfl

/-- A tree is in shape if all classes but one are and this one is, if it is a class. -/
theorem ShapedBut.shaped (shaped : tree.ShapedBut but)
    (this : ∀ {owner}, tree.classAt? but = some owner → tree.ClassShaped but owner) : tree.Shaped := by
  intro id owner held
  by_cases same : id = but
  · subst same
    exact this held
  · exact shaped same held

theorem Shaped.others (shaped : tree.Shaped) (but : ScopeId) : tree.ShapedBut but :=
  fun _ _ _ held => shaped held

end LuaClasses.ScopeTree

/-! ### One member -/

namespace LuaClasses

namespace ScopeTree

/-- A tree in which one class may be out of shape. -/
structure TidyBut (tree : ScopeTree) (but : ScopeId) : Prop where
  formed : tree.Formed
  dotless : tree.Dotless
  shaped : tree.ShapedBut but
  top : tree.parent? but = some root

namespace TidyBut

variable {tree : ScopeTree} {but : ScopeId}

theorem index_lt (tidy : tree.TidyBut but) : but.index < tree.size := by
  obtain ⟨node, found, _⟩ := Option.bind_eq_some_iff.1 tidy.top
  exact index_lt_of_node? found

theorem internChild (tidy : tree.TidyBut but) {parent : ScopeId} (inside : parent.index < tree.size)
    {name : String} (plain : '.' ∉ name.toList) (valueType : ValueType) :
    (tree.internChild parent name valueType).1.TidyBut but := by
  have grows := tree.grows_internChild parent name valueType
  have last := tidy.formed.internChild inside name valueType
  refine ⟨last, tidy.dotless.internChild plain parent valueType, ?_,
    (grows.parent? tidy.index_lt).trans tidy.top⟩
  exact tidy.shaped.grow tidy.formed tidy.dotless last grows
    (.of_entity? fun id => entity?_internChild valueType tree parent name id)

theorem setEntity (tidy : tree.TidyBut but) {id : ScopeId} (inside : but ∈ tree.ancestors id)
    (entity : Entity) (fits : tree.Fits (tree.raw id) entity.kind)
    (unclassed : id ≠ but → entity.asClass? = none) :
    (tree.setEntity id entity).TidyBut but := by
  have same := sameShape_setEntity tree id entity
  have last := tidy.formed.setEntity fits
  exact ⟨last, tidy.dotless.of_sameShape same,
    tidy.shaped.setEntity tidy.formed tidy.dotless tidy.top inside last unclassed,
      (same.parent? but).trans tidy.top⟩

theorem clearDescendants (tidy : tree.TidyBut but) {id : ScopeId} (inside : but ∈ tree.ancestors id) :
    (tree.clearDescendants id).TidyBut but := by
  have same := sameShape_clearDescendants tree id
  exact ⟨(revises_clearDescendants tree id tidy.formed).1, tidy.dotless.of_sameShape same,
    tidy.shaped.clearDescendants tidy.formed tidy.dotless tidy.top inside, (same.parent? but).trans tidy.top⟩

theorem modifyClass (tidy : tree.TidyBut but) {f : Class → Class}
    (fits : ∀ owner, tree.Fits (tree.raw but) (.class_ owner) → tree.Fits (tree.raw but) (.class_ (f owner)))
    :
    (tree.modifyClass but f).TidyBut but := by
  have same := sameShape_modifyEntity tree but (Entity.mapClass f)
  have last := (revises_modifyClass tree but f fits tidy.formed).1
  exact ⟨last, tidy.dotless.of_sameShape same,
    tidy.shaped.modifyClass tidy.formed tidy.dotless tidy.top f last,
    (same.parent? but).trans tidy.top⟩

end TidyBut

theorem Tidy.but {tree : ScopeTree} (tidy : tree.Tidy) (formed : tree.Formed) {id : ScopeId}
    (top : tree.parent? id = some root) : tree.TidyBut id :=
  ⟨formed, tidy.dotless, tidy.shaped.others id, top⟩

theorem FunctionShaped.unclassed {tree : ScopeTree} {kind : FunctionKind} {id : ScopeId}
    (shaped : tree.FunctionShaped kind id) {owner : Class} : tree.classAt? id ≠ some owner := by
  obtain ⟨held, found, _⟩ := shaped
  intro known
  obtain ⟨references, present⟩ := classAt?_eq_some known
  rw [functionAt?, present] at found
  cases found

/-! ### What is left aside -/

/-- A change to one class and below one scope of it, which leaves the rest aside. -/
structure Aside (before after : ScopeTree) (owner id : ScopeId) : Prop where
  formed : before.Formed
  last : after.Formed
  links : before.Links after
  others : ∀ {other}, other ≠ owner → id ∉ after.ancestors other → after.entity? other = before.entity? other

namespace Aside

variable {first second third : ScopeTree} {owner id : ScopeId}

theorem trans (one : Aside first second owner id) (two : Aside second third owner id) :
    Aside first third owner id where
  formed := one.formed
  last := two.last
  links := fun _ _ _ found => two.links (one.links found)
  others := by
    intro other apart outside
    refine (two.others apart outside).trans (one.others apart fun inside => outside ?_)
    exact two.links.mem_ancestors two.formed two.last inside

variable {before after : ScopeTree} (aside : Aside before after owner id)
include aside

theorem lasts {other : ScopeId} (apart : other ≠ owner) (outside : id ∉ after.ancestors other) :
    before.Lasts after other :=
  .of_eq (aside.others apart outside)

section Member

variable {name : String} (hangs : before.child? owner name = some id)
include hangs

theorem not_around_owner : id ∉ after.ancestors owner := by
  obtain ⟨_, _, _, _, older, _⟩ := aside.formed.child hangs
  exact fun around => absurd (index_le_of_mem_ancestors around) (Nat.not_le_of_lt older)

/-- What hangs below the class by another name is left aside. -/
theorem child_lasts {other : ScopeId} (above : before.parent? other = some owner) (apart : other ≠ id) :
    before.Lasts after other ∧ id ∉ after.ancestors other := by
  obtain ⟨called, below⟩ := aside.formed.child_of_parent? above
  obtain ⟨_, _, _, _, older, _⟩ := aside.formed.child below
  have outside : id ∉ after.ancestors other := by
    rw [ancestors_of_parent? aside.last (aside.links.parent?_eq aside.formed aside.last above),
      List.mem_cons, not_or]
    exact ⟨apart.symm, aside.not_around_owner hangs⟩
  exact ⟨aside.lasts (fun equal => Nat.lt_irrefl _ (equal ▸ older)) outside, outside⟩

theorem grandchild_lasts {param other : ScopeId} (above : before.parent? other = some owner)
    (apart : other ≠ id) (parented : before.parent? param = some other) : before.Lasts after param := by
  obtain ⟨_, outside⟩ := aside.child_lasts hangs above apart
  obtain ⟨called, below⟩ := aside.formed.child_of_parent? above
  obtain ⟨inner, further⟩ := aside.formed.child_of_parent? parented
  obtain ⟨_, _, _, _, first, _⟩ := aside.formed.child below
  obtain ⟨_, _, _, _, second, _⟩ := aside.formed.child further
  refine aside.lasts (fun equal => Nat.lt_irrefl _ (Nat.lt_trans first (equal ▸ second))) ?_
  rw [ancestors_of_parent? aside.last (aside.links.parent?_eq aside.formed aside.last parented),
    List.mem_cons, not_or]
  refine ⟨?_, outside⟩
  rintro rfl
  rw [aside.formed.parent?_of_child hangs] at parented
  cases parented
  exact Nat.lt_irrefl _ first

theorem functionShaped {kind : FunctionKind} {other : ScopeId} {called : String}
    (below : before.child? owner called = some other) (apart : called ≠ name)
    (shaped : before.FunctionShaped kind other) :
    after.child? owner called = some other ∧ after.FunctionShaped kind other := by
  have above := aside.formed.parent?_of_child below
  have different : other ≠ id := fun equal => apart (aside.formed.child_unique below (equal ▸ hangs)).2
  exact ⟨aside.links below, shaped.carry aside.formed aside.last aside.links
    (aside.child_lasts hangs above different).1
    fun _ parented => aside.grandchild_lasts hangs above different parented⟩

theorem fieldsShaped {held later : Class} (plain : name ≠ fieldsName) (same : later.fields = held.fields)
    (shaped : before.FieldsShaped owner held) : after.FieldsShaped owner later := by
  refine shaped.carry aside.formed aside.last aside.links same (fun {called field} there => ?_)
    fun {called field} there occupied => ?_
  · obtain ⟨fields, first, second⟩ := there
    have different : fields ≠ id := fun equal =>
      plain (aside.formed.child_unique first (equal ▸ hangs)).2.symm
    exact aside.grandchild_lasts hangs (aside.formed.parent?_of_child first) different
      (aside.formed.parent?_of_child second)
  · obtain ⟨fields, first, second⟩ := there
    have different : fields ≠ id := fun equal =>
      plain (aside.last.child_unique first (equal ▸ aside.links hangs)).2.symm
    obtain ⟨_, _, _, _, one, _⟩ := aside.last.child first
    obtain ⟨_, _, _, _, two, _⟩ := aside.last.child second
    rw [hasEntity, aside.others (fun equal => Nat.lt_irrefl _ (Nat.lt_trans one (equal ▸ two)))] at occupied
    · exact occupied
    · rw [ancestors_of_parent? aside.last (aside.last.parent?_of_child second),
        ancestors_of_parent? aside.last (aside.last.parent?_of_child first)]
      simp only [List.mem_cons, not_or]
      refine ⟨?_, different.symm, aside.not_around_owner hangs⟩
      rintro rfl
      have parented := aside.last.parent?_of_child second
      rw [aside.last.parent?_of_child (aside.links hangs)] at parented
      cases parented
      exact Nat.lt_irrefl _ one

end Member
end Aside

end ScopeTree
end LuaClasses
