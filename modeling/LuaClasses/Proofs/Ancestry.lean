import LuaClasses.Proofs.PlainTree

/-! Which scopes stand around a scope, and what of that one tree has in common with another. -/

namespace LuaClasses.ScopeTree

/-- Whether every child is still the same child. -/
def Links (before after : ScopeTree) : Prop :=
  ∀ ⦃parent name id⦄, before.child? parent name = some id → after.child? parent name = some id

theorem Grows.links {before after : ScopeTree} (grows : before.Grows after) : before.Links after :=
  fun _ _ _ found => grows.child? found

theorem SameShape.links {before after : ScopeTree} (same : SameShape after before) : before.Links after :=
  fun _ _ _ found => (same.child? _ _).trans found

namespace Links

variable {before after : ScopeTree} (formed : before.Formed) (last : after.Formed)
  (links : before.Links after)
include formed last links

/-- A scope that was there before hangs where it hung before. -/
theorem child?_back {parent id : ScopeId} {name : String} (found : after.child? parent name = some id)
    (inside : id.index < before.size) : before.child? parent name = some id := by
  by_cases top : id = root
  · obtain ⟨_, _, _, _, older, _⟩ := last.child found
    rw [top] at older
    exact absurd older (Nat.not_lt_zero _)
  · obtain ⟨node, present⟩ := exists_node? inside
    obtain ⟨holder, _, _, hangs⟩ := formed.below present top
    obtain ⟨rfl, rfl⟩ := last.child_unique found (links hangs)
    exact hangs

theorem parent?_eq {id parent : ScopeId} (above : before.parent? id = some parent) :
    after.parent? id = some parent := by
  obtain ⟨name, hangs⟩ := formed.child_of_parent? above
  exact last.parent?_of_child (links hangs)

end Links

/-- A scope that is no scope of fields does not become one. -/
theorem Ordinary.links {before after : ScopeTree} {id : ScopeId} (ordinary : before.Ordinary id)
    (formed : before.Formed) (last : after.Formed) (links : before.Links after)
    (inside : id.index < before.size) : after.Ordinary id :=
  fun owner found => ordinary owner (links.child?_back formed last found inside)

/-! ### Ancestors and descendants -/

variable {tree before after : ScopeTree}

/-- Whether the climb from a scope ends there: its parent, if it has one, is no older. -/
def Outermost (tree : ScopeTree) (id : ScopeId) : Prop :=
  ∀ parent, tree.parent? id = some parent → ¬ parent.index < id.index

theorem ancestors_of_older {id parent : ScopeId} (above : tree.parent? id = some parent)
    (older : parent.index < id.index) : tree.ancestors id = id :: tree.ancestors parent := by
  rw [ancestors, Arena.ancestors, ← parent?_eq, above]
  simp only [older, dite_true]
  rfl

theorem Outermost.ancestors {id : ScopeId} (outermost : tree.Outermost id) : tree.ancestors id = [id] := by
  rw [ScopeTree.ancestors, Arena.ancestors, ← parent?_eq]
  cases above : tree.parent? id with
  | none => rfl
  | some parent => simp only [outermost parent above, dite_false]

/-- Induction along the climb from a scope to the outermost one. -/
theorem ancestors_induction (tree : ScopeTree) {motive : ScopeId → Prop}
    (below : ∀ id parent, tree.parent? id = some parent → parent.index < id.index → motive parent → motive id)
    (outermost : ∀ id, tree.Outermost id → motive id) (id : ScopeId) : motive id := by
  induction id using Arena.ancestors.induct tree.toArena with
  | case1 id parent above older ih => exact below id parent ((parent?_eq tree id).trans above) older ih
  | case2 id parent above newer =>
    refine outermost id fun other found => ?_
    cases ((parent?_eq tree id).trans above).symm.trans found
    exact newer
  | case3 id top =>
    exact outermost id fun other found => nomatch ((parent?_eq tree id).trans top).symm.trans found

private theorem outermost_of_top {id : ScopeId} (top : tree.parent? id = none) : tree.Outermost id :=
  fun _ found => nomatch top.symm.trans found

theorem Formed.older (formed : tree.Formed) {id parent : ScopeId} (above : tree.parent? id = some parent) :
    parent.index < id.index := by
  obtain ⟨name, hangs⟩ := formed.child_of_parent? above
  obtain ⟨_, _, _, _, older, _⟩ := formed.child hangs
  exact older

theorem ancestors_of_parent? (formed : tree.Formed) {id parent : ScopeId}
    (above : tree.parent? id = some parent) :
    tree.ancestors id = id :: tree.ancestors parent :=
  ancestors_of_older above (formed.older above)

theorem ancestors_of_top {id : ScopeId} (top : tree.parent? id = none) : tree.ancestors id = [id] :=
  (outermost_of_top top).ancestors

theorem Formed.parent?_root (formed : tree.Formed) : tree.parent? ScopeTree.root = none := by
  obtain ⟨node, found, top⟩ := formed.root
  rw [parent?, found, Option.bind_some, top]

theorem self_mem_ancestors (tree : ScopeTree) (id : ScopeId) : id ∈ tree.ancestors id := by
  induction id using ancestors_induction tree with
  | below id parent above older => rw [ancestors_of_older above older]; exact List.mem_cons_self
  | outermost id outermost => rw [outermost.ancestors]; exact List.mem_cons_self

theorem SameShape.ancestors (same : SameShape after before) (id : ScopeId) :
    after.ancestors id = before.ancestors id := by
  induction id using ancestors_induction before with
  | below id parent above older ih =>
    rw [ancestors_of_older above older, ancestors_of_older ((same.parent? id).trans above) older, ih]
  | outermost id outermost =>
    have still : after.Outermost id := fun parent above =>
      outermost parent ((same.parent? id).symm.trans above)
    rw [outermost.ancestors, still.ancestors]

theorem index_le_of_mem_ancestors {outer inner : ScopeId} (around : outer ∈ tree.ancestors inner) :
    outer.index ≤ inner.index := by
  induction inner using ancestors_induction tree with
  | below inner parent above older ih =>
    rw [ancestors_of_older above older] at around
    rcases List.mem_cons.1 around with rfl | further
    · exact Nat.le_refl _
    · exact Nat.le_trans (ih further) (Nat.le_of_lt older)
  | outermost inner outermost =>
    rw [outermost.ancestors, List.mem_singleton] at around
    exact Nat.le_of_eq (congrArg ScopeId.index around)

/-- What is around a scope is around every scope below it. -/
theorem mem_ancestors_trans (formed : tree.Formed) {outer middle inner : ScopeId}
    (first : outer ∈ tree.ancestors middle) (second : middle ∈ tree.ancestors inner) :
    outer ∈ tree.ancestors inner := by
  induction inner using ancestors_induction tree with
  | below inner parent above older ih =>
    rw [ancestors_of_parent? formed above] at second ⊢
    rcases List.mem_cons.1 second with rfl | further
    · rw [← ancestors_of_parent? formed above]
      exact first
    · exact List.mem_cons_of_mem _ (ih further)
  | outermost inner outermost =>
    rw [outermost.ancestors, List.mem_singleton] at second
    exact second ▸ first

theorem mem_children {id child : ScopeId} :
    child ∈ tree.children id ↔ ∃ name, tree.child? id name = some child := by
  unfold children child?
  cases tree.node? id with
  | none => simp
  | some node =>
    simp only [Option.map_some, Option.getD_some, Option.bind_some, OrderedMap.values, List.mem_map,
      OrderedMap.get?_eq_some_iff]
    constructor
    · rintro ⟨⟨name, id⟩, listed, rfl⟩
      exact ⟨name, listed⟩
    · rintro ⟨name, listed⟩
      exact ⟨(name, child), listed, rfl⟩

theorem descendants_eq (tree : ScopeTree) (id : ScopeId) :
    tree.descendants id = (tree.children id).flatMap fun child =>
      if id.index < child.index ∧ child.index < tree.size then child :: tree.descendants child else [] := by
  rw [descendants, Arena.descendants, children_eq]
  refine congrArg (List.flatMap · _) (funext fun child => ?_)
  exact dite_eq_ite

/-- What is below a scope is a child of it or below one; the bounds hold of every formed tree. -/
theorem mem_descendants_iff {outer inner : ScopeId} :
    inner ∈ tree.descendants outer ↔
      ∃ child ∈ tree.children outer,
        (outer.index < child.index ∧ child.index < tree.size) ∧
        (inner = child ∨ inner ∈ tree.descendants child) := by
  rw [descendants_eq, List.mem_flatMap]
  refine exists_congr fun child => and_congr_right fun _ => ?_
  split
  next newer => simp only [List.mem_cons, newer, and_self, true_and]
  next newer => simp only [List.not_mem_nil, newer, false_and]

theorem descendants_induction (tree : ScopeTree) {motive : ScopeId → Prop}
    (step : ∀ id, (∀ child : ScopeId, id.index < child.index ∧ child.index < tree.size → motive child) →
      motive id)
    (id : ScopeId) : motive id := by
  induction id using Arena.descendants.induct tree.toArena with
  | case1 id ih => exact step id ih

theorem mem_descendants_of_child (formed : tree.Formed) {id child : ScopeId} {name : String}
    (hangs : tree.child? id name = some child) : child ∈ tree.descendants id := by
  obtain ⟨node, present, _, _, older, _⟩ := formed.child hangs
  exact mem_descendants_iff.2
    ⟨child, mem_children.2 ⟨name, hangs⟩, ⟨older, index_lt_of_node? present⟩, .inl rfl⟩

theorem mem_ancestors_of_descendant (formed : tree.Formed) {outer inner : ScopeId}
    (member : inner ∈ tree.descendants outer) : outer ∈ tree.ancestors inner := by
  induction outer using descendants_induction tree with
  | step outer ih =>
    obtain ⟨child, below, newer, reached⟩ := mem_descendants_iff.1 member
    obtain ⟨name, found⟩ := mem_children.1 below
    have hangs := formed.parent?_of_child found
    have around : outer ∈ tree.ancestors child := by
      rw [ancestors_of_parent? formed hangs]
      exact List.mem_cons_of_mem _ (self_mem_ancestors tree outer)
    rcases reached with rfl | further
    · exact around
    · exact mem_ancestors_trans formed around (ih child newer further)

theorem mem_descendants_trans {outer middle inner : ScopeId} (first : middle ∈ tree.descendants outer)
    (second : inner ∈ tree.descendants middle) : inner ∈ tree.descendants outer := by
  induction outer using descendants_induction tree with
  | step outer ih =>
    obtain ⟨child, below, newer, reached⟩ := mem_descendants_iff.1 first
    refine mem_descendants_iff.2 ⟨child, below, newer, .inr ?_⟩
    rcases reached with rfl | further
    · exact second
    · exact ih child newer further

/-- What a scope is around is the scope itself or below it. -/
theorem eq_or_mem_descendants (formed : tree.Formed) {outer inner : ScopeId}
    (around : outer ∈ tree.ancestors inner) :
    inner = outer ∨ inner ∈ tree.descendants outer := by
  induction inner using ancestors_induction tree with
  | below inner parent above older ih =>
    rw [ancestors_of_parent? formed above] at around
    rcases List.mem_cons.1 around with rfl | further
    · exact .inl rfl
    · obtain ⟨name, hangs⟩ := formed.child_of_parent? above
      have below := mem_descendants_of_child formed hangs
      rcases ih further with rfl | inside
      · exact .inr below
      · exact .inr (mem_descendants_trans inside below)
  | outermost inner outermost =>
    rw [outermost.ancestors, List.mem_singleton] at around
    exact .inl around.symm

theorem index_lt_of_descendant {outer inner : ScopeId} (member : inner ∈ tree.descendants outer) :
    outer.index < inner.index := by
  induction outer using descendants_induction tree with
  | step outer ih =>
    obtain ⟨child, below, newer, reached⟩ := mem_descendants_iff.1 member
    rcases reached with rfl | further
    · exact newer.1
    · exact Nat.lt_trans newer.1 (ih child newer further)

/-- What is below a scope hangs there or is below a scope that does. -/
theorem mem_ancestors_parent (formed : tree.Formed) {outer inner parent : ScopeId}
    (member : inner ∈ tree.descendants outer) (above : tree.parent? inner = some parent) :
    outer ∈ tree.ancestors parent := by
  have around := mem_ancestors_of_descendant formed member
  rw [ancestors_of_parent? formed above] at around
  rcases List.mem_cons.1 around with rfl | further
  · exact absurd (index_lt_of_descendant member) (Nat.lt_irrefl _)
  · exact further

/-- Two scopes that hang below the same one have nothing below them in common. -/
theorem Formed.eq_of_mem_ancestors (formed : tree.Formed) {outer first second id : ScopeId}
    (left : tree.parent? first = some outer) (right : tree.parent? second = some outer)
    (one : first ∈ tree.ancestors id) (two : second ∈ tree.ancestors id) : first = second := by
  have outside : ∀ {id}, tree.parent? id = some outer → id ∉ tree.ancestors outer := by
    intro id above around
    exact Nat.not_lt.2 (index_le_of_mem_ancestors around) (formed.older above)
  induction id using ancestors_induction tree with
  | below id parent above older ih =>
    rw [ancestors_of_parent? formed above] at one two
    rcases List.mem_cons.1 one with rfl | one' <;> rcases List.mem_cons.1 two with rfl | two'
    · rfl
    · cases left.symm.trans above
      exact absurd two' (outside right)
    · cases right.symm.trans above
      exact absurd one' (outside left)
    · exact ih one' two'
  | outermost id outermost =>
    rw [outermost.ancestors, List.mem_singleton] at one two
    exact one.trans two.symm

theorem Grows.ancestors {before after : ScopeTree} (grows : before.Grows after) {id : ScopeId}
    (inside : id.index < before.size) : after.ancestors id = before.ancestors id := by
  induction id using ancestors_induction before with
  | below id parent above older ih =>
    rw [ancestors_of_older above older, ancestors_of_older ((grows.parent? inside).trans above) older,
      ih (Nat.lt_trans older inside)]
  | outermost id outermost =>
    have still : after.Outermost id := fun parent above =>
      outermost parent ((grows.parent? inside).symm.trans above)
    rw [outermost.ancestors, still.ancestors]

theorem Links.mem_ancestors (formed : before.Formed) (last : after.Formed)
    (links : before.Links after) {outer inner : ScopeId} (around : outer ∈ before.ancestors inner) :
    outer ∈ after.ancestors inner := by
  induction inner using ancestors_induction before with
  | below inner parent above older ih =>
    rw [ancestors_of_parent? formed above] at around
    rw [ancestors_of_parent? last (links.parent?_eq formed last above)]
    rcases List.mem_cons.1 around with rfl | further
    · exact List.mem_cons_self
    · exact List.mem_cons_of_mem _ (ih further)
  | outermost inner outermost =>
    rw [outermost.ancestors, List.mem_singleton] at around
    rw [around]
    exact self_mem_ancestors after inner

end LuaClasses.ScopeTree
