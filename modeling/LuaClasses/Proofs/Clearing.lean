import LuaClasses.Proofs.Enlistment
import LuaClasses.Proofs.PathLookup
import LuaClasses.Proofs.TreeWrites

/-! What is dropped below a scope. In a tree that is made by adding children of names without dots, the
scopes below a scope are those whose paths go on from its path after a dot. So exactly those lose their
entities, and no name leads to one of them any more. -/

namespace LuaClasses

namespace DottedName

/-- Whether a path goes on from another one after a dot. -/
def Beneath (outer inner : String) : Prop := outer.toList ++ ['.'] <+: inner.toList

instance (outer inner : String) : Decidable (Beneath outer inner) := inferInstanceAs (Decidable (_ <+: _))

variable {outer parent name : String}

private theorem not_beneath_self (path : String) : ¬Beneath path path := by
  intro beneath
  have shorter := List.IsPrefix.length_le beneath
  rw [List.length_append, List.length_singleton] at shorter
  omega

/-- The last dot of a path ends a path around it, so whatever the path is beneath is that path or around
it. -/
theorem beneath_child_iff (plain : '.' ∉ name.toList) :
    Beneath outer (child parent name) ↔ outer = parent ∨ Beneath outer parent := by
  rw [Beneath, toList_child]
  constructor
  · rintro ⟨rest, same⟩
    rw [List.append_assoc, List.singleton_append] at same
    rcases List.append_eq_append_iff.1 same with ⟨more, split, ends⟩ | ⟨more, split, ends⟩
    · cases more with
      | nil => exact .inl (String.toList_injective (by simpa using split.symm))
      | cons dot more =>
        obtain ⟨rfl, _⟩ := List.cons.inj ends
        exact .inr ⟨more, by rw [split, List.append_assoc, List.singleton_append]⟩
    · cases more with
      | nil => exact .inl (String.toList_injective (by simpa using split))
      | cons dot more =>
        obtain ⟨_, text⟩ := List.cons.inj ends
        exact absurd (text ▸ List.mem_append_right more List.mem_cons_self) plain
  · rintro (rfl | beneath)
    · exact ⟨name.toList, by simp⟩
    · exact beneath.trans (List.prefix_append _ _)

end DottedName

namespace ScopeTree
open DottedName

variable {tree : ScopeTree}

/-! ### The loop -/

/-- One turn of the loop that clears the scopes on a stack: the last one loses its entity and gives way
to its children. -/
def clearTurn : ScopeTree × List ScopeId → ScopeTree × List ScopeId
  | (tree, []) => (tree, [])
  | (tree, next :: waiting) => (tree.clearEntity next, (tree.children next).reverse ++ waiting)

/-- The loop goes over the tables, and leaves the indices of the top level alone. -/
theorem iterate_clearTurn (turns : Nat) (tree : ScopeTree) (waiting : List ScopeId) :
    Prod.map ScopeTree.toArena id (clearTurn^[turns] (tree, waiting)) = Arena.clearTurn^[turns]
      (tree.toArena, waiting) ∧
      (clearTurn^[turns] (tree, waiting)).1.globals = tree.globals := by
  induction turns generalizing tree waiting with
  | zero => exact ⟨rfl, rfl⟩
  | succ turns ih =>
    rw [Function.iterate_succ_apply, Function.iterate_succ_apply]
    cases waiting with
    | nil => exact ih tree []
    | cons next waiting =>
      have turn : Arena.clearTurn (tree.toArena, next :: waiting) =
          ((tree.clearEntity next).toArena, (tree.children next).reverse ++ waiting) := by
        rw [Arena.clearTurn, children_eq]
        rfl
      rw [turn]
      exact ih (tree.clearEntity next) _

theorem clear_loop (consistent : tree.toArena.Consistent) (id : ScopeId) :
    clearTurn^[(tree.descendants id).length] (tree, (tree.children id).reverse) =
      (tree.clearDescendants id, []) := by
  obtain ⟨tables, globals⟩ := iterate_clearTurn (tree.descendants id).length tree (tree.children id).reverse
  have loop := consistent.clear_loop id
  rw [← children_eq] at loop
  have ends := tables.trans loop
  refine Prod.ext (eq_of_toArena ?_ ?_) (congrArg Prod.snd ends :)
  · exact (congrArg Prod.fst ends).trans (toArena_foldl_clear tree _).symm
  · exact globals.trans (Discovery.globals_clearDescendants tree id).symm

/-! ### What is below a scope -/

/-- What hangs below a scope is below whatever the scope is or is below. -/
theorem mem_descendants_iff_parent (formed : tree.Formed) {outer inner parent : ScopeId}
    (above : tree.parent? inner = some parent) :
    inner ∈ tree.descendants outer ↔ outer = parent ∨ parent ∈ tree.descendants outer := by
  constructor
  · intro member
    exact (eq_or_mem_descendants formed (mem_ancestors_parent formed member above)).imp_left Eq.symm
  · obtain ⟨name, hangs⟩ := formed.child_of_parent? above
    have below := mem_descendants_of_child formed hangs
    rintro (rfl | member)
    · exact below
    · exact mem_descendants_trans member below

/-- In a tree without dots a scope is below another exactly if its path says so. -/
theorem Dotless.mem_descendants_iff (dotless : tree.Dotless) (formed : tree.Formed) {outer inner : ScopeId}
    (around : outer.index < tree.size) (inside : inner.index < tree.size) :
    inner ∈ tree.descendants outer ↔ Beneath (tree.raw outer) (tree.raw inner) := by
  induction inner using ancestors_induction tree with
  | below inner parent above older ih =>
    have holder := Nat.lt_trans older inside
    obtain ⟨name, hangs⟩ := formed.child_of_parent? above
    obtain ⟨node, present, _, _, _, raw⟩ := formed.child hangs
    have same : outer = parent ↔ tree.raw outer = tree.raw parent := by
      refine ⟨congrArg _, fun equal => Option.some.inj ?_⟩
      rw [← formed.find?_raw around, equal, formed.find?_raw holder]
    rw [raw_of_node? present, raw, beneath_child_iff (dotless.child formed hangs), ← same, ← ih holder]
    exact mem_descendants_iff_parent formed above
  | outermost inner outermost =>
    have top : inner = root := by
      by_contra apart
      obtain ⟨node, present⟩ := exists_node? inside
      obtain ⟨parent, above, older, _⟩ := formed.below present apart
      exact outermost parent (Option.bind_eq_some_iff.2 ⟨node, present, above⟩) older
    subst top
    refine iff_of_false (fun member => Nat.not_lt_zero _ (index_lt_of_descendant member)) fun beneath => ?_
    have shorter := List.IsPrefix.length_le beneath
    have shortest := formed.length_raw_root around
    rw [List.length_append, List.length_singleton] at shorter
    omega

theorem SameShape.children {before after : ScopeTree} (same : SameShape after before) (id : ScopeId) :
    after.children id = before.children id := by
  have read := same.read id (fun node => some node.children.values) fun _ => rfl
  simpa only [ScopeTree.children, Option.map_eq_bind, Function.comp_def] using congrArg
    (Option.getD · []) read

theorem SameShape.descendants {before after : ScopeTree} (same : SameShape after before) (id : ScopeId) :
    after.descendants id = before.descendants id := by
  induction id using descendants_induction before with
  | step id ih =>
    rw [descendants_eq, descendants_eq, same.children, same.size]
    apply List.flatMap_congr
    intro child _
    by_cases newer : id.index < child.index ∧ child.index < before.size
    · rw [if_pos newer, if_pos newer, ih child newer]
    · rw [if_neg newer, if_neg newer]

theorem WellShaped.mem_descendants_iff (shaped : tree.WellShaped) {outer inner : ScopeId}
    (around : outer.index < tree.size) (inside : inner.index < tree.size) :
    inner ∈ tree.descendants outer ↔ Beneath (tree.raw outer) (tree.raw inner) := by
  obtain ⟨frame, formed, dotless, same⟩ := shaped
  rw [same.descendants, same.raw, same.raw]
  exact dotless.mem_descendants_iff formed (same.size ▸ around) (same.size ▸ inside)

theorem Built.consistent {root : String} (built : Built root tree) : tree.toArena.Consistent := by
  induction built with
  | new => exact .new root
  | @internChild tree parent name valueType _ _ _ ih =>
    rw [show (tree.internChild parent name valueType).1 =
      tree.write (.child parent name valueType) from rfl, toArena_write]
    exact ih.write _
  | @internField tree owner name _ _ _ ih =>
    rw [show (tree.internField owner name).1 = tree.write (.field owner name) from rfl, toArena_write]
    exact ih.write _
  | setEntity id entity _ ih => exact ih.of_paths rfl
  | @clearDescendants tree id _ ih =>
    rw [show tree.clearDescendants id = tree.write (.clear id) from rfl, toArena_write]
    exact ih.write _

/-- What a scope holds once the entities below another are dropped is decided by their paths. -/
theorem WellShaped.entity?_clearDescendants (shaped : tree.WellShaped) {id : ScopeId}
    (inside : id.index < tree.size) (other : ScopeId) : (tree.clearDescendants id).entity? other =
      if Beneath (tree.raw id) (tree.raw other) then none else tree.entity? other := by
  rw [ScopeTree.entity?_clearDescendants]
  cases held : tree.entity? other with
  | none => rw [ite_self, ite_self]
  | some entity => simp only [shaped.mem_descendants_iff inside (index_lt_of_entity? held)]

/-- The loop that drops what is below a scope comes to an end. By then exactly the scopes whose paths go
on from that of the scope have lost their entities; the entity of the scope itself, all others, the
scopes and the indices are as they were, and no name leads beneath the scope. -/
theorem clears_exactly_beneath {root : String} (built : Built root tree) {id : ScopeId}
    (inside : id.index < tree.size) :
    clearTurn^[(tree.descendants id).length] (tree, (tree.children id).reverse) =
      (tree.clearDescendants id, []) ∧
      (∀ other, (tree.clearDescendants id).entity? other =
        if Beneath (tree.raw id) (tree.raw other) then none else tree.entity? other) ∧
      (tree.clearDescendants id).entity? id = tree.entity? id ∧
      SameShape (tree.clearDescendants id) tree ∧ (tree.clearDescendants id).globals = tree.globals ∧
      ∀ name origin found, (tree.clearDescendants id).lookup name origin = some found →
        ¬Beneath (tree.raw id) (tree.raw found) := by
  have entities := built.wellShaped.entity?_clearDescendants inside
  refine ⟨clear_loop built.consistent id, entities, ?_, sameShape_clearDescendants tree id,
    Discovery.globals_clearDescendants tree id, ?_⟩
  · rw [entities, if_neg (not_beneath_self _)]
  · intro name origin found leads beneath
    have held := hasEntity_of_lookup leads
    rw [hasEntity, entities, if_pos beneath] at held
    cases held

/-- A class with a value and a field, and a variable whose name begins like that of the class. -/
def neighbourTree : ScopeTree :=
  let tree := ((ScopeTree.new "__G").internChild root "Foo" .class_).1.setEntity ⟨1⟩
    (.new (.table ⟨"Foo", .empty⟩))
  let tree := (tree.internChild ⟨1⟩ "x" .value).1.setEntity ⟨2⟩ (.new (.variable (.new "x" none)))
  let tree := (tree.internField ⟨1⟩ "y").1.setEntity ⟨4⟩ (.new (.variable (.new "y" none)))
  (tree.internChild root "Foobar" .value).1.setEntity ⟨5⟩ (.new (.variable (.new "Foobar" none)))

private theorem built_neighbourTree : Built "__G" neighbourTree := by
  refine .setEntity _ _ (.internChild _ (.setEntity _ _ (.internField (.setEntity _ _ (.internChild _
    (.setEntity _ _ (.internChild _ .new ?_ ?_)) ?_ ?_)) ?_ ?_)) ?_ ?_) <;> decide +kernel

/-- The value and the field are dropped, and the class and the variable beside it stay. -/
theorem clears_neighbourTree :
    Built "__G" neighbourTree ∧ (⟨1⟩ : ScopeId).index < neighbourTree.size ∧
      ((neighbourTree.clearDescendants ⟨1⟩).occupied.map Prod.fst = [⟨1⟩, ⟨5⟩]) ∧
      (neighbourTree.clearDescendants ⟨1⟩).entity? ⟨4⟩ = none ∧
      ((neighbourTree.clearDescendants ⟨1⟩).entity? ⟨5⟩ = neighbourTree.entity? ⟨5⟩) := by
  have inside : (⟨1⟩ : ScopeId).index < neighbourTree.size := by decide +kernel
  obtain ⟨_, entities, _⟩ := clears_exactly_beneath built_neighbourTree inside
  refine ⟨built_neighbourTree, inside, by decide +kernel, ?_, ?_⟩
  · rw [entities, if_pos (by decide +kernel)]
  · rw [entities, if_neg (by decide +kernel)]

end ScopeTree
end LuaClasses
