import LuaClasses.Proofs.Reach
import LuaClasses.Proofs.Reached
import Mathlib.Data.List.Induction

/-! Lookup by paths. A tree that is made by adding children of names without dots has one scope at each
path, whatever entities are placed in it and taken out of it. So to descend through the segments of a
name is to look for the path with the name behind it. -/

namespace LuaClasses

namespace DottedName

theorem dotless_of_mem_splitDots {chars segment : List Char} (member : segment ∈ splitDots chars) :
    '.' ∉ segment := by
  induction chars generalizing segment with
  | nil =>
    rw [splitDots, List.mem_singleton] at member
    exact member ▸ List.not_mem_nil
  | cons char rest ih =>
    rw [splitDots] at member
    split at member
    next =>
      rcases List.mem_cons.1 member with rfl | later
      · exact List.not_mem_nil
      · exact ih later
    next apart =>
      cases parts : splitDots rest with
      | nil =>
        rw [parts] at member
        cases List.mem_singleton.1 member
        exact fun dot => apart (List.mem_singleton.1 dot).symm
      | cons first others =>
        rw [parts] at member ih
        rcases List.mem_cons.1 member with rfl | later
        · intro dot
          rcases List.mem_cons.1 dot with same | inside
          · exact apart same.symm
          · exact ih List.mem_cons_self inside
        · exact ih (List.mem_cons_of_mem _ later)

end DottedName

namespace ScopeTree

/-- The search for a name by paths: the first scope around `origin` whose path, with the name behind it,
is that of a scope with an entity decides. -/
def lookupByPath (tree : ScopeTree) (name : String) (origin : ScopeId) : Option ScopeId :=
  (tree.ancestors origin).findSome? fun level =>
    (tree.find? (DottedName.child (tree.raw level) name)).filter fun found => tree.hasEntity found

/-- The trees that come from the root alone by adding scopes of names without dots, and by placing
entities and clearing them away. -/
inductive Built (root : String) : ScopeTree → Prop
  | new : Built root (.new root)
  | internChild {tree : ScopeTree} {parent : ScopeId} {name : String} (valueType : ValueType)
    (built : Built root tree)
      (inside : parent.index < tree.size) (plain : '.' ∉ name.toList) :
      Built root (tree.internChild parent name valueType).1
  | internField {tree : ScopeTree} {owner : ScopeId} {name : String} (built : Built root tree)
      (inside : owner.index < tree.size) (plain : '.' ∉ name.toList) :
      Built root (tree.internField owner name).1
  | setEntity {tree : ScopeTree} (id : ScopeId) (entity : Entity) (built : Built root tree) :
      Built root (tree.setEntity id entity)
  | clearDescendants {tree : ScopeTree} (id : ScopeId) (built : Built root tree) :
    Built root (tree.clearDescendants id)

/-! ### The shape of a tree -/

/-- Whether the scopes of a tree stand as in one that is put together properly. The entities may be any. -/
def WellShaped (tree : ScopeTree) : Prop :=
  ∃ frame : ScopeTree, frame.Formed ∧ frame.Dotless ∧ SameShape tree frame

variable {tree : ScopeTree}

theorem WellShaped.of_sameShape {after : ScopeTree} (shaped : tree.WellShaped) (same : SameShape after tree) :
    after.WellShaped := by
  obtain ⟨frame, formed, dotless, alike⟩ := shaped
  exact ⟨frame, formed, dotless, same.trans alike⟩

/-- Where the same scopes stand, the same child is made or found. -/
theorem SameShape.internChild {first second : ScopeTree} (same : SameShape first second)
    (parent : ScopeId) (name : String) (valueType : ValueType) :
    SameShape (first.internChild parent name valueType).1 (second.internChild parent name valueType).1 := by
  cases found : second.find? (DottedName.child (second.raw parent) name) with
  | some id =>
    rwa [internChild_found valueType found, internChild_found valueType (by rwa [same.find?, same.raw])]
  | none =>
    intro id
    rw [node?_internChild valueType found, node?_internChild valueType (by rwa [same.find?, same.raw]),
      same.size, same.raw]
    split
    next => rfl
    next =>
      split
      next =>
        have moved := congrArg
          (Option.map fun node : Node =>
            { node with children := node.children.insertNew name ⟨second.size⟩ }) (same id)
        rw [Option.map_map, Option.map_map] at moved ⊢
        exact moved
      next => exact same id

theorem WellShaped.internChild (shaped : tree.WellShaped) {parent : ScopeId}
    (inside : parent.index < tree.size) {name : String} (plain : '.' ∉ name.toList)
    (valueType : ValueType) : (tree.internChild parent name valueType).1.WellShaped := by
  obtain ⟨frame, formed, dotless, same⟩ := shaped
  exact ⟨_, formed.internChild (same.size ▸ inside) name valueType,
    dotless.internChild plain parent valueType,
    same.internChild parent name valueType⟩

private theorem wellShaped_new (root : String) : (ScopeTree.new root).WellShaped := by
  refine ⟨.new root, ?_, fun id node found apart => absurd (node?_new found).1 apart, .refl _⟩
  exact (Discovery.formed_initial { DiscoveryConfig.default with globalScope := root }).tree

theorem Built.wellShaped {root : String} (built : Built root tree) : tree.WellShaped := by
  induction built with
  | new => exact wellShaped_new root
  | internChild valueType _ inside plain ih => exact ih.internChild inside plain valueType
  | @internField tree owner name _ inside plain ih =>
    have fields := ih.internChild inside (show '.' ∉ fieldsName.toList by decide) .table
    exact fields.internChild (index_internChild .table tree owner fieldsName) plain .field
  | setEntity id entity _ ih => exact ih.of_sameShape (sameShape_setEntity _ id entity)
  | clearDescendants id _ ih => exact ih.of_sameShape (sameShape_clearDescendants _ id)

/-! ### Paths and descents -/

/-- A scope whose path is longer than one of the tree by a name without dots hangs below the scope of
that path. -/
theorem Dotless.exists_holder (dotless : tree.Dotless) (formed : tree.Formed) {path name : String}
    {id : ScopeId} (plain : '.' ∉ name.toList)
    (longer : (tree.raw root).toList.length ≤ path.toList.length)
    (found : tree.find? (DottedName.child path name) = some id) :
    ∃ holder, tree.find? path = some holder := by
  have raw := raw_of_find? found
  obtain ⟨node, present⟩ := exists_node? (index_lt_of_find? found)
  have apart : id ≠ root := by
    rintro rfl
    rw [raw, DottedName.toList_child, List.length_append, List.length_cons] at longer
    omega
  obtain ⟨holder, _, older, hangs⟩ := formed.below present apart
  obtain ⟨held, there, _, _, _, stands⟩ := formed.child hangs
  cases present.symm.trans there
  rw [raw_of_node? present, stands] at raw
  obtain ⟨rfl, _⟩ := DottedName.child_inj (dotless present apart) plain raw
  exact ⟨holder, formed.find?_raw (Nat.lt_trans older (index_lt_of_node? present))⟩

/-- To descend from a scope through segments is to find the scope at the path that the segments add to
its own. -/
theorem Dotless.find?_segments (dotless : tree.Dotless) (formed : tree.Formed) {level : ScopeId}
    (inside : level.index < tree.size) {segments : List (List Char)}
    (plain : ∀ segment ∈ segments, '.' ∉ segment) {path : String}
    (ends : path.toList = (tree.raw level).toList ++ segments.flatMap fun segment => '.' :: segment) :
    tree.find? path = (segments.map String.ofList).foldlM
      (fun scope segment => tree.child? scope segment) level := by
  induction segments using List.reverseRecOn generalizing path with
  | nil =>
    have same : path = tree.raw level := String.toList_injective (by simpa using ends)
    rw [same, formed.find?_raw inside]
    rfl
  | append_singleton segments last ih =>
    rw [List.flatMap_append, ← List.append_assoc] at ends
    generalize before : (tree.raw level).toList ++ segments.flatMap (fun segment => '.' :: segment) =
      chars at ends
    have split : path = DottedName.child (String.ofList chars) (String.ofList last) :=
      String.toList_injective (by simp [ends])
    have named : '.' ∉ (String.ofList last).toList := by simpa using plain last (by simp)
    have first := ih (fun segment member => plain segment (List.mem_append_left _ member))
      (show (String.ofList chars).toList = _ by rw [String.toList_ofList, before])
    rw [split, List.map_append, List.foldlM_append, ← first]
    cases found : tree.find? (String.ofList chars) with
    | some holder =>
      rw [← raw_of_find? found, dotless.find?_child formed named (index_lt_of_find? found)]
      simp
    | none =>
      cases reached : tree.find? (DottedName.child (String.ofList chars) (String.ofList last)) with
      | none => rfl
      | some id =>
        have shorter := formed.length_raw_root inside
        obtain ⟨holder, held⟩ := dotless.exists_holder formed named (by simp [← before]; omega) reached
        rw [found] at held
        cases held

theorem WellShaped.find?_child (shaped : tree.WellShaped) {level : ScopeId}
    (inside : level.index < tree.size) (name : String) :
    tree.find? (DottedName.child (tree.raw level) name) = tree.resolveRelative level name := by
  obtain ⟨frame, formed, dotless, same⟩ := shaped
  have descends := dotless.find?_segments formed (same.size ▸ inside)
    (fun segment (member : segment ∈ DottedName.splitDots name.toList) =>
      DottedName.dotless_of_mem_splitDots member)
    (show (DottedName.child (frame.raw level) name).toList = _ by
      rw [DottedName.flatMap_splitDots, DottedName.toList_child])
  rw [same.find?, same.raw, descends]
  simp only [resolveRelative, DottedName.segments, same.child?]

/-- Lookup along the links of a tree is the search by paths, for every name and from every scope. -/
theorem lookup_eq_lookupByPath {root : String} (built : Built root tree) (name : String) {origin : ScopeId}
    (inside : origin.index < tree.size) : tree.lookup name origin = tree.lookupByPath name origin := by
  have levels : ∀ level ∈ tree.ancestors origin,
      tree.find? (DottedName.child (tree.raw level) name) = tree.resolveRelative level name := by
    intro level around
    exact built.wellShaped.find?_child (Nat.lt_of_le_of_lt (index_le_of_mem_ancestors around) inside) name
  unfold lookup lookupByPath
  generalize tree.ancestors origin = ancestors at levels ⊢
  induction ancestors with
  | nil => rfl
  | cons level outer ih =>
    rw [List.findSome?_cons, List.findSome?_cons, levels level List.mem_cons_self,
      ih fun level member => levels level (List.mem_cons_of_mem _ member)]

/-- A class with a member `render`, a scope `other` beside it, and below that a scope of the empty name
that was cleared. -/
def memberTree : ScopeTree :=
  let tree := ((ScopeTree.new "__G").internChild root "Foo" .class_).1
  let tree := (tree.internChild ⟨1⟩ "render" .value).1.setEntity ⟨2⟩ (.new (.variable (.new "render" none)))
  let tree := (tree.internChild ⟨1⟩ "other" .function).1
  let tree := (tree.internChild ⟨3⟩ "" .table).1.setEntity ⟨4⟩ (.new (.table ⟨"", .empty⟩))
  tree.clearDescendants ⟨3⟩

private theorem built_memberTree : Built "__G" memberTree := by
  refine .clearDescendants _ (.setEntity _ _ (.internChild _ (.internChild _ (.setEntity _ _ (.internChild _
    (.internChild _ .new ?_ ?_) ?_ ?_)) ?_ ?_) ?_ ?_)) <;> decide +kernel

/-- The member is found from beside it through the root, and what was cleared is found by neither search. -/
theorem lookup_memberTree :
    Built "__G" memberTree ∧ (⟨3⟩ : ScopeId).index < memberTree.size ∧
      memberTree.lookup "Foo.render" ⟨3⟩ = memberTree.lookupByPath "Foo.render" ⟨3⟩ ∧
      memberTree.lookupByPath "Foo.render" ⟨3⟩ = some ⟨2⟩ ∧ memberTree.lookup "" ⟨3⟩ = none := by
  have inside : (⟨3⟩ : ScopeId).index < memberTree.size := by decide +kernel
  exact ⟨built_memberTree, inside, lookup_eq_lookupByPath built_memberTree "Foo.render" inside, by
    decide +kernel, by decide +kernel⟩

end ScopeTree
end LuaClasses
