import LuaClasses.Proofs.StateGrowth
import LuaClasses.Proofs.Names

/-! Trees without dots in their names. In such a tree the path of a scope tells its parent and its
name, so what leads to a path and what hangs below a scope are the same. -/

namespace LuaClasses

namespace DottedName

@[simp] theorem toList_child (parent name : String) :
    (child parent name).toList = parent.toList ++ '.' :: name.toList := by
  simp [child]

/-- A path that ends in a name without dots can be read in one way only. -/
theorem child_inj {first second one two : String} (left : '.' ∉ one.toList) (right : '.' ∉ two.toList)
    (same : child first one = child second two) : first = second ∧ one = two := by
  have chars := congrArg String.toList same
  simp only [toList_child] at chars
  rcases List.append_eq_append_iff.1 chars with ⟨more, split, rest⟩ | ⟨more, split, rest⟩
  all_goals
    rcases more with _ | ⟨dot, more⟩
    · simp only [List.append_nil, List.nil_append, List.cons.injEq, true_and] at split rest
      exact ⟨String.toList_injective (by simp [split]), String.toList_injective (by simp [rest])⟩
    · simp only [List.cons_append, List.cons.injEq] at rest
      simp [rest.2] at left right

/-- A name without dots is one segment. -/
theorem segments_of_dotless {name : String} (plain : '.' ∉ name.toList) : segments name = [name] := by
  have single : ∀ chars : List Char, '.' ∉ chars → splitDots chars = [chars] := by
    intro chars absent
    induction chars with
    | nil => rfl
    | cons char rest ih =>
      simp only [List.mem_cons, not_or] at absent
      rw [splitDots, if_neg (Ne.symm absent.1), ih absent.2]
  rw [segments, single _ plain, List.map_singleton, String.ofList_toList]

end DottedName

namespace ScopeTree

/-- A name without dots leads to a child of a scope around the one from which it is looked up. -/
theorem exists_child_of_lookup {tree : ScopeTree} {name : String} {origin id : ScopeId}
    (plain : '.' ∉ name.toList) (found : tree.lookup name origin = some id) :
    ∃ level ∈ tree.ancestors origin, tree.child? level name = some id := by
  obtain ⟨level, around, reached⟩ := List.exists_of_findSome?_eq_some found
  have below := (Option.filter_eq_some_iff.1 reached).1
  rw [resolveRelative, DottedName.segments_of_dotless plain] at below
  refine ⟨level, around, ?_⟩
  simpa using below

/-- No name below the root has a dot in it. -/
def Dotless (tree : ScopeTree) : Prop :=
  ∀ ⦃id node⦄, tree.node? id = some node → id ≠ ScopeTree.root → '.' ∉ node.name.toList

variable {tree : ScopeTree}

theorem Dotless.child (dotless : tree.Dotless) (formed : tree.Formed) {parent id : ScopeId} {name : String}
    (found : tree.child? parent name = some id) : '.' ∉ name.toList := by
  obtain ⟨node, present, named, _, older, _⟩ := formed.child found
  rw [← named]
  refine dotless present fun top => ?_
  rw [top] at older
  exact Nat.not_lt_zero _ older

/-- Every path begins with that of the root. -/
theorem Formed.length_raw_root (formed : tree.Formed) {id : ScopeId} (inside : id.index < tree.size) :
    (tree.raw ScopeTree.root).toList.length ≤ (tree.raw id).toList.length := by
  by_cases top : id = ScopeTree.root
  · exact Nat.le_of_eq (by rw [top])
  · obtain ⟨node, found⟩ := exists_node? inside
    obtain ⟨parent, _, older, hangs⟩ := formed.below found top
    obtain ⟨held, present, _, _, _, raw⟩ := formed.child hangs
    have shorter := formed.length_raw_root (Nat.lt_trans older inside)
    rw [raw_of_node? present, raw, DottedName.toList_child]
    simp only [List.length_append, List.length_cons]
    omega
  termination_by id.index

theorem Formed.raw_root_ne_child (formed : tree.Formed) {parent : ScopeId} (inside : parent.index < tree.size)
    (name : String) : tree.raw ScopeTree.root ≠ DottedName.child (tree.raw parent) name := by
  intro same
  have shorter := formed.length_raw_root inside
  rw [same, DottedName.toList_child, List.length_append, List.length_cons] at shorter
  omega

/-- In a tree without dots a path below a scope leads to the child of the scope. -/
theorem Dotless.find?_child (dotless : tree.Dotless) (formed : tree.Formed) {parent : ScopeId} {name : String}
    (plain : '.' ∉ name.toList) (inside : parent.index < tree.size) :
    tree.find? (DottedName.child (tree.raw parent) name) = tree.child? parent name := by
  cases found : tree.find? (DottedName.child (tree.raw parent) name) with
  | some id =>
    have raw := raw_of_find? found
    obtain ⟨node, present⟩ := exists_node? (index_lt_of_find? found)
    have apart : id ≠ ScopeTree.root := by
      rintro rfl
      exact formed.raw_root_ne_child inside name raw
    obtain ⟨holder, _, older, hangs⟩ := formed.below present apart
    obtain ⟨held, there, _, _, _, path⟩ := formed.child hangs
    cases present.symm.trans there
    rw [raw_of_node? present, path] at raw
    obtain ⟨same, rfl⟩ := DottedName.child_inj (dotless present apart) plain raw
    have holderInside := Nat.lt_trans older (index_lt_of_node? present)
    have equal := formed.find?_raw holderInside
    rw [same, formed.find?_raw inside] at equal
    cases equal
    exact hangs.symm
  | none =>
    cases other : tree.child? parent name with
    | none => rfl
    | some id => rw [formed.find?_child other] at found; cases found

theorem Dotless.child?_internChild (dotless : tree.Dotless) (formed : tree.Formed) {parent : ScopeId}
    {name : String} (plain : '.' ∉ name.toList) (inside : parent.index < tree.size)
    (valueType : ValueType) :
    (tree.internChild parent name valueType).1.child? parent name =
    some (tree.internChild parent name valueType).2 := by
  cases found : tree.find? (DottedName.child (tree.raw parent) name) with
  | some id =>
    rw [internChild_found valueType found, ← dotless.find?_child formed plain inside]
    exact found
  | none =>
    obtain ⟨node, present⟩ := exists_node? inside
    have fresh : node.children.get? name = none := by
      rw [dotless.find?_child formed plain inside] at found
      simpa [child?, present] using found
    rw [internChild_snd valueType found]
    simp [child?, node?_internChild valueType found, Nat.ne_of_lt inside, present,
      OrderedMap.get?_insertNew, fresh]

/-! ### Writes keep dots out -/

theorem Dotless.of_sameShape {after : ScopeTree} (dotless : tree.Dotless) (same : SameShape after tree) :
    after.Dotless := by
  intro id node found apart
  obtain ⟨old, present, equal⟩ := same.node? found
  have named : old.vacant.name = node.vacant.name := by rw [equal]
  have plain := dotless present apart
  exact (show old.name = node.name from named) ▸ plain

theorem Dotless.internChild (dotless : tree.Dotless) {name : String} (plain : '.' ∉ name.toList)
    (parent : ScopeId) (valueType : ValueType) : (tree.internChild parent name valueType).1.Dotless := by
  cases found : tree.find? (DottedName.child (tree.raw parent) name) with
  | some id => rw [internChild_found valueType found]; exact dotless
  | none =>
    intro id node present apart
    rw [node?_internChild valueType found] at present
    split at present
    next => cases present; exact plain
    next =>
      split at present
      next =>
        obtain ⟨old, there, rfl⟩ := Option.map_eq_some_iff.1 present
        have plain := dotless there apart
        exact plain
      next => exact dotless present apart

/-! ### The scopes of instance fields -/

/-- Whether a scope is not one that holds the instance fields of a class. -/
def Ordinary (tree : ScopeTree) (id : ScopeId) : Prop := ∀ owner, tree.child? owner fieldsName ≠ some id

theorem Formed.ordinary_root (formed : tree.Formed) : tree.Ordinary ScopeTree.root := by
  intro owner found
  obtain ⟨_, _, _, _, older, _⟩ := formed.child found
  exact Nat.not_lt_zero _ older

theorem Formed.ordinary_child (formed : tree.Formed) {parent id : ScopeId} {name : String}
    (found : tree.child? parent name = some id) (apart : name ≠ fieldsName) : tree.Ordinary id := by
  intro owner other
  obtain ⟨one, first, named, _⟩ := formed.child found
  obtain ⟨two, second, called, _⟩ := formed.child other
  cases first.symm.trans second
  exact apart (named.symm.trans called)

theorem Formed.parent?_of_child (formed : tree.Formed) {parent id : ScopeId} {name : String}
    (found : tree.child? parent name = some id) : tree.parent? id = some parent := by
  obtain ⟨node, present, _, above, _⟩ := formed.child found
  rw [parent?, present, Option.bind_some, above]

/-- Every scope that has a parent hangs below it by a name. -/
theorem Formed.child_of_parent? (formed : tree.Formed) {parent id : ScopeId}
    (above : tree.parent? id = some parent) :
    ∃ name, tree.child? parent name = some id := by
  obtain ⟨node, present, parented⟩ := Option.bind_eq_some_iff.1 above
  have apart : id ≠ ScopeTree.root := by
    rintro rfl
    obtain ⟨top, there, absent⟩ := formed.root
    cases present.symm.trans there
    rw [absent] at parented
    cases parented
  obtain ⟨holder, held, _, hangs⟩ := formed.below present apart
  cases held.symm.trans parented
  exact ⟨_, hangs⟩

/-- A scope hangs below one scope only, by one name. -/
theorem Formed.child_unique (formed : tree.Formed) {first second id : ScopeId} {one two : String}
    (left : tree.child? first one = some id) (right : tree.child? second two = some id) :
    first = second ∧ one = two := by
  obtain ⟨node, present, named, above, _⟩ := formed.child left
  obtain ⟨other, there, called, parented, _⟩ := formed.child right
  cases present.symm.trans there
  exact ⟨Option.some.inj (above.symm.trans parented), named.symm.trans called⟩

end ScopeTree
end LuaClasses
