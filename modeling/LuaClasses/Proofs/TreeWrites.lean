import LuaClasses.Proofs.Ancestry
import LuaClasses.Proofs.Reached
import Mathlib.Data.List.Induction
import Mathlib.Data.List.Perm.Basic
import Mathlib.Logic.Function.Iterate

/-! Tables of scopes that come about by any writes whatever. The path, the name and the parent of a new
scope need not agree with each other; even so the tables stay in step, a path leads to the one scope that
has it, parents and children name each other, no write moves what it finds, and the walks up and down the
tree come to an end. All of it is shown of the tree over the tables and then read off the tables
themselves. -/

namespace LuaClasses

/-- A path that still has its place in the tree and all the children it had. -/
structure ScopePath.Stays (before after : ScopePath) : Prop where
  raw : after.raw = before.raw
  name : after.name = before.name
  parent : after.parent = before.parent
  valueType : after.valueType = before.valueType
  children : before.children.Within after.children

namespace ScopePath.Stays

variable {first second third : ScopePath}

theorem refl (path : ScopePath) : Stays path path := ⟨rfl, rfl, rfl, rfl, .refl _⟩

theorem trans (one : Stays first second) (two : Stays second third) : Stays first third where
  raw := two.raw.trans one.raw
  name := two.name.trans one.name
  parent := two.parent.trans one.parent
  valueType := two.valueType.trans one.valueType
  children := one.children.trans two.children

end ScopePath.Stays

namespace Arena

/-- A write to the tables of a tree of scopes. -/
inductive Write where
  | intern (raw name : String) (parent : Option ScopeId) (valueType : ValueType)
  | child (parent : ScopeId) (name : String) (valueType : ValueType)
  | field (owner : ScopeId) (name : String)
  | place (id : ScopeId) (entity : Entity)
  | clear (id : ScopeId)

def write (arena : Arena) : Write → Arena
  | .intern raw name parent valueType => (arena.internPath raw name parent valueType).1
  | .child parent name valueType => (arena.internChild parent name valueType).1
  | .field owner name => (arena.internField owner name).1
  | .place id entity => arena.setEntity id entity
  | .clear id => arena.clearDescendants id

/-- The paths in the order in which they came. -/
def raws (arena : Arena) : List String := arena.paths.toList.map ScopePath.raw

/-- What the parents, the names and the children of the paths say about each other. -/
structure Consistent (arena : Arena) : Prop where
  older : ∀ {id parent}, arena.parent? id = some parent → parent.index < id.index
  child : ∀ {parent name id}, arena.child? parent name = some id →
    ∃ path, arena.path? id = some path ∧ path.parent = some parent ∧
      path.name = name ∧ parent.index < id.index
  /-- Of the scopes of one name and one parent, the parent lists one. -/
  listed : ∀ {id path parent}, arena.path? id = some path → path.parent = some parent →
    ∃ first, arena.child? parent path.name = some first

/-- Every path is still there and stays where it is. -/
def Stays (before after : Arena) : Prop :=
  ∀ ⦃id path⦄, before.path? id = some path → ∃ later, after.path? id = some later ∧ path.Stays later

variable {arena before after : Arena}

namespace Stays

theorem refl (arena : Arena) : Stays arena arena := fun _ path present => ⟨path, present, .refl path⟩

theorem trans {third : Arena} (one : Stays before after) (two : Stays after third) : Stays before third := by
  intro id path present
  obtain ⟨later, held, first⟩ := one present
  obtain ⟨last, there, second⟩ := two held
  exact ⟨last, there, first.trans second⟩

theorem of_paths (same : after.paths = before.paths) : Stays before after := by
  intro id path present
  exact ⟨path, by rwa [path?, same], .refl path⟩

theorem child? (stays : before.Stays after) {holder id : ScopeId} {key : String}
    (found : before.child? holder key = some id) : after.child? holder key = some id := by
  obtain ⟨path, present, held⟩ := Option.bind_eq_some_iff.1 found
  obtain ⟨later, there, kept⟩ := stays present
  exact Option.bind_eq_some_iff.2 ⟨later, there, kept.children _ _ held⟩

end Stays

/-! ### The tables in step -/

private theorem paths_foldl_clear (arena : Arena) (ids : List ScopeId) :
    (ids.foldl clearEntity arena).paths = arena.paths := by
  induction ids generalizing arena with
  | nil => rfl
  | cons id rest ih => exact ih _

private theorem paths_clearDescendants (arena : Arena) (id : ScopeId) :
    (arena.clearDescendants id).paths = arena.paths :=
  paths_foldl_clear arena _

theorem InStep.clearDescendants (inStep : arena.InStep) (id : ScopeId) :
    (arena.clearDescendants id).InStep := by
  unfold Arena.clearDescendants
  generalize arena.descendants id = ids
  induction ids generalizing arena with
  | nil => exact inStep
  | cons id rest ih => exact ih (inStep.modifySlot id _)

theorem InStep.write (inStep : arena.InStep) (next : Write) : (arena.write next).InStep := by
  cases next with
  | intern raw name parent valueType => exact inStep.internPath raw name parent valueType
  | child parent name valueType => exact inStep.internChild parent name valueType
  | field owner name => exact inStep.internField owner name
  | place id entity => exact inStep.modifySlot id _
  | clear id => exact inStep.clearDescendants id

/-- No two scopes share a path, for the paths are the names of a map. -/
theorem InStep.raws_nodup (inStep : arena.InStep) : arena.raws.Nodup := by
  have names : arena.byRaw.entries.map Prod.fst = arena.raws := by
    rw [inStep.known]
    refine List.ext_getElem? fun index => ?_
    simp only [raws, List.getElem?_map, List.getElem?_mapIdx, Option.map_map]
    rfl
  exact names ▸ arena.byRaw.distinct

/-! ### A new scope -/

variable {raw name : String} {parent : Option ScopeId} {valueType : ValueType}

/-- A path of tables with a new scope is the new one, or it was there before. -/
theorem path_of_internPath (absent : arena.find? raw = none) {id : ScopeId} {path : ScopePath}
    (present : (arena.internPath raw name parent valueType).1.path? id = some path) :
    id = ⟨arena.size⟩ ∧ path.name = name ∧ path.parent = parent.filter
      (fun parent => parent.index < arena.size) ∨
      ∃ old, arena.path? id = some old ∧ old.name = path.name ∧ old.parent = path.parent := by
  rw [path?_internPath absent] at present
  split at present
  next last =>
    cases present
    exact .inl ⟨ScopeId.eq_of_index last, rfl, rfl⟩
  next =>
    split at present
    next =>
      obtain ⟨old, held, rfl⟩ := Option.map_eq_some_iff.1 present
      exact .inr ⟨old, held, rfl, rfl⟩
    next => exact .inr ⟨path, present, rfl, rfl⟩

private theorem filter_inside {holder : ScopeId} :
    parent.filter (fun parent => parent.index < arena.size) = some holder ↔ parent = some holder ∧
      holder.index < arena.size := by
  simp [Option.filter_eq_some_iff]

private theorem index_lt_of_path? {id : ScopeId} {path : ScopePath}
    (present : arena.path? id = some path) : id.index < arena.size :=
  (Array.getElem?_eq_some_iff.1 present).1

private theorem child?_internPath (absent : arena.find? raw = none) (holder : ScopeId) (key : String) :
    (arena.internPath raw name parent valueType).1.child? holder key =
      if parent = some holder ∧ holder.index < arena.size ∧ key = name then
        some ((arena.child? holder name).getD ⟨arena.size⟩)
      else arena.child? holder key := by
  simp only [child?, path?_internPath absent]
  by_cases last : holder.index = arena.size
  · have beyond : arena.path? holder = none := Array.getElem?_eq_none (Nat.le_of_eq last.symm)
    have childless : OrderedMap.empty.get? key = (none : Option ScopeId) := rfl
    simp [last, beyond, childless]
  · cases present : arena.path? holder with
    | none =>
      have outside : ¬ holder.index < arena.size := Nat.not_lt_of_le (Array.getElem?_eq_none_iff.1 present)
      simp [last, outside]
    | some path =>
      have inside := index_lt_of_path? present
      by_cases same : parent = some holder
      · simp only [last, same, inside, if_true, if_false, true_and, Option.map_some, Option.bind_some,
          OrderedMap.get?_insertNew]
      · simp [last, same]

private theorem stays_internPath (arena : Arena) (raw name : String) (parent : Option ScopeId)
    (valueType : ValueType) :
    arena.Stays (arena.internPath raw name parent valueType).1 := by
  cases found : arena.find? raw with
  | some id => rw [internPath_found found]; exact .refl arena
  | none =>
    intro id path present
    have old : id.index ≠ arena.size := Nat.ne_of_lt (index_lt_of_path? present)
    rw [path?_internPath found, if_neg old, present]
    split
    next => exact ⟨_, rfl, rfl, rfl, rfl, rfl, OrderedMap.within_insertNew _ _ _⟩
    next => exact ⟨path, rfl, .refl path⟩

private theorem stays_write (arena : Arena) (next : Write) : arena.Stays (arena.write next) := by
  cases next with
  | intern raw name parent valueType => exact stays_internPath arena raw name parent valueType
  | child parent name valueType => exact stays_internPath arena _ name (some parent) valueType
  | field owner name =>
    exact (stays_internPath arena _ ScopeTree.fieldsName (some owner) .table).trans
      (stays_internPath _ _ name (some _) .field)
  | place id entity => exact .of_paths rfl
  | clear id => exact .of_paths (paths_clearDescendants arena id)

/-! ### What every write leaves consistent -/

namespace Consistent

theorem new (root : String) : (Arena.new root).Consistent := by
  have top : ∀ {id path}, (Arena.new root).path? id = some path → path.parent = none ∧
      path.children = .empty := by
    intro id path present
    cases List.mem_singleton.1 (Array.mem_toList_iff.2 (Array.mem_of_getElem? present))
    exact ⟨rfl, rfl⟩
  refine ⟨fun {id parent} above => ?_, fun {parent name id} found => ?_,
    fun {id path parent} present above => ?_⟩
  · obtain ⟨path, present, held⟩ := Option.bind_eq_some_iff.1 above
    rw [(top present).1] at held
    cases held
  · obtain ⟨path, present, held⟩ := Option.bind_eq_some_iff.1 found
    rw [(top present).2] at held
    cases held
  · rw [(top present).1] at above
    cases above

theorem of_paths (consistent : before.Consistent) (same : after.paths = before.paths) : after.Consistent := by
  have paths : after.path? = before.path? := by funext id; rw [path?, path?, same]
  refine ⟨fun {id parent} above => ?_, fun {parent name id} found => ?_,
    fun {id path parent} present above => ?_⟩
  · rw [parent?, paths] at above
    exact consistent.older above
  · rw [child?, paths] at found
    rw [paths]
    exact consistent.child found
  · rw [paths] at present
    rw [child?, paths]
    exact consistent.listed present above

theorem internPath (consistent : arena.Consistent) (raw name : String) (parent : Option ScopeId)
    (valueType : ValueType) :
    (arena.internPath raw name parent valueType).1.Consistent := by
  cases found : arena.find? raw with
  | some id => rw [internPath_found found]; exact consistent
  | none =>
    have stays := stays_internPath arena raw name parent valueType
    have newest : (arena.internPath raw name parent valueType).1.path? ⟨arena.size⟩ =
        some ⟨raw, name, parent.filter fun parent => parent.index < arena.size, .empty, valueType⟩ := by
      rw [path?_internPath found, if_pos rfl]
    refine ⟨?_, ?_, ?_⟩
    · intro id holder above
      obtain ⟨path, present, hangs⟩ := Option.bind_eq_some_iff.1 above
      rcases path_of_internPath found present with ⟨rfl, _, same⟩ | ⟨old, held, _, same⟩
      · exact (filter_inside.1 (same ▸ hangs)).2
      · exact consistent.older (Option.bind_eq_some_iff.2 ⟨old, held, same.trans hangs⟩)
    · intro holder key id leads
      have kept : arena.child? holder key = some id → ∃ path,
        (arena.internPath raw name parent valueType).1.path? id = some path ∧
          path.parent = some holder ∧ path.name = key ∧ holder.index < id.index := by
        intro before
        obtain ⟨path, present, hangs, named, older⟩ := consistent.child before
        obtain ⟨later, held, same⟩ := stays present
        exact ⟨later, held, same.parent.trans hangs, same.name.trans named, older⟩
      rw [child?_internPath found] at leads
      split at leads
      next target =>
        obtain ⟨above, inside, rfl⟩ := target
        cases before : arena.child? holder key with
        | some first =>
          rw [before] at leads
          exact kept (before.trans leads)
        | none =>
          rw [before] at leads
          cases leads
          exact ⟨_, newest, filter_inside.2 ⟨above, inside⟩, rfl, inside⟩
      next => exact kept leads
    · intro id path holder present above
      rcases path_of_internPath found present with ⟨rfl, named, same⟩ | ⟨old, held, named, hangs⟩
      · obtain ⟨over_, inside⟩ := filter_inside.1 (same ▸ above)
        exact ⟨_, by rw [child?_internPath found, if_pos ⟨over_, inside, named⟩]⟩
      · obtain ⟨first, leads⟩ := consistent.listed held (hangs.trans above)
        exact ⟨first, named ▸ stays.child? leads⟩

theorem write (consistent : arena.Consistent) (next : Write) : (arena.write next).Consistent := by
  cases next with
  | intern raw name parent valueType => exact consistent.internPath raw name parent valueType
  | child parent name valueType => exact consistent.internPath _ name (some parent) valueType
  | field owner name =>
    exact (consistent.internPath _ ScopeTree.fieldsName (some owner) .table).internPath _ name (some _) .field
  | place id entity => exact consistent.of_paths rfl
  | clear id => exact consistent.of_paths (paths_clearDescendants arena id)

end Consistent

/-! ### The walks -/

/-- No parent is passed over: the ancestors of a scope are the scope and the ancestors of its parent. -/
theorem Consistent.ancestors_eq (consistent : arena.Consistent) (id : ScopeId) :
    arena.ancestors id = id :: ((arena.parent? id).map arena.ancestors).getD [] := by
  rw [ancestors.eq_1]
  cases above : arena.parent? id with
  | none => rfl
  | some parent => exact if_pos (consistent.older above)

/-- Going from parent to parent ends above the last of the ancestors. -/
theorem Consistent.climb (consistent : arena.Consistent) (id : ScopeId) :
    (Option.bind · arena.parent?)^[(arena.ancestors id).length] (some id) = none := by
  induction id using ancestors.induct arena with
  | case1 id parent above older ih =>
    rw [consistent.ancestors_eq, above]
    dsimp only [Option.map_some, Option.getD_some, List.length_cons]
    rw [Function.iterate_succ_apply, Option.bind_some, above]
    exact ih
  | case2 id parent above newer => exact absurd (consistent.older above) newer
  | case3 id top =>
    rw [consistent.ancestors_eq, top]
    exact top

/-- One turn of the loop that clears the scopes on a stack: the last one loses its entity and gives way
to its children. -/
def clearTurn : Arena × List ScopeId → Arena × List ScopeId
  | (arena, []) => (arena, [])
  | (arena, next :: waiting) => (arena.clearEntity next, (arena.children next).reverse ++ waiting)

/-- Scopes with what is below them. -/
def withBelow (arena : Arena) (ids : List ScopeId) : List ScopeId :=
  ids.flatMap fun id => id :: arena.descendants id

theorem mem_children {id child : ScopeId} :
    child ∈ arena.children id ↔ ∃ name, arena.child? id name = some child := by
  unfold children child?
  cases arena.path? id with
  | none => simp
  | some path =>
    simp only [Option.map_some, Option.getD_some, Option.bind_some, OrderedMap.get?_eq_some_iff,
      OrderedMap.values, List.mem_map]
    constructor
    · rintro ⟨⟨name, child⟩, listed, rfl⟩
      exact ⟨name, listed⟩
    · rintro ⟨name, listed⟩
      exact ⟨(name, child), listed, rfl⟩

theorem Consistent.descendants_eq (consistent : arena.Consistent) (id : ScopeId) :
    arena.descendants id = arena.withBelow (arena.children id) := by
  rw [descendants, withBelow]
  apply List.flatMap_congr
  intro child member
  obtain ⟨name, found⟩ := mem_children.1 member
  obtain ⟨path, present, _, _, newer⟩ := consistent.child found
  exact dif_pos ⟨newer, index_lt_of_path? present⟩

/-- What is below a scope is told by the paths alone. -/
theorem descendants_congr (same : after.paths = before.paths) (id : ScopeId) :
    after.descendants id = before.descendants id := by
  induction id using descendants.induct before with
  | case1 id ih =>
    have paths : after.path? id = before.path? id := by rw [path?, path?, same]
    rw [descendants, descendants, children, children, paths, size, size, same]
    apply List.flatMap_congr
    intro child _
    by_cases newer : id.index < child.index ∧ child.index < before.paths.size
    · rw [dif_pos newer, dif_pos newer, ih child newer]
    · rw [dif_neg newer, dif_neg newer]

private theorem clearEntity_comm (arena : Arena) (first second : ScopeId) :
    (arena.clearEntity first).clearEntity second = (arena.clearEntity second).clearEntity first := by
  refine congrArg (Arena.mk arena.paths · arena.byRaw) (Array.ext_getElem? fun index => ?_)
  simp only [clearEntity, modifySlot, Array.getElem?_modify]
  by_cases one : first.index = index <;> by_cases two : second.index = index <;> simp [one, two]

/-- The loop clears what waits and what is below, in an order of its own. -/
theorem Consistent.clearTurns (consistent : arena.Consistent) (waiting : List ScopeId) :
    ∃ order : List ScopeId, order.Perm (arena.withBelow waiting) ∧
      clearTurn^[order.length] (arena, waiting) = (order.foldl clearEntity arena, []) := by
  induction turns : (arena.withBelow waiting).length using Nat.strongRecOn generalizing arena waiting with
  | ind turns ih =>
    subst turns
    cases waiting with
    | nil => exact ⟨[], .refl _, rfl⟩
    | cons next rest =>
      have unmoved : (arena.clearEntity next).paths = arena.paths := rfl
      have same (id : ScopeId) : (arena.clearEntity next).descendants id = arena.descendants id :=
        descendants_congr unmoved id
      have below : ((arena.clearEntity next).withBelow ((arena.children next).reverse ++ rest)).Perm
          (arena.descendants next ++ arena.withBelow rest) := by
        rw [consistent.descendants_eq]
        simp only [withBelow, same, List.flatMap_append]
        exact ((arena.children next).reverse_perm.flatMap_right _).append_right _
      have shorter : ((arena.clearEntity next).withBelow ((arena.children next).reverse ++ rest)).length <
          (arena.withBelow (next :: rest)).length := by
        rw [below.length_eq]
        exact Nat.lt_succ_self _
      obtain ⟨order, visits, cleared⟩ := ih _ shorter (consistent.of_paths unmoved) _ rfl
      refine ⟨next :: order, ?_, ?_⟩
      · exact (visits.trans below).cons next
      · rw [List.length_cons, Function.iterate_succ_apply]
        exact cleared

theorem Consistent.clear_loop (consistent : arena.Consistent) (id : ScopeId) :
    clearTurn^[(arena.descendants id).length] (arena, (arena.children id).reverse) =
      (arena.clearDescendants id, []) := by
  obtain ⟨order, visits, cleared⟩ := consistent.clearTurns (arena.children id).reverse
  have all : order.Perm (arena.descendants id) := by
    rw [consistent.descendants_eq]
    exact visits.trans ((arena.children id).reverse_perm.flatMap_right _)
  have commutes : RightCommutative clearEntity := ⟨clearEntity_comm⟩
  rw [← all.length_eq, cleared, clearDescendants, all.foldl_eq]

end Arena

/-! ### The tree over the tables -/

/-- A node that still has its place in the tree and all the children it had. -/
structure Node.Stays (before after : Node) : Prop where
  raw : after.raw = before.raw
  name : after.name = before.name
  parent : after.parent = before.parent
  valueType : after.valueType = before.valueType
  children : before.children.Within after.children

namespace Node.Stays

variable {first second third : Node}

theorem refl (node : Node) : Stays node node := ⟨rfl, rfl, rfl, rfl, .refl _⟩

theorem trans (one : Stays first second) (two : Stays second third) : Stays first third where
  raw := two.raw.trans one.raw
  name := two.name.trans one.name
  parent := two.parent.trans one.parent
  valueType := two.valueType.trans one.valueType
  children := one.children.trans two.children

/-- What occupies a node has no part in its place. -/
theorem of_vacant (same : second.vacant = first.vacant) : Stays first second where
  raw := (Node.mk.inj same).1
  name := (Node.mk.inj same).2.1
  parent := (Node.mk.inj same).2.2.1
  valueType := (Node.mk.inj same).2.2.2.2.1
  children := by
    rw [(Node.mk.inj same).2.2.2.1]
    exact .refl _

end Node.Stays

namespace ScopeTree
open Arena (Write)

def write (tree : ScopeTree) : Write → ScopeTree
  | .intern raw name parent valueType => (tree.intern raw name parent valueType).1
  | .child parent name valueType => (tree.internChild parent name valueType).1
  | .field owner name => (tree.internField owner name).1
  | .place id entity => tree.setEntity id entity
  | .clear id => tree.clearDescendants id

/-- Every node is still there and stays where it is. -/
def Stays (before after : ScopeTree) : Prop :=
  ∀ ⦃id node⦄, before.node? id = some node → ∃ later, after.node? id = some later ∧ node.Stays later

variable {tree before after : ScopeTree}

namespace Stays

theorem refl (tree : ScopeTree) : Stays tree tree := fun _ node present => ⟨node, present, .refl node⟩

theorem trans {third : ScopeTree} (one : Stays before after) (two : Stays after third) :
    Stays before third := by
  intro id node present
  obtain ⟨later, held, first⟩ := one present
  obtain ⟨last, there, second⟩ := two held
  exact ⟨last, there, first.trans second⟩

theorem of_sameShape (same : SameShape after before) : Stays before after := by
  intro id node present
  obtain ⟨later, held, equal⟩ := same.symm.node? present
  exact ⟨later, held, .of_vacant equal⟩

private theorem of_toArena (stays : before.toArena.Stays after.toArena) : Stays before after := by
  intro id node present
  obtain ⟨path, found, rfl⟩ := (node?_eq_some_iff before).1 present
  obtain ⟨later, there, kept⟩ := stays found
  exact ⟨_, (node?_eq_some_iff after).2 ⟨later, there, rfl⟩, kept.raw, kept.name, kept.parent,
    kept.valueType, kept.children⟩

theorem child? (stays : before.Stays after) {holder id : ScopeId} {key : String}
    (found : before.child? holder key = some id) : after.child? holder key = some id := by
  obtain ⟨node, present, held⟩ := Option.bind_eq_some_iff.1 found
  obtain ⟨later, there, kept⟩ := stays present
  exact Option.bind_eq_some_iff.2 ⟨later, there, kept.children _ _ held⟩

end Stays

theorem stays_intern (tree : ScopeTree) (raw name : String) (parent : Option ScopeId)
    (valueType : ValueType) :
    tree.Stays (tree.intern raw name parent valueType).1 :=
  .of_toArena (Arena.stays_internPath tree.toArena raw name parent valueType)

theorem toArena_foldl_clear (tree : ScopeTree) (ids : List ScopeId) :
    (ids.foldl clearEntity tree).toArena = ids.foldl Arena.clearEntity tree.toArena := by
  induction ids generalizing tree with
  | nil => rfl
  | cons id rest ih => exact ih _

/-- Writing to the tree is writing to its tables. -/
theorem toArena_write (tree : ScopeTree) (next : Write) :
    (tree.write next).toArena = tree.toArena.write next := by
  have child (tree : ScopeTree) (parent : ScopeId) (name : String) (valueType : ValueType) :
      (tree.internChild parent name valueType).1.toArena =
      (tree.toArena.internChild parent name valueType).1 := by
    rw [internChild, raw_eq]
    rfl
  have number (tree : ScopeTree) (parent : ScopeId) (name : String) (valueType : ValueType) :
      (tree.internChild parent name valueType).2 = (tree.toArena.internChild parent name valueType).2 := by
    rw [internChild, raw_eq]
    rfl
  cases next with
  | intern raw name parent valueType => rfl
  | child parent name valueType => exact child tree parent name valueType
  | field owner name => simp only [write, internField, Arena.write, Arena.internField, child, number]
  | place id entity => rfl
  | clear id => exact toArena_foldl_clear tree _

private theorem toArena_writes (root : String) (writes : List Write) :
    (writes.foldl write (new root)).toArena = writes.foldl Arena.write (.new root) := by
  induction writes using List.reverseRecOn with
  | nil => rfl
  | append_singleton writes next ih => rw [List.foldl_concat, List.foldl_concat, toArena_write, ih]

end ScopeTree

namespace Arena

/-- Whatever is written to the tables of a tree of scopes in whatever order, they stay in step: there is
a place for an entity for each path, a path leads to the one scope that has it, and no two scopes share a
path. The parents, the names and the children of the paths agree with each other; a path that is known
leads to its scope and changes nothing; nothing that is written next moves a scope or takes a child from
it; and both the walk up to the root and the loop that clears what is below a scope come to an end. These
are the tables of the tree to which the same is written. -/
theorem written_tables_consistent (root : String) (writes : List Write) :
    let arena := writes.foldl write (new root)
    arena.InStep ∧
      (∀ raw id, arena.find? raw = some id ↔ ∃ path, arena.path? id = some path ∧ path.raw = raw) ∧
      arena.raws.Nodup ∧ arena.raws.length = arena.size ∧ arena.Consistent ∧
      (∀ {raw id} name parent valueType, arena.find? raw = some id →
        arena.internPath raw name parent valueType = (arena, id)) ∧
      (∀ next, arena.Stays (arena.write next)) ∧
      (∀ id, arena.ancestors id = id :: ((arena.parent? id).map arena.ancestors).getD [] ∧
        (Option.bind · arena.parent?)^[(arena.ancestors id).length] (some id) = none) ∧
      (∀ id, clearTurn^[(arena.descendants id).length] (arena, (arena.children id).reverse) =
        (arena.clearDescendants id, [])) ∧
      (writes.foldl ScopeTree.write (.new root)).toArena = arena := by
  have both : (writes.foldl write (new root)).InStep ∧ (writes.foldl write (new root)).Consistent := by
    induction writes using List.reverseRecOn with
    | nil => exact ⟨.new root, .new root⟩
    | append_singleton writes next ih =>
      rw [List.foldl_concat]
      exact ⟨ih.1.write next, ih.2.write next⟩
  obtain ⟨inStep, consistent⟩ := both
  refine ⟨inStep, fun raw id => inStep.find?_eq_some_iff, inStep.raws_nodup, ?_,
    consistent, ?_, stays_write _, ?_,
    consistent.clear_loop, ScopeTree.toArena_writes root writes⟩
  · rw [raws, List.length_map]
    rfl
  · intro raw id name parent valueType found
    exact internPath_found found
  · intro id
    exact ⟨consistent.ancestors_eq id, consistent.climb id⟩

end Arena
end LuaClasses
