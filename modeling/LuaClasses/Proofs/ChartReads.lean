import LuaClasses.Proofs.Charts
import LuaClasses.Proofs.Targets

/-! What is read of a tree follows from its chart. Where two charts show entities of the same kinds, a
name leads to the same path in both trees, and an expression tells the same. -/

namespace LuaClasses

/-- The kind of an entity as far as a reader tells it from others. -/
inductive Tag where
  | «variable»
  | function
  | constructor
  | table
  | class_ (name : String)
  | block
  deriving DecidableEq

def Shape.tag : Shape → Tag
  | .variable _ => .variable
  | .function _ _ => .function
  | .constructor _ _ _ => .constructor
  | .table => .table
  | .class_ held => .class_ held.name
  | .block => .block

def EntityKind.tag : EntityKind → Tag
  | .variable _ => .variable
  | .function _ => .function
  | .constructor _ => .constructor
  | .table _ => .table
  | .class_ held => .class_ held.name
  | .block _ => .block

@[simp] theorem EntityKind.tag_shape (raw : ScopeId → String) (kind : EntityKind) :
    (kind.shape raw).tag = kind.tag := by
  cases kind <;> rfl

namespace ScopeTree
open DottedName

/-- The kind of the entity at a path. -/
def tag? (tree : ScopeTree) (path : String) : Option Tag := (tree.chart path).map fun look => look.shape.tag

/-- Scopes of two trees that stand at the same path. -/
structure Twins (first second : ScopeTree) (one two : ScopeId) : Prop where
  left : one.index < first.size
  right : two.index < second.size
  path : first.raw one = second.raw two

theorem Twins.symm {first second : ScopeTree} {one two : ScopeId} (twins : Twins first second one two) :
    Twins second first two one :=
  ⟨twins.right, twins.left, twins.path.symm⟩

/-! ### Scopes around a scope -/

/-- The paths of a scope and of the scopes around it. -/
def levels (tree : ScopeTree) (origin : ScopeId) : List String := (tree.ancestors origin).map tree.raw

section Around

variable {tree first second : ScopeTree}

/-- A scope is the root or hangs below an older one by a name without dots. -/
theorem WellShaped.parent_cases (shaped : tree.WellShaped) {id : ScopeId} (inside : id.index < tree.size) :
    (id = root ∧ tree.parent? id = none) ∨ ∃ parent name, tree.parent? id = some parent ∧
    parent.index < id.index ∧
      '.' ∉ name.toList ∧ tree.raw id = child (tree.raw parent) name ∧ tree.child? parent name = some id := by
  obtain ⟨frame, formed, dotless, same⟩ := shaped
  by_cases top : id = root
  · exact .inl ⟨top, by rw [same.parent?, top, formed.parent?_root]⟩
  · obtain ⟨node, present⟩ := exists_node? (same.size ▸ inside)
    obtain ⟨parent, above, older, hangs⟩ := formed.below present top
    obtain ⟨other, found, _, _, _, raw⟩ := formed.child hangs
    refine .inr ⟨parent, node.name, ?_, older, dotless.child formed hangs, ?_, by rw [same.child?, hangs]⟩
    · rw [same.parent?, ScopeTree.parent?, present, Option.bind_some, above]
    · rw [same.raw, same.raw, raw_of_node? found, raw]

theorem WellShaped.raw_root_ne_child (shaped : tree.WellShaped) {parent : ScopeId}
    (inside : parent.index < tree.size) (name : String) :
    tree.raw root ≠ child (tree.raw parent) name := by
  obtain ⟨frame, formed, _, same⟩ := shaped
  rw [same.raw, same.raw]
  exact formed.raw_root_ne_child (same.size ▸ inside) name

variable (left : first.WellShaped) (right : second.WellShaped) (top : first.raw root = second.raw root)
  {one two : ScopeId}
include left right top

/-- What is around scopes of the same path is the same. -/
theorem Twins.parents (twins : Twins first second one two) :
    (first.parent? one = none ∧ second.parent? two = none) ∨
      ∃ outer other, first.parent? one = some outer ∧ second.parent? two = some other ∧
        outer.index < one.index ∧
        other.index < two.index ∧ Twins first second outer other := by
  rcases left.parent_cases twins.left with ⟨rfl, above⟩ | ⟨outer, name, above, older, plain, raw, _⟩
  · refine .inl ⟨above, ?_⟩
    rcases right.parent_cases twins.right with ⟨_, alone⟩ | ⟨other, called, _, newer, _, there, _⟩
    · exact alone
    · exact absurd (top.symm.trans (twins.path.trans there))
        (right.raw_root_ne_child (Nat.lt_trans newer twins.right) called)
  · rcases right.parent_cases twins.right with ⟨rfl, _⟩ | ⟨other, called, beside, newer, dotless, there, _⟩
    · exact absurd (top.trans (twins.path.symm.trans raw))
        (left.raw_root_ne_child (Nat.lt_trans older twins.left) name)
    · have same := (child_inj plain dotless (raw.symm.trans (twins.path.trans there))).1
      exact .inr ⟨outer, other, above, beside, older, newer, Nat.lt_trans older twins.left,
        Nat.lt_trans newer twins.right, same⟩

theorem Twins.levels (twins : Twins first second one two) : first.levels one = second.levels two := by
  induction one using ancestors_induction first generalizing two with
  | below one outer above older ih =>
    rcases twins.parents left right top with ⟨alone, _⟩ | ⟨_, other, found, beside, _, newer, around⟩
    · cases above.symm.trans alone
    · cases above.symm.trans found
      have inner := ih around
      rw [ScopeTree.levels, ScopeTree.levels] at inner ⊢
      rw [ancestors_of_older above older, ancestors_of_older beside newer, List.map_cons,
        List.map_cons, twins.path, inner]
  | outermost one outermost =>
    rcases twins.parents left right top with ⟨_, alone⟩ | ⟨_, _, found, _, older, _⟩
    · rw [ScopeTree.levels, ScopeTree.levels, outermost.ancestors, ancestors_of_top alone,
        List.map_singleton, List.map_singleton,
        twins.path]
    · exact absurd older (outermost _ found)

end Around

/-! ### Lookup -/

private theorem findSome?_congr {α β : Type} {f g : α → Option β} {list : List α}
    (same : ∀ member ∈ list, f member = g member) :
    list.findSome? f = list.findSome? g := by
  induction list with
  | nil => rfl
  | cons head rest ih =>
    rw [List.findSome?_cons, List.findSome?_cons, same head List.mem_cons_self,
      ih fun member there => same member (List.mem_cons_of_mem _ there)]

section Lookup

variable {tree first second : ScopeTree}

private theorem isSome_tag? (tree : ScopeTree) (path : String) :
    (tree.tag? path).isSome = (tree.chart path).isSome := by
  rw [tag?, Option.isSome_map]

theorem tag?_raw (shaped : tree.WellShaped) {id : ScopeId} (inside : id.index < tree.size) :
    tree.tag? (tree.raw id) = (tree.entity? id).map fun entity => entity.kind.tag := by
  rw [tag?, chart_raw shaped inside, Option.map_map]
  exact Option.map_congr fun entity _ => EntityKind.tag_shape tree.raw entity.kind

theorem hasEntity_eq (shaped : tree.WellShaped) {id : ScopeId} (inside : id.index < tree.size) :
    tree.hasEntity id = (tree.tag? (tree.raw id)).isSome := by
  rw [tag?_raw shaped inside, Option.isSome_map, hasEntity]

/-- A name leads to the first path around a scope that goes on with the name and at which something stands. -/
theorem raw_lookup (shaped : tree.WellShaped) {origin : ScopeId} (inside : origin.index < tree.size)
    (name : String) :
    (tree.lookup name origin).map tree.raw = (tree.levels origin).findSome? fun level =>
      if (tree.tag? (child level name)).isSome then some (child level name) else none := by
  have within : ∀ level ∈ tree.ancestors origin, level.index < tree.size :=
    fun level around => Nat.lt_of_le_of_lt (index_le_of_mem_ancestors around) inside
  rw [lookup, levels]
  generalize tree.ancestors origin = around at within ⊢
  induction around with
  | nil => rfl
  | cons level outer ih =>
    have others := ih fun level member => within level (List.mem_cons_of_mem _ member)
    rw [List.map_cons, List.findSome?_cons,
      List.findSome?_cons, ← shaped.find?_child (within level List.mem_cons_self),
      isSome_tag?, chart]
    cases found : tree.find? (child (tree.raw level) name) with
    | none => exact others
    | some id =>
      rw [Option.bind_some, Option.isSome_map, ← hasEntity, Option.filter_some]
      cases tree.hasEntity id with
      | false => exact others
      | true => exact congrArg some (raw_of_find? found)

variable {visible : String → Prop}

/-- Two trees in which entities of the same kinds stand at all visible paths. What is around a visible
path is visible. -/
structure Agree (visible : String → Prop) (first second : ScopeTree) : Prop where
  left : first.WellShaped
  right : second.WellShaped
  top : first.raw root = second.raw root
  tags : ∀ path, visible path → first.tag? path = second.tag? path
  around : ∀ path name, visible (child path name) → visible path

namespace Agree

variable (agree : Agree visible first second) {one two : ScopeId} (twins : Twins first second one two)
include agree twins

theorem tag? (seen : visible (first.raw one)) :
    (first.entity? one).map (fun entity => entity.kind.tag) = (second.entity? two).map
    fun entity => entity.kind.tag := by
  rw [← tag?_raw agree.left twins.left, ← tag?_raw agree.right twins.right, ← twins.path]
  exact agree.tags _ seen

theorem levels : first.levels one = second.levels two := twins.levels agree.left agree.right agree.top

/-- A name leads to the same path from scopes of the same path, or nowhere from both. -/
theorem lookup {name : String} (seen : ∀ level ∈ first.levels one, visible (child level name)) :
    (first.lookup name one = none ∧ second.lookup name two = none) ∨ ∃ found other,
    first.lookup name one = some found ∧
      second.lookup name two = some other ∧ Twins first second found other ∧ visible (first.raw found) := by
  have left := raw_lookup agree.left twins.left name
  have right := raw_lookup agree.right twins.right name
  have same : (first.levels one).findSome? (fun level =>
      if (first.tag? (child level name)).isSome then some (child level name) else none) =
      (second.levels two).findSome? fun level =>
        if (second.tag? (child level name)).isSome then some (child level name) else none := by
    rw [← agree.levels twins]
    refine findSome?_congr fun level around => ?_
    rw [agree.tags _ (seen level around)]
  cases found : first.lookup name one with
  | none =>
    refine .inl ⟨rfl, ?_⟩
    rw [found, Option.map_none] at left
    rw [← left.trans same] at right
    exact Option.map_eq_none_iff.1 right
  | some id =>
    have leads := left
    rw [found, Option.map_some] at left
    rw [← left.trans same] at right
    obtain ⟨other, reached, path⟩ := Option.map_eq_some_iff.1 right
    obtain ⟨level, around, ends⟩ := List.exists_of_findSome?_eq_some left.symm
    obtain ⟨_, ends⟩ := Option.ite_none_right_eq_some.1 ends
    refine .inr ⟨id, other, rfl, reached, ⟨index_lt_of_hasEntity (hasEntity_of_lookup found),
      index_lt_of_hasEntity (hasEntity_of_lookup reached), path.symm⟩, ?_⟩
    rw [← Option.some.inj ends]
    exact seen level around

theorem instanceOfConstructor? (seen : visible (first.raw one)) :
    Discovery.instanceOfConstructor? first one = Discovery.instanceOfConstructor? second two := by
  have tagged : ∀ {tree : ScopeTree} {id : ScopeId}, (tree.classAt? id).map Class.instanceType =
      ((tree.entity? id).map fun entity => entity.kind.tag).bind fun
        | .class_ name => some (.instanceOf name)
        | _ => none := by
    intro tree id
    rw [classAt?]
    cases tree.entity? id with
    | none => rfl
    | some entity =>
      obtain ⟨references, kind⟩ := entity
      cases kind <;> rfl
  rw [Discovery.instanceOfConstructor?, Discovery.instanceOfConstructor?]
  rcases twins.parents agree.left agree.right agree.top with ⟨left, right⟩ | ⟨outer, other,
    left, right, _, _, around⟩
  · rw [left, right]; rfl
  · obtain ⟨parent, name, above, _, _, raw, _⟩ :=
      (agree.left.parent_cases twins.left).resolve_left fun alone => by
      cases left.symm.trans alone.2
    cases above.symm.trans left
    rw [left, right, Option.bind_some, Option.bind_some, tagged, tagged]
    rw [agree.tag? around (agree.around _ name (raw ▸ seen))]

end Agree
end Lookup
end ScopeTree

namespace Discovery
open ScopeTree DottedName

variable {first second : ScopeTree}

/-- References of the same path in two trees, or none. What leads somewhere leads to a visible path, and
what waits does so for a name of some kind. -/
inductive Referents (visible known : String → Prop) (first second : ScopeTree) :
    Option Reference → Option Reference → Prop
  | none : Referents visible known first second none none
  | resolved {one two : ScopeId} (twins : Twins first second one two) (seen : visible (first.raw one)) :
      Referents visible known first second (some (.resolved one)) (some (.resolved two))
  | unresolved {one two : ScopeId} {name : String} (named : known name) (twins : Twins first second one two) :
      Referents visible known first second (some (.unresolved name one)) (some (.unresolved name two))

/-- Evidence in two trees that tells the same. -/
structure Testify (visible known : String → Prop) (first second : ScopeTree) (one two : Evidence) : Prop where
  types : one.types = two.types
  references : Referents visible known first second one.reference two.reference

namespace Testify

variable {visible known : String → Prop}

theorem none : Testify visible known first second .none .none := ⟨rfl, .none⟩

theorem ofType (type : LuaType) : Testify visible known first second (.ofType type) (.ofType type) :=
  ⟨rfl, .none⟩

end Testify

/-- A class of two trees that looks the same in both. -/
structure SameClass (visible : String → Prop) (classes : List String) (first second : ScopeTree)
    (owner other : ScopeId) : Prop where
  twins : Twins first second owner other
  seen : visible (first.raw owner)
  held : ∃ held like, first.classAt? owner = some held ∧ second.classAt? other = some like ∧
    held.look first.raw = like.look second.raw ∧ held.name ∈ classes ∧
    (∀ id ∈ held.fields.values, id.index < first.size ∧ visible (first.raw id)) ∧
    ∀ id ∈ like.fields.values, id.index < second.size

/-- Frames in two trees from which the same is read. -/
structure Readers (visible known : String → Prop) (classes : List String) (first second : ScopeTree)
    (one two : Frame) : Prop where
  agree : Agree visible first second
  scope : Twins first second one.scope two.scope
  selfAlias : one.selfAlias = two.selfAlias
  /-- Where a name stands for the instance, the same class is around both, and its fields are visible. -/
  instances : one.selfAlias ≠ none → ∃ owner other, first.nearestClass one.scope = some owner ∧
    second.nearestClass two.scope = some other ∧ SameClass visible classes first second owner other
  /-- What a name of the kind may lead to is visible. -/
  seen : ∀ name, known name → ∀ level ∈ first.levels one.scope, visible (child level name)

namespace Readers

variable {visible known : String → Prop} {classes : List String} {one two : Frame}
  (readers : Readers visible known classes first second one two)
include readers

theorem isAlias (name : String) : one.isAlias name = two.isAlias name := by
  rw [Frame.isAlias, Frame.isAlias, readers.selfAlias]

theorem instances_of_isAlias {name : String} (instanceName : one.isAlias name = true) :
    ∃ owner other, first.nearestClass one.scope = some owner ∧ second.nearestClass two.scope = some other ∧
      SameClass visible classes first second owner other := by
  refine readers.instances fun absent => ?_
  simp [Frame.isAlias, absent] at instanceName

theorem valueOf {id other : ScopeId} (twins : Twins first second id other) (seen : visible (first.raw id)) :
    Testify visible known first second (valueOf first id) (valueOf second other) := by
  have same := readers.agree.tag? twins seen
  rw [Discovery.valueOf, Discovery.valueOf]
  cases left : first.entity? id with
  | none =>
    rw [left, Option.map_none, eq_comm, Option.map_eq_none_iff] at same
    rw [same]
    exact .none
  | some entity =>
    rw [left, Option.map_some, eq_comm, Option.map_eq_some_iff] at same
    obtain ⟨like, right, same⟩ := same
    rw [right]
    obtain ⟨_, kind⟩ := entity
    obtain ⟨_, other⟩ := like
    cases kind <;> cases other <;> try cases same
    all_goals first | exact ⟨rfl, .resolved twins seen⟩ | exact .ofType _ | exact .none

theorem classifyPath {path : String} (named : known path) :
    Testify visible known first second (classifyPath first one path) (classifyPath second two path) := by
  rw [Discovery.classifyPath, Discovery.classifyPath]
  rcases readers.agree.lookup readers.scope (readers.seen path named) with ⟨left, right⟩ | ⟨found, other,
    left, right, twins, visible⟩
  · rw [left, right]
    exact ⟨rfl, .unresolved named readers.scope⟩
  · rw [left, right]
    exact readers.valueOf twins visible

section Known

variable (config : DiscoveryConfig)

theorem classifyName {name : String} (named : known name) :
    Testify visible known first second (classifyName config first one name)
      (classifyName config second two name) := by
  rw [Discovery.classifyName, Discovery.classifyName, ← readers.isAlias]
  cases config.builtinType? name with
  | some type => exact .ofType type
  | none =>
    dsimp only
    split
    next instanceName =>
      obtain ⟨owner, other, left, right, same⟩ := readers.instances_of_isAlias instanceName
      rw [left, right]
      exact ⟨rfl, .resolved same.twins same.seen⟩
    next => exact readers.classifyPath named

theorem classifyInstanceMember {receiver name : String} (instanceName : one.isAlias receiver = true)
    (within : ∀ owner ∈ classes, known (child (child owner fieldsName) name)) :
    Testify visible known first second (classifyInstanceMember first one name)
      (classifyInstanceMember second two name) := by
  obtain ⟨owner, other, left, right, class_⟩ := readers.instances_of_isAlias instanceName
  obtain ⟨held, like, found, beside, same, named, listed, likewise⟩ := class_.held
  have fields := congrArg (fun look => look.fields.get? name) same
  simp only [Class.look, OrderedMap.get?_mapValues] at fields
  have methods := congrArg (fun look => look.methods.contains name) same
  have functions := congrArg (fun look => look.functions.contains name) same
  simp only [Class.look, OrderedMap.contains_mapValues] at methods functions
  have called := congrArg ClassLook.name same
  simp only [Class.look] at called
  rw [Discovery.classifyInstanceMember, Discovery.classifyInstanceMember, left, right,
    Option.bind_some, Option.bind_some, found,
    beside]
  dsimp only
  cases given : held.fields.get? name with
  | some field =>
    rw [given, Option.map_some, eq_comm, Option.map_eq_some_iff] at fields
    obtain ⟨counterpart, there, path⟩ := fields
    rw [there]
    obtain ⟨inside, visible⟩ := listed field (List.mem_map_of_mem (OrderedMap.mem_entries_of_get? given))
    have other := likewise counterpart (List.mem_map_of_mem (OrderedMap.mem_entries_of_get? there))
    exact ⟨rfl, .resolved ⟨inside, other, path.symm⟩ visible⟩
  | none =>
    rw [given, Option.map_none, eq_comm, Option.map_eq_none_iff] at fields
    rw [fields, methods, functions, ← called]
    dsimp only
    split
    next => exact .ofType _
    next => exact ⟨rfl, .unresolved (within _ named) readers.scope⟩

theorem callTarget? {path : String} (within : ∀ target ∈ callTargets config classes path, known target) :
    (callTarget? config first one path = none ∧ callTarget? config second two path = none) ∨
      ∃ target, known target ∧ callTarget? config first one path = some target ∧
        callTarget? config second two path = some target := by
  rw [Discovery.callTarget?, Discovery.callTarget?]
  rw [callTargets] at within
  cases whole : splitLast? path with
  | none =>
    rw [whole] at within
    exact .inr ⟨path, within _ (List.mem_singleton_self _), rfl, rfl⟩
  | some parts =>
    rw [whole] at within
    dsimp only at within ⊢
    rw [← readers.isAlias]
    split
    next instanceName =>
      obtain ⟨owner, other, left, right, class_⟩ := readers.instances_of_isAlias instanceName
      obtain ⟨held, like, found, beside, same, named, _⟩ := class_.held
      have called := congrArg ClassLook.name same
      simp only [Class.look] at called
      refine .inr ⟨_, within _ (List.mem_cons_of_mem _ (List.mem_map_of_mem named)), ?_, ?_⟩
      · rw [left, Option.bind_some, found, Option.map_some]
      · rw [right, Option.bind_some, beside, Option.map_some, called]
    next => exact .inr ⟨_, within _ List.mem_cons_self, rfl, rfl⟩

theorem classifyCall {path : String} (within : ∀ target ∈ callTargets config classes path, known target) :
    Testify visible known first second (classifyCall config first one path)
      (classifyCall config second two path) := by
  rw [Discovery.classifyCall, Discovery.classifyCall]
  cases config.builtinType? path with
  | some type => exact .ofType type
  | none =>
    dsimp only
    rcases readers.callTarget? config within with ⟨left, right⟩ | ⟨target, named, left, right⟩
    · rw [left, right]
      exact .none
    · rw [left, right]
      dsimp only
      rcases readers.agree.lookup readers.scope (readers.seen target named) with ⟨left, right⟩ | ⟨found,
        other, left, right, twins, visible⟩
      · rw [left, right]
        exact ⟨rfl, .unresolved named readers.scope⟩
      · rw [left, right]
        have same := readers.agree.tag? twins visible
        have made := readers.agree.instanceOfConstructor? twins visible
        dsimp only
        cases left : first.entity? found with
        | none =>
          rw [left, Option.map_none, eq_comm, Option.map_eq_none_iff] at same
          rw [same]
          exact .none
        | some entity =>
          rw [left, Option.map_some, eq_comm, Option.map_eq_some_iff] at same
          obtain ⟨like, right, same⟩ := same
          rw [right]
          obtain ⟨_, kind⟩ := entity
          obtain ⟨_, counterpart⟩ := like
          cases kind <;> cases counterpart <;> try cases same
          case function.function.refl => exact ⟨rfl, .resolved twins visible⟩
          case constructor.constructor.refl =>
            dsimp only [Option.map_some]
            rw [← made]
            cases Discovery.instanceOfConstructor? first found with
            | some type => exact .ofType type
            | none => exact .none
          all_goals exact .none

theorem classifyMember {object : Expr} {name : String}
    (within : ∀ target ∈ Expr.targets config classes (.member object name), known target) :
    Testify visible known first second (classifyMember config first one object name)
      (classifyMember config second two object name) := by
  rw [Discovery.classifyMember, Discovery.classifyMember]
  rw [Expr.targets] at within
  cases based : object.dottedPath? with
  | none => exact .none
  | some base =>
    rw [based] at within
    obtain ⟨named, fields⟩ := List.forall_mem_cons.1 within
    dsimp only
    cases config.builtinType? (child base name) with
    | some type => exact .ofType type
    | none =>
      dsimp only
      cases object.name? with
      | none => exact readers.classifyPath named
      | some receiver =>
        dsimp only
        rw [← readers.isAlias]
        split
        next instanceName =>
          exact readers.classifyInstanceMember instanceName fun owner listed =>
            fields _ (List.mem_map_of_mem listed)
        next => exact readers.classifyPath named

theorem classify {expr : Expr} (within : ∀ target ∈ expr.targets config classes, known target) :
    Testify visible known first second (classify config first one expr)
      (classify config second two expr) := by
  induction expr using Expr.targets.induct with
  | case1 inner ih => exact ih within
  | case2 name =>
    exact readers.classifyName config (within name List.mem_cons_self)
  | case3 object name base based => exact readers.classifyMember config within
  | case4 object name based => exact readers.classifyMember config within
  | case5 callee args path called =>
    unfold Expr.targets at within
    unfold Discovery.classify
    rw [called] at within ⊢
    exact readers.classifyCall config within
  | case6 callee args called =>
    unfold Discovery.classify
    rw [called]
    exact .none
  | case7 object method args base based =>
    unfold Expr.targets at within
    unfold Discovery.classify
    rw [based] at within ⊢
    exact readers.classifyCall config within
  | case8 object method args based =>
    unfold Discovery.classify
    rw [based]
    exact .none
  | case9 op left right first second =>
    unfold Expr.targets at within
    obtain ⟨one, two⟩ := List.forall_mem_append.1 within
    unfold Discovery.classify
    cases op.resultType? with
    | some type => exact .ofType type
    | none => exact ⟨by rw [(first one).types, (second two).types], .none⟩
  | case10 expr notParen notName notMember notCall notMethodCall notBinary =>
    have closed : ∀ tree frame tree' frame', Discovery.classify config tree frame expr =
      Discovery.classify config tree' frame' expr ∧
        (Discovery.classify config tree frame expr).reference = none := by
      intro tree frame tree' frame'
      cases expr with
      | paren inner => exact (notParen inner rfl).elim
      | name path => exact (notName path rfl).elim
      | member object key => exact (notMember object key rfl).elim
      | call callee args => exact (notCall callee args rfl).elim
      | methodCall object method args => exact (notMethodCall object method args rfl).elim
      | binary op left right => exact (notBinary op left right rfl).elim
      | unary op operand => exact ⟨rfl, rfl⟩
      | _ =>
        refine ⟨rfl, ?_⟩
        unfold Discovery.classify
        split <;> rfl
    obtain ⟨same, free⟩ := closed first one second two
    rw [← same]
    exact ⟨rfl, free ▸ .none⟩

theorem classifyValue {value : Option Expr}
    (within : ∀ expr ∈ value, ∀ target ∈ expr.targets config classes, known target) :
    Testify visible known first second (classifyValue config first one value)
      (classifyValue config second two value) := by
  cases value with
  | none => exact .none
  | some expr => exact readers.classify config (within expr rfl)

theorem returnEvidence {values : List Expr}
    (within : ∀ expr ∈ values.head?, ∀ target ∈ expr.targets config classes, known target) :
    Testify visible known first second (returnEvidence config first one values)
      (returnEvidence config second two values) := by
  cases values with
  | nil => exact .ofType _
  | cons expr rest => exact readers.classify config (within expr rfl)

end Known
end Readers
end Discovery
end LuaClasses
