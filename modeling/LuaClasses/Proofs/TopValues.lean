import LuaClasses.Proofs.AnchorWalk
import LuaClasses.Proofs.Awaiting
import LuaClasses.Proofs.Deferral
import LuaClasses.Proofs.IndexConsistency
import LuaClasses.Proofs.Underlings

/-! Paths that the top level gives to names. From then on the name waits for what the path leads to, or
refers to it, unless the name or the path stands for something other than a variable. For while the top
level is indexed, all references of variables there wait for names that are looked up from the root, or
are kept under the paths to which they lead. -/

namespace LuaClasses

namespace DottedName

theorem child_ne_empty (parent name : String) : child parent name ≠ "" := by
  intro empty
  have chars := congrArg String.toList empty
  simp at chars

theorem child_child (parent owner name : String) :
    child (child parent owner) name = child parent (child owner name) := by
  apply String.toList_injective
  simp

theorem child_cancel {parent one two : String} (same : child parent one = child parent two) : one = two := by
  have chars := congrArg String.toList same
  simp only [toList_child, List.append_cancel_left_eq, List.cons.injEq, true_and] at chars
  exact String.toList_injective chars

end DottedName

namespace ScopeTree

variable {tree before after : ScopeTree} {name path : String} {id : ScopeId}

/-- Whether a name of the top level stands for something other than a variable. -/
def Taken (tree : ScopeTree) (name : String) : Prop :=
  ∃ kind, tree.standing? name = some kind ∧ ∀ var, kind ≠ .variable var

theorem Taken.settles (taken : before.Taken name) (settles : before.Settles after) : after.Taken name := by
  obtain ⟨kind, stands, other⟩ := taken
  cases kind with
  | class_ held =>
    obtain ⟨later, reached⟩ := settles.class_ stands
    exact ⟨_, reached, nofun⟩
  | _ => exact ⟨_, settles.stands stands nofun, other⟩

theorem taken_of_standing (same : after.standing? name = before.standing? name)
    (taken : before.Taken name) : after.Taken name := by
  rwa [Taken, same]

theorem taken_of_held {entity : Entity} (hangs : tree.child? root name = some id)
    (held : tree.entity? id = some entity) (other : entity.asVariable? = none) : tree.Taken name := by
  refine ⟨entity.kind.outline, standing?_eq_some.2 ⟨id, entity, hangs, held, rfl⟩, ?_⟩
  obtain ⟨references, kind⟩ := entity
  cases kind with
  | «variable» var => cases other
  | _ => nofun

theorem Taken.variableAt? (taken : tree.Taken name) (hangs : tree.child? root name = some id) :
    tree.variableAt? id = none := by
  obtain ⟨kind, stands, other⟩ := taken
  cases found : tree.variableAt? id with
  | none => rfl
  | some var =>
    obtain ⟨references, held⟩ := variableAt?_eq_some found
    rw [standing?_of_hangs hangs, held] at stands
    exact absurd (Option.some.inj stands).symm (other _)

theorem Keyed.of_entity? (keyed : before.Keyed id) (formed : before.Formed) (keeps : before.Keeps after)
    (same : after.entity? id = before.entity? id) : after.Keyed id := by
  intro key reference named kept
  rw [reference?_of_entity? same] at kept
  refine (keyed named kept).imp_right fun ⟨target, leads, path⟩ => ⟨target, leads, ?_⟩
  rw [keeps.raw formed (index_lt_of_raw (path ▸ named)), path]

/-- Whether a name of the top level waits for what a path leads to, if both stand for variables. -/
def Reads (tree : ScopeTree) (name path : String) : Prop :=
  tree.Taken name ∨ tree.Taken path ∨ ∃ id, tree.child? root name = some id ∧ tree.Awaits id path

end ScopeTree

namespace Discovery
open ScopeTree Relation

variable {config : DiscoveryConfig} {program : Program} {tree : ScopeTree} {id : ScopeId} {name path : String}

/-! ### Values that are paths -/

theorem unparen_of_dottedPath? {expr : Expr} (written : expr.dottedPath? = some path) :
    (∃ name, expr.unparen = .name name) ∨ ∃ object name, expr.unparen = .member object name := by
  induction expr using Expr.unparen.induct with
  | case1 inner ih => exact ih written
  | case2 expr other =>
    cases expr with
    | name name => exact .inl ⟨name, rfl⟩
    | member object name => exact .inr ⟨object, name, rfl⟩
    | paren inner => exact absurd rfl (other inner)
    | _ => cases written

/-- At the top level a path that is not predefined is read as a name. -/
theorem uses_of_dottedPath? {expr : Expr} (written : expr.dottedPath? = some path)
    (unknown : config.builtinType? path = none) :
    Uses config (.at_ root) expr (.read path) := by
  induction expr using Expr.unparen.induct with
  | case1 inner ih => exact .paren (ih written)
  | case2 expr other =>
    cases expr with
    | name name =>
      cases written
      exact .name unknown rfl
    | member object name =>
      obtain ⟨base, inner, rfl⟩ := Option.map_eq_some_iff.1 written
      exact .path inner unknown fun _ _ => rfl
    | paren inner => exact absurd rfl (other inner)
    | _ => cases written

theorem ne_empty_of_dottedPath? {expr : Expr} (written : expr.dottedPath? = some path)
    (proper : ∀ name ∈ expr.names, name ≠ "") :
    path ≠ "" := by
  induction expr using Expr.unparen.induct with
  | case1 inner ih => exact ih written proper
  | case2 expr other =>
    cases expr with
    | name name =>
      cases written
      exact proper _ (List.mem_singleton_self _)
    | member object name =>
      obtain ⟨base, _, rfl⟩ := Option.map_eq_some_iff.1 written
      exact DottedName.child_ne_empty base name
    | paren inner => exact absurd rfl (other inner)
    | _ => cases written

/-! ### Evidence -/

theorem Evidence.Told.waits {frame : Frame} {evidence : Evidence} (told : evidence.Told tree frame) :
    evidence.WaitsFrom (· = frame.scope) := by
  intro target origin same
  cases told with
  | unresolved =>
    cases same
    rfl
  | _ => cases same

private theorem Evidence.get?_absorb {evidence : Evidence} {entity : Entity} {reference : Reference}
    (given : evidence.referenceOf id = some reference) (key : String)
    (at_ : referenceKey tree reference = key) :
    (evidence.absorb tree id entity).1.references.get? key =
      if improves entity.references key reference then some reference else entity.references.get? key := by
  subst at_
  unfold absorb
  rw [given]
  dsimp only
  split
  next => rw [OrderedMap.get?_insert, if_pos rfl]
  next => rfl

/-- Where a path leads to a variable or nowhere, reading it refers to the variable or waits for it. -/
theorem reference_of_uses (formed : tree.Formed) {value : Expr}
    (uses : Uses config (.at_ root) value (.read path))
    (vars : ∀ target, tree.lookup path root = some target → (tree.variableAt? target).isSome = true) :
    (classifyValue config tree (.at_ root) (some value)).reference = some (.unresolved path root) ∨
      ∃ target, tree.find? (DottedName.child (tree.raw root) path) = some target ∧
        (classifyValue config tree (.at_ root) (some value)).reference = some (.resolved target) := by
  have evidence : classifyValue config tree (.at_ root) (some value) = _ := uses.classify_eq
  rw [evidence, Use.evidence, classifyPath]
  cases found : tree.lookup path (Frame.at_ root).scope with
  | none => exact .inl rfl
  | some target =>
    obtain ⟨held, var⟩ := Option.isSome_iff_exists.1 (vars target found)
    obtain ⟨references, present⟩ := variableAt?_eq_some var
    refine .inr ⟨target, formed.find?_of_lookup found, ?_⟩
    simp only [valueOf, present, Option.map_some]
    rfl

/-- What is kept under a key where it leads, or where nothing is, is not in the way of a path that no
scope has. -/
theorem awaits_applyEvidence (formed : tree.Formed) (foreign : tree.Foreign path)
    (named : path ≠ "") (keyed : tree.Keyed id)
    {entity : Entity} (held : tree.entity? id = some entity) {evidence : Evidence}
    (leads : evidence.reference = some (.unresolved path root) ∨
      ∃ target, tree.find? (DottedName.child (tree.raw root) path) = some target ∧ evidence.reference =
        some (.resolved target)) :
    (applyEvidence tree id evidence).1.Awaits id path := by
  have taken : ∀ key, (applyEvidence tree id evidence).1.reference? id key =
      (evidence.absorb tree id entity).1.references.get? key := by
    intro key
    rw [applyEvidence_held tree held, reference?_of_held
      (entity?_setEntity_self (index_lt_of_entity? held) _)]
  have known : ∀ {key reference}, key ≠ "" → entity.references.get? key = some reference →
      reference = .unresolved key root ∨ ∃ target, reference = .resolved target ∧ tree.raw target = key :=
    fun named kept => keyed named ((reference?_of_held held).trans kept)
  have shape : SameShape (applyEvidence tree id evidence).1 tree := by
    rw [applyEvidence_held tree held]
    exact sameShape_setEntity tree id _
  rcases leads with waits | ⟨target, found, refers⟩
  · have given : evidence.referenceOf id = some (.unresolved path root) := by
      rw [Evidence.referenceOf, waits]
      rfl
    refine .inl ((taken path).trans ((Evidence.get?_absorb given path rfl).trans ?_))
    cases former : entity.references.get? path with
    | none => simp [improves, former]
    | some reference =>
      rcases known named former with rfl | ⟨target, _, at_⟩
      · simp
      · exact absurd at_ (foreign target)
  · refine .inr ⟨target, by rw [shape.raw, shape.find?, found], ?_⟩
    by_cases self : target = id
    · exact .inl self
    · have raw := raw_of_find? found
      have stays : tree.raw target ≠ "" := by rw [raw]; exact DottedName.child_ne_empty _ _
      have given : evidence.referenceOf id = some (.resolved target) := by
        rw [Evidence.referenceOf, refers, Option.filter_some, if_pos]
        simpa [Reference.target?] using self
      refine .inr ⟨tree.raw target, stays,
        (taken _).trans ((Evidence.get?_absorb given (tree.raw target) rfl).trans ?_)⟩
      cases former : entity.references.get? (tree.raw target) with
      | none => simp [improves, former]
      | some reference =>
        rcases known stays former with rfl | ⟨other, rfl, same⟩
        · simp [improves, former, Reference.isResolved]
        · obtain rfl := formed.raw_inj stays same
          simp

end Discovery
end LuaClasses
