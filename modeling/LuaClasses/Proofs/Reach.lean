import LuaClasses.Proofs.Ancestry
import LuaClasses.Proofs.Targets

/-! How far the steps of a walk reach. A lookup from a scope leads below a scope around it, and the path
of that scope is a beginning of its own. So the paths that a step may make follow from the path at which
it is done. -/

namespace LuaClasses

namespace DottedName

/-- The beginnings of a path, the path included. -/
def beginnings (path : String) : List String := path.toList.inits.map String.ofList

theorem mem_beginnings {start path : String} : start ∈ beginnings path ↔ start.toList <+: path.toList := by
  unfold beginnings
  rw [List.mem_map]
  constructor
  · rintro ⟨chars, begins, rfl⟩
    rw [String.toList_ofList]
    exact (List.mem_inits _ _).1 begins
  · intro begins
    exact ⟨start.toList, (List.mem_inits _ _).2 begins, String.ofList_toList⟩

theorem self_mem_beginnings (path : String) : path ∈ beginnings path := mem_beginnings.2 List.prefix_rfl

/-- The segments of a name with a dot before each are the name with a dot before it. -/
theorem flatMap_splitDots (chars : List Char) :
    (splitDots chars).flatMap (fun segment => '.' :: segment) = '.' :: chars := by
  induction chars with
  | nil => rfl
  | cons char rest ih =>
    rw [splitDots]
    split
    next dot => rw [dot, List.flatMap_cons, ih]; rfl
    next =>
      cases parts : splitDots rest with
      | nil => rw [parts] at ih; cases ih
      | cons segment others =>
        rw [parts, List.flatMap_cons, List.cons_append] at ih
        rw [List.flatMap_cons, List.cons_append, List.cons_append, (List.cons.inj ih).2]

end DottedName

namespace ScopeTree

variable {tree : ScopeTree}

theorem raw_mem_beginnings (formed : tree.Formed) {outer inner : ScopeId}
    (around : outer ∈ tree.ancestors inner) :
    tree.raw outer ∈ DottedName.beginnings (tree.raw inner) := by
  induction inner using ancestors_induction tree with
  | below inner parent above older ih =>
    rw [ancestors_of_parent? formed above] at around
    rcases List.mem_cons.1 around with rfl | further
    · exact DottedName.self_mem_beginnings _
    · obtain ⟨name, hangs⟩ := formed.child_of_parent? above
      obtain ⟨node, found, _, _, _, raw⟩ := formed.child hangs
      have begins := DottedName.mem_beginnings.1 (ih further)
      rw [raw_of_node? found, raw, DottedName.mem_beginnings, DottedName.toList_child]
      exact begins.trans (List.prefix_append _ _)
  | outermost inner outermost =>
    rw [outermost.ancestors, List.mem_singleton] at around
    exact around ▸ DottedName.self_mem_beginnings _

/-- Whatever dots are in a name, what it leads to stands at its path below the scope from which it
descends. -/
theorem raw_of_resolveRelative (formed : tree.Formed) {origin id : ScopeId} {name : String}
    (found : tree.resolveRelative origin name = some id) :
    tree.raw id = DottedName.child (tree.raw origin) name := by
  have descend : ∀ (segments : List (List Char)) (origin : ScopeId),
      (segments.map String.ofList).foldlM (fun scope segment => tree.child? scope segment) origin = some id →
        (tree.raw id).toList = (tree.raw origin).toList ++ segments.flatMap
        fun segment => '.' :: segment := by
    intro segments
    induction segments with
    | nil =>
      intro origin same
      cases same
      simp
    | cons segment rest ih =>
      intro origin reached
      rw [List.map_cons, List.foldlM_cons] at reached
      obtain ⟨child, hangs, below⟩ := Option.bind_eq_some_iff.1 reached
      obtain ⟨node, present, _, _, _, raw⟩ := formed.child hangs
      rw [ih child below, raw_of_node? present, raw, DottedName.toList_child,
        String.toList_ofList, List.flatMap_cons,
        List.append_assoc]
  apply String.toList_injective
  rw [descend _ origin found, DottedName.flatMap_splitDots, DottedName.toList_child]

private theorem raw_of_lookup (formed : tree.Formed) {name : String} {origin id : ScopeId}
    (found : tree.lookup name origin = some id) :
    ∃ start ∈ DottedName.beginnings (tree.raw origin), tree.raw id = DottedName.child start name := by
  obtain ⟨level, around, reached⟩ := List.exists_of_findSome?_eq_some found
  have below := (Option.filter_eq_some_iff.1 reached).1
  exact ⟨tree.raw level, raw_mem_beginnings formed around, raw_of_resolveRelative formed below⟩

private theorem raw_of_nearestClass (formed : tree.Formed) {origin owner : ScopeId}
    (nearest : tree.nearestClass origin = some owner) :
    tree.raw owner ∈ DottedName.beginnings (tree.raw origin) :=
  raw_mem_beginnings formed (List.mem_of_find?_eq_some nearest)

end ScopeTree

namespace Discovery

/-- The paths that an assignment to a target may make. -/
def targetPaths (scope : String) (target : Expr) : List String :=
  match target.unparen with
  | .name name => [DottedName.child scope name]
  | .member object name =>
    match object.name? with
    | some base =>
      (DottedName.beginnings scope).flatMap fun start =>
        let fields := DottedName.child start ScopeTree.fieldsName
        let held := DottedName.child start base
        [fields, DottedName.child fields name, held, DottedName.child held name]
    | none => []
  | _ => []

namespace Action

/-- The paths that a step may make in a scope. -/
def paths (scope : String) : Action → List String
  | .block kind index => [DottedName.child scope (blockName kind index)]
  | .local_ name _ => [DottedName.child scope name]
  | .target expr _ => targetPaths scope expr
  | .return_ _ => []

end Action

namespace Site

def paths (site : Site) : List String := site.action.paths site.scope

def targets (config : DiscoveryConfig) (classes : List String) (site : Site) : List String :=
  site.action.values.flatMap (Expr.targets config classes)

end Site
end Discovery

open Discovery
namespace Horizon

/-- Whether a horizon has all that a step may make. -/
structure Serves (horizon : Horizon) (config : DiscoveryConfig) (site : Site) : Prop where
  paths : site.paths ⊆ horizon.paths
  targets : site.targets config horizon.names ⊆ horizon.keys

variable {horizon : Horizon} {config : DiscoveryConfig}

theorem Serves.value {site : Site} (serves : horizon.Serves config site) {expr : Expr}
    (evaluated : expr ∈ site.action.values) :
    expr.targets config horizon.names ⊆ horizon.keys := by
  intro target member
  exact serves.targets (List.mem_flatMap.2 ⟨expr, evaluated, member⟩)

namespace Holds

variable {state : State} (holds : horizon.Holds state.tree) (closed : horizon.Closed config)
include holds closed

theorem assignName {frame : Frame} {name : String} {evidence : Evidence} (admits : horizon.Admits evidence)
    (within : DottedName.child (state.tree.raw frame.scope) name ∈ horizon.paths) (range : Range) :
    horizon.Holds (Discovery.assignName state frame name evidence range).1.tree := by
  unfold Discovery.assignName
  split
  next => exact (holds.defineLocal within range).applyEvidence closed admits _
  next id _ =>
    split
    next => exact holds.applyEvidence closed admits id
    next => rw [State.tree_warn]; exact holds

theorem assign (formed : state.tree.Formed) {frame : Frame} {target : Expr}
    {evidence : Evidence} (admits : horizon.Admits evidence)
    (within : targetPaths (state.tree.raw frame.scope) target ⊆ horizon.paths) (range : Range) :
    horizon.Holds (Discovery.assign state frame target evidence range).1.tree := by
  unfold Discovery.assign
  unfold targetPaths at within
  generalize target.unparen = form at within ⊢
  cases form with
  | name name => exact holds.assignName closed admits (within List.mem_cons_self) range
  | member object name =>
    cases named : object.name? with
    | none => simp only [named]; rw [State.tree_warn]; exact holds
    | some base =>
      simp only [named] at within ⊢
      have reach : ∀ start ∈ DottedName.beginnings (state.tree.raw frame.scope), ∀ path ∈
          [DottedName.child start ScopeTree.fieldsName,
            DottedName.child (DottedName.child start ScopeTree.fieldsName) name,
            DottedName.child start base, DottedName.child (DottedName.child start base) name],
              path ∈ horizon.paths :=
        fun start begins path member => within (List.mem_flatMap.2 ⟨start, begins, member⟩)
      have here := DottedName.self_mem_beginnings (state.tree.raw frame.scope)
      split
      next =>
        refine holds.assignField closed admits (fun owner nearest => ?_) range
        have begins := ScopeTree.raw_of_nearestClass formed nearest
        exact ⟨reach _ begins _ (by simp), reach _ begins _ (by simp)⟩
      next =>
        refine holds.assignMember closed admits (reach _ here _ (by simp)) ?_ range
        rw [baseScope_eq]
        split
        next id found =>
          obtain ⟨start, begins, raw⟩ := ScopeTree.raw_of_lookup formed found
          rw [raw]
          exact reach start begins _ (by simp)
        next =>
          rw [ScopeTree.raw_of_find? (ScopeTree.find?_internChild .table state.tree frame.scope base)]
          exact reach _ here _ (by simp)
  | _ => dsimp only; rw [State.tree_warn]; exact holds

theorem action (formed : state.tree.Formed) {frame : Frame} {range : Range} {action : Action}
    (paths : action.paths (state.tree.raw frame.scope) ⊆ horizon.paths)
    (values : ∀ expr ∈ action.values, expr.targets config horizon.names ⊆ horizon.keys) :
    horizon.Holds (action.run config frame range state).1.tree := by
  cases action with
  | block kind index => exact holds.enterBlock (paths List.mem_cons_self)
  | local_ name value =>
    have admits := admits_classifyValue holds closed frame values
    exact (holds.defineLocal (paths List.mem_cons_self) range).applyEvidence closed admits _
  | target expr value =>
    have admits := admits_classifyValue holds closed frame values
    exact holds.assign closed formed admits paths range
  | return_ results =>
    have admits := admits_returnEvidence holds closed frame values
    simp only [Action.run]
    split
    next => exact holds
    next function _ => exact holds.applyEvidence closed admits function

theorem site (formed : state.tree.Formed) (frame : Frame) {site : Site}
    (serves : horizon.Serves config site) :
    horizon.Holds (site.run config frame state).1.tree := by
  unfold Site.run
  split
  next scope found =>
    have paths := serves.paths
    rw [Site.paths, ← ScopeTree.raw_of_find? found] at paths
    exact holds.action closed formed paths fun _ => serves.value
  next => exact holds

end Holds
end Horizon
end LuaClasses
