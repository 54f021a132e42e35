import LuaClasses.Proofs.Ancestry
import LuaClasses.Proofs.Reached

/-! Sweeps only grow what is known. A name that leads somewhere goes on leading there, unless a
sweep makes something of that name closer to where it is looked up. -/

namespace LuaClasses

namespace DottedName

theorem segments_ne_nil (name : String) : segments name ≠ [] := by
  unfold segments
  generalize name.toList = chars
  induction chars with
  | nil => simp [splitDots]
  | cons char rest ih =>
    rw [splitDots]
    split
    next => simp
    next => split <;> simp

end DottedName

namespace ScopeTree

/-- What a name leads to from one level of the scopes around its origin. -/
def lookupAt (tree : ScopeTree) (name : String) (level : ScopeId) : Option ScopeId :=
  (tree.resolveRelative level name).filter fun found => tree.hasEntity found

theorem lookup_eq (tree : ScopeTree) (name : String) (origin : ScopeId) :
    tree.lookup name origin = (tree.ancestors origin).findSome? (tree.lookupAt name) := rfl

/-- A name leads to a scope from the level at a depth, counted outwards from its origin, and leads
nowhere from the levels inside it. -/
def FoundAt (tree : ScopeTree) (name : String) (origin : ScopeId) (depth : Nat) (id : ScopeId) : Prop :=
  ∃ inner level outer, tree.ancestors origin = inner ++ level :: outer ∧ inner.length = depth ∧
    tree.lookupAt name level = some id ∧ ∀ closer ∈ inner, tree.lookupAt name closer = none

theorem lookup_eq_some_iff (tree : ScopeTree) (name : String) (origin id : ScopeId) :
    tree.lookup name origin = some id ↔ ∃ depth, tree.FoundAt name origin depth id := by
  rw [lookup_eq, List.findSome?_eq_some_iff]
  constructor
  · rintro ⟨inner, level, outer, split, found, before⟩
    exact ⟨_, inner, level, outer, split, rfl, found, before⟩
  · rintro ⟨_, inner, level, outer, split, _, found, before⟩
    exact ⟨inner, level, outer, split, found, before⟩

/-- Where an item of a list gives a result, the first item that gives one stands at its place or
before it. -/
theorem exists_first {α β : Type} (f : α → Option β) (inner : List α) {item : α} (outer : List α) {result : β}
    (here : f item = some result) :
    ∃ before first after found, inner ++ item :: outer = before ++ first :: after ∧ f first = some found ∧
      (∀ other ∈ before, f other = none) ∧
      (before.length < inner.length ∨ before.length = inner.length ∧ found = result) := by
  induction inner with
  | nil => exact ⟨[], item, outer, result, rfl, here, nofun, .inr ⟨rfl, rfl⟩⟩
  | cons closer rest ih =>
    cases early : f closer with
    | some found => exact ⟨[], closer, _, found, rfl, early, nofun, .inl (Nat.succ_pos _)⟩
    | none =>
      obtain ⟨before, first, after, found, split, holds, vacant, order⟩ := ih
      refine ⟨closer :: before, first, after, found, congrArg (closer :: ·) split, holds, ?_, ?_⟩
      · exact List.forall_mem_cons.2 ⟨early, vacant⟩
      · simpa only [List.length_cons, Nat.add_lt_add_iff_right, Nat.add_right_cancel_iff] using order

/-- Only the scopes of a tree have anything below them. -/
theorem index_lt_of_lookupAt {tree : ScopeTree} {name : String} {level id : ScopeId}
    (found : tree.lookupAt name level = some id) : level.index < tree.size := by
  have reached := (Option.filter_eq_some_iff.1 found).1
  unfold resolveRelative at reached
  cases names : DottedName.segments name with
  | nil => exact absurd names (DottedName.segments_ne_nil name)
  | cons first rest =>
    rw [names, List.foldlM_cons] at reached
    obtain ⟨child, below, _⟩ := Option.bind_eq_some_iff.1 reached
    obtain ⟨node, present, _⟩ := Option.bind_eq_some_iff.1 below
    exact index_lt_of_node? present

namespace Grows

variable {before after : ScopeTree} (grows : before.Grows after)
include grows

theorem resolveRelative {origin id : ScopeId} {name : String}
    (found : before.resolveRelative origin name = some id) :
    after.resolveRelative origin name = some id := by
  unfold ScopeTree.resolveRelative at found ⊢
  generalize DottedName.segments name = names at found ⊢
  induction names generalizing origin with
  | nil => exact found
  | cons first rest ih =>
    rw [List.foldlM_cons] at found ⊢
    obtain ⟨child, below, reached⟩ := Option.bind_eq_some_iff.1 found
    exact Option.bind_eq_some_iff.2 ⟨child, grows.child? below, ih reached⟩

theorem lookupAt {name : String} {level id : ScopeId} (found : before.lookupAt name level = some id) :
    after.lookupAt name level = some id := by
  obtain ⟨reached, held⟩ := Option.filter_eq_some_iff.1 found
  exact Option.filter_eq_some_iff.2 ⟨grows.resolveRelative reached, grows.hasEntity held⟩

/-- A lookup that succeeds goes on to succeed, and what it finds either stays or moves to a level
strictly closer to its origin. -/
theorem foundAt {name : String} {origin id : ScopeId} {depth : Nat}
    (found : before.FoundAt name origin depth id) :
    ∃ closer later, after.FoundAt name origin closer later ∧
      (closer < depth ∨ closer = depth ∧ later = id) := by
  obtain ⟨inner, level, outer, split, rfl, here, _⟩ := found
  have inside : origin.index < before.size := by
    refine Decidable.byContradiction fun beyond => beyond ?_
    -- What is no scope of the tree has no scopes around it, so it is the level itself.
    have alone : before.ancestors origin = [origin] := by
      have absent : before.node? origin = none := node?_of_size_le (Nat.le_of_not_lt beyond)
      exact ancestors_of_top (by rw [ScopeTree.parent?, absent, Option.bind_none])
    rw [alone] at split
    have member : level ∈ [origin] := by rw [split]; simp
    rw [← List.mem_singleton.1 member]
    exact index_lt_of_lookupAt here
  obtain ⟨closest, first, others, later, same, holds, vacant, order⟩ :=
    exists_first (after.lookupAt name) inner outer (grows.lookupAt here)
  exact ⟨_, later, ⟨closest, first, others, ((grows.ancestors inside).trans split).trans same,
    rfl, holds, vacant⟩, order⟩

end Grows
end ScopeTree

namespace Discovery.Run
open ScopeTree

/-- Sweeps only grow the tree. A sweep keeps every scope with its place, its path and its children,
every entity with all but what it gathers, every type, every name below a scope, every reference and
the target of each that has one, and the globals; problems are only appended, and none is recorded
twice. So a name never stops leading anywhere: where it leads changes only to what a strictly closer
scope holds. -/
theorem sweep_only_grows {program : Program} {config : DiscoveryConfig} {run : Run}
    (reached : Reached program config run) :
    run.state.Grows run.sweep.1.state ∧ run.sweep.1.state.diagnostics.Nodup ∧
      ∀ name origin id, run.state.tree.lookup name origin = some id →
        ∃ depth closer later, run.state.tree.FoundAt name origin depth id ∧
          run.sweep.1.state.tree.lookup name origin = some later ∧
          run.sweep.1.state.tree.FoundAt name origin closer later ∧
          (closer < depth ∨ closer = depth ∧ later = id) := by
  rw [reached.sweep_eq.1]
  obtain ⟨formed, grows⟩ := advances_sweep config run.state reached.formed
  refine ⟨grows, formed.diagnostics, fun name origin id found => ?_⟩
  obtain ⟨depth, before⟩ := (lookup_eq_some_iff _ name origin id).1 found
  obtain ⟨closer, later, after, order⟩ := grows.tree.foundAt before
  exact ⟨depth, closer, later, before, (lookup_eq_some_iff _ name origin later).2 ⟨closer, after⟩, after,
    order⟩

theorem cell_sweep_only_grows :
    Reached cellProgram .default (start cellProgram .default).seed ∧
      (start cellProgram .default).seed.state.Grows (start cellProgram .default).seed.sweep.1.state ∧
      (start cellProgram .default).seed.sweep.2 = 4 :=
  ⟨.seeded, (sweep_only_grows .seeded).1, by decide +kernel⟩

end Discovery.Run
end LuaClasses
