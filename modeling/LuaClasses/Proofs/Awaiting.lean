import LuaClasses.Proofs.Arising
import LuaClasses.Proofs.ReferenceKeys

/-! Scopes that wait for what a path leads to from the root. What waits goes on waiting, whatever bodies
assign, until types are propagated while something stands at the path; from then on it refers to that. So
in the end the types of what stands there have arrived. -/

namespace LuaClasses
namespace ScopeTree

/-- Whether a scope waits for what a path leads to from the root, or refers to what is there, or is
itself there. -/
def Awaits (tree : ScopeTree) (id : ScopeId) (path : String) : Prop :=
  tree.reference? id path = some (.unresolved path root) ∨
    ∃ target, tree.find? (DottedName.child (tree.raw root) path) = some target ∧
      (target = id ∨ ∃ key, key ≠ "" ∧ tree.reference? id key = some (.resolved target))

namespace Awaits

variable {tree before after : ScopeTree} {id : ScopeId} {path : String}

/-- What waits goes on waiting in a tree that keeps its scopes, if the references go on. -/
theorem carry (awaits : before.Awaits id path) (formed : before.Formed) (keeps : before.Keeps after)
    (waits : before.reference? id path = some (.unresolved path root) → after.Awaits id path)
    (leads : ∀ key target, key ≠ "" → before.reference? id key = some (.resolved target) →
      after.reference? id key = some (.resolved target)) :
    after.Awaits id path := by
  rcases awaits with open_ | ⟨target, found, there⟩
  · exact waits open_
  · refine .inr ⟨target, ?_, there.imp_right fun ⟨key, named, kept⟩ =>
      ⟨key, named, leads key target named kept⟩⟩
    rw [keeps.raw formed formed.root_lt]
    exact keeps _ _ found

theorem keys {origins : ScopeId → Prop} (awaits : before.Awaits id path) (formed : before.Formed)
    (keeps : before.Keeps after) (keys : Keys origins before after) (foreign : after.Foreign path)
    (named : path ≠ "") : after.Awaits id path :=
  awaits.carry formed keeps (fun waits => .inl (keys.unresolved foreign named waits)) fun _ _ => keys.resolved

theorem of_entity? (awaits : before.Awaits id path) (formed : before.Formed) (keeps : before.Keeps after)
    (same : after.entity? id = before.entity? id) : after.Awaits id path :=
  awaits.carry formed keeps (fun waits => .inl ((reference?_of_entity? same).trans waits))
    fun _ _ _ leads => (reference?_of_entity? same).trans leads

end Awaits
end ScopeTree

namespace Discovery
open ScopeTree

variable {tree : ScopeTree} {id : ScopeId} {path : String}

private theorem reference?_propagateInto (tree : ScopeTree) (owner : ScopeId) (key : String) :
    (propagateInto tree owner).1.reference? owner key = (tree.reference? owner key).map
    (settle tree owner) := by
  cases held : tree.entity? owner with
  | none => rw [propagateInto_vacant tree held, reference?_of_vacant held, Option.map_none]
  | some entity =>
    rw [propagateInto_held tree held, reference?_of_held held]
    dsimp only
    rw [reference?_of_held (entity?_setEntity_self (index_lt_of_entity? held) _), Entity.references_gather]
    exact OrderedMap.get?_mapValues _ _ key

theorem Awaits.propagateInto (awaits : tree.Awaits id path) (formed : tree.Formed) (named : path ≠ "")
    (owner : ScopeId) :
    (propagateInto tree owner).1.Awaits id path := by
  have keeps := ((advances_propagateInto tree owner).revises formed).2
  by_cases same : id = owner
  · subst same
    refine awaits.carry formed keeps (fun waits => ?_) fun key target _ leads => ?_
    · have settled := reference?_propagateInto tree id path
      rw [waits, Option.map_some, settle] at settled
      cases leads : destination? tree id (.unresolved path root) with
      | none => exact .inl (by rw [settled, leads])
      | some target =>
        have found := formed.find?_of_lookup (destination?_unresolved.1 leads).1
        rw [leads] at settled
        refine .inr ⟨target, ?_, .inr ⟨path, named, settled⟩⟩
        rw [keeps.raw formed formed.root_lt]
        exact keeps _ _ found
    · rw [reference?_propagateInto, leads]
      rfl
  · refine awaits.of_entity? formed keeps ?_
    cases held : tree.entity? owner with
    | none => rw [propagateInto_vacant tree held]
    | some entity => rw [propagateInto_held tree held, entity?_setEntity, if_neg same]

/-- Where all evidence has arrived, the types of what stands at the path are there. -/
theorem Awaits.arrived (awaits : tree.Awaits id path) (formed : tree.Formed) {entity : Entity}
    (held : tree.entity? id = some entity) (received : Received tree id entity) {types : TypeSet}
    (gathers : entity.gathered? = some types) {target : ScopeId}
    (leads : tree.lookup path root = some target) (apart : target ≠ id) :
    ∀ type ∈ referenceTypes tree target, type ∈ types := by
  have kept : ∀ {key reference}, tree.reference? id key = some reference →
      reference ∈ entity.references.values := by
    intro key reference known
    rw [reference?_of_held held] at known
    exact List.mem_map_of_mem (OrderedMap.mem_entries_of_get? known)
  rcases awaits with waits | ⟨other, found, there⟩
  · rcases received.unresolved path root (kept waits) with nowhere | self
    · cases leads.symm.trans nowhere
    · exact absurd (Option.some.inj (leads.symm.trans self)) apart
  · obtain rfl : target = other := Option.some.inj ((formed.find?_of_lookup leads).symm.trans found)
    rcases there with self | ⟨key, _, refers⟩
    · exact absurd self apart
    · exact received.resolved target types (kept refers) gathers

/-! ### Moments -/

variable {config : DiscoveryConfig} {program : Program} {state : State}

/-- The root keeps the name that is configured. -/
theorem Arises.raw_root (arises : Arises program config state) :
    state.tree.raw root = config.globalScope := by
  have step : ∀ {before after : State}, Arises program config before → before.Revises after →
      before.tree.raw root = config.globalScope → after.tree.raw root = config.globalScope :=
        fun arises revises same =>
    ((revises arises.formed).2.raw arises.formed.tree arises.formed.tree.root_lt).trans same
  induction arises with
  | initial => rfl
  | declared before made ih => exact step before (revises_declareStep made) ih
  | indexed before made ih => exact step before (revises_indexStep made) ih
  | defined before inside made ih => exact step before (revises_defineStep made inside) ih
  | walked frame site before ih => exact step before (advances_site config frame _ site).revises ih
  | propagated owner before ih =>
    exact step before (State.advances_withTree _ (advances_propagateInto _ owner)).revises ih
  | warned kind message range before ih =>
    exact step before (State.advances_warn _ kind message range).revises ih

/-- At no time has a scope a path that does not go on from that of the root. -/
theorem Arises.foreign (arises : Arises program config state) (named : path ≠ "")
    (away : ¬DottedName.Within config.globalScope path) :
    state.tree.Foreign path :=
  arises.formed.tree.foreign named (arises.raw_root ▸ away)

theorem Moment.arises (moment : Moment program config state) : Arises program config state := by
  induction moment with
  | entered => exact .of_defined config program
  | walked _ _ _ ih => exact ih.walked _ _
  | propagated owner _ ih => exact ih.propagated owner
  | warned kind message range _ ih => exact ih.warned kind message range

/-- What waits once the members are entered waits at every moment, or refers to what it waited for. -/
theorem Moment.awaits (moment : Moment program config state) (named : path ≠ "")
    (away : ¬DottedName.Within config.globalScope path)
    (awaits : (defined config program).tree.Awaits id path) : state.tree.Awaits id path := by
  induction moment with
  | entered => exact awaits
  | @walked state tour site before made member ih =>
    have formed := before.arises.formed
    have keys := keys_writings (fun _ _ _ _ _ => trivial) (writings_site config tour.frame state site)
    have keeps := ((advances_site config tour.frame state site).revises formed).2
    exact ih.keys formed.tree keeps keys ((before.walked made member).arises.foreign named away) named
  | propagated owner before ih => exact Awaits.propagateInto ih before.arises.formed.tree named owner
  | warned kind message range before ih => rw [State.tree_warn]; exact ih

end Discovery
end LuaClasses
