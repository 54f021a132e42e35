import LuaClasses.Proofs.IdleWrites

/-! What comes into an entity along its references, and what is known where nothing new comes in. -/

namespace LuaClasses

theorem TypeSet.mem_of_missing {set types : TypeSet} (known : set.missing types = 0) {type : LuaType}
    (member : type ∈ types) :
    type ∈ set := by
  rw [← union_of_missing known, mem_union]
  exact .inr member

namespace ScopeTree

theorem mem_occupied {tree : ScopeTree} {id : ScopeId} {entity : Entity}
    (held : tree.entity? id = some entity) :
    ∃ node, (id, node, entity) ∈ tree.occupied := by
  obtain ⟨node, found, present⟩ := Option.bind_eq_some_iff.1 held
  have listed : (node, id.index) ∈ tree.nodes.zipIdx := by
    rw [List.mem_zipIdx_iff_getElem?, getElem?_nodes]
    exact found
  exact ⟨node, List.mem_filterMap.2 ⟨(node, id.index), listed, by simp only [present, Option.map_some]⟩⟩

theorem entity?_of_mem_occupied {tree : ScopeTree} {id : ScopeId} {node : Node} {entity : Entity}
    (listed : (id, node, entity) ∈ tree.occupied) : tree.entity? id = some entity := by
  obtain ⟨⟨found, index⟩, member, held⟩ := List.mem_filterMap.1 listed
  obtain ⟨_, present, same⟩ := Option.map_eq_some_iff.1 held
  cases same
  rw [List.mem_zipIdx_iff_getElem?, getElem?_nodes] at member
  exact Option.bind_eq_some_iff.2 ⟨node, member, present⟩

end ScopeTree

namespace Discovery
open ScopeTree

variable {tree : ScopeTree} {owner : ScopeId}

theorem destination?_unresolved {target : String} {origin found : ScopeId} :
    destination? tree owner (.unresolved target origin) = some found ↔
      tree.lookup target origin = some found ∧ found ≠ owner := by
  simp only [destination?, Option.filter_eq_some_iff, decide_eq_true_eq]

theorem mem_referrers {entity : Entity} (held : tree.entity? owner = some entity) {reference : Reference}
    (member : reference ∈ entity.references.values) : owner ∈ referrers tree := by
  obtain ⟨node, listed⟩ := mem_occupied held
  refine List.mem_filterMap.2 ⟨_, listed, ?_⟩
  obtain ⟨entry, present, _⟩ := List.mem_map.1 member
  have some_held : entity.references.isEmpty = false :=
    List.isEmpty_eq_false_iff.2 (List.ne_nil_of_mem present)
  simp only [some_held, Bool.false_eq_true, if_false]

/-! ### Where nothing new comes in -/

section Idle

variable {entity : Entity} (held : tree.entity? owner = some entity) (idle : (propagateInto tree owner).2 = 0)
include held idle

/-- Every reference that leads to a scope is settled. -/
theorem settled_of_idle {target : String} {origin : ScopeId}
    (member : .unresolved target origin ∈ entity.references.values) :
    destination? tree owner (.unresolved target origin) = none := by
  rw [propagateInto_held tree held] at idle
  have unsettled := List.countP_eq_zero.1 (Nat.add_eq_zero_iff.1 idle).1 _ member
  simpa [Reference.isResolved] using unsettled

/-- The types of every scope to which a reference leads are there. -/
theorem gathered_of_idle {reference : Reference} (member : reference ∈ entity.references.values)
    {target : ScopeId} (leads : destination? tree owner reference = some target) {types : TypeSet}
    (gathers : entity.gathered? = some types) {type : LuaType}
    (offered : type ∈ referenceTypes tree target) : type ∈ types := by
  rw [propagateInto_held tree held] at idle
  have known := (Nat.add_eq_zero_iff.1 idle).2
  simp only [Entity.newTypes, gathers] at known
  exact TypeSet.mem_of_missing known (mem_incoming.2 ⟨reference, member, target, leads, offered⟩)

end Idle

/-- A round that finds nothing finds nothing for any of its owners. -/
theorem idle_owners {owners : List ScopeId}
    (idle : (runEach (fun owner tree => propagateInto tree owner) owners tree).2 = 0) :
    ∀ owner ∈ owners, (propagateInto tree owner).2 = 0 :=
  runEach_idle_each (fun _ _ found => idle_propagateInto found) idle

end Discovery
end LuaClasses
