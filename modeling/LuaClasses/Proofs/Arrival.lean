import LuaClasses.Proofs.FixedPoint
import LuaClasses.Proofs.Inflow
import LuaClasses.Proofs.Outward

/-! When the sweeps end, all evidence has arrived. The last sweep propagates types through the tree that
it leaves behind and finds nothing, so no reference of that tree is left open that leads somewhere, and
no type is left on its way. -/

namespace LuaClasses.Discovery
open ScopeTree

/-- An entity that nothing new can reach along its references. -/
structure Received (tree : ScopeTree) (id : ScopeId) (entity : Entity) : Prop where
  /-- What still waits for its target leads nowhere, or back to the entity itself. -/
  unresolved : ∀ target origin, .unresolved target origin ∈ entity.references.values →
    tree.lookup target origin = none ∨ tree.lookup target origin = some id
  /-- The types of every target are there. -/
  resolved : ∀ target types, .resolved target ∈ entity.references.values → entity.gathered? = some types →
    ∀ type ∈ referenceTypes tree target, type ∈ types
  outward : .resolved id ∉ entity.references.values

/-- A round of propagation that finds nothing leaves nothing on its way. -/
theorem received_of_idle {tree : ScopeTree} (outward : tree.Outward) (idle : (propagate tree).2 = 0)
    {id : ScopeId} {entity : Entity} (held : tree.entity? id = some entity) :
    Received tree id entity := by
  rw [propagate_eq] at idle
  have quiet : ∀ reference ∈ entity.references.values, (propagateInto tree id).2 = 0 := by
    intro reference member
    exact idle_owners idle id (mem_referrers held member)
  constructor
  case unresolved =>
    intro target origin member
    have open_ := settled_of_idle held (quiet _ member) member
    cases found : tree.lookup target origin with
    | none => exact .inl rfl
    | some other =>
      by_cases self : other = id
      · exact .inr (by rw [self])
      · rw [destination?_unresolved.2 ⟨found, self⟩] at open_
        cases open_
  case resolved =>
    intro target types member gathers type offered
    exact gathered_of_idle held (quiet _ member) member rfl gathers offered
  case outward => exact outward id entity held

variable (config : DiscoveryConfig) (program : Program)

private theorem outward_seeded : (seeded config program).tree.Outward :=
  seeded_relates (fun before after => before.tree.Outward → after.tree.Outward) (fun _ kept => kept)
    (fun one two kept => two (one kept)) (fun tours _ kept => kept.runTours config tours)
    (outward_defined config program)

/-- At stability all evidence has arrived, at every entity and along every reference. -/
theorem evidence_arrives
    (unlimited : ∀ problem ∈ (discover program config).diagnostics, problem.kind ≠ .sweepLimit)
    (id : ScopeId) (entity : Entity) (held : (discover program config).tree.entity? id = some entity) :
    Received (discover program config).tree id entity := by
  have kept : ∀ state : State, state.Formed ∧ state.tree.Outward →
      (sweep config state).1.Formed ∧ (sweep config state).1.tree.Outward :=
    fun state both => ⟨(advances_sweep config state both.1).1, both.2.sweep config both.1⟩
  rcases last_sweep config kept config.maxSweeps 0 ⟨formed_seeded, outward_seeded config program⟩ with
    ⟨problem, met, limit⟩ | ⟨before, ⟨formed, outward⟩, idle, ended⟩
  · exact absurd limit (unlimited problem met)
  · have tree : (discover program config).tree = (sweep config before).1.tree := congrArg State.tree ended
    rw [tree] at held ⊢
    have outward := outward.sweep config formed
    rw [sweep_eq config formed] at held idle outward ⊢
    have propagated := (Nat.add_eq_zero_iff.1 idle).2
    dsimp only [State.withTree] at held outward ⊢
    rw [idle_propagate propagated] at held outward ⊢
    exact received_of_idle outward propagated held

/-- The field of a cell refers to the parameter that is assigned to it. -/
theorem cell_evidence_arrives :
    (∀ problem ∈ (discover Run.cellProgram .default).diagnostics, problem.kind ≠ .sweepLimit) ∧
      ∃ entity, (discover Run.cellProgram .default).tree.entity? ⟨6⟩ = some entity ∧
        .resolved ⟨3⟩ ∈ entity.references.values ∧
          Received (discover Run.cellProgram .default).tree ⟨6⟩ entity := by
  have unlimited : ∀ problem ∈ (discover Run.cellProgram .default).diagnostics,
      problem.kind ≠ .sweepLimit := by
    decide +kernel
  have refers : ((discover Run.cellProgram .default).tree.entity? ⟨6⟩).any
      (fun entity => .resolved ⟨3⟩ ∈ entity.references.values) = true := by decide +kernel
  obtain ⟨entity, held, member⟩ := Option.any_eq_true _ _ |>.1 refers
  exact ⟨unlimited, entity, held, of_decide_eq_true member,
    evidence_arrives .default Run.cellProgram unlimited ⟨6⟩ entity held⟩

end LuaClasses.Discovery
