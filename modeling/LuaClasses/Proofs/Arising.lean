import LuaClasses.Proofs.Enlistment

/-! The states that a discovery passes through from its beginning to its end: those between two steps of
the entry of classes and members, of the walks and of the propagation of types. Their trees are put
together properly. -/

namespace LuaClasses
namespace Discovery
open ScopeTree Relation

/-- The states that a discovery may be in between two steps of whatever kind. -/
inductive Arises (program : Program) (config : DiscoveryConfig) : State → Prop
  | initial : Arises program config (.initial config)
  | declared {before after : State} : Arises program config before → DeclareStep config program before after →
      Arises program config after
  | indexed {before after : State} : Arises program config before → IndexStep config program before after →
      Arises program config after
  | defined {owner : ScopeId} {ownerName : String} {before after : State} : Arises program config before →
      owner.index < before.tree.size → DefineStep config program owner ownerName before after →
        Arises program config after
  | walked {state : State} (frame : Frame) (site : Site) : Arises program config state →
      Arises program config (site.run config frame state).1
  | propagated {state : State} (owner : ScopeId) : Arises program config state →
      Arises program config (state.withTree (propagateInto state.tree owner).1)
  | warned {state : State} (kind : DiagnosticKind) (message : String) (range : Option Range) :
    Arises program config state →
      Arises program config (state.warn kind message range)

namespace Arises

variable {program : Program} {config : DiscoveryConfig} {state : State}

theorem formed (arises : Arises program config state) : state.Formed := by
  induction arises with
  | initial => exact formed_initial config
  | declared _ step ih => exact (revises_declareStep step ih).1
  | indexed _ step ih => exact (revises_indexStep step ih).1
  | defined _ inside step ih => exact (revises_defineStep step inside ih).1
  | walked frame site _ ih => exact (advances_site config frame _ site ih).1
  | propagated owner _ ih => exact (State.advances_withTree _ (advances_propagateInto _ owner) ih).1
  | warned kind message range _ ih => exact (State.advances_warn _ kind message range ih).1

theorem of_steps {step : State → State → Prop}
    (each : ∀ {before after}, Arises program config before → step before after → Arises program config after)
    {after : State} (arises : Arises program config state) (steps : ReflTransGen step state after) :
    Arises program config after := by
  induction steps with
  | refl => exact arises
  | tail _ last ih => exact each ih last

theorem of_indexed (config : DiscoveryConfig) (program : Program) :
    Arises program config (Discovery.indexed config program) :=
  of_steps .indexed (of_steps .declared .initial (declared_steps config program))
    (indexed_steps config program)

private theorem of_defines (arises : Arises program config state) {owner : ScopeId}
    (inside : owner.index < state.tree.size) {ownerName : String} {after : State}
    (steps : ReflTransGen (DefineStep config program owner ownerName) state after) :
    Arises program config after := by
  induction steps with
  | refl => exact arises
  | tail before last ih =>
    have kept := (revises_defineSteps before inside arises.formed).2
    exact ih.defined (kept.index_lt arises.formed.tree inside) last

private theorem of_members (arises : Arises program config state) {owner : ScopeId}
    (inside : owner.index < state.tree.size) :
    Arises program config (defineMembers config program state owner) := by
  cases found : state.tree.classAt? owner with
  | none => rw [defineMembers_outside config program found]; exact arises
  | some held => exact arises.of_defines inside (defineMembers_steps config program found)

theorem of_defined (config : DiscoveryConfig) (program : Program) :
    Arises program config (Discovery.defined config program) := by
  have begun := of_indexed config program
  have inside : ∀ owner ∈ (Discovery.indexed config program).owners,
      owner.index < (Discovery.indexed config program).tree.size := by
    intro owner member
    obtain ⟨bodies, listed, rfl⟩ := List.mem_map.1 member
    exact begun.formed.bodies bodies listed _ List.mem_cons_self
  rw [Discovery.defined, ← State.owners]
  generalize (Discovery.indexed config program).owners = owners at inside
  generalize Discovery.indexed config program = state at begun inside
  induction owners generalizing state with
  | nil => exact begun
  | cons owner rest ih =>
    have first := inside owner List.mem_cons_self
    have kept := (revises_defineMembers config program first begun.formed).2
    exact ih _ (begun.of_members first) fun other member =>
      kept.index_lt begun.formed.tree (inside other (List.mem_cons_of_mem _ member))

private theorem of_tours (arises : Arises program config state) (made : List Tour) :
    Arises program config (runTours config made state).1 :=
  runEach_keeps (Arises program config)
    (fun tour _ _ begun => runEach_keeps (Arises program config)
      (fun site _ _ => .walked tour.frame site) begun) arises

private theorem of_sweep (arises : Arises program config state) :
    Arises program config (sweep config state).1 := by
  rw [sweep_eq config arises.formed]
  dsimp only
  rw [propagate_eq]
  exact runEach_keeps (fun tree => Arises program config (State.withTree _ tree))
    (fun owner _ _ (begun : Arises program config (State.withTree _ _)) => begun.propagated owner)
    (arises.of_tours _)

private theorem of_sweeps (arises : Arises program config state) (left total : Nat) :
    Arises program config (sweepUntilIdle config left total state).1 := by
  induction left generalizing total state with
  | zero => exact arises.warned _ _ _
  | succ left ih =>
    rw [sweepUntilIdle]
    dsimp only
    split
    next => exact arises.of_sweep
    next => exact ih arises.of_sweep (total + 1)

private theorem of_seeded (config : DiscoveryConfig) (program : Program) :
    Arises program config (Discovery.seeded config program) := by
  obtain ⟨made, _, same⟩ := exists_seeding_tours config program
  rw [same]
  exact (of_defined config program).of_tours made

/-- Whatever a discovery reaches by any sweeps is such a state. -/
theorem of_reached {run : Run} (reached : Run.Reached program config run) :
    Arises program config run.state := by
  induction reached with
  | seeded => exact of_seeded config program
  | @swept run before ih =>
    rw [before.sweep_eq.1]
    exact ih.of_sweep
  | @resolved run before ih =>
    obtain ⟨same, seeded⟩ := before.config_eq
    simp only [Run.resolve, seeded]
    split
    next => exact ih
    next =>
      rw [← same] at ih ⊢
      exact ih.of_sweeps _ _

end Arises

end Discovery
end LuaClasses
