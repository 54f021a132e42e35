import LuaClasses.Proofs.AlikeSweeps
import LuaClasses.Proofs.Staging

/-! Charts while bodies are walked. Once a chart tells all of a tree, it does so at every later moment,
since the walks and the propagation of types store only scopes of the tree. At the end of a discovery its
tree is at rest. -/

namespace LuaClasses
open ScopeTree Discovery

/-- Trees with entities of the same shapes at the same paths. -/
def Likeness.shapes : Likeness where
  seen _ := True
  known _ := True
  agrees _ look like := look.shape = like.shape
  future _ _ := True

private theorem Likeness.lasting_shapes : shapes.Lasting where
  around := fun _ => trivial
  tag := congrArg Shape.tag
  fresh := fun _ _ => rfl
  mapClass := fun {_ _ _ g} _ same => congrArg (Shape.mapClass g) same
  absorb := by
    intro first second one two evidence other entity like alike twins _ _ held reached _
    have looks := alike.looks_at twins trivial
    rw [held, reached] at looks
    cases looks with
    | some same =>
      rw [Entity.look_absorb, Entity.look_absorb]
      simp only [shapes, Look.shape_take, Look.shape_gather]
      exact same

/-- A tree that a chart tells is like itself. -/
theorem ScopeTree.Sound.alike_shapes {tree : ScopeTree} (sound : tree.Sound) : Alike .shapes tree tree := by
  refine ⟨sound, sound, rfl, fun path _ => ?_⟩
  cases tree.chart path with
  | none => exact .none
  | some look => exact .some rfl

namespace Discovery

variable {config : DiscoveryConfig} {program : Program} {state : State} (plain : program.Plain)

section Step

variable {tour : Tour} {site : Site} {owner scope : ScopeId}
  (turn : Turn config program state tour site owner scope)
include plain turn

private theorem Turn.readers_self (sound : state.tree.Sound) {held : Class}
    (found : state.tree.classAt? owner = some held) :
    Readers Likeness.shapes.seen Likeness.shapes.known [held.name] state.tree state.tree
      (tour.frame.within scope) (tour.frame.within scope) where
  agree := sound.alike_shapes.agree Likeness.lasting_shapes
  scope := ⟨index_lt_of_find? turn.found, index_lt_of_find? turn.found, rfl⟩
  selfAlias := rfl
  instances := by
    intro _
    obtain ⟨references, entity⟩ := classAt?_eq_some found
    have inside := index_lt_of_entity? entity
    have fields : ∀ id ∈ held.fields.values, id.index < state.tree.size := fun id member => by
      refine sound.moored entity id (List.mem_append_right _ ?_)
      simp only [EntityKind.scopes, List.mem_cons, List.mem_append, member, true_or, or_true]
    have nearest := turn.nearestClass plain
    exact ⟨owner, owner, nearest, nearest, ⟨inside, inside, rfl⟩, trivial, held, held, found,
      found, rfl, List.mem_cons_self,
      fun id member => ⟨fields id member, trivial⟩, fields⟩
  seen := fun _ _ _ _ => trivial

/-- A step of a body stores scopes of the tree only. -/
theorem Turn.sound (sound : state.tree.Sound) : (site.run config tour.frame state).1.tree.Sound := by
  have hosts := turn.hosts plain
  obtain ⟨held, found⟩ := Option.isSome_iff_exists.1 hosts.isClass
  have alike : AlikeStates [] .shapes state state := ⟨sound.alike_shapes, .refl [] _⟩
  rw [turn.run_eq]
  refine (alike.action Likeness.lasting_shapes (fun _ => trivial)
    (turn.readers_self plain sound found) config ?_
    (fun name member => (turn.names plain name member).1) (fun _ _ => trivial) (fun _ _ _ _ => trivial)
    site.range trivial).trees.left
  cases function : tour.frame.function with
  | none => exact .inl ⟨function, function⟩
  | some id =>
    obtain ⟨_, _, own⟩ := List.mem_flatMap.1 turn.made
    obtain ⟨_, present, _⟩ := Option.bind_eq_some_iff.1 hosts.below
    have inside : id.index < state.tree.size := frame_function own function ▸ index_lt_of_node? present
    exact .inr ⟨id, id, function, function, inside, inside, rfl⟩

end Step

/-- What is read at the end of a sweep that found nothing is what is there. -/
theorem atRest_of_idle {before : State} (formed : before.Formed) (outward : before.tree.Outward)
    (sound : (sweep config before).1.tree.Sound) (idle : (sweep config before).2 = 0) :
    (sweep config before).1.tree.AtRest := by
  have outward := outward.sweep config formed
  rw [sweep_eq config formed] at sound idle outward ⊢
  have propagated := (Nat.add_eq_zero_iff.1 idle).2
  dsimp only [State.withTree] at sound outward ⊢
  rw [idle_propagate propagated] at sound outward ⊢
  refine ⟨sound, fun held gathers member type offers => ?_⟩
  exact (received_of_idle outward propagated held).resolved _ _ member gathers type
    (mem_referenceTypes.2 offers)

section Swept

variable (config : DiscoveryConfig) (program : Program) (count : Nat)

/-- The state of a discovery after a number of sweeps. -/
def swept : State := ((Run.start program config).seed.sweepTimes count).state

private theorem reached_swept :
    Run.Reached program config ((Run.start program config).seed.sweepTimes count) :=
  .further .seeded count

theorem swept_succ : swept config program (count + 1) = (sweep config (swept config program count)).1 :=
  (reached_swept config program count).sweep_eq.1

theorem grows_swept (more : Nat) :
    (swept config program count).Grows (swept config program (count + more)) := by
  induction more with
  | zero => exact .refl _
  | succ more ih =>
    rw [← Nat.add_assoc, swept_succ]
    exact ih.trans (advances_sweep config _ (reached_swept config program _).formed).2

theorem grows_defined_swept : (defined config program).Grows (swept config program count) := by
  have seeded : (defined config program).Grows (swept config program 0) :=
    (advances_seeded (formed_defined config program)).2
  have later := grows_swept config program 0 count
  rw [Nat.zero_add] at later
  exact seeded.trans later

end Swept

section Sweeps

include plain

variable (sound : (defined config program).tree.Sound)
include sound

/-- After every sweep a chart tells all of the tree. -/
theorem sound_swept (count : Nat) :
    Moment program config (swept config program count) ∧ (swept config program count).tree.Sound ∧
    (swept config program count).tree.Outward := by
  have each : ∀ {state tour site owner scope}, Turn config program state tour site owner scope →
    state.tree.Sound ∧ state.tree.Outward →
      (site.run config tour.frame state).1.tree.Sound ∧ (site.run config tour.frame state).1.tree.Outward :=
    fun turn kept => ⟨turn.sound plain kept.1, kept.2.site config _ _⟩
  induction count with
  | zero =>
    obtain ⟨made, within, same⟩ := exists_seeding_tours config program
    have seeded := keeps_runTours plain (fun state => state.tree.Sound ∧ state.tree.Outward) each within
      ⟨.entered, sound, outward_defined config program⟩
    rw [← same] at seeded
    exact seeded
  | succ count ih =>
    rw [swept_succ]
    exact keeps_sweep plain (fun state => state.tree.Sound ∧ state.tree.Outward) each
      (fun _ kept => ⟨kept.1.propagate, kept.2.propagate⟩) ih

/-- A discovery that ends by itself is at rest after some number of sweeps, and more sweeps change nothing. -/
theorem exists_rest
    (unlimited : ∀ problem ∈ (discover program config).diagnostics, problem.kind ≠ .sweepLimit) :
    ∃ count sweeps, ∀ more, count ≤ more →
      (swept config program more).tree.AtRest ∧
        discover program config = Run.closing (swept config program more, sweeps) := by
  have whole : discover program config = Run.closing
      (sweepUntilIdle config config.maxSweeps 0 (Run.start program config).seed.state) :=
    (Run.finish_seed _).symm.trans (Run.finish_sweepTimes program config 0)
  have base : Run.Reached program config (Run.start program config).seed := .seeded
  rcases base.halts config.maxSweeps 0 with ⟨last, _, _, ends, ended⟩ | ⟨_, ended⟩
  · refine ⟨last + 1 + 1, 0 + last + 1, fun more later => ?_⟩
    obtain ⟨beyond, rfl⟩ := Nat.exists_eq_add_of_le later
    obtain ⟨idle, same⟩ := Run.endsAfter_past plain ends beyond
    have reached := reached_swept config program (last + 1 + beyond)
    have index : last + 1 + 1 + beyond = last + 1 + beyond + 1 := by omega
    rw [index]
    constructor
    · have kept := (sound_swept plain sound (last + 1 + beyond + 1)).2.1
      rw [swept_succ] at kept ⊢
      exact atRest_of_idle reached.formed (sound_swept plain sound (last + 1 + beyond)).2.2 kept
        (reached.sweep_eq.2.symm.trans idle.1)
    · rw [whole, ended, ← same]
      rfl
  · rw [whole, ended] at unlimited
    exact absurd rfl (unlimited _ ((Discovery.mem_diagnostics_warn _ _ _ _).2 (.inr rfl)))

end Sweeps

end Discovery
end LuaClasses
