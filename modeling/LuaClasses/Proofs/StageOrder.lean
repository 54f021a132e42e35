import LuaClasses.Discovery.Run

/-! The stages of a discovery, whatever is asked of it and in whatever order. They only move forward, and
a stable discovery is left as it is, exactly where no sweep is asked for after a resolution: a sweep
takes a stable discovery back. -/

namespace LuaClasses.Discovery.Run

/-- What can be asked of a discovery before its end. -/
inductive Request where
  | seed
  | sweep
  | resolve
  deriving DecidableEq

def serve (run : Run) : Request → Run
  | .seed => run.seed
  | .sweep => run.sweep.1
  | .resolve => run.resolve

def follow (run : Run) (requests : List Request) : Run := requests.foldl serve run

/-- The place of a stage in their order, which begins before the entry of classes and members. -/
def place : Option Stage → Nat
  | none => 0
  | some .seeded => 1
  | some .iterating => 2
  | some .stable => 3

/-- What may become of a discovery: its stage does not go back, and once it is stable nothing about it
changes. -/
structure Onward (before after : Run) : Prop where
  forward : place before.stage ≤ place after.stage
  frozen : before.stage = some .stable → after = before

namespace Onward

variable {first second third : Run}

theorem refl (run : Run) : Onward run run := ⟨Nat.le_refl _, fun _ => rfl⟩

theorem trans (one : Onward first second) (two : Onward second third) : Onward first third where
  forward := Nat.le_trans one.forward two.forward
  frozen := by
    intro stable
    have kept := one.frozen stable
    rw [two.frozen (by rw [kept, stable]), kept]

end Onward

/-! ### One request -/

variable {run : Run}

private theorem seed_of_entered {stage : Stage} (entered : run.stage = some stage) : run.seed = run := by
  simp only [seed, entered]

private theorem place_seed (run : Run) : place run.stage ≤ place run.seed.stage := by
  cases stage : run.stage with
  | none => exact Nat.zero_le _
  | some reached => exact Nat.le_of_eq (by rw [seed_of_entered stage, stage])

private theorem stage_sweep (run : Run) : run.sweep.1.stage = some .iterating := rfl

private theorem stage_resolve (run : Run) : run.resolve.stage = some .stable := by
  unfold resolve
  dsimp only
  split
  next stable => exact stable
  next => rfl

private theorem resolve_of_stable (stable : run.stage = some .stable) : run.resolve = run := by
  simp only [resolve, seed_of_entered stable, stable, if_true]

/-- Only a sweep of a stable discovery goes back. -/
theorem onward_serve {request : Request} (heeded : run.stage = some .stable → request ≠ .sweep) :
    Onward run (run.serve request) := by
  cases request with
  | seed => exact ⟨place_seed run, seed_of_entered⟩
  | sweep =>
    have unstable : run.stage ≠ some .stable := fun stable => heeded stable rfl
    refine ⟨?_, fun stable => absurd stable unstable⟩
    rw [serve, stage_sweep]
    cases stage : run.stage with
    | none => exact Nat.zero_le _
    | some reached =>
      cases reached with
      | seeded => decide
      | iterating => decide
      | stable => exact absurd stage unstable
  | resolve =>
    refine ⟨?_, resolve_of_stable⟩
    rw [serve, stage_resolve]
    cases run.stage with
    | none => decide
    | some reached => cases reached <;> decide

/-- No request but that for a resolution makes a discovery stable. -/
theorem stable_of_serve {request : Request} (stable : (run.serve request).stage = some .stable) :
    run.stage = some .stable ∨ request = .resolve := by
  cases request with
  | seed =>
    cases stage : run.stage with
    | none => simp only [serve, seed, stage] at stable; cases stable
    | some reached => rw [serve, seed_of_entered stage, stage] at stable; exact .inl stable
  | sweep => cases stable
  | resolve => exact .inr rfl

/-! ### All requests -/

private theorem follow_append (run : Run) (first second : List Request) :
    run.follow (first ++ second) = (run.follow first).follow second := List.foldl_append

private theorem stable_of_follow {requests : List Request}
    (stable : (run.follow requests).stage = some .stable) :
    run.stage = some .stable ∨ .resolve ∈ requests := by
  induction requests generalizing run with
  | nil => exact .inl stable
  | cons request rest ih =>
    rcases ih stable with before | asked
    · rcases stable_of_serve before with earlier | rfl
      · exact .inl earlier
      · exact .inr List.mem_cons_self
    · exact .inr (List.mem_cons_of_mem _ asked)

/-- Requests among which no sweep comes after a resolution. -/
def Orderly (requests : List Request) : Prop :=
  requests.Pairwise fun earlier later => earlier = .resolve → later ≠ .sweep

private theorem onward_follow {requests : List Request} (orderly : Orderly requests)
    (heeded : run.stage = some .stable → .sweep ∉ requests) : Onward run (run.follow requests) := by
  induction requests generalizing run with
  | nil => exact .refl run
  | cons request rest ih =>
    obtain ⟨apart, others⟩ := List.pairwise_cons.1 orderly
    have first : Onward run (run.serve request) :=
      onward_serve fun stable same => heeded stable (same ▸ List.mem_cons_self)
    apply first.trans
    apply ih others
    intro stable asked
    rcases stable_of_serve stable with before | resolves
    · exact heeded before (List.mem_cons_of_mem _ asked)
    · exact apart .sweep asked resolves rfl

/-- From any moment of a discovery to any later one its stage only moves forward and, once it is stable,
nothing changes, exactly if no sweep is asked for after a resolution. -/
theorem onward_iff_orderly (program : Program) (config : DiscoveryConfig) (requests : List Request) :
    (∀ first second rest, requests = first ++ second ++ rest →
      Onward ((start program config).follow first) ((start program config).follow (first ++ second))) ↔
        Orderly requests := by
  constructor
  · intro onward
    refine List.pairwise_iff_forall_sublist.2 ?_
    rintro earlier later within rfl rfl
    -- The discovery is stable after the resolution and iterating after the sweep.
    obtain ⟨early, late, rfl, resolves, sweeps⟩ := List.cons_sublist_iff.1 within
    obtain ⟨before, between, rfl⟩ := List.append_of_mem resolves
    obtain ⟨further, after, rfl⟩ := List.append_of_mem (List.singleton_sublist.1 sweeps)
    have stable : ((start program config).follow (before ++ [.resolve])).stage = some .stable := by
      rw [follow_append]
      exact stage_resolve _
    have iterating : ((start program config).follow
      (before ++ [.resolve] ++ (between ++ further ++ [.sweep]))).stage =
        some .iterating := by
      rw [← List.append_assoc, follow_append]
      exact stage_sweep _
    have step := onward (before ++ [.resolve]) (between ++ further ++ [.sweep]) after (by simp)
    rw [step.frozen stable, stable] at iterating
    cases iterating
  · rintro orderly first second rest rfl
    obtain ⟨heeded, _, _⟩ := List.pairwise_append.1 orderly
    obtain ⟨_, others, across⟩ := List.pairwise_append.1 heeded
    rw [follow_append]
    apply onward_follow others
    intro stable asked
    rcases stable_of_follow stable with unentered | resolves
    · cases unentered
    · exact across .resolve resolves .sweep asked rfl rfl

/-- A class with one function, in which a sweep would find the type of a local. -/
def tallyProgram : Program where
  body := [
    ⟨.local_ ["Tally"] [.methodCall (.name "ISBaseObject") "derive" [.string "Tally"]], ⟨1, 0, 1, 42⟩⟩,
    ⟨.function (.ofMember "Tally" .dot "count") false ⟨[], false, [
      ⟨.local_ ["total"] [.number "1"], ⟨3, 2, 3, 17⟩⟩]⟩, ⟨2, 0, 4, 3⟩⟩]

/-- A discovery that stopped at its bound is stable, and yet a sweep that is asked for then goes back, is
counted and adds a scope to the tree. -/
theorem stable_tally_swept :
    let resolved := (start tallyProgram { DiscoveryConfig.default with maxSweeps := 0 }).follow [.resolve]
    let swept := (start tallyProgram { DiscoveryConfig.default with maxSweeps := 0 }).follow
      [.resolve, .sweep]
    resolved.stage = some .stable ∧ resolved.sweeps = 0 ∧ resolved.state.tree.size = 4 ∧
      swept.stage = some .iterating ∧ swept.sweeps = 1 ∧ swept.state.tree.size = 5 := by
  decide +kernel

end LuaClasses.Discovery.Run
