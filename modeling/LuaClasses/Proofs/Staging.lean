import LuaClasses.Proofs.Convergence

/-! Stages that are asked for by hand, in any order, before a discovery is brought to its end. Sweeps
that are run by hand are the first of those that would be run anyway, and those that come too many find
nothing. -/

namespace LuaClasses.Discovery.Run

/-- A stage that can be asked for before the end of a discovery. -/
inductive Call where
  | seed
  | sweep
  deriving DecidableEq

def call (run : Run) : Call → Run
  | .seed => run.seed
  | .sweep => run.sweep.1

def drive (run : Run) (calls : List Call) : Run := calls.foldl call run

/-- What a discovery ends with after its last sweep. -/
def closing (ended : State × Nat) : Discovery where
  tree := ended.1.tree
  classes := ended.1.classes.map ClassBodies.owner
  diagnostics := ended.1.diagnostics
  sweeps := ended.2
  stage := .stable

/-- Discoveries that end in one state differ at most in the number of their sweeps. -/
theorem closing_with {first second : State} {total other sweeps : Nat} (same : first = second)
    (counted : total = sweeps) :
    closing (first, total) = { closing (second, other) with sweeps } := by
  subst same counted
  rfl

theorem seed_seed (run : Run) : run.seed.seed = run.seed := by
  cases staged : run.stage <;> simp only [seed, staged]

private theorem sweep_seed (run : Run) : run.seed.sweep = run.sweep := by
  simp only [sweep, seed_seed]

theorem finish_seed (run : Run) : run.seed.finish = run.finish := by
  simp only [finish, resolve, seed_seed]

theorem sweepTimes_add (run : Run) (first second : Nat) :
    (run.sweepTimes first).sweepTimes second = run.sweepTimes (first + second) := by
  induction second with
  | zero => rfl
  | succ second ih => rw [sweepTimes, ih]; rfl

variable {program : Program} {config : DiscoveryConfig}

/-- Only the sweeps among the calls tell, wherever the entry is asked for. -/
theorem seed_drive (program : Program) (config : DiscoveryConfig) (calls : List Call) :
    ((start program config).drive calls).seed = (start program config).seed.sweepTimes
    (calls.count .sweep) := by
  suffices ∀ (run : Run) (swept : Nat), run.seed = (start program config).seed.sweepTimes swept →
      (run.drive calls).seed = (start program config).seed.sweepTimes (swept + calls.count .sweep) by
    have driven := this (start program config) 0 rfl
    rwa [Nat.zero_add] at driven
  induction calls with
  | nil => exact fun run swept same => same
  | cons first rest ih =>
    intro run swept same
    cases first with
    | seed =>
      rw [List.count_cons_of_ne (by decide)]
      apply ih run.seed swept
      rw [seed_seed, same]
    | sweep =>
      rw [List.count_cons_self, ← Nat.add_assoc, Nat.add_right_comm]
      apply ih run.sweep.1 (swept + 1)
      rw [sweepTimes, ← same, sweep_seed]
      simp only [sweep, seed]

/-- Sweeps by hand are counted, and none of them ends a discovery. -/
theorem sweeps_sweepTimes (program : Program) (config : DiscoveryConfig) (count : Nat) :
    ((start program config).seed.sweepTimes count).sweeps = count ∧
      ((start program config).seed.sweepTimes count).stage ≠ some .stable := by
  induction count with
  | zero => exact ⟨rfl, by simp [sweepTimes, start, seed]⟩
  | succ count ih =>
    have reached : Reached program config ((start program config).seed.sweepTimes count) :=
      .further .seeded count
    rw [sweepTimes, ← sweep_seed, reached.config_eq.2]
    exact ⟨by simp only [sweep, reached.config_eq.2, ih.1], by simp [sweep]⟩

theorem finish_sweepTimes (program : Program) (config : DiscoveryConfig) (count : Nat) :
    ((start program config).seed.sweepTimes count).finish =
      closing (sweepUntilIdle config (config.maxSweeps - count) count
        ((start program config).seed.sweepTimes count).state) := by
  have reached : Reached program config ((start program config).seed.sweepTimes count) :=
    .further .seeded count
  obtain ⟨counted, unstable⟩ := sweeps_sweepTimes program config count
  obtain ⟨same, seeded⟩ := reached.config_eq
  simp only [finish, resolve, seeded, if_neg unstable, runToFixedPoint, same, counted]
  rfl

theorem endsAfter_sweepTimes (program : Program) (config : DiscoveryConfig) (swept count : Nat) :
    ((start program config).seed.sweepTimes swept).EndsAfter swept count ↔
      (start program config).seed.EndsAfter 0 (swept + count) := by
  have reached : Reached program config ((start program config).seed.sweepTimes swept) :=
    .further .seeded swept
  rw [EndsAfter, EndsAfter, sweepTimes_add, reached.config_eq.1, Nat.zero_add]
  rfl

/-- After a sweep that may be the last, each further one may be the last too and leaves all as it is. -/
theorem endsAfter_past (plain : program.Plain) {last : Nat}
    (ends : (start program config).seed.EndsAfter 0 last) (more : Nat) :
    (start program config).seed.EndsAfter 0 (last + 1 + more) ∧
      ((start program config).seed.sweepTimes (last + 1 + more + 1)).state =
        ((start program config).seed.sweepTimes (last + 1)).state := by
  have reached : Reached program config ((start program config).seed.sweepTimes last) := .further .seeded last
  obtain ⟨idle, same⟩ := (reached.final plain ends.1).2 more
  have past : ((start program config).seed.sweepTimes last).sweep.1.sweepTimes more =
      (start program config).seed.sweepTimes (last + 1 + more) := sweepTimes_add _ (last + 1) more
  rw [past] at idle same
  have enough := ends.2
  exact ⟨⟨idle, by omega⟩, same⟩

/-- A discovery that is driven by hand ends like one that is not. Of the sweeps by hand, those that come
too many are counted, and so is the one that finds nothing after them. -/
theorem driven_discovery_agrees (plain : program.Plain) (calls : List Call)
    (few : calls.count .sweep < config.maxSweeps) :
    ((start program config).drive calls).finish =
      { discover program config with sweeps := max (discover program config).sweeps (calls.count .sweep + 1) } := by
  have whole : discover program config =
      closing (sweepUntilIdle config config.maxSweeps 0 (start program config).seed.state) :=
    (finish_seed _).symm.trans (finish_sweepTimes program config 0)
  rw [← finish_seed, seed_drive, finish_sweepTimes, whole]
  generalize calls.count .sweep = swept at few ⊢
  have base : Reached program config (start program config).seed := .seeded
  have manual : Reached program config ((start program config).seed.sweepTimes swept) := base.further swept
  rcases base.halts config.maxSweeps 0 with ⟨last, within, first, ends, ended⟩ | ⟨busy, ended⟩
  · rw [ended]
    by_cases before : swept ≤ last
    · -- The sweeps by hand are the first of those that are run anyway.
      obtain ⟨more, rfl⟩ := Nat.exists_eq_add_of_le before
      have later : ∀ count, ((start program config).seed.sweepTimes swept).EndsAfter swept
          count → more ≤ count := by
        intro count stops
        rw [endsAfter_sweepTimes] at stops
        by_contra less
        exact first (swept + count) (by omega) stops
      rcases manual.halts (config.maxSweeps - swept) swept with ⟨other, _, earlier,
        stops, reached⟩ | ⟨none_, _⟩
      · have bound : other ≤ more := by
          by_contra less
          exact earlier more (by omega) ((endsAfter_sweepTimes program config swept more).2 ends)
        cases Nat.le_antisymm bound (later other stops)
        rw [reached, sweepTimes_add]
        apply closing_with
        · rfl
        · dsimp only [closing]
          omega
      · exact absurd ((endsAfter_sweepTimes program config swept more).2 ends) (none_ more (by omega))
    · -- The last sweep was run by hand already, and the next one finds nothing.
      obtain ⟨more, rfl⟩ := Nat.exists_eq_add_of_le (Nat.lt_of_not_le before)
      obtain ⟨past, same⟩ := endsAfter_past plain ends more
      have stops := (endsAfter_sweepTimes program config (last.succ + more) 0).2 past
      rcases manual.halts (config.maxSweeps - (last.succ + more)) (last.succ + more) with
        ⟨other, _, earlier, _, reached⟩ | ⟨none_, _⟩
      · have none_before : other = 0 := by
          by_contra positive
          exact earlier 0 (Nat.pos_of_ne_zero positive) stops
        subst none_before
        rw [reached, sweepTimes_add]
        apply closing_with
        · exact same
        · dsimp only [closing]
          omega
      · exact absurd stops (none_ 0 (by omega))
  · rw [ended]
    rcases manual.halts (config.maxSweeps - swept) swept with ⟨other, _, _, stops, _⟩ | ⟨_, reached⟩
    · exact absurd ((endsAfter_sweepTimes program config swept other).1 stops)
        (busy (swept + other) (by omega))
    · have total : swept + (config.maxSweeps - swept) = config.maxSweeps := by omega
      rw [reached, sweepTimes_add, total, Nat.zero_add]
      apply closing_with
      · rfl
      · dsimp only [closing]
        omega

/-- A discovery that is over after two sweeps reports five when four are run by hand. -/
theorem cell_driven_agrees :
    cellProgram.Plain ∧
      [Call.sweep, .seed, .sweep, .sweep, .sweep].count .sweep < DiscoveryConfig.default.maxSweeps ∧
      (discover cellProgram .default).sweeps = 2 ∧
      ((start cellProgram .default).drive [.sweep, .seed, .sweep, .sweep, .sweep]).finish =
        { discover cellProgram .default with sweeps := 5 } := by
  have plain : cellProgram.Plain := by decide
  have few : [Call.sweep, .seed, .sweep, .sweep, .sweep].count
    .sweep < DiscoveryConfig.default.maxSweeps := by decide
  have sweeps : (discover cellProgram .default).sweeps = 2 := by decide +kernel
  refine ⟨plain, few, sweeps, ?_⟩
  have agrees := driven_discovery_agrees plain _ few
  rw [sweeps] at agrees
  exact agrees

end LuaClasses.Discovery.Run
