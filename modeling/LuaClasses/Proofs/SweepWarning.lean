import LuaClasses.Proofs.Staging

/-! What the report that the bound on sweeps is reached says of the sweeps before it, where a caller ran
some of them by hand. The sweeps of a resolution end as soon as they may, so the report is true of them.
But a resolution that begins when the bound is reached already runs no sweep at all, and reports it
whatever the sweeps before it found. -/

namespace LuaClasses.Discovery.Run

/-- Whether a discovery reports that the bound on sweeps is reached. -/
def Warns (run : Run) : Prop := ∃ problem ∈ run.state.diagnostics, problem.kind = .sweepLimit

variable (program : Program) (config : DiscoveryConfig)

/-- Whether a discovery is not settled after so many sweeps: the last of them found something, or fewer
ran than run anyway. -/
def Unsettled (total : Nat) : Prop :=
  (∃ earlier, total = earlier + 1 ∧ ((start program config).seed.sweepTimes earlier).sweep.2 ≠ 0) ∨
  total < config.minSweeps

/-- After a sweep a discovery is not settled if that sweep was none to end with. -/
theorem unsettled_succ (earlier : Nat) :
    Unsettled program config (earlier + 1) ↔ ¬(start program config).seed.EndsAfter 0 earlier := by
  have least : (start program config).seed.config.minSweeps = config.minSweeps := rfl
  rw [Unsettled, EndsAfter, least, not_and_or, Nat.not_le, Nat.zero_add]
  apply or_congr_left
  constructor
  · intro found
    obtain ⟨last, same, found⟩ := found
    obtain rfl := Nat.succ.inj same
    exact found
  · intro found
    exact ⟨earlier, rfl, found⟩

/-! ### The resolution -/

private theorem not_warns_sweepTimes (count : Nat) :
    ¬((start program config).seed.sweepTimes count).Warns := by
  intro ⟨problem, member, limit⟩
  cases unstopped_sweepTimes program config count problem member limit

private theorem warns_of_warn {run : Run} {state : State} {message : String}
    (warned : run.state = state.warn .sweepLimit message none) :
    run.Warns := by
  refine ⟨⟨.sweepLimit, message, none⟩, ?_, rfl⟩
  rw [warned, State.diagnostics_warn]
  split
  next known => exact known
  next => exact List.mem_append_right _ (List.mem_singleton_self _)

private theorem resolve_seed (run : Run) : run.seed.resolve = run.resolve := by
  simp only [resolve, seed_seed]

private theorem resolve_sweepTimes (count : Nat) :
    (((start program config).seed.sweepTimes count).resolve.state,
      ((start program config).seed.sweepTimes count).resolve.sweeps) =
      sweepUntilIdle config (config.maxSweeps - count) count
        ((start program config).seed.sweepTimes count).state := by
  have reached : Reached program config ((start program config).seed.sweepTimes count) :=
    .further .seeded count
  obtain ⟨counted, unstable⟩ := sweeps_sweepTimes program config count
  obtain ⟨same, seeded⟩ := reached.config_eq
  simp only [resolve, seeded, if_neg unstable, runToFixedPoint, same, counted]

/-- A resolution runs sweeps up to the first one that it may end with. If there is one below the bound it
is silent, and else it runs all sweeps that are left and reports the bound. -/
theorem resolve_cases (count : Nat) :
    (∃ last < config.maxSweeps, count ≤ last ∧
      ((start program config).seed.sweepTimes count).resolve.sweeps = last + 1 ∧
      ((start program config).seed.sweepTimes count).resolve.state =
      ((start program config).seed.sweepTimes (last + 1)).state) ∨
    (∀ last, count ≤ last → last < config.maxSweeps → Unsettled program config (last + 1)) ∧
      ((start program config).seed.sweepTimes count).resolve.sweeps = max count config.maxSweeps ∧
      ∃ message, ((start program config).seed.sweepTimes count).resolve.state =
        ((start program config).seed.sweepTimes (max count config.maxSweeps)).state.warn
        .sweepLimit message none := by
  have outcome := resolve_sweepTimes program config count
  have reached : Reached program config ((start program config).seed.sweepTimes count) :=
    .further .seeded count
  rcases reached.halts (config.maxSweeps - count) count with ⟨last, inside, _, _, ended⟩ | ⟨busy, ended⟩
  · rw [ended, sweepTimes_add] at outcome
    obtain ⟨state, sweeps⟩ := Prod.mk.inj outcome
    exact .inl ⟨count + last, by omega, by omega, sweeps, state⟩
  · have all : count + (config.maxSweeps - count) = max count config.maxSweeps := by omega
    rw [ended, sweepTimes_add, all] at outcome
    obtain ⟨state, sweeps⟩ := Prod.mk.inj outcome
    refine .inr ⟨?_, sweeps, _, state⟩
    intro last least inside
    obtain ⟨later, rfl⟩ := Nat.exists_eq_add_of_le least
    apply (unsettled_succ program config _).2
    intro ends
    exact busy later (by omega) ((endsAfter_sweepTimes program config count later).2 ends)

/-- However a discovery is driven by hand, what its resolution reports is true exactly if the bound is
not reached when the resolution begins, or the discovery is not settled then. The resolution runs no
sweep beyond the bound, and bringing the discovery to its end does the same. -/
theorem bound_report_true_iff (calls : List Call) :
    let driven := (start program config).drive calls
    let count := calls.count .sweep
    ((driven.resolve.Warns → Unsettled program config driven.resolve.sweeps) ↔
        count < config.maxSweeps ∨ Unsettled program config count) ∧
      ¬driven.seed.Warns ∧ driven.seed = (start program config).seed.sweepTimes count ∧
      count ≤ driven.resolve.sweeps ∧ driven.resolve.sweeps ≤ max count config.maxSweeps ∧
      driven.resolve.state.tree = ((start program config).seed.sweepTimes driven.resolve.sweeps).state.tree ∧
      driven.finish.diagnostics = driven.resolve.state.diagnostics ∧ driven.finish.sweeps =
        driven.resolve.sweeps := by
  intro driven count
  have entered : driven.seed = (start program config).seed.sweepTimes count := seed_drive program config calls
  have silent : ¬driven.seed.Warns := entered ▸ not_warns_sweepTimes program config count
  have resolved : driven.resolve = ((start program config).seed.sweepTimes count).resolve :=
    entered ▸ (resolve_seed driven).symm
  rcases resolve_cases program config count with ⟨last, inside, least, sweeps,
    state⟩ | ⟨busy, sweeps, message, state⟩
  · rw [← resolved] at sweeps state
    have quiet : ¬driven.resolve.Warns := by
      intro ⟨problem, member, limit⟩
      rw [state] at member
      cases unstopped_sweepTimes program config (last + 1) problem member limit
    refine ⟨iff_of_true (fun warns => absurd warns quiet) (.inl (by omega)), silent, entered, by
      omega, by omega, ?_, rfl, rfl⟩
    rw [state, sweeps]
  · rw [← resolved] at sweeps state
    have warns : driven.resolve.Warns := warns_of_warn state
    refine ⟨?_, silent, entered, by omega, by omega, ?_, rfl, rfl⟩
    · rw [sweeps]
      by_cases early : count < config.maxSweeps
      · apply iff_of_true _ (.inl early)
        intro _
        -- The last sweep before the bound is one of the resolution.
        obtain ⟨last, same⟩ := Nat.exists_eq_add_one.2 (Nat.zero_lt_of_lt early)
        have all : max count config.maxSweeps = last + 1 := by omega
        rw [all]
        exact busy last (by omega) (by omega)
      · have all : max count config.maxSweeps = count := by omega
        rw [all, or_iff_right early]
        exact forall_prop_of_true warns
    · rw [state, sweeps, State.tree_warn]

/-- Two sweeps of an empty program find nothing and are as many as run anyway, and yet a resolution after
them reports that it stopped at the bound without stabilizing. -/
theorem idle_sweeps_reported :
    let config := { DiscoveryConfig.default with maxSweeps := 2 }
    let driven := (start ⟨[]⟩ config).drive [.sweep, .sweep]
    driven.resolve.state.diagnostics = [⟨.sweepLimit, "stopped after 2 sweeps without stabilizing", none⟩] ∧
      driven.resolve.sweeps = 2 ∧ ¬Unsettled ⟨[]⟩ config 2 := by
  refine ⟨by decide +kernel, by decide +kernel, ?_⟩
  rw [unsettled_succ, not_not]
  exact ⟨by decide +kernel, by decide⟩

end LuaClasses.Discovery.Run
