import LuaClasses.Proofs.IdleWrites
import LuaClasses.Proofs.ShapeReached

/-! A sweep that counts nothing is the end: it leaves the tree as it is, and every sweep after it leaves all
as it is. -/

namespace LuaClasses.Discovery
open ScopeTree

/-- What a step that counts nothing leaves. Done again in the same tree, the step does nothing at all if the
problems that it met are known. -/
structure Rests (step : State → State × Nat) (state : State) : Prop where
  tree : (step state).1.tree = state.tree
  diagnostics : state.diagnostics ⊆ (step state).1.diagnostics
  again : ∀ later : State, later.tree = state.tree → (step state).1.diagnostics ⊆ later.diagnostics →
    step later = (later, 0)

namespace Rests

variable {step : State → State × Nat} {state : State}

theorem congr {other : State → State × Nat} (rests : Rests other state)
    (same : ∀ later : State, later.tree = state.tree → step later = other later) : Rests step state := by
  have here := same state rfl
  refine ⟨here ▸ rests.tree, here ▸ rests.diagnostics, fun later tree known => ?_⟩
  rw [same later tree]
  exact rests.again later tree (here ▸ known)

/-- A step on the tree that counts nothing and changes nothing. -/
theorem withTree (step : ScopeTree → ScopeTree × Nat) (idle : (step state.tree).2 = 0)
    (same : (step state.tree).1 = state.tree) :
    Rests (fun state => (state.withTree (step state.tree).1, (step state.tree).2)) state where
  tree := same
  diagnostics := List.Subset.refl _
  again := by
    intro later tree _
    rw [tree, same, idle, ← tree]
    rfl

theorem skip (state : State) : Rests (fun state => (state, 0)) state where
  tree := rfl
  diagnostics := List.Subset.refl _
  again := fun _ _ _ => rfl

theorem warn (kind : DiagnosticKind) (message : String) (range : Option Range) (state : State) :
    Rests (fun state => (state.warn kind message range, 0)) state where
  tree := state.tree_warn kind message range
  diagnostics := by
    rw [State.diagnostics_warn]
    split
    next => exact List.Subset.refl _
    next => exact List.subset_append_left _ _
  again := by
    intro later _ known
    have met : ⟨kind, message, range⟩ ∈ later.diagnostics := by
      refine known ?_
      rw [State.diagnostics_warn]
      split
      next held => exact held
      next => exact List.mem_append_right _ (List.mem_singleton_self _)
    simp only [State.warn, if_pos met]

/-- Steps that rest one after the other rest together. -/
theorem runEach {α : Type} {step : α → State → State × Nat} {items : List α}
    (each : ∀ item ∈ items, ∀ middle : State, middle.tree = state.tree → (step item middle).2 = 0 →
      Rests (step item) middle)
    (idle : (runEach step items state).2 = 0) : Rests (LuaClasses.runEach step items) state := by
  induction items generalizing state with
  | nil => exact skip state
  | cons item rest ih =>
    obtain ⟨none_first, none_after⟩ := Nat.add_eq_zero_iff.1 idle
    have first := each item List.mem_cons_self state rfl none_first
    have others : Rests (LuaClasses.runEach step rest) (step item state).1 := by
      refine ih (fun other member middle same => ?_) none_after
      exact each other (List.mem_cons_of_mem _ member) middle (same.trans first.tree)
    refine ⟨others.tree.trans first.tree, List.Subset.trans first.diagnostics others.diagnostics,
      fun later tree known => ?_⟩
    have once := first.again later tree (List.Subset.trans others.diagnostics known)
    have further := others.again later (tree.trans first.tree.symm) known
    simp only [LuaClasses.runEach, once, further]

end Rests

section Sweep

variable (config : DiscoveryConfig) {state : State}

private theorem idle_local {tree : ScopeTree} {scope : ScopeId} {name : String}
    {range : Range} {evidence : Evidence}
    (idle : (defineLocal tree scope name range).2.2 +
      (applyEvidence (defineLocal tree scope name range).1
        (defineLocal tree scope name range).2.1 evidence).2 = 0) :
    (applyEvidence (defineLocal tree scope name range).1
      (defineLocal tree scope name range).2.1 evidence).1 = tree := by
  obtain ⟨created, applied⟩ := Nat.add_eq_zero_iff.1 idle
  rw [idle_applyEvidence applied, idle_defineLocal created]

private theorem rests_assignName {frame : Frame} {name : String} {evidence : Evidence} {range : Range}
    (idle : (assignName state frame name evidence range).2 = 0) :
    Rests (fun state => assignName state frame name evidence range) state := by
  cases found : state.tree.lookup name frame.scope with
  | none =>
    simp only [assignName, found] at idle
    refine .congr (.withTree (fun tree =>
      let defined := defineLocal tree frame.scope name range
      let applied := applyEvidence defined.1 defined.2.1 evidence
      (applied.1, defined.2.2 + applied.2)) idle (idle_local idle)) fun later tree => ?_
    simp only [assignName, tree, found]
  | some id =>
    cases isVariable : (state.tree.variableAt? id).isSome with
    | true =>
      simp only [assignName, found, isVariable, if_true] at idle
      refine .congr (.withTree (fun tree => applyEvidence tree id evidence) idle (idle_applyEvidence idle))
        fun later tree => ?_
      simp only [assignName, tree, found, isVariable, if_true]
    | false =>
      refine .congr (.warn .structuralMismatch s!"assignment to non-variable `{name}` skipped"
        (some range) state)
        fun later tree => ?_
      simp only [assignName, tree, found, isVariable, Bool.false_eq_true, if_false]

private theorem rests_assign (formed : state.tree.Formed) (tidy : state.tree.Tidy) {frame : Frame}
    {target : Expr} (plain : ∀ name ∈ target.names, PlainName name) {evidence : Evidence} {range : Range}
    (idle : (assign state frame target evidence range).2 = 0) :
    Rests (fun state => assign state frame target evidence range) state := by
  rw [← Expr.names_unparen] at plain
  unfold assign at idle ⊢
  split at idle
  next name _ => exact rests_assignName idle
  next object name same =>
    rw [same] at plain
    have named := plain name (List.mem_append_right _ (List.mem_singleton_self name))
    split at idle
    next base _ =>
      cases isAlias : frame.isAlias base with
      | true =>
        simp only [isAlias, if_true] at idle ⊢
        exact .withTree (fun tree => assignField tree frame name evidence range) idle
          (idle_assignField formed tidy named idle)
      | false =>
        simp only [isAlias, Bool.false_eq_true, if_false] at idle ⊢
        exact .withTree (fun tree => assignMember tree frame base name evidence range)
          idle (idle_assignMember idle)
    next => exact .warn _ _ _ state
  next => exact .warn _ _ _ state

private theorem rests_action (formed : state.tree.Formed) (tidy : state.tree.Tidy) {frame : Frame}
    {range : Range} {action : Action} (plain : ∀ name ∈ action.names, PlainName name)
    (idle : (action.run config frame range state).2 = 0) :
    Rests (fun state => action.run config frame range state) state := by
  cases action with
  | block kind index =>
    exact .withTree (fun tree => ((enterBlock tree frame.scope kind index).1,
      (enterBlock tree frame.scope kind index).2.2))
      idle (idle_enterBlock idle)
  | local_ name value =>
    exact .withTree (fun tree =>
      let defined := defineLocal tree frame.scope name range
      let applied := applyEvidence defined.1 defined.2.1 (classifyValue config tree frame value)
      (applied.1, defined.2.2 + applied.2)) idle (idle_local idle)
  | target expr value =>
    refine .congr (rests_assign formed tidy plain idle) fun later tree => ?_
    simp only [Action.run, tree]
  | return_ values =>
    cases gathers : frame.function with
    | none => exact .congr (.skip state) fun later _ => by simp only [Action.run, gathers]
    | some function =>
      simp only [Action.run, gathers] at idle
      refine .congr (.withTree (fun tree => applyEvidence tree
        function (returnEvidence config tree frame values)) idle
        (idle_applyEvidence idle)) fun later _ => ?_
      simp only [Action.run, gathers]

private theorem rests_site (formed : state.tree.Formed) (tidy : state.tree.Tidy) {frame : Frame} {site : Site}
    (plain : ∀ name ∈ site.action.names, PlainName name) (idle : (site.run config frame state).2 = 0) :
    Rests (fun state => site.run config frame state) state := by
  cases found : state.tree.find? site.scope with
  | none => exact .congr (.skip state) fun later tree => by simp only [Site.run, tree, found]
  | some scope =>
    simp only [Site.run, found] at idle
    refine .congr (rests_action config formed tidy plain idle) fun later tree => ?_
    simp only [Site.run, tree, found]

private theorem rests_runSites (formed : state.tree.Formed) (tidy : state.tree.Tidy) {frame : Frame}
    {sites : List Site} (plain : ∀ site ∈ sites, ∀ name ∈ site.action.names, PlainName name)
    (idle : (runSites config frame sites state).2 = 0) :
    Rests (runSites config frame sites) state :=
  .runEach (fun site member _ same idle =>
    rests_site config (same ▸ formed) (same ▸ tidy) (plain site member) idle) idle

theorem rests_runTours (formed : state.tree.Formed) (tidy : state.tree.Tidy) {tours : List Tour}
    (fair : ∀ tour ∈ tours, tour.Fair state.tree) (idle : (runTours config tours state).2 = 0) :
    Rests (runTours config tours) state := by
  refine .runEach (fun tour member _ same idle => ?_) idle
  obtain ⟨names, plain, belong⟩ := (fair tour member).belong
  exact rests_runSites config (same ▸ formed) (same ▸ tidy)
    (fun site listed name used => plain name ((belong site listed).names used)) idle

/-- A sweep that counts nothing leaves the tree as it is, and the sweep after it leaves everything as it
is. -/
theorem rests_sweep (formed : state.Formed) (tidy : state.Tidy) (idle : (sweep config state).2 = 0) :
    (sweep config state).1.tree = state.tree ∧ sweep config (sweep config state).1 =
    ((sweep config state).1, 0) := by
  obtain ⟨last, grows⟩ := advances_sweep config state formed
  rw [sweep_eq config formed] at idle
  obtain ⟨walked, propagated⟩ := Nat.add_eq_zero_iff.1 idle
  have rests := rests_runTours config formed.tree tidy.tree (fair_tours config formed tidy) walked
  have unmoved : (sweep config state).1 = (runTours config (tours config state) state).1 := by
    rw [sweep_eq config formed]
    dsimp only
    rw [idle_propagate propagated]
    rfl
  rw [unmoved] at last grows ⊢
  have same : tours config (runTours config (tours config state) state).1 = tours config state := by
    rw [tours, grows.classes, rests.tree, tours]
  have again := rests.again _ rests.tree (List.Subset.refl _)
  refine ⟨rests.tree, ?_⟩
  rw [sweep_eq config last]
  simp only [same, again, propagated, idle_propagate propagated]
  rfl

end Sweep

/-- Sweeps that do not stop at their bound end with a sweep that finds nothing. -/
theorem last_sweep (config : DiscoveryConfig) {property : State → Prop}
    (kept : ∀ state, property state → property (sweep config state).1) (left total : Nat) {state : State}
    (held : property state) :
    (∃ problem ∈ (sweepUntilIdle config left total state).1.diagnostics, problem.kind = .sweepLimit) ∨
      ∃ before, property before ∧ (sweep config before).2 = 0 ∧
        (sweepUntilIdle config left total state).1 = (sweep config before).1 := by
  induction left generalizing total state with
  | zero =>
    refine .inl ⟨⟨.sweepLimit, s!"stopped after {total} sweeps without stabilizing", none⟩, ?_, rfl⟩
    rw [sweepUntilIdle, State.diagnostics_warn]
    split
    next known => exact known
    next => exact List.mem_append_right _ (List.mem_singleton_self _)
  | succ left ih =>
    rw [sweepUntilIdle]
    dsimp only
    split
    next idle => exact .inr ⟨state, held, idle.1, rfl⟩
    next => exact ih (total + 1) (kept state held)

namespace Run

variable {program : Program} {config : DiscoveryConfig} {run : Run}

/-- The run after further sweeps. -/
def sweepTimes (run : Run) : Nat → Run
  | 0 => run
  | count + 1 => (run.sweepTimes count).sweep.1

theorem Reached.further (reached : Reached program config run) (count : Nat) :
    Reached program config (run.sweepTimes count) := by
  induction count with
  | zero => exact reached
  | succ count ih => exact .swept ih

/-- What a sweep leaves as it is, all further sweeps leave as it is. -/
theorem Reached.stays (reached : Reached program config run)
    (rests : Discovery.sweep config run.state = (run.state, 0)) (count : Nat) :
    (run.sweepTimes count).state = run.state ∧ (run.sweepTimes count).sweep.2 = 0 := by
  induction count with
  | zero => exact ⟨rfl, reached.sweep_eq.2.trans (by rw [rests])⟩
  | succ count ih =>
    have next := reached.further count
    have same : (run.sweepTimes (count + 1)).state = run.state := by
      rw [sweepTimes, next.sweep_eq.1, ih.1, rests]
    exact ⟨same, by rw [(reached.further (count + 1)).sweep_eq.2, same, rests]⟩

theorem Reached.final (reached : Reached program config run) (plain : program.Plain)
    (idle : run.sweep.2 = 0) :
    run.sweep.1.state.tree = run.state.tree ∧
      ∀ count, (run.sweep.1.sweepTimes count).sweep.2 = 0 ∧
        (run.sweep.1.sweepTimes count).sweep.1.state = run.sweep.1.state := by
  have found := reached.sweep_eq.2.symm.trans idle
  obtain ⟨tree, rests⟩ := rests_sweep config reached.formed (reached.tidy plain) found
  rw [← reached.sweep_eq.1] at tree rests
  refine ⟨tree, fun count => ⟨(Reached.stays (.swept reached) rests count).2, ?_⟩⟩
  exact (Reached.stays (.swept reached) rests (count + 1)).1

/-- Sweeping until nothing is found ends in such a state, or says that it did not. -/
theorem rests_sweepUntilIdle (config : DiscoveryConfig) (left total : Nat) {state : State}
    (formed : state.Formed) (tidy : state.Tidy) :
    (∃ problem ∈ (sweepUntilIdle config left total state).1.diagnostics, problem.kind = .sweepLimit) ∨
      Discovery.sweep config (sweepUntilIdle config left total state).1 =
        ((sweepUntilIdle config left total state).1, 0) := by
  have kept : ∀ state : State, state.Formed ∧ state.Tidy →
      (Discovery.sweep config state).1.Formed ∧ (Discovery.sweep config state).1.Tidy := by
    intro state both
    obtain ⟨last, kept, _⟩ := tends_sweep config both.1 both.2
    exact ⟨last, kept⟩
  rcases last_sweep config kept left total ⟨formed, tidy⟩ with limited | ⟨before, ⟨formed, tidy⟩, idle, ended⟩
  · exact .inl limited
  · rw [ended]
    exact .inr (rests_sweep config formed tidy idle).2

/-- A sweep that reports nothing is a true fixed point, so a discovery that did not stop at the bound on
sweeps ends in one. -/
theorem idle_sweep_is_final (config : DiscoveryConfig) (plain : program.Plain) :
    (∀ run, Reached program config run → run.sweep.2 = 0 →
      run.sweep.1.state.tree = run.state.tree ∧
        ∀ count, (run.sweep.1.sweepTimes count).sweep.2 = 0 ∧
          (run.sweep.1.sweepTimes count).sweep.1.state = run.sweep.1.state) ∧
    ((∀ problem ∈ (discover program config).diagnostics, problem.kind ≠ .sweepLimit) →
      (start program config).resolve.state.tree = (discover program config).tree ∧
        (start program config).resolve.sweep.2 = 0 ∧
        (start program config).resolve.sweep.1.state = (start program config).resolve.state) := by
  refine ⟨fun run reached => reached.final plain, fun unlimited => ?_⟩
  have seeded : (start program config).seed.resolve = (start program config).resolve := rfl
  have reached : Reached program config (start program config).resolve := seeded ▸ .resolved .seeded
  rcases rests_sweepUntilIdle config config.maxSweeps 0 formed_seeded (tidy_seeded config plain) with
    ⟨problem, met, limit⟩ | rests
  · exact absurd limit (unlimited problem met)
  · have rests : Discovery.sweep config (start program config).resolve.state =
      ((start program config).resolve.state, 0) := rests
    exact ⟨rfl, reached.sweep_eq.2.trans (by rw [rests]), reached.sweep_eq.1.trans (by rw [rests])⟩

theorem cell_sweep_is_final :
    cellProgram.Plain ∧ (start cellProgram .default).seed.sweep.1.sweep.2 = 0 ∧
      (start cellProgram .default).seed.sweep.1.sweep.1.state.tree =
      (start cellProgram .default).seed.sweep.1.state.tree ∧
      (start cellProgram .default).resolve.sweep.2 = 0 := by
  have plain : cellProgram.Plain := by decide
  have idle : (start cellProgram .default).seed.sweep.1.sweep.2 = 0 := by decide +kernel
  have unlimited : ∀ problem ∈ (discover cellProgram .default).diagnostics,
    problem.kind ≠ .sweepLimit := by decide +kernel
  obtain ⟨final, ended⟩ := idle_sweep_is_final .default plain
  exact ⟨plain, idle, (final _ (.swept .seeded) idle).1, (ended unlimited).2.1⟩

end Run
end LuaClasses.Discovery
