import LuaClasses.Discovery.Run
import LuaClasses.Proofs.EntrySteps
import LuaClasses.Proofs.FixedPoint
import LuaClasses.Proofs.Reach
import LuaClasses.Proofs.SweepGains
import LuaClasses.Proofs.Unstopped

/-! Resolution converges. The bound on the number of sweeps decides when the sweeps stop and nothing else.
The bodies of a program reach finitely many paths, types and reference names, so the weight of the tree is
bounded, and every sweep that finds something adds to it. -/

namespace LuaClasses

/-- The same configuration with another bound on the number of sweeps. -/
def DiscoveryConfig.upTo (config : DiscoveryConfig) (limit : Nat) : DiscoveryConfig :=
  { config with maxSweeps := limit }

namespace Discovery

variable (config : DiscoveryConfig) (limit : Nat)

private theorem classify_upTo (tree : ScopeTree) (frame : Frame) :
    (expr : Expr) → classify (config.upTo limit) tree frame expr = classify config tree frame expr
  | .paren inner => classify_upTo tree frame inner
  | .binary _ left right => by
    simp only [classify, classify_upTo tree frame left, classify_upTo tree frame right]
  | .unary _ _ | .name _ | .member _ _ | .call _ _ | .methodCall _ _ _ => rfl
  | .nil | .boolean _ | .number _ | .string _ | .vararg | .function _ | .table _ | .index _ _ => rfl

private theorem classifyValue_upTo (tree : ScopeTree) (frame : Frame) (value : Option Expr) :
    classifyValue (config.upTo limit) tree frame value = classifyValue config tree frame value := by
  cases value with
  | none => rfl
  | some expr => exact classify_upTo config limit tree frame expr

private theorem returnEvidence_upTo (tree : ScopeTree) (frame : Frame) (values : List Expr) :
    returnEvidence (config.upTo limit) tree frame values = returnEvidence config tree frame values := by
  cases values with
  | nil => rfl
  | cons first rest => exact classify_upTo config limit tree frame first

/-! ### The walk -/

private theorem declareLocals_upTo (frame : Frame) (range : Range) (names : List String)
    (values : List Expr) (state : State) :
    declareLocals (config.upTo limit) frame range names values state = declareLocals config frame
      range names values state := by
  induction names generalizing values state with
  | nil => rfl
  | cons name rest ih => simp only [declareLocals, classifyValue_upTo, ih]

private theorem assignAll_upTo (frame : Frame) (range : Range) (targets values : List Expr) (state : State) :
    assignAll (config.upTo limit) frame range targets values state = assignAll config frame range
      targets values state := by
  induction targets generalizing values state with
  | nil => rfl
  | cons target rest ih => simp only [assignAll, classifyValue_upTo, ih]

mutual
theorem walkStmts_upTo (config : DiscoveryConfig) (limit : Nat) (frame : Frame)
    (earlier : List BlockKind) (state : State) :
    (body : List Stmt) → walkStmts (config.upTo limit) body frame earlier state =
    walkStmts config body frame earlier state
  | [] => rfl
  | stmt :: rest => by
    simp only [walkStmts, walkStmt_upTo config limit frame earlier state stmt]
    rw [walkStmts_upTo config limit frame _ _ rest]

theorem walkStmt_upTo (config : DiscoveryConfig) (limit : Nat) (frame : Frame) (earlier : List BlockKind)
    (state : State) :
    (stmt : Stmt) → walkStmt (config.upTo limit) stmt frame earlier state =
    walkStmt config stmt frame earlier state
  | ⟨kind, range⟩ => walkKind_upTo config limit range frame earlier state kind

theorem walkKind_upTo (config : DiscoveryConfig) (limit : Nat) (range : Range) (frame : Frame)
    (earlier : List BlockKind) (state : State) :
    (kind : StmtKind) → walkKind (config.upTo limit) kind range frame earlier state =
    walkKind config kind range frame earlier state
  | .local_ names values => declareLocals_upTo config limit frame range names values state
  | .assign targets values => assignAll_upTo config limit frame range targets values state
  | .return_ values => by simp only [walkKind, returnEvidence_upTo]
  | .if_ clauses => by simp only [walkKind]; rw [walkClauses_upTo config limit _ _ _ clauses]
  | .while_ _ body | .repeat_ body _ | .do_ body =>
    by simp only [walkKind]; rw [walkStmts_upTo config limit _ _ _ body]
  | .forNumeric _ _ _ _ body | .forGeneric _ _ body =>
    by simp only [walkKind]; rw [walkStmts_upTo config limit _ _ _ body]
  | .call _ | .function _ _ _ | .break_ | .goto _ | .label _ => rfl

theorem walkClauses_upTo (config : DiscoveryConfig) (limit : Nat) (frame : Frame) (index : Nat)
    (state : State) :
    (clauses : List IfClause) →
      walkClauses (config.upTo limit) clauses frame index state = walkClauses config clauses frame index state
  | [] => rfl
  | clause :: rest => by
    simp only [walkClauses, walkClause_upTo config limit frame index state clause]
    rw [walkClauses_upTo config limit frame _ _ rest]

theorem walkClause_upTo (config : DiscoveryConfig) (limit : Nat) (frame : Frame) (index : Nat)
    (state : State) :
    (clause : IfClause) → walkClause (config.upTo limit) clause frame index state =
    walkClause config clause frame index state
  | ⟨_, body⟩ => by simp only [walkClause]; rw [walkStmts_upTo config limit _ _ _ body]
end

private theorem walkMethods_upTo (bodies : ClassBodies) (state : State) :
    walkMethods (config.upTo limit) bodies state = walkMethods config bodies state := by
  simp only [walkMethods, walkBody, walkStmts_upTo]
  rfl

private theorem sweep_upTo (state : State) : sweep (config.upTo limit) state = sweep config state := by
  simp only [sweep, walkClass, walkConstructor, walkFunctions, walkMethods_upTo, walkBody, walkStmts_upTo]

/-! ### The entry of classes and members -/

private theorem declareBindings_upTo (range : Range) (targets : List (Option String))
    (values : List Expr) (state : State) :
    declareBindings (config.upTo limit) range targets values state = declareBindings config range
      targets values state := by
  induction values generalizing targets state with
  | nil => unfold declareBindings; rfl
  | cons value rest ih => simp only [declareBindings, ih]; rfl

private theorem declareGlobal_upTo (name : String) (value : Option Expr) (range : Range) (state : State) :
    declareGlobal (config.upTo limit) name value range state =
      declareGlobal config name value range state := by
  simp only [declareGlobal, declareGlobalValue, classifyValue_upTo]
  rfl

private theorem declareGlobals_upTo (range : Range) (names : List String) (values : List Expr)
    (state : State) :
    declareGlobals (config.upTo limit) range names values state =
      declareGlobals config range names values state := by
  induction names generalizing values state with
  | nil => rfl
  | cons name rest ih => simp only [declareGlobals, declareGlobal_upTo, ih]

private theorem indexTargets_upTo (range : Range) (targets values : List Expr) (state : State) :
    indexTargets (config.upTo limit) range targets values state = indexTargets config range
      targets values state := by
  induction targets generalizing values state with
  | nil => rfl
  | cons target rest ih => simp only [indexTargets, indexTarget, declareGlobal_upTo, classifyValue_upTo, ih]

private theorem indexStatement_upTo (state : State) (stmt : Stmt) :
    indexStatement (config.upTo limit) state stmt = indexStatement config state stmt := by
  simp only [indexStatement, declareGlobals_upTo, indexTargets_upTo]

private theorem defineTargets_upTo (owner : ScopeId) (ownerName : String) (range : Range)
    (targets values : List Expr) (state : State) :
    defineTargets (config.upTo limit) owner ownerName range targets values state =
      defineTargets config owner ownerName range targets values state := by
  induction targets generalizing values state with
  | nil => rfl
  | cons target rest ih => simp only [defineTargets, defineTarget, defineValue, classify_upTo, ih]; rfl

private theorem defineStatement_upTo (owner : ScopeId) (ownerName : String) (state : State) (stmt : Stmt) :
    defineStatement (config.upTo limit) owner ownerName state stmt = defineStatement config owner
      ownerName state stmt := by
  simp only [defineStatement, defineTargets_upTo]
  rfl

private theorem seeded_upTo (program : Program) :
    seeded (config.upTo limit) program = seeded config program := by
  have declared : declared (config.upTo limit) program = declared config program := by
    have statement : declareStatement (config.upTo limit) = declareStatement config := by
      funext state stmt
      simp only [declareStatement, declareBindings_upTo]
    simp only [Discovery.declared, declareClasses, statement]
    rfl
  have index : indexStatement (config.upTo limit) = indexStatement config := by
    funext state stmt
    exact indexStatement_upTo config limit state stmt
  have members : defineMembers (config.upTo limit) program = defineMembers config program := by
    have define : ∀ owner name, defineStatement (config.upTo limit) owner name =
        defineStatement config owner name := by
      intro owner name
      funext state stmt
      exact defineStatement_upTo config limit owner name state stmt
    funext state owner
    simp only [defineMembers, define]
  simp only [seeded, enterMembers, declared, index, members, walkMethods_upTo]

end Discovery
end LuaClasses

/-! ### Steps within a horizon -/

namespace LuaClasses
open Discovery

namespace Horizon

variable {horizon : Horizon} {config : DiscoveryConfig} {state : State}

theorem Holds.runTours (holds : horizon.Holds state.tree) (closed : horizon.Closed config)
    (formed : state.Formed) {tours : List Tour}
    (serves : ∀ tour ∈ tours, ∀ site ∈ tour.sites, horizon.Serves config site) :
    horizon.Holds (Discovery.runTours config tours state).1.tree := by
  have sites : ∀ (frame : Frame) (sites : List Site) (state : State),
    (∀ site ∈ sites, horizon.Serves config site) →
      state.Formed → horizon.Holds state.tree → horizon.Holds (runSites config frame sites state).1.tree := by
    intro frame sites
    induction sites with
    | nil => exact fun state _ _ holds => holds
    | cons site rest ih =>
      intro state serves formed holds
      have first := holds.site closed formed.tree frame (serves site List.mem_cons_self)
      have after := (advances_site config frame state site formed).1
      exact ih _ (fun other member => serves other (List.mem_cons_of_mem _ member)) after first
  induction tours generalizing state with
  | nil => exact holds
  | cons tour rest ih =>
    have first := sites tour.frame tour.sites state (serves tour List.mem_cons_self) formed holds
    have after := (advances_runSites config tour.frame tour.sites state formed).1
    exact ih first after fun other member => serves other (List.mem_cons_of_mem _ member)

/-- A sweep stays within a horizon that has all that its steps may make. -/
theorem Holds.sweep (holds : horizon.Holds state.tree) (closed : horizon.Closed config)
    (formed : state.Formed)
    (serves : ∀ tour ∈ tours config state, ∀ site ∈ tour.sites, horizon.Serves config site) :
    horizon.Holds (Discovery.sweep config state).1.tree := by
  rw [sweep_eq config formed]
  exact (holds.runTours closed formed serves).propagate closed

/-! ### The horizon of a state -/

section OfState

variable (config : DiscoveryConfig) (state : State)

/-- The steps of all sweeps. -/
def sitesOf : List Site := (tours config state).flatMap Tour.sites

def entitiesOf : List Entity := state.tree.nodes.filterMap Node.entity

def pathsOf : List String := state.tree.nodes.map Node.raw ++ (sitesOf config state).flatMap Site.paths

def namesOf : List String := (entitiesOf state).filterMap fun entity => entity.asClass?.map Class.name

/-- All that a tree has and all that the sweeps may come to. -/
def ofState : Horizon where
  paths := pathsOf config state
  names := namesOf state
  types :=
    [.nil, .boolean, .number, .string, .table, .function, .vararg, .void] ++ config.builtins.values ++
      (namesOf state).map .instanceOf ++ (entitiesOf state).flatMap fun entity => entity.gathered.types
  keys :=
    "" :: (pathsOf config state ++ ((entitiesOf state).flatMap fun entity => entity.references.keys) ++
      (sitesOf config state).flatMap (Site.targets config (namesOf state)))

theorem mem_entitiesOf {id : ScopeId} {entity : Entity} (held : state.tree.entity? id = some entity) :
    entity ∈ entitiesOf state := by
  obtain ⟨node, found, occupied⟩ := Option.bind_eq_some_iff.1 held
  refine List.mem_filterMap.2 ⟨node, ?_, occupied⟩
  exact ScopeTree.mem_nodes found

theorem ofState_closed : (ofState config state).Closed config where
  plain := by
    intro type plain
    simp only [ofState, List.append_assoc]
    apply List.mem_append_left
    cases type with
    | instanceOf name => cases plain
    | _ => simp
  builtin := by
    intro path type known
    have member : type ∈ config.builtins.values :=
      List.mem_map.2 ⟨(path, type), OrderedMap.mem_entries_of_get? known, rfl⟩
    simp only [ofState, List.mem_append, member, or_true, true_or]
  instances := by
    intro name member
    have listed : LuaType.instanceOf name ∈ (namesOf state).map .instanceOf := List.mem_map_of_mem member
    simp only [ofState, List.mem_append, listed, or_true, true_or]
  resolved := by
    intro path member
    have listed : path ∈ pathsOf config state := member
    simp only [ofState, List.mem_cons, List.mem_append, listed, or_true, true_or]
  nowhere := List.mem_cons_self

theorem ofState_holds : (ofState config state).Holds state.tree where
  paths := by
    intro id node found
    exact List.mem_append_left _ (List.mem_map_of_mem (ScopeTree.mem_nodes found))
  entities := by
    intro id entity held
    have listed := mem_entitiesOf state held
    refine ⟨fun owner asClass => ?_, fun type member => ?_, fun key member => ?_⟩
    · exact List.mem_filterMap.2 ⟨entity, listed, by rw [asClass]; rfl⟩
    · exact List.mem_append_right _ (List.mem_flatMap.2 ⟨entity, listed, member⟩)
    · refine List.mem_cons_of_mem _ (List.mem_append_left _ (List.mem_append_right _ ?_))
      exact List.mem_flatMap.2 ⟨entity, listed, member⟩

private theorem ofState_serves :
    ∀ tour ∈ tours config state, ∀ site ∈ tour.sites, (ofState config state).Serves config site := by
  intro tour member site step
  have listed : site ∈ sitesOf config state := List.mem_flatMap.2 ⟨tour, member, step⟩
  refine ⟨fun path made => ?_, fun target left => ?_⟩
  · exact List.mem_append_right _ (List.mem_flatMap.2 ⟨site, listed, made⟩)
  · exact List.mem_cons_of_mem _ (List.mem_append_right _ (List.mem_flatMap.2 ⟨site, listed, left⟩))

end OfState
end Horizon

namespace Discovery.Run

variable {program : Program} {config : DiscoveryConfig} {run : Run}

/-- The number of the first sweeps that find something. -/
def fruitful (run : Run) (count : Nat) : Nat :=
  (List.range count).countP fun sweeps => (run.sweepTimes sweeps).sweep.2 ≠ 0

private theorem fruitful_succ (run : Run) (count : Nat) :
    run.fruitful (count + 1) = run.fruitful count + if (run.sweepTimes count).sweep.2 ≠ 0 then 1 else 0 := by
  simp only [fruitful, List.range_succ, List.countP_append, List.countP_cons, List.countP_nil,
    Nat.zero_add, decide_eq_true_eq]

/-- What the sweeps keep: the horizon and the tours, and the weight that pays for the sweeps that found
something. -/
theorem Reached.within (reached : Reached program config run) (count : Nat) :
    (Horizon.ofState config run.state).Holds (run.sweepTimes count).state.tree ∧
      tours config (run.sweepTimes count).state = tours config run.state ∧
      run.fruitful count ≤ (run.sweepTimes count).state.tree.weight := by
  induction count with
  | zero => exact ⟨Horizon.ofState_holds config run.state, rfl, Nat.zero_le _⟩
  | succ count ih =>
    obtain ⟨holds, same, paid⟩ := ih
    have further := reached.further count
    have formed := further.formed
    have gains := gains_sweep config _ formed
    obtain ⟨state, found⟩ := further.sweep_eq
    rw [fruitful_succ, sweepTimes, state, found]
    refine ⟨?_, ?_, ?_⟩
    · refine holds.sweep (Horizon.ofState_closed config run.state) formed ?_
      rw [same]
      exact Horizon.ofState_serves config run.state
    · rw [tours_grows config formed (advances_sweep config _ formed).2, same]
    · unfold Gains at gains
      split <;> omega

/-- A bound on the number of sweeps that find something. -/
theorem Reached.fruitful_le (reached : Reached program config run) (count : Nat) :
    run.fruitful count ≤ (Horizon.ofState config run.state).capacity := by
  obtain ⟨holds, _, paid⟩ := reached.within count
  exact Nat.le_trans paid (holds.weight_le (reached.further count).formed.tree)

private theorem sweepTimes_sweep (run : Run) (count : Nat) :
    run.sweep.1.sweepTimes count = run.sweepTimes (count + 1) := by
  induction count with
  | zero => rfl
  | succ count ih => rw [sweepTimes, ih]; rfl

/-- Whether sweeping may end with the sweep after so many others: it finds nothing, and enough sweeps
ran. `total` counts the sweeps that were run before. -/
def EndsAfter (run : Run) (total count : Nat) : Prop :=
  (run.sweepTimes count).sweep.2 = 0 ∧ run.config.minSweeps ≤ total + count + 1

private theorem endsAfter_sweep (run : Run) (total count : Nat) :
    run.sweep.1.EndsAfter (total + 1) count ↔ run.EndsAfter total (count + 1) := by
  have config : run.sweep.1.config = run.config := by
    simp only [sweep, seed]
    split <;> rfl
  rw [EndsAfter, EndsAfter, sweepTimes_sweep, config, Nat.add_right_comm total 1 count,
    Nat.add_assoc total count 1]

/-- Sweeping ends with the first sweep that it may end with. Where there is none, it stops at the bound
and says so. -/
theorem Reached.halts (reached : Reached program config run) (left total : Nat) :
    (∃ last < left, (∀ count < last, ¬run.EndsAfter total count) ∧ run.EndsAfter total last ∧
      sweepUntilIdle config left total run.state = ((run.sweepTimes (last + 1)).state, total + last + 1)) ∨
    (∀ count < left, ¬run.EndsAfter total count) ∧
      sweepUntilIdle config left total run.state =
        ((run.sweepTimes left).state.warn
          .sweepLimit s!"stopped after {total + left} sweeps without stabilizing" none,
          total + left) := by
  induction left generalizing run total with
  | zero => exact .inr ⟨fun count before => absurd before (Nat.not_lt_zero count), rfl⟩
  | succ left ih =>
    obtain ⟨state, found⟩ := reached.sweep_eq
    rw [sweepUntilIdle]
    dsimp only
    rw [← state, ← found]
    have first : run.EndsAfter total 0 ↔ run.sweep.2 = 0 ∧ config.minSweeps ≤ total + 1 := by
      rw [EndsAfter, reached.config_eq.1]
      rfl
    by_cases idle : run.sweep.2 = 0 ∧ config.minSweeps ≤ total + 1
    · rw [if_pos idle]
      exact .inl ⟨0, Nat.succ_pos left, fun count before => absurd before (Nat.not_lt_zero count),
        first.2 idle, rfl⟩
    · rw [if_neg idle]
      have after : ∀ count, (∀ earlier < count, ¬run.sweep.1.EndsAfter (total + 1) earlier) →
          ∀ earlier < count + 1, ¬run.EndsAfter total earlier := by
        intro count later earlier before
        cases earlier with
        | zero => exact fun ends => idle (first.1 ends)
        | succ earlier =>
          rw [← endsAfter_sweep]
          exact later earlier (Nat.lt_of_succ_lt_succ before)
      rcases ih (.swept reached) (total + 1) with ⟨last, before, earlier, ends, ended⟩ | ⟨none_, ended⟩
      · refine .inl ⟨last + 1, Nat.succ_lt_succ before, after last earlier,
          (endsAfter_sweep run total last).1 ends, ?_⟩
        rw [ended, sweepTimes_sweep, Nat.add_right_comm total 1 last, Nat.add_assoc total last 1]
      · refine .inr ⟨after left none_, ?_⟩
        rw [ended, sweepTimes_sweep, Nat.add_right_comm total 1 left, Nat.add_assoc total left 1]

/-- Sweeping until nothing is found ends with a sweep that found nothing, or no sweep was one to end with. -/
theorem Reached.ends (reached : Reached program config run) (left total : Nat) :
    (∃ last, (run.sweepTimes last).sweep.2 = 0 ∧
      sweepUntilIdle config left total run.state = ((run.sweepTimes last).sweep.1.state, total + last + 1)) ∨
    ∀ count < left, (run.sweepTimes count).sweep.2 ≠ 0 ∨ total + count + 1 < config.minSweeps := by
  rcases reached.halts left total with ⟨last, _, _, ends, ended⟩ | ⟨busy, _⟩
  · exact .inl ⟨last, ends.1, ended⟩
  · refine .inr fun count before => ?_
    have continues := busy count before
    rw [EndsAfter, reached.config_eq.1, not_and_or] at continues
    exact continues.imp_right Nat.lt_of_not_le

/-- If no sweep is one to end with, all but the first ones find something. -/
theorem le_fruitful {run : Run} {least left : Nat}
    (busy : ∀ count < left, (run.sweepTimes count).sweep.2 ≠ 0 ∨ count + 1 < least) :
    left ≤ run.fruitful left + (least - 1) := by
  induction left with
  | zero => exact Nat.zero_le _
  | succ left ih =>
    have before := ih fun count less => busy count (Nat.lt_succ_of_lt less)
    have last := busy left (Nat.lt_succ_self left)
    rw [fruitful_succ]
    split
    next => omega
    next idle =>
      have few := last.resolve_left idle
      omega

/-- The bound on sweeps does not change what the sweeps find. -/
theorem sweepTimes_upTo (program : Program) (config : DiscoveryConfig) (limit count : Nat) :
    ((start program (config.upTo limit)).seed.sweepTimes count).state =
    ((start program config).seed.sweepTimes count).state ∧
      ((start program (config.upTo limit)).seed.sweepTimes count).sweep.2 =
        ((start program config).seed.sweepTimes count).sweep.2 := by
  have limited : ∀ count, Reached program (config.upTo limit)
      ((start program (config.upTo limit)).seed.sweepTimes count) :=
    Reached.further .seeded
  have free : ∀ count, Reached program config ((start program config).seed.sweepTimes count) :=
    Reached.further .seeded
  have states : ((start program (config.upTo limit)).seed.sweepTimes count).state =
      ((start program config).seed.sweepTimes count).state := by
    induction count with
    | zero => exact seeded_upTo config limit program
    | succ count ih =>
      rw [sweepTimes, sweepTimes, (limited count).sweep_eq.1, (free count).sweep_eq.1, sweep_upTo, ih]
  refine ⟨states, ?_⟩
  rw [(limited count).sweep_eq.2, (free count).sweep_eq.2, sweep_upTo, states]

private theorem fruitful_upTo (program : Program) (config : DiscoveryConfig) (limit count : Nat) :
    (start program (config.upTo limit)).seed.fruitful count = (start program config).seed.fruitful count := by
  simp only [fruitful, (sweepTimes_upTo program config limit _).2]

theorem unstopped_sweepTimes (program : Program) (config : DiscoveryConfig) (count : Nat) :
    (State.initial config).Unstopped ((start program config).seed.sweepTimes count).state := by
  induction count with
  | zero => exact unstopped_seeded config program
  | succ count ih =>
    have reached : Reached program config ((start program config).seed.sweepTimes count) :=
      .further .seeded count
    rw [sweepTimes, reached.sweep_eq.1]
    exact ih.trans (unstopped_sweep config reached.formed)

/-- Resolution converges on its own: only so many sweeps find something, and whatever bound leaves room
for them and for the sweeps that run anyway is not reached. -/
theorem resolution_converges (program : Program) (config : DiscoveryConfig) :
    ∃ bound, (∀ count, (start program config).seed.fruitful count ≤ bound) ∧
      ∀ limit, bound + max config.minSweeps 1 ≤ limit →
        (discover program (config.upTo limit)).stage = .stable ∧
        (∃ last, (discover program (config.upTo limit)).sweeps = last + 1 ∧
          ((start program (config.upTo limit)).seed.sweepTimes last).sweep.2 = 0 ∧
          ((start program (config.upTo limit)).seed.sweepTimes last).sweep.1.state.tree =
            (discover program (config.upTo limit)).tree) ∧
        ∀ problem ∈ (discover program (config.upTo limit)).diagnostics, problem.kind ≠ .sweepLimit := by
  refine ⟨(Horizon.ofState config (start program config).seed.state).capacity, Reached.fruitful_le .seeded,
    fun limit room => ⟨rfl, ?_⟩⟩
  have reached : Reached program (config.upTo limit) (start program (config.upTo limit)).seed := .seeded
  rcases reached.ends limit 0 with ⟨last, idle, ended⟩ | busy
  · rw [Nat.zero_add] at ended
    have whole : runToFixedPoint (config.upTo limit) 0 (start program (config.upTo limit)).seed.state =
      (((start program (config.upTo limit)).seed.sweepTimes last).sweep.1.state, last + 1) := ended
    have tree : (discover program (config.upTo limit)).tree = _ :=
      congrArg (fun result => result.1.tree) whole
    have problems : (discover program (config.upTo limit)).diagnostics = _ :=
      congrArg (fun result => result.1.diagnostics) whole
    have sweeps : (discover program (config.upTo limit)).sweeps = _ := congrArg Prod.snd whole
    refine ⟨⟨last, sweeps, idle, tree.symm⟩, fun problem member limited => ?_⟩
    rw [problems] at member
    cases unstopped_sweepTimes program (config.upTo limit) (last + 1) problem member limited
  · have spent := le_fruitful fun count less => (busy count less).imp_right fun few => by
      rw [Nat.zero_add] at few; exact few
    rw [fruitful_upTo] at spent
    have paid : (start program config).seed.fruitful limit ≤ _ := Reached.fruitful_le .seeded limit
    have least : (config.upTo limit).minSweeps = config.minSweeps := rfl
    omega

end Discovery.Run
end LuaClasses
