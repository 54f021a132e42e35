import LuaClasses.Discovery.Sweep
import LuaClasses.Report

/-! Discovery from beginning to end, at once or stage by stage. -/

namespace LuaClasses

/-- How far a discovery has come. -/
inductive Stage where
  /-- Classes and members are entered; no sweep has run. -/
  | seeded
  /-- A sweep has run, and more may follow. -/
  | iterating
  /-- Nothing changes any more. -/
  | stable
  deriving DecidableEq, Repr

def Stage.tag : Stage → String
  | .seeded => "seeded"
  | .iterating => "iterating"
  | .stable => "stable"

/-- What was discovered in one program. -/
structure Discovery where
  tree : ScopeTree
  /-- The scopes of the classes in the order of declaration. -/
  classes : List ScopeId
  diagnostics : List Diagnostic
  sweeps : Nat
  stage : Stage

namespace Discovery

def reports (discovery : Discovery) : List ClassReport :=
  discovery.classes.filterMap (ClassReport.ofScope? discovery.tree)

/-- The report on the class of a name. -/
def report? (discovery : Discovery) (name : String) : Option ClassReport :=
  (discovery.tree.classId? name).bind (ClassReport.ofScope? discovery.tree)

/-- A discovery under way. -/
structure Run where
  program : Program
  config : DiscoveryConfig
  state : State
  stage : Option Stage
  sweeps : Nat

namespace Run

def start (program : Program) (config : DiscoveryConfig) : Run :=
  { program, config, state := .initial config, stage := none, sweeps := 0 }

/-- Enter classes and members, unless that is done. -/
def seed (run : Run) : Run :=
  match run.stage with
  | some _ => run
  | none =>
    let state := enterMembers run.config run.program (declareClasses run.config run.program run.state)
    { run with state, stage := some .seeded }

/-- Run one sweep, whatever the stage, and count its discoveries. -/
def sweep (run : Run) : Run × Nat :=
  let run := run.seed
  let (state, found) := Discovery.sweep run.config run.state
  ({ run with state, stage := some .iterating, sweeps := run.sweeps + 1 }, found)

/-- Sweep until nothing changes, unless that is done. -/
def resolve (run : Run) : Run :=
  let run := run.seed
  if run.stage = some .stable then run
  else
    let (state, sweeps) := runToFixedPoint run.config run.sweeps run.state
    { run with state, stage := some .stable, sweeps }

def finish (run : Run) : Discovery :=
  let run := run.resolve
  { tree := run.state.tree
    classes := run.state.classes.map ClassBodies.owner
    diagnostics := run.state.diagnostics
    sweeps := run.sweeps
    stage := .stable }

end Run
end Discovery

/-- Discover the classes of a program. -/
def discover (program : Program) (config : DiscoveryConfig) : Discovery :=
  (Discovery.Run.start program config).finish

/-- The report on the first class that a program declares. -/
def discoverFirst? (program : Program) (config : DiscoveryConfig) : Option ClassReport :=
  let discovery := discover program config
  discovery.classes.head?.bind (ClassReport.ofScope? discovery.tree)

end LuaClasses
