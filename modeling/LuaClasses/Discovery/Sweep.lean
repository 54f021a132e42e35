import LuaClasses.Discovery.Members
import LuaClasses.Discovery.Propagation

/-! Sweeps: every body of every class is walked again, and types are propagated, until a sweep
finds nothing or the bound on sweeps is reached. -/

namespace LuaClasses.Discovery

/-- Walk the constructor of a class, if it has one. -/
def walkConstructor (config : DiscoveryConfig) (bodies : ClassBodies) (state : State) : State × Nat :=
  match bodies.constructor, state.tree.classAt? bodies.owner with
  | some body, some owner =>
    let selfAlias := ((state.tree.entity? owner.constructor).bind Entity.asConstructor?).bind
      Constructor.selfAlias
    walkBody config (.ofConstructor owner.constructor selfAlias) body state
  | _, _ => (state, 0)

/-- Walk the static functions of a class in the order of their definition. -/
def walkFunctions (config : DiscoveryConfig) (bodies : ClassBodies) (state : State) : State × Nat :=
  bodies.functions.values.foldl (fun (state, found) (id, body) =>
    let (state, more) := walkBody config (.ofFunction id) body state
    (state, found + more)) (state, 0)

/-- Walk the constructor, the static functions and the methods of a class. -/
def walkClass (config : DiscoveryConfig) (bodies : ClassBodies) (state : State) : State × Nat :=
  let (state, constructor) := walkConstructor config bodies state
  let (state, functions) := walkFunctions config bodies state
  let (state, methods) := walkMethods config bodies state
  (state, constructor + functions + methods)

/-- One sweep, with the number of its discoveries. -/
def sweep (config : DiscoveryConfig) (state : State) : State × Nat :=
  let (state, walked) := state.classes.foldl (fun (state, found) bodies =>
    let (state, more) := walkClass config bodies state
    (state, found + more)) (state, 0)
  let (tree, propagated) := propagate state.tree
  (state.withTree tree, walked + propagated)

/-- Sweep until a sweep finds nothing and enough sweeps ran, or until none is left. `total` counts
the sweeps run so far, and is given back. -/
def sweepUntilIdle (config : DiscoveryConfig) : (left total : Nat) → State → State × Nat
  | 0, total, state =>
    (state.warn .sweepLimit s!"stopped after {total} sweeps without stabilizing" none, total)
  | left + 1, total, state =>
    let (state, found) := sweep config state
    if found = 0 ∧ config.minSweeps ≤ total + 1 then (state, total + 1)
    else sweepUntilIdle config left (total + 1) state

/-- Sweep up to the bound, after `total` sweeps that were run before. -/
def runToFixedPoint (config : DiscoveryConfig) (total : Nat) (state : State) : State × Nat :=
  sweepUntilIdle config (config.maxSweeps - total) total state

end LuaClasses.Discovery
